import Mathlib.Tactic.IntervalCases
import PqcTpm.Lib.ByteCodec

/-!
# Response codes, handles, attributes and the runtime profile

The part of `TpmTypes.h` and `Global.h` that every other module shares. A command
or a reader ends in a value, in a response code, or in failure mode (`FAIL`,
`pAssert`); success is not a response code here but the `ok` side of `Except`.
-/
namespace PqcTpm
open ByteCodec

/-- The base of a response code, without parameter, handle or session number. -/
inductive RcCode
  | badTag | badVersion | badParameter | failure
  | sequence | authType | authMissing | policy | pcr | pcrChanged | authUnavailable | exclusive
  | commandSize | commandCode | authsize | authContext | nvLocked | nvSpace | nvDefined | disabled
  | cphash | sensitive | asymmetric | attributes | hash | value | hierarchy | keySize | mode | type
  | handle | kdf | range | authFail | nonce | pp | scheme | size | symmetric | tag | selector
  | insufficient | signature | key | policyFail | integrity | ticket | reservedBits | badAuth | expired
  | policyCc | binding | curve | extMu | oneShotSignature | contextGap | objectMemory | sessionMemory
  | sessionHandles | referenceH0 | locality | lockout | nvRate | nvUnavailable
  | nvAuthorization | nvRange | nvUninitialized | tooManyContexts | noResult | memory | canceled | eccPoint
  deriving DecidableEq, Repr

/-- Codes of format one, which have room for the number of a handle or a parameter. -/
def RcCode.formatOne : RcCode → Bool
  | .asymmetric | .attributes | .hash | .value | .hierarchy | .keySize | .mode | .type | .handle | .kdf | .range
  | .authFail | .nonce | .pp | .scheme | .size | .symmetric | .tag | .selector | .insufficient | .signature | .key
  | .policyFail | .integrity | .ticket | .reservedBits | .badAuth | .expired | .policyCc | .binding | .curve | .eccPoint
  | .extMu | .oneShotSignature => true
  | _ => false

/-- A response code; `loc` is what `TPM_RCS_* + RC_<command>_<field>` adds. -/
structure TpmRc where
  code : RcCode
  loc : Nat := 0
  deriving DecidableEq, Repr

/-- How a computation stops early: a response code, `FAIL`/`pAssert`, or a read position that
has left its buffer, after which the source's behaviour is not defined. -/
inductive Fault
  | rc (c : TpmRc)
  | failureMode
  | overrun
  deriving DecidableEq, Repr

def Fault.of (c : RcCode) : Fault := .rc { code := c }

/-- `TPM_RCS_* + RC_<command>_<field>`: handles are numbered from 0x100, parameters from 0x140. -/
def Fault.at (c : RcCode) (loc : Nat) : Fault := .rc { code := c, loc }

/-- `RcSafeAddToResult`; 0xf40 are the bits of a location. -/
def rcSafeAddToResult (modifier : Nat) : Fault → Fault
  | .rc rc => if rc.code.formatOne ∧ rc.loc &&& 0xf40 = 0 then .rc { rc with loc := rc.loc + modifier } else .rc rc
  | e => e

abbrev Unmarshal (α : Type) := Reader Fault α

abbrev TpmHandle := UInt32

namespace TpmHandle

def rhOwner : TpmHandle := 0x40000001
def rhNull : TpmHandle := 0x40000007
def rhUnassigned : TpmHandle := 0x40000008
def rsPw : TpmHandle := 0x40000009
def rhLockout : TpmHandle := 0x4000000A
def rhEndorsement : TpmHandle := 0x4000000B
def rhPlatform : TpmHandle := 0x4000000C
def transientFirst : TpmHandle := 0x80000000

/-- `HandleGetType`: the most significant octet. -/
def getType (h : TpmHandle) : UInt8 := (h >>> 24).toUInt8

def htPcr : UInt8 := 0x00
def htNvIndex : UInt8 := 0x01
def htHmacSession : UInt8 := 0x02
def htPolicySession : UInt8 := 0x03
def htPermanent : UInt8 := 0x40
def htTransient : UInt8 := 0x80
def htPersistent : UInt8 := 0x81

end TpmHandle

/-- `TPMI_RH_HIERARCHY`. -/
inductive Hierarchy
  | owner | endorsement | platform | null
  deriving DecidableEq, Repr

namespace Hierarchy

def handle : Hierarchy → TpmHandle
  | .owner => .rhOwner
  | .endorsement => .rhEndorsement
  | .platform => .rhPlatform
  | .null => .rhNull

def all : List Hierarchy := [.owner, .platform, .endorsement, .null]

end Hierarchy

/-- `OBJECT_ATTRIBUTES`: what the TPM itself keeps about an object slot. -/
structure ObjectAttributes where
  publicOnly : Bool := false
  epsHierarchy : Bool := false
  ppsHierarchy : Bool := false
  spsHierarchy : Bool := false
  evict : Bool := false
  primary : Bool := false
  temporary : Bool := false
  stClear : Bool := false
  hmacSeq : Bool := false
  hashSeq : Bool := false
  eventSeq : Bool := false
  ticketSafe : Bool := false
  firstBlock : Bool := false
  isParent : Bool := false
  privateExp : Bool := false
  occupied : Bool := false
  derivation : Bool := false
  external : Bool := false
  pqcSeq : Bool := false
  /-- Bits 19 to 31. -/
  reserved : BitVec 13 := 0
  deriving DecidableEq, Repr

namespace ObjectAttributes

def flags (a : ObjectAttributes) : List Bool :=
  [a.publicOnly, a.epsHierarchy, a.ppsHierarchy, a.spsHierarchy, a.evict, a.primary, a.temporary,
    a.stClear, a.hmacSeq, a.hashSeq, a.eventSeq, a.ticketSafe, a.firstBlock, a.isParent, a.privateExp,
    a.occupied, a.derivation, a.external, a.pqcSeq]

/-- The bit field as the 32-bit word it occupies. -/
def toWord (a : ObjectAttributes) : Nat := ofBits a.flags + 2 ^ 19 * a.reserved.toNat

def ofWord (n : Nat) : ObjectAttributes where
  publicOnly := n.testBit 0
  epsHierarchy := n.testBit 1
  ppsHierarchy := n.testBit 2
  spsHierarchy := n.testBit 3
  evict := n.testBit 4
  primary := n.testBit 5
  temporary := n.testBit 6
  stClear := n.testBit 7
  hmacSeq := n.testBit 8
  hashSeq := n.testBit 9
  eventSeq := n.testBit 10
  ticketSafe := n.testBit 11
  firstBlock := n.testBit 12
  isParent := n.testBit 13
  privateExp := n.testBit 14
  occupied := n.testBit 15
  derivation := n.testBit 16
  external := n.testBit 17
  pqcSeq := n.testBit 18
  reserved := BitVec.ofNat 13 (n / 2 ^ 19)

theorem toWord_lt (a : ObjectAttributes) : a.toWord < 256 ^ 4 := by
  have hf : ofBits a.flags < 2 ^ 19 := ofBits_lt a.flags
  have hr := a.reserved.isLt
  simp only [toWord]
  omega

theorem testBit_toWord (a : ObjectAttributes) {i : Nat} (hi : i < 19) :
    a.toWord.testBit i = a.flags.getD i false := by
  have hf : ofBits a.flags < 2 ^ 19 := ofBits_lt a.flags
  rw [toWord, Nat.add_comm, Nat.testBit_two_pow_mul_add _ hf, if_pos hi, testBit_ofBits]

@[simp] theorem ofWord_toWord (a : ObjectAttributes) : ofWord a.toWord = a := by
  have hf : ofBits a.flags < 2 ^ 19 := ofBits_lt a.flags
  have hdiv : a.toWord / 2 ^ 19 = a.reserved.toNat := by
    simp only [toWord]
    omega
  simp (disch := decide) only [ofWord, hdiv, testBit_toWord]
  simp only [flags, List.getD_cons_zero, List.getD_cons_succ, BitVec.ofNat_toNat, BitVec.setWidth_eq]

end ObjectAttributes

/-- `TPMA_OBJECT`, without its reserved bits. -/
structure TpmaObject where
  fixedTPM : Bool := false
  stClear : Bool := false
  fixedParent : Bool := false
  sensitiveDataOrigin : Bool := false
  userWithAuth : Bool := false
  adminWithPolicy : Bool := false
  firmwareLimited : Bool := false
  svnLimited : Bool := false
  noDA : Bool := false
  encryptedDuplication : Bool := false
  restricted : Bool := false
  decrypt : Bool := false
  sign : Bool := false
  x509sign : Bool := false
  deriving DecidableEq, Repr

namespace TpmaObject

def flags (a : TpmaObject) : List Bool :=
  [false, a.fixedTPM, a.stClear, false, a.fixedParent, a.sensitiveDataOrigin, a.userWithAuth,
    a.adminWithPolicy, a.firmwareLimited, a.svnLimited, a.noDA, a.encryptedDuplication, false, false,
    false, false, a.restricted, a.decrypt, a.sign, a.x509sign]

def toWord (a : TpmaObject) : Nat := ofBits a.flags

def ofWord (n : Nat) : TpmaObject where
  fixedTPM := n.testBit 1
  stClear := n.testBit 2
  fixedParent := n.testBit 4
  sensitiveDataOrigin := n.testBit 5
  userWithAuth := n.testBit 6
  adminWithPolicy := n.testBit 7
  firmwareLimited := n.testBit 8
  svnLimited := n.testBit 9
  noDA := n.testBit 10
  encryptedDuplication := n.testBit 11
  restricted := n.testBit 16
  decrypt := n.testBit 17
  sign := n.testBit 18
  x509sign := n.testBit 19

def reserved : Nat := 0xfff0f009

@[simp] theorem ofWord_toWord (a : TpmaObject) : ofWord a.toWord = a := by
  simp only [ofWord, toWord, testBit_ofBits, flags, List.getD_cons_zero, List.getD_cons_succ]

theorem toWord_lt (a : TpmaObject) : a.toWord < 256 ^ 4 :=
  Nat.lt_trans (ofBits_lt a.flags) (by decide : 2 ^ 20 < 256 ^ 4)

theorem toWord_reserved (a : TpmaObject) : a.toWord &&& reserved = 0 := by
  apply Nat.eq_of_testBit_eq
  intro i
  rw [Nat.testBit_and, toWord, testBit_ofBits, Nat.zero_testBit]
  by_cases hi : i < 20
  · interval_cases i <;> first | rfl | exact Bool.and_false _
  · have hnone : a.flags[i]? = none := List.getElem?_eq_none (Nat.le_of_not_lt hi)
    rw [List.getD_eq_getElem?_getD, hnone, Option.getD_none, Bool.false_and]

end TpmaObject

/-! Algorithm identifiers (`TPM_ALG_ID`). -/

namespace TpmAlg

def error : Nat := 0x0000
def rsa : Nat := 0x0001
def tdes : Nat := 0x0003
def sha1 : Nat := 0x0004
def hmac : Nat := 0x0005
def aes : Nat := 0x0006
def mgf1 : Nat := 0x0007
def keyedhash : Nat := 0x0008
def xor : Nat := 0x000A
def sha256 : Nat := 0x000B
def sha384 : Nat := 0x000C
def sha512 : Nat := 0x000D
def null : Nat := 0x0010
def rsassa : Nat := 0x0014
def rsaes : Nat := 0x0015
def rsapss : Nat := 0x0016
def oaep : Nat := 0x0017
def ecdsa : Nat := 0x0018
def ecdh : Nat := 0x0019
def ecdaa : Nat := 0x001A
def sm2 : Nat := 0x001B
def ecschnorr : Nat := 0x001C
def ecmqv : Nat := 0x001D
def kdf1Sp80056a : Nat := 0x0020
def kdf2 : Nat := 0x0021
def kdf1Sp800108 : Nat := 0x0022
def ecc : Nat := 0x0023
def symcipher : Nat := 0x0025
def camellia : Nat := 0x0026
def cmac : Nat := 0x003F
def ctr : Nat := 0x0040
def ofb : Nat := 0x0041
def cbc : Nat := 0x0042
def cfb : Nat := 0x0043
def ecb : Nat := 0x0044
def mlkem : Nat := 0x00A0
def mldsa : Nat := 0x00A1
def hashMldsa : Nat := 0x00A2

end TpmAlg

/-- `TPMI_ECC_CURVE`: the curves compiled in. -/
inductive EccCurve
  | nistP192 | nistP224 | nistP256 | nistP384 | nistP521 | bnP256 | bnP638 | sm2P256
  deriving DecidableEq, Repr

namespace EccCurve

def id : EccCurve → Nat
  | .nistP192 => 0x0001
  | .nistP224 => 0x0002
  | .nistP256 => 0x0003
  | .nistP384 => 0x0004
  | .nistP521 => 0x0005
  | .bnP256 => 0x0010
  | .bnP638 => 0x0011
  | .sm2P256 => 0x0020

/-- `CryptEccGetKeySizeForCurve`. -/
def keySize : EccCurve → Nat
  | .nistP192 => 192
  | .nistP224 => 224
  | .nistP256 | .bnP256 | .sm2P256 => 256
  | .nistP384 => 384
  | .nistP521 => 521
  | .bnP638 => 638

def all : List EccCurve :=
  [.nistP192, .nistP224, .nistP256, .nistP384, .nistP521, .bnP256, .bnP638, .sm2P256]

end EccCurve

/-- The fields of `struct RuntimeProfile` that the readers and writers consult. -/
structure RuntimeProfile where
  stateFormatLevel : Nat
  enabledAlgorithms : Nat → Bool
  algosMinimumKeySizes : Nat → Nat
  enabledEccCurves : Nat → Bool
  /-- `CryptEccIsCurveRuntimeUsable`: what the crypto library offers. -/
  curveRuntimeUsable : EccCurve → Bool
  /-- `TPM_ALG_NULL` has `canBeDisabled` clear, so no accepted profile leaves it out. -/
  null_enabled : enabledAlgorithms TpmAlg.null = true

namespace RuntimeProfile

/-- `RuntimeAlgorithmSetDefault` at a given level: every algorithm, key size and curve. -/
def default (level : Nat) : RuntimeProfile where
  stateFormatLevel := level
  enabledAlgorithms _ := true
  algosMinimumKeySizes _ := 0
  enabledEccCurves _ := true
  curveRuntimeUsable _ := true
  null_enabled := rfl

/-- `s_KeySizes*`: key sizes with the `stateFormatLevel` each one needs. -/
def keySizes (algId : Nat) : List (Nat × Nat) :=
  if algId = TpmAlg.aes ∨ algId = TpmAlg.camellia then [(128, 1), (192, 4), (256, 1)]
  else if algId = TpmAlg.tdes then [(128, 1), (192, 1)]
  else if algId = TpmAlg.rsa then [(1024, 1), (2048, 1), (3072, 1)]
  else if algId = TpmAlg.ecc then [(192, 1), (224, 1), (256, 1), (384, 1), (521, 1), (638, 1)]
  else []

/-- `RuntimeAlgorithmCheckEnabled`. -/
def checkEnabled (p : RuntimeProfile) (algId : Nat) : Bool := p.enabledAlgorithms algId

/-- `RuntimeAlgorithmKeySizeCheckEnabled`; `curve` matters for `TPM_ALG_ECC` only. -/
def keySizeCheckEnabled (p : RuntimeProfile) (algId keySize curve : Nat) : Bool :=
  p.checkEnabled algId && decide (p.algosMinimumKeySizes algId ≤ keySize) &&
    (decide (algId = TpmAlg.hmac) ||
      (decide (algId = TpmAlg.ecc → p.enabledEccCurves curve = true) &&
        match (keySizes algId).find? (fun k => k.1 == keySize) with
        | some k => decide (k.2 ≤ p.stateFormatLevel)
        | none => true))

end RuntimeProfile

end PqcTpm
