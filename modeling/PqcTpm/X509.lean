import PqcTpm.PolicySession
import PqcTpm.Object

/-!
# Certificates

`TpmAsn1.c`, `X509_spt.c`, `X509_RSA.c` and `X509_ECC.c`: what `TPM2_CertifyX509` reads out of the partial
certificate that the caller brings, and the fields that it adds. An unmarshaling context is what is left
of its buffer; a context whose size has become -1 is a failure of the reader.
-/
namespace PqcTpm
open ByteCodec

namespace Asn1

def integer : UInt8 := 0x02
def bitString : UInt8 := 0x03
def octetString : UInt8 := 0x04
def null : UInt8 := 0x05
def objectIdentifier : UInt8 := 0x06
def constructedSequence : UInt8 := 0x30
def applicationSpecific : UInt8 := 0xA0
def x509Extensions : UInt8 := 0xA3

/-! ## Reading -/

/-- `CHECK_SIZE` for the length just read. -/
def checkSize (value : Nat) (rest : Bytes) : Option (Nat × Bytes) :=
  if value ≤ rest.length then some (value, rest) else none

/-- `ASN1DecodeLength`. -/
def decodeLength : Bytes → Option (Nat × Bytes)
  | [] => none
  | first :: rest =>
      if first < 0x80 then checkSize first.toNat rest
      else if first = 0x82 then
        match rest with
        | high :: low :: rest => if high < 0x80 then checkSize (high.toNat * 256 + low.toNat) rest else none
        | _ => none
      else if first = 0x81 then
        match rest with
        | low :: rest => checkSize low.toNat rest
        | _ => none
      else none

/-- `ASN1NextTag`: the tag, the length, and what begins with the contents. -/
def nextTag : Bytes → Option (UInt8 × Nat × Bytes)
  | [] => none
  | tag :: rest =>
      if tag &&& 0x1F = 0x1F then none
      else (decodeLength rest).map fun p => (tag, p.1, p.2)

/-- The octets of a bit string but the last, shifted in. -/
def shiftIn : Nat → Bytes → Option Nat
  | value, [] => some value
  | value, b :: rest => if value &&& 0xFF000000 = 0 then shiftIn (value * 256 + b.toNat) rest else none

/-- `ASN1GetBitStringValue`; a string of more than 32 bits that starts with zeros is shifted by a negative number. -/
def getBitStringValue (bs : Bytes) : Except Fault Nat :=
  match nextTag bs with
  | none => .error (.of .value)
  | some (tag, length, rest) =>
      match rest.take length with
      | [] => .error (.of .value)
      | unused :: octets =>
          let shift := unused.toNat
          if tag ≠ bitString ∨ 8 ≤ shift ∨ octets = [] ∧ shift ≠ 0 then .error (.of .value)
          else
            match shiftIn 0 octets.dropLast, octets.getLast? with
            | none, _ => .error (.of .value)
            | some value, none => .ok value
            | some value, some last =>
                if value &&& (0xFF000000 * 2 ^ (8 - shift) % 2 ^ 32) ≠ 0 then .error (.of .value)
                else if 32 < 8 * octets.length - shift then .error .overrun
                else
                  let value := (value * 2 ^ (8 - shift) + last.toNat / 2 ^ shift) % 2 ^ 32
                  .ok (value * 2 ^ (32 - (8 * octets.length - shift)) % 2 ^ 32)

/-- `X509FindExtensionByOID`: the contents of the extension, from its identifier on. -/
def findExtensionByOid (oid : Bytes) : Nat → Bytes → Except Fault (Option Bytes)
  | _, [] => .ok none
  | 0, _ :: _ => .error (.of .value)
  | fuel + 1, bs =>
      match nextTag bs with
      | none => .error (.of .value)
      | some (tag, length, rest) =>
          if tag ≠ constructedSequence then .error (.of .value)
          else if oid.length ≤ length ∧ rest.take oid.length = oid then .ok (some (rest.take length))
          else findExtensionByOid oid fuel (rest.drop length)

/-- `X509GetExtensionBits`. -/
def getExtensionBits : Nat → Bytes → Except Fault Nat
  | 0, _ => .error (.of .value)
  | fuel + 1, bs =>
      match nextTag bs with
      | none => .error (.of .value)
      | some (tag, length, rest) =>
          if length = 0 ∨ rest = [] then .error (.of .value)
          else if tag = octetString then getBitStringValue rest
          else getExtensionBits fuel (rest.drop length)

def oidKeyUsageExtension : Bytes := [0x06, 0x03, 0x55, 0x1D, 0x0F]
def oidTcgTpmaObject : Bytes := [0x06, 0x07, 0x67, 0x81, 0x05, 0x0A, 0x01, 0x01, 0x01]

/-- The use of a key against the attributes of the object. -/
def keyUsageChecks (value : Nat) (a : TpmaObject) : Except Fault Unit :=
  let uses (bits : List Nat) := bits.any fun b => value.testBit b
  if value % 2 ^ 23 ≠ 0 then .error (.of .reservedBits)
  else if uses [25, 26, 31] && !a.sign then .error (.of .value)
  else if uses [23, 24, 27, 28, 29] && !a.decrypt then .error (.of .value)
  else if uses [30] && !a.fixedTPM then .error (.of .value)
  else if uses [29] && !a.restricted then .error (.of .value)
  else .ok ()

/-- `X509ProcessExtensions`. -/
def processExtensions (a : TpmaObject) (extension : Bytes) : Except Fault Unit := do
  let some (outer, _, rest) := nextTag extension | .error (.of .value)
  demand (outer == x509Extensions) (.of .value)
  let some (inner, _, rest) := nextTag rest | .error (.of .value)
  demand (inner == constructedSequence) (.of .value)
  match ← findExtensionByOid oidTcgTpmaObject rest.length rest with
  | none => pure ()
  | some found =>
      let value ← getExtensionBits found.length found
      demand (value == a.toWord) (.of .attributes)
  match ← findExtensionByOid oidKeyUsageExtension rest.length rest with
  | none => .error (.of .value)
  | some found =>
      let value ← getExtensionBits found.length found
      keyUsageChecks value a

/-! ## Writing -/

/-- `ASN1PushLength`. -/
def pushLength (n : Nat) : Bytes :=
  if n ≤ 127 then be 1 n else if n < 256 then 0x81 :: be 1 n else 0x82 :: be 2 n

/-- `ASN1EndEncapsulation`; a bit string is taken to be one of octets. -/
def encapsulate (tag : UInt8) (contents : Bytes) : Bytes :=
  let contents := if tag = bitString then 0 :: contents else contents
  tag :: (pushLength contents.length ++ contents)

/-- `ASN1PushInteger`. -/
def pushInteger (octets : Bytes) : Bytes :=
  let octets := octets.dropWhile fun b => b == 0
  encapsulate integer (if octets.head?.any fun b => 0x80 ≤ b then 0 :: octets else octets)

/-- `X509PushAlgorithmIdentifierSequence`. -/
def pushAlgorithmIdentifier (oid : Bytes) : Bytes := encapsulate constructedSequence (oid ++ [null, 0])

end Asn1

/-! ## Keys and signature algorithms -/

def oidRsa (last : UInt8) : Bytes := [0x06, 0x09, 0x2A, 0x86, 0x48, 0x86, 0xF7, 0x0D, 0x01, 0x01, last]
def oidPkcs1Pub : Bytes := oidRsa 0x01
def oidMgf1 : Bytes := oidRsa 0x08
def oidRsapss : Bytes := oidRsa 0x0A
def oidEccPublic : Bytes := [0x06, 0x07, 0x2A, 0x86, 0x48, 0xCE, 0x3D, 0x02, 0x01]

namespace HashAlg

def oid : HashAlg → Bytes
  | .sha1 => [0x06, 0x05, 0x2B, 0x0E, 0x03, 0x02, 0x1A]
  | .sha256 => [0x06, 0x09, 0x60, 0x86, 0x48, 1, 101, 3, 4, 2, 1]
  | .sha384 => [0x06, 0x09, 0x60, 0x86, 0x48, 1, 101, 3, 4, 2, 2]
  | .sha512 => [0x06, 0x09, 0x60, 0x86, 0x48, 1, 101, 3, 4, 2, 3]

def pkcs1 : HashAlg → Bytes
  | .sha1 => oidRsa 0x05
  | .sha256 => oidRsa 0x0B
  | .sha384 => oidRsa 0x0C
  | .sha512 => oidRsa 0x0D

def ecdsa : HashAlg → Bytes
  | .sha1 => [0x06, 0x07, 0x2A, 0x86, 0x48, 0xCE, 0x3D, 0x04, 0x01]
  | .sha256 => [0x06, 0x08, 0x2A, 0x86, 0x48, 0xCE, 0x3D, 0x04, 0x03, 0x02]
  | .sha384 => [0x06, 0x08, 0x2A, 0x86, 0x48, 0xCE, 0x3D, 0x04, 0x03, 0x03]
  | .sha512 => [0x06, 0x08, 0x2A, 0x86, 0x48, 0xCE, 0x3D, 0x04, 0x03, 0x04]

end HashAlg

/-- `CryptEccGetOID`; the BN curves have none. -/
def EccCurve.oid : EccCurve → Option Bytes
  | .nistP192 => some [0x06, 0x08, 0x2A, 0x86, 0x48, 0xCE, 0x3D, 0x03, 0x01, 0x01]
  | .nistP224 => some [0x06, 0x05, 0x2B, 0x81, 0x04, 0x00, 0x21]
  | .nistP256 => some [0x06, 0x08, 0x2A, 0x86, 0x48, 0xCE, 0x3D, 0x03, 0x01, 0x07]
  | .nistP384 => some [0x06, 0x05, 0x2B, 0x81, 0x04, 0x00, 0x22]
  | .nistP521 => some [0x06, 0x05, 0x2B, 0x81, 0x04, 0x00, 0x23]
  | .bnP256 | .bnP638 => none
  | .sm2P256 => some [0x06, 0x08, 0x2A, 0x81, 0x1C, 0xCF, 0x55, 0x01, 0x82, 0x2D]

open Asn1 in
/-- `X509AddPublicKey`; the exponent 0 stands for 65537. -/
def x509AddPublicKey (a : TpmtPublic) : Option Bytes :=
  match a with
  | { type := .rsa, parameters := q, unique := u, .. } =>
      let exponent := if RsaParms.exponent q = 0 then 65537 else (RsaParms.exponent q).toNat
      some (encapsulate constructedSequence (pushAlgorithmIdentifier oidPkcs1Pub ++
        encapsulate bitString (encapsulate constructedSequence (pushInteger (Tpm2b.buffer u) ++
          pushInteger (be 4 exponent)))))
  | { type := .ecc, parameters := q, unique := u, .. } =>
      (EccParms.curveID q).oid.map fun curve =>
        encapsulate constructedSequence (encapsulate constructedSequence (oidEccPublic ++ curve) ++
          encapsulate bitString (0x04 :: (Tpm2b.buffer u.1 ++ Tpm2b.buffer u.2)))
  | _ => none

/-- `CryptRsaPssSaltSize`. -/
def cryptRsaPssSaltSize (hashSize outSize : Nat) : Nat := min (outSize - hashSize - 2) hashSize

open Asn1 in
/-- `X509AddSigningAlgorithm` for the schemes that have an identifier. -/
def x509AddSigningAlgorithm (a : TpmtPublic) (scheme : Nat) (hashAlg : HashAlg) : Option Bytes :=
  match a with
  | { type := .rsa, unique := u, .. } =>
      if scheme = TpmAlg.rsassa then some (pushAlgorithmIdentifier hashAlg.pkcs1)
      else if scheme = TpmAlg.rsapss then
        if hashAlg = .sha1 then some (pushAlgorithmIdentifier oidRsapss)
        else
          let saltSize := cryptRsaPssSaltSize hashAlg.digestSize (Tpm2b.size u)
          some (encapsulate constructedSequence (oidRsapss ++ encapsulate constructedSequence
            (encapsulate applicationSpecific (pushAlgorithmIdentifier hashAlg.oid) ++
              (encapsulate (applicationSpecific + 1) (encapsulate constructedSequence
                (oidMgf1 ++ pushAlgorithmIdentifier hashAlg.oid)) ++
                encapsulate (applicationSpecific + 2) (pushInteger (be 4 saltSize))))))
      else none
  | { type := .ecc, .. } =>
      if scheme = TpmAlg.ecdsa then some (encapsulate constructedSequence hashAlg.ecdsa) else none
  | _ => none

/-! ## The partial certificate -/

/-- What is found in the partial certificate: the sequences in their order and the extensions. -/
structure PartialCertificate where
  sequences : List Bytes := []
  extensions : Option Bytes := none

/-- The scan over the elements. There is room for four sequences; a fifth is written behind them. -/
def scanElements : Nat → Bytes → PartialCertificate → Except Fault PartialCertificate
  | _, [], p => .ok p
  | 0, _ :: _, _ => .error (.at .value 0x340)
  | fuel + 1, bs, p =>
      match Asn1.nextTag bs with
      | none => .error (.at .value 0x340)
      | some (tag, length, rest) =>
          let element := bs.take (bs.length - rest.length + length)
          if tag = Asn1.constructedSequence then
            if p.sequences.length = 4 then .error .overrun
            else scanElements fuel (rest.drop length) { p with sequences := p.sequences ++ [element] }
          else if tag = Asn1.x509Extensions then
            if p.extensions.isSome then .error (.at .value 0x340)
            else scanElements fuel (rest.drop length) { p with extensions := some element }
          else .error (.at .value 0x340)

/-- A certificate that is to be signed, without what the TPM adds. -/
structure CertificateFields where
  /-- The algorithm of the signature, if the caller names it. -/
  signature : Option Bytes
  issuer : Bytes
  validity : Bytes
  subject : Bytes
  extensions : Bytes
  deriving DecidableEq

/-- The outermost sequence uses all of the parameter and holds three or four sequences and the extensions. -/
def parsePartialCertificate (bs : Bytes) : Except Fault CertificateFields := do
  demand (bs ≠ []) (.at .value 0x340)
  let some (tag, length, rest) := Asn1.nextTag bs | .error (.at .size 0x340)
  demand (tag == Asn1.constructedSequence && length == rest.length) (.at .size 0x340)
  let p ← scanElements rest.length rest {}
  match p.sequences, p.extensions with
  | [issuer, validity, subject], some extensions => pure ⟨none, issuer, validity, subject, extensions⟩
  | [signature, issuer, validity, subject], some extensions => pure ⟨some signature, issuer, validity, subject, extensions⟩
  | _, _ => .error (.at .value 0x340)

end PqcTpm
