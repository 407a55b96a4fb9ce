import PqcTpm.Types

/-!
# Sized buffers, integers and algorithm selectors

The leaves of `Marshal.c` and `Unmarshal.c`: `TPM2B` buffers, integers and the
`TPMI_ALG_*` selectors. Beside each writer/reader pair stands the statement that
the reader undoes the writer.
-/
namespace PqcTpm
open ByteCodec

/-- `TPM2B` buffers of at most `max` octets. -/
structure Tpm2b (max : Nat) where
  buffer : Bytes
  size_le : buffer.length ≤ max
  deriving DecidableEq

namespace Tpm2b
variable {max : Nat}

def empty : Tpm2b max := ⟨[], Nat.zero_le max⟩

def size (b : Tpm2b max) : Nat := b.buffer.length

/-- The first `max` octets. -/
def ofBytes (bs : Bytes) : Tpm2b max := ⟨bs.take max, List.length_take_le max bs⟩

def marshal (b : Tpm2b max) : Bytes := be 2 b.size ++ b.buffer

def unmarshal (max : Nat) : Unmarshal (Tpm2b max) := do
  let n ← Reader.word 2 (.of .insufficient)
  Reader.check (decide (n ≤ max)) (.of .size)
  let bs ← Reader.take n (.of .insufficient)
  pure (ofBytes bs)

theorem ofBytes_buffer (b : Tpm2b max) : ofBytes b.buffer = b := by
  cases b with
  | mk bs h => simp only [ofBytes, List.take_of_length_le h]

theorem reads (hmax : max < 256 ^ 2) (b : Tpm2b max) : Reads (unmarshal max) b.marshal b := by
  refine (Reads.word _ (Nat.lt_of_le_of_lt b.size_le hmax)).bind ?_
  refine (Reads.check (decide_eq_true b.size_le)).bind_nil ?_
  refine (Reads.take b.buffer _).bind_last ?_
  rw [ofBytes_buffer]
  exact Reads.pure b

end Tpm2b

abbrev Tpm2bDigest := Tpm2b 64
abbrev Tpm2bAuth := Tpm2b 64
abbrev Tpm2bName := Tpm2b 68
abbrev Tpm2bEccParameter := Tpm2b 80

def readUint16 : Unmarshal Nat := Reader.word 2 (.of .insufficient)
def readUint32 : Unmarshal UInt32 := UInt32.ofNat <$> Reader.word 4 (.of .insufficient)

def writeUint32 (n : UInt32) : Bytes := be 4 n.toNat

theorem reads_uint16 {n : Nat} (h : n < 256 ^ 2) : Reads readUint16 (be 2 n) n :=
  Reads.word _ h

theorem reads_uint32 (n : UInt32) : Reads readUint32 (writeUint32 n) n := by
  have h := (Reads.word (.of .insufficient : Fault) (w := 4) (UInt32.toNat_lt n)).map UInt32.ofNat
  rw [UInt32.ofNat_toNat] at h
  exact h

/-! ## Algorithm selectors

The `TPMI_ALG_*` readers differ in the set they accept, in whether the runtime
profile is asked, and in the code they fail with. -/

/-- An enumeration with its algorithm identifiers. -/
structure Selector (α : Type) where
  algId : α → Nat
  all : List α
  mem_all : ∀ a, a ∈ all
  lt : ∀ a, algId a < 256 ^ 2
  inj : ∀ a b, algId a = algId b → a = b
  ne_null : ∀ a, algId a ≠ TpmAlg.null

namespace Selector
variable {α : Type}

/-- A selector that is none of `all`, or is not enabled, fails with `bad`. -/
def unmarshal (S : Selector α) (enabled : α → Bool) (bad : RcCode) : Unmarshal α := do
  let a ← Reader.enum 2 S.algId S.all (.of .insufficient) (.of bad)
  Reader.check (enabled a) (.of bad)
  pure a

def algIdOrNull (S : Selector α) : Option α → Nat
  | none => TpmAlg.null
  | some a => S.algId a

/-- The same reader called with `allowNull`. -/
def unmarshalNull (S : Selector α) (enabled : α → Bool) (bad : RcCode) : Unmarshal (Option α) := do
  let a ← Reader.enum 2 S.algIdOrNull (none :: S.all.map some) (.of .insufficient) (.of bad)
  Reader.check (a.all enabled) (.of bad)
  pure a

theorem reads (S : Selector α) {enabled : α → Bool} {bad : RcCode} {a : α} (h : enabled a = true) :
    Reads (S.unmarshal enabled bad) (be 2 (S.algId a)) a := by
  refine (Reads.enum _ _ (S.mem_all a) (S.lt a) fun b _ hb => S.inj b a hb).bind_last ?_
  exact (Reads.check h).bind_nil (Reads.pure a)

theorem algIdOrNull_lt (S : Selector α) (a : Option α) : S.algIdOrNull a < 256 ^ 2 := by
  cases a with
  | none => exact (by decide : TpmAlg.null < 256 ^ 2)
  | some a => exact S.lt a

theorem algIdOrNull_inj (S : Selector α) {a b : Option α} (h : S.algIdOrNull a = S.algIdOrNull b) :
    a = b := by
  cases a with
  | none =>
      cases b with
      | none => rfl
      | some b => exact absurd h.symm (S.ne_null b)
  | some a =>
      cases b with
      | none => exact absurd h (S.ne_null a)
      | some b => rw [S.inj a b h]

theorem readsNull (S : Selector α) {enabled : α → Bool} {bad : RcCode} {a : Option α}
    (h : a.all enabled = true) :
    Reads (S.unmarshalNull enabled bad) (be 2 (S.algIdOrNull a)) a := by
  have hmem : a ∈ none :: S.all.map some := by
    cases a with
    | none => exact List.mem_cons_self
    | some a => exact List.mem_cons_of_mem none (List.mem_map_of_mem (S.mem_all a))
  refine (Reads.enum _ _ hmem (S.algIdOrNull_lt a) fun b _ hb => S.algIdOrNull_inj hb).bind_last ?_
  exact (Reads.check h).bind_nil (Reads.pure a)

end Selector

/-- `TPMI_ALG_HASH`. -/
inductive HashAlg
  | sha1 | sha256 | sha384 | sha512
  deriving DecidableEq, Repr

def hashSelector : Selector HashAlg where
  algId
    | .sha1 => TpmAlg.sha1
    | .sha256 => TpmAlg.sha256
    | .sha384 => TpmAlg.sha384
    | .sha512 => TpmAlg.sha512
  all := [.sha1, .sha256, .sha384, .sha512]
  mem_all a := by cases a <;> decide
  lt a := by cases a <;> decide
  inj a b := by cases a <;> cases b <;> decide
  ne_null a := by cases a <;> decide

/-- `CryptHashGetDigestSize`. -/
def HashAlg.digestSize : HashAlg → Nat
  | .sha1 => 20
  | .sha256 => 32
  | .sha384 => 48
  | .sha512 => 64

theorem HashAlg.digestSize_pos (alg : HashAlg) : 0 < alg.digestSize := by
  cases alg <;> decide

/-- `TPMI_ALG_SYM_OBJECT`: the block ciphers compiled in. -/
inductive SymCipher
  | tdes | aes | camellia
  deriving DecidableEq, Repr

def symSelector : Selector SymCipher where
  algId
    | .tdes => TpmAlg.tdes
    | .aes => TpmAlg.aes
    | .camellia => TpmAlg.camellia
  all := [.tdes, .aes, .camellia]
  mem_all a := by cases a <;> decide
  lt a := by cases a <;> decide
  inj a b := by cases a <;> cases b <;> decide
  ne_null a := by cases a <;> decide

/-- The `case` labels of `TPMI_AES_KEY_BITS_Unmarshal`, `TPMI_CAMELLIA_KEY_BITS_Unmarshal` and
`TPMI_TDES_KEY_BITS_Unmarshal`. -/
def SymCipher.keyBits : SymCipher → List Nat
  | .tdes => [128, 192]
  | .aes | .camellia => [128, 192, 256]

/-- `AES_BLOCK_SIZES`, `CAMELLIA_BLOCK_SIZES` and `TDES_BLOCK_SIZES`. -/
def SymCipher.blockSize : SymCipher → Nat
  | .tdes => 8
  | .aes | .camellia => 16

/-- `TPMI_ALG_SYM_MODE`. -/
inductive SymMode
  | cmac | ctr | ofb | cbc | cfb | ecb
  deriving DecidableEq, Repr

def symModeSelector : Selector SymMode where
  algId
    | .cmac => TpmAlg.cmac
    | .ctr => TpmAlg.ctr
    | .ofb => TpmAlg.ofb
    | .cbc => TpmAlg.cbc
    | .cfb => TpmAlg.cfb
    | .ecb => TpmAlg.ecb
  all := [.cmac, .ctr, .ofb, .cbc, .cfb, .ecb]
  mem_all a := by cases a <;> decide
  lt a := by cases a <;> decide
  inj a b := by cases a <;> cases b <;> decide
  ne_null a := by cases a <;> decide

/-- `TPMI_ALG_KDF`. -/
inductive KdfAlg
  | mgf1 | kdf1Sp80056a | kdf2 | kdf1Sp800108
  deriving DecidableEq, Repr

def kdfSelector : Selector KdfAlg where
  algId
    | .mgf1 => TpmAlg.mgf1
    | .kdf1Sp80056a => TpmAlg.kdf1Sp80056a
    | .kdf2 => TpmAlg.kdf2
    | .kdf1Sp800108 => TpmAlg.kdf1Sp800108
  all := [.mgf1, .kdf1Sp80056a, .kdf2, .kdf1Sp800108]
  mem_all a := by cases a <;> decide
  lt a := by cases a <;> decide
  inj a b := by cases a <;> cases b <;> decide
  ne_null a := by cases a <;> decide

/-- `TPMI_ALG_KEYEDHASH_SCHEME`. -/
inductive KeyedhashAlg
  | hmac | xor
  deriving DecidableEq, Repr

def keyedhashSelector : Selector KeyedhashAlg where
  algId
    | .hmac => TpmAlg.hmac
    | .xor => TpmAlg.xor
  all := [.hmac, .xor]
  mem_all a := by cases a <;> decide
  lt a := by cases a <;> decide
  inj a b := by cases a <;> cases b <;> decide
  ne_null a := by cases a <;> decide

/-- `TPMI_ALG_RSA_SCHEME`. -/
inductive RsaSchemeAlg
  | rsassa | rsapss | rsaes | oaep
  deriving DecidableEq, Repr

def rsaSchemeSelector : Selector RsaSchemeAlg where
  algId
    | .rsassa => TpmAlg.rsassa
    | .rsapss => TpmAlg.rsapss
    | .rsaes => TpmAlg.rsaes
    | .oaep => TpmAlg.oaep
  all := [.rsassa, .rsapss, .rsaes, .oaep]
  mem_all a := by cases a <;> decide
  lt a := by cases a <;> decide
  inj a b := by cases a <;> cases b <;> decide
  ne_null a := by cases a <;> decide

/-- `TPMI_ALG_ECC_SCHEME`. -/
inductive EccSchemeAlg
  | ecdsa | sm2 | ecdaa | ecschnorr | ecdh | ecmqv
  deriving DecidableEq, Repr

def eccSchemeSelector : Selector EccSchemeAlg where
  algId
    | .ecdsa => TpmAlg.ecdsa
    | .sm2 => TpmAlg.sm2
    | .ecdaa => TpmAlg.ecdaa
    | .ecschnorr => TpmAlg.ecschnorr
    | .ecdh => TpmAlg.ecdh
    | .ecmqv => TpmAlg.ecmqv
  all := [.ecdsa, .sm2, .ecdaa, .ecschnorr, .ecdh, .ecmqv]
  mem_all a := by cases a <;> decide
  lt a := by cases a <;> decide
  inj a b := by cases a <;> cases b <;> decide
  ne_null a := by cases a <;> decide

/-- `TPMI_ALG_PUBLIC`: the object types. -/
inductive ObjectType
  | keyedhash | rsa | ecc | symcipher | mldsa | hashMldsa | mlkem
  deriving DecidableEq, Repr

def publicSelector : Selector ObjectType where
  algId
    | .keyedhash => TpmAlg.keyedhash
    | .rsa => TpmAlg.rsa
    | .ecc => TpmAlg.ecc
    | .symcipher => TpmAlg.symcipher
    | .mldsa => TpmAlg.mldsa
    | .hashMldsa => TpmAlg.hashMldsa
    | .mlkem => TpmAlg.mlkem
  all := [.keyedhash, .rsa, .ecc, .symcipher, .mldsa, .hashMldsa, .mlkem]
  mem_all a := by cases a <;> decide
  lt a := by cases a <;> decide
  inj a b := by cases a <;> cases b <;> decide
  ne_null a := by cases a <;> decide

end PqcTpm
