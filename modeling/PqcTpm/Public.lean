import PqcTpm.Algorithms

/-!
# Public areas on the wire

`Marshal.c` and `Unmarshal.c` for `TPMT_PUBLIC`. A union is a family of types over
its selector, so selector and contents cannot disagree. Readers repeat the tests of
their source function in the source's order, those against the runtime profile
included; `enabled` collects what these tests ask of a value that was written.
-/
namespace PqcTpm
open ByteCodec

namespace HashAlg

/-- `TPMI_ALG_HASH_Unmarshal` without `allowNull`. -/
def unmarshal (p : RuntimeProfile) : Unmarshal HashAlg :=
  hashSelector.unmarshal (fun h => p.checkEnabled (hashSelector.algId h)) .hash

def unmarshalNull (p : RuntimeProfile) (allowNull : Bool) : Unmarshal (Option HashAlg) := do
  let h ← hashSelector.unmarshalNull (fun h => p.checkEnabled (hashSelector.algId h)) .hash
  Reader.check (allowNull || h.isSome) (.of .hash)
  pure h

def marshal (h : HashAlg) : Bytes := be 2 (hashSelector.algId h)

def enabled (p : RuntimeProfile) (h : HashAlg) : Bool := p.checkEnabled (hashSelector.algId h)

theorem reads {p : RuntimeProfile} {h : HashAlg} (he : h.enabled p = true) :
    Reads (unmarshal p) h.marshal h :=
  hashSelector.reads he

theorem readsNull {p : RuntimeProfile} {allowNull : Bool} {h : Option HashAlg}
    (hn : (allowNull || h.isSome) = true) (he : h.all (enabled p) = true) :
    Reads (unmarshalNull p allowNull) (be 2 (hashSelector.algIdOrNull h)) h := by
  refine (hashSelector.readsNull he).bind_last ?_
  exact (Reads.check hn).bind_nil (Reads.pure h)

end HashAlg

/-- `TPMT_SYM_DEF_OBJECT` whose `algorithm` is a cipher. -/
structure SymDef where
  algorithm : SymCipher
  keyBits : Nat
  mode : Option SymMode
  keyBits_mem : keyBits ∈ algorithm.keyBits
  deriving DecidableEq

theorem SymDef.keyBits_lt (d : SymDef) : d.keyBits < 256 ^ 2 := by
  have hall : ∀ a : SymCipher, ∀ n ∈ a.keyBits, n < 256 ^ 2 := by
    intro a
    cases a <;> decide
  exact hall d.algorithm d.keyBits d.keyBits_mem

/-- `TPMT_SYM_DEF_OBJECT`; `none` is `TPM_ALG_NULL`, which has neither key bits nor mode. -/
abbrev TpmtSymDefObject := Option SymDef

namespace TpmtSymDefObject

def marshal : TpmtSymDefObject → Bytes
  | none => be 2 TpmAlg.null
  | some d =>
      be 2 (symSelector.algId d.algorithm) ++
        (be 2 d.keyBits ++ be 2 (symModeSelector.algIdOrNull d.mode))

def unmarshal (p : RuntimeProfile) (allowNull : Bool) : Unmarshal TpmtSymDefObject := do
  let alg ← symSelector.unmarshalNull (fun a => p.checkEnabled (symSelector.algId a)) .symmetric
  Reader.check (allowNull || alg.isSome) (.of .symmetric)
  -- `TPMU_SYM_KEY_BITS_Unmarshal` and `TPMU_SYM_MODE_Unmarshal` ask the profile again
  Reader.check (p.checkEnabled (symSelector.algIdOrNull alg)) (.of .selector)
  match alg with
  | none => pure none
  | some a => do
      let keyBits ← readUint16
      if h : keyBits ∈ a.keyBits then do
        Reader.check (p.keySizeCheckEnabled (symSelector.algId a) keyBits 0) (.of .value)
        let mode ← symModeSelector.unmarshalNull
          (fun m => p.checkEnabled (symModeSelector.algId m)) .mode
        pure (some ⟨a, keyBits, mode, h⟩)
      else Reader.fail (.of .value)

def enabled (p : RuntimeProfile) (d : TpmtSymDefObject) : Bool :=
  d.all fun d =>
    p.checkEnabled (symSelector.algId d.algorithm) &&
      p.keySizeCheckEnabled (symSelector.algId d.algorithm) d.keyBits 0 &&
      d.mode.all fun m => p.checkEnabled (symModeSelector.algId m)

theorem reads {p : RuntimeProfile} {allowNull : Bool} {d : TpmtSymDefObject}
    (hn : (allowNull || d.isSome) = true) (he : enabled p d = true) :
    Reads (unmarshal p allowNull) (marshal d) d := by
  cases d with
  | none =>
      refine Reads.bind_last (symSelector.readsNull (a := none) rfl) ?_
      refine (Reads.check hn).bind_nil ?_
      exact (Reads.check p.null_enabled).bind_nil (Reads.pure none)
  | some d =>
      simp only [enabled, Option.all_some, Bool.and_eq_true] at he
      obtain ⟨⟨ha, hk⟩, hm⟩ := he
      refine Reads.bind (symSelector.readsNull (a := some d.algorithm) ha) ?_
      refine (Reads.check (by simp)).bind_nil ?_
      refine (Reads.check ha).bind_nil ?_
      refine (reads_uint16 d.keyBits_lt).bind ?_
      rw [dif_pos d.keyBits_mem]
      refine (Reads.check hk).bind_nil ?_
      exact (symModeSelector.readsNull hm).bind_last (Reads.pure (some d))

end TpmtSymDefObject

/-- `TPMT_KEYEDHASH_SCHEME`. -/
inductive TpmtKeyedhashScheme
  | hmac (hashAlg : HashAlg)
  | xor (hashAlg : HashAlg) (kdf : Option KdfAlg)
  | null
  deriving DecidableEq, Repr

namespace TpmtKeyedhashScheme

def marshal : TpmtKeyedhashScheme → Bytes
  | .hmac h => be 2 TpmAlg.hmac ++ h.marshal
  | .xor h kdf => be 2 TpmAlg.xor ++ (h.marshal ++ be 2 (kdfSelector.algIdOrNull kdf))
  | .null => be 2 TpmAlg.null

def unmarshal (p : RuntimeProfile) : Unmarshal TpmtKeyedhashScheme := do
  let scheme ← keyedhashSelector.unmarshalNull (fun _ => true) .value
  match scheme with
  | none => pure .null
  | some .hmac => .hmac <$> HashAlg.unmarshal p
  | some .xor => do
      let h ← HashAlg.unmarshal p
      let kdf ← kdfSelector.unmarshalNull (fun _ => true) .kdf
      pure (.xor h kdf)

def enabled (p : RuntimeProfile) : TpmtKeyedhashScheme → Bool
  | .hmac h => h.enabled p
  | .xor h _ => h.enabled p
  | .null => true

theorem reads {p : RuntimeProfile} {s : TpmtKeyedhashScheme} (he : s.enabled p = true) :
    Reads (unmarshal p) s.marshal s := by
  cases s with
  | hmac h =>
      exact Reads.bind (keyedhashSelector.readsNull (a := some .hmac) rfl)
        ((HashAlg.reads he).map _)
  | xor h kdf =>
      refine Reads.bind (keyedhashSelector.readsNull (a := some .xor) rfl) ?_
      refine (HashAlg.reads he).bind ?_
      have hkdf : kdf.all (fun _ => true) = true := by cases kdf <;> rfl
      exact (kdfSelector.readsNull hkdf).bind_last (Reads.pure _)
  | null => exact Reads.bind_last (keyedhashSelector.readsNull (a := none) rfl) (Reads.pure _)

end TpmtKeyedhashScheme

/-- `TPMT_KDF_SCHEME`; every scheme carries a hash algorithm. -/
abbrev TpmtKdfScheme := Option (KdfAlg × HashAlg)

namespace TpmtKdfScheme

def marshal : TpmtKdfScheme → Bytes
  | none => be 2 TpmAlg.null
  | some (k, h) => be 2 (kdfSelector.algId k) ++ h.marshal

def unmarshal (p : RuntimeProfile) : Unmarshal TpmtKdfScheme := do
  let scheme ← kdfSelector.unmarshalNull (fun _ => true) .kdf
  match scheme with
  | none => pure none
  | some k => (fun h => some (k, h)) <$> HashAlg.unmarshal p

def enabled (p : RuntimeProfile) (s : TpmtKdfScheme) : Bool := s.all fun s => s.2.enabled p

theorem reads {p : RuntimeProfile} {s : TpmtKdfScheme} (he : enabled p s = true) :
    Reads (unmarshal p) (marshal s) s := by
  cases s with
  | none => exact Reads.bind_last (kdfSelector.readsNull (a := none) rfl) (Reads.pure none)
  | some s =>
      exact Reads.bind (kdfSelector.readsNull (a := some s.1) rfl) ((HashAlg.reads he).map _)

end TpmtKdfScheme

/-- `TPMT_RSA_SCHEME`; `TPMS_ENC_SCHEME_RSAES` is empty. -/
inductive TpmtRsaScheme
  | rsassa (hashAlg : HashAlg)
  | rsapss (hashAlg : HashAlg)
  | rsaes
  | oaep (hashAlg : HashAlg)
  | null
  deriving DecidableEq, Repr

namespace TpmtRsaScheme

def scheme : TpmtRsaScheme → Option RsaSchemeAlg
  | .rsassa _ => some .rsassa
  | .rsapss _ => some .rsapss
  | .rsaes => some .rsaes
  | .oaep _ => some .oaep
  | .null => none

def hashAlg : TpmtRsaScheme → Option HashAlg
  | .rsassa h | .rsapss h | .oaep h => some h
  | .rsaes | .null => none

def marshal (s : TpmtRsaScheme) : Bytes :=
  be 2 (rsaSchemeSelector.algIdOrNull s.scheme) ++ (s.hashAlg.elim [] HashAlg.marshal)

def unmarshal (p : RuntimeProfile) : Unmarshal TpmtRsaScheme := do
  let scheme ← rsaSchemeSelector.unmarshalNull
    (fun a => p.checkEnabled (rsaSchemeSelector.algId a)) .value
  Reader.check (p.checkEnabled (rsaSchemeSelector.algIdOrNull scheme)) (.of .selector)
  match scheme with
  | some .rsassa => .rsassa <$> HashAlg.unmarshal p
  | some .rsapss => .rsapss <$> HashAlg.unmarshal p
  | some .rsaes => pure .rsaes
  | some .oaep => .oaep <$> HashAlg.unmarshal p
  | none => pure .null

def enabled (p : RuntimeProfile) (s : TpmtRsaScheme) : Bool :=
  (s.scheme.all fun a => p.checkEnabled (rsaSchemeSelector.algId a)) && s.hashAlg.all (HashAlg.enabled p)

theorem reads {p : RuntimeProfile} {s : TpmtRsaScheme} (he : s.enabled p = true) :
    Reads (unmarshal p) s.marshal s := by
  simp only [enabled, Bool.and_eq_true] at he
  obtain ⟨hs, hh⟩ := he
  refine (rsaSchemeSelector.readsNull hs).bind ?_
  have hsel : p.checkEnabled (rsaSchemeSelector.algIdOrNull s.scheme) = true := by
    cases hc : s.scheme with
    | none => exact p.null_enabled
    | some a => rw [hc] at hs; exact hs
  refine (Reads.check hsel).bind_nil ?_
  cases s with
  | rsassa h => exact (HashAlg.reads hh).map _
  | rsapss h => exact (HashAlg.reads hh).map _
  | rsaes => exact Reads.pure _
  | oaep h => exact (HashAlg.reads hh).map _
  | null => exact Reads.pure _

end TpmtRsaScheme

/-- `TPMT_ECC_SCHEME`; `TPMS_SCHEME_ECDAA` also has a count. -/
inductive TpmtEccScheme
  | ecdsa (hashAlg : HashAlg)
  | sm2 (hashAlg : HashAlg)
  | ecdaa (hashAlg : HashAlg) (count : UInt16)
  | ecschnorr (hashAlg : HashAlg)
  | ecdh (hashAlg : HashAlg)
  | ecmqv (hashAlg : HashAlg)
  | null
  deriving DecidableEq, Repr

namespace TpmtEccScheme

def scheme : TpmtEccScheme → Option EccSchemeAlg
  | .ecdsa _ => some .ecdsa
  | .sm2 _ => some .sm2
  | .ecdaa _ _ => some .ecdaa
  | .ecschnorr _ => some .ecschnorr
  | .ecdh _ => some .ecdh
  | .ecmqv _ => some .ecmqv
  | .null => none

def hashAlg : TpmtEccScheme → Option HashAlg
  | .ecdsa h | .sm2 h | .ecdaa h _ | .ecschnorr h | .ecdh h | .ecmqv h => some h
  | .null => none

def details : TpmtEccScheme → Bytes
  | .ecdaa h count => h.marshal ++ be 2 count.toNat
  | .ecdsa h | .sm2 h | .ecschnorr h | .ecdh h | .ecmqv h => h.marshal
  | .null => []

def marshal (s : TpmtEccScheme) : Bytes :=
  be 2 (eccSchemeSelector.algIdOrNull s.scheme) ++ s.details

def unmarshal (p : RuntimeProfile) : Unmarshal TpmtEccScheme := do
  let scheme ← eccSchemeSelector.unmarshalNull
    (fun a => p.checkEnabled (eccSchemeSelector.algId a)) .scheme
  Reader.check (p.checkEnabled (eccSchemeSelector.algIdOrNull scheme)) (.of .selector)
  match scheme with
  | some .ecdsa => .ecdsa <$> HashAlg.unmarshal p
  | some .sm2 => .sm2 <$> HashAlg.unmarshal p
  | some .ecdaa => do
      let h ← HashAlg.unmarshal p
      let count ← readUint16
      pure (.ecdaa h (UInt16.ofNat count))
  | some .ecschnorr => .ecschnorr <$> HashAlg.unmarshal p
  | some .ecdh => .ecdh <$> HashAlg.unmarshal p
  | some .ecmqv => .ecmqv <$> HashAlg.unmarshal p
  | none => pure .null

def enabled (p : RuntimeProfile) (s : TpmtEccScheme) : Bool :=
  (s.scheme.all fun a => p.checkEnabled (eccSchemeSelector.algId a)) && s.hashAlg.all (HashAlg.enabled p)

theorem reads {p : RuntimeProfile} {s : TpmtEccScheme} (he : s.enabled p = true) :
    Reads (unmarshal p) s.marshal s := by
  simp only [enabled, Bool.and_eq_true] at he
  obtain ⟨hs, hh⟩ := he
  refine (eccSchemeSelector.readsNull hs).bind ?_
  have hsel : p.checkEnabled (eccSchemeSelector.algIdOrNull s.scheme) = true := by
    cases hc : s.scheme with
    | none => exact p.null_enabled
    | some a => rw [hc] at hs; exact hs
  refine (Reads.check hsel).bind_nil ?_
  cases s with
  | ecdsa h => exact (HashAlg.reads hh).map _
  | sm2 h => exact (HashAlg.reads hh).map _
  | ecdaa h count =>
      refine (HashAlg.reads hh).bind ?_
      refine (reads_uint16 (UInt16.toNat_lt count)).bind_last ?_
      rw [UInt16.ofNat_toNat]
      exact Reads.pure _
  | ecschnorr h => exact (HashAlg.reads hh).map _
  | ecdh h => exact (HashAlg.reads hh).map _
  | ecmqv h => exact (HashAlg.reads hh).map _
  | null => exact Reads.pure _

end TpmtEccScheme

/-! ## Parameters by object type -/

/-- `TPMS_RSA_PARMS`. -/
structure RsaParms where
  symmetric : TpmtSymDefObject
  scheme : TpmtRsaScheme
  keyBits : Nat
  exponent : UInt32
  keyBits_mem : keyBits ∈ [1024, 2048, 3072]
  deriving DecidableEq

namespace RsaParms

def marshal (q : RsaParms) : Bytes :=
  TpmtSymDefObject.marshal q.symmetric ++ (q.scheme.marshal ++ (be 2 q.keyBits ++ writeUint32 q.exponent))

def unmarshal (p : RuntimeProfile) : Unmarshal RsaParms := do
  let symmetric ← TpmtSymDefObject.unmarshal p true
  let scheme ← TpmtRsaScheme.unmarshal p
  let keyBits ← readUint16
  if h : keyBits ∈ [1024, 2048, 3072] then do
    Reader.check (p.keySizeCheckEnabled TpmAlg.rsa keyBits 0) (.of .value)
    let exponent ← readUint32
    pure ⟨symmetric, scheme, keyBits, exponent, h⟩
  else Reader.fail (.of .value)

def enabled (p : RuntimeProfile) (q : RsaParms) : Bool :=
  TpmtSymDefObject.enabled p q.symmetric && q.scheme.enabled p &&
    p.keySizeCheckEnabled TpmAlg.rsa q.keyBits 0

theorem reads {p : RuntimeProfile} {q : RsaParms} (he : q.enabled p = true) :
    Reads (unmarshal p) q.marshal q := by
  simp only [enabled, Bool.and_eq_true] at he
  obtain ⟨⟨hsym, hscheme⟩, hbits⟩ := he
  refine (TpmtSymDefObject.reads (Bool.true_or _) hsym).bind ?_
  refine (TpmtRsaScheme.reads hscheme).bind ?_
  have hlt : ∀ n ∈ [1024, 2048, 3072], n < 256 ^ 2 := by decide
  refine (reads_uint16 (hlt q.keyBits q.keyBits_mem)).bind ?_
  rw [dif_pos q.keyBits_mem]
  refine (Reads.check hbits).bind_nil ?_
  exact (reads_uint32 q.exponent).bind_last (Reads.pure q)

end RsaParms

/-- `TPMS_ECC_PARMS`. -/
structure EccParms where
  symmetric : TpmtSymDefObject
  scheme : TpmtEccScheme
  curveID : EccCurve
  kdf : TpmtKdfScheme
  deriving DecidableEq

/-- `TPM_ECC_CURVE_Unmarshal` as `TPMI_ECC_CURVE_Unmarshal` calls it, `TPM_ECC_NONE` excluded. -/
def EccCurve.unmarshal (p : RuntimeProfile) : Unmarshal EccCurve := do
  let c ← Reader.enum 2 EccCurve.id EccCurve.all (.of .insufficient) (.of .curve)
  Reader.check (p.curveRuntimeUsable c && p.keySizeCheckEnabled TpmAlg.ecc c.keySize c.id) (.of .curve)
  pure c

def EccCurve.enabled (p : RuntimeProfile) (c : EccCurve) : Bool :=
  p.curveRuntimeUsable c && p.keySizeCheckEnabled TpmAlg.ecc c.keySize c.id

theorem EccCurve.reads {p : RuntimeProfile} {c : EccCurve} (he : c.enabled p = true) :
    Reads (EccCurve.unmarshal p) (be 2 c.id) c := by
  have hmem : c ∈ EccCurve.all := by cases c <;> decide
  have hlt : c.id < 256 ^ 2 := by cases c <;> decide
  have hinj : ∀ b ∈ EccCurve.all, b.id = c.id → b = c := by
    intro b _
    cases b <;> cases c <;> decide
  refine (Reads.enum _ _ hmem hlt hinj).bind_last ?_
  exact (Reads.check he).bind_nil (Reads.pure c)

namespace EccParms

def marshal (q : EccParms) : Bytes :=
  TpmtSymDefObject.marshal q.symmetric ++
    (q.scheme.marshal ++ (be 2 q.curveID.id ++ TpmtKdfScheme.marshal q.kdf))

def unmarshal (p : RuntimeProfile) : Unmarshal EccParms := do
  let symmetric ← TpmtSymDefObject.unmarshal p true
  let scheme ← TpmtEccScheme.unmarshal p
  let curveID ← EccCurve.unmarshal p
  let kdf ← TpmtKdfScheme.unmarshal p
  pure ⟨symmetric, scheme, curveID, kdf⟩

def enabled (p : RuntimeProfile) (q : EccParms) : Bool :=
  TpmtSymDefObject.enabled p q.symmetric && q.scheme.enabled p && q.curveID.enabled p &&
    TpmtKdfScheme.enabled p q.kdf

theorem reads {p : RuntimeProfile} {q : EccParms} (he : q.enabled p = true) :
    Reads (unmarshal p) q.marshal q := by
  simp only [enabled, Bool.and_eq_true] at he
  obtain ⟨⟨⟨hsym, hscheme⟩, hcurve⟩, hkdf⟩ := he
  refine (TpmtSymDefObject.reads (Bool.true_or _) hsym).bind ?_
  refine (TpmtEccScheme.reads hscheme).bind ?_
  refine (EccCurve.reads hcurve).bind ?_
  exact (TpmtKdfScheme.reads hkdf).bind_last (Reads.pure q)

end EccParms

/-- `TPMI_MLDSA_PARAMETER_SET`. -/
inductive MldsaParameterSet
  | mldsa44 | mldsa65 | mldsa87
  deriving DecidableEq, Repr

/-- `TPMI_MLKEM_PARAMETER_SET`. -/
inductive MlkemParameterSet
  | mlkem512 | mlkem768 | mlkem1024
  deriving DecidableEq, Repr

def MldsaParameterSet.id : MldsaParameterSet → Nat
  | .mldsa44 => 1
  | .mldsa65 => 2
  | .mldsa87 => 3

def MlkemParameterSet.id : MlkemParameterSet → Nat
  | .mlkem512 => 1
  | .mlkem768 => 2
  | .mlkem1024 => 3

def MldsaParameterSet.unmarshal : Unmarshal MldsaParameterSet :=
  Reader.enum 2 MldsaParameterSet.id [.mldsa44, .mldsa65, .mldsa87] (.of .insufficient) (.of .value)

def MlkemParameterSet.unmarshal : Unmarshal MlkemParameterSet :=
  Reader.enum 2 MlkemParameterSet.id [.mlkem512, .mlkem768, .mlkem1024] (.of .insufficient) (.of .value)

theorem MldsaParameterSet.reads (s : MldsaParameterSet) :
    Reads MldsaParameterSet.unmarshal (be 2 s.id) s := by
  have hinj : ∀ b ∈ [MldsaParameterSet.mldsa44, .mldsa65, .mldsa87], b.id = s.id → b = s := by
    cases s <;> decide
  exact Reads.enum _ _ (by cases s <;> decide) (by cases s <;> decide) hinj

theorem MlkemParameterSet.reads (s : MlkemParameterSet) :
    Reads MlkemParameterSet.unmarshal (be 2 s.id) s := by
  have hinj : ∀ b ∈ [MlkemParameterSet.mlkem512, .mlkem768, .mlkem1024], b.id = s.id → b = s := by
    cases s <;> decide
  exact Reads.enum _ _ (by cases s <;> decide) (by cases s <;> decide) hinj

/-- `TPMS_MLDSA_PARMS`; `allowExternalMu` is a `TPMI_YES_NO`. -/
structure MldsaParms where
  parameterSet : MldsaParameterSet
  allowExternalMu : Bool
  deriving DecidableEq, Repr

namespace MldsaParms

def marshal (q : MldsaParms) : Bytes := be 2 q.parameterSet.id ++ be 1 q.allowExternalMu.toNat

def unmarshal : Unmarshal MldsaParms := do
  let parameterSet ← MldsaParameterSet.unmarshal
  let mu ← Reader.word 1 (.of .insufficient)
  Reader.check (decide (mu = 0 ∨ mu = 1)) (.of .value)
  pure ⟨parameterSet, decide (mu = 1)⟩

theorem reads (q : MldsaParms) : Reads unmarshal q.marshal q := by
  refine q.parameterSet.reads.bind ?_
  refine Reads.bind_last (Reads.word _ (w := 1) (n := q.allowExternalMu.toNat) ?_) ?_
  · cases q.allowExternalMu <;> decide
  · obtain ⟨s, mu⟩ := q
    cases mu <;> exact Reads.pure _

end MldsaParms

/-- `TPMS_HASH_MLDSA_PARMS`. -/
structure HashMldsaParms where
  parameterSet : MldsaParameterSet
  hashAlg : HashAlg
  deriving DecidableEq, Repr

namespace HashMldsaParms

def marshal (q : HashMldsaParms) : Bytes := be 2 q.parameterSet.id ++ q.hashAlg.marshal

def unmarshal (p : RuntimeProfile) : Unmarshal HashMldsaParms := do
  let parameterSet ← MldsaParameterSet.unmarshal
  let hashAlg ← HashAlg.unmarshal p
  pure ⟨parameterSet, hashAlg⟩

theorem reads {p : RuntimeProfile} {q : HashMldsaParms} (he : q.hashAlg.enabled p = true) :
    Reads (unmarshal p) q.marshal q := by
  refine q.parameterSet.reads.bind ?_
  exact (HashAlg.reads he).bind_last (Reads.pure q)

end HashMldsaParms

/-- `TPMS_MLKEM_PARMS`. -/
structure MlkemParms where
  symmetric : TpmtSymDefObject
  parameterSet : MlkemParameterSet
  deriving DecidableEq

namespace MlkemParms

def marshal (q : MlkemParms) : Bytes :=
  TpmtSymDefObject.marshal q.symmetric ++ be 2 q.parameterSet.id

def unmarshal (p : RuntimeProfile) : Unmarshal MlkemParms := do
  let symmetric ← TpmtSymDefObject.unmarshal p true
  let parameterSet ← MlkemParameterSet.unmarshal
  pure ⟨symmetric, parameterSet⟩

theorem reads {p : RuntimeProfile} {q : MlkemParms} (he : TpmtSymDefObject.enabled p q.symmetric = true) :
    Reads (unmarshal p) q.marshal q := by
  refine (TpmtSymDefObject.reads (Bool.true_or _) he).bind ?_
  exact q.parameterSet.reads.bind_last (Reads.pure q)

end MlkemParms

/-- `TPMU_PUBLIC_PARMS`; `TPMS_SYMCIPHER_PARMS` excludes `TPM_ALG_NULL`. -/
def PublicParms : ObjectType → Type
  | .keyedhash => TpmtKeyedhashScheme
  | .symcipher => SymDef
  | .rsa => RsaParms
  | .ecc => EccParms
  | .mldsa => MldsaParms
  | .hashMldsa => HashMldsaParms
  | .mlkem => MlkemParms

/-- `TPMU_PUBLIC_ID`. -/
def PublicId : ObjectType → Type
  | .keyedhash | .symcipher => Tpm2bDigest
  | .rsa => Tpm2b 384
  | .ecc => Tpm2bEccParameter × Tpm2bEccParameter
  | .mldsa | .hashMldsa => Tpm2b 2592
  | .mlkem => Tpm2b 1568

instance (t : ObjectType) : DecidableEq (PublicParms t) :=
  match t with
  | .keyedhash => inferInstanceAs (DecidableEq TpmtKeyedhashScheme)
  | .symcipher => inferInstanceAs (DecidableEq SymDef)
  | .rsa => inferInstanceAs (DecidableEq RsaParms)
  | .ecc => inferInstanceAs (DecidableEq EccParms)
  | .mldsa => inferInstanceAs (DecidableEq MldsaParms)
  | .hashMldsa => inferInstanceAs (DecidableEq HashMldsaParms)
  | .mlkem => inferInstanceAs (DecidableEq MlkemParms)

instance (t : ObjectType) : DecidableEq (PublicId t) :=
  match t with
  | .keyedhash | .symcipher => inferInstanceAs (DecidableEq Tpm2bDigest)
  | .rsa => inferInstanceAs (DecidableEq (Tpm2b 384))
  | .ecc => inferInstanceAs (DecidableEq (Tpm2bEccParameter × Tpm2bEccParameter))
  | .mldsa | .hashMldsa => inferInstanceAs (DecidableEq (Tpm2b 2592))
  | .mlkem => inferInstanceAs (DecidableEq (Tpm2b 1568))

namespace PublicParms

def marshal : (t : ObjectType) → PublicParms t → Bytes
  | .keyedhash, q => TpmtKeyedhashScheme.marshal q
  | .symcipher, q => TpmtSymDefObject.marshal (some q)
  | .rsa, q => RsaParms.marshal q
  | .ecc, q => EccParms.marshal q
  | .mldsa, q => MldsaParms.marshal q
  | .hashMldsa, q => HashMldsaParms.marshal q
  | .mlkem, q => MlkemParms.marshal q

def unmarshal (p : RuntimeProfile) : (t : ObjectType) → Unmarshal (PublicParms t)
  | .keyedhash => TpmtKeyedhashScheme.unmarshal p
  | .symcipher => do
      let d ← TpmtSymDefObject.unmarshal p false
      match d with
      | some d => pure d
      | none => Reader.fail (.of .symmetric)
  | .rsa => RsaParms.unmarshal p
  | .ecc => EccParms.unmarshal p
  | .mldsa => MldsaParms.unmarshal
  | .hashMldsa => HashMldsaParms.unmarshal p
  | .mlkem => MlkemParms.unmarshal p

def enabled (p : RuntimeProfile) : (t : ObjectType) → PublicParms t → Bool
  | .keyedhash, q => TpmtKeyedhashScheme.enabled p q
  | .symcipher, q => TpmtSymDefObject.enabled p (some q)
  | .rsa, q => RsaParms.enabled p q
  | .ecc, q => EccParms.enabled p q
  | .mldsa, _ => true
  | .hashMldsa, q => HashAlg.enabled p (HashMldsaParms.hashAlg q)
  | .mlkem, q => TpmtSymDefObject.enabled p (MlkemParms.symmetric q)

theorem reads {p : RuntimeProfile} (t : ObjectType) {q : PublicParms t} (he : enabled p t q = true) :
    Reads (unmarshal p t) (marshal t q) q := by
  cases t with
  | keyedhash => exact TpmtKeyedhashScheme.reads he
  | symcipher => exact (TpmtSymDefObject.reads (d := some q) rfl he).bind_last (Reads.pure q)
  | rsa => exact RsaParms.reads he
  | ecc => exact EccParms.reads he
  | mldsa => exact MldsaParms.reads q
  | hashMldsa => exact HashMldsaParms.reads he
  | mlkem => exact MlkemParms.reads he

end PublicParms

namespace PublicId

def marshal : (t : ObjectType) → PublicId t → Bytes
  | .keyedhash, u | .symcipher, u | .rsa, u | .mldsa, u | .hashMldsa, u | .mlkem, u => Tpm2b.marshal u
  | .ecc, u => u.1.marshal ++ u.2.marshal

def unmarshal : (t : ObjectType) → Unmarshal (PublicId t)
  | .keyedhash | .symcipher => Tpm2b.unmarshal 64
  | .rsa => Tpm2b.unmarshal 384
  | .ecc => do
      let x ← Tpm2b.unmarshal 80
      let y ← Tpm2b.unmarshal 80
      pure (x, y)
  | .mldsa | .hashMldsa => Tpm2b.unmarshal 2592
  | .mlkem => Tpm2b.unmarshal 1568

theorem reads (t : ObjectType) (u : PublicId t) : Reads (unmarshal t) (marshal t u) u := by
  cases t with
  | keyedhash => exact Tpm2b.reads (by decide) u
  | rsa => exact Tpm2b.reads (by decide) u
  | ecc =>
      refine (Tpm2b.reads (by decide) u.1).bind ?_
      exact (Tpm2b.reads (by decide) u.2).bind_last (Reads.pure u)
  | symcipher => exact Tpm2b.reads (by decide) u
  | mldsa => exact Tpm2b.reads (by decide) u
  | hashMldsa => exact Tpm2b.reads (by decide) u
  | mlkem => exact Tpm2b.reads (by decide) u

end PublicId

/-- `TPMT_PUBLIC`. -/
structure TpmtPublic where
  type : ObjectType
  nameAlg : Option HashAlg
  objectAttributes : TpmaObject
  authPolicy : Tpm2bDigest
  parameters : PublicParms type
  unique : PublicId type
  deriving DecidableEq

namespace TpmaObject

def marshal (a : TpmaObject) : Bytes := be 4 a.toWord

def unmarshal : Unmarshal TpmaObject := do
  let n ← Reader.word 4 (.of .insufficient)
  Reader.check (decide (n &&& reserved = 0)) (.of .reservedBits)
  pure (ofWord n)

theorem reads (a : TpmaObject) : Reads unmarshal a.marshal a := by
  refine (Reads.word _ a.toWord_lt).bind_last ?_
  refine (Reads.check (decide_eq_true a.toWord_reserved)).bind_nil ?_
  rw [ofWord_toWord]
  exact Reads.pure a

end TpmaObject

namespace TpmtPublic

def marshal (a : TpmtPublic) : Bytes :=
  be 2 (publicSelector.algId a.type) ++ (be 2 (hashSelector.algIdOrNull a.nameAlg) ++
    (a.objectAttributes.marshal ++ (a.authPolicy.marshal ++
      (PublicParms.marshal a.type a.parameters ++ PublicId.marshal a.type a.unique))))

def unmarshal (p : RuntimeProfile) (allowNull : Bool) : Unmarshal TpmtPublic := do
  let type ← publicSelector.unmarshal (fun _ => true) .type
  let nameAlg ← HashAlg.unmarshalNull p allowNull
  let objectAttributes ← TpmaObject.unmarshal
  let authPolicy ← Tpm2b.unmarshal 64
  let parameters ← PublicParms.unmarshal p type
  let unique ← PublicId.unmarshal type
  pure { type, nameAlg, objectAttributes, authPolicy, parameters, unique }

/-- What the readers ask of the profile for this public area. -/
def enabled (p : RuntimeProfile) (a : TpmtPublic) : Bool :=
  a.nameAlg.all (HashAlg.enabled p) && PublicParms.enabled p a.type a.parameters

theorem reads {p : RuntimeProfile} {allowNull : Bool} {a : TpmtPublic}
    (hn : (allowNull || a.nameAlg.isSome) = true) (he : a.enabled p = true) :
    Reads (unmarshal p allowNull) a.marshal a := by
  simp only [enabled, Bool.and_eq_true] at he
  refine (publicSelector.reads (a := a.type) rfl).bind ?_
  refine (HashAlg.readsNull hn he.1).bind ?_
  refine a.objectAttributes.reads.bind ?_
  refine (Tpm2b.reads (by decide) a.authPolicy).bind ?_
  refine (PublicParms.reads a.type he.2).bind ?_
  exact (PublicId.reads a.type a.unique).bind_last (Reads.pure a)

end TpmtPublic

end PqcTpm
