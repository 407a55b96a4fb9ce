import PqcTpm.Lib.Transition
import PqcTpm.Object

/-!
# Storage parents

`Object_spt.c`: the validation of a public area, the attributes a loaded object gets
(`ObjectSetLoadedAttributes` in `Object.c`) and the outer wrap of a child's sensitive
area. The wrap reads its cipher through `parameters.asymDetail.symmetric` whatever the
type of the parent, so for some types it reads other fields of the union.
-/
namespace PqcTpm
open ByteCodec

def require (b : Bool) (c : RcCode) : Except Fault Unit := if b then .ok () else .error (.of c)

@[simp] theorem require_eq_ok {b : Bool} {c : RcCode} : require b c = .ok () ↔ b = true := by
  cases b <;> simp [require]

/-! ## `parameters.asymDetail.symmetric` -/

/-- The three 16-bit words at the start of the `parameters` union. -/
structure SymWords where
  algorithm : Nat
  keyBits : Nat
  mode : Nat
  deriving DecidableEq

/-- What the octets hold that the union member in use does not fill. -/
structure Stale where
  padding : UInt8 := 0
  keyBits : UInt16 := 0
  mode : UInt16 := 0

def SymDef.words (d : SymDef) : SymWords where
  algorithm := symSelector.algId d.algorithm
  keyBits := d.keyBits
  mode := symModeSelector.algIdOrNull d.mode

def TpmtSymDefObject.words (w : Stale) : TpmtSymDefObject → SymWords
  | none => ⟨TpmAlg.null, w.keyBits.toNat, w.mode.toNat⟩
  | some d => d.words

def TpmtKeyedhashScheme.words (w : Stale) : TpmtKeyedhashScheme → SymWords
  | .hmac h => ⟨TpmAlg.hmac, hashSelector.algId h, w.mode.toNat⟩
  | .xor h kdf => ⟨TpmAlg.xor, hashSelector.algId h, kdfSelector.algIdOrNull kdf⟩
  | .null => ⟨TpmAlg.null, w.keyBits.toNat, w.mode.toNat⟩

/-- `parameters.asymDetail.symmetric` of a public area of any type. -/
def PublicParms.symmetricWords (w : Stale) : (t : ObjectType) → PublicParms t → SymWords
  | .rsa, q => TpmtSymDefObject.words w (RsaParms.symmetric q)
  | .ecc, q => TpmtSymDefObject.words w (EccParms.symmetric q)
  | .mlkem, q => TpmtSymDefObject.words w (MlkemParms.symmetric q)
  | .symcipher, q => SymDef.words q
  | .keyedhash, q => TpmtKeyedhashScheme.words w q
  -- `allowExternalMu` is one octet; the other half of the word is padding
  | .mldsa, q => ⟨(MldsaParms.parameterSet q).id,
      (MldsaParms.allowExternalMu q).toNat + 256 * w.padding.toNat, w.mode.toNat⟩
  | .hashMldsa, q => ⟨(HashMldsaParms.parameterSet q).id,
      hashSelector.algId (HashMldsaParms.hashAlg q), w.mode.toNat⟩

def TpmtPublic.symmetricWords (w : Stale) (a : TpmtPublic) : SymWords :=
  PublicParms.symmetricWords w a.type a.parameters

/-- `CryptGetSymmetricBlockSize`; 0 for anything that is not a cipher with one of its key sizes. -/
def cryptGetSymmetricBlockSize (algorithm keyBits : Nat) : Nat :=
  match symSelector.all.find? fun c => symSelector.algId c == algorithm with
  | some c => if keyBits ∈ c.keyBits then c.blockSize else 0
  | none => 0

/-! ## Validation -/

/-- Whether `sign`, `decrypt` and `restricted` agree with the scheme of an RSA or ECC key. -/
def schemeAgrees (x : TpmaObject) (isNull isSign isDecrypt : Bool) : Bool :=
  if x.sign == x.decrypt then isNull
  else if x.sign then isSign || (!x.restricted && isNull)
  else if x.restricted then isNull
  else isNull || isDecrypt

/-- Only a parent may name symmetric algorithms. -/
def symmetricAllowed (x : TpmaObject) (symmetric : TpmtSymDefObject) : Bool :=
  (x.restricted && x.decrypt) || symmetric.isNone

/-- `CryptIsAsymSignScheme` and `CryptIsAsymDecryptScheme` for RSA. -/
def RsaSchemeAlg.isSign : RsaSchemeAlg → Bool
  | .rsassa | .rsapss => true
  | .rsaes | .oaep => false

def RsaSchemeAlg.isDecrypt : RsaSchemeAlg → Bool
  | .rsaes | .oaep => true
  | .rsassa | .rsapss => false

/-- The same for ECC, where `TPM_ALG_SM2` is both. -/
def EccSchemeAlg.isSign : EccSchemeAlg → Bool
  | .ecdsa | .ecdaa | .ecschnorr | .sm2 => true
  | .ecdh | .ecmqv => false

def EccSchemeAlg.isDecrypt : EccSchemeAlg → Bool
  | .ecdh | .sm2 | .ecmqv => true
  | .ecdsa | .ecdaa | .ecschnorr => false

/-- The `sign` column of `eccCurves`: no curve that is compiled in prescribes a scheme. -/
def EccCurve.signScheme : EccCurve → TpmtEccScheme := fun _ => .null

def curveAllows (q : EccParms) : Bool :=
  let s := q.curveID.signScheme
  s.scheme.isNone ||
    (decide (q.scheme.scheme = s.scheme) && (s.hashAlg.isNone || decide (q.scheme.hashAlg = s.hashAlg)))

/-- Modes other than `TPM_ALG_CMAC` (`CryptSymModeIsValid` with `TPM_ALG_NULL` allowed). -/
def cryptSymModeIsValid (mode : Option SymMode) : Bool := decide (mode ≠ some .cmac)

def keyedhashAgrees (x : TpmaObject) (s : TpmtKeyedhashScheme) : Bool :=
  if x.sign == x.decrypt then decide (s = .null)
  else match s with
    | .hmac _ => x.sign
    | .xor _ kdf => x.decrypt && (!x.restricted || decide (kdf = some .kdf1Sp800108))
    | .null => false

/-- The `switch` of `SchemeChecks`. The three PQC types leave it at once. -/
def typeChecks (x : TpmaObject) : (t : ObjectType) → PublicParms t → Except Fault Unit
  | .mldsa, _ | .hashMldsa, _ | .mlkem, _ => .ok ()
  | .symcipher, q => require (!x.decrypt || cryptSymModeIsValid (SymDef.mode q)) .scheme
  | .keyedhash, q => require (keyedhashAgrees x q) .scheme
  | .rsa, q => do
      let s := (RsaParms.scheme q).scheme
      require (schemeAgrees x s.isNone (s.any RsaSchemeAlg.isSign) (s.any RsaSchemeAlg.isDecrypt)) .scheme
      require (symmetricAllowed x (RsaParms.symmetric q)) .symmetric
  | .ecc, q => do
      let s := (EccParms.scheme q).scheme
      require (schemeAgrees x s.isNone (s.any EccSchemeAlg.isSign) (s.any EccSchemeAlg.isDecrypt)) .scheme
      require (symmetricAllowed x (EccParms.symmetric q)) .symmetric
      require (curveAllows q) .scheme
      require (EccParms.kdf q).isNone .kdf

/-- `symAlgs` after the `switch`; `none` is the null pointer. -/
def symAlgs : (t : ObjectType) → PublicParms t → Option TpmtSymDefObject
  | .mldsa, _ | .hashMldsa, _ | .mlkem, _ | .keyedhash, _ => none
  | .symcipher, q => some (some q)
  | .rsa, q => some (RsaParms.symmetric q)
  | .ecc, q => some (EccParms.symmetric q)

/-- A parent that cannot be duplicated wraps with the algorithms of its own parent. -/
def sameAlgorithms (parentObject : Option Object) (w : Stale) (a : TpmtPublic) (d : SymDef) :
    Except Fault Unit :=
  match parentObject with
  | some parent =>
      if a.objectAttributes.fixedParent then do
        require (decide (a.nameAlg = parent.publicArea.nameAlg)) .hash
        require (decide (d.words = parent.publicArea.symmetricWords w)) .symmetric
      else .ok ()
  | none => .ok ()

/-- `SchemeChecks`; `w` belongs to the public area of the parent. -/
def schemeChecks (parentObject : Option Object) (w : Stale) (a : TpmtPublic) : Except Fault Unit := do
  typeChecks a.objectAttributes a.type a.parameters
  if a.objectAttributes.restricted && a.objectAttributes.decrypt then
    match symAlgs a.type a.parameters with
    | none => .ok ()
    | some none => .error (.of .symmetric)
    | some (some d) => sameAlgorithms parentObject w a d
  else .ok ()

def fixedAgrees (parentObject : Option Object) (x : TpmaObject) : Bool :=
  if parentObject.all fun o => o.publicArea.objectAttributes.fixedTPM then x.fixedParent == x.fixedTPM
  else !x.fixedTPM

/-- A restricted key is for one use; only a data object may be for none. -/
def usesAgree (t : ObjectType) (x : TpmaObject) : Bool :=
  x.sign != x.decrypt || (!x.restricted && (decide (t = .keyedhash) || x.sign))

def duplicationAgrees (parentObject : Option Object) (x : TpmaObject) : Bool :=
  parentObject.all fun o => o.publicArea.objectAttributes.fixedTPM ||
    x.encryptedDuplication == o.publicArea.objectAttributes.encryptedDuplication

def derivedAgrees (parentObject : Option Object) (x : TpmaObject) : Bool :=
  parentObject.all fun o => !o.attributes.derivation ||
    (x.fixedTPM == o.publicArea.objectAttributes.fixedTPM && x.fixedParent)

/-- `PublicAttributesValidation`; neither firmware- nor SVN-limited objects are compiled in. -/
def publicAttributesValidation (parentObject : Option Object) (w : Stale) (a : TpmtPublic) :
    Except Fault Unit := do
  let x := a.objectAttributes
  require a.nameAlg.isSome .hash
  require (decide (a.authPolicy.size = 0) ||
    decide (a.nameAlg.map HashAlg.digestSize = some a.authPolicy.size)) .size
  require (fixedAgrees parentObject x) .attributes
  require (usesAgree a.type x) .attributes
  require (!(x.fixedTPM && x.encryptedDuplication)) .attributes
  require (duplicationAgrees parentObject x) .attributes
  require (!x.firmwareLimited && !x.svnLimited) .attributes
  require (derivedAgrees parentObject x) .attributes
  schemeChecks parentObject w a

/-! ## `ObjectSetLoadedAttributes` -/

/-- What `HandleToObject(parentHandle)` finds: nothing for a permanent handle. -/
inductive ParentRef
  | seed (hierarchy : Hierarchy)
  | object (o : Object)

def ParentRef.object? : ParentRef → Option Object
  | .seed _ => none
  | .object o => some o

def primaryAttributes (a : ObjectAttributes) : Hierarchy → ObjectAttributes
  | .endorsement => { a with primary := true, epsHierarchy := true }
  | .owner => { a with primary := true, spsHierarchy := true }
  | .platform => { a with primary := true, ppsHierarchy := true }
  | .null => { a with primary := false, temporary := true }

def inheritAttributes (a : ObjectAttributes) (parent : Object) : ObjectAttributes :=
  { a with
    stClear := a.stClear || parent.attributes.stClear
    epsHierarchy := parent.attributes.epsHierarchy
    spsHierarchy := parent.attributes.spsHierarchy
    ppsHierarchy := parent.attributes.ppsHierarchy
    temporary := parent.attributes.temporary || a.external }

/-- A restricted decryption key becomes a parent, or a derivation parent. -/
def parentAttributes (a : ObjectAttributes) (p : TpmtPublic) : ObjectAttributes :=
  if !a.external && p.objectAttributes.restricted && !a.publicOnly && p.objectAttributes.decrypt &&
      p.nameAlg.isSome then
    if p.type = .keyedhash then { a with derivation := true } else { a with isParent := true }
  else a

/-- `ObjectSetLoadedAttributes`; `computeQualifiedName` is the hash over the parent's qualified
name and the object's own name. -/
def objectSetLoadedAttributes (computeQualifiedName : ParentRef → Option HashAlg → Tpm2bName → Tpm2bName)
    (parent : ParentRef) (seedCompatLevel : SeedCompatLevel) (o : Object) : Object :=
  let a := { o.attributes with stClear := o.publicArea.objectAttributes.stClear }
  let a :=
    match parent with
    | .seed h => primaryAttributes a h
    | .object p => inheritAttributes a p
  { o with
    seedCompatLevel
    hierarchy :=
      match parent with
      | .seed h => h
      | .object p => p.hierarchy
    qualifiedName := if a.external then o.name else computeQualifiedName parent o.publicArea.nameAlg o.name
    attributes := { parentAttributes a o.publicArea with occupied := true } }

/-! ## The outer wrap -/

/-- The primitives the wrap is made of. -/
structure WrapCrypto where
  kdfa : HashAlg → Bytes → String → Bytes → Nat → Bytes
  hmac : HashAlg → Bytes → Bytes → Bytes
  random : Nat → Bytes
  encryptCfb : SymCipher → Bytes → Bytes → Bytes → Bytes

section
variable (C : WrapCrypto)

/-- `CryptSymmetricEncrypt` in CFB mode. -/
def cryptSymmetricEncrypt (algorithm keyBits : Nat) (key iv data : Bytes) : Except Fault Bytes :=
  if data = [] then .ok []
  else match symSelector.all.find? fun c => symSelector.algId c == algorithm with
    | some c => if keyBits ∈ c.keyBits then .ok (C.encryptCfb c key iv data) else .error (.of .failure)
    | none => .error (.of .failure)

/-- The key of `ComputeProtectionKeyParms`. -/
def protectionKey (hashAlg : HashAlg) (seed name : Bytes) (keyBits : Nat) : Bytes :=
  C.kdfa hashAlg seed "STORAGE" name ((keyBits + 7) / 8 * 8)

/-- `ProduceOuterWrap` for a protector that is an object; the result of the encryption is ignored,
and then the buffer keeps what was in it. -/
def produceOuterWrap (protector : Object) (w : Stale) (name : Tpm2bName) (hashAlg : HashAlg)
    (seed : Option Bytes) (useIV : Bool) (data : Bytes) : Bytes :=
  let words := protector.publicArea.symmetricWords w
  let seedValue := seed.getD protector.sensitive.seedValue.buffer
  let ivRNG := C.random (cryptGetSymmetricBlockSize words.algorithm words.keyBits)
  let iv := if useIV then ivRNG else List.replicate 16 0
  let key := protectionKey C hashAlg seedValue name.buffer words.keyBits
  let body :=
    match cryptSymmetricEncrypt C words.algorithm words.keyBits key iv data with
    | .ok c => c
    | .error _ => data
  let area := (if useIV then be 2 ivRNG.length ++ ivRNG else []) ++ body
  let hmacKey := C.kdfa hashAlg seedValue "INTEGRITY" [] (hashAlg.digestSize * 8)
  let integrity := C.hmac hashAlg hmacKey (area ++ name.buffer)
  be 2 integrity.length ++ (integrity ++ area)

/-- A parent that protects what it wraps: the words the wrap reads name a cipher with one of its key
sizes, and no encryption under it fails. -/
structure ProtectsChildren (o : Object) (w : Stale) : Prop where
  blockSize : cryptGetSymmetricBlockSize (o.publicArea.symmetricWords w).algorithm
    (o.publicArea.symmetricWords w).keyBits ≠ 0
  encrypts : ∀ key iv data, ∃ c, cryptSymmetricEncrypt C (o.publicArea.symmetricWords w).algorithm
    (o.publicArea.symmetricWords w).keyBits key iv data = .ok c

/-! ## Which words name a cipher -/

theorem cryptSymmetricEncrypt_total {algorithm keyBits : Nat}
    (h : cryptGetSymmetricBlockSize algorithm keyBits ≠ 0) (key iv data : Bytes) :
    ∃ c, cryptSymmetricEncrypt C algorithm keyBits key iv data = .ok c := by
  unfold cryptGetSymmetricBlockSize at h
  unfold cryptSymmetricEncrypt
  by_cases hd : data = []
  · exact ⟨[], if_pos hd⟩
  · rw [if_neg hd]
    split at h
    · rename_i c hc
      by_cases hk : keyBits ∈ c.keyBits
      · exact ⟨C.encryptCfb c key iv data, if_pos hk⟩
      · exact absurd (if_neg hk) h
    · exact absurd rfl h

/-- Without a block size the encryption fails, and the wrap ends in the plain sensitive area. -/
theorem produceOuterWrap_clear {protector : Object} {w : Stale}
    (h : cryptGetSymmetricBlockSize (protector.publicArea.symmetricWords w).algorithm
      (protector.publicArea.symmetricWords w).keyBits = 0)
    (name : Tpm2bName) (hashAlg : HashAlg) (seed : Option Bytes) (useIV : Bool) (data : Bytes) :
    data <:+ produceOuterWrap C protector w name hashAlg seed useIV data := by
  have hbody : ∀ key iv, (match cryptSymmetricEncrypt C (protector.publicArea.symmetricWords w).algorithm
      (protector.publicArea.symmetricWords w).keyBits key iv data with
      | .ok c => c
      | .error _ => data) = data := by
    intro key iv
    unfold cryptGetSymmetricBlockSize at h
    unfold cryptSymmetricEncrypt
    by_cases hd : data = []
    · rw [if_pos hd, hd]
    · rw [if_neg hd]
      split at h
      · rename_i c hc
        have hpos : c.blockSize ≠ 0 := by cases c <;> decide
        by_cases hk : (protector.publicArea.symmetricWords w).keyBits ∈ c.keyBits
        · exact absurd ((if_pos hk).symm.trans h) hpos
        · rw [if_neg hk]
      · rfl
  unfold produceOuterWrap
  simp only [hbody]
  refine List.IsSuffix.trans ?_ (List.suffix_append _ _)
  refine List.IsSuffix.trans ?_ (List.suffix_append _ _)
  exact List.suffix_append _ _

theorem protectsChildren_iff (o : Object) (w : Stale) :
    ProtectsChildren C o w ↔
      cryptGetSymmetricBlockSize (o.publicArea.symmetricWords w).algorithm
        (o.publicArea.symmetricWords w).keyBits ≠ 0 := by
  constructor
  · intro h
    exact h.blockSize
  · intro h
    exact ⟨h, cryptSymmetricEncrypt_total C h⟩

end

theorem SymDef.blockSize_ne_zero (d : SymDef) :
    cryptGetSymmetricBlockSize d.words.algorithm d.words.keyBits ≠ 0 := by
  have hall : ∀ c : SymCipher, symSelector.all.find? (fun b => symSelector.algId b == symSelector.algId c) =
      some c := by
    intro c
    cases c <;> rfl
  have hfind : symSelector.all.find? (fun c => symSelector.algId c == d.words.algorithm) =
      some d.algorithm := hall d.algorithm
  have hmem : d.words.keyBits ∈ d.algorithm.keyBits := d.keyBits_mem
  simp only [cryptGetSymmetricBlockSize, hfind]
  rw [if_pos hmem]
  cases d.algorithm <;> decide

theorem blockSize_null (keyBits : Nat) : cryptGetSymmetricBlockSize TpmAlg.null keyBits = 0 := rfl

/-- No parameter set of ML-DSA, read as an algorithm, has a key size below 128 or an odd one; the
third is `TPM_ALG_TDES`. -/
theorem blockSize_parameterSet (s : MldsaParameterSet) {keyBits : Nat} (h : keyBits % 256 < 128) :
    cryptGetSymmetricBlockSize s.id keyBits = 0 := by
  have h128 : keyBits ≠ 128 := by
    intro he
    rw [he] at h
    exact absurd h (by decide)
  have h192 : keyBits ≠ 192 := by
    intro he
    rw [he] at h
    exact absurd h (by decide)
  cases s with
  | mldsa44 => rfl
  | mldsa65 => rfl
  | mldsa87 =>
      have hmem : keyBits ∉ SymCipher.tdes.keyBits := by
        simp only [SymCipher.keyBits, List.mem_cons, List.not_mem_nil, or_false, not_or]
        exact ⟨h128, h192⟩
      exact if_neg hmem

/-- The types whose parameters begin with a symmetric definition, with one in place. -/
def hasBlockCipher : (t : ObjectType) → PublicParms t → Bool
  | .mldsa, _ | .hashMldsa, _ | .keyedhash, _ => false
  | .symcipher, _ => true
  | .rsa, q => (RsaParms.symmetric q).isSome
  | .ecc, q => (EccParms.symmetric q).isSome
  | .mlkem, q => (MlkemParms.symmetric q).isSome

theorem symDefObject_blockSize (w : Stale) (d : TpmtSymDefObject) :
    cryptGetSymmetricBlockSize (d.words w).algorithm (d.words w).keyBits ≠ 0 ↔ d.isSome = true := by
  cases d with
  | none => simp [TpmtSymDefObject.words, blockSize_null]
  | some d => simpa [TpmtSymDefObject.words] using d.blockSize_ne_zero

theorem symmetricWords_blockSize (w : Stale) {t : ObjectType} (ht : t ≠ .keyedhash) (q : PublicParms t) :
    cryptGetSymmetricBlockSize (PublicParms.symmetricWords w t q).algorithm
      (PublicParms.symmetricWords w t q).keyBits ≠ 0 ↔ hasBlockCipher t q = true := by
  cases t with
  | keyedhash => exact absurd rfl ht
  | rsa => exact symDefObject_blockSize w _
  | ecc => exact symDefObject_blockSize w _
  | mlkem => exact symDefObject_blockSize w _
  | symcipher => exact iff_of_true (SymDef.blockSize_ne_zero q) rfl
  | mldsa =>
      have hbits : ((MldsaParms.allowExternalMu q).toNat + 256 * w.padding.toNat) % 256 < 128 := by
        have hmu := Bool.toNat_le (MldsaParms.allowExternalMu q)
        omega
      have hzero := blockSize_parameterSet (MldsaParms.parameterSet q) hbits
      exact iff_of_false (fun h => h hzero) Bool.false_ne_true
  | hashMldsa =>
      have hbits : hashSelector.algId (HashMldsaParms.hashAlg q) % 256 < 128 := by
        cases HashMldsaParms.hashAlg q <;> decide
      have hzero := blockSize_parameterSet (HashMldsaParms.parameterSet q) hbits
      exact iff_of_false (fun h => h hzero) Bool.false_ne_true

/-! ## Which parents are accepted -/

/-- The attributes that make an ordinary parent. -/
theorem isParent_cases {computeQualifiedName : ParentRef → Option HashAlg → Tpm2bName → Tpm2bName}
    {parent : ParentRef} {level : SeedCompatLevel} {o : Object} (hfresh : o.attributes.isParent = false)
    (h : (objectSetLoadedAttributes computeQualifiedName parent level o).attributes.isParent = true) :
    o.publicArea.objectAttributes.restricted = true ∧ o.publicArea.objectAttributes.decrypt = true ∧
      o.publicArea.type ≠ .keyedhash := by
  have hkeep : ∀ a : ObjectAttributes, a.isParent = false →
      (parentAttributes a o.publicArea).isParent = true →
        o.publicArea.objectAttributes.restricted = true ∧
          o.publicArea.objectAttributes.decrypt = true ∧ o.publicArea.type ≠ .keyedhash := by
    intro a ha hp
    unfold parentAttributes at hp
    split at hp
    · rename_i hcond
      simp only [Bool.and_eq_true] at hcond
      split at hp
      · exact absurd (hp.symm.trans ha) (by decide)
      · exact ⟨hcond.1.1.1.2, hcond.1.2, ‹_›⟩
    · exact absurd (hp.symm.trans ha) (by decide)
  cases parent with
  | seed hierarchy =>
      apply hkeep _ _ h
      cases hierarchy <;> exact hfresh
  | object p =>
      apply hkeep (inheritAttributes _ p) _ h
      exact hfresh

theorem schemeChecks_of_valid {parentObject : Option Object} {w : Stale} {a : TpmtPublic}
    (h : publicAttributesValidation parentObject w a = .ok ()) :
    schemeChecks parentObject w a = .ok () := by
  unfold publicAttributesValidation at h
  iterate 8 obtain ⟨_, _, h⟩ := Transition.bind_eq_ok h
  exact h

theorem symAlgs_of_valid {parentObject : Option Object} {w : Stale} {a : TpmtPublic}
    (h : schemeChecks parentObject w a = .ok ()) (hr : a.objectAttributes.restricted = true)
    (hd : a.objectAttributes.decrypt = true) {d : TpmtSymDefObject}
    (hs : symAlgs a.type a.parameters = some d) : d.isSome = true := by
  unfold schemeChecks at h
  obtain ⟨_, _, h⟩ := Transition.bind_eq_ok h
  rw [hr, hd, hs] at h
  cases d with
  | none => cases h
  | some d => rfl

/-- An accepted parent protects its children if and only if it is no ML-DSA or HashML-DSA key and,
being an ML-KEM key, names a symmetric cipher. -/
theorem parent_protects_iff (C : WrapCrypto)
    {computeQualifiedName : ParentRef → Option HashAlg → Tpm2bName → Tpm2bName} {parent : ParentRef}
    {level : SeedCompatLevel} {o : Object} {w₀ w : Stale} (hfresh : o.attributes.isParent = false)
    (hvalid : publicAttributesValidation parent.object? w₀ o.publicArea = .ok ())
    (hparent : (objectSetLoadedAttributes computeQualifiedName parent level o).attributes.isParent = true) :
    ProtectsChildren C (objectSetLoadedAttributes computeQualifiedName parent level o) w ↔
      match o.publicArea with
      | { type := .mldsa, .. } | { type := .hashMldsa, .. } => False
      | { type := .mlkem, parameters := q, .. } => MlkemParms.symmetric q ≠ none
      | _ => True := by
  obtain ⟨hr, hd, hk⟩ := isParent_cases hfresh hparent
  have hscheme := schemeChecks_of_valid hvalid
  have hsym := fun d => symAlgs_of_valid hscheme hr hd (d := d)
  rw [protectsChildren_iff]
  have hwords : (objectSetLoadedAttributes computeQualifiedName parent level o).publicArea =
      o.publicArea := rfl
  rw [hwords, TpmtPublic.symmetricWords, symmetricWords_blockSize w hk]
  generalize o.publicArea = a at hk hsym ⊢
  obtain ⟨t, nameAlg, x, authPolicy, q, unique⟩ := a
  cases t with
  | keyedhash => exact absurd rfl hk
  | rsa => exact iff_of_true (hsym _ rfl) trivial
  | ecc => exact iff_of_true (hsym _ rfl) trivial
  | symcipher => exact iff_of_true rfl trivial
  | mldsa => exact iff_of_false Bool.false_ne_true id
  | hashMldsa => exact iff_of_false Bool.false_ne_true id
  | mlkem => exact Option.isSome_iff_ne_none

/-! ## A parent that wraps nothing -/

/-- Primitives that leave recognisable octets. -/
def plainCrypto : WrapCrypto where
  kdfa _ _ _ _ bits := List.replicate (bits / 8) 0x11
  hmac h _ _ := List.replicate h.digestSize 0x22
  random n := List.replicate n 0x33
  encryptCfb _ _ _ data := data.map (· ^^^ 0xff)

/-- A primary key before `ObjectSetLoadedAttributes`, with a restricted decryption key's attributes. -/
def restrictedDecryptKey {t : ObjectType} (q : PublicParms t) (u : PublicId t) : Object where
  attributes := {}
  publicArea :=
    { type := t
      nameAlg := some .sha256
      objectAttributes :=
        { fixedTPM := true, fixedParent := true, sensitiveDataOrigin := true, userWithAuth := true
          restricted := true, decrypt := true }
      authPolicy := .empty
      parameters := q
      unique := u }
  sensitive :=
    { authValue := .empty
      seedValue := .empty
      sensitive := some ⟨t, .empty⟩
      public_only := nofun }
  privateExponent := .zero
  qualifiedName := .empty
  evictHandle := 0
  name := .empty
  seedCompatLevel := .original
  hierarchy := .null

def mldsaParent : Object :=
  restrictedDecryptKey (t := .mldsa) (⟨.mldsa44, false⟩ : MldsaParms) (Tpm2b.empty : Tpm2b 2592)

theorem aes_keyBits : 128 ∈ SymCipher.aes.keyBits := by decide

def rsaParent : Object :=
  restrictedDecryptKey (t := .rsa)
    (⟨some ⟨.aes, 128, some .cfb, aes_keyBits⟩, .null, 2048, 0, by decide⟩ : RsaParms)
    (Tpm2b.empty : Tpm2b 384)

def emptyName : ParentRef → Option HashAlg → Tpm2bName → Tpm2bName := fun _ _ _ => .empty

/-- An ML-DSA key with `restricted` and `decrypt` is accepted as a parent, and a child's sensitive
area stands unencrypted at the end of `outPrivate`. -/
theorem mldsa_parent_unprotected :
    publicAttributesValidation none {} mldsaParent.publicArea = .ok () ∧
      (objectSetLoadedAttributes emptyName (.seed .owner) .original mldsaParent).attributes.isParent = true ∧
      ¬ ProtectsChildren plainCrypto
        (objectSetLoadedAttributes emptyName (.seed .owner) .original mldsaParent) {} ∧
      [0xde, 0xad, 0xbe, 0xef] <:+ produceOuterWrap plainCrypto
        (objectSetLoadedAttributes emptyName (.seed .owner) .original mldsaParent) {} .empty .sha256 none
        true [0xde, 0xad, 0xbe, 0xef] := by
  have hzero : cryptGetSymmetricBlockSize (mldsaParent.publicArea.symmetricWords {}).algorithm
      (mldsaParent.publicArea.symmetricWords {}).keyBits = 0 := rfl
  refine ⟨rfl, rfl, ?_, produceOuterWrap_clear plainCrypto hzero _ _ _ _ _⟩
  intro h
  exact h.blockSize hzero

/-- An RSA storage key protects its children. -/
theorem rsa_parent_protects :
    ProtectsChildren plainCrypto
      (objectSetLoadedAttributes emptyName (.seed .owner) .original rsaParent) {} := by
  have hvalid : publicAttributesValidation (ParentRef.seed .owner).object? {} rsaParent.publicArea =
      .ok () := rfl
  exact (parent_protects_iff plainCrypto rfl hvalid rfl).2 trivial

end PqcTpm
