import PqcTpm.Decapsulation

/-!
# Creating keys and validating them

`CryptCreateObject` and `CryptValidateKeys` of `CryptUtil.c`. Creation has a case for every type of
key; the validator has one for RSA and one for ECC, and takes whatever else it is given for a
symmetric object.
-/
namespace PqcTpm
open ByteCodec Transition

/-- The octets of a coordinate. -/
def EccCurve.octets (c : EccCurve) : Nat := (c.keySize + 7) / 8

/-- `CryptMlDsaPubKeySize`. -/
def MldsaParameterSet.pubKeySize : MldsaParameterSet → Nat
  | .mldsa44 => 1312
  | .mldsa65 => 1952
  | .mldsa87 => 2592

/-- `CryptMlKemPubKeySize`. -/
def MlkemParameterSet.pubKeySize : MlkemParameterSet → Nat
  | .mlkem512 => 800
  | .mlkem768 => 1184
  | .mlkem1024 => 1568

/-- `unique` and the sensitive part that belong together. -/
abbrev KeyPair (t : ObjectType) := PublicId t × Tpm2b (sensitiveSize t)

/-- `RAND_STATE`, the curves and primes of the crypto engine, and OpenSSL behind it. -/
structure KeyProvider (ρ : Type) where
  /-- `DRBG_Generate`; it generates all that is asked for or nothing. -/
  generate : ρ → (n : Nat) → Option { bs : Bytes // bs.length = n } × ρ
  inFailureMode : ρ → Bool
  /-- `DRBG_AdditionalData` with `shProof` and `ehProof`. -/
  additionalData : ρ → ρ
  /-- No `RAND_STATE` was given. -/
  isDefault : ρ → Bool
  isCanceled : Nat → Bool
  isPrimeInt : UInt32 → Bool
  /-- `OpenSSLCryptRsaGenerateKey`: the modulus and the first factor. -/
  openSSLRsaGenerateKey : ρ → UInt32 → Nat → Except Fault ((Nat × Nat) × ρ)
  /-- `TpmRsa_GeneratePrimeForRSA`. -/
  generatePrimeForRSA : ρ → (bits : Nat) → UInt32 → Option { p : Nat // p < 2 ^ bits } × ρ
  /-- `ComputePrivateExponent`; when there is none, what it leaves in `P` and `Q`. -/
  computePrivateExponent : UInt32 → Nat → Nat → Except (Nat × Nat) Unit
  /-- A number encrypted and decrypted with a key that signs. -/
  trial : ρ → UInt32 → Nat → Nat → Bool × ρ
  /-- `CryptRSAPairwiseConsistencyTest` and its like for ECC, where the profile asks for them. -/
  rsaConsistent : Nat → Nat → Bool
  eccConsistent : EccCurve → Nat → Bool
  order : EccCurve → Nat
  /-- `ExtEcc_PointMultiply` of the generator. -/
  multiply : EccCurve → Nat → Option (Nat × Nat)
  isPointOnCurve : EccCurve → Nat → Nat → Bool
  /-- `OpenSSLEccGetPrivate` for a number of bits. -/
  openSSLEccGetPrivate : ρ → EccCurve → Nat → Option Nat × ρ
  /-- The public key of a seed. -/
  mldsaPublicKey : MldsaParameterSet → Bytes → Option (Tpm2b 2592)
  mlkemPublicKey : MlkemParameterSet → Bytes → Option (Tpm2b 1568)
  /-- `CryptGenerateKeySymmetric` and `CryptGenerateKeyedHash`. -/
  symmetricKey : ρ → TpmtPublic → Bytes → Except Fault (Bytes × ρ)
  desValidateKey : Bytes → Bool
  hash : HashAlg → Bytes → Bytes
  hmac : HashAlg → Bytes → Bytes → Bytes
  /-- `PublicMarshalAndComputeName`. -/
  name : TpmtPublic → Tpm2bName

/-- Key generation passes the random state along. -/
abbrev KeyGen (ρ : Type) := StateT ρ (Except Fault)

/-- `BnToBytes`: zero is one octet, whatever the size asked for, and a size of 0 is for as many octets
as there are. -/
def intTo2B (value size : Nat) : Except Fault Bytes :=
  if value = 0 then .ok [0]
  else if size = 0 then .ok (be (value.log2 / 8 + 1) value)
  else if value < 256 ^ size then .ok (be size value)
  else .error .failureMode

section
variable {ρ : Type} (K : KeyProvider ρ)

def KeyGen.fail (e : Fault) : KeyGen ρ α := fun _ => .error e

def KeyGen.lift (x : Except Fault α) : KeyGen ρ α := fun r => x.map fun a => (a, r)

/-- What a generator gives, or `TPM_RC_NO_RESULT`. -/
def KeyGen.orNoResult (f : ρ → Option α × ρ) : KeyGen ρ α := fun r =>
  match f r with
  | (some a, r') => .ok (a, r')
  | (none, _) => .error (.of .noResult)

/-! ## Generating keys -/

/-- The rounds of `CryptRsaGenerateKey`; `q` is the first prime, or 0. -/
def rsaRounds (sign : Bool) (e : UInt32) (keyBits : Nat) : Nat → Nat → KeyGen ρ (Nat × Nat)
  | 0, _ => KeyGen.fail (.of .noResult)
  | rounds + 1, q => do
      if K.isCanceled rounds then KeyGen.fail (.of .canceled)
      else
        let p ← fun r =>
          match K.generatePrimeForRSA r (keyBits / 2) e with
          | (some p, r') => .ok (p.val, r')
          | (none, _) => .error (.of .failure)
        if q = 0 then rsaRounds sign e keyBits rounds p
        else if (p - q + (q - p)).log2 < 100 then rsaRounds sign e keyBits rounds q
        else if p * q < 2 ^ (keyBits - 1) ∨ 2 ^ keyBits ≤ p * q then KeyGen.fail .failureMode
        else match K.computePrivateExponent e p q with
          | .error (p', q') => rsaRounds sign e keyBits rounds (if q' = 0 then p' else q')
          | .ok _ =>
              if p < 2 ^ (keyBits / 2 - 1) then KeyGen.fail .failureMode
              else if sign then do
                let good ← fun r => .ok (K.trial r e p q)
                if good then pure (p * q, p) else rsaRounds sign e keyBits rounds 0
              else pure (p * q, p)

/-- Modulus and prime, and whether they are written as long as they are. -/
def rsaGenerate (sign : Bool) (e : UInt32) (keyBits : Nat) : KeyGen ρ ((Nat × Nat) × Bool) := fun r =>
  if K.isDefault r then (K.openSSLRsaGenerateKey r e keyBits).map fun s => ((s.1, true), s.2)
  else (rsaRounds K sign e keyBits 99 0 r).map fun s => ((s.1, false), s.2)

/-- `CryptRsaGenerateKey`. -/
def cryptRsaGenerateKey (x : TpmaObject) (q : RsaParms) : KeyGen ρ (KeyPair .rsa) :=
  let e := if q.exponent = 0 then 65537 else q.exponent
  if q.exponent ≠ 0 ∧ (q.exponent < 65537 ∨ K.isPrimeInt q.exponent = false) then KeyGen.fail (.of .range)
  else do
    let ((n, p), asLong) ← rsaGenerate K x.sign e q.keyBits
    let unique ← KeyGen.lift (intTo2B n (if asLong then 0 else q.keyBits / 8))
    let sensitive ← KeyGen.lift (intTo2B p (if asLong then 0 else q.keyBits / 8 / 2))
    if K.rsaConsistent n p then pure (Tpm2b.ofBytes unique, Tpm2b.ofBytes sensitive)
    else KeyGen.fail (.of .failure)

/-- `TpmEcc_GenPrivateScalar`: without a random state the number is OpenSSL's. -/
def eccGenPrivateScalar (c : EccCurve) : KeyGen ρ Nat := fun r =>
  let bits := (K.order c).log2 + 1
  if K.isDefault r then
    KeyGen.orNoResult (fun r => K.openSSLEccGetPrivate r c (if bits % 8 = 0 then bits else 0)) r
  else
    (KeyGen.orNoResult (fun r => K.generate r ((bits + 7) / 8 + 8)) r).map fun s =>
      (fromBe s.1.val % (K.order c - 1) + 1, s.2)

/-- `CryptEccGenerateKey`. The order is added to the scalar where it does not fill its octets. -/
def cryptEccGenerateKey (q : EccParms) : KeyGen ρ (KeyPair .ecc) := do
  let c := q.curveID
  let d ← eccGenPrivateScalar K c
  match K.multiply c (if (K.order c).log2 % 8 = 7 then d else d + K.order c) with
  | none => KeyGen.fail (.of .noResult)
  | some (x, y) => do
      let px ← KeyGen.lift (intTo2B x c.octets)
      let py ← KeyGen.lift (intTo2B y c.octets)
      let sensitive ← KeyGen.lift (intTo2B d px.length)
      if K.eccConsistent c d then
        pure ((Tpm2b.ofBytes px, Tpm2b.ofBytes py), Tpm2b.ofBytes sensitive)
      else KeyGen.fail (.of .noResult)

/-- `CryptMlDsaGenerateKey`; the private part is the seed. -/
def cryptMlDsaGenerateKey (set : MldsaParameterSet) : KeyGen ρ (Tpm2b 2592 × Tpm2b 32) := do
  let seed ← KeyGen.orNoResult fun r => K.generate r 32
  match K.mldsaPublicKey set seed.val with
  | none => KeyGen.fail (.of .failure)
  | some pub =>
      if pub.size ≠ set.pubKeySize then KeyGen.fail (.of .failure) else pure (pub, ⟨seed.val, seed.property.le⟩)

/-- `CryptMlKemGenerateKey`. -/
def cryptMlKemGenerateKey (set : MlkemParameterSet) : KeyGen ρ (Tpm2b 1568 × Tpm2b 64) := do
  let seed ← KeyGen.orNoResult fun r => K.generate r 64
  match K.mlkemPublicKey set seed.val with
  | none => KeyGen.fail (.of .failure)
  | some pub =>
      if pub.size ≠ set.pubKeySize then KeyGen.fail (.of .failure) else pure (pub, ⟨seed.val, seed.property.le⟩)

/-- `CryptHashGetDigestSize` of the name algorithm, 0 without one. -/
def TpmtPublic.digestSize (a : TpmtPublic) : Nat := a.nameAlg.elim 0 HashAlg.digestSize

/-- `CryptComputeSymmetricUnique`. -/
def cryptComputeSymmetricUnique (a : TpmtPublic) (seedValue any : Bytes) : Bytes :=
  match a.nameAlg with
  | none => []
  | some h =>
      if a.objectAttributes.restricted && a.objectAttributes.decrypt then K.hmac h seedValue any
      else K.hash h (seedValue ++ any)

def ObjectType.isSymmetric : ObjectType → Bool
  | .symcipher | .keyedhash => true
  | .rsa | .ecc | .mldsa | .hashMldsa | .mlkem => false

/-- `TPMS_SENSITIVE_CREATE`. -/
structure SensitiveCreate where
  userAuth : Tpm2bAuth
  data : Bytes

/-- What `CryptCreateObject` puts into an object. -/
structure Created where
  publicArea : TpmtPublic
  sensitive : TpmtSensitive
  name : Tpm2bName

/-- `TPM_SUPPORTS_ML_EXT_MU`. -/
def supportsExtMu : Bool := true

/-- The switch of `CryptCreateObject`. -/
def cryptGenerateKey (x : TpmaObject) : (t : ObjectType) → PublicParms t → KeyGen ρ (KeyPair t) →
    KeyGen ρ (KeyPair t)
  | .rsa, q, _ => cryptRsaGenerateKey K x q
  | .ecc, q, _ => cryptEccGenerateKey K q
  | .mldsa, q, _ =>
      if MldsaParms.allowExternalMu q && !supportsExtMu then KeyGen.fail (.of .extMu)
      else cryptMlDsaGenerateKey K (MldsaParms.parameterSet q)
  | .hashMldsa, q, _ => cryptMlDsaGenerateKey K (HashMldsaParms.parameterSet q)
  | .mlkem, q, _ => cryptMlKemGenerateKey K (MlkemParms.parameterSet q)
  | .symcipher, _, symmetric | .keyedhash, _, symmetric => symmetric

/-- The seed value, as long as a digest of the name algorithm. -/
def generateSeed (n : Nat) : KeyGen ρ Bytes := fun r =>
  match K.generate r n with
  | (seed, r') =>
      if K.inFailureMode r' then .error (.of .failure)
      else match seed with
        | none => .error (.of .noResult)
        | some seed => if n = 0 then .error (.of .noResult) else .ok (seed.val, r')

/-- `unique` of a symmetric object. -/
def TpmtPublic.withUnique (a : TpmtPublic) (bs : Bytes) : TpmtPublic :=
  match a with
  | ⟨.symcipher, nameAlg, x, policy, q, _⟩ =>
      ⟨.symcipher, nameAlg, x, policy, q, (Tpm2b.ofBytes bs : Tpm2bDigest)⟩
  | ⟨.keyedhash, nameAlg, x, policy, q, _⟩ =>
      ⟨.keyedhash, nameAlg, x, policy, q, (Tpm2b.ofBytes bs : Tpm2bDigest)⟩
  | a => a

/-- `DRBG_AdditionalData` for a primary key under the endorsement seed. -/
def stir (primaryUnderEps : Bool) : KeyGen ρ Unit := fun r =>
  .ok ((), if primaryUnderEps then K.additionalData r else r)

/-- What is left in the object; the seed of an asymmetric key that is no parent is dropped. -/
def assemble (template : TpmtPublic) (create : SensitiveCreate) (key : KeyPair template.type) (seed : Bytes) :
    Created :=
  let x := template.objectAttributes
  let generated := { template with unique := key.1 }
  let publicArea :=
    if template.type.isSymmetric then generated.withUnique (cryptComputeSymmetricUnique K template seed key.2.buffer)
    else generated
  { publicArea
    sensitive :=
      { authValue := create.userAuth
        seedValue := if template.type.isSymmetric || (x.restricted && !x.sign) then Tpm2b.ofBytes seed else .empty
        sensitive := some ⟨template.type, key.2⟩
        public_only := nofun }
    name := K.name publicArea }

/-- `CryptCreateObject`. -/
def cryptCreateObject (attributes : ObjectAttributes) (template : TpmtPublic) (create : SensitiveCreate) :
    KeyGen ρ Created := do
  let x := template.objectAttributes
  let data := if x.sensitiveDataOrigin then [] else create.data
  let key ← cryptGenerateKey K x template.type template.parameters fun r =>
    (K.symmetricKey r template data).map fun s => ((template.unique, Tpm2b.ofBytes s.1), s.2)
  stir K (attributes.primary && attributes.epsHierarchy)
  let seed ← generateSeed K template.digestSize
  pure (assemble K template create key seed)

/-! ## Validating keys -/

/-- The octets of `sensitive.any`. -/
def TpmtSensitive.any (s : TpmtSensitive) : Bytes :=
  match s.sensitive with
  | none => []
  | some c => c.2.buffer

/-- `unique.sym`; the other types have a sized buffer in its place. -/
def PublicId.sym : (t : ObjectType) → PublicId t → Bytes
  | .ecc, u => u.1.buffer
  | .rsa, u | .keyedhash, u | .symcipher, u | .mldsa, u | .hashMldsa, u | .mlkem, u => Tpm2b.buffer u

def TpmtPublic.uniqueSym (a : TpmtPublic) : Bytes := PublicId.sym a.type a.unique

/-- `CryptHashGetBlockSize`. -/
def HashAlg.blockSize : HashAlg → Nat
  | .sha1 | .sha256 => 64
  | .sha384 | .sha512 => 128

def cryptHashGetBlockSize (alg : Nat) : Nat :=
  match hashSelector.all.find? fun h => hashSelector.algId h == alg with
  | some h => h.blockSize
  | none => 0

/-- `AdjustNumberB`. -/
def adjustNumberB (num : Bytes) (requestedSize : Nat) : Bytes :=
  if requestedSize < num.length then
    num.drop (min ((num.takeWhile (· == 0)).length) (num.length - requestedSize))
  else List.replicate (requestedSize - num.length) 0 ++ num

variable (w : Stale) (blamePublic blameSensitive : Nat)

def validateRsa (q : RsaParms) (unique : Tpm2b 384) (sensitive : Option TpmtSensitive) : Except Fault Unit :=
  if unique.size ≠ q.keyBits / 8 ∨ unique.buffer.headD 0 < 0x80 then .error (.at .key blamePublic)
  else if q.exponent ≠ 0 ∧ q.exponent < 7 then .error (.at .value blamePublic)
  else match sensitive with
    | none => .ok ()
    | some s =>
        if s.any.length * 2 ≠ q.keyBits / 8 ∨ s.any.headD 0 < 0x80 then .error (.at .keySize blameSensitive)
        else .ok ()

def validateEcc (nameAlg : Option HashAlg) (q : EccParms) (unique : Tpm2bEccParameter × Tpm2bEccParameter)
    (sensitive : Option TpmtSensitive) : Except Fault Unit :=
  let c := q.curveID
  match sensitive with
  | none =>
      if unique.1.size ≠ c.octets ∨ unique.2.size ≠ c.octets then .error (.at .key blamePublic)
      else if nameAlg ≠ none ∧ K.isPointOnCurve c (fromBe unique.1.buffer) (fromBe unique.2.buffer) = false then
        .error (.at .eccPoint blamePublic)
      else .ok ()
  | some s =>
      let d := fromBe s.any
      if d = 0 ∨ K.order c ≤ d then .error (.of .keySize)
      else if nameAlg = none then .ok ()
      else match K.multiply c d with
        | none => .error (.of .binding)
        | some (x, y) => do
            let px ← intTo2B x c.octets
            let py ← intTo2B y c.octets
            if unique.1.buffer ≠ adjustNumberB px unique.1.size ∨
                unique.2.buffer ≠ adjustNumberB py unique.2.size then
              .error (.of .binding)
            else .ok ()

/-- `CryptSymKeyValidate`. -/
def cryptSymKeyValidate (d : SymDef) (key : Bytes) : Except Fault Unit :=
  if key.length ≠ (d.keyBits + 7) / 8 then .error (.at .keySize blameSensitive)
  else if d.algorithm = .tdes ∧ K.desValidateKey key = false then .error (.at .key blameSensitive)
  else .ok ()

/-- The check of a keyed hash object, which reads the words of its scheme. -/
def validateKeyedHash (a : TpmtPublic) (s : TpmtSensitive) : Except Fault Unit :=
  let words := a.symmetricWords w
  let check (maxSize : Nat) : Except Fault Unit :=
    if maxSize < s.any.length then .error (.at .keySize blameSensitive) else .ok ()
  if words.algorithm = TpmAlg.xor ∨ words.algorithm = TpmAlg.hmac then check (cryptHashGetBlockSize words.keyBits)
  else if words.algorithm = TpmAlg.null then check 128
  else .error (.at .scheme blamePublic)

/-- The `default` case of `CryptValidateKeys`. -/
def validateSymmetric (a : TpmtPublic) (sensitive : Option TpmtSensitive) : Except Fault Unit :=
  match sensitive with
  | none => if a.uniqueSym.length ≠ a.digestSize then .error (.at .key blamePublic) else .ok ()
  | some s => do
      match a with
      | ⟨.symcipher, _, _, _, d, _⟩ => cryptSymKeyValidate K blameSensitive d s.any
      | a => validateKeyedHash w blamePublic blameSensitive a s
      if a.nameAlg = none then .ok ()
      else if s.seedValue.size ≠ a.digestSize then .error (.at .keySize blameSensitive)
      else if a.uniqueSym ≠ cryptComputeSymmetricUnique K a s.seedValue.buffer s.any then .error (.of .binding)
      else .ok ()

/-- The switch of `CryptValidateKeys`. -/
def validateByType (a : TpmtPublic) (sensitive : Option TpmtSensitive) : Except Fault Unit :=
  match a with
  | ⟨.rsa, _, _, _, q, unique⟩ => validateRsa blamePublic blameSensitive q unique sensitive
  | ⟨.ecc, nameAlg, _, _, q, unique⟩ => validateEcc K blamePublic nameAlg q unique sensitive
  | a => validateSymmetric K w blamePublic blameSensitive a sensitive

/-- `CryptValidateKeys`. -/
def cryptValidateKeys (a : TpmtPublic) (sensitive : Option TpmtSensitive) : Except Fault Unit :=
  match sensitive with
  | none => validateByType K w blamePublic blameSensitive a none
  | some s =>
      if s.sensitiveType ≠ publicSelector.algId a.type then .error (.at .type blameSensitive)
      else if a.digestSize < s.authValue.size ∧ 0 < a.digestSize then .error (.at .size blameSensitive)
      else do
        validateByType K w blamePublic blameSensitive a (some s)
        -- a parent needs a seed for what it protects
        if (a.objectAttributes.restricted && a.objectAttributes.decrypt && a.nameAlg.isSome) = true ∧
            (s.seedValue.size < a.digestSize / 2 ∨ a.digestSize < s.seedValue.size) then
          .error (.at .size blameSensitive)
        else .ok ()

/-! ## What key generation gives -/

/-- What the crypto engine and OpenSSL promise: scalars below the order, points of the curve whose
coordinates fit, the order as a period, and moduli and primes of the size asked for. -/
structure KeyProvider.Lawful : Prop where
  order_pos : ∀ c, 1 < K.order c
  order_le : ∀ c, K.order c ≤ 256 ^ c.octets
  scalar : ∀ r c bits d r', K.openSSLEccGetPrivate r c bits = (some d, r') → 0 < d ∧ d < K.order c
  point : ∀ c d x y, K.multiply c d = some (x, y) →
    x < 256 ^ c.octets ∧ y < 256 ^ c.octets ∧ y ≠ 0 ∧ K.isPointOnCurve c x y = true
  /-- No small multiple of a generator lies on the axis. -/
  small : ∀ c d x y, d < 256 → K.multiply c d = some (x, y) → x ≠ 0
  period : ∀ c d, K.multiply c (d + K.order c) = K.multiply c d
  rsaSize : ∀ r e bits n p r', K.openSSLRsaGenerateKey r e bits = .ok ((n, p), r') →
    2 ^ (bits - 1) ≤ n ∧ n < 2 ^ bits ∧ 2 ^ (bits / 2 - 1) ≤ p ∧ p < 2 ^ (bits / 2)
  hash_length : ∀ h bs, (K.hash h bs).length = h.digestSize
  hmac_length : ∀ h key bs, (K.hmac h key bs).length = h.digestSize

variable {K} {r r' : ρ}

theorem KeyGen.bind_eq_ok {x : KeyGen ρ α} {f : α → KeyGen ρ β} {b : β × ρ} (h : (x >>= f) r = .ok b) :
    ∃ a r₁, x r = .ok (a, r₁) ∧ f a r₁ = .ok b := by
  obtain ⟨⟨a, r₁⟩, hx, hf⟩ := Transition.bind_eq_ok (x := x r) (f := fun s => f s.1 s.2) h
  exact ⟨a, r₁, hx, hf⟩

theorem KeyGen.lift_eq_ok {x : Except Fault α} {a : α} (h : KeyGen.lift x r = .ok (a, r')) : x = .ok a := by
  unfold KeyGen.lift at h
  cases x with
  | error e => cases h
  | ok b =>
      cases h
      rfl

theorem KeyGen.orNoResult_eq_ok {f : ρ → Option α × ρ} {a : α} (h : KeyGen.orNoResult f r = .ok (a, r')) :
    f r = (some a, r') := by
  unfold KeyGen.orNoResult at h
  split at h
  · rename_i hf
    cases h
    exact hf
  · cases h

/-- A number of exactly `8 * size` bits fills its octets. -/
theorem intTo2B_full {value size : Nat} {bs : Bytes} (hsize : 0 < size) (hlow : 2 ^ (8 * size - 1) ≤ value)
    (hhigh : value < 2 ^ (8 * size)) (h : intTo2B value size = .ok bs ∨ intTo2B value 0 = .ok bs) :
    bs.length = size ∧ 0x80 ≤ bs.headD 0 := by
  have hpos : value ≠ 0 := by
    have htwo : 0 < 2 ^ (8 * size - 1) := Nat.two_pow_pos _
    omega
  have hpow : (256 : Nat) ^ size = 2 ^ (8 * size) := by rw [show 256 = 2 ^ 8 by rfl, ← Nat.pow_mul]
  have hlog : value.log2 / 8 + 1 = size := by
    have hlt : value.log2 < 8 * size := (Nat.log2_lt hpos).mpr hhigh
    have hle : 8 * size - 1 ≤ value.log2 := (Nat.le_log2 hpos).mpr hlow
    omega
  have hbs : bs = be size value := by
    rcases h with h | h
    · rw [intTo2B, if_neg hpos, if_neg (by omega), hpow, if_pos hhigh] at h
      cases h
      rfl
    · rw [intTo2B, if_neg hpos, if_pos rfl, hlog] at h
      cases h
      rfl
  refine ⟨by rw [hbs, be_length], ?_⟩
  obtain ⟨w, rfl⟩ : ∃ w, size = w + 1 := ⟨size - 1, by omega⟩
  have htop : 128 ≤ value / 256 ^ w ∧ value / 256 ^ w < 256 := by
    have hsplit : (2 : Nat) ^ (8 * (w + 1) - 1) = 128 * 256 ^ w := by
      rw [show 8 * (w + 1) - 1 = 7 + 8 * w by omega, Nat.pow_add, Nat.pow_mul]
    rw [hsplit] at hlow
    rw [← hpow, Nat.pow_succ, Nat.mul_comm] at hhigh
    exact ⟨(Nat.le_div_iff_mul_le (Nat.pow_pos (by decide))).mpr hlow,
      (Nat.div_lt_iff_lt_mul (Nat.pow_pos (by decide))).mpr hhigh⟩
  rw [hbs, be, List.headD_cons, UInt8.le_iff_toNat_le, UInt8.toNat_ofNat', Nat.mod_eq_of_lt htop.2]
  exact htop.1

/-- The modulus and the prime that a round accepts have all their bits. -/
theorem rsaRounds_size {sign : Bool} {e : UInt32} {keyBits rounds q n p : Nat}
    (h : rsaRounds K sign e keyBits rounds q r = .ok ((n, p), r')) :
    2 ^ (keyBits - 1) ≤ n ∧ n < 2 ^ keyBits ∧ 2 ^ (keyBits / 2 - 1) ≤ p ∧ p < 2 ^ (keyBits / 2) := by
  induction rounds generalizing q r with
  | zero => cases h
  | succ rounds ih =>
      unfold rsaRounds at h
      split at h
      · cases h
      obtain ⟨prime, r₁, hprime, h⟩ := KeyGen.bind_eq_ok h
      have hbound : prime < 2 ^ (keyBits / 2) := by
        split at hprime
        · rename_i found _ _
          cases hprime
          exact found.property
        · cases hprime
      split at h
      · exact ih h
      split at h
      · exact ih h
      split at h
      · cases h
      rename_i hsize
      cases hexponent : K.computePrivateExponent e prime q with
      | error left =>
          simp only [hexponent] at h
          exact ih h
      | ok _ =>
      simp only [hexponent] at h
      split at h
      · cases h
      rename_i hmsb
      have hdone : 2 ^ (keyBits - 1) ≤ prime * q ∧ prime * q < 2 ^ keyBits ∧ 2 ^ (keyBits / 2 - 1) ≤ prime ∧
          prime < 2 ^ (keyBits / 2) := by
        refine ⟨?_, ?_, ?_, hbound⟩ <;> omega
      split at h
      · obtain ⟨good, r₂, -, h⟩ := KeyGen.bind_eq_ok h
        split at h
        · cases h
          exact hdone
        · exact ih h
      · cases h
        exact hdone

theorem rsaGenerate_size (hK : K.Lawful) {sign asLong : Bool} {e : UInt32} {keyBits n p : Nat}
    (h : rsaGenerate K sign e keyBits r = .ok (((n, p), asLong), r')) :
    2 ^ (keyBits - 1) ≤ n ∧ n < 2 ^ keyBits ∧ 2 ^ (keyBits / 2 - 1) ≤ p ∧ p < 2 ^ (keyBits / 2) := by
  unfold rsaGenerate at h
  split at h
  · cases hkey : K.openSSLRsaGenerateKey r e keyBits with
    | error e' =>
        rw [hkey] at h
        cases h
    | ok s =>
        obtain ⟨⟨n', p'⟩, r₁⟩ := s
        rw [hkey] at h
        cases h
        exact hK.rsaSize _ _ _ _ _ _ hkey
  · cases hkey : rsaRounds K sign e keyBits 99 0 r with
    | error e' =>
        rw [hkey] at h
        cases h
    | ok s =>
        obtain ⟨⟨n', p'⟩, r₁⟩ := s
        rw [hkey] at h
        cases h
        exact rsaRounds_size hkey

/-- `unique` and the sensitive part of an RSA key fill their octets. -/
theorem cryptRsaGenerateKey_sized (hK : K.Lawful) {x : TpmaObject} {q : RsaParms} {key : KeyPair .rsa}
    (h : cryptRsaGenerateKey K x q r = .ok (key, r')) :
    (Tpm2b.buffer key.1).length = q.keyBits / 8 ∧ 0x80 ≤ (Tpm2b.buffer key.1).headD 0 ∧
      key.2.buffer.length * 2 = q.keyBits / 8 ∧ 0x80 ≤ key.2.buffer.headD 0 ∧
      (q.exponent = 0 ∨ 65537 ≤ q.exponent) := by
  unfold cryptRsaGenerateKey at h
  dsimp only at h
  split at h
  · cases h
  rename_i hexponent
  obtain ⟨⟨⟨n, p⟩, asLong⟩, r₂, hkey, h⟩ := KeyGen.bind_eq_ok h
  have hsize := rsaGenerate_size hK hkey
  obtain ⟨unique, r₃, hunique, h⟩ := KeyGen.bind_eq_ok h
  obtain ⟨sensitive, r₄, hsensitive, h⟩ := KeyGen.bind_eq_ok h
  replace hunique := KeyGen.lift_eq_ok hunique
  replace hsensitive := KeyGen.lift_eq_ok hsensitive
  split at h
  · cases h
    have hbits : ∃ k, q.keyBits = 1024 * k ∧ 1 ≤ k ∧ k ≤ 3 := by
      have hmem := q.keyBits_mem
      simp only [List.mem_cons, List.not_mem_nil, or_false] at hmem
      rcases hmem with hb | hb | hb
      · exact ⟨1, hb, by decide, by decide⟩
      · exact ⟨2, hb, by decide, by decide⟩
      · exact ⟨3, hb, by decide, by decide⟩
    obtain ⟨k, hk, hk1, hk3⟩ := hbits
    rw [hk] at hsize hunique hsensitive ⊢
    obtain ⟨hn, hn', hp, hp'⟩ := hsize
    have hwritten : intTo2B n (128 * k) = .ok unique ∨ intTo2B n 0 = .ok unique := by
      rw [show 1024 * k / 8 = 128 * k by omega] at hunique
      split at hunique
      · exact .inr hunique
      · exact .inl hunique
    have hwritten' : intTo2B p (64 * k) = .ok sensitive ∨ intTo2B p 0 = .ok sensitive := by
      rw [show 1024 * k / 8 / 2 = 64 * k by omega] at hsensitive
      split at hsensitive
      · exact .inr hsensitive
      · exact .inl hsensitive
    have hu : unique.length = 128 * k ∧ 0x80 ≤ unique.headD 0 := by
      refine intTo2B_full (by omega) ?_ ?_ hwritten
      · rwa [show 8 * (128 * k) - 1 = 1024 * k - 1 by omega]
      · rwa [show 8 * (128 * k) = 1024 * k by omega]
    have hs : sensitive.length = 64 * k ∧ 0x80 ≤ sensitive.headD 0 := by
      refine intTo2B_full (by omega) ?_ ?_ hwritten'
      · rwa [show 8 * (64 * k) - 1 = 1024 * k / 2 - 1 by omega]
      · rwa [show 8 * (64 * k) = 1024 * k / 2 by omega]
    have hufits : (Tpm2b.ofBytes unique : Tpm2b 384).buffer = unique := List.take_of_length_le (by omega)
    have hsfits : (Tpm2b.ofBytes sensitive : Tpm2b (sensitiveSize .rsa)).buffer = sensitive :=
      List.take_of_length_le (show sensitive.length ≤ 960 by omega)
    rw [hufits, hsfits]
    refine ⟨by omega, hu.2, by omega, hs.2, ?_⟩
    by_contra hbad
    rw [not_or] at hbad
    exact hexponent ⟨hbad.1, .inl (UInt32.not_le.mp hbad.2)⟩
  · cases h

/-- What an ECC key is made of. -/
structure EccMade (K : KeyProvider ρ) (c : EccCurve) (key : KeyPair .ecc) (d x y : Nat) : Prop where
  scalar : 0 < d ∧ d < K.order c
  point : K.multiply c d = some (x, y)
  nonzero : x ≠ 0
  x : key.1.1.buffer = be c.octets x
  y : key.1.2.buffer = be c.octets y
  secret : key.2.buffer = be c.octets d

theorem EccCurve.octets_bounds (c : EccCurve) : 2 ≤ c.octets ∧ c.octets ≤ 80 := by
  cases c <;> decide

theorem intTo2B_pos {value size : Nat} (hvalue : value ≠ 0) (hsize : size ≠ 0) (hlt : value < 256 ^ size) :
    intTo2B value size = .ok (be size value) := by
  rw [intTo2B, if_neg hvalue, if_neg hsize, if_pos hlt]

theorem eccGenPrivateScalar_range (hK : K.Lawful) {c : EccCurve} {d : Nat}
    (h : eccGenPrivateScalar K c r = .ok (d, r')) : 0 < d ∧ d < K.order c := by
  unfold eccGenPrivateScalar at h
  split at h
  · exact hK.scalar _ _ _ _ _ (KeyGen.orNoResult_eq_ok h)
  · obtain ⟨⟨extra, r₂⟩, -, h⟩ := Transition.map_eq_ok h
    dsimp only at h
    cases h
    have horder := hK.order_pos c
    have hmod := Nat.mod_lt (fromBe extra.val) (show 0 < K.order c - 1 by omega)
    omega

theorem cryptEccGenerateKey_made (hK : K.Lawful) {q : EccParms} {key : KeyPair .ecc}
    (h : cryptEccGenerateKey K q r = .ok (key, r')) : ∃ d x y, EccMade K q.curveID key d x y := by
  unfold cryptEccGenerateKey at h
  obtain ⟨d, r₁, hd, h⟩ := KeyGen.bind_eq_ok h
  replace hd := eccGenPrivateScalar_range hK hd
  obtain ⟨hoctets, hoctets'⟩ := q.curveID.octets_bounds
  have hmultiply : K.multiply q.curveID (if (K.order q.curveID).log2 % 8 = 7 then d else d + K.order q.curveID) =
      K.multiply q.curveID d := by
    split
    · rfl
    · exact hK.period q.curveID d
  rw [hmultiply] at h
  cases hpoint : K.multiply q.curveID d with
  | none =>
      rw [hpoint] at h
      cases h
  | some xy =>
      obtain ⟨x, y⟩ := xy
      rw [hpoint] at h
      obtain ⟨hx, hy, hy0, -⟩ := hK.point _ _ _ _ hpoint
      obtain ⟨px, r₂, hpx, h⟩ := KeyGen.bind_eq_ok h
      obtain ⟨py, r₃, hpy, h⟩ := KeyGen.bind_eq_ok h
      obtain ⟨sensitive, r₄, hsensitive, h⟩ := KeyGen.bind_eq_ok h
      replace hpx := KeyGen.lift_eq_ok hpx
      replace hpy := KeyGen.lift_eq_ok hpy
      replace hsensitive := KeyGen.lift_eq_ok hsensitive
      split at h
      · cases h
        have hx0 : x ≠ 0 := by
          intro hx0
          -- a coordinate 0 is written as one octet, and so is the scalar then
          rw [hx0, intTo2B, if_pos rfl] at hpx
          cases hpx
          rw [List.length_singleton, intTo2B, if_neg (Nat.pos_iff_ne_zero.mp hd.1), if_neg (by decide)] at hsensitive
          split at hsensitive
          · rename_i hsmall
            exact hK.small _ d x y hsmall hpoint hx0
          · cases hsensitive
        have hdlt : d < 256 ^ q.curveID.octets := Nat.lt_of_lt_of_le hd.2 (hK.order_le _)
        rw [intTo2B_pos hx0 (by omega) hx] at hpx
        rw [intTo2B_pos hy0 (by omega) hy] at hpy
        cases hpx
        cases hpy
        rw [be_length, intTo2B_pos (by omega) (by omega) hdlt] at hsensitive
        cases hsensitive
        have hfits (n : Nat) : (Tpm2b.ofBytes (be q.curveID.octets n) : Tpm2b 80).buffer = be q.curveID.octets n :=
          List.take_of_length_le (by rw [be_length]; exact hoctets')
        exact ⟨d, x, y, hd, hpoint, hx0, hfits x, hfits y, hfits d⟩
      · cases h

/-! ## Validation of what was created -/

variable {w : Stale} {blamePublic blameSensitive : Nat}

theorem validateRsa_ok {q : RsaParms} {unique : Tpm2b 384} {s : Option TpmtSensitive}
    (hlength : unique.buffer.length = q.keyBits / 8) (hmsb : 0x80 ≤ unique.buffer.headD 0)
    (hexponent : q.exponent = 0 ∨ 65537 ≤ q.exponent)
    (hs : ∀ x, s = some x → x.any.length * 2 = q.keyBits / 8 ∧ 0x80 ≤ x.any.headD 0) :
    validateRsa blamePublic blameSensitive q unique s = .ok () := by
  have hunique : ¬ (unique.size ≠ q.keyBits / 8 ∨ unique.buffer.headD 0 < 0x80) :=
    not_or.mpr ⟨not_not.mpr hlength, UInt8.not_lt.mpr hmsb⟩
  have hseven : ¬ (q.exponent ≠ 0 ∧ q.exponent < 7) := by
    rintro ⟨hne, hlt⟩
    rcases hexponent with he | he
    · exact hne he
    · rw [UInt32.le_iff_toNat_le] at he
      rw [UInt32.lt_iff_toNat_lt] at hlt
      exact absurd (Nat.lt_of_le_of_lt he hlt) (by decide)
  unfold validateRsa
  rw [if_neg hunique, if_neg hseven]
  cases s with
  | none => rfl
  | some x =>
      obtain ⟨hx, hx'⟩ := hs x rfl
      exact if_neg (not_or.mpr ⟨not_not.mpr hx, UInt8.not_lt.mpr hx'⟩)

theorem adjustNumberB_same (num : Bytes) : adjustNumberB num num.length = num := by
  rw [adjustNumberB, if_neg (Nat.lt_irrefl _), Nat.sub_self]
  rfl

theorem validateEcc_ok (hK : K.Lawful) {nameAlg : Option HashAlg} {q : EccParms} {key : KeyPair .ecc} {d x y : Nat}
    (hkey : EccMade K q.curveID key d x y) {s : Option TpmtSensitive} (hs : ∀ z, s = some z → z.any = key.2.buffer) :
    validateEcc K blamePublic nameAlg q key.1 s = .ok () := by
  obtain ⟨hx, hy, hy0, hcurve⟩ := hK.point _ _ _ _ hkey.point
  have hoctets : q.curveID.octets ≠ 0 := by
    have := q.curveID.octets_bounds
    omega
  cases s with
  | none =>
      have hsize : ¬ (key.1.1.size ≠ q.curveID.octets ∨ key.1.2.size ≠ q.curveID.octets) := by
        rw [Tpm2b.size, Tpm2b.size, hkey.x, hkey.y, be_length, be_length]
        exact not_or.mpr ⟨not_not.mpr rfl, not_not.mpr rfl⟩
      simp only [validateEcc, if_neg hsize, hkey.x, hkey.y, fromBe_be hx, fromBe_be hy, hcurve, Bool.true_eq_false,
        and_false, if_false]
  | some z =>
      have hdlt : d < 256 ^ q.curveID.octets := Nat.lt_of_lt_of_le hkey.scalar.2 (hK.order_le _)
      have hd : fromBe z.any = d := by rw [hs z rfl, hkey.secret, fromBe_be hdlt]
      have hrange : ¬ (d = 0 ∨ K.order q.curveID ≤ d) := by
        have := hkey.scalar
        omega
      have hsame (n : Nat) : adjustNumberB (be q.curveID.octets n) q.curveID.octets = be q.curveID.octets n := by
        have hlength := adjustNumberB_same (be q.curveID.octets n)
        rwa [be_length] at hlength
      simp only [validateEcc, hd, if_neg hrange, hkey.point, intTo2B_pos hkey.nonzero hoctets hx,
        intTo2B_pos hy0 hoctets hy, hkey.x, hkey.y, Tpm2b.size, be_length]
      split
      · rfl
      · change (if be q.curveID.octets x ≠ adjustNumberB (be q.curveID.octets x) q.curveID.octets ∨
            be q.curveID.octets y ≠ adjustNumberB (be q.curveID.octets y) q.curveID.octets then
          Except.error (Fault.of .binding) else .ok ()) = .ok ()
        rw [hsame, hsame]
        exact if_neg (not_or.mpr ⟨not_not.mpr rfl, not_not.mpr rfl⟩)

/-! ## When a created key is valid -/

theorem HashAlg.digestSize_le (h : HashAlg) : h.digestSize ≤ 64 := by
  cases h <;> decide

theorem TpmtPublic.digestSize_le (a : TpmtPublic) : a.digestSize ≤ 64 := by
  unfold TpmtPublic.digestSize
  cases a.nameAlg with
  | none => exact Nat.zero_le 64
  | some h => exact h.digestSize_le

/-- What `CryptCreateObject` leaves of an asymmetric template. -/
structure CreatedFrom (K : KeyProvider ρ) (template : TpmtPublic) (create : SensitiveCreate) (o : Created) : Prop where
  key : ∃ (key : KeyPair template.type) (symmetric : KeyGen ρ (KeyPair template.type)) (r r' : ρ),
    cryptGenerateKey K template.objectAttributes template.type template.parameters symmetric r = .ok (key, r') ∧
      o.publicArea = { template with unique := key.1 } ∧ o.sensitive.sensitive = some ⟨template.type, key.2⟩
  authValue : o.sensitive.authValue = create.userAuth
  seedValue : o.sensitive.seedValue.size =
    if template.objectAttributes.restricted && !template.objectAttributes.sign then template.digestSize else 0
  digestSize : template.digestSize ≠ 0

theorem generateSeed_ok {n : Nat} {seed : Bytes} (h : generateSeed K n r = .ok (seed, r')) :
    n ≠ 0 ∧ seed.length = n := by
  unfold generateSeed at h
  rcases hg : K.generate r n with ⟨found, r₁⟩
  simp only [hg] at h
  split at h
  · cases h
  cases found with
  | none => cases h
  | some found =>
      dsimp only at h
      split at h
      · cases h
      · rename_i hn
        cases h
        exact ⟨hn, found.property⟩

theorem cryptCreateObject_ok {attributes : ObjectAttributes} {template : TpmtPublic} {create : SensitiveCreate}
    {o : Created} (hasym : template.type.isSymmetric = false)
    (h : cryptCreateObject K attributes template create r = .ok (o, r')) : CreatedFrom K template create o := by
  unfold cryptCreateObject at h
  obtain ⟨key, r₁, hkey, h⟩ := KeyGen.bind_eq_ok h
  obtain ⟨_, r₂, -, h⟩ := KeyGen.bind_eq_ok h
  obtain ⟨seed, r₃, hseed, h⟩ := KeyGen.bind_eq_ok h
  cases h
  obtain ⟨hdigest, hlength⟩ := generateSeed_ok hseed
  refine ⟨⟨key, _, r, r₁, hkey, ?_, rfl⟩, rfl, ?_, hdigest⟩
  · simp only [assemble, hasym, Bool.false_eq_true, if_false]
  · simp only [assemble, hasym, Bool.false_or]
    split
    · rw [Tpm2b.size, Tpm2b.ofBytes, List.length_take, hlength]
      exact Nat.min_eq_right template.digestSize_le
    · rfl

/-- `CryptMlDsaPubKeySize` and `CryptMlKemPubKeySize` of the parameter set. -/
def TpmtPublic.pubKeySize (a : TpmtPublic) : Nat :=
  match a with
  | ⟨.mldsa, _, _, _, q, _⟩ => (MldsaParms.parameterSet q).pubKeySize
  | ⟨.hashMldsa, _, _, _, q, _⟩ => (HashMldsaParms.parameterSet q).pubKeySize
  | ⟨.mlkem, _, _, _, q, _⟩ => (MlkemParms.parameterSet q).pubKeySize
  | _ => 0

def ObjectType.isPqc : ObjectType → Bool
  | .mldsa | .hashMldsa | .mlkem => true
  | .rsa | .ecc | .symcipher | .keyedhash => false

theorem pubKeySize_gt {a : TpmtPublic} (hpqc : a.type.isPqc = true) : a.digestSize < a.pubKeySize := by
  refine Nat.lt_of_le_of_lt a.digestSize_le ?_
  obtain ⟨type, nameAlg, x, policy, q, unique⟩ := a
  cases type with
  | mldsa => cases hset : MldsaParms.parameterSet q <;> simp only [TpmtPublic.pubKeySize, hset] <;> decide
  | hashMldsa => cases hset : HashMldsaParms.parameterSet q <;> simp only [TpmtPublic.pubKeySize, hset] <;> decide
  | mlkem => cases hset : MlkemParms.parameterSet q <;> simp only [TpmtPublic.pubKeySize, hset] <;> decide
  | rsa => cases hpqc
  | ecc => cases hpqc
  | symcipher => cases hpqc
  | keyedhash => cases hpqc

theorem validate_public_pqc {a : TpmtPublic} (hpqc : a.type.isPqc = true) :
    cryptValidateKeys K w blamePublic blameSensitive a none =
      if a.uniqueSym.length ≠ a.digestSize then .error (.at .key blamePublic) else .ok () := by
  obtain ⟨type, nameAlg, x, policy, q, unique⟩ := a
  cases type with
  | rsa => cases hpqc
  | ecc => cases hpqc
  | symcipher => cases hpqc
  | keyedhash => cases hpqc
  | mldsa => rfl
  | hashMldsa => rfl
  | mlkem => rfl

theorem validate_public_pqc_iff {a : TpmtPublic} (hpqc : a.type.isPqc = true) :
    cryptValidateKeys K w blamePublic blameSensitive a none = .ok () ↔ a.uniqueSym.length = a.digestSize := by
  rw [validate_public_pqc hpqc]
  by_cases hlength : a.uniqueSym.length = a.digestSize
  · rw [if_neg (not_not.mpr hlength)]
    exact iff_of_true rfl hlength
  · rw [if_pos hlength]
    exact iff_of_false nofun hlength

theorem cryptMlDsaGenerateKey_size {set : MldsaParameterSet} {key : Tpm2b 2592 × Tpm2b 32}
    (h : cryptMlDsaGenerateKey K set r = .ok (key, r')) : key.1.buffer.length = set.pubKeySize := by
  unfold cryptMlDsaGenerateKey at h
  obtain ⟨seed, r₁, -, h⟩ := KeyGen.bind_eq_ok h
  cases hpub : K.mldsaPublicKey set seed.val with
  | none =>
      rw [hpub] at h
      cases h
  | some pub =>
      simp only [hpub] at h
      split at h
      · cases h
      · rename_i hsize
        cases h
        exact not_not.mp hsize

theorem cryptMlKemGenerateKey_size {set : MlkemParameterSet} {key : Tpm2b 1568 × Tpm2b 64}
    (h : cryptMlKemGenerateKey K set r = .ok (key, r')) : key.1.buffer.length = set.pubKeySize := by
  unfold cryptMlKemGenerateKey at h
  obtain ⟨seed, r₁, -, h⟩ := KeyGen.bind_eq_ok h
  cases hpub : K.mlkemPublicKey set seed.val with
  | none =>
      rw [hpub] at h
      cases h
  | some pub =>
      simp only [hpub] at h
      split at h
      · cases h
      · rename_i hsize
        cases h
        exact not_not.mp hsize

theorem cryptGenerateKey_mldsa (x : TpmaObject) (q : MldsaParms) (symmetric : KeyGen ρ (KeyPair .mldsa)) :
    cryptGenerateKey K x .mldsa q symmetric = cryptMlDsaGenerateKey K q.parameterSet :=
  if_neg (by simp [supportsExtMu])

theorem CreatedFrom.uniqueSym_pqc {template : TpmtPublic} {create : SensitiveCreate} {o : Created}
    (ho : CreatedFrom K template create o) (hpqc : template.type.isPqc = true) :
    o.publicArea.type = template.type ∧ o.publicArea.digestSize = template.digestSize ∧
      o.publicArea.uniqueSym.length = template.pubKeySize := by
  obtain ⟨⟨key, symmetric, r, r', hkey, hpublic, -⟩, -, -, -⟩ := ho
  rw [hpublic]
  refine ⟨rfl, rfl, ?_⟩
  obtain ⟨type, nameAlg, x, policy, q, unique⟩ := template
  cases type with
  | mldsa => exact cryptMlDsaGenerateKey_size ((congrFun (cryptGenerateKey_mldsa x q symmetric) r).symm.trans hkey)
  | hashMldsa => exact cryptMlDsaGenerateKey_size hkey
  | mlkem => exact cryptMlKemGenerateKey_size hkey
  | rsa => cases hpqc
  | ecc => cases hpqc
  | symcipher => cases hpqc
  | keyedhash => cases hpqc

theorem CreatedFrom.digestSize_eq {template : TpmtPublic} {create : SensitiveCreate} {o : Created}
    (ho : CreatedFrom K template create o) : o.publicArea.digestSize = template.digestSize := by
  obtain ⟨key, symmetric, r, r', -, hpublic, -⟩ := ho.key
  rw [hpublic]
  rfl

theorem CreatedFrom.digestSize_public {template : TpmtPublic} {create : SensitiveCreate} {o : Created}
    (ho : CreatedFrom K template create o) : o.publicArea.digestSize ≠ 0 := by
  rw [ho.digestSize_eq]
  exact ho.digestSize

theorem CreatedFrom.sensitiveType {template : TpmtPublic} {create : SensitiveCreate} {o : Created}
    (ho : CreatedFrom K template create o) : o.sensitive.sensitiveType = publicSelector.algId o.publicArea.type := by
  obtain ⟨key, symmetric, r, r', -, hpublic, hsensitive⟩ := ho.key
  rw [hpublic, TpmtSensitive.sensitiveType, hsensitive]

/-- The seed of a parent is as long as it must be unless the key signs as well. -/
theorem CreatedFrom.seed_iff {template : TpmtPublic} {create : SensitiveCreate} {o : Created}
    (ho : CreatedFrom K template create o) :
    ((o.publicArea.objectAttributes.restricted && o.publicArea.objectAttributes.decrypt &&
        o.publicArea.nameAlg.isSome) = true ∧
      (o.sensitive.seedValue.size < o.publicArea.digestSize / 2 ∨
        o.publicArea.digestSize < o.sensitive.seedValue.size)) ↔
    template.objectAttributes.restricted ∧ template.objectAttributes.decrypt ∧ template.objectAttributes.sign := by
  have hdigest := ho.digestSize
  have hseed := ho.seedValue
  obtain ⟨key, symmetric, r, r', -, hpublic, -⟩ := ho.key
  have hnameAlg : ∃ h, template.nameAlg = some h := by
    cases hn : template.nameAlg with
    | none =>
        rw [TpmtPublic.digestSize, hn] at hdigest
        exact absurd rfl hdigest
    | some h => exact ⟨h, rfl⟩
  obtain ⟨h, hn⟩ := hnameAlg
  have hlong : 20 ≤ template.digestSize := by
    rw [TpmtPublic.digestSize, hn]
    cases h <;> decide
  rw [ho.digestSize_eq, hseed, hpublic]
  cases hrestricted : template.objectAttributes.restricted <;> cases hdecrypt : template.objectAttributes.decrypt <;>
    cases hsign : template.objectAttributes.sign <;>
    simp only [hn, Option.isSome_some, Bool.and_self, Bool.and_false, Bool.and_true, Bool.not_true, Bool.not_false,
      Bool.false_eq_true, if_true, if_false, true_and, false_and,
      and_false, and_true, iff_true, iff_false] <;>
    omega

/-- Both calls of the validator succeed. -/
def Validates (K : KeyProvider ρ) (w : Stale) (blamePublic blameSensitive : Nat) (o : Created) : Prop :=
  cryptValidateKeys K w blamePublic blameSensitive o.publicArea (some o.sensitive) = .ok () ∧
    cryptValidateKeys K w blamePublic blameSensitive o.publicArea none = .ok ()

/-- What the validator expects of a template. -/
def TpmtPublic.Validatable (template : TpmtPublic) (create : SensitiveCreate) : Prop :=
  template.type.isPqc = false ∧ create.userAuth.size ≤ template.digestSize ∧
    ¬ (template.objectAttributes.restricted ∧ template.objectAttributes.decrypt ∧ template.objectAttributes.sign)

theorem validate_sensitive_iff {a : TpmtPublic} {s : TpmtSensitive}
    (htype : s.sensitiveType = publicSelector.algId a.type) (hdigest : a.digestSize ≠ 0)
    (hkey : validateByType K w blamePublic blameSensitive a (some s) = .ok ()) :
    cryptValidateKeys K w blamePublic blameSensitive a (some s) = .ok () ↔ s.authValue.size ≤ a.digestSize ∧
      ¬ ((a.objectAttributes.restricted && a.objectAttributes.decrypt && a.nameAlg.isSome) = true ∧
        (s.seedValue.size < a.digestSize / 2 ∨ a.digestSize < s.seedValue.size)) := by
  rw [cryptValidateKeys, if_neg (not_not.mpr htype)]
  by_cases hauth : s.authValue.size ≤ a.digestSize
  · rw [if_neg (fun hlong => absurd hlong.1 (Nat.not_lt.mpr hauth)), hkey]
    change (if _ then _ else _) = _ ↔ _
    split
    · rename_i hseed
      exact iff_of_false nofun fun hok => hok.2 hseed
    · rename_i hseed
      exact iff_of_true rfl ⟨hauth, hseed⟩
  · rw [if_pos ⟨by omega, by omega⟩]
    exact iff_of_false nofun fun hok => hauth hok.1

/-- The keys of the other two types are valid as far as their type goes. -/
theorem CreatedFrom.validateByType_ok (hK : K.Lawful) {template : TpmtPublic} {create : SensitiveCreate} {o : Created}
    (ho : CreatedFrom K template create o) (hpqc : template.type.isPqc = false)
    (hasym : template.type.isSymmetric = false) {s : Option TpmtSensitive} (hs : ∀ x, s = some x → x = o.sensitive) :
    validateByType K w blamePublic blameSensitive o.publicArea s = .ok () := by
  obtain ⟨⟨key, symmetric, r, r', hkey, hpublic, hsensitive⟩, -, -, -⟩ := ho
  rw [hpublic]
  obtain ⟨type, nameAlg, x, policy, q, unique⟩ := template
  have hany : ∀ z, s = some z → z.any = key.2.buffer := by
    intro z hz
    rw [hs z hz, TpmtSensitive.any, hsensitive]
  cases type with
  | rsa =>
      obtain ⟨hunique, hmsb, hsize, hmsb', hexponent⟩ := cryptRsaGenerateKey_sized hK hkey
      refine validateRsa_ok hunique hmsb hexponent fun z hz => ?_
      rw [hany z hz]
      exact ⟨hsize, hmsb'⟩
  | ecc =>
      obtain ⟨d, px, py, hmade⟩ := cryptEccGenerateKey_made hK hkey
      exact validateEcc_ok hK hmade hany
  | mldsa => cases hpqc
  | hashMldsa => cases hpqc
  | mlkem => cases hpqc
  | symcipher => cases hasym
  | keyedhash => cases hasym

/-- Created asymmetric keys pass the validator when they are RSA or ECC keys, their authValue is no longer
than a digest, and the template does not make a signing key a parent; a public key of the other types
passes it with the right length only if it would not pass with the length of a digest. -/
theorem created_keys_validate_iff (hK : K.Lawful) :
    (∀ attributes template create o r r' w blamePublic blameSensitive,
      template.type.isSymmetric = false → cryptCreateObject K attributes template create r = .ok (o, r') →
      (Validates K w blamePublic blameSensitive o ↔ template.Validatable create)) ∧
    ∀ w blamePublic blameSensitive (a : TpmtPublic), a.type.isPqc = true →
      ((cryptValidateKeys K w blamePublic blameSensitive a none = .ok () → a.uniqueSym.length = a.pubKeySize) ↔
        a.uniqueSym.length ≠ a.digestSize) := by
  constructor
  · intro attributes template create o r r' w blamePublic blameSensitive hasym hcreate
    have ho := cryptCreateObject_ok hasym hcreate
    cases hpqc : template.type.isPqc with
    | true =>
        obtain ⟨htype, hsize, hlength⟩ := ho.uniqueSym_pqc hpqc
        refine iff_of_false (fun hboth => ?_) fun hok => Bool.false_ne_true (hok.1.symm.trans hpqc)
        have hdigest := (validate_public_pqc_iff (by rw [htype, hpqc])).mp hboth.2
        have hgt := pubKeySize_gt hpqc
        omega
    | false =>
        have hpublic : cryptValidateKeys K w blamePublic blameSensitive o.publicArea none = .ok () :=
          ho.validateByType_ok hK hpqc hasym nofun
        have hsensitive : validateByType K w blamePublic blameSensitive o.publicArea (some o.sensitive) = .ok () :=
          ho.validateByType_ok hK hpqc hasym fun x hx => (Option.some.inj hx).symm
        rw [Validates, and_iff_left hpublic, validate_sensitive_iff ho.sensitiveType ho.digestSize_public hsensitive,
          ho.seed_iff, ho.authValue, ho.digestSize_eq, TpmtPublic.Validatable, and_iff_right hpqc]
  · intro w blamePublic blameSensitive a hpqc
    rw [validate_public_pqc_iff hpqc]
    have hgt := pubKeySize_gt hpqc
    omega

end

/-- The order of the curve P-256. -/
def p256Order : Nat := 0xFFFFFFFF00000000FFFFFFFFFFFFFFFFBCE6FAADA7179E84F3B9CAC2FC632551

def p256Generator : Nat × Nat :=
  (0x6B17D1F2E12C4247F8BCE6E563A440F277037D812DEB33A0F4A13945D898C296,
    0x4FE342E2FE1A7F9B8EE7EB4A7C0F9E162BCE33576B315ECECBB6406837BF51F5)

theorem zeroBytes_length (n : Nat) : (List.replicate n (0 : UInt8)).length = n := List.length_replicate

/-- A generator of zeros; the scalar it gives is 1, whose public point is the generator of the curve. -/
def zeroProvider : KeyProvider Unit where
  generate _ n := (some ⟨List.replicate n 0, zeroBytes_length n⟩, ())
  inFailureMode _ := false
  additionalData _ := ()
  isDefault _ := false
  isCanceled _ := false
  isPrimeInt e := e == 65537
  openSSLRsaGenerateKey _ _ _ := .error (.of .noResult)
  generatePrimeForRSA _ _ _ := (none, ())
  computePrivateExponent _ _ _ := .ok ()
  trial _ _ _ _ := (true, ())
  rsaConsistent _ _ := true
  eccConsistent _ _ := true
  order c := if c = .nistP256 then p256Order else 3
  multiply c d :=
    if c = .nistP256 then if d % p256Order = 0 then none else some p256Generator
    else if d % 3 = 0 then none else some (1, 1)
  isPointOnCurve _ _ _ := true
  openSSLEccGetPrivate _ _ _ := (none, ())
  mldsaPublicKey set _ := some ⟨List.replicate set.pubKeySize 0, by
    rw [List.length_replicate]
    cases set <;> decide⟩
  mlkemPublicKey set _ := some ⟨List.replicate set.pubKeySize 0, by
    rw [List.length_replicate]
    cases set <;> decide⟩
  symmetricKey _ _ bs := .ok (bs, ())
  desValidateKey _ := true
  hash h _ := List.replicate h.digestSize 0
  hmac h _ _ := List.replicate h.digestSize 0
  name _ := .empty

theorem zeroProvider_lawful : zeroProvider.Lawful where
  order_pos c := by
    cases c <;> decide
  order_le c := by
    cases c <;> decide
  scalar r c bits d r' h := nomatch h
  point c d x y h := by
    simp only [zeroProvider] at h ⊢
    split at h
    · rename_i hc
      subst hc
      split at h
      · cases h
      · cases h
        decide
    · split at h
      · cases h
      · cases h
        cases c <;> decide
  small c d x y hd h := by
    simp only [zeroProvider] at h
    split at h <;> split at h <;> cases h <;> decide
  period c d := by
    simp only [zeroProvider]
    split
    · rw [Nat.add_mod_right]
    · rw [Nat.add_mod_right]
  rsaSize r e bits n p r' h := nomatch h
  hash_length h bs := List.length_replicate
  hmac_length h key bs := List.length_replicate

/-- A signing key on P-256. -/
def p256Template : TpmtPublic where
  type := .ecc
  nameAlg := some .sha256
  objectAttributes := { sensitiveDataOrigin := true, userWithAuth := true, sign := true }
  authPolicy := .empty
  parameters := (⟨none, .null, .nistP256, none⟩ : EccParms)
  unique := ((.empty, .empty) : Tpm2bEccParameter × Tpm2bEccParameter)

theorem p256_key_validates : ∃ o, cryptCreateObject zeroProvider {} p256Template ⟨.empty, []⟩ () = .ok (o, ()) ∧
    Validates zeroProvider {} 0x142 0x141 o :=
  ⟨_, rfl, ((created_keys_validate_iff zeroProvider_lawful).1 {} p256Template ⟨.empty, []⟩ _ () () {} 0x142 0x141 rfl
    rfl).mpr ⟨rfl, by decide, by decide⟩⟩

/-- A signing key for ML-DSA-44. -/
def mldsa44Template : TpmtPublic where
  type := .mldsa
  nameAlg := some .sha256
  objectAttributes := { sensitiveDataOrigin := true, userWithAuth := true, sign := true }
  authPolicy := .empty
  parameters := (⟨.mldsa44, false⟩ : MldsaParms)
  unique := (.empty : Tpm2b 2592)

set_option maxRecDepth 8000 in
/-- A created ML-DSA key is refused both ways, while 32 octets pass for a public key. -/
theorem mldsa_key_refused :
    (∃ o, cryptCreateObject zeroProvider {} mldsa44Template ⟨.empty, []⟩ () = .ok (o, ()) ∧
      cryptValidateKeys zeroProvider {} 0x142 0x141 o.publicArea (some o.sensitive) = .error (.at .scheme 0x142) ∧
      cryptValidateKeys zeroProvider {} 0x142 0x141 o.publicArea none = .error (.at .key 0x142)) ∧
    cryptValidateKeys zeroProvider {} 0x142 0x141
      { mldsa44Template with unique := (⟨List.replicate 32 7, by decide⟩ : Tpm2b 2592) } none = .ok () := by
  refine ⟨⟨_, rfl, rfl, ?_⟩, rfl⟩
  refine (validate_public_pqc rfl).trans (if_pos ?_)
  change (List.replicate 1312 (0 : UInt8)).length ≠ 32
  rw [List.length_replicate]
  decide

end PqcTpm
