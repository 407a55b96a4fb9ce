import PqcTpm.Protection
import PqcTpm.SignatureBinding

/-!
# Decapsulation with an ML-KEM key

`TPM2_Decapsulate` of `PqcKemCommands.c` beside `CryptSecretEncrypt` and `CryptSecretDecrypt` of
`CryptUtil.c`, which take the same private key to the secrets in credentials, duplicates and session salts.
-/
namespace PqcTpm
open ByteCodec Transition

/-- The EVP calls of `CryptMlKem.c`, and `CryptKDFa` with the label, the ciphertext and the public key. -/
structure KemProvider where
  pkeyFromPub : MlkemParameterSet → Bytes → Bool
  pkeyFromSeed : MlkemParameterSet → Bytes → Bool
  /-- Ciphertext and shared secret; the last argument is what the random generator gave. -/
  encapsulate : MlkemParameterSet → Bytes → Bytes → Option (Bytes × Bytes)
  decapsulate : MlkemParameterSet → Bytes → Bytes → Option Bytes
  kdfa : HashAlg → Bytes → Bytes → Bytes → Bytes → Bytes

/-- `CryptMlKemCtSize`. -/
def MlkemParameterSet.ctSize : MlkemParameterSet → Nat
  | .mlkem512 => 768
  | .mlkem768 => 1088
  | .mlkem1024 => 1568

/-- `MLKEM_SHARED_SECRET_SIZE`. -/
def mlkemSharedSecretSize : Nat := 32

/-- `GetParamSet` of `CryptMlKem.c`. -/
def TpmtPublic.mlkemParameterSet? (a : TpmtPublic) : Option MlkemParameterSet :=
  match a with
  | { type := .mlkem, parameters := q, .. } => some (MlkemParms.parameterSet q)
  | _ => none

/-- `unique.mlkem`. -/
def TpmtPublic.mlkemUnique (a : TpmtPublic) : Bytes :=
  match a with
  | { type := .mlkem, unique := u, .. } => (u : Tpm2b 1568).buffer
  | _ => []

/-- `sensitive.mlkem`, which is empty where only the public area is loaded. -/
def TpmtSensitive.mlkemSeed (x : TpmtSensitive) : Bytes :=
  match x.sensitive with
  | some ⟨.mlkem, seed⟩ => seed.buffer
  | _ => []

/-- A provider that never fails, with one shared secret. -/
def toyKem : KemProvider where
  pkeyFromPub _ _ := true
  pkeyFromSeed _ _ := true
  encapsulate set _ _ := some (List.replicate set.ctSize 0, List.replicate mlkemSharedSecretSize 0x5A)
  decapsulate _ _ _ := some (List.replicate mlkemSharedSecretSize 0x5A)
  kdfa hash ss _ _ _ := (ss ++ List.replicate 64 0).take hash.digestSize

section
variable {σ : Type} (K : KemProvider)

/-- `CryptMlKemEncapsulate`: ciphertext and shared secret. -/
def cryptMlKemEncapsulate (a : TpmtPublic) (rand : Bytes) : Except Fault (Bytes × Bytes) :=
  match a.mlkemParameterSet? with
  | none => .error (.of .scheme)
  | some set =>
      if !K.pkeyFromPub set a.mlkemUnique then .error (.of .key)
      else match K.encapsulate set a.mlkemUnique rand with
        | none => .error (.of .failure)
        | some (ct, ss) =>
            if ct.length ≠ set.ctSize ∨ ss.length ≠ mlkemSharedSecretSize then .error (.of .size)
            else .ok (ct, ss)

/-- `CryptMlKemDecapsulate`. -/
def cryptMlKemDecapsulate (ciphertext : Bytes) (key : Object) : Except Fault Bytes :=
  match key.publicArea.mlkemParameterSet? with
  | none => .error (.of .scheme)
  | some set =>
      if ciphertext.length ≠ set.ctSize then .error (.of .size)
      else if !K.pkeyFromSeed set key.sensitive.mlkemSeed then .error (.of .key)
      else match K.decapsulate set key.sensitive.mlkemSeed ciphertext with
        | none => .error (.of .failure)
        | some ss => if ss.length ≠ mlkemSharedSecretSize then .error (.of .size) else .ok ss

/-- `TPM2_Decapsulate`. -/
def decapsulate (keyHandle : TpmHandle) (ciphertext : Tpm2b 1568) (s : TpmState σ) : Except Fault Bytes :=
  match keyObject s keyHandle with
  | .error e => .error e
  | .ok (some (.object key)) =>
      if key.publicArea.type ≠ .mlkem then .error (.at .attributes 0x100)
      else cryptMlKemDecapsulate K ciphertext.buffer key
  | .ok (some _) => .error (.at .attributes 0x100)
  | .ok none => .error .failureMode

/-- The seed of a credential, a duplicate or a session: `CryptKDFa` of the shared secret. A key without a
name algorithm has a seed without octets. -/
def labeledSecret (a : TpmtPublic) (label ciphertext sharedSecret : Bytes) : Bytes :=
  match a.nameAlg with
  | some hash => K.kdfa hash sharedSecret label ciphertext a.mlkemUnique
  | none => []

/-- `CryptSecretEncrypt`: the encrypted secret and the seed. `other` is the code of the other key types. -/
def cryptSecretEncrypt (other : TpmtPublic → Bytes → Bytes → Except Fault (Bytes × Bytes)) (a : TpmtPublic)
    (label rand : Bytes) : Except Fault (Bytes × Bytes) :=
  if label.getLast? ≠ some 0 then .error (.of .failure)
  else if !a.objectAttributes.decrypt then .error (.of .attributes)
  else if a.type = .mlkem then do
    let (ct, ss) ← cryptMlKemEncapsulate K a rand
    .ok (ct, labeledSecret K a label ct ss)
  else other a label rand

/-- `CryptSecretDecrypt`; it looks at no attribute, as its callers do that. -/
def cryptSecretDecrypt (other : Object → Bytes → Bytes → Except Fault Bytes) (key : Object)
    (label secret : Bytes) : Except Fault Bytes :=
  if label.getLast? ≠ some 0 then .error (.of .failure)
  else if key.publicArea.type = .mlkem then do
    let ss ← cryptMlKemDecapsulate K secret key
    .ok (labeledSecret K key.publicArea label secret ss)
  else other key label secret

/-! ## Which ciphertexts give a shared secret -/

/-- The size that `CryptMlKemDecapsulate` asks for. -/
def CiphertextFits (ciphertext : Bytes) (key : Object) : Prop :=
  ∃ set, key.publicArea.mlkemParameterSet? = some set ∧ ciphertext.length = set.ctSize

/-- The provider takes the seed and the ciphertext, and gives a secret of the right length. -/
def KemProvider.Opens (ciphertext : Bytes) (key : Object) : Prop :=
  ∀ set, key.publicArea.mlkemParameterSet? = some set → K.pkeyFromSeed set key.sensitive.mlkemSeed = true ∧
    ∃ ss, K.decapsulate set key.sensitive.mlkemSeed ciphertext = some ss ∧ ss.length = mlkemSharedSecretSize

theorem mlkemParameterSet?_of_type {a : TpmtPublic} (h : a.type = .mlkem) :
    ∃ set, a.mlkemParameterSet? = some set := by
  obtain ⟨type, nameAlg, objectAttributes, authPolicy, parameters, unique⟩ := a
  obtain rfl : type = .mlkem := h
  exact ⟨_, rfl⟩

theorem cryptMlKemDecapsulate_ok_iff {ciphertext : Bytes} {key : Object} (htype : key.publicArea.type = .mlkem) :
    (∃ ss, cryptMlKemDecapsulate K ciphertext key = .ok ss) ↔
      CiphertextFits ciphertext key ∧ K.Opens ciphertext key := by
  obtain ⟨set, hset⟩ := mlkemParameterSet?_of_type htype
  simp only [cryptMlKemDecapsulate, CiphertextFits, KemProvider.Opens, hset, Option.some.injEq, exists_eq_left',
    forall_eq']
  by_cases hsize : ciphertext.length = set.ctSize
  · cases hseed : K.pkeyFromSeed set key.sensitive.mlkemSeed with
    | false => simp [hsize]
    | true =>
        cases hdecap : K.decapsulate set key.sensitive.mlkemSeed ciphertext with
        | none => simp [hsize]
        | some ss => by_cases hlen : ss.length = mlkemSharedSecretSize <;> simp [hsize, hlen]
  · simp [hsize]

theorem exists_decapsulates_iff {ciphertext : Bytes} {key : Object} (htype : key.publicArea.type = .mlkem) :
    (∃ K ss, cryptMlKemDecapsulate K ciphertext key = .ok ss) ↔ CiphertextFits ciphertext key := by
  simp only [cryptMlKemDecapsulate_ok_iff _ htype]
  constructor
  · rintro ⟨K, hfits, -⟩
    exact hfits
  · intro hfits
    refine ⟨toyKem, hfits, fun set _ => ⟨rfl, _, rfl, ?_⟩⟩
    rw [List.length_replicate]

theorem decapsulate_eq {s : TpmState σ} {keyHandle : TpmHandle} {key : Object}
    (hgiven : keyGiven s keyHandle = some key) (htype : key.publicArea.type = .mlkem) (ciphertext : Tpm2b 1568) :
    decapsulate K keyHandle ciphertext s = cryptMlKemDecapsulate K ciphertext.buffer key := by
  simp only [decapsulate, keyGiven_eq_some hgiven, htype, ne_eq, not_true, if_false]

theorem cryptSecretDecrypt_ok_iff {other : Object → Bytes → Bytes → Except Fault Bytes} {key : Object}
    {label secret : Bytes} (hlabel : label.getLast? = some 0) (htype : key.publicArea.type = .mlkem) (seed : Bytes) :
    cryptSecretDecrypt K other key label secret = .ok seed ↔
      ∃ ss, cryptMlKemDecapsulate K secret key = .ok ss ∧
        seed = labeledSecret K key.publicArea label secret ss := by
  simp only [cryptSecretDecrypt, hlabel, htype, ne_eq, not_true, if_false, if_true]
  constructor
  · intro h
    obtain ⟨ss, hss, hseed⟩ := bind_eq_ok h
    exact ⟨ss, hss, (Except.ok.inj hseed).symm⟩
  · rintro ⟨ss, hss, rfl⟩
    rw [hss]
    rfl

/-! ## What `TPM2_Decapsulate` gives away -/

/-- `decrypt` SET and `restricted` CLEAR, as `TPM2_RSA_Decrypt` and `TPM2_ECDH_ZGen` ask. -/
def TpmtPublic.decryptsFreely (a : TpmtPublic) : Prop :=
  a.objectAttributes.decrypt = true ∧ a.objectAttributes.restricted = false

/-- Whatever the provider does, a shared secret is given out for a key that decrypts freely only, exactly where
the key is such a key or the ciphertext has another size; and what `CryptSecretDecrypt` recovers from a blob, under
whatever label, is what the shared secret of `TPM2_Decapsulate` gives. -/
theorem decapsulate_free_iff (other : Object → Bytes → Bytes → Except Fault Bytes) (s : TpmState σ)
    (keyHandle : TpmHandle) (key : Object) (ciphertext : Tpm2b 1568) (hgiven : keyGiven s keyHandle = some key)
    (htype : key.publicArea.type = .mlkem) :
    ((∀ K, (∃ ss, decapsulate K keyHandle ciphertext s = .ok ss) → key.publicArea.decryptsFreely) ↔
        key.publicArea.decryptsFreely ∨ ¬ CiphertextFits ciphertext.buffer key) ∧
      ∀ K label seed, label.getLast? = some 0 →
        (cryptSecretDecrypt K other key label ciphertext.buffer = .ok seed ↔
          ∃ ss, decapsulate K keyHandle ciphertext s = .ok ss ∧
            seed = labeledSecret K key.publicArea label ciphertext.buffer ss) := by
  simp only [decapsulate_eq _ hgiven htype]
  refine ⟨?_, fun K label seed hlabel => cryptSecretDecrypt_ok_iff K hlabel htype seed⟩
  rw [← exists_imp, exists_decapsulates_iff htype]
  tauto

/-! ## Credentials -/

/-- The provider decapsulates what it has encapsulated for the public key of a seed. -/
def KemProvider.Correct (publicKey : MlkemParameterSet → Bytes → Bytes) : Prop :=
  ∀ set seed rand ct ss, K.encapsulate set (publicKey set seed) rand = some (ct, ss) →
    K.decapsulate set seed ct = some ss

/-- Whoever may use the key with `TPM2_Decapsulate` has the seed of every secret that is made for it, whatever
the key's attributes are. -/
theorem decapsulate_recovers {publicKey : MlkemParameterSet → Bytes → Bytes} (hcorrect : K.Correct publicKey)
    {otherEncrypt : TpmtPublic → Bytes → Bytes → Except Fault (Bytes × Bytes)} {s : TpmState σ}
    {keyHandle : TpmHandle} {key : Object} {set : MlkemParameterSet} {label rand seed : Bytes}
    {secret : Tpm2b 1568} (hgiven : keyGiven s keyHandle = some key)
    (hset : key.publicArea.mlkemParameterSet? = some set) (htype : key.publicArea.type = .mlkem)
    (hpair : key.publicArea.mlkemUnique = publicKey set key.sensitive.mlkemSeed)
    (hseed : K.pkeyFromSeed set key.sensitive.mlkemSeed = true)
    (hmade : cryptSecretEncrypt K otherEncrypt key.publicArea label rand = .ok (secret.buffer, seed)) :
    ∃ ss, decapsulate K keyHandle secret s = .ok ss ∧
      seed = labeledSecret K key.publicArea label secret.buffer ss := by
  rw [decapsulate_eq K hgiven htype]
  unfold cryptSecretEncrypt at hmade
  split at hmade
  · cases hmade
  split at hmade
  · cases hmade
  obtain ⟨⟨ct, ss⟩, hencap, hblob⟩ := bind_eq_ok hmade
  obtain ⟨rfl, rfl⟩ := Prod.mk.inj (Except.ok.inj hblob)
  simp only [cryptMlKemEncapsulate, hset] at hencap
  split at hencap
  · cases hencap
  split at hencap
  · cases hencap
  rename_i ct' ss' hprovider
  split at hencap
  · cases hencap
  rename_i hlen
  obtain ⟨rfl, rfl⟩ := Prod.mk.inj (Except.ok.inj hencap)
  rw [not_or, not_not, not_not] at hlen
  refine ⟨ss', ?_, rfl⟩
  rw [hpair] at hprovider
  simp only [cryptMlKemDecapsulate, hset, hlen.1, hlen.2, hseed, hcorrect _ _ _ _ _ hprovider, ne_eq, not_true,
    Bool.not_true, Bool.false_eq_true, if_false]

end

/-! ## A storage key that is used for decryption -/

theorem toyKem_correct (publicKey : MlkemParameterSet → Bytes → Bytes) : toyKem.Correct publicKey := by
  intro set seed rand ct ss h
  rw [← (Prod.mk.inj (Option.some.inj h)).2]
  rfl

def kemParms : MlkemParms := ⟨some ⟨.aes, 128, some .cfb, aes_keyBits⟩, .mlkem512⟩

/-- `restricted` and `decrypt` SET. -/
def kemParent : Object := restrictedDecryptKey (t := .mlkem) kemParms (Tpm2b.empty : Tpm2b 1568)

/-- A key with which secrets may be had. -/
def kemFree : Object :=
  { kemParent with
    publicArea := { kemParent.publicArea with objectAttributes := { userWithAuth := true, decrypt := true } } }

def kemLoaded (key : Object) : TpmState Unit := run (step toyPlatform toyCrypto) {} [.command ⟨.load key, []⟩]

def zeroCiphertext : Tpm2b 1568 := ⟨List.replicate 768 0, by rw [List.length_replicate]; decide⟩

theorem zeroCiphertext_length : zeroCiphertext.buffer.length = MlkemParameterSet.ctSize .mlkem512 :=
  List.length_replicate

def noOther : Object → Bytes → Bytes → Except Fault Bytes := fun _ _ _ => .error .failureMode

theorem zeroCiphertext_accepted {key : Object} (hset : key.publicArea.mlkemParameterSet? = some .mlkem512) :
    cryptMlKemDecapsulate toyKem zeroCiphertext.buffer key = .ok (List.replicate 32 0x5A) := by
  simp only [cryptMlKemDecapsulate, hset, zeroCiphertext_length, toyKem, mlkemSharedSecretSize, ne_eq, not_true,
    Bool.not_true, Bool.false_eq_true, if_false, List.length_replicate]

/-- The rule is kept for a key that decrypts freely. -/
theorem kemFree_decapsulates :
    keyGiven (kemLoaded kemFree) (slotHandle 0) = some kemFree.asLoaded ∧
      (∃ ss, decapsulate toyKem (slotHandle 0) zeroCiphertext (kemLoaded kemFree) = .ok ss) ∧
      kemFree.asLoaded.publicArea.decryptsFreely := by
  have hgiven : keyGiven (kemLoaded kemFree) (slotHandle 0) = some kemFree.asLoaded := rfl
  have hok : ∃ ss, decapsulate toyKem (slotHandle 0) zeroCiphertext (kemLoaded kemFree) = .ok ss :=
    ⟨_, (decapsulate_eq toyKem hgiven rfl _).trans (zeroCiphertext_accepted rfl)⟩
  have hiff := decapsulate_free_iff noOther (kemLoaded kemFree) (slotHandle 0) kemFree.asLoaded zeroCiphertext
    hgiven rfl
  exact ⟨hgiven, hok, hiff.1.mpr (.inl ⟨rfl, rfl⟩) toyKem hok⟩

/-- A storage key passes the validation of its template, is loaded, and gives the shared secret of the
credential's blob away. -/
theorem kemParent_decapsulates :
    publicAttributesValidation none {} kemParent.publicArea = .ok () ∧
      Reachable TpmState.IsInitial (fun s s' => ∃ e, s' = step toyPlatform toyCrypto s e) (kemLoaded kemParent) ∧
      keyGiven (kemLoaded kemParent) (slotHandle 0) = some kemParent.asLoaded ∧
      kemParent.asLoaded.publicArea.objectAttributes.restricted = true ∧
      decapsulate toyKem (slotHandle 0) zeroCiphertext (kemLoaded kemParent) = .ok (List.replicate 32 0x5A) := by
  have hgiven : keyGiven (kemLoaded kemParent) (slotHandle 0) = some kemParent.asLoaded := rfl
  refine ⟨rfl, Reachable.of_run ⟨fun _ => rfl, rfl⟩ _, hgiven, rfl, ?_⟩
  exact (decapsulate_eq toyKem hgiven rfl _).trans (zeroCiphertext_accepted rfl)

end PqcTpm
