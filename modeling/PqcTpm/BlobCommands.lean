import PqcTpm.BlobProtection
import PqcTpm.KeyValidation
import PqcTpm.NvCommands

/-!
# Commands on protected blobs

`TPM2_Load` and `TPM2_ObjectChangeAuth`, the commands of `DuplicationCommands.c` that take an object from one TPM to
another, and those of `ObjectCommands.c` for credentials. A handle is the object that it leads to; the sender of a
secret has the public area of a key only, and its owner has the key.
-/
namespace PqcTpm
open ByteCodec

/-- What stands behind the commands. -/
structure BlobEngine (ρ : Type) where
  crypto : BlobCrypto
  kem : KemProvider
  keys : KeyProvider ρ
  /-- `CryptSecretEncrypt` and `CryptSecretDecrypt` for the other key types. -/
  secretEncrypt : TpmtPublic → Bytes → Bytes → Except Fault (Bytes × Bytes)
  secretDecrypt : Object → Bytes → Bytes → Except Fault Bytes
  cryptRsaLoadPrivateExponent : TpmtPublic → TpmtSensitive → Except Fault PrivateExponent

/-- `DUPLICATE_STRING`. -/
def duplicateString : Bytes := [0x44, 0x55, 0x50, 0x4c, 0x49, 0x43, 0x41, 0x54, 0x45, 0]

/-- `IDENTITY_STRING`. -/
def identityString : Bytes := [0x49, 0x44, 0x45, 0x4e, 0x54, 0x49, 0x54, 0x59, 0]

/-- The buffer of a `TPM2B_PRIVATE`. -/
def privateBufferSize : Nat := 1230

/-! ## Names -/

section Names
variable (K : BlobCrypto)

/-- `PublicMarshalAndComputeName`. -/
def publicMarshalAndComputeName (publicArea : TpmtPublic) : Tpm2bName :=
  match publicArea.nameAlg with
  | none => .empty
  | some h => .ofBytes (be 2 (hashSelector.algId h) ++ K.hash h publicArea.marshal)

/-- `GetQualifiedName`. -/
def getQualifiedName : ParentRef → Bytes
  | .seed hierarchy => writeUint32 hierarchy.handle
  | .object o => if o.publicArea.nameAlg.isNone then [] else o.qualifiedName.buffer

/-- `ComputeQualifiedName`. -/
def computeQualifiedName (parent : ParentRef) (nameAlg : Option HashAlg) (name : Tpm2bName) : Tpm2bName :=
  let digest := nameAlg.elim [] fun h => K.hash h (getQualifiedName parent ++ name.buffer)
  .ofBytes (be 2 (hashSelector.algIdOrNull nameAlg) ++ digest)

end Names

section
variable {ρ : Type} (E : BlobEngine ρ)

def BlobEngine.cryptSecretEncrypt (key : Object) (label rand : Bytes) : Except Fault (Bytes × Bytes) :=
  PqcTpm.cryptSecretEncrypt E.kem E.secretEncrypt key.publicArea label rand

def BlobEngine.cryptSecretDecrypt (key : Object) (label secret : Bytes) : Except Fault Bytes :=
  PqcTpm.cryptSecretDecrypt E.kem E.secretDecrypt key label secret

/-! ## Loading -/

/-- `ObjectLoad` of an object with a sensitive area; the object that it fills in comes after. -/
def objectLoad (parent : Option Object) (wParent w : Stale) (blamePublic blameSensitive : Nat) (publicArea : TpmtPublic)
    (sensitive : TpmtSensitive) : Except Fault PrivateExponent := do
  match publicArea.nameAlg with
  | none => (schemeChecks none w publicArea).mapError (rcSafeAddToResult blamePublic)
  | some h =>
      if h.digestSize < sensitive.seedValue.size then .error (.at .keySize blameSensitive)
      else (publicAttributesValidation parent wParent publicArea).mapError (rcSafeAddToResult blamePublic)
  -- what a parent with `fixedTPM` has under it this TPM has made
  if parent.all fun p => !p.publicArea.objectAttributes.fixedTPM then
    cryptValidateKeys E.keys w blamePublic blameSensitive publicArea (some sensitive)
  if publicArea.type = .rsa then E.cryptRsaLoadPrivateExponent publicArea sensitive else .ok .zero

/-- The slot that `TPM2_Load` has filled in. -/
def loadedObject (parent : Object) (publicArea : TpmtPublic) (sensitive : TpmtSensitive) (exponent : PrivateExponent) : Object :=
  objectSetLoadedAttributes (computeQualifiedName E.crypto) (.object parent) parent.seedCompatLevel
    { attributes := {}
      publicArea
      sensitive
      privateExponent := exponent
      qualifiedName := .empty
      evictHandle := 0
      name := publicMarshalAndComputeName E.crypto publicArea
      seedCompatLevel := .original
      hierarchy := .null }

/-- `TPM2_Load`, once there is a slot. -/
def loadBlob (parent : Object) (wParent w : Stale) (inPrivate : Bytes) (inPublic : TpmtPublic) : Except Fault Object :=
  if inPrivate.isEmpty then .error (.at .size 0x140)
  else if parent.attributes.isParent = false then .error (.at .type 0x100)
  else
    let name := publicMarshalAndComputeName E.crypto inPublic
    if name.size = 0 then .error (.at .hash 0x240)
    else
      match privateToSensitive E.crypto parent wParent name inPrivate with
      | .error e => .error (rcSafeAddToResult 0x140 e)
      | .ok sensitive =>
          (objectLoad E (some parent) wParent w 0x240 0x140 inPublic sensitive).map (loadedObject E parent inPublic sensitive)

/-- `AdjustAuthSize`; without a name algorithm the authorization value may have the size of any digest. -/
def adjustAuthSize (auth : Tpm2bAuth) (nameAlg : Option HashAlg) : Option Tpm2bAuth :=
  let digestSize := nameAlg.elim 64 HashAlg.digestSize
  let auth := removeTrailingZeros auth
  if digestSize < auth.size then none else some (.ofBytes (auth.buffer ++ List.replicate (digestSize - auth.size) 0))

/-- Another authorization value for what has one. -/
def TpmtSensitive.withAuth (s : TpmtSensitive) (auth : Tpm2bAuth) : TpmtSensitive :=
  match s with
  | ⟨_, seedValue, some c, _⟩ => ⟨auth, seedValue, some c, nofun⟩
  | ⟨authValue, seedValue, none, h⟩ => ⟨authValue, seedValue, none, h⟩

/-- `TPM2_ObjectChangeAuth`. -/
def objectChangeAuth (object parent : Object) (w : Stale) (newAuth : Tpm2bAuth) : Except Fault Bytes :=
  if object.attributes.isSequence then .error (.at .type 0x100)
  else
    match adjustAuthSize newAuth object.publicArea.nameAlg with
    | none => .error (.at .size 0x140)
    | some auth =>
        if object.qualifiedName ≠ computeQualifiedName E.crypto (.object parent) object.publicArea.nameAlg object.name then
          .error (.at .type 0x200)
        else sensitiveToPrivate E.crypto parent w object.name object.publicArea.nameAlg (object.sensitive.withAuth auth)

/-! ## Duplication -/

/-- `ObjectIsStorage`. -/
def Object.isStorage (o : Object) : Bool :=
  o.publicArea.objectAttributes.restricted && o.publicArea.objectAttributes.decrypt && !o.publicArea.objectAttributes.sign &&
    (o.publicArea.type = .rsa || o.publicArea.type = .ecc)

structure Duplicated where
  encryptionKeyOut : Bytes
  duplicate : Bytes
  outSymSeed : Bytes

/-- Whether the key of the inner wrap has the size that its algorithm asks for, or is left to the TPM. -/
def innerKeyFits (symmetricAlg : TpmtSymDefObject) (key : Bytes) : Bool :=
  match symmetricAlg with
  | none => key.isEmpty
  | some d => key.isEmpty || key.length = (d.keyBits + 7) / 8

/-- `TPM2_Duplicate`; no new parent is `TPM_RH_NULL`. -/
def duplicate (object : Object) (newParent : Option Object) (w : Stale) (rand encryptionKeyIn : Bytes)
    (symmetricAlg : TpmtSymDefObject) : Except Fault Duplicated :=
  let x := object.publicArea.objectAttributes
  if x.fixedParent then .error (.at .attributes 0x100)
  else if object.publicArea.nameAlg.isNone then .error (.at .type 0x100)
  else if newParent.any fun p => !p.isStorage then .error (.at .type 0x200)
  else if x.encryptedDuplication && symmetricAlg.isNone then .error (.at .symmetric 0x240)
  else if x.encryptedDuplication && newParent.isNone then .error (.at .hierarchy 0x200)
  else if innerKeyFits symmetricAlg encryptionKeyIn = false then .error (.at .size 0x140)
  else do
    let (outSymSeed, data) ← newParent.elim (pure ([], [])) fun p => E.cryptSecretEncrypt p duplicateString rand
    let (duplicate, encryptionKeyOut) ← sensitiveToDuplicate E.crypto newParent w object.name object.publicArea.nameAlg data
      symmetricAlg encryptionKeyIn object.sensitive
    pure ⟨encryptionKeyOut, duplicate, outSymSeed⟩

/-- The first half of `TPM2_Rewrap`: the duplicate without its outer wrap. -/
def rewrapFrom (oldParent : Option Object) (w : Stale) (inDuplicate : Bytes) (name : Tpm2bName) (inSymSeed : Bytes) :
    Except Fault Bytes :=
  match oldParent with
  | none => .ok inDuplicate
  | some oldParent =>
      if !oldParent.isStorage then .error (.at .type 0x100)
      else
        match E.cryptSecretDecrypt oldParent duplicateString inSymSeed with
        | .error _ => .error (.at .value 0x340)
        | .ok data =>
            match oldParent.publicArea.nameAlg with
            | none => .error .failureMode
            | some h =>
                match unwrapOuter E.crypto oldParent w name h (some data) false inDuplicate with
                | .error e => .error (rcSafeAddToResult 0x140 e)
                | .ok buffer => .ok (buffer.drop (2 + h.digestSize))

/-- The second half: the duplicate in its new outer wrap, and the secret that goes with it. -/
def rewrapTo (newParent : Option Object) (w : Stale) (privateBlob : Bytes) (name : Tpm2bName) (rand : Bytes) :
    Except Fault (Bytes × Bytes) :=
  match newParent with
  | none => .ok (privateBlob, [])
  | some newParent =>
      if !newParent.isStorage then .error (.at .type 0x200)
      else
        match E.cryptSecretEncrypt newParent duplicateString rand with
        | .error e => .error e
        | .ok (outSymSeed, data) =>
            match newParent.publicArea.nameAlg with
            | none => .error .failureMode
            | some h =>
                if privateBufferSize < privateBlob.length + (2 + h.digestSize) then .error (.at .value 0x140)
                else .ok (produceOuterWrap E.crypto.wrap newParent w name h (some data) false privateBlob, outSymSeed)

/-- `TPM2_Rewrap`: the duplicate and its secret. -/
def rewrap (oldParent newParent : Option Object) (wOld wNew : Stale) (inDuplicate : Bytes) (name : Tpm2bName)
    (inSymSeed rand : Bytes) : Except Fault (Bytes × Bytes) :=
  if inSymSeed.isEmpty = oldParent.isSome then .error (.at .handle 0x100)
  else do
    let privateBlob ← rewrapFrom E oldParent wOld inDuplicate name inSymSeed
    rewrapTo E newParent wNew privateBlob name rand

/-- What `TPM2_Import` asks of the key of the inner wrap. -/
def importKeyChecks (publicArea : TpmtPublic) (encryptionKey : Bytes) (symmetricAlg : TpmtSymDefObject) : Except Fault Unit :=
  match symmetricAlg with
  | some d => if encryptionKey.length ≠ (d.keyBits + 7) / 8 then .error (.at .size 0x140) else .ok ()
  | none =>
      if !encryptionKey.isEmpty then .error (.at .size 0x140)
      else if publicArea.objectAttributes.encryptedDuplication then .error (.at .attributes 0x140)
      else .ok ()

/-- The seed of the outer wrap, if there is one. -/
def importSeed (parentObject : Object) (publicArea : TpmtPublic) (inSymSeed : Bytes) : Except Fault Bytes :=
  if inSymSeed.isEmpty then
    if publicArea.objectAttributes.encryptedDuplication then .error (.at .attributes 0x440) else .ok []
  else if parentObject.publicArea.type = .symcipher then .error (.at .type 0x100)
  else
    (E.cryptSecretDecrypt parentObject duplicateString inSymSeed).mapError fun e =>
      if e = .of .binding then .failureMode else rcSafeAddToResult 0x440 e

/-- `TPM2_Import`. -/
def importObject (parentObject : Object) (wParent w : Stale) (encryptionKey : Bytes) (objectPublic : TpmtPublic)
    (duplicate inSymSeed : Bytes) (symmetricAlg : TpmtSymDefObject) : Except Fault Bytes :=
  let attributes := objectPublic.objectAttributes
  if attributes.fixedTPM || attributes.fixedParent then .error (.at .attributes 0x240)
  else if parentObject.attributes.isParent = false then .error (.at .type 0x100)
  else do
    importKeyChecks objectPublic encryptionKey symmetricAlg
    let data ← importSeed E parentObject objectPublic inSymSeed
    let name := publicMarshalAndComputeName E.crypto objectPublic
    if name.size = 0 then .error (.at .hash 0x240)
    else
      let sensitive ← (duplicateToSensitive E.crypto parentObject wParent name objectPublic.nameAlg data symmetricAlg
        encryptionKey duplicate).mapError (rcSafeAddToResult 0x340)
      -- under a parent with `fixedTPM` the object is not checked again when it is loaded
      let _ ← if parentObject.publicArea.objectAttributes.fixedTPM then
        objectLoad E none {} w 0x240 0x340 objectPublic sensitive else .ok .zero
      sensitiveToPrivate E.crypto parentObject wParent name objectPublic.nameAlg sensitive

/-! ## Credentials -/

/-- Asymmetric restricted decryption keys. -/
def TpmtPublic.protectsCredentials (a : TpmtPublic) : Bool :=
  !a.type.isSymmetric && a.objectAttributes.decrypt && a.objectAttributes.restricted

/-- `TPM2_MakeCredential`: the credential and its secret. -/
def makeCredential (key : Object) (w : Stale) (rand : Bytes) (credential : Tpm2bDigest) (objectName : Tpm2bName) :
    Except Fault (Bytes × Bytes) :=
  if key.publicArea.protectsCredentials = false then .error (.at .type 0x100)
  else if digestSizeOf key.publicArea.nameAlg < credential.size then .error (.at .size 0x140)
  else do
    let (secret, data) ← E.cryptSecretEncrypt key identityString rand
    let credentialBlob ← secretToCredential E.crypto key w objectName data credential
    pure (credentialBlob, secret)

/-- `TPM2_ActivateCredential`. -/
def activateCredential (activateObject key : Object) (w : Stale) (credentialBlob secret : Bytes) : Except Fault Tpm2bDigest :=
  if key.publicArea.protectsCredentials = false then .error (.at .type 0x200)
  else
    match E.cryptSecretDecrypt key identityString secret with
    | .error e => .error (if e = .of .key then .of .failure else rcSafeAddToResult 0x240 e)
    | .ok data =>
        (credentialToSecret E.crypto key w activateObject.name data credentialBlob).mapError (rcSafeAddToResult 0x140)

end

/-! ## Private areas -/

section Private
variable {ρ : Type} {E : BlobEngine ρ}

theorem produceOuterWrap_ne_nil (C : WrapCrypto) (protector : Object) (w : Stale) (name : Tpm2bName) (hashAlg : HashAlg)
    (seed : Option Bytes) (useIV : Bool) (data : Bytes) : produceOuterWrap C protector w name hashAlg seed useIV data ≠ [] := by
  intro hnil
  have hlength := congrArg List.length hnil
  unfold produceOuterWrap at hlength
  dsimp only at hlength
  rw [List.length_append, be_length, List.length_nil] at hlength
  omega

theorem sensitiveToPrivate_ne_nil {K : BlobCrypto} {parent : Object} {w : Stale} {name : Tpm2bName} {nameAlg : Option HashAlg}
    {s : TpmtSensitive} {outPrivate : Bytes} (h : sensitiveToPrivate K parent w name nameAlg s = .ok outPrivate) :
    name.size ≠ 0 ∧ outPrivate ≠ [] := by
  unfold sensitiveToPrivate at h
  split at h
  · cases h
  · rename_i hname
    refine ⟨hname, ?_⟩
    split at h
    · cases h
    · cases hdata : marshalSensitive nameAlg s with
      | error e =>
          rw [hdata] at h
          cases h
      | ok data =>
          rw [hdata] at h
          obtain rfl := Except.ok.inj h
          exact produceOuterWrap_ne_nil _ _ _ _ _ _ _ _

/-- What a parent has wrapped it loads, as far as `ObjectLoad` has nothing against it. -/
theorem loadBlob_sensitiveToPrivate (hK : E.crypto.Lawful) {parent parent' : Object}
    (hpublic : parent'.publicArea = parent.publicArea) (hseed : parent'.sensitive.seedValue = parent.sensitive.seedValue)
    (hparent : parent'.attributes.isParent = true) {w : Stale} {a : TpmtPublic} {s : TpmtSensitive} {outPrivate : Bytes}
    (h : sensitiveToPrivate E.crypto parent w (publicMarshalAndComputeName E.crypto a) a.nameAlg s = .ok outPrivate)
    (wParent wObject : Stale) :
    loadBlob E parent' wParent wObject outPrivate a =
      (objectLoad E (some parent') wParent wObject 0x240 0x140 a (s.padded (digestSizeOf a.nameAlg))).map
        (loadedObject E parent' a (s.padded (digestSizeOf a.nameAlg))) := by
  obtain ⟨hname, hne⟩ := sensitiveToPrivate_ne_nil h
  unfold loadBlob
  rw [if_neg fun hempty => hne (List.isEmpty_iff.mp hempty), if_neg (by rw [hparent]; decide)]
  dsimp only
  rw [if_neg hname, privateToSensitive_sensitiveToPrivate hK hpublic hseed w wParent _ _ _ h]

theorem adjustAuthSize_size {auth auth' : Tpm2bAuth} {h : HashAlg} (hadjust : adjustAuthSize auth (some h) = some auth') :
    auth'.size = h.digestSize := by
  unfold adjustAuthSize at hadjust
  dsimp only at hadjust
  split at hadjust
  · cases hadjust
  · rename_i hfits
    obtain rfl := Option.some.inj hadjust
    change (List.take 64 (_ ++ _)).length = _
    change ¬ h.digestSize < _ at hfits
    rw [List.length_take, List.length_append, List.length_replicate]
    have hle : h.digestSize ≤ 64 := digestSizeOf_le (some h)
    change min 64 ((removeTrailingZeros auth).size + (h.digestSize - (removeTrailingZeros auth).size)) = h.digestSize
    omega

theorem padded_withAuth (s : TpmtSensitive) {auth : Tpm2bAuth} {size : Nat} (h : auth.size = size) :
    (s.withAuth auth).padded size = s.withAuth auth := by
  obtain ⟨authValue, seedValue, c, hpub⟩ := s
  cases c with
  | none => rfl
  | some c =>
      have hsame : Tpm2b.ofBytes (auth.buffer ++ List.replicate (size - auth.size) 0) = auth := by
        rw [h, Nat.sub_self, List.replicate_zero, List.append_nil, Tpm2b.ofBytes_buffer]
      unfold TpmtSensitive.withAuth TpmtSensitive.padded
      dsimp only
      congr 1

/-- The private area that `TPM2_ObjectChangeAuth` answers with is loaded as the object with the new authorization value,
padded with zeros, and everything else as it was. -/
theorem objectChangeAuth_loads (hK : E.crypto.Lawful) {object parent parent' : Object} {w : Stale} {newAuth : Tpm2bAuth}
    {outPrivate : Bytes} (h : objectChangeAuth E object parent w newAuth = .ok outPrivate)
    (hname : object.name = publicMarshalAndComputeName E.crypto object.publicArea)
    (hpublic : parent'.publicArea = parent.publicArea) (hseed : parent'.sensitive.seedValue = parent.sensitive.seedValue)
    (hparent : parent'.attributes.isParent = true) :
    ∃ auth, adjustAuthSize newAuth object.publicArea.nameAlg = some auth ∧
      ∀ wParent wObject, loadBlob E parent' wParent wObject outPrivate object.publicArea =
        (objectLoad E (some parent') wParent wObject 0x240 0x140 object.publicArea (object.sensitive.withAuth auth)).map
          (loadedObject E parent' object.publicArea (object.sensitive.withAuth auth)) := by
  unfold objectChangeAuth at h
  split at h
  · cases h
  · split at h
    · cases h
    · rename_i auth hauth
      split at h
      · cases h
      · refine ⟨auth, hauth, fun wParent wObject => ?_⟩
        rw [hname] at h
        have hload := loadBlob_sensitiveToPrivate hK hpublic hseed hparent h wParent wObject
        have hpadded : (object.sensitive.withAuth auth).padded (digestSizeOf object.publicArea.nameAlg) =
            object.sensitive.withAuth auth := by
          cases halg : object.publicArea.nameAlg with
          | none =>
              have hempty : publicMarshalAndComputeName E.crypto object.publicArea = .empty := by
                unfold publicMarshalAndComputeName
                rw [halg]
              exact absurd (congrArg Tpm2b.size hempty) (sensitiveToPrivate_ne_nil h).1
          | some alg =>
              rw [halg] at hauth
              exact padded_withAuth _ (adjustAuthSize_size hauth)
        rw [hpadded] at hload
        exact hload

end Private

/-! ## From one TPM to another -/

section Transfer
variable {ρ : Type} {E : BlobEngine ρ}

/-- A secret that is made for an RSA or ECC key has octets, and its seed has the size of the digests of the name algorithm. -/
structure BlobEngine.Lawful (E : BlobEngine ρ) : Prop where
  crypto : E.crypto.Lawful
  secret : ∀ a label rand secret seed, E.secretEncrypt a label rand = .ok (secret, seed) →
    secret ≠ [] ∧ seed.length = digestSizeOf a.nameAlg

/-- A key as its owner has it and as others have it: what they encrypt, the owner decrypts. -/
structure KeyHolder (E : BlobEngine ρ) (label : Bytes) where
  sender : Object
  owner : Object
  publicArea : owner.publicArea = sender.publicArea
  nameAlg : sender.publicArea.nameAlg.isSome = true
  agrees : ∀ rand secret seed, E.cryptSecretEncrypt sender label rand = .ok (secret, seed) →
    E.cryptSecretDecrypt owner label secret = .ok seed

/-- A rewrap: the key that the duplicate is for afterwards. -/
structure Hop (E : BlobEngine ρ) where
  next : Option (KeyHolder E duplicateString)
  wOld : Stale
  wNew : Stale
  rand : Bytes

/-- `TPM2_Rewrap` by the owner of every key on the way; a duplicate goes with its secret. -/
def sendOn (E : BlobEngine ρ) (name : Tpm2bName) (holder : Option (KeyHolder E duplicateString)) (blob : Bytes × Bytes) :
    List (Hop E) → Except Fault (Option (KeyHolder E duplicateString) × Bytes × Bytes)
  | [] => .ok (holder, blob)
  | hop :: hops =>
      match rewrap E (holder.map KeyHolder.owner) (hop.next.map KeyHolder.sender) hop.wOld hop.wNew blob.1 name blob.2 hop.rand with
      | .error e => .error e
      | .ok blob => sendOn E name hop.next blob hops

/-- On its way a duplicate has no outer wrap, or one that the owner of the key can take off. -/
inductive InTransit (E : BlobEngine ρ) (name : Tpm2bName) (payload : Bytes) :
    Option (KeyHolder E duplicateString) → Bytes × Bytes → Prop
  | clear : InTransit E name payload none (payload, [])
  | wrapped (k : KeyHolder E duplicateString) (duplicate secret seed : Bytes) (hstorage : k.owner.isStorage = true)
      (hsecret : secret ≠ []) (hseed : seed ≠ []) (hdecrypt : E.cryptSecretDecrypt k.owner duplicateString secret = .ok seed)
      (hunwrap : ∀ w, outerUnwrap E.crypto k.owner w name seed duplicate = .ok payload) :
      InTransit E name payload (some k) (duplicate, secret)

theorem KeyHolder.isStorage_eq {label : Bytes} (k : KeyHolder E label) : k.owner.isStorage = k.sender.isStorage := by
  unfold Object.isStorage
  rw [k.publicArea]

theorem isStorage_type {o : Object} (h : o.isStorage = true) : o.publicArea.type = .rsa ∨ o.publicArea.type = .ecc := by
  unfold Object.isStorage at h
  rw [Bool.and_eq_true, Bool.or_eq_true, decide_eq_true_eq, decide_eq_true_eq] at h
  exact h.2

theorem BlobEngine.Lawful.secret_storage (hE : E.Lawful) {key : Object} (hstorage : key.isStorage = true) {label rand secret seed : Bytes}
    (h : E.cryptSecretEncrypt key label rand = .ok (secret, seed)) :
    secret ≠ [] ∧ seed.length = digestSizeOf key.publicArea.nameAlg := by
  have htype : key.publicArea.type ≠ .mlkem := by
    rcases isStorage_type hstorage with htype | htype <;> rw [htype] <;> decide
  unfold BlobEngine.cryptSecretEncrypt PqcTpm.cryptSecretEncrypt at h
  split at h
  · cases h
  · split at h
    · cases h
    · exact hE.secret _ _ _ _ _ h

theorem InTransit.wrap (hE : E.Lawful) {k : KeyHolder E duplicateString} {rand secret seed : Bytes} {outerHash : HashAlg}
    (hstorage : k.sender.isStorage = true) (hsecret : E.cryptSecretEncrypt k.sender duplicateString rand = .ok (secret, seed))
    (hhash : k.sender.publicArea.nameAlg = some outerHash) (w : Stale) (name : Tpm2bName) (payload : Bytes) :
    InTransit E name payload (some k)
      (produceOuterWrap E.crypto.wrap k.sender w name outerHash (some seed) false payload, secret) := by
  obtain ⟨hoctets, hlength⟩ := hE.secret_storage hstorage hsecret
  have hseed : seed ≠ [] := by
    intro hnil
    rw [hnil, hhash] at hlength
    change 0 = outerHash.digestSize at hlength
    cases outerHash <;> cases hlength
  exact .wrapped k _ _ seed (k.isStorage_eq.trans hstorage) hoctets hseed (k.agrees _ _ _ hsecret)
    fun w' => outerUnwrap_produceOuterWrap hE.crypto k.publicArea hhash hseed w w' name payload

theorem unwrapOuter_of_outerUnwrap {K : BlobCrypto} {key : Object} {w : Stale} {name : Tpm2bName} {seed duplicate payload : Bytes}
    (hseed : seed ≠ []) (h : outerUnwrap K key w name seed duplicate = .ok payload) :
    ∃ outerHash buffer, key.publicArea.nameAlg = some outerHash ∧
      unwrapOuter K key w name outerHash (some seed) false duplicate = .ok buffer ∧
      buffer.drop (2 + outerHash.digestSize) = payload := by
  unfold outerUnwrap at h
  rw [if_neg fun hempty => hseed (List.isEmpty_iff.mp hempty)] at h
  split at h
  · cases h
  · rename_i outerHash hhash
    cases hunwrap : unwrapOuter K key w name outerHash (some seed) false duplicate with
    | error e =>
        rw [hunwrap] at h
        cases h
    | ok buffer =>
        rw [hunwrap] at h
        exact ⟨outerHash, buffer, hhash, hunwrap, Except.ok.inj h⟩

theorem InTransit.rewrapFrom {name : Tpm2bName} {payload : Bytes} {holder : Option (KeyHolder E duplicateString)}
    {blob : Bytes × Bytes} (h : InTransit E name payload holder blob) (w : Stale) :
    blob.2.isEmpty = holder.isNone ∧ rewrapFrom E (holder.map KeyHolder.owner) w blob.1 name blob.2 = .ok payload := by
  cases h with
  | clear => exact ⟨rfl, rfl⟩
  | wrapped k duplicate secret seed hstorage hsecret hseed hdecrypt hunwrap =>
      refine ⟨List.isEmpty_eq_false_iff.mpr hsecret, ?_⟩
      obtain ⟨outerHash, buffer, hhash, houter, hpayload⟩ := unwrapOuter_of_outerUnwrap hseed (hunwrap w)
      change (if !k.owner.isStorage then _ else _) = _
      rw [if_neg (by rw [hstorage]; decide), hdecrypt]
      dsimp only
      rw [hhash]
      dsimp only
      rw [houter]
      exact congrArg Except.ok hpayload

theorem rewrapTo_inTransit (hE : E.Lawful) {next : Option (KeyHolder E duplicateString)} {w : Stale} {payload rand : Bytes}
    {name : Tpm2bName} {blob : Bytes × Bytes} (h : rewrapTo E (next.map KeyHolder.sender) w payload name rand = .ok blob) :
    InTransit E name payload next blob := by
  cases next with
  | none =>
      obtain rfl := Except.ok.inj h
      exact .clear
  | some k =>
      change (if !k.sender.isStorage then _ else _) = _ at h
      split at h
      · cases h
      · rename_i hstorage
        cases hsecret : E.cryptSecretEncrypt k.sender duplicateString rand with
        | error e =>
            rw [hsecret] at h
            cases h
        | ok out =>
            obtain ⟨outSymSeed, data⟩ := out
            rw [hsecret] at h
            dsimp only at h
            cases hhash : k.sender.publicArea.nameAlg with
            | none =>
                rw [hhash] at h
                cases h
            | some outerHash =>
                rw [hhash] at h
                dsimp only at h
                split at h
                · cases h
                · obtain rfl := Except.ok.inj h
                  refine .wrap hE ?_ hsecret hhash w name payload
                  rw [← Bool.not_eq_false]
                  exact fun hfalse => hstorage (by rw [hfalse]; rfl)

theorem InTransit.rewrap (hE : E.Lawful) {name : Tpm2bName} {payload : Bytes} {holder next : Option (KeyHolder E duplicateString)}
    {blob blob' : Bytes × Bytes} (h : InTransit E name payload holder blob) {wOld wNew : Stale} {rand : Bytes}
    (hrewrap : PqcTpm.rewrap E (holder.map KeyHolder.owner) (next.map KeyHolder.sender) wOld wNew blob.1 name blob.2 rand =
      .ok blob') : InTransit E name payload next blob' := by
  obtain ⟨hempty, hfrom⟩ := h.rewrapFrom wOld
  unfold PqcTpm.rewrap at hrewrap
  split at hrewrap
  · cases hrewrap
  · rw [hfrom] at hrewrap
    exact rewrapTo_inTransit hE hrewrap

theorem InTransit.sendOn (hE : E.Lawful) {name : Tpm2bName} {payload : Bytes} {holder last : Option (KeyHolder E duplicateString)}
    {blob blob' : Bytes × Bytes} {hops : List (Hop E)} (h : InTransit E name payload holder blob)
    (hsend : PqcTpm.sendOn E name holder blob hops = .ok (last, blob')) : InTransit E name payload last blob' := by
  induction hops generalizing holder blob with
  | nil =>
      obtain ⟨rfl, rfl⟩ := Prod.mk.inj (Except.ok.inj hsend)
      exact h
  | cons hop hops ih =>
      unfold PqcTpm.sendOn at hsend
      split at hsend
      · cases hsend
      · rename_i next hnext
        exact ih (h.rewrap hE hnext) hsend

theorem check_passed {α : Type} {p : Prop} [Decidable p] {e : Fault} {x : Except Fault α} {a : α}
    (h : (if p then .error e else x) = .ok a) : ¬ p ∧ x = .ok a := by
  split at h
  · cases h
  · exact ⟨‹_›, h⟩

/-- The checks of `TPM2_Duplicate`. -/
structure DuplicateChecks (object : Object) (newParent : Option Object) (encryptionKeyIn : Bytes)
    (symmetricAlg : TpmtSymDefObject) : Prop where
  fixedParent : object.publicArea.objectAttributes.fixedParent = false
  storage : ∀ p, newParent = some p → p.isStorage = true
  inner : object.publicArea.objectAttributes.encryptedDuplication = true → symmetricAlg ≠ none
  outer : object.publicArea.objectAttributes.encryptedDuplication = true → newParent ≠ none
  innerKey : innerKeyFits symmetricAlg encryptionKeyIn = true

theorem duplicate_eq_ok {object : Object} {newParent : Option Object} {w : Stale} {rand encryptionKeyIn : Bytes}
    {symmetricAlg : TpmtSymDefObject} {out : Duplicated}
    (h : duplicate E object newParent w rand encryptionKeyIn symmetricAlg = .ok out) :
    DuplicateChecks object newParent encryptionKeyIn symmetricAlg ∧ ∃ data,
      newParent.elim (pure ([], [])) (fun p => E.cryptSecretEncrypt p duplicateString rand) = .ok (out.outSymSeed, data) ∧
      sensitiveToDuplicate E.crypto newParent w object.name object.publicArea.nameAlg data symmetricAlg encryptionKeyIn
        object.sensitive = .ok (out.duplicate, out.encryptionKeyOut) := by
  obtain ⟨hfixed, h⟩ := check_passed h
  obtain ⟨-, h⟩ := check_passed h
  obtain ⟨hstorage, h⟩ := check_passed h
  obtain ⟨hinner, h⟩ := check_passed h
  obtain ⟨houter, h⟩ := check_passed h
  obtain ⟨hkey, h⟩ := check_passed h
  obtain ⟨secret, hsecret, h⟩ := Transition.bind_eq_ok h
  obtain ⟨blob, hblob, h⟩ := Transition.bind_eq_ok h
  obtain rfl := Except.ok.inj h
  refine ⟨⟨Bool.eq_false_iff.mpr hfixed, ?_, ?_, ?_, Bool.eq_true_of_not_eq_false hkey⟩, secret.2, hsecret, hblob⟩
  · rintro p rfl
    cases hp : p.isStorage with
    | true => rfl
    | false => exact absurd (congrArg not hp) hstorage
  · rintro hencrypted rfl
    exact hinner (by rw [hencrypted]; rfl)
  · rintro hencrypted rfl
    exact houter (by rw [hencrypted]; rfl)

/-- What `TPM2_Duplicate` gives out is on its way, with the sensitive area in it under the key of the inner wrap. -/
theorem duplicate_inTransit (hE : E.Lawful) {object : Object} {first : Option (KeyHolder E duplicateString)} {w : Stale}
    {rand encryptionKeyIn : Bytes} {symmetricAlg : TpmtSymDefObject} {out : Duplicated}
    (h : duplicate E object (first.map KeyHolder.sender) w rand encryptionKeyIn symmetricAlg = .ok out) :
    ∃ payload, InTransit E object.name payload first (out.duplicate, out.outSymSeed) ∧
      innerToSensitive E.crypto object.name object.publicArea.nameAlg symmetricAlg
        (innerKey encryptionKeyIn out.encryptionKeyOut) payload =
          .ok (object.sensitive.padded (digestSizeOf object.publicArea.nameAlg)) := by
  obtain ⟨hchecks, data, hsecret, hblob⟩ := duplicate_eq_ok h
  obtain ⟨marshaled, payload, hmarshaled, hinner, houter⟩ := sensitiveToDuplicate_eq_ok hblob
  refine ⟨payload, ?_, innerToSensitive_innerWrap hE.crypto hmarshaled hinner⟩
  cases first with
  | none =>
      obtain ⟨hnone, hdata⟩ := Prod.mk.inj (Except.ok.inj hsecret)
      rcases houter with ⟨-, hduplicate⟩ | ⟨hseed, -⟩
      · rw [hduplicate, ← hnone]
        exact .clear
      · exact absurd hdata.symm hseed
  | some k =>
      have hstorage := hchecks.storage k.sender rfl
      rcases houter with ⟨hseed, -⟩ | ⟨-, key, outerHash, hkey, hhash, hduplicate⟩
      · -- a storage key with a name algorithm has a seed with octets
        have hlength := (hE.secret_storage hstorage hsecret).2
        obtain ⟨outerHash, hhash⟩ := Option.isSome_iff_exists.mp k.nameAlg
        rw [hseed, hhash] at hlength
        change 0 = outerHash.digestSize at hlength
        cases outerHash <;> cases hlength
      · obtain rfl := Option.some.inj hkey
        rw [hduplicate]
        exact .wrap hE hstorage hsecret hhash w object.name payload

/-- The key of the inner wrap passes the checks of `TPM2_Import`. -/
theorem importKeyChecks_innerKey (hK : E.crypto.Lawful) {object : Object} {newParent : Option Object} {w : Stale}
    {rand encryptionKeyIn : Bytes} {symmetricAlg : TpmtSymDefObject} {out : Duplicated}
    (h : duplicate E object newParent w rand encryptionKeyIn symmetricAlg = .ok out) :
    importKeyChecks object.publicArea (innerKey encryptionKeyIn out.encryptionKeyOut) symmetricAlg = .ok () := by
  obtain ⟨hchecks, data, -, hblob⟩ := duplicate_eq_ok h
  obtain ⟨marshaled, payload, -, hinner, -⟩ := sensitiveToDuplicate_eq_ok hblob
  have hfits := hchecks.innerKey
  unfold importKeyChecks innerKey
  unfold innerKeyFits at hfits
  cases symmetricAlg with
  | none =>
      dsimp only at hfits ⊢
      obtain ⟨-, hkey⟩ := Prod.mk.inj (Except.ok.inj hinner)
      rw [if_pos hfits, ← hkey, hfits]
      exact if_neg fun hencrypted => hchecks.inner hencrypted rfl
  | some d =>
      dsimp only at hfits ⊢
      refine if_neg (not_not_intro ?_)
      unfold innerWrap at hinner
      dsimp only at hinner
      by_cases hempty : encryptionKeyIn.isEmpty = true
      · rw [if_pos hempty] at hinner ⊢
        obtain ⟨-, hkey⟩ := Prod.mk.inj (Except.ok.inj hinner)
        rw [← hkey]
        exact hK.random_length _
      · rw [if_neg hempty]
        rw [Bool.eq_false_iff.mpr hempty, Bool.false_or, decide_eq_true_eq] at hfits
        exact hfits

theorem InTransit.import {name : Tpm2bName} {payload : Bytes} {last : Option (KeyHolder E duplicateString)} {blob : Bytes × Bytes}
    (h : InTransit E name payload last blob) {parent : Object} (howner : ∀ k, last = some k → parent = k.owner) {a : TpmtPublic}
    (hclear : a.objectAttributes.encryptedDuplication = true → last ≠ none) (w : Stale) :
    ∃ seed, importSeed E parent a blob.2 = .ok seed ∧ outerUnwrap E.crypto parent w name seed blob.1 = .ok payload := by
  cases h with
  | clear =>
      refine ⟨[], ?_, rfl⟩
      exact if_neg fun hencrypted => hclear hencrypted rfl
  | wrapped k duplicate secret seed hstorage hsecret hseed hdecrypt hunwrap =>
      obtain rfl := howner k rfl
      refine ⟨seed, ?_, hunwrap w⟩
      have htype : k.owner.publicArea.type ≠ .symcipher := by
        rcases isStorage_type hstorage with htype | htype <;> rw [htype] <;> decide
      unfold importSeed
      rw [if_neg fun hempty => hsecret (List.isEmpty_iff.mp hempty), if_neg htype, hdecrypt]
      rfl

theorem padded_authValue (size : Nat) {s : TpmtSensitive} (hsome : s.sensitive.isSome = true) :
    (s.padded size).authValue = .ofBytes (s.authValue.buffer ++ List.replicate (size - s.authValue.size) 0) := by
  obtain ⟨authValue, seedValue, c, hpub⟩ := s
  cases c with
  | none => cases hsome
  | some c => rfl

theorem marshalSensitive_eq_ok {nameAlg : Option HashAlg} {s : TpmtSensitive} {data : Bytes}
    (h : marshalSensitive nameAlg s = .ok data) :
    s.authValue.size ≤ digestSizeOf nameAlg ∧ s.sensitive.isSome = true := by
  obtain ⟨hfits, h⟩ := check_passed h
  refine ⟨Nat.le_of_not_lt hfits, ?_⟩
  rw [← TpmtSensitive.padded_isSome (digestSizeOf nameAlg)]
  cases hsensitive : (s.padded (digestSizeOf nameAlg)).sensitive with
  | some c => rfl
  | none =>
      unfold TpmtSensitive.marshalWire at h
      rw [hsensitive] at h
      cases h

/-- What is padded is not padded again, and can be written. -/
theorem padded_padded {nameAlg : Option HashAlg} {s : TpmtSensitive} {data : Bytes} (h : marshalSensitive nameAlg s = .ok data) :
    (s.padded (digestSizeOf nameAlg)).padded (digestSizeOf nameAlg) = s.padded (digestSizeOf nameAlg) ∧
      marshalSensitive nameAlg (s.padded (digestSizeOf nameAlg)) = .ok data := by
  obtain ⟨hfits, hsome⟩ := marshalSensitive_eq_ok h
  have hsize : (s.padded (digestSizeOf nameAlg)).authValue.size = digestSizeOf nameAlg := by
    have hle := digestSizeOf_le nameAlg
    rw [padded_authValue _ hsome]
    change (List.take 64 _).length = _
    change s.authValue.size ≤ _ at hfits
    rw [List.length_take, List.length_append, List.length_replicate]
    change min 64 (s.authValue.size + (digestSizeOf nameAlg - s.authValue.size)) = digestSizeOf nameAlg
    omega
  have hsame : (s.padded (digestSizeOf nameAlg)).padded (digestSizeOf nameAlg) = s.padded (digestSizeOf nameAlg) := by
    obtain ⟨authValue, seedValue, c, hpub⟩ := s
    cases c with
    | none => rfl
    | some c => exact padded_withAuth ⟨authValue, seedValue, some c, hpub⟩ hsize
  refine ⟨hsame, ?_⟩
  unfold marshalSensitive at h ⊢
  rw [hsame, if_neg (by rw [hsize]; exact Nat.lt_irrefl _)]
  exact (check_passed h).2

/-- An object that is duplicated, sent on over any number of rewraps and imported is loaded as it was, with its authorization
value padded: the import answers unless `ObjectLoad` refuses the object, and what it answers with the parent loads unless
`ObjectLoad` refuses it there. With `encryptedDuplication` the last rewrap has to be to a key. -/
theorem transfer_loads (hE : E.Lawful) {object : Object} {first last : Option (KeyHolder E duplicateString)} {w : Stale}
    {rand encryptionKeyIn : Bytes} {symmetricAlg : TpmtSymDefObject} {out : Duplicated} {hops : List (Hop E)} {blob : Bytes × Bytes}
    (hname : object.name = publicMarshalAndComputeName E.crypto object.publicArea)
    (hfixed : object.publicArea.objectAttributes.fixedTPM = false)
    (hduplicate : duplicate E object (first.map KeyHolder.sender) w rand encryptionKeyIn symmetricAlg = .ok out)
    (hsend : sendOn E object.name first (out.duplicate, out.outSymSeed) hops = .ok (last, blob)) {parent : Object}
    (hparent : parent.attributes.isParent = true) (halg : parent.publicArea.nameAlg.isSome = true)
    (howner : ∀ k, last = some k → parent = k.owner)
    (hclear : object.publicArea.objectAttributes.encryptedDuplication = true → last ≠ none) (wParent wObject : Stale) :
    ∃ outPrivate,
      importObject E parent wParent wObject (innerKey encryptionKeyIn out.encryptionKeyOut) object.publicArea blob.1 blob.2
          symmetricAlg =
        (if parent.publicArea.objectAttributes.fixedTPM then
          (objectLoad E none {} wObject 0x240 0x340 object.publicArea
            (object.sensitive.padded (digestSizeOf object.publicArea.nameAlg))).map fun _ => outPrivate
        else .ok outPrivate) ∧
      ∀ wParent' wObject', loadBlob E parent wParent' wObject' outPrivate object.publicArea =
        (objectLoad E (some parent) wParent' wObject' 0x240 0x140 object.publicArea
            (object.sensitive.padded (digestSizeOf object.publicArea.nameAlg))).map
          (loadedObject E parent object.publicArea (object.sensitive.padded (digestSizeOf object.publicArea.nameAlg))) := by
  obtain ⟨payload, hstart, hinner⟩ := duplicate_inTransit hE hduplicate
  obtain ⟨seed, hseed, houter⟩ := (hstart.sendOn hE hsend).import howner hclear wParent
  obtain ⟨hchecks, data, -, hblob⟩ := duplicate_eq_ok hduplicate
  obtain ⟨marshaled, payload', hmarshaled, -, -⟩ := sensitiveToDuplicate_eq_ok hblob
  obtain ⟨hsame, hagain⟩ := padded_padded hmarshaled
  obtain ⟨hashAlg, hhash⟩ := Option.isSome_iff_exists.mp halg
  have hsize : object.name.size ≠ 0 := sensitiveToDuplicate_name hblob
  rw [hname] at hsize houter hinner
  obtain ⟨outPrivate, hprivate⟩ : ∃ outPrivate, sensitiveToPrivate E.crypto parent wParent
      (publicMarshalAndComputeName E.crypto object.publicArea) object.publicArea.nameAlg
      (object.sensitive.padded (digestSizeOf object.publicArea.nameAlg)) = .ok outPrivate := by
    unfold sensitiveToPrivate
    rw [if_neg hsize, hhash]
    dsimp only
    rw [hagain]
    exact ⟨_, rfl⟩
  refine ⟨outPrivate, ?_, fun wParent' wObject' => ?_⟩
  · have hsensitive : duplicateToSensitive E.crypto parent wParent (publicMarshalAndComputeName E.crypto object.publicArea)
        object.publicArea.nameAlg seed symmetricAlg (innerKey encryptionKeyIn out.encryptionKeyOut) blob.1 =
        .ok (object.sensitive.padded (digestSizeOf object.publicArea.nameAlg)) := by
      unfold duplicateToSensitive
      rw [if_neg hsize, houter]
      exact hinner
    unfold importObject
    dsimp only
    rw [hfixed, hchecks.fixedParent, hparent, if_neg (by decide), if_neg (by decide),
      importKeyChecks_innerKey hE.crypto hduplicate, hseed]
    change (if _ then _ else _) = _
    rw [if_neg hsize, hsensitive]
    by_cases hvalidated : parent.publicArea.objectAttributes.fixedTPM = true
    · simp only [if_pos hvalidated]
      cases hload : objectLoad E none {} wObject 0x240 0x340 object.publicArea
        (object.sensitive.padded (digestSizeOf object.publicArea.nameAlg)) with
      | error e =>
          change objectLoad E none {} wObject 0x240 0x340 object.publicArea _ >>= _ = _
          rw [hload]
          rfl
      | ok exponent =>
          change objectLoad E none {} wObject 0x240 0x340 object.publicArea _ >>= _ = _
          rw [hload]
          exact hprivate
    · simp only [if_neg hvalidated]
      exact hprivate
  · have hload := loadBlob_sensitiveToPrivate hE.crypto rfl rfl hparent hprivate wParent' wObject'
    rw [hsame] at hload
    exact hload

/-- What an ML-KEM key encapsulates it decapsulates, so the owner of the key has the seeds of all secrets made for it. -/
theorem mlkem_agrees {publicKey : MlkemParameterSet → Bytes → Bytes} (hcorrect : E.kem.Correct publicKey) {sender owner : Object}
    (hpublic : owner.publicArea = sender.publicArea) (htype : sender.publicArea.type = .mlkem) {set : MlkemParameterSet}
    (hset : sender.publicArea.mlkemParameterSet? = some set)
    (hpair : sender.publicArea.mlkemUnique = publicKey set owner.sensitive.mlkemSeed)
    (hseed : E.kem.pkeyFromSeed set owner.sensitive.mlkemSeed = true) {label rand secret seed : Bytes}
    (h : E.cryptSecretEncrypt sender label rand = .ok (secret, seed)) : E.cryptSecretDecrypt owner label secret = .ok seed := by
  obtain ⟨hlabel, h⟩ := check_passed h
  obtain ⟨-, h⟩ := check_passed h
  rw [if_pos htype] at h
  obtain ⟨⟨ct, ss⟩, hencap, hblob⟩ := Transition.bind_eq_ok h
  obtain ⟨rfl, rfl⟩ := Prod.mk.inj (Except.ok.inj hblob)
  have hdecap : cryptMlKemDecapsulate E.kem ct owner = .ok ss := by
    unfold cryptMlKemEncapsulate at hencap
    rw [hset] at hencap
    dsimp only at hencap
    obtain ⟨-, hencap⟩ := check_passed hencap
    split at hencap
    · cases hencap
    · rename_i ct' ss' hprovider
      obtain ⟨hlengths, hencap⟩ := check_passed hencap
      obtain ⟨rfl, rfl⟩ := Prod.mk.inj (Except.ok.inj hencap)
      rw [not_or, not_not, not_not] at hlengths
      rw [hpair] at hprovider
      unfold cryptMlKemDecapsulate
      rw [hpublic, hset]
      dsimp only
      rw [if_neg (not_not_intro hlengths.1), hseed, hcorrect _ _ _ _ _ hprovider,
        if_neg (by decide)]
      exact if_neg (not_not_intro hlengths.2)
  unfold BlobEngine.cryptSecretDecrypt PqcTpm.cryptSecretDecrypt
  rw [if_neg hlabel, hpublic, if_pos htype, hdecap]
  rfl

/-- A credential is given out again to whoever has the protector, with the object that it was made for. -/
theorem makeCredential_activates (hK : E.crypto.Lawful) (k : KeyHolder E identityString) {w : Stale} {rand : Bytes}
    {credential : Tpm2bDigest} {activateObject : Object} {credentialBlob secret : Bytes}
    (h : makeCredential E k.sender w rand credential activateObject.name = .ok (credentialBlob, secret)) (w' : Stale) :
    activateCredential E activateObject k.owner w' credentialBlob secret = .ok credential := by
  obtain ⟨hprotects, h⟩ := check_passed h
  obtain ⟨-, h⟩ := check_passed h
  obtain ⟨⟨secret', data⟩, hsecret, h⟩ := Transition.bind_eq_ok h
  obtain ⟨blob, hblob, h⟩ := Transition.bind_eq_ok h
  obtain ⟨rfl, rfl⟩ := Prod.mk.inj (Except.ok.inj h)
  unfold activateCredential
  rw [k.publicArea, if_neg hprotects, k.agrees _ _ _ hsecret]
  dsimp only
  rw [credentialToSecret_secretToCredential hK k.publicArea w w' _ _ hblob]
  rfl

end Transfer

/-! ## Test vectors -/

section Vectors

/-- Seeds of 32 octets, one after the other. -/
def seedFrom (first : Nat) : Tpm2bDigest := .ofBytes ((List.range 32).map fun i => UInt8.ofNat (first + i))

def sealedDigest : Bytes := be 32 0x6c965250f547985c5a5d06a523fd5e3f2e5196d3aa1faaa4edf8f753b1b520c6

def dataNameDigest : Bytes := be 32 0xf1a53ec5c8cb81b52431cb1f2a3fe5bd1c98e905c6a54e866e1747b7ab8b597e

def dataQualifiedNameDigest : Bytes :=
  be 32 0x8437a9c79f5e83dda6c325a9f59b6011bbaf952c4803dc0dfc377fc4a8942e7a

def storageQualifiedNameDigest : Bytes :=
  be 32 0x4659c5f6ba7764c80e96670d43e593eeaac7d604e5d88de3b3c168f0a52b0d5a

/-- A storage key of the owner, whose scalar is 1. -/
def p256Storage : Object where
  attributes := { occupied := true, isParent := true, primary := true, spsHierarchy := true }
  publicArea :=
    { type := .ecc
      nameAlg := some .sha256
      objectAttributes :=
        { fixedTPM := true, fixedParent := true, sensitiveDataOrigin := true, userWithAuth := true
          restricted := true, decrypt := true }
      authPolicy := .empty
      parameters := (⟨some ⟨.aes, 128, some .cfb, aes_keyBits⟩, .null, .nistP256, none⟩ : EccParms)
      unique := ((.ofBytes (be 32 p256Generator.1), .ofBytes (be 32 p256Generator.2)) :
        Tpm2bEccParameter × Tpm2bEccParameter) }
  sensitive :=
    { authValue := .empty
      seedValue := seedFrom 0
      sensitive := some ⟨.ecc, .ofBytes (be 32 1)⟩
      public_only := nofun }
  privateExponent := .zero
  qualifiedName := .ofBytes (0x00 :: 0x0b :: storageQualifiedNameDigest)
  evictHandle := 0
  name := .empty
  seedCompatLevel := .original
  hierarchy := .owner

/-- Sealed data that may be duplicated. -/
def sealedData (authValue : Bytes) : Object where
  attributes := { occupied := true, spsHierarchy := true }
  publicArea :=
    { type := .keyedhash
      nameAlg := some .sha256
      objectAttributes := { userWithAuth := true }
      authPolicy := .empty
      parameters := TpmtKeyedhashScheme.null
      unique := (.ofBytes sealedDigest : Tpm2bDigest) }
  sensitive :=
    { authValue := .ofBytes authValue
      seedValue := seedFrom 32
      sensitive := some ⟨.keyedhash, .ofBytes [0x73, 0x65, 0x61, 0x6c]⟩
      public_only := nofun }
  privateExponent := .zero
  qualifiedName := .ofBytes (0x00 :: 0x0b :: dataQualifiedNameDigest)
  evictHandle := 0
  name := .ofBytes (0x00 :: 0x0b :: dataNameDigest)
  seedCompatLevel := .original
  hierarchy := .owner

/-- The word `auth`. -/
def authOctets : Bytes := [0x61, 0x75, 0x74, 0x68]

/-- The word `credential`. -/
def credentialOctets : Tpm2bDigest := .ofBytes [0x63, 0x72, 0x65, 0x64, 0x65, 0x6e, 0x74, 0x69, 0x61, 0x6c]

/-- A seed with its keys, the HMAC of what is wrapped under it, and the blocks that AES-128 takes to others there. -/
structure SeedVector where
  seed : Bytes
  symKey : Bytes
  hmacKey : Bytes
  integrity : Bytes
  blocks : List (Bytes × Bytes)

/-- The duplicate of the sealed data. -/
def duplicateVector : SeedVector where
  seed := be 32 0x0b6bf5ce4deb1a1e50ae84c31c4de41b9798a9497a5252e5cde2e30f4b81d1d3
  symKey := be 16 0x366c7a77b766216bd8e8bfa28b880e53
  hmacKey := be 32 0x20547165fff2fa1838ab93c234bdc599e723d2b2631f226350a2c5241cbbd848
  integrity := be 32 0x1d49658bf08a74dd93243f666099be4d9c4ac375f8eede8426c7693279018d63
  blocks :=
    [(be 16 0x00000000000000000000000000000000, be 16 0x86d43d3f9145f128aa10ac75e83d741c),
     (be 16 0x86983d379165905dde78ac75e83d741c, be 16 0x7c9d743ff0effcd5273b9aef0aba88d4),
     (be 16 0x7c9d743ff0effcd5273b9aef0aba88d4, be 16 0x1cb7afa2a2d6fe9728ccfcb440393e2f),
     (be 16 0x1cb7afa2a2d6feb708edde97641c1808, be 16 0x2029a0573378af15a154711854b57e73),
     (be 16 0x08008a7c1f55813a9165432b60804844, be 16 0x5d7a0d10aa5e3120c25726803b583080)]

/-- Its private area. -/
def privateVector : SeedVector where
  seed := be 32 0x000102030405060708090a0b0c0d0e0f101112131415161718191a1b1c1d1e1f
  symKey := be 16 0x24e63d7b687874459ef3d733014152d2
  hmacKey := be 32 0xbacf689f634ece301e1f1b15b072d9c87db6a69585db42b1a0cb8f73ebe2692e
  integrity := be 32 0x57ae7bc4323cd1a64bf5282c9e0179d2b74f1cb5148468f8fe93bf1f26f673dd
  blocks :=
    [(be 16 0xa0a1a2a3a4a5a6a7a8a9aaabacadaeaf, be 16 0x5648f127b8a0a043e6470a0bb3565e35),
     (be 16 0x5604f12fb880c136922f0a0bb3565e35, be 16 0x2a10c10aded10aa7638542159ee43611),
     (be 16 0x2a10c10aded10aa7638542159ee43611, be 16 0x457a1df6f4e9bc0aa58e992c15f01109),
     (be 16 0x457a1df6f4e9bc2a85afbb0f31d5372e, be 16 0xb7fe83093857742b95309b55d9cd76eb),
     (be 16 0x9fd7a922147a5a04a501a966edf840dc, be 16 0x90bd930ebf5c3e30887e62616f959d20)]

/-- The credential. -/
def credentialVector : SeedVector where
  seed := be 32 0x1cb59409de57a8cf467195cf41f0a863ad11a8dbf9d30c34740be6369f61b57d
  symKey := be 16 0xcc0cab1cbbbe562a9c025cc34d231546
  hmacKey := be 32 0xd85ee15c23e56cf6ea4a801473efad1cb396bcc1d8c1b8d17f95d7baf5090f83
  integrity := be 32 0x442f2c2b00608ee17352c136bf00707b0a2712dd65a0a801a28efecf2b14f3b4
  blocks :=
    [(be 16 0x00000000000000000000000000000000, be 16 0x25f6cb1dff1d8b83aae9626b6a6fdc4b)]

/-- The private area of the sealed data with the authorization value `auth`. -/
def sealedPrivate : Bytes :=
  be 2 32 ++ (privateVector.integrity ++ (be 2 16 ++ (be 16 0xa0a1a2a3a4a5a6a7a8a9aaabacadaeaf ++
    (be 32 0x5604f12fb880c136922f0a0bb3565e352a10c10aded10aa7638542159ee43611 ++
      (be 32 0x457a1df6f4e9bc2a85afbb0f31d5372e9fd7a922147a5a04a501a966edf840dc ++ be 14 0xa884a9358361000f887a11040ef9)))))

/-- The duplicate before and after its outer wrap. -/
def sealedDuplicate : Bytes := be 2 76 ++ (be 2 8 ++ (be 2 32 ++ (authOctets ++ List.replicate 28 0 ++
  (be 2 32 ++ ((seedFrom 32).buffer ++ (be 2 4 ++ [0x73, 0x65, 0x61, 0x6c]))))))

def wrappedDuplicate : Bytes :=
  be 2 32 ++ (duplicateVector.integrity ++
    (be 32 0x86983d379165905dde78ac75e83d741c7c9d743ff0effcd5273b9aef0aba88d4 ++
      (be 32 0x1cb7afa2a2d6feb708edde97641c180808008a7c1f55813a9165432b60804844 ++ be 14 0x6543372b96630f1fc25355e55a34)))

def wrappedCredential : Bytes := be 2 32 ++ (credentialVector.integrity ++ be 12 0x25fca86f9a79eeedde800307)

def seedVectors : List SeedVector := [duplicateVector, privateVector, credentialVector]

def vectorBlocks (key : Bytes) : List (Bytes × Bytes) := (seedVectors.find? fun v => v.symKey = key).elim [] SeedVector.blocks

/-- The blocks of a chain go to one another, so the last exchange is the first to be made. -/
def vectorCiphers : BlockCiphers where
  encrypt _ _ key block := (vectorBlocks key).foldr (fun p b => exchange p.1 p.2 b) block
  decrypt _ _ key block := (vectorBlocks key).foldl (fun b p => exchange p.1 p.2 b) block

def hashVectors : List (Bytes × Bytes) :=
  [((sealedData []).publicArea.marshal, dataNameDigest),
   ((seedFrom 32).buffer ++ [0x73, 0x65, 0x61, 0x6c], sealedDigest),
   (p256Storage.qualifiedName.buffer ++ (sealedData []).name.buffer, dataQualifiedNameDigest)]

def vectorHash (h : HashAlg) (text : Bytes) : Bytes :=
  if h = .sha256 then (hashVectors.find? fun p => p.1 = text).elim (List.replicate 32 0) Prod.snd
  else List.replicate h.digestSize 0

def vectorHmac (h : HashAlg) (key : Bytes) : Bytes :=
  if h = .sha256 then (seedVectors.find? fun v => v.hmacKey = key).elim (List.replicate 32 0) SeedVector.integrity
  else List.replicate h.digestSize 0

/-- Primitives that agree with SHA-256, its HMAC and AES-128 on the blobs of the vectors. -/
def vectorCrypto : BlobCrypto where
  ciphers := vectorCiphers
  kdfa _ seed label _ _ :=
    (seedVectors.find? fun v => v.seed = seed).elim [] fun v => if label = "STORAGE" then v.symKey else v.hmacKey
  hmac h key _ := vectorHmac h key
  hash := vectorHash
  random n := (List.range n).map fun i => UInt8.ofNat (0xa0 + i)

/-- The secret of an ephemeral key with the scalar 2: the double of the generator. -/
def p256Secret : Bytes :=
  be 2 32 ++ (be 32 0x7cf27b188d034f7e8a52380304b51ac3c08969e277f21b35a60b48fc47669978 ++
    (be 2 32 ++ be 32 0x07775510db8ed040293d9ac69f7430dbba7dade63ce982299e04b79d227873d1))

def vectorSeed (label : Bytes) : Bytes := if label = identityString then credentialVector.seed else duplicateVector.seed

def vectorEngine : BlobEngine Unit where
  crypto := vectorCrypto
  kem := toyKem
  keys := { zeroProvider with hash := vectorHash }
  secretEncrypt a label _ := if a.nameAlg = some .sha256 then .ok (p256Secret, vectorSeed label) else .error (.of .key)
  secretDecrypt _ label secret := if secret = p256Secret then .ok (vectorSeed label) else .error (.of .eccPoint)
  cryptRsaLoadPrivateExponent _ _ := .error (.of .binding)

theorem exchangeAll_length {table : List (Bytes × Bytes)} (h : ∀ p ∈ table, p.1.length = p.2.length) (block : Bytes) :
    (table.foldr (fun p b => exchange p.1 p.2 b) block).length = block.length := by
  induction table with
  | nil => rfl
  | cons p table ih =>
      rw [List.foldr_cons, exchange_length (h p List.mem_cons_self)]
      exact ih fun q hq => h q (List.mem_cons_of_mem p hq)

theorem exchangeAll_exchangeAll (table : List (Bytes × Bytes)) (block : Bytes) :
    table.foldl (fun b p => exchange p.1 p.2 b) (table.foldr (fun p b => exchange p.1 p.2 b) block) = block := by
  induction table generalizing block with
  | nil => rfl
  | cons p table ih => rw [List.foldr_cons, List.foldl_cons, exchange_exchange, ih]

theorem vectorCrypto_lawful : vectorCrypto.Lawful where
  ciphers := by
    refine ⟨fun algorithm keyBits key block hblock => ?_, fun algorithm keyBits key block _ => exchangeAll_exchangeAll _ block⟩
    refine (exchangeAll_length (fun p hp => ?_) block).trans hblock
    unfold vectorBlocks at hp
    cases hfind : seedVectors.find? fun v => v.symKey = key with
    | none =>
        rw [hfind] at hp
        cases hp
    | some v =>
        have hall : ∀ v ∈ seedVectors, ∀ p ∈ v.blocks, p.1.length = p.2.length := by decide
        rw [hfind] at hp
        exact hall v (List.mem_of_find?_eq_some hfind) p hp
  hmac_length h key text := by
    have hall : ∀ v ∈ seedVectors, v.integrity.length = 32 := by decide
    change (vectorHmac h key).length = _
    unfold vectorHmac
    split
    · rename_i hsha
      rw [hsha]
      cases hfind : seedVectors.find? fun v => v.hmacKey = key with
      | none => rfl
      | some v => exact hall v (List.mem_of_find?_eq_some hfind)
    · exact List.length_replicate
  hash_length h text := by
    have hall : ∀ p ∈ hashVectors, p.2.length = 32 := by decide
    change (vectorHash h text).length = _
    unfold vectorHash
    split
    · rename_i hsha
      rw [hsha]
      cases hfind : hashVectors.find? fun p => p.1 = text with
      | none => rfl
      | some p => exact hall p (List.mem_of_find?_eq_some hfind)
    · exact List.length_replicate
  random_length n := by
    change ((List.range n).map _).length = n
    rw [List.length_map, List.length_range]

theorem vectorEngine_lawful : vectorEngine.Lawful where
  crypto := vectorCrypto_lawful
  secret a label rand secret seed h := by
    have hsecret : p256Secret ≠ [] := by decide
    have hseed : (vectorSeed label).length = 32 := by
      unfold vectorSeed
      split <;> rfl
    change (if a.nameAlg = some .sha256 then Except.ok (p256Secret, vectorSeed label) else .error (Fault.of .key)) = _ at h
    split at h
    · rename_i hhash
      obtain ⟨rfl, rfl⟩ := Prod.mk.inj (Except.ok.inj h)
      rw [hhash]
      exact ⟨hsecret, hseed⟩
    · cases h

/-- The owner of the storage key decrypts what is made for it. -/
def storageHolder (label : Bytes) : KeyHolder vectorEngine label where
  sender := p256Storage
  owner := p256Storage
  publicArea := rfl
  nameAlg := rfl
  agrees rand secret seed h := by
    obtain ⟨hlabel, h⟩ := check_passed h
    obtain ⟨rfl, rfl⟩ := Prod.mk.inj (Except.ok.inj h)
    unfold BlobEngine.cryptSecretDecrypt PqcTpm.cryptSecretDecrypt
    rw [if_neg hlabel]
    rfl

theorem objectChangeAuth_loads_sealed : ∃ auth, adjustAuthSize (.ofBytes authOctets) (some .sha256) = some auth ∧
    ∀ wParent wObject, loadBlob vectorEngine p256Storage wParent wObject sealedPrivate (sealedData []).publicArea =
      (objectLoad vectorEngine (some p256Storage) wParent wObject 0x240 0x140 (sealedData []).publicArea
        ((sealedData []).sensitive.withAuth auth)).map
        (loadedObject vectorEngine p256Storage (sealedData []).publicArea ((sealedData []).sensitive.withAuth auth)) :=
  objectChangeAuth_loads vectorCrypto_lawful
    (show objectChangeAuth vectorEngine (sealedData []) p256Storage {} (.ofBytes authOctets) = .ok sealedPrivate from rfl)
    rfl rfl rfl rfl

theorem transfer_loads_sealed : ∃ outPrivate,
    importObject vectorEngine p256Storage {} {} [] (sealedData authOctets).publicArea wrappedDuplicate p256Secret none =
      ((objectLoad vectorEngine none {} {} 0x240 0x340 (sealedData authOctets).publicArea
        ((sealedData authOctets).sensitive.padded 32)).map fun _ => outPrivate) ∧
      ∀ wParent wObject, loadBlob vectorEngine p256Storage wParent wObject outPrivate (sealedData authOctets).publicArea =
        (objectLoad vectorEngine (some p256Storage) wParent wObject 0x240 0x140 (sealedData authOctets).publicArea
            ((sealedData authOctets).sensitive.padded 32)).map
          (loadedObject vectorEngine p256Storage (sealedData authOctets).publicArea
            ((sealedData authOctets).sensitive.padded 32)) := by
  have hduplicate : duplicate vectorEngine (sealedData authOctets)
      ((none : Option (KeyHolder vectorEngine duplicateString)).map KeyHolder.sender) {} [] [] none =
      .ok ⟨[], sealedDuplicate, []⟩ := rfl
  have hsend : sendOn vectorEngine (sealedData authOctets).name none (sealedDuplicate, [])
      [⟨some (storageHolder duplicateString), {}, {}, []⟩] =
      .ok (some (storageHolder duplicateString), wrappedDuplicate, p256Secret) := rfl
  have howner : ∀ k, some (storageHolder duplicateString) = some k → p256Storage = k.owner :=
    fun k hk => congrArg KeyHolder.owner (Option.some.inj hk)
  have hclear : (sealedData authOctets).publicArea.objectAttributes.encryptedDuplication = true →
      some (storageHolder duplicateString) ≠ none := fun _ => Option.some_ne_none _
  obtain ⟨outPrivate, himport, hload⟩ := transfer_loads vectorEngine_lawful rfl rfl hduplicate hsend rfl rfl howner hclear {} {}
  refine ⟨outPrivate, himport.trans (if_pos rfl), hload⟩

theorem makeCredential_activates_word :
    activateCredential vectorEngine (sealedData []) p256Storage {} wrappedCredential p256Secret = .ok credentialOctets :=
  makeCredential_activates vectorCrypto_lawful (storageHolder identityString)
    (show makeCredential vectorEngine p256Storage {} [] credentialOctets (sealedData []).name =
      .ok (wrappedCredential, p256Secret) from rfl) {}

end Vectors

end PqcTpm
