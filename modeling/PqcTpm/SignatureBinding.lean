import PqcTpm.SignatureCodec

/-!
# What a verified ML-DSA signature is bound to

`CryptMlDsaValidateSignature` and `CryptMlDsaValidateSignatureMessage` on a `TPMT_SIGNATURE` as it stands,
with the instance that they ask the provider for, and the ticket of `TPM2_VerifyDigestSignature`. Four places
name an algorithm: the selector and the hash of the signature, the hash of the key's parameters and the name
algorithm of the key.
-/
namespace PqcTpm
open ByteCodec Transition

/-- The EVP calls on a public key; the instance is `none` for pure ML-DSA. A signature is verified unless a
response code says otherwise. -/
structure MlDsaProvider where
  pkeyFromPub : MldsaParameterSet → Bytes → Bool
  digestVerify : MldsaParameterSet → Bytes → Option HashAlg → Bytes → Bytes → Bytes → Option RcCode

/-- `HashMlDsaInstance`, by the hash in the name of the instance. -/
def hashMlDsaInstance : Option HashAlg → Option HashAlg
  | some .sha256 => some .sha256
  | some .sha384 => some .sha384
  | some .sha512 => some .sha512
  | _ => none

/-- The number of a hash algorithm in a `TPMI_ALG_HASH`. -/
def hashId : Option HashAlg → UInt16
  | some alg => UInt16.ofNat (hashSelector.algId alg)
  | none => typeNull

theorem hashId_inj {a b : Option HashAlg} (h : hashId a = hashId b) : a = b := by
  cases a with
  | none => cases b with
    | none => rfl
    | some b => cases b <;> exact absurd h (by decide)
  | some a => cases b with
    | none => cases a <;> exact absurd h (by decide)
    | some b => cases a <;> cases b <;> first | rfl | exact absurd h (by decide)

namespace WireSignature

/-- The octets of the signature and their number, for the two selectors that are looked for. -/
def sigBuf : WireSignature → Option Bytes
  | some ⟨.mldsa, x⟩ => some ((x : Tpm2b 4627).buffer)
  | some ⟨.hashMldsa, x⟩ => some (SignatureHashMldsa.signature x).buffer
  | _ => none

/-- `hash_mldsa.hash` where the selector is `TPM_ALG_HASH_MLDSA`, and else `TPM_ALG_NULL`. -/
def hashMldsaHash : WireSignature → UInt16
  | some ⟨.hashMldsa, x⟩ => SignatureHashMldsa.hash x
  | _ => typeNull

end WireSignature

namespace TpmtPublic
variable (a : TpmtPublic)

/-- `unique.mldsa`. -/
def mldsaUnique : Bytes :=
  match a with
  | { type := .mldsa, unique := u, .. } => (u : Tpm2b 2592).buffer
  | { type := .hashMldsa, unique := u, .. } => (u : Tpm2b 2592).buffer
  | _ => []

/-- The selector of the signatures that the key makes. -/
def mldsaSigAlg : Option SigAlg :=
  match a.type with
  | .mldsa => some .mldsa
  | .hashMldsa => some .hashMldsa
  | _ => none

/-- `hashMldsaDetail.hashAlg`. -/
def declaredHash : Option HashAlg :=
  match a with
  | { type := .hashMldsa, parameters := q, .. } => some (HashMldsaParms.hashAlg q)
  | _ => none

/-- The hash in the instance that a HashML-DSA verification asks for. -/
def usedHash : Option HashAlg := if a.type = .hashMldsa then hashMlDsaInstance a.nameAlg else none

/-- The instance in `initParams`, where there is one to put there. -/
def evpInstance : Option (Option HashAlg) :=
  if a.type = .hashMldsa then (hashMlDsaInstance a.nameAlg).map some else some none

end TpmtPublic

section
variable {σ : Type} (V : MlDsaProvider) (C : SeqCrypto σ)

/-! ## The verification -/

/-- `CryptMlDsaValidateSignatureMessage`; `none` is `TPM_RC_SUCCESS`. -/
def validateSignatureMessage (sig : WireSignature) (a : TpmtPublic) (msg ctx : Bytes) : Option RcCode :=
  match a.mldsaParameterSet? with
  | none => some .scheme
  | some set =>
      match sig.sigBuf with
      | none => some .scheme
      | some sigBuf =>
          if sigBuf.length ≠ set.sigSize then some .signature
          else if !V.pkeyFromPub set a.mldsaUnique then some .key
          else match a.evpInstance with
            | none => some .scheme
            | some inst => V.digestVerify set a.mldsaUnique inst ctx sigBuf msg

/-- `CryptMlDsaValidateSignature` is the same on a digest. -/
def validateSignature (sig : WireSignature) (a : TpmtPublic) (digest : Tpm2bDigest) (ctx : Tpm2b 255) :
    Option RcCode :=
  validateSignatureMessage V sig a digest.buffer ctx.buffer

/-- `TPMT_TK_VERIFIED` of `TPM2_VerifyDigestSignature`. -/
structure TkDigestVerified where
  hierarchy : Hierarchy
  digestVerified : UInt16
  hmac : Bytes
  deriving DecidableEq

/-- `TPM2_VerifyDigestSignature`. -/
def verifyDigestSignatureWire (keyHandle : TpmHandle) (context : Tpm2b 255) (digest : Tpm2bDigest)
    (signature : WireSignature) (s : TpmState σ) : Except Fault TkDigestVerified :=
  match keyObject s keyHandle with
  | .error e => .error e
  | .ok (some (.object key)) =>
      if !key.publicArea.objectAttributes.sign then .error (.at .attributes 0x100)
      else if !key.publicArea.allowExternalMu then .error (.at .attributes 0x100)
      else match validateSignature V signature key.publicArea digest context with
        | some c => .error (rcSafeAddToResult 0x340 (.of c))
        | none =>
            let ticket := ticketComputeVerified C s key.hierarchy digest.buffer key.name.buffer
            .ok (if key.unticketed then ⟨.null, hashId none, []⟩
              else ⟨ticket.hierarchy, signature.hashMldsaHash, ticket.hmac⟩)
  | .ok (some _) => .error (.at .attributes 0x100)
  | .ok none => .error .failureMode

end

/-! ## The model of sequences and tickets is this one with the instance inside -/

namespace MlDsaProvider
variable {σ : Type} (V : MlDsaProvider) (C : SeqCrypto σ)

/-- The crypto library whose EVP calls on public keys are these. -/
def within : SeqCrypto σ :=
  { C with
    pkeyFromPub := fun a =>
      match a.mldsaParameterSet? with
      | some set => V.pkeyFromPub set a.mldsaUnique
      | none => false
    evpVerify := fun a msg ctx sig =>
      match a.mldsaParameterSet? with
      | some set => V.digestVerify set a.mldsaUnique a.usedHash ctx sig msg
      | none => some .failure }

/-- What the functions of sequences read of a signature. -/
def parts : WireSignature → Option TpmtSignature
  | some ⟨.mldsa, x⟩ => some ⟨.mldsa, (x : Tpm2b 4627).buffer⟩
  | some ⟨.hashMldsa, x⟩ => some ⟨.hashMldsa, (SignatureHashMldsa.signature x).buffer⟩
  | _ => none

theorem parts_eq_some {sig : WireSignature} {x : TpmtSignature} (h : parts sig = some x) :
    sig.sigBuf = some x.signature ∧ ¬ (x.sigAlg ≠ .mldsa ∧ x.sigAlg ≠ .hashMldsa) := by
  unfold parts at h
  split at h
  · obtain rfl := Option.some.inj h
    exact ⟨rfl, fun hne => hne.1 rfl⟩
  · obtain rfl := Option.some.inj h
    exact ⟨rfl, fun hne => hne.2 rfl⟩
  · cases h

theorem evpInstance_eq (a : TpmtPublic) :
    a.evpInstance = if hashMldsaInstance a then some a.usedHash else none := by
  unfold TpmtPublic.evpInstance hashMldsaInstance TpmtPublic.usedHash
  by_cases htype : a.type = .hashMldsa
  · simp only [htype, if_true, ne_eq, not_true, decide_false, Bool.false_or]
    cases halg : a.nameAlg with
    | none => rfl
    | some alg => cases alg <;> rfl
  · simp only [htype, if_false, ne_eq, not_false_eq_true, decide_true, Bool.true_or, if_true]

theorem validateSignatureMessage_eq {sig : WireSignature} {x : TpmtSignature} (h : parts sig = some x)
    (a : TpmtPublic) (msg ctx : Bytes) :
    validateSignatureMessage V sig a msg ctx = cryptMlDsaValidateSignatureMessage (V.within C) x a msg ctx := by
  obtain ⟨hbuf, hselector⟩ := parts_eq_some h
  unfold validateSignatureMessage cryptMlDsaValidateSignatureMessage
  cases hset : a.mldsaParameterSet? with
  | none => rfl
  | some set =>
      simp only [hbuf, hselector, if_false, within, hset, evpInstance_eq]
      cases hashMldsaInstance a <;> rfl

/-- The ticket is the one of the model of tickets, where `hash` is the algorithm with the number in the
signature. -/
theorem verifyDigestSignatureWire_eq {sig : WireSignature} {x : TpmtSignature} (h : parts sig = some x)
    {hash : HashAlg} (hhash : sig.hashMldsaHash = hashId (if x.sigAlg = .hashMldsa then some hash else none))
    (keyHandle : TpmHandle) (context : Tpm2b 255) (digest : Tpm2bDigest) (s : TpmState σ) :
    verifyDigestSignatureWire V C keyHandle context digest sig s =
      (verifyDigestSignature (V.within C) keyHandle context digest x hash s).map
        fun t => ⟨t.hierarchy, hashId t.metadata, t.hmac⟩ := by
  unfold verifyDigestSignatureWire verifyDigestSignature validateSignature
  simp only [V.validateSignatureMessage_eq C h]
  cases keyObject s keyHandle with
  | error e => rfl
  | ok slot =>
      rcases slot with _ | (_ | key | ⟨y, hierarchy⟩)
      · rfl
      · rfl
      · dsimp only
        split
        · rfl
        · split
          · rfl
          · cases cryptMlDsaValidateSignatureMessage (V.within C) x key.publicArea digest.buffer context.buffer with
            | some c => rfl
            | none =>
                cases key.unticketed with
                | true => rfl
                | false =>
                    simp only [Bool.false_eq_true, if_false, hhash]
                    rfl
      · rfl

end MlDsaProvider

section
variable {σ : Type} (V : MlDsaProvider) (C : SeqCrypto σ)

/-! ## What is bound -/

/-- The selector is the key's type; and for a HashML-DSA key the signature names the hash that the
verification used, which is the one that the key declares. -/
structure SignatureBound (sig : WireSignature) (a : TpmtPublic) : Prop where
  sigAlg : sig.map (·.1) = a.mldsaSigAlg
  hash : a.type = .hashMldsa → sig.hashMldsaHash = hashId a.usedHash ∧ a.usedHash = a.declaredHash

/-- One of the checks that are made before the provider is asked turns the signature down. -/
inductive SignatureRefused (sig : WireSignature) (a : TpmtPublic) : Prop
  | keyType (h : a.mldsaParameterSet? = none)
  | selector (h : sig.sigBuf = none)
  | size {set sigBuf} (hset : a.mldsaParameterSet? = some set) (hbuf : sig.sigBuf = some sigBuf)
      (h : sigBuf.length ≠ set.sigSize)
  | instance (h : a.evpInstance = none)

/-- The provider takes the public key, and the octets under the instance that it is asked for. -/
def MlDsaProvider.Accepts (sig : WireSignature) (a : TpmtPublic) (msg ctx : Bytes) : Prop :=
  ∀ set sigBuf inst, a.mldsaParameterSet? = some set → sig.sigBuf = some sigBuf → a.evpInstance = some inst →
    V.pkeyFromPub set a.mldsaUnique = true ∧ V.digestVerify set a.mldsaUnique inst ctx sigBuf msg = none

theorem validateSignatureMessage_none_iff (sig : WireSignature) (a : TpmtPublic) (msg ctx : Bytes) :
    validateSignatureMessage V sig a msg ctx = none ↔ ¬ SignatureRefused sig a ∧ V.Accepts sig a msg ctx := by
  unfold validateSignatureMessage
  cases hset : a.mldsaParameterSet? with
  | none => exact iff_of_false nofun fun h => h.1 (.keyType hset)
  | some set =>
      cases hbuf : sig.sigBuf with
      | none => exact iff_of_false nofun fun h => h.1 (.selector hbuf)
      | some sigBuf =>
          by_cases hsize : sigBuf.length ≠ set.sigSize
          · simp only [if_pos hsize]
            exact iff_of_false nofun fun h => h.1 (.size hset hbuf hsize)
          cases hinst : a.evpInstance with
          | none =>
              refine iff_of_false ?_ fun h => h.1 (.instance hinst)
              simp only [if_neg hsize]
              split <;> exact Option.some_ne_none _
          | some inst =>
              have hchecked : ¬ SignatureRefused sig a := by
                intro hrefused
                cases hrefused with
                | keyType h => cases hset.symm.trans h
                | selector h => cases hbuf.symm.trans h
                | size hset' hbuf' h =>
                    obtain rfl := Option.some.inj (hset.symm.trans hset')
                    obtain rfl := Option.some.inj (hbuf.symm.trans hbuf')
                    exact hsize h
                | «instance» h => cases hinst.symm.trans h
              simp only [if_neg hsize, hchecked, not_false_eq_true, true_and, MlDsaProvider.Accepts, hset, hbuf, hinst,
                Option.some.injEq]
              cases hkey : V.pkeyFromPub set a.mldsaUnique with
              | false =>
                  refine iff_of_false nofun fun h => ?_
                  cases hkey.symm.trans (h _ _ _ rfl rfl rfl).1
              | true =>
                  simp only [Bool.not_true, Bool.false_eq_true, if_false]
                  constructor
                  · rintro hok _ _ _ rfl rfl rfl
                    exact ⟨hkey, hok⟩
                  · intro h
                    exact (h _ _ _ rfl rfl rfl).2

/-- A provider that takes everything. -/
def MlDsaProvider.lenient : MlDsaProvider := ⟨fun _ _ => true, fun _ _ _ _ _ _ => none⟩

theorem MlDsaProvider.lenient_accepts (sig : WireSignature) (a : TpmtPublic) (msg ctx : Bytes) :
    lenient.Accepts sig a msg ctx := fun _ _ _ _ _ _ => ⟨rfl, rfl⟩

theorem exists_validates_iff (sig : WireSignature) (a : TpmtPublic) (msg ctx : Bytes) :
    (∃ V, validateSignatureMessage V sig a msg ctx = none) ↔ ¬ SignatureRefused sig a := by
  simp only [validateSignatureMessage_none_iff]
  constructor
  · rintro ⟨V, hchecked, -⟩
    exact hchecked
  · intro hchecked
    exact ⟨.lenient, hchecked, MlDsaProvider.lenient_accepts sig a msg ctx⟩

/-- The hash in the ticket is the one that was used: no ticket is computed for a key without a proof or a
name, and the other tickets take the hash of the signature. -/
def TicketNamesHash (sig : WireSignature) (key : Object) : Prop :=
  if key.unticketed then key.publicArea.usedHash = none
  else sig.hashMldsaHash = hashId key.publicArea.usedHash

theorem digestVerified_eq_iff (sig : WireSignature) (key : Object) (hmac : Bytes) :
    (if key.unticketed then ⟨.null, hashId none, []⟩
      else ⟨key.hierarchy, sig.hashMldsaHash, hmac⟩ : TkDigestVerified).digestVerified =
        hashId key.publicArea.usedHash ↔ TicketNamesHash sig key := by
  unfold TicketNamesHash
  cases key.unticketed with
  | true =>
      simp only [if_true]
      exact ⟨fun h => (hashId_inj h).symm, fun h => by rw [h]⟩
  | false => exact Iff.rfl

/-- `TPM2_VerifyDigestSignature` turns the signature down before the provider is asked. -/
def VerifyDigestRefused (sig : WireSignature) (key : Object) : Prop :=
  key.publicArea.objectAttributes.sign = false ∨ key.publicArea.allowExternalMu = false ∨
    SignatureRefused sig key.publicArea

theorem verifyDigestSignatureWire_ok_iff {keyHandle : TpmHandle} {context : Tpm2b 255} {digest : Tpm2bDigest}
    {sig : WireSignature} {s : TpmState σ} {key : Object} (hgiven : keyGiven s keyHandle = some key)
    (t : TkDigestVerified) :
    verifyDigestSignatureWire V C keyHandle context digest sig s = .ok t ↔
      (¬ VerifyDigestRefused sig key ∧ V.Accepts sig key.publicArea digest.buffer context.buffer) ∧
        t = if key.unticketed then ⟨.null, hashId none, []⟩
          else ⟨key.hierarchy, sig.hashMldsaHash,
            (ticketComputeVerified C s key.hierarchy digest.buffer key.name.buffer).hmac⟩ := by
  have hvalid := validateSignatureMessage_none_iff V sig key.publicArea digest.buffer context.buffer
  simp only [verifyDigestSignatureWire, keyGiven_eq_some hgiven, validateSignature, VerifyDigestRefused]
  cases hsign : key.publicArea.objectAttributes.sign with
  | false => exact iff_of_false nofun fun h => h.1.1 (.inl rfl)
  | true =>
      cases hmu : key.publicArea.allowExternalMu with
      | false => exact iff_of_false nofun fun h => h.1.1 (.inr (.inl rfl))
      | true =>
          simp only [Bool.not_true, Bool.false_eq_true, if_false, reduceCtorEq, false_or, ← hvalid]
          cases validateSignatureMessage V sig key.publicArea digest.buffer context.buffer with
          | some c => exact iff_of_false nofun fun h => nomatch h.1
          | none =>
              simp only [true_and, Except.ok.injEq]
              exact eq_comm

/-- Whatever the provider says of the octets, a signature that verifies is bound to its key exactly where it is
bound anyway or a check turns it down; and so is the hash that `TPM2_VerifyDigestSignature` puts into the ticket. -/
theorem signature_bound_iff (s : TpmState σ) (keyHandle : TpmHandle) (key : Object) (sig : WireSignature)
    (digest : Tpm2bDigest) (context : Tpm2b 255) (msg : Bytes) (hgiven : keyGiven s keyHandle = some key) :
    ((∀ V, validateSignature V sig key.publicArea digest context = none → SignatureBound sig key.publicArea) ↔
        SignatureBound sig key.publicArea ∨ SignatureRefused sig key.publicArea) ∧
      ((∀ V, validateSignatureMessage V sig key.publicArea msg context.buffer = none →
          SignatureBound sig key.publicArea) ↔
        SignatureBound sig key.publicArea ∨ SignatureRefused sig key.publicArea) ∧
      ((∀ V t, verifyDigestSignatureWire V C keyHandle context digest sig s = .ok t →
          t.digestVerified = hashId key.publicArea.usedHash) ↔
        TicketNamesHash sig key ∨ VerifyDigestRefused sig key) := by
  have hbound : ∀ msg ctx, (∀ V, validateSignatureMessage V sig key.publicArea msg ctx = none →
      SignatureBound sig key.publicArea) ↔
        SignatureBound sig key.publicArea ∨ SignatureRefused sig key.publicArea := by
    intro msg ctx
    rw [← exists_imp, exists_validates_iff]
    tauto
  refine ⟨hbound _ _, hbound _ _, ?_⟩
  simp only [verifyDigestSignatureWire_ok_iff _ C hgiven]
  constructor
  · intro h
    rw [or_iff_not_imp_right]
    intro hchecked
    exact (digestVerified_eq_iff sig key _).mp
      (h .lenient _ ⟨⟨hchecked, MlDsaProvider.lenient_accepts _ _ _ _⟩, rfl⟩)
  · rintro (hnames | hrefused) V t ⟨⟨hchecked, -⟩, rfl⟩
    · exact (digestVerified_eq_iff sig key _).mpr hnames
    · exact absurd hrefused hchecked

end

/-! ## A signature under the wrong names -/

/-- A provider that finds the message and the context in the signature. -/
def toyProvider : MlDsaProvider where
  pkeyFromPub _ _ := true
  digestVerify _ _ _ ctx sig msg := if sig = toySignature msg ctx then none else some .signature

/-- The key of `signerLoaded` declares SHA-256; this is its signature under the hash given. -/
def signedUnder (hash : UInt16) : WireSignature :=
  some ⟨.hashMldsa, (⟨hash, ⟨toySignature zerosDigest [], toySignature_le zerosDigest []⟩⟩ : SignatureHashMldsa)⟩

/-- The same as a signature of ML-DSA. -/
def signedPure : WireSignature :=
  some ⟨.mldsa, (⟨toySignature zerosDigest [], toySignature_le zerosDigest []⟩ : Tpm2b 4627)⟩

def zerosTpm2b : Tpm2bDigest := ⟨zerosDigest, zerosDigest_fits⟩

theorem toyProvider_accepts (sig : WireSignature) (h : sig.sigBuf = some (toySignature zerosDigest [])) :
    validateSignatureMessage toyProvider sig hashMldsaKey.publicArea zerosDigest [] = none := by
  have hlen : (toySignature zerosDigest []).length = MldsaParameterSet.sigSize .mldsa44 := by
    rw [toySignature, List.length_take, List.length_append, List.length_replicate, MldsaParameterSet.sigSize]
    omega
  have hset : hashMldsaKey.publicArea.mldsaParameterSet? = some .mldsa44 := rfl
  have hinst : hashMldsaKey.publicArea.evpInstance = some (some .sha256) := rfl
  simp only [validateSignatureMessage, hset, h, hlen, hinst, toyProvider, ne_eq, not_true, if_false, Bool.not_true,
    Bool.false_eq_true, if_true]

/-- The signature under its own names. -/
theorem signedUnder_sha256_bound :
    keyGiven signerLoaded (slotHandle 0) = some hashMldsaKey ∧
      SignatureBound (signedUnder (hashId (some .sha256))) hashMldsaKey.publicArea ∧
      (∀ t, verifyDigestSignatureWire toyProvider toyCrypto (slotHandle 0) .empty zerosTpm2b
        (signedUnder (hashId (some .sha256))) signerLoaded = .ok t →
          t.digestVerified = hashId (some .sha256)) := by
  have hiff := signature_bound_iff toyCrypto signerLoaded (slotHandle 0) hashMldsaKey
    (signedUnder (hashId (some .sha256))) zerosTpm2b .empty [] rfl
  have hvalid := toyProvider_accepts (signedUnder (hashId (some .sha256))) rfl
  have hbound : SignatureBound (signedUnder (hashId (some .sha256))) hashMldsaKey.publicArea :=
    hiff.1.mpr (.inl ⟨rfl, fun _ => ⟨rfl, rfl⟩⟩) toyProvider hvalid
  exact ⟨rfl, hbound, hiff.2.2.mpr (.inl rfl) toyProvider⟩

/-- A HashML-DSA key takes a signature that says ML-DSA, and one that says SHA-512, which then stands in
the ticket. -/
theorem signature_under_wrong_names :
    (validateSignature toyProvider signedPure hashMldsaKey.publicArea zerosTpm2b .empty = none ∧
        ¬ SignatureBound signedPure hashMldsaKey.publicArea) ∧
      (validateSignatureMessage toyProvider (signedUnder (hashId (some .sha512))) hashMldsaKey.publicArea
          zerosDigest [] = none ∧
        ¬ SignatureBound (signedUnder (hashId (some .sha512))) hashMldsaKey.publicArea) ∧
      ∃ t, verifyDigestSignatureWire toyProvider toyCrypto (slotHandle 0) .empty zerosTpm2b
          (signedUnder (hashId (some .sha512))) signerLoaded = .ok t ∧
        t.digestVerified = hashId (some .sha512) ∧ hashMldsaKey.publicArea.usedHash = some .sha256 := by
  have hvalid := toyProvider_accepts (signedUnder (hashId (some .sha512))) rfl
  refine ⟨⟨toyProvider_accepts _ rfl, fun h => ?_⟩, ⟨hvalid, fun h => ?_⟩, ?_⟩
  · have hsel : some SigAlg.mldsa = some SigAlg.hashMldsa := h.sigAlg
    cases Option.some.inj hsel
  · exact absurd (h.hash rfl).1 (by decide)
  · obtain ⟨hchecked, haccepts⟩ := (validateSignatureMessage_none_iff toyProvider _ _ _ _).mp hvalid
    have hnot : ¬ VerifyDigestRefused (signedUnder (hashId (some .sha512))) hashMldsaKey := by
      rintro (h | h | h)
      · cases h
      · cases h
      · exact hchecked h
    have hgiven : keyGiven signerLoaded (slotHandle 0) = some hashMldsaKey := rfl
    exact ⟨_, (verifyDigestSignatureWire_ok_iff toyProvider toyCrypto hgiven _).mpr ⟨⟨hnot, haccepts⟩, rfl⟩, rfl, rfl⟩

end PqcTpm
