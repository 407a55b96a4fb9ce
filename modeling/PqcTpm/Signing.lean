import PqcTpm.SequenceCompletion

/-!
# Signing with a restricted key

`TPM2_Sign` of `SigningCommands.c`, `TPM2_SignDigest` of `PqcMlDsaCommands.c` and
`TPM2_SignSequenceComplete` on an ML-DSA key. A restricted key signs what the TPM itself
has made; of what a caller brings it may sign a message that does not look like it, or a
digest with the ticket that says so. Only the first of the three commands recomputes the
ticket.
-/
namespace PqcTpm
open ByteCodec Transition

/-- `TPMT_SIG_SCHEME` with the hash that every member of the union starts with. -/
structure TpmtSigScheme where
  scheme : Nat
  hashAlg : Nat
  deriving DecidableEq

/-- What `TPM2_Sign` does with keys of other types than the two of ML-DSA. -/
structure OtherSchemes where
  select : Object → TpmtSigScheme → Option TpmtSigScheme
  sign : Object → TpmtSigScheme → Bytes → Except Fault TpmtSignature

section
variable {σ : Type} (C : SeqCrypto σ) (O : OtherSchemes)

/-- `IsSigningObject`. -/
def isSigningObject (key : Object) : Bool :=
  key.publicArea.objectAttributes.sign && decide (key.publicArea.type ≠ .symcipher)

/-- `CryptHashGetDigestSize`: 0 for `TPM_ALG_NULL`. -/
def cryptHashGetDigestSize (hashAlg : Nat) : Nat :=
  ((hashSelector.all.find? fun h => hashSelector.algId h == hashAlg).map HashAlg.digestSize).getD 0

def TpmtPublic.isMldsa (a : TpmtPublic) : Bool := decide (a.type = .mldsa) || decide (a.type = .hashMldsa)

/-- `CryptSelectSignScheme`: the scheme of an ML-DSA key is its type, without a hash. -/
def cryptSelectSignScheme (key : Object) (inScheme : TpmtSigScheme) : Option TpmtSigScheme :=
  if key.publicArea.isMldsa then
    let objectScheme : TpmtSigScheme := ⟨publicSelector.algId key.publicArea.type, TpmAlg.null⟩
    if inScheme.scheme = TpmAlg.null then some objectScheme
    else if objectScheme = inScheme then some inScheme
    else none
  else O.select key inScheme

/-- `CryptMlDsaSign`: the octets of the digest are signed as a message is. -/
def cryptMlDsaSign (key : Object) (digest ctx : Bytes) : Except Fault TpmtSignature :=
  cryptMlDsaSignMessage C key digest ctx

/-- `CryptSign`. -/
def cryptSign (key : Object) (scheme : TpmtSigScheme) (digest : Bytes) : Except Fault TpmtSignature :=
  if key.publicArea.isMldsa then cryptMlDsaSign C key digest [] else O.sign key scheme digest

/-- The check of `TPM2_Sign` on the digest, once a scheme is selected. -/
def signTicketCheck (s : TpmState σ) (key : Object) (scheme : TpmtSigScheme) (digest : Bytes)
    (validation : Ticket) : Except Fault Unit :=
  if validation.hmac.length ≠ 0 ∨ key.publicArea.objectAttributes.restricted = true then
    let ticket := ticketComputeHashCheck C s validation.hierarchy scheme.hashAlg digest
    if validation.hmac ≠ ticket.hmac then .error (.at .ticket 0x340) else .ok ()
  else if digest.length ≠ cryptHashGetDigestSize scheme.hashAlg then .error (.at .size 0x140)
  else .ok ()

/-- `TPM2_Sign`. -/
def tpm2Sign (keyHandle : TpmHandle) (digest : Tpm2bDigest) (inScheme : TpmtSigScheme) (validation : Ticket)
    (s : TpmState σ) : Except Fault Response :=
  match keyObject s keyHandle with
  | .error e => .error e
  | .ok (some (.object key)) =>
      if !isSigningObject key then .error (.at .key 0x100)
      else if key.publicArea.objectAttributes.x509sign then .error (.at .attributes 0x100)
      else match cryptSelectSignScheme O key inScheme with
        | none => .error (.at .scheme 0x240)
        | some scheme =>
            match signTicketCheck C s key scheme digest.buffer validation with
            | .error e => .error e
            | .ok _ => Response.signature <$> cryptSign C O key scheme digest.buffer
  -- a sequence does not have the attribute
  | .ok (some _) => .error (.at .key 0x100)
  | .ok none => .error .failureMode

def TpmtPublic.allowExternalMu (a : TpmtPublic) : Bool :=
  match a with
  | { type := .mldsa, parameters := q, .. } => MldsaParms.allowExternalMu q
  | _ => true

/-- `TPM2_SignDigest`. -/
def signDigest (keyHandle : TpmHandle) (context : Tpm2b 255) (digest : Tpm2bDigest) (validation : Ticket)
    (s : TpmState σ) : Except Fault Response :=
  match keyObject s keyHandle with
  | .error e => .error e
  | .ok (some (.object key)) =>
      if !isSigningObject key then .error (.at .key 0x100)
      else if !key.publicArea.isMldsa then .error (.at .attributes 0x100)
      else if !key.publicArea.allowExternalMu then .error (.at .attributes 0x100)
      else if key.publicArea.objectAttributes.restricted ∧ validation.hierarchy = .null then
        .error (.at .ticket 0x340)
      else Response.signature <$> cryptMlDsaSign C key digest.buffer context.buffer
  | .ok (some _) => .error (.at .key 0x100)
  | .ok none => .error .failureMode

/-! ## Requests -/

/-- What a caller can ask an ML-DSA key to sign. -/
inductive SignRequest
  | signSequenceComplete (sequenceHandle : TpmHandle) (buffer : Tpm2b 1024)
  | signDigest (context : Tpm2b 255) (digest : Tpm2bDigest) (validation : Ticket)
  | sign (digest : Tpm2bDigest) (inScheme : TpmtSigScheme) (validation : Ticket)

namespace SignRequest

def respond (keyHandle : TpmHandle) (s : TpmState σ) : SignRequest → Except Fault Response
  | .signSequenceComplete sequenceHandle buffer =>
      (PqcTpm.signSequenceComplete C sequenceHandle keyHandle buffer s).1
  | .signDigest context digest validation => PqcTpm.signDigest C keyHandle context digest validation s
  | .sign digest inScheme validation => tpm2Sign C O keyHandle digest inScheme validation s

/-- The ticket is one that `TicketComputeHashCheck` gives for the digest. -/
def ValidTicket (s : TpmState σ) (digest : Bytes) (validation : Ticket) : Prop :=
  ∃ hashAlg, validation = ticketComputeHashCheck C s validation.hierarchy hashAlg digest

/-- What is signed cannot pass for something the TPM has made. -/
def Genuine (s : TpmState σ) : SignRequest → Prop
  | .signSequenceComplete _ buffer => ¬ tpmGeneratedValue <+: buffer.buffer
  | .signDigest _ digest validation => ValidTicket C s digest.buffer validation
  | .sign digest _ validation => ValidTicket C s digest.buffer validation

/-- The request gets as far as the primitive: a sign sequence was started with that key handle, or the key takes
digests and the ticket names a hierarchy where the key is restricted. `TPM2_Sign` has checks that these two
ways do not have. -/
def Unchecked (key : Object) (keyHandle : TpmHandle) (s : TpmState σ) : SignRequest → Prop
  | .signSequenceComplete sequenceHandle _ =>
      key.publicArea.signsMldsa ∧
        ∃ i x q, pqcSequenceFromHandle s sequenceHandle = some (i, x, q) ∧ q.isSign = true ∧
          keyHandle = q.keyHandle ∧ q.buffer = []
  | .signDigest _ _ validation =>
      key.publicArea.signsMldsa ∧ key.publicArea.objectAttributes.sign = true ∧
        key.publicArea.allowExternalMu = true ∧
        ¬ (key.publicArea.objectAttributes.restricted = true ∧ validation.hierarchy = .null)
  | .sign _ _ _ => False

/-- The primitive signs what the request brings. -/
def Signed (key : Object) (s : TpmState σ) : SignRequest → Prop
  | .signSequenceComplete sequenceHandle buffer =>
      ∃ i x q, pqcSequenceFromHandle s sequenceHandle = some (i, x, q) ∧
        ∃ sig, cryptMlDsaSignMessage C key buffer.buffer q.context.buffer = .ok sig
  | .signDigest context digest _ => ∃ sig, cryptMlDsaSign C key digest.buffer context.buffer = .ok sig
  | .sign _ _ _ => False

end SignRequest

end

section
variable {σ : Type} {C : SeqCrypto σ} {O : OtherSchemes} {s : TpmState σ} {keyHandle : TpmHandle} {key : Object}

/-- A restricted ML-DSA key signs in `TPM2_Sign` only with the ticket recomputed. -/
theorem tpm2Sign_ticket {digest : Tpm2bDigest} {inScheme : TpmtSigScheme} {validation : Ticket}
    {resp : Response} (hk : keyGiven s keyHandle = some key)
    (hr : key.publicArea.objectAttributes.restricted = true)
    (hok : tpm2Sign C O keyHandle digest inScheme validation s = .ok resp) :
    SignRequest.ValidTicket C s digest.buffer validation := by
  unfold tpm2Sign at hok
  simp only [keyGiven_eq_some hk] at hok
  split at hok
  · cases hok
  · split at hok
    · cases hok
    · split at hok
      · cases hok
      · rename_i scheme _
        split at hok
        · cases hok
        · rename_i hcheck
          unfold signTicketCheck at hcheck
          rw [if_pos (.inr hr)] at hcheck
          dsimp only at hcheck
          split at hcheck
          · cases hcheck
          · rename_i heq
            refine ⟨scheme.hashAlg, ?_⟩
            cases validation with
            | mk hierarchy hmac =>
                rw [not_not] at heq
                rw [ticketComputeHashCheck, Ticket.mk.injEq]
                exact ⟨rfl, heq⟩

theorem isSigningObject_of_isMldsa (ht : key.publicArea.isMldsa = true) :
    isSigningObject key = key.publicArea.objectAttributes.sign := by
  have hne : key.publicArea.type ≠ .symcipher := by
    intro hsym
    simp [TpmtPublic.isMldsa, hsym] at ht
  simp [isSigningObject, hne]

theorem TpmtPublic.signsMldsa.isMldsa {a : TpmtPublic} (h : a.signsMldsa) : a.isMldsa = true := by
  obtain ⟨⟨set, hset⟩, -⟩ := h
  unfold TpmtPublic.mldsaParameterSet? at hset
  split at hset
  · rfl
  · rfl
  · cases hset

theorem signDigest_ok_iff {context : Tpm2b 255} {digest : Tpm2bDigest} {validation : Ticket}
    (hk : keyGiven s keyHandle = some key) :
    (∃ resp, signDigest C keyHandle context digest validation s = .ok resp) ↔
      (SignRequest.signDigest context digest validation).Unchecked key keyHandle s ∧
        (SignRequest.signDigest context digest validation).Signed C key s := by
  constructor
  · rintro ⟨resp, h⟩
    simp only [signDigest, keyGiven_eq_some hk] at h
    split at h
    · cases h
    split at h
    · cases h
    split at h
    · cases h
    split at h
    · cases h
    rename_i hsigning hmldsa hmu hticket
    rw [Bool.not_eq_true', Bool.not_eq_false] at hsigning hmldsa hmu
    obtain ⟨sig, hsig, -⟩ := map_eq_ok h
    rw [isSigningObject_of_isMldsa hmldsa] at hsigning
    exact ⟨⟨cryptMlDsaSignMessage_signs hsig, hsigning, hmu, hticket⟩, sig, hsig⟩
  · rintro ⟨⟨hsigns, hsign, hmu, hticket⟩, sig, hsig⟩
    have hmldsa := hsigns.isMldsa
    refine ⟨.signature sig, ?_⟩
    simp only [signDigest, keyGiven_eq_some hk, isSigningObject_of_isMldsa hmldsa, hsign, hmldsa, hmu, hticket, hsig,
      Bool.not_true, Bool.false_eq_true, if_false]
    rfl

theorem signSequenceComplete_succeeds_iff {sequenceHandle : TpmHandle} {buffer : Tpm2b 1024}
    (hk : keyGiven s keyHandle = some key) :
    (∃ resp, (signSequenceComplete C sequenceHandle keyHandle buffer s).1 = .ok resp) ↔
      (SignRequest.signSequenceComplete sequenceHandle buffer).Unchecked key keyHandle s ∧
        (SignRequest.signSequenceComplete sequenceHandle buffer).Signed C key s := by
  cases hfind : pqcSequenceFromHandle s sequenceHandle with
  | none => simp [signSequenceComplete, SignRequest.Unchecked, hfind]
  | some found =>
      obtain ⟨i, x, q⟩ := found
      rw [signSequenceComplete_ok_iff hfind]
      constructor
      · rintro ⟨hsign, hhandle, key', hk', hbuf, sig, hsig⟩
        obtain rfl := Option.some.inj (hk.symm.trans hk')
        exact ⟨⟨cryptMlDsaSignMessage_signs hsig, i, x, q, hfind, hsign, hhandle, hbuf⟩, i, x, q, hfind, sig, hsig⟩
      · rintro ⟨⟨-, i₁, x₁, q₁, hfind₁, hsign, hhandle, hbuf⟩, i₂, x₂, q₂, hfind₂, hsig⟩
        rw [hfind] at hfind₁ hfind₂
        cases hfind₁
        cases hfind₂
        exact ⟨hsign, hhandle, key, hk, hbuf, hsig⟩

theorem signed_lenient {request : SignRequest} (h : request.Unchecked key keyHandle s) :
    request.Signed (C.withEvp .lenient) key s := by
  cases request with
  | signSequenceComplete sequenceHandle buffer =>
      obtain ⟨hsigns, i, x, q, hfind, -⟩ := h
      exact ⟨i, x, q, hfind, cryptMlDsaSignMessage_lenient hsigns _ _⟩
  | signDigest context digest validation => exact cryptMlDsaSignMessage_lenient h.1 _ _
  | sign digest inScheme validation => exact h

theorem exists_evp_iff {request : SignRequest} {succeeds : EvpCalls → Prop}
    (h : ∀ evp, succeeds evp ↔ request.Unchecked key keyHandle s ∧ request.Signed (C.withEvp evp) key s) :
    (∃ evp, succeeds evp) ↔ request.Unchecked key keyHandle s := by
  constructor
  · rintro ⟨evp, hok⟩
    exact ((h evp).mp hok).1
  · intro hunchecked
    exact ⟨.lenient, (h .lenient).mpr ⟨hunchecked, signed_lenient hunchecked⟩⟩

/-- What a restricted key signs is genuine, whatever the primitive does, exactly where the request is genuine
or one of the checks turns it down: `TPM2_Sign` has the check, the two others do not. -/
theorem restricted_genuine_iff (request : SignRequest) (hk : keyGiven s keyHandle = some key)
    (hr : key.publicArea.objectAttributes.restricted = true) :
    (∀ evp, (∃ resp, request.respond (C.withEvp evp) O keyHandle s = .ok resp) → request.Genuine C s) ↔
      (request.Unchecked key keyHandle s → request.Genuine C s) := by
  rw [← exists_imp]
  cases request with
  | signSequenceComplete sequenceHandle buffer =>
      exact imp_congr (exists_evp_iff fun evp => signSequenceComplete_succeeds_iff hk) Iff.rfl
  | signDigest context digest validation => exact imp_congr (exists_evp_iff fun evp => signDigest_ok_iff hk) Iff.rfl
  | sign digest inScheme validation =>
      constructor
      · intro _ hunchecked
        exact hunchecked.elim
      · rintro _ ⟨evp, resp, hok⟩
        exact tpm2Sign_ticket (C := C.withEvp evp) hk hr hok

end

/-! ## What a restricted key signs -/

/-- A restricted key is loaded and a sign sequence started on it. -/
def restrictedStarted : TpmState Unit :=
  run (step toyPlatform toyCrypto) {}
    [.command ⟨.load (mldsaKey firstName true), []⟩,
     .command ⟨.signSequenceStart .empty .empty, [slotHandle 0]⟩]

/-- The first octets of a quote: the magic and `TPM_ST_ATTEST_QUOTE`. -/
def quoteHeader : Tpm2b 1024 := ⟨[0xFF, 0x54, 0x43, 0x47, 0x80, 0x18], by decide⟩

def noOtherSchemes : OtherSchemes := ⟨fun _ _ => none, fun _ _ _ => .error .failureMode⟩

/-- The restricted key signs a message that begins as an attestation does. -/
theorem restricted_signs_quote :
    Reachable TpmState.IsInitial (fun s s' => ∃ e, s' = step toyPlatform toyCrypto s e) restrictedStarted ∧
      ∃ key, keyGiven restrictedStarted (slotHandle 0) = some key ∧ key.publicArea.type = .mldsa ∧
        key.publicArea.objectAttributes.restricted = true ∧
        (∃ resp, (SignRequest.signSequenceComplete (slotHandle 1) quoteHeader).respond toyCrypto noOtherSchemes
          (slotHandle 0) restrictedStarted = .ok resp) ∧
        ¬ (SignRequest.signSequenceComplete (slotHandle 1) quoteHeader).Genuine toyCrypto restrictedStarted := by
  refine ⟨Reachable.of_run ⟨fun _ => rfl, rfl⟩ _, _, rfl, rfl, rfl, ⟨_, rfl⟩, fun h => h ?_⟩
  exact ⟨[0x80, 0x18], rfl⟩

def plainMessage : Tpm2b 1024 := ⟨[0x61, 0x62, 0x63, 0x64], by decide⟩

theorem restricted_signs_plain :
    ∃ key, keyGiven restrictedStarted (slotHandle 0) = some key ∧
      (SignRequest.signSequenceComplete (slotHandle 1) plainMessage).Unchecked key (slotHandle 0) restrictedStarted ∧
      ((∃ resp, (SignRequest.signSequenceComplete (slotHandle 1) plainMessage).respond toyCrypto noOtherSchemes
          (slotHandle 0) restrictedStarted = .ok resp) →
        (SignRequest.signSequenceComplete (slotHandle 1) plainMessage).Genuine toyCrypto restrictedStarted) := by
  refine ⟨_, rfl, ⟨⟨⟨_, rfl⟩, rfl⟩, _, _, _, rfl, rfl, rfl, rfl⟩, ?_⟩
  have hplain : (SignRequest.signSequenceComplete (slotHandle 1) plainMessage).Genuine toyCrypto
      restrictedStarted := by
    change ¬ tpmGeneratedValue <+: [0x61, 0x62, 0x63, 0x64]
    decide
  exact (restricted_genuine_iff (C := toyCrypto) _ rfl rfl).mpr (fun _ => hplain) toyCrypto.toEvpCalls

end PqcTpm
