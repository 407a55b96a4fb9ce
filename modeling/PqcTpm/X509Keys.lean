import PqcTpm.Protection
import PqcTpm.Signing

/-!
# Keys reserved for X.509 certificates

A key with `x509sign` SET is one for `TPM2_CertifyX509`. `TPM2_Sign` refuses it; the two post-quantum ways to
the private key do not ask.
-/
namespace PqcTpm
open ByteCodec Transition

section
variable {σ : Type} {C : SeqCrypto σ} {O : OtherSchemes} {s : TpmState σ} {keyHandle : TpmHandle} {key : Object}

theorem SignRequest.Unchecked.isMldsa {request : SignRequest} (h : request.Unchecked key keyHandle s) :
    key.publicArea.isMldsa = true := by
  cases request with
  | signSequenceComplete sequenceHandle buffer => exact h.1.isMldsa
  | signDigest context digest validation => exact h.1.isMldsa
  | sign digest inScheme validation => exact h.elim

theorem tpm2Sign_x509 {digest : Tpm2bDigest} {inScheme : TpmtSigScheme} {validation : Ticket}
    (hk : keyGiven s keyHandle = some key) (hx : key.publicArea.objectAttributes.x509sign = true) (resp : Response) :
    tpm2Sign C O keyHandle digest inScheme validation s ≠ .ok resp := by
  intro h
  simp only [tpm2Sign, keyGiven_eq_some hk, hx, if_true] at h
  split at h <;> cases h

/-- No signature is made with a reserved key, whatever the primitive does, exactly where a check that does not
concern `x509sign` turns the request down; so none with a key of another type. -/
theorem x509_key_signs_nothing_iff (request : SignRequest) (hk : keyGiven s keyHandle = some key)
    (hx : key.publicArea.objectAttributes.x509sign = true) :
    ((∀ evp, ¬ ∃ resp, request.respond (C.withEvp evp) O keyHandle s = .ok resp) ↔
        ¬ request.Unchecked key keyHandle s) ∧
      (key.publicArea.isMldsa = false → ¬ ∃ resp, request.respond C O keyHandle s = .ok resp) := by
  have hiff : (∃ evp resp, request.respond (C.withEvp evp) O keyHandle s = .ok resp) ↔
      request.Unchecked key keyHandle s := by
    cases request with
    | signSequenceComplete sequenceHandle buffer => exact exists_evp_iff fun evp => signSequenceComplete_succeeds_iff hk
    | signDigest context digest validation => exact exists_evp_iff fun evp => signDigest_ok_iff hk
    | sign digest inScheme validation =>
        refine iff_of_false ?_ id
        rintro ⟨_, resp, h⟩
        exact tpm2Sign_x509 hk hx resp h
  refine ⟨by rw [← not_exists, hiff], fun hother h => ?_⟩
  cases hother.symm.trans (hiff.mp ⟨C.toEvpCalls, h⟩).isMldsa

end

/-! ## A reserved key in a sign sequence -/

/-- An ML-DSA-44 key with `x509sign`. -/
def reservedKey (allowExternalMu : Bool) : Object :=
  { mldsaKey firstName false with
    publicArea :=
      { type := .mldsa
        nameAlg := some .sha256
        objectAttributes := { userWithAuth := true, sign := true, x509sign := true }
        authPolicy := .empty
        parameters := (⟨.mldsa44, allowExternalMu⟩ : MldsaParms)
        unique := (Tpm2b.empty : Tpm2b 2592) } }

/-- The key takes digests as well. -/
def x509Key : Object := reservedKey true

def x509Undigested : Object := reservedKey false

def x509Started : TpmState Unit :=
  run (step toyPlatform toyCrypto) {}
    [.command ⟨.load x509Key, []⟩, .command ⟨.signSequenceStart .empty .empty, [slotHandle 0]⟩]

/-- A reserved key that takes no digests, with a verify sequence in slot 1. -/
def x509Verifying : TpmState Unit :=
  run (step toyPlatform toyCrypto) {}
    [.command ⟨.load x509Undigested, []⟩, .command ⟨.verifySequenceStart .empty .empty .empty, [slotHandle 0]⟩]

/-- What the checks are that turn requests to a reserved key down. -/
theorem x509Verifying_refused :
    keyGiven x509Verifying (slotHandle 0) = some x509Undigested.asLoaded ∧
      x509Undigested.asLoaded.publicArea.objectAttributes.x509sign = true ∧
      ∀ request ∈ ([.sign .empty ⟨TpmAlg.null, TpmAlg.null⟩ ⟨.null, []⟩, .signDigest .empty .empty ⟨.owner, []⟩,
          .signSequenceComplete (slotHandle 1) plainMessage] : List SignRequest),
        ¬ ∃ resp, request.respond toyCrypto noOtherSchemes (slotHandle 0) x509Verifying = .ok resp := by
  have hrefused (request : SignRequest)
      (h : ¬ request.Unchecked x509Undigested.asLoaded (slotHandle 0) x509Verifying) :
      ¬ ∃ resp, request.respond toyCrypto noOtherSchemes (slotHandle 0) x509Verifying = .ok resp :=
    (x509_key_signs_nothing_iff (C := toyCrypto) request rfl rfl).1.mpr h toyCrypto.toEvpCalls
  refine ⟨rfl, rfl, ?_⟩
  simp only [List.mem_cons, List.not_mem_nil, or_false]
  rintro request (rfl | rfl | rfl)
  · exact hrefused _ id
  · refine hrefused _ fun h => ?_
    cases h.2.2.1
  · refine hrefused _ fun h => ?_
    obtain ⟨-, i, x, q, hfind, hsign, -⟩ := h
    cases hfind
    cases hsign

/-- The template is a valid one, and the two other commands sign what the caller gives. -/
theorem x509_key_signs_message :
    publicAttributesValidation none {} x509Key.publicArea = .ok () ∧
      Reachable TpmState.IsInitial (fun s s' => ∃ e, s' = step toyPlatform toyCrypto s e) x509Started ∧
      keyGiven x509Started (slotHandle 0) = some x509Key.asLoaded ∧
      x509Key.asLoaded.publicArea.objectAttributes.x509sign = true ∧
      (∃ resp, (SignRequest.signSequenceComplete (slotHandle 1) plainMessage).respond toyCrypto noOtherSchemes
        (slotHandle 0) x509Started = .ok resp) ∧
      ∃ resp, (SignRequest.signDigest .empty .empty ⟨.null, []⟩).respond toyCrypto noOtherSchemes (slotHandle 0)
        x509Started = .ok resp :=
  ⟨rfl, Reachable.of_run ⟨fun _ => rfl, rfl⟩ _, rfl, rfl, ⟨_, rfl⟩, ⟨_, rfl⟩⟩

end PqcTpm
