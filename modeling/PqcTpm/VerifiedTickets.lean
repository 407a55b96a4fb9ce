import PqcTpm.PolicySession
import PqcTpm.Signing

/-!
# Tickets of verified signatures

`TicketComputeVerified` of `Ticket.c`, the three commands that hand out a `TPMT_TK_VERIFIED`, and the
check of such a ticket by `TPM2_PolicyAuthorize`. What goes into the HMAC of a ticket is written
without lengths, and the HMAC is all that the check compares.
-/
namespace PqcTpm
open ByteCodec Transition

namespace TpmSt

def verified : Nat := 0x8022
def authSecret : Nat := 0x8023
def authSigned : Nat := 0x8025
def messageVerified : Nat := 0x8026
def digestVerified : Nat := 0x8027

end TpmSt

/-- `TPMT_TK_VERIFIED`; the metadata belongs to `TPM_ST_DIGEST_VERIFIED`, and `none` is `TPM_ALG_NULL`. -/
structure TpmtTkVerified where
  tag : Nat
  hierarchy : Hierarchy
  metadata : Option HashAlg := none
  hmac : Bytes
  deriving DecidableEq

/-- What `TicketComputeVerified` feeds to the HMAC. -/
def verifiedInput (digest keyName : Bytes) : Bytes := be 2 TpmSt.verified ++ (digest ++ keyName)

section
variable {σ : Type} (C : SeqCrypto σ) (H : PolicyHash)

/-! ## The commands that issue them -/

/-- `TicketComputeVerified`. -/
def ticketComputeVerified (s : TpmState σ) (hierarchy : Hierarchy) (digest keyName : Bytes) : TpmtTkVerified where
  tag := TpmSt.verified
  hierarchy
  hmac := C.hmac (s.proof hierarchy) (verifiedInput digest keyName)

/-- `CryptValidateSignature`; `other` is what the RSA, ECC and HMAC checks say. -/
def cryptValidateSignature (key : Object) (digest : Bytes) (signature : TpmtSignature) (other : Option RcCode) :
    Option RcCode :=
  if key.publicArea.isMldsa then cryptMlDsaValidateSignatureMessage C signature key.publicArea digest [] else other

/-- Where no ticket can be computed, one without an HMAC is given. -/
def Object.unticketed (key : Object) : Bool :=
  decide (key.hierarchy = .null) || decide (key.publicArea.nameAlg = none)

/-- `TPM2_VerifySignature`. -/
def verifySignature (keyHandle : TpmHandle) (digest : Tpm2bDigest) (signature : TpmtSignature)
    (other : Option RcCode) (s : TpmState σ) : Except Fault TpmtTkVerified :=
  match keyObject s keyHandle with
  | .error e => .error e
  | .ok (some (.object key)) =>
      if !key.publicArea.objectAttributes.sign then .error (.at .attributes 0x100)
      else match cryptValidateSignature C key digest.buffer signature other with
        | some c => .error (rcSafeAddToResult 0x240 (.of c))
        | none =>
            .ok (if key.unticketed then { tag := TpmSt.verified, hierarchy := .null, hmac := [] }
              else ticketComputeVerified C s key.hierarchy digest.buffer key.name.buffer)
  -- a sequence does not have the attribute
  | .ok (some _) => .error (.at .attributes 0x100)
  | .ok none => .error .failureMode

/-- `TPM2_VerifyDigestSignature`: the ticket is that of `TPM2_VerifySignature` under another tag. `hash` is
the algorithm that a HashML-DSA signature names. -/
def verifyDigestSignature (keyHandle : TpmHandle) (context : Tpm2b 255) (digest : Tpm2bDigest)
    (signature : TpmtSignature) (hash : HashAlg) (s : TpmState σ) : Except Fault TpmtTkVerified :=
  match keyObject s keyHandle with
  | .error e => .error e
  | .ok (some (.object key)) =>
      if !key.publicArea.objectAttributes.sign then .error (.at .attributes 0x100)
      else if !key.publicArea.allowExternalMu then .error (.at .attributes 0x100)
      else match cryptMlDsaValidateSignatureMessage C signature key.publicArea digest.buffer context.buffer with
        | some c => .error (rcSafeAddToResult 0x340 (.of c))
        | none =>
            .ok (if key.unticketed then { tag := TpmSt.digestVerified, hierarchy := .null, hmac := [] }
              else
                { ticketComputeVerified C s key.hierarchy digest.buffer key.name.buffer with
                  tag := TpmSt.digestVerified
                  metadata := if signature.sigAlg = .hashMldsa then some hash else none })
  | .ok (some _) => .error (.at .attributes 0x100)
  | .ok none => .error .failureMode

/-- A command that verifies a signature, without its key handle. -/
inductive VerifyRequest
  | verifySignature (digest : Tpm2bDigest) (signature : TpmtSignature) (other : Option RcCode)
  | verifyDigestSignature (context : Tpm2b 255) (digest : Tpm2bDigest) (signature : TpmtSignature) (hash : HashAlg)
  | verifySequenceComplete (sequenceHandle : TpmHandle) (signature : TpmtSignature)

/-- The ticket in the response. -/
def VerifyRequest.ticket (keyHandle : TpmHandle) (s : TpmState σ) : VerifyRequest → Except Fault TpmtTkVerified
  | .verifySignature digest signature other => PqcTpm.verifySignature C keyHandle digest signature other s
  | .verifyDigestSignature context digest signature hash =>
      PqcTpm.verifyDigestSignature C keyHandle context digest signature hash s
  | .verifySequenceComplete sequenceHandle signature =>
      match (PqcTpm.verifySequenceComplete C sequenceHandle keyHandle signature s).1 with
      | .ok (.verified t) => .ok { tag := TpmSt.messageVerified, hierarchy := t.hierarchy, hmac := t.hmac }
      | .ok _ => .error .failureMode
      | .error e => .error e

/-! ## What a ticket says -/

/-- What a ticket is about, with the command that issues it. -/
inductive TicketContent
  | verified (digest name : Bytes)
  | digestVerified (digest : Bytes) (metadata : Option HashAlg) (name : Bytes)
  | messageVerified (hierarchy : Hierarchy) (name : Bytes)
  deriving DecidableEq

namespace TicketContent

def name : TicketContent → Bytes
  | .verified _ n | .digestVerified _ _ n | .messageVerified _ n => n

def isVerified : TicketContent → Bool
  | .verified _ _ => true
  | _ => false

/-- What the issuing command feeds to the HMAC. -/
def hmacInput : TicketContent → Bytes
  | .verified d n | .digestVerified d _ n => verifiedInput d n
  | .messageVerified h n => be 2 TpmSt.messageVerified ++ (writeUint32 h.handle ++ n)

/-- Two contents do not run together to the same octets. -/
def Unambiguous : TicketContent → TicketContent → Prop
  | .verified d n, .verified d' n' => d ++ n ≠ d' ++ n' ∨ n.length = n'.length
  | .digestVerified d m n, .digestVerified d' m' n' => d ++ n ≠ d' ++ n' ∨ m = m' ∧ n.length = n'.length
  | .verified d n, .digestVerified d' _ n' | .digestVerified d _ n, .verified d' n' => d ++ n ≠ d' ++ n'
  | .messageVerified _ _, _ | _, .messageVerified _ _ => True

theorem verifiedInput_inj {d n d' n' : Bytes} : verifiedInput d n = verifiedInput d' n' ↔ d ++ n = d' ++ n' :=
  List.append_right_inj _

/-- The tag comes first, so no HMAC over another tag serves as one over `TPM_ST_VERIFIED`. -/
theorem verifiedInput_ne {tag : Nat} {rest d n : Bytes} (htag : tag < 256 ^ 2) (hne : tag ≠ TpmSt.verified) :
    be 2 tag ++ rest ≠ verifiedInput d n := by
  intro h
  have hbe : be 2 tag = be 2 TpmSt.verified := (List.append_inj h (by simp only [be_length])).1
  apply hne
  rw [← fromBe_be htag, hbe, fromBe_be (by decide)]

theorem append_inj_iff {d n d' n' : Bytes} (hlen : n.length = n'.length) :
    d ++ n = d' ++ n' ↔ d = d' ∧ n = n' :=
  ⟨fun h => List.append_inj' h hlen, by rintro ⟨rfl, rfl⟩; rfl⟩

theorem writeHandle_inj {h h' : Hierarchy} (heq : writeUint32 h.handle = writeUint32 h'.handle) : h = h' := by
  cases h <;> cases h' <;> first | rfl | exact absurd heq (by decide)

/-- Different contents have different HMAC inputs exactly where they do not run together. -/
theorem separated_iff (x y : TicketContent) :
    (x ≠ y → x.hmacInput ≠ y.hmacInput) ↔ Unambiguous x y := by
  cases x with
  | verified d n =>
      cases y with
      | verified d' n' =>
          simp only [hmacInput, Unambiguous, ne_eq, verifiedInput_inj, verified.injEq]
          by_cases hlen : n.length = n'.length
          · simp only [append_inj_iff hlen, hlen, or_true, imp_self]
          · have hne : ¬ (d = d' ∧ n = n') := fun h => hlen (by rw [h.2])
            simp only [hne, hlen, not_false_eq_true, true_implies, or_false]
      | digestVerified d' m' n' =>
          simp only [hmacInput, Unambiguous, ne_eq, verifiedInput_inj, reduceCtorEq, not_false_eq_true, true_implies]
      | messageVerified h' n' =>
          exact ⟨fun _ => trivial, fun _ _ h => verifiedInput_ne (by decide) (by decide) h.symm⟩
  | digestVerified d m n =>
      cases y with
      | verified d' n' =>
          simp only [hmacInput, Unambiguous, ne_eq, verifiedInput_inj, reduceCtorEq, not_false_eq_true, true_implies]
      | digestVerified d' m' n' =>
          simp only [hmacInput, Unambiguous, ne_eq, verifiedInput_inj, digestVerified.injEq]
          by_cases hlen : n.length = n'.length
          · simp only [append_inj_iff hlen, hlen, and_true]
            tauto
          · have hne : ¬ (d = d' ∧ m = m' ∧ n = n') := fun h => hlen (by rw [h.2.2])
            simp only [hne, hlen, not_false_eq_true, true_implies, and_false, or_false]
      | messageVerified h' n' =>
          exact ⟨fun _ => trivial, fun _ _ h => verifiedInput_ne (by decide) (by decide) h.symm⟩
  | messageVerified h n =>
      cases y with
      | verified d' n' => exact ⟨fun _ => trivial, fun _ _ h => verifiedInput_ne (by decide) (by decide) h⟩
      | digestVerified d' m' n' => exact ⟨fun _ => trivial, fun _ _ h => verifiedInput_ne (by decide) (by decide) h⟩
      | messageVerified h' n' =>
          refine ⟨fun _ => trivial, fun _ hne heq => hne ?_⟩
          have hrest := List.append_cancel_left heq
          obtain ⟨hh, hn⟩ := List.append_inj hrest (by simp only [writeUint32, be_length])
          rw [writeHandle_inj hh, hn]

end TicketContent

/-- What a request's ticket is about when it succeeds. -/
def VerifyRequest.content (key : Object) : VerifyRequest → TicketContent
  | .verifySignature digest _ _ => .verified digest.buffer key.name.buffer
  | .verifyDigestSignature _ digest signature hash =>
      .digestVerified digest.buffer (if signature.sigAlg = .hashMldsa then some hash else none) key.name.buffer
  | .verifySequenceComplete _ _ => .messageVerified key.hierarchy key.name.buffer

/-- A ticket with an HMAC, and the command that issued it. -/
structure TicketIssue where
  state : TpmState σ
  keyHandle : TpmHandle
  request : VerifyRequest
  key : Object
  ticket : TpmtTkVerified
  given : keyGiven state keyHandle = some key
  ticketed : key.unticketed = false
  succeeds : request.ticket C keyHandle state = .ok ticket

namespace TicketIssue
variable {C} (x : TicketIssue C)

def content : TicketContent := x.request.content x.key

theorem verifySignature_hmac {digest : Tpm2bDigest} {signature : TpmtSignature} {other : Option RcCode}
    (h : verifySignature C x.keyHandle digest signature other x.state = .ok x.ticket) :
    x.ticket.hmac = C.hmac (x.state.proof x.key.hierarchy) (verifiedInput digest.buffer x.key.name.buffer) := by
  simp only [verifySignature, keyGiven_eq_some x.given, x.ticketed, Bool.false_eq_true, if_false] at h
  split at h
  · cases h
  · split at h
    · cases h
    · rw [← Except.ok.inj h]
      rfl

theorem verifyDigestSignature_hmac {context : Tpm2b 255} {digest : Tpm2bDigest} {signature : TpmtSignature}
    {hash : HashAlg}
    (h : verifyDigestSignature C x.keyHandle context digest signature hash x.state = .ok x.ticket) :
    x.ticket.hmac = C.hmac (x.state.proof x.key.hierarchy) (verifiedInput digest.buffer x.key.name.buffer) := by
  simp only [verifyDigestSignature, keyGiven_eq_some x.given, x.ticketed, Bool.false_eq_true, if_false] at h
  split at h
  · cases h
  · split at h
    · cases h
    · split at h
      · cases h
      · rw [← Except.ok.inj h]
        rfl

theorem verifySequenceComplete_hmac {sequenceHandle : TpmHandle} {signature : TpmtSignature}
    (h : (VerifyRequest.verifySequenceComplete sequenceHandle signature).ticket C x.keyHandle x.state = .ok x.ticket) :
    x.ticket.hmac = C.hmac (x.state.proof x.key.hierarchy)
      (TicketContent.messageVerified x.key.hierarchy x.key.name.buffer).hmacInput := by
  simp only [VerifyRequest.ticket] at h
  split at h
  · rename_i t hverified
    cases hfind : pqcSequenceFromHandle x.state sequenceHandle with
    | none =>
        simp only [verifySequenceComplete, hfind] at hverified
        cases hverified
    | some found =>
        obtain ⟨i, y, q⟩ := found
        obtain ⟨hsign, hhandle, key, hkey, hvalid⟩ := (verifySequenceComplete_ok_iff hfind).mp ⟨_, hverified⟩
        obtain rfl : x.key = key := Option.some.inj (x.given.symm.trans hkey)
        rw [verifySequenceComplete_verified hfind hsign hhandle hkey hvalid] at hverified
        have hticket : ticketMessageVerified C x.state x.key = t := by
          injection Except.ok.inj hverified
        have hnull : ¬ (x.key.hierarchy = .null ∨ x.key.publicArea.nameAlg = none) := by
          have hticketed := x.ticketed
          simp only [Object.unticketed, Bool.or_eq_false_iff, decide_eq_false_iff_not] at hticketed
          tauto
        rw [← Except.ok.inj h, ← hticket, ticketMessageVerified, if_neg hnull]
        rfl
  · cases h
  · cases h

/-- Whatever the command, the HMAC is over the input of its content under the proof of the hierarchy. -/
theorem ticket_hmac : x.ticket.hmac = C.hmac (x.state.proof x.key.hierarchy) x.content.hmacInput := by
  have hsucceeds := x.succeeds
  unfold content
  cases hr : x.request with
  | verifySignature digest signature other =>
      rw [hr] at hsucceeds
      exact x.verifySignature_hmac hsucceeds
  | verifyDigestSignature context digest signature hash =>
      rw [hr] at hsucceeds
      exact x.verifyDigestSignature_hmac hsucceeds
  | verifySequenceComplete sequenceHandle signature =>
      rw [hr] at hsucceeds
      exact x.verifySequenceComplete_hmac hsucceeds

end TicketIssue

/-! ## The command that checks them -/

/-- The parameters of `TPM2_PolicyAuthorize`. -/
structure PolicyAuthorizeIn where
  approvedPolicy : Bytes
  policyRef : Bytes
  keySign : Bytes
  checkTicket : TpmtTkVerified

namespace PolicyAuthorizeIn
variable (p : PolicyAuthorizeIn)

/-- The algorithm that `keySign` names, once its size is right for it. -/
def keySignAlg : Except Fault HashAlg :=
  if p.keySign.length < 2 then .error (.at .size 0x340)
  else
    match hashSelector.all.find? fun h => hashSelector.algId h == fromBe (p.keySign.take 2) with
    | none => .error (.at .hash 0x340)
    | some alg => if alg.digestSize ≠ p.keySign.length - 2 then .error (.at .size 0x340) else .ok alg

/-- The digest that the authorizing key signs. -/
def aHash (alg : HashAlg) : Bytes := H.hash alg (p.approvedPolicy ++ p.policyRef)

/-- The ticket is computed anew and its HMAC compared. -/
def ticketCheck (s : TpmState σ) (alg : HashAlg) : Except Fault Unit :=
  let ticket := ticketComputeVerified C s p.checkTicket.hierarchy (p.aHash H alg) p.keySign
  demand (p.checkTicket.hmac == ticket.hmac) (.at .value 0x440)

/-- `TPM2_PolicyAuthorize`. -/
def execute (s : TpmState σ) (session : Session) : PolicyOutcome :=
  policyAuthorize H p.approvedPolicy p.policyRef p.keySign (p.keySignAlg.map fun _ => ())
    (p.keySignAlg >>= p.ticketCheck C H s) session

theorem execute_ok {s : TpmState σ} {session : Session} (htrial : session.attributes.isTrialPolicy = false)
    (h : (p.execute C H s session).1 = .ok ()) :
    ∃ alg, p.keySignAlg = .ok alg ∧
      p.checkTicket.hmac = C.hmac (s.proof p.checkTicket.hierarchy) (verifiedInput (p.aHash H alg) p.keySign) := by
  cases halg : p.keySignAlg with
  | error e =>
      simp only [execute, policyAuthorize, halg] at h
      cases h
  | ok alg =>
      refine ⟨alg, rfl, ?_⟩
      simp only [execute, policyAuthorize, halg, htrial, Bool.false_eq_true, if_false] at h
      split at h
      · cases h
      · rename_i u hchecks
        obtain ⟨_, _, hchecks⟩ := bind_eq_ok hchecks
        obtain ⟨_, _, hcheck⟩ := bind_eq_ok hchecks
        exact eq_of_beq (demand_eq_ok hcheck)

end PolicyAuthorizeIn

/-! ## Which ticket was issued -/

/-- The HMAC does not take the two inputs to one value unless they are one input under one key. -/
def SeqCrypto.TellsApart (proof input proof' input' : Bytes) : Prop :=
  C.hmac proof input = C.hmac proof' input' → proof = proof' ∧ input = input'

/-- Tickets with different contents have different HMAC inputs exactly where the contents do not run
together; and the ticket that lets `TPM2_PolicyAuthorize` succeed was issued by `TPM2_VerifySignature` for
the digest and the Name that the command computes exactly if that command issued it, for a Name as long as
`keySign`. -/
theorem verified_tickets_separated_iff (x y : TicketIssue C) :
    ((x.content ≠ y.content → x.content.hmacInput ≠ y.content.hmacInput) ↔ x.content.Unambiguous y.content) ∧
      ∀ (p : PolicyAuthorizeIn) (s : TpmState σ) (session : Session) (alg : HashAlg),
        session.attributes.isTrialPolicy = false → p.keySignAlg = .ok alg → (p.execute C H s session).1 = .ok () →
          p.checkTicket.hmac = x.ticket.hmac →
          C.TellsApart (s.proof p.checkTicket.hierarchy) (verifiedInput (p.aHash H alg) p.keySign)
            (x.state.proof x.key.hierarchy) x.content.hmacInput →
          (x.content = .verified (p.aHash H alg) p.keySign ↔
            x.content.isVerified = true ∧ x.content.name.length = p.keySign.length) := by
  refine ⟨TicketContent.separated_iff _ _, fun p s session alg htrial halg hok hticket happart => ?_⟩
  obtain ⟨alg', halg', hhmac⟩ := p.execute_ok C H htrial hok
  obtain rfl : alg = alg' := Except.ok.inj (halg.symm.trans halg')
  have hinput := (happart (hhmac.symm.trans (hticket.trans x.ticket_hmac))).2
  constructor
  · intro hcontent
    rw [hcontent]
    exact ⟨rfl, rfl⟩
  · rintro ⟨hverified, hlen⟩
    cases hx : x.content with
    | verified d n =>
        rw [hx] at hinput hlen
        obtain ⟨rfl, rfl⟩ := (TicketContent.append_inj_iff hlen.symm).mp (TicketContent.verifiedInput_inj.mp hinput)
        rfl
    | digestVerified d m n =>
        rw [hx] at hverified
        cases hverified
    | messageVerified h n =>
        rw [hx] at hverified
        cases hverified

end

/-! ## One HMAC for two commands -/

/-- SHA-256 of 32 zeros, the aHash for an empty `policyRef` on a fresh session. -/
def zerosDigest : Bytes := be 32 0x66687aadf862bd776c8fc18b8e9f8e20089714856ee233b3902a591d0d5f2925

theorem zerosDigest_fits : zerosDigest.length ≤ 64 := by decide

def zerosHash : PolicyHash where
  hash alg data :=
    if alg = .sha256 ∧ data = List.replicate 32 0 then zerosDigest else List.replicate alg.digestSize 0
  length_eq alg data := by
    split
    · rename_i h
      rw [h.1]
      rfl
    · exact List.length_replicate

def signerName : Tpm2bName := ⟨be 2 0x000B ++ List.replicate 32 0x5A, by decide⟩

/-- A HashML-DSA key. -/
def hashMldsaKey : Object :=
  { mldsaKey signerName false with
    publicArea :=
      { type := .hashMldsa
        nameAlg := some .sha256
        objectAttributes := { userWithAuth := true, sign := true }
        authPolicy := .empty
        parameters := (⟨.mldsa44, .sha256⟩ : HashMldsaParms)
        unique := (Tpm2b.empty : Tpm2b 2592) }
    sensitive :=
      { authValue := .empty
        seedValue := .empty
        sensitive := some ⟨.hashMldsa, .empty⟩
        public_only := nofun } }

def signerLoaded : TpmState Unit := ({} : TpmState Unit).setSlot 0 (.object hashMldsaKey)

def signedZeros : TpmtSignature := ⟨.hashMldsa, toySignature zerosDigest []⟩

theorem signedZeros_accepted :
    cryptMlDsaValidateSignatureMessage toyCrypto signedZeros hashMldsaKey.publicArea zerosDigest [] = none :=
  toySignature_accepted zerosDigest [] rfl rfl (.inr rfl)

/-- `TPM2_VerifySignature` on the digest. -/
def issuedAsVerified : TicketIssue toyCrypto where
  state := signerLoaded
  keyHandle := slotHandle 0
  request := .verifySignature ⟨zerosDigest, zerosDigest_fits⟩ signedZeros none
  key := hashMldsaKey
  ticket := ticketComputeVerified toyCrypto signerLoaded .owner zerosDigest signerName.buffer
  given := rfl
  ticketed := rfl
  succeeds := by
    have hkey : keyObject signerLoaded (slotHandle 0) = .ok (some (.object hashMldsaKey)) := rfl
    have hmldsa : hashMldsaKey.publicArea.isMldsa = true := rfl
    simp only [VerifyRequest.ticket, verifySignature, hkey, cryptValidateSignature, hmldsa, if_true, signedZeros_accepted]
    rfl

/-- `TPM2_VerifyDigestSignature` on the digest. -/
def issuedAsDigestVerified : TicketIssue toyCrypto where
  state := signerLoaded
  keyHandle := slotHandle 0
  request := .verifyDigestSignature .empty ⟨zerosDigest, zerosDigest_fits⟩ signedZeros .sha256
  key := hashMldsaKey
  ticket :=
    { ticketComputeVerified toyCrypto signerLoaded .owner zerosDigest signerName.buffer with
      tag := TpmSt.digestVerified, metadata := some .sha256 }
  given := rfl
  ticketed := rfl
  succeeds := by
    have hkey : keyObject signerLoaded (slotHandle 0) = .ok (some (.object hashMldsaKey)) := rfl
    have hctx : (Tpm2b.empty : Tpm2b 255).buffer = [] := rfl
    simp only [VerifyRequest.ticket, verifyDigestSignature, hkey, hctx, signedZeros_accepted]
    rfl

/-- The HMAC of the second ticket under the tag of the first. -/
def relabelledTicket : PolicyAuthorizeIn where
  approvedPolicy := List.replicate 32 0
  policyRef := []
  keySign := signerName.buffer
  checkTicket := { issuedAsDigestVerified.ticket with tag := TpmSt.verified, metadata := none }

def freshPolicySession : Session :=
  { attributes := { isPolicy := true }, authHashAlg := .sha256, policyDigest := List.replicate 32 0 }

theorem verifiedTicket_accepted :
    (relabelledTicket.execute toyCrypto zerosHash signerLoaded freshPolicySession).1 = .ok () ∧
      issuedAsVerified.content = .verified (relabelledTicket.aHash zerosHash .sha256) relabelledTicket.keySign := by
  have hok : (relabelledTicket.execute toyCrypto zerosHash signerLoaded freshPolicySession).1 = .ok () := by
    decide +kernel
  refine ⟨hok, ?_⟩
  have hiff := (verified_tickets_separated_iff (C := toyCrypto) zerosHash issuedAsVerified issuedAsVerified).2
    relabelledTicket signerLoaded freshPolicySession .sha256 rfl (by decide +kernel) hok rfl
    fun h => ⟨rfl, h⟩
  exact hiff.mpr ⟨rfl, by decide⟩

theorem digestVerified_passes_as_verified :
    issuedAsVerified.content ≠ issuedAsDigestVerified.content ∧
      issuedAsVerified.content.hmacInput = issuedAsDigestVerified.content.hmacInput ∧
      (relabelledTicket.execute toyCrypto zerosHash signerLoaded freshPolicySession).1 = .ok () ∧
      relabelledTicket.checkTicket.hmac = issuedAsDigestVerified.ticket.hmac ∧
      issuedAsDigestVerified.content.isVerified = false := by
  refine ⟨by decide, rfl, ?_, rfl, rfl⟩
  decide +kernel

end PqcTpm
