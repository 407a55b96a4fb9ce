import PqcTpm.VerifiedTickets

/-!
# Tickets of policy authorizations

`TicketComputeAuth` of `Ticket.c` with the commands that issue its tickets (`TPM2_PolicySigned`,
`TPM2_PolicySecret`) and the one that takes them (`TPM2_PolicyTicket`). The HMAC is over the fields one
behind the other: their lengths are not part of it.
-/
namespace PqcTpm
open ByteCodec Transition

/-- `TPMT_TK_AUTH`; the tag is `TPM_ST_AUTH_SIGNED` or `TPM_ST_AUTH_SECRET`. -/
structure TpmtTkAuth where
  signed : Bool
  hierarchy : Hierarchy
  digest : Bytes
  deriving DecidableEq

/-- What goes into an authorization ticket. -/
structure AuthContent where
  signed : Bool
  timeout : Nat
  expiresOnReset : Bool
  cpHashA : Bytes
  policyRef : Bytes
  entityName : Bytes
  timeEpoch : Nat
  totalResetCount : Nat
  deriving DecidableEq

/-- The Names of `EntityGetName`: of what has none, of a handle, and of an object or index. -/
inductive EntityName (H : PolicyHash) : Bytes → Prop
  | none : EntityName H []
  | handle (h : TpmHandle) : EntityName H (writeUint32 h)
  | digest (alg : HashAlg) (publicArea : Bytes) :
      EntityName H (be 2 (hashSelector.algId alg) ++ H.hash alg publicArea)

theorem EntityName.length_mem {H : PolicyHash} {name : Bytes} (h : EntityName H name) :
    name.length ∈ [0, 4, 22, 34, 50, 66] := by
  cases h with
  | none => decide
  | handle h => simp only [writeUint32, be_length, List.mem_cons, true_or, or_true]
  | digest alg publicArea =>
      rw [List.length_append, be_length, H.length_eq]
      cases alg <;> decide

namespace AuthContent

def tag (x : AuthContent) : Nat := if x.signed then TpmSt.authSigned else TpmSt.authSecret

/-- The timeout and, unless it is 0, what it is counted by. -/
def tail (x : AuthContent) : Bytes :=
  be 8 x.timeout ++
    if x.timeout = 0 then []
    else be 4 x.timeEpoch ++ if x.expiresOnReset then be 8 x.totalResetCount else []

/-- What `TicketComputeAuth` feeds to the HMAC. -/
def hmacInput (x : AuthContent) : Bytes :=
  be 2 x.tag ++ (x.cpHashA ++ (x.policyRef ++ (x.entityName ++ x.tail)))

/-- The numbers fit their fields; the bit above the timeout is `EXPIRATION_BIT`. -/
structure InRange (x : AuthContent) : Prop where
  timeout : x.timeout < 2 ^ 63
  timeEpoch : x.timeEpoch < 2 ^ 32
  totalResetCount : x.totalResetCount < 2 ^ 64

/-- The same authorization, as far as its ticket goes. -/
structure Same (x y : AuthContent) : Prop where
  signed : x.signed = y.signed
  timeout : x.timeout = y.timeout
  cpHashA : x.cpHashA = y.cpHashA
  policyRef : x.policyRef = y.policyRef
  entityName : x.entityName = y.entityName
  timeEpoch : x.timeout ≠ 0 → x.timeEpoch = y.timeEpoch
  expiresOnReset : x.timeout ≠ 0 → x.expiresOnReset = y.expiresOnReset
  totalResetCount : x.timeout ≠ 0 → x.expiresOnReset = true → x.totalResetCount = y.totalResetCount

variable {x y : AuthContent}

theorem tag_lt (x : AuthContent) : x.tag < 256 ^ 2 := by
  unfold tag
  split <;> decide

theorem signed_of_tag (h : x.tag = y.tag) : x.signed = y.signed := by
  cases hx : x.signed <;> cases hy : y.signed <;> simp only [tag, hx, hy] at h <;>
    first | rfl | exact absurd h (by decide)

theorem be_inj {w n m : Nat} (hn : n < 256 ^ w) (hm : m < 256 ^ w) (h : be w n = be w m) : n = m := by
  rw [← fromBe_be hn, h, fromBe_be hm]

theorem length_tail (x : AuthContent) :
    x.tail.length = if x.timeout = 0 then 8 else if x.expiresOnReset then 20 else 12 := by
  unfold tail
  split
  · simp only [List.append_nil, be_length]
  · split <;> simp only [List.length_append, List.append_nil, be_length]

/-- Two tails are told apart once they are known to be tails. -/
theorem tail_inj (hx : x.InRange) (hy : y.InRange) (h : x.tail = y.tail) :
    x.timeout = y.timeout ∧ (x.timeout ≠ 0 → x.timeEpoch = y.timeEpoch) ∧
      (x.timeout ≠ 0 → x.expiresOnReset = y.expiresOnReset) ∧
      (x.timeout ≠ 0 → x.expiresOnReset = true → x.totalResetCount = y.totalResetCount) := by
  have hlen := congrArg List.length h
  rw [length_tail, length_tail] at hlen
  unfold tail at h
  obtain ⟨htimeout, hrest⟩ := List.append_inj h (by simp only [be_length])
  have heq : x.timeout = y.timeout :=
    be_inj (Nat.lt_of_lt_of_le hx.timeout (by decide)) (Nat.lt_of_lt_of_le hy.timeout (by decide)) htimeout
  refine ⟨heq, ?_⟩
  by_cases hzero : x.timeout = 0
  · exact ⟨fun h => absurd hzero h, fun h => absurd hzero h, fun h => absurd hzero h⟩
  · have hzero' : y.timeout ≠ 0 := heq ▸ hzero
    rw [if_neg hzero, if_neg hzero'] at hrest hlen
    obtain ⟨hepoch, hreset⟩ := List.append_inj hrest (by simp only [be_length])
    have hflag : x.expiresOnReset = y.expiresOnReset := by
      cases hfx : x.expiresOnReset <;> cases hfy : y.expiresOnReset <;>
        simp only [hfx, hfy] at hlen <;> first | rfl | cases hlen
    refine ⟨fun _ => be_inj hx.timeEpoch hy.timeEpoch hepoch, fun _ => hflag, fun _ hf => ?_⟩
    rw [← hflag, hf] at hreset
    exact be_inj hx.totalResetCount hy.totalResetCount hreset

theorem same_of_lengths (hx : x.InRange) (hy : y.InRange) (hcpHashA : x.cpHashA.length = y.cpHashA.length)
    (hpolicyRef : x.policyRef.length = y.policyRef.length) (hname : x.entityName.length = y.entityName.length)
    (h : x.hmacInput = y.hmacInput) : Same x y := by
  unfold hmacInput at h
  obtain ⟨htag, h⟩ := List.append_inj h (by simp only [be_length])
  obtain ⟨hcp, h⟩ := List.append_inj h hcpHashA
  obtain ⟨href, h⟩ := List.append_inj h hpolicyRef
  obtain ⟨hn, htail⟩ := List.append_inj h hname
  obtain ⟨htimeout, hepoch, hflag, hreset⟩ := tail_inj hx hy htail
  exact ⟨signed_of_tag (be_inj x.tag_lt y.tag_lt htag), htimeout, hcp, href, hn, hepoch, hflag, hreset⟩

/-- What follows a Name is 12 or 20 octets long, and no two Names differ by 8 octets. -/
theorem name_length_eq {H : PolicyHash} (hx : EntityName H x.entityName) (hy : EntityName H y.entityName)
    (hcpHashA : x.cpHashA.length = y.cpHashA.length) (hpolicyRef : x.policyRef.length = y.policyRef.length)
    (htx : x.timeout ≠ 0) (hty : y.timeout ≠ 0) (h : x.hmacInput = y.hmacInput) :
    x.entityName.length = y.entityName.length := by
  have hlen := congrArg List.length h
  simp only [hmacInput, List.length_append, be_length, length_tail, htx, hty, if_false] at hlen
  have hmx := hx.length_mem
  have hmy := hy.length_mem
  simp only [List.mem_cons, List.not_mem_nil, or_false] at hmx hmy
  split at hlen <;> split at hlen <;> omega

end AuthContent

section
variable {σ : Type} (C : SeqCrypto σ) (H : PolicyHash)

/-! ## Issuing -/

/-- `TicketComputeAuth`. -/
def ticketComputeAuth (s : TpmState σ) (hierarchy : Hierarchy) (x : AuthContent) : TpmtTkAuth :=
  ⟨x.signed, hierarchy, C.hmac (s.proof hierarchy) x.hmacInput⟩

/-- The timeout of the response carries `EXPIRATION_BIT`. -/
def AuthContent.timeoutBuffer (x : AuthContent) : Bytes :=
  be 8 (x.timeout + if x.expiresOnReset then 2 ^ 63 else 0)

/-- What `TPM2_PolicySigned` and `TPM2_PolicySecret` put into a ticket. -/
def PolicyAuthorization.ticketContent (a : PolicyAuthorization) (signed : Bool) (s : TpmState σ)
    (w : Circumstances) (session : Session) : AuthContent where
  signed
  timeout := computeAuthTimeout w session a.expiration a.nonceTpm % 2 ^ 63
  expiresOnReset := decide (a.nonceTpm = [])
  cpHashA := a.cpHashA
  policyRef := a.policyRef
  entityName := a.name
  timeEpoch := w.timeEpoch
  totalResetCount := s.totalResetCount

/-- The output parameters of the two commands; `pinPass` is `NvIsPinPassIndex`, and false for
`TPM2_PolicySigned`. -/
def PolicyAuthorization.response (a : PolicyAuthorization) (signed pinPass : Bool) (hierarchy : Hierarchy)
    (s : TpmState σ) (w : Circumstances) (session : Session) : Bytes × TpmtTkAuth :=
  if a.expiration < 0 ∧ session.attributes.isTrialPolicy = false ∧ pinPass = false then
    let x := a.ticketContent signed s w session
    (x.timeoutBuffer, ticketComputeAuth C s hierarchy x)
  else ([], ⟨signed, .null, []⟩)

/-- The outcome of either command, whose ticket can always be computed. -/
def PolicyAuthorization.outcome (a : PolicyAuthorization) (signed pinPass : Bool) (signature : Except Fault Unit)
    (w : Circumstances) (session : Session) : PolicyOutcome :=
  if signed then policySigned H w a signature (.ok ()) session else policySecret H w a pinPass (.ok ()) session

/-- A successful command that issues a ticket. -/
structure AuthIssue where
  signed : Bool
  authorization : PolicyAuthorization
  signature : Except Fault Unit
  hierarchy : Hierarchy
  state : TpmState σ
  world : Circumstances
  session : Session
  named : EntityName H authorization.name
  timeEpoch_lt : world.timeEpoch < 2 ^ 32
  totalResetCount_lt : state.totalResetCount < 2 ^ 64
  expires : authorization.expiration < 0
  not_trial : session.attributes.isTrialPolicy = false
  succeeds : (authorization.outcome H signed false signature world session).1 = .ok ()

namespace AuthIssue
variable {H} (x : AuthIssue (σ := σ) H)

def content : AuthContent := x.authorization.ticketContent x.signed x.state x.world x.session

def ticket : TpmtTkAuth :=
  (x.authorization.response C x.signed false x.hierarchy x.state x.world x.session).2

theorem ticket_digest : (x.ticket C).digest = C.hmac (x.state.proof x.hierarchy) x.content.hmacInput := by
  unfold ticket PolicyAuthorization.response
  rw [if_pos ⟨x.expires, x.not_trial, rfl⟩]
  rfl

theorem content_inRange : x.content.InRange :=
  ⟨Nat.mod_lt _ (by decide), x.timeEpoch_lt, x.totalResetCount_lt⟩

end AuthIssue

/-! ## Taking them -/

/-- The parameters of `TPM2_PolicyTicket`. -/
structure PolicyTicketIn where
  timeout : Bytes
  cpHashA : Bytes
  policyRef : Bytes
  authName : Bytes
  ticket : TpmtTkAuth

namespace PolicyTicketIn
variable (p : PolicyTicketIn)

/-- What the command takes the ticket to be about. -/
def content (s : TpmState σ) (w : Circumstances) : AuthContent where
  signed := p.ticket.signed
  timeout := ticketTimeout p.timeout
  expiresOnReset := decide (2 ^ 63 ≤ fromBe p.timeout)
  cpHashA := p.cpHashA
  policyRef := p.policyRef
  entityName := p.authName
  timeEpoch := w.timeEpoch
  totalResetCount := s.totalResetCount

/-- `TPM2_PolicyTicket`. -/
def execute (s : TpmState σ) (w : Circumstances) (session : Session) : PolicyOutcome :=
  policyTicket H w p.timeout p.cpHashA p.policyRef p.authName p.ticket.signed
    (demand (p.ticket.digest == (ticketComputeAuth C s p.ticket.hierarchy (p.content s w)).digest) (.at .ticket 0x540))
    session

theorem execute_ok {s : TpmState σ} {w : Circumstances} {session : Session}
    (h : (p.execute C H s w session).1 = .ok ()) :
    p.ticket.digest = C.hmac (s.proof p.ticket.hierarchy) (p.content s w).hmacInput := by
  unfold execute policyTicket at h
  split at h
  · cases h
  · split at h
    · cases h
    · split at h
      · cases h
      · split at h
        · cases h
        · rename_i hcheck
          exact eq_of_beq (demand_eq_ok hcheck)

theorem content_inRange {s : TpmState σ} {w : Circumstances} (hepoch : w.timeEpoch < 2 ^ 32)
    (hreset : s.totalResetCount < 2 ^ 64) : (p.content s w).InRange :=
  ⟨Nat.mod_lt _ (by decide), hepoch, hreset⟩

end PolicyTicketIn

/-- The tag is bound by itself. The rest is bound among tickets that agree in the lengths of `cpHashA` and
`policyRef`, where the Names agree in length too unless a timeout is 0; and `TPM2_PolicyTicket` takes a ticket
for nothing of the same lengths but what it was issued for. -/
theorem auth_ticket_binds (x : AuthIssue (σ := σ) H) :
    (∀ y : AuthIssue (σ := σ) H, x.content.hmacInput = y.content.hmacInput →
      x.signed = y.signed ∧
        (x.content.cpHashA.length = y.content.cpHashA.length →
          x.content.policyRef.length = y.content.policyRef.length →
          x.content.entityName.length = y.content.entityName.length ∨ x.content.timeout ≠ 0 ∧ y.content.timeout ≠ 0 →
            x.content.Same y.content)) ∧
      ∀ (p : PolicyTicketIn) (s : TpmState σ) (w : Circumstances) (session : Session),
        w.timeEpoch < 2 ^ 32 → s.totalResetCount < 2 ^ 64 → (p.execute C H s w session).1 = .ok () →
          p.ticket.digest = (x.ticket C).digest →
          C.TellsApart (s.proof p.ticket.hierarchy) (p.content s w).hmacInput
            (x.state.proof x.hierarchy) x.content.hmacInput →
          p.cpHashA.length = x.authorization.cpHashA.length →
          p.policyRef.length = x.authorization.policyRef.length →
          p.authName.length = x.authorization.name.length → (p.content s w).Same x.content := by
  constructor
  · intro y h
    refine ⟨?_, fun hcpHashA hpolicyRef hname => ?_⟩
    · have htag := (List.append_inj h (by simp only [be_length])).1
      exact AuthContent.signed_of_tag (AuthContent.be_inj x.content.tag_lt y.content.tag_lt htag)
    · have hlen : x.content.entityName.length = y.content.entityName.length := by
        rcases hname with hname | ⟨hx, hy⟩
        · exact hname
        · exact AuthContent.name_length_eq x.named y.named hcpHashA hpolicyRef hx hy h
      exact AuthContent.same_of_lengths x.content_inRange y.content_inRange hcpHashA hpolicyRef hlen h
  · intro p s w session hepoch hreset hok hdigest happart hcpHashA hpolicyRef hname
    have hinput := happart ((p.execute_ok C H hok).symm.trans (hdigest.trans (x.ticket_digest C)))
    exact AuthContent.same_of_lengths (p.content_inRange hepoch hreset) x.content_inRange hcpHashA hpolicyRef hname
      hinput.2

end

/-! ## One ticket for two authorizations -/

def ticketWorld : Circumstances where
  pcrCounter := 0
  time := 5000
  timeEpoch := 7
  nvAvailable := true
  locality := 0
  physicalPresence := false
  enabledCommands _ := true

def ticketSession : Session :=
  { attributes := { isPolicy := true }, epoch := 7, authHashAlg := .sha256, policyDigest := List.replicate 32 0 }

/-- `TPM2_PolicySecret` with the owner's password, for ten seconds. -/
def ownerSecret (cpHashA policyRef : Bytes) : PolicyAuthorization :=
  ⟨writeUint32 TpmHandle.rhOwner, policyRef, cpHashA, [], -10⟩

/-- A ticket that is not for a particular command, with `zerosDigest` as the `policyRef`. -/
def issuedForReference : AuthIssue (σ := Unit) zerosHash where
  signed := false
  authorization := ownerSecret [] zerosDigest
  signature := .ok ()
  hierarchy := .owner
  state := {}
  world := ticketWorld
  session := ticketSession
  named := .handle TpmHandle.rhOwner
  timeEpoch_lt := by decide
  totalResetCount_lt := by decide
  expires := by decide
  not_trial := rfl
  succeeds := by decide +kernel

/-- A ticket for the command whose parameters have that hash. -/
def issuedForCommand : AuthIssue (σ := Unit) zerosHash :=
  { issuedForReference with
    authorization := ownerSecret zerosDigest []
    named := .handle TpmHandle.rhOwner
    expires := by decide
    succeeds := by decide +kernel }

def takenFor (cpHashA policyRef : Bytes) : PolicyTicketIn where
  timeout := issuedForReference.content.timeoutBuffer
  cpHashA
  policyRef
  authName := writeUint32 TpmHandle.rhOwner
  ticket := issuedForReference.ticket toyCrypto

theorem auth_ticket_taken_as_issued :
    ((takenFor [] zerosDigest).execute toyCrypto zerosHash {} ticketWorld ticketSession).1 = .ok () ∧
      ((takenFor [] zerosDigest).content ({} : TpmState Unit) ticketWorld).Same issuedForReference.content := by
  have hok : ((takenFor [] zerosDigest).execute toyCrypto zerosHash {} ticketWorld ticketSession).1 = .ok () := by
    decide +kernel
  exact ⟨hok, (auth_ticket_binds toyCrypto zerosHash issuedForReference).2 (takenFor [] zerosDigest) {} ticketWorld
    ticketSession (by decide) (by decide) hok rfl (fun h => ⟨rfl, h⟩) rfl rfl rfl⟩

/-- The octets of the `policyRef` pass for a `cpHashA`. -/
theorem auth_ticket_shifts :
    issuedForReference.content.hmacInput = issuedForCommand.content.hmacInput ∧
      issuedForReference.content.cpHashA ≠ issuedForCommand.content.cpHashA ∧
      ((takenFor zerosDigest []).execute toyCrypto zerosHash {} ticketWorld ticketSession).1 = .ok () ∧
      (takenFor zerosDigest []).cpHashA ≠ issuedForReference.authorization.cpHashA := by
  refine ⟨rfl, by decide, ?_, by decide⟩
  decide +kernel

end PqcTpm
