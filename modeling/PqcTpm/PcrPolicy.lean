import PqcTpm.DictionaryAttack
import PqcTpm.Pcr
import PqcTpm.SessionTracking

/-!
# Policies over PCRs

`TPM2_PolicyPCR` leaves the update counter in the session, and `CheckPolicyAuthSession` compares it
with the present one. The machine has the sessions and their contexts, the banks, and what of both
survives a loss of power; beside each session it records what the command has asserted on it.
-/
namespace PqcTpm
open ByteCodec Transition Versions

/-- A `TPM2_PolicyPCR` that has succeeded: the selection as it was filtered, and the banks at the time. It is current
until the policy of the session starts over. -/
structure PcrAssertion where
  selection : List PcrSelection
  pcrs : HashAlg → Nat → Bytes
  current : Bool := true

namespace PcrAssertion

/-- Every selected PCR that is not exempt has the value it had. -/
def Holds (a : PcrAssertion) (P : PcrState) : Prop :=
  ∀ select ∈ a.selection, ∀ pcr, isPcrSelected pcr select = true → pcrBelongsTcbGroup pcr = false →
    P.pcrs select.hash pcr = a.pcrs select.hash pcr

/-- The policy starts over. -/
def retire (a : PcrAssertion) : PcrAssertion := { a with current := false }

/-- The banks of the assertion, under the counter of a session. -/
def stamp (a : PcrAssertion) (pcrCounter : Nat) : Versioned (HashAlg → Nat → Bytes) := ⟨pcrCounter, countedPcrs a.pcrs⟩

end PcrAssertion

/-- `TPML_PCR_SELECTION_Marshal`. -/
def marshalPcrSelection (selection : List PcrSelection) : Bytes :=
  be 4 selection.length ++
    selection.flatMap fun s => s.hash.marshal ++ (be 1 s.pcrSelect.length ++ s.pcrSelect)

/-! ## Allocation -/

/-- An allocation takes the place of the one of its bank. -/
def replaceBank (a : PcrSelection) : List PcrSelection → List PcrSelection
  | [] => []
  | b :: bs => if b.hash = a.hash then a :: bs else b :: replaceBank a bs

/-- `PCRAllocate`: what is written to NV. -/
def pcrAllocate (allocate pcrAllocated : List PcrSelection) : Except Fault (List PcrSelection) :=
  let newAllocate := allocate.foldl (fun banks a => replaceBank a banks) pcrAllocated
  if (newAllocate.any fun b => isPcrSelected drtmPcr b) && newAllocate.any fun b => isPcrSelected hcrtmPcr b then
    .ok newAllocate
  else .error (.of .pcr)

/-- The allocation of `PCRManufacture`. -/
def manufacturedBanks : List PcrSelection := PcrState.hashAlgs.map fun alg => ⟨alg, [0xFF, 0xFF, 0xFF]⟩

/-! ## The machine -/

/-- Before `TPM2_Startup`, after it, and after `FAIL`. -/
inductive TpmMode
  | off | running | failed
  deriving DecidableEq

structure PcrMachine where
  mode : TpmMode := .off
  sessions : SessionMachine
  pcr : PcrState := {}
  /-- `gp.pcrAllocated` in NV. -/
  nvAllocated : List PcrSelection := manufacturedBanks
  /-- `gr.pcrCounter` and `gc.pcrSave` in NV. -/
  savedCounter : Nat := 0
  savedPcrs : HashAlg → Nat → Bytes := fun _ _ => []
  pcrReConfig : Bool := false
  asserted : SessionSlot → List PcrAssertion := fun _ => []
  givenOut : List (SessionContext × List PcrAssertion) := []

/-- What happens to sessions and to PCRs. Memory holds anything after a loss of power; of the contexts the `k`th that
has been given out is loaded. -/
inductive PcrEvent
  | powerLoss (memory : PcrState)
  | hashSequence (data : Bytes)
  | startup (nvStatus : Option RcCode) (startupType : ShutdownType) (nvOk : Bool) (sameStart : Option TpmRc)
      (locality : UInt8)
  | shutdown (nvStatus : Option RcCode) (shutdownType : ShutdownType)
  | startAuthSession (sessionType : SessionType) (checks : Option TpmRc) (session : Session)
  | contextSave (nvStatus : Option RcCode) (handle : TpmHandle)
  | contextLoad (nvStatus : Option RcCode) (integrity : Option TpmRc) (k : Nat)
  | flushContext (handle : TpmHandle)
  | policyPCR (handle : TpmHandle) (w : Circumstances) (pcrs : List PcrSelection) (pcrDigest : Bytes)
  | policy (handle : TpmHandle) (w : Circumstances)
      (cmd : { cmd : PolicyCommand // ∀ pcrs current pcrDigest, cmd ≠ .policyPCR pcrs current pcrDigest })
  | policyRestart (handle : TpmHandle)
  | audit (handle : TpmHandle) (digest : Bytes)
  | respond (handle : TpmHandle) (w : Circumstances) (nonceTpm : Bytes) (continueSession : Bool)
  | pcr (nvStatus : Option RcCode) (locality : UInt8) (cmd : PcrCommand)
  | pcrAllocate (nvStatus : Option RcCode) (pcrAllocation : List PcrSelection)
  | clear (nvStatus : Option RcCode) (disableClear : Bool)

/-- The slot of the session that a handle designates. -/
def SessionTable.slotOf (handle : TpmHandle) (t : SessionTable) : Option SessionSlot :=
  (SessionTable.entryAt handle.index).bind fun i => SessionTable.slotAt (t.contextArray i)

/-- The start that `TPM2_Startup` decides on. -/
def startupKindOf (orderly : Option ShutdownType) (startupType : ShutdownType) (nvOk : Bool) : StartupKind :=
  if startupType = .state then .resume
  else if orderly = some .state ∧ nvOk = true then .restart
  else .reset

namespace PcrMachine

def initial (mask : Nat) : PcrMachine := { sessions := .initial mask, pcr := { pcrAllocated := manufacturedBanks } }

/-- What the banks have become, or failure mode, after which nothing is cleaned up. -/
def settle (m : PcrMachine) (endsOrderly : Bool) : Except Fault PcrState → PcrMachine
  | .error _ => { m with mode := .failed }
  | .ok pcr =>
      { m with pcr, sessions := if endsOrderly then { m.sessions with orderly := none } else m.sessions }

/-- A command uses a session, and what has been asserted on it changes with it. -/
def onSession (handle : TpmHandle) (continueSession : Bool)
    (f : Session → List PcrAssertion → Session × List PcrAssertion) (m : PcrMachine) : PcrMachine :=
  match m.sessions.table.slotOf handle with
  | none => m
  | some k =>
      match m.sessions.entityGetLoadStatus handle, m.sessions.table.sessions k with
      | .ok _, some s =>
          { m with
            sessions := (m.sessions.useSession handle (fun s => (f s (m.asserted k)).1) continueSession).2
            asserted := Function.update m.asserted k (f s (m.asserted k)).2 }
      | _, _ => m

section
variable (H : PolicyHash) (level : Nat)

def circumstances (m : PcrMachine) (w : Circumstances) : Circumstances := { w with pcrCounter := m.pcr.pcrCounter }

/-- `TPM2_PolicyPCR` of a session. -/
def policyPCR (w : Circumstances) (pcrs : List PcrSelection) (pcrDigest : Bytes) (m : PcrMachine) (s : Session)
    (as : List PcrAssertion) : Session × List PcrAssertion :=
  let (selection, current) := m.pcr.currentDigest H s.authHashAlg pcrs
  match PqcTpm.policyPCR H (m.circumstances w) (marshalPcrSelection selection) current pcrDigest s with
  | (.ok _, s) => (s, { selection, pcrs := m.pcr.pcrs } :: as)
  | (.error _, s) => (s, as)

/-- The banks with what `NvRead` brings back of `gr` and `gc`. -/
def restored (m : PcrMachine) : StartupKind → PcrState
  | .reset => m.pcr
  | .restart => { m.pcr with pcrCounter := m.savedCounter }
  | .resume => { m.pcr with pcrCounter := m.savedCounter, pcrSave := m.savedPcrs }

/-- `TPM2_Startup`. -/
def startup (nvStatus : Option RcCode) (startupType : ShutdownType) (nvOk : Bool) (sameStart : Option TpmRc)
    (locality : UInt8) (m : PcrMachine) : PcrMachine :=
  if locality ≠ 0 ∧ locality ≠ 3 then m
  else
    match m.sessions.startup nvStatus startupType nvOk sameStart with
    | (.error _, _) => m
    | (.ok _, sessions) =>
        let kind := startupKindOf m.sessions.orderly startupType nvOk
        match (m.restored kind).pcrStartup kind (if m.pcr.drtmPreStartup then 0 else locality) with
        | .error _ => { m with mode := .failed }
        | .ok pcr =>
            { m with
              mode := .running
              sessions
              pcr
              pcrReConfig := false
              asserted := fun _ => []
              givenOut := if kind = .reset then [] else m.givenOut }

/-- What happens while the TPM is running. -/
def act (m : PcrMachine) : PcrEvent → PcrMachine
  | .powerLoss _ | .startup .. => m
  | .hashSequence data => m.settle false (m.pcr.hashEnd H true data)
  | .shutdown nvStatus shutdownType =>
      match m.sessions.shutdown nvStatus m.pcrReConfig shutdownType with
      | (.error _, _) => m
      | (.ok _, sessions) =>
          if shutdownType = .state then
            { m with
              sessions
              pcr := m.pcr.pcrStateSave
              savedCounter := m.pcr.pcrCounter
              savedPcrs := m.pcr.pcrStateSave.pcrSave }
          else { m with sessions }
  | .startAuthSession sessionType checks session =>
      { m with
        sessions := (m.sessions.startAuthSession sessionType checks session).2
        asserted := fun k => if (m.sessions.table.sessions k).isNone then [] else m.asserted k }
  | .contextSave nvStatus handle =>
      match m.sessions.contextSave nvStatus handle with
      | (.ok (.context context), sessions) =>
          { m with
            sessions
            givenOut := (context, ((m.sessions.table.slotOf handle).map m.asserted).getD []) :: m.givenOut }
      | (_, sessions) => { m with sessions }
  | .contextLoad nvStatus integrity k =>
      match m.givenOut[k]? with
      | none => m
      | some (context, as) =>
          { m with
            sessions := (m.sessions.contextLoad nvStatus integrity context).2
            asserted := fun k => if (m.sessions.table.sessions k).isNone then as else m.asserted k }
  | .flushContext handle => { m with sessions := (m.sessions.flushContext handle).2 }
  | .policyPCR handle w pcrs pcrDigest =>
      if handle.getType = TpmHandle.htPolicySession then
        m.onSession handle true (policyPCR H w pcrs pcrDigest m)
      else m
  | .policy handle w cmd =>
      if handle.getType = TpmHandle.htPolicySession then
        m.onSession handle true fun s as => ((cmd.val.act H level (m.circumstances w) s).2, as)
      else m
  | .policyRestart handle =>
      if handle.getType = TpmHandle.htPolicySession then
        m.onSession handle true fun s as => (s.resetPolicyData, as.map .retire)
      else m
  | .audit handle digest => m.onSession handle true fun s as => (s.audit digest, as)
  | .respond handle w nonceTpm continueSession =>
      m.onSession handle continueSession fun s as =>
        (s.respond w nonceTpm, if s.attributes.isPolicy then as.map .retire else as)
  | .pcr nvStatus locality cmd =>
      if cmd.isAllowed locality = false then m
      else if cmd.endsOrderly = true ∧ (m.sessions.returnIfOrderly nvStatus).isOk = false then m
      else m.settle cmd.endsOrderly (cmd.update H m.pcr)
  | .pcrAllocate nvStatus pcrAllocation =>
      if nvStatus.isSome then m
      else
        match PqcTpm.pcrAllocate pcrAllocation m.pcr.pcrAllocated with
        | .error _ => m
        | .ok nvAllocated => { m with nvAllocated, pcrReConfig := true }
  | .clear nvStatus disableClear =>
      if nvStatus.isSome || disableClear then m else m.settle true (m.pcr.pcrChanged 0)

def step (m : PcrMachine) (e : PcrEvent) : PcrMachine :=
  match m.mode, e with
  | _, .powerLoss memory =>
      { m with mode := .off, pcr := { memory with pcrAllocated := m.nvAllocated, drtmPreStartup := false } }
  | .off, .startup nvStatus startupType nvOk sameStart locality =>
      m.startup nvStatus startupType nvOk sameStart locality
  | .off, .hashSequence data => m.settle false (m.pcr.hashEnd H false data)
  | .running, e => m.act H level e
  | _, _ => m

/-- A session that stands for an entity: it is no trial session, and the check goes through. -/
def Accepts (m : PcrMachine) (s : Session) : Prop :=
  s.attributes.isTrialPolicy = false ∧
    ∃ w x, checkPolicyAuthSession H level (m.circumstances w) x s = .ok ()

end
end PcrMachine

/-! ## Which sessions are loaded -/

namespace SessionMachine
variable {m : SessionMachine} {handle : TpmHandle} {k : SessionSlot} {x : Session}

/-- What a command leaves of the sessions and of the orderly state, where it loads `fill`. -/
structure Follows (m m' : SessionMachine) (fill : Session → Prop) : Prop where
  loaded : ∀ k x, m'.table.sessions k = some x →
    m.table.sessions k = some x ∨ (m.table.sessions k = none ∧ fill x)
  orderly : m'.orderly = m.orderly ∨ m'.orderly = none

theorem Follows.refl (m : SessionMachine) (fill : Session → Prop) : m.Follows m fill := ⟨fun _ _ => .inl, .inl rfl⟩

theorem sessions_release {t : SessionTable} {v : Nat} (h : (t.release v).sessions k = some x) :
    t.sessions k = some x := by
  unfold SessionTable.release at h
  split at h
  · exact h
  · rename_i l hl
    dsimp only at h
    by_cases hk : k = l
    · subst hk
      rw [Function.update_self] at h
      cases h
    · rwa [Function.update_of_ne hk] at h

theorem sessions_sessionCreate {t : SessionTable} {sessionType : SessionType} {session : Session}
    (h : (t.sessionCreate sessionType session).2.sessions k = some x) :
    t.sessions k = some x ∨ t.sessions k = none := by
  unfold SessionTable.sessionCreate at h
  split at h
  · exact .inl h
  · split at h
    · exact .inl h
    · rename_i l hl
      have hcreate : ∀ r, t.contextIdSessionCreate l = r → r.2.sessions = t.sessions := by
        rintro r rfl
        unfold SessionTable.contextIdSessionCreate
        split
        · rfl
        · split <;> rfl
      split at h
      · rename_i hr
        rw [hcreate _ hr] at h
        exact .inl h
      · rename_i hr
        dsimp only at h
        by_cases hk : k = l
        · subst hk
          exact .inr (SessionTable.vacantSlot_eq_some hl)
        · rw [Function.update_of_ne hk, hcreate _ hr] at h
          exact .inl h

theorem startAuthSession_follows (sessionType : SessionType) (checks : Option TpmRc) (session : Session) :
    m.Follows (m.startAuthSession sessionType checks session).2 fun _ => True := by
  have hcreated : ∀ k x, (m.table.sessionCreate sessionType session).2.sessions k = some x →
      m.table.sessions k = some x ∨ (m.table.sessions k = none ∧ True) := by
    intro k x hx
    rcases sessions_sessionCreate hx with hold | hnone
    · exact .inl hold
    · exact .inr ⟨hnone, trivial⟩
  unfold startAuthSession
  split
  · exact .refl m _
  · split
    · rename_i hr
      rw [hr] at hcreated
      exact ⟨hcreated, .inl rfl⟩
    · rename_i hr
      rw [hr] at hcreated
      exact ⟨hcreated, .inl rfl⟩

theorem sessions_sessionContextSave {t : SessionTable} (h : (t.sessionContextSave handle).2.sessions k = some x) :
    t.sessions k = some x := by
  unfold SessionTable.sessionContextSave at h
  split at h
  · exact h
  · split at h
    · exact h
    · split at h
      · exact h
      · dsimp only at h
        split at h
        · exact h
        · have hold := sessions_release h
          split at hold <;> split at hold <;> exact hold

theorem contextSave_follows (nvStatus : Option RcCode) (handle : TpmHandle) :
    m.Follows (m.contextSave nvStatus handle).2 (fun _ => False) ∧
      ∀ context, (m.contextSave nvStatus handle).1 = .ok (.context context) →
        (m.contextSave nvStatus handle).2.orderly = none ∧ m.table.sessionGet handle = .ok context.session := by
  have hsaved : ∀ k x, (m.table.sessionContextSave handle).2.sessions k = some x →
      m.table.sessions k = some x ∨ (m.table.sessions k = none ∧ False) :=
    fun k x hx => .inl (sessions_sessionContextSave hx)
  unfold contextSave
  split
  · exact ⟨.refl m _, fun _ h => (nomatch h)⟩
  · split
    · exact ⟨.refl m _, fun _ h => (nomatch h)⟩
    · split
      · exact ⟨.refl m _, fun _ h => (nomatch h)⟩
      · dsimp only
        split
        · exact ⟨⟨fun _ _ => .inl, .inr rfl⟩, fun _ h => (nomatch h)⟩
        · rename_i session hget
          split
          · rename_i hr
            rw [hr] at hsaved
            exact ⟨⟨hsaved, .inr rfl⟩, fun _ h => (nomatch h)⟩
          · rename_i hr
            rw [hr] at hsaved
            refine ⟨⟨hsaved, .inr rfl⟩, fun context h => ⟨rfl, ?_⟩⟩
            cases h
            exact hget

theorem sessions_sessionContextLoad {t : SessionTable} {session : Session}
    (h : (t.sessionContextLoad session handle).2.sessions k = some x) :
    t.sessions k = some x ∨ (t.sessions k = none ∧ x = session) := by
  unfold SessionTable.sessionContextLoad at h
  split at h
  · exact .inl h
  · split at h
    · exact .inl h
    · split at h
      · exact .inl h
      · rename_i l hl
        split at h
        · exact .inl h
        · split at h
          · exact .inl h
          · dsimp only at h
            by_cases hk : k = l
            · subst hk
              rw [Function.update_self] at h
              cases h
              exact .inr ⟨SessionTable.vacantSlot_eq_some hl, rfl⟩
            · rw [Function.update_of_ne hk] at h
              split at h <;> exact .inl h

theorem contextLoad_follows (nvStatus : Option RcCode) (integrity : Option TpmRc) (context : SessionContext) :
    m.Follows (m.contextLoad nvStatus integrity context).2 fun x => x = context.session := by
  have hloaded : ∀ k x, (m.table.sessionContextLoad context.session context.savedHandle).2.sessions k = some x →
      m.table.sessions k = some x ∨ (m.table.sessions k = none ∧ x = context.session) :=
    fun k x => sessions_sessionContextLoad
  unfold contextLoad
  split
  · exact .refl m _
  · split
    · exact .refl m _
    · split
      · exact .refl m _
      · dsimp only
        split
        · exact ⟨fun _ _ => .inl, .inr rfl⟩
        · exact ⟨fun _ _ => .inl, .inr rfl⟩
        · split
          · rename_i hr
            rw [hr] at hloaded
            exact ⟨hloaded, .inr rfl⟩
          · rename_i hr
            rw [hr] at hloaded
            exact ⟨hloaded, .inr rfl⟩

theorem flush_follows (handle : TpmHandle) : m.Follows (m.flush handle).2 fun _ => False := by
  have hflushed : ∀ k x, (m.table.sessionFlush handle).2.sessions k = some x →
      m.table.sessions k = some x ∨ (m.table.sessions k = none ∧ False) := by
    intro k x hx
    unfold SessionTable.sessionFlush at hx
    split at hx
    · exact .inl hx
    · split at hx
      · exact .inl hx
      · dsimp only at hx
        split at hx
        · dsimp only at hx
          split at hx <;> exact .inl hx
        · dsimp only at hx
          have hold := sessions_release hx
          exact .inl hold
  unfold flush
  split
  · rename_i hr
    rw [hr] at hflushed
    exact ⟨hflushed, .inl rfl⟩
  · rename_i hr
    rw [hr] at hflushed
    exact ⟨hflushed, .inl rfl⟩

theorem flushContext_follows (handle : TpmHandle) : m.Follows (m.flushContext handle).2 fun _ => False := by
  unfold flushContext
  split
  · exact .refl m _
  · split
    · exact .refl m _
    · exact flush_follows handle

/-- The session in the slot of the handle is changed, and no other. -/
theorem sessions_change {f : Session → Session} (h : (m.change handle f).table.sessions k = some x) :
    (m.table.slotOf handle ≠ some k ∧ m.table.sessions k = some x) ∨
      ∃ s, m.table.slotOf handle = some k ∧ m.table.sessions k = some s ∧ x = f s := by
  unfold SessionMachine.change at h
  unfold SessionTable.slotOf
  cases hentry : SessionTable.entryAt handle.index with
  | none =>
      rw [hentry] at h
      exact .inl ⟨(nomatch ·), h⟩
  | some i =>
      rw [hentry] at h
      dsimp only at h
      rw [Option.bind_some]
      cases hslot : SessionTable.slotAt (m.table.contextArray i) with
      | none =>
          rw [hslot] at h
          exact .inl ⟨(nomatch ·), h⟩
      | some l =>
          rw [hslot] at h
          dsimp only at h
          by_cases hk : k = l
          · subst hk
            rw [Function.update_self] at h
            obtain ⟨s, hs, rfl⟩ := Option.map_eq_some_iff.1 h
            exact .inr ⟨s, rfl, hs, rfl⟩
          · rw [Function.update_of_ne hk] at h
            exact .inl ⟨fun heq => hk (Option.some.inj heq).symm, h⟩

theorem change_orderly (f : Session → Session) : (m.change handle f).orderly = m.orderly := by
  unfold SessionMachine.change
  split
  · rfl
  · split <;> rfl

theorem useSession_follows (f : Session → Session) (continueSession : Bool) :
    (m.useSession handle f continueSession).2.orderly = m.orderly ∨ (m.useSession handle f continueSession).2.orderly = none := by
  unfold useSession
  split
  · exact .inl rfl
  · split
    · exact .inl rfl
    · dsimp only
      split
      · exact .inl (change_orderly f)
      · rcases (flush_follows (m := m.change handle f) handle).orderly with hsame | hnone
        · exact .inl (hsame.trans (change_orderly f))
        · exact .inr hnone

theorem isSession_of_load (hload : m.entityGetLoadStatus handle = .ok ()) : handle.isSession = true := by
  unfold entityGetLoadStatus at hload
  obtain ⟨_, -, hload⟩ := bind_eq_ok hload
  obtain ⟨session, hget, -⟩ := bind_eq_ok hload
  unfold SessionTable.sessionGet at hget
  obtain ⟨_, hsession, -⟩ := bind_eq_ok hget
  exact demand_eq_ok hsession

theorem sessions_useSession {f : Session → Session} {continueSession : Bool}
    (hload : m.entityGetLoadStatus handle = .ok ()) (h : (m.useSession handle f continueSession).2.table.sessions k = some x) :
    (m.table.slotOf handle ≠ some k ∧ m.table.sessions k = some x) ∨
      ∃ s, m.table.slotOf handle = some k ∧ m.table.sessions k = some s ∧ x = f s := by
  unfold useSession at h
  rw [hload, if_neg (by simp [isSession_of_load hload])] at h
  dsimp only at h
  split at h
  · exact sessions_change h
  · rcases (flush_follows (m := m.change handle f) handle).loaded k x h with hold | ⟨-, hfalse⟩
    · exact sessions_change hold
    · exact hfalse.elim

theorem sessions_of_sessionGet {t : SessionTable} (h : t.sessionGet handle = .ok x) :
    ∃ k, t.slotOf handle = some k ∧ t.sessions k = some x := by
  unfold SessionTable.sessionGet at h
  obtain ⟨_, -, h⟩ := bind_eq_ok h
  unfold SessionTable.slotOf
  split at h
  · cases h
  · rename_i i hentry
    rw [hentry, Option.bind_some]
    split at h
    · cases h
    · rename_i k hslot
      split at h
      · cases h
      · rename_i y hy
        cases h
        exact ⟨k, hslot, hy⟩

end SessionMachine

/-! ## What a policy command leaves of the counter -/

section
variable {H : PolicyHash} {level : Nat} {w : Circumstances} {s : Session}

/-- The type of the session and its counter stay. -/
structure Session.SameCounter (s s' : Session) : Prop where
  pcrCounter : s'.pcrCounter = s.pcrCounter
  isTrialPolicy : s'.attributes.isTrialPolicy = s.attributes.isTrialPolicy

/-- What a policy command leaves of a session: its kind, and the counter unless the command counts. -/
structure Session.Policed (counts : Prop) (s s' : Session) : Prop where
  isTrialPolicy : s'.attributes.isTrialPolicy = s.attributes.isTrialPolicy
  isPolicy : s'.attributes.isPolicy = s.attributes.isPolicy
  isAudit : s'.attributes.isAudit = s.attributes.isAudit
  pcrCounter : ¬ counts → s'.pcrCounter = s.pcrCounter

theorem Session.Policed.refl (counts : Prop) (s : Session) : s.Policed counts s := ⟨rfl, rfl, rfl, fun _ => rfl⟩

theorem policyContextUpdate_policed {counts : Prop} (commandCode : Nat) (name : Bytes) (ref : Option Bytes) (cpHash : Bytes)
    (policyTimeout : Nat) {s₀ : Session} (h : s₀.Policed counts s) :
    s₀.Policed counts (policyContextUpdate H commandCode name ref cpHash policyTimeout s) := by
  cases ref with
  | none => exact ⟨h.isTrialPolicy, h.isPolicy, h.isAudit, h.pcrCounter⟩
  | some ref => exact ⟨h.isTrialPolicy, h.isPolicy, h.isAudit, h.pcrCounter⟩

theorem policyCompare_policed {counts : Prop} (commandCode : Nat) (argument name : Bytes)
    (limits comparison : Except Fault Unit) (s : Session) :
    s.Policed counts (policyCompare H commandCode argument name limits comparison s).2 := by
  unfold policyCompare
  split
  · exact .refl _ s
  · split
    · exact .refl _ s
    · exact ⟨rfl, rfl, rfl, fun _ => rfl⟩

/-- No command but `TPM2_PolicyPCR` touches the counter. -/
theorem PolicyCommand.act_policed (cmd : PolicyCommand) :
    s.Policed (∃ pcrs current pcrDigest, cmd = .policyPCR pcrs current pcrDigest) (cmd.act H level w s).2 := by
  cases cmd with
  | policySigned a signature ticket =>
      simp only [PolicyCommand.act, PqcTpm.policySigned]
      split
      · exact .refl _ s
      · dsimp only
        exact policyContextUpdate_policed _ _ _ _ _ (.refl _ s)
  | policySecret a pinPass ticket =>
      simp only [PolicyCommand.act, PqcTpm.policySecret]
      split
      · exact .refl _ s
      · dsimp only
        exact policyContextUpdate_policed _ _ _ _ _ (.refl _ s)
  | policyTicket timeout cpHashA policyRef authName signed ticket =>
      simp only [PolicyCommand.act, PqcTpm.policyTicket]
      repeat' split
      all_goals dsimp only
      all_goals first | exact .refl _ s | exact policyContextUpdate_policed _ _ _ _ _ (.refl _ s)
  | policyPCR pcrs current pcrDigest =>
      simp only [PolicyCommand.act, PqcTpm.policyPCR]
      repeat' split
      all_goals exact ⟨rfl, rfl, rfl, fun hnot => absurd ⟨pcrs, current, pcrDigest, rfl⟩ hnot⟩
  | policyAuthorize approvedPolicy policyRef keySign keyName ticket =>
      simp only [PolicyCommand.act, PqcTpm.policyAuthorize]
      split
      · exact .refl _ s
      · dsimp only
        exact policyContextUpdate_policed _ _ _ _ _ ⟨rfl, rfl, rfl, fun _ => rfl⟩
  | policyAuthorizeNV name policyInNv =>
      simp only [PolicyCommand.act, PqcTpm.policyAuthorizeNV]
      split
      · exact .refl _ s
      · dsimp only
        exact policyContextUpdate_policed _ _ _ _ _ ⟨rfl, rfl, rfl, fun _ => rfl⟩
  | policyNV argument nvName comparison => exact policyCompare_policed ..
  | policyCounterTimer argument limits comparison => exact policyCompare_policed ..
  | policyCapability argument comparison => exact policyCompare_policed ..
  | policyOR pHashList =>
      simp only [PolicyCommand.act, PqcTpm.policyOR]
      split <;> exact ⟨rfl, rfl, rfl, fun _ => rfl⟩
  | policyPhysicalPresence => exact ⟨rfl, rfl, rfl, fun _ => rfl⟩
  | policyLocality locality =>
      simp only [PolicyCommand.act, PqcTpm.policyLocality]
      split <;> exact ⟨rfl, rfl, rfl, fun _ => rfl⟩
  | policyCommandCode code =>
      simp only [PolicyCommand.act, PqcTpm.policyCommandCode]
      repeat' split
      all_goals exact ⟨rfl, rfl, rfl, fun _ => rfl⟩
  | policyCpHash cpHashA =>
      simp only [PolicyCommand.act, PqcTpm.policyCpHash]
      repeat' split
      all_goals exact ⟨rfl, rfl, rfl, fun _ => rfl⟩
  | policyNameHash nameHash =>
      simp only [PolicyCommand.act, PqcTpm.policyNameHash]
      repeat' split
      all_goals exact ⟨rfl, rfl, rfl, fun _ => rfl⟩
  | policyDuplicationSelect objectName newParentName includeObject =>
      simp only [PolicyCommand.act, PqcTpm.policyDuplicationSelect]
      repeat' split
      all_goals exact ⟨rfl, rfl, rfl, fun _ => rfl⟩
  | policyAuthValue => exact ⟨rfl, rfl, rfl, fun _ => rfl⟩
  | policyPassword => exact ⟨rfl, rfl, rfl, fun _ => rfl⟩
  | policyGetDigest => exact .refl _ s
  | policyNvWritten writtenSet =>
      simp only [PolicyCommand.act, PqcTpm.policyNvWritten]
      split <;> exact ⟨rfl, rfl, rfl, fun _ => rfl⟩
  | policyTemplate templateHash =>
      simp only [PolicyCommand.act, PqcTpm.policyTemplate]
      repeat' split
      all_goals exact ⟨rfl, rfl, rfl, fun _ => rfl⟩
  | policyParameters pHash =>
      simp only [PolicyCommand.act, PqcTpm.policyParameters]
      repeat' split
      all_goals exact ⟨rfl, rfl, rfl, fun _ => rfl⟩

theorem PolicyCommand.act_sameCounter (cmd : PolicyCommand)
    (hcmd : ∀ pcrs current pcrDigest, cmd ≠ .policyPCR pcrs current pcrDigest) :
    s.SameCounter (cmd.act H level w s).2 := by
  have hpoliced : s.Policed _ (cmd.act H level w s).2 := cmd.act_policed
  refine ⟨hpoliced.pcrCounter ?_, hpoliced.isTrialPolicy⟩
  rintro ⟨pcrs, current, pcrDigest, heq⟩
  exact hcmd pcrs current pcrDigest heq

end

/-! ## Allocations -/

/-- Every bank has one selection, and some bank has the PCR of a DRTM sequence. -/
structure ValidAllocation (banks : List PcrSelection) : Prop where
  distinct : (banks.map PcrSelection.hash).Nodup
  drtm : PcrState.HasDrtm banks

theorem map_hash_replaceBank (a : PcrSelection) (banks : List PcrSelection) :
    (replaceBank a banks).map PcrSelection.hash = banks.map PcrSelection.hash := by
  induction banks with
  | nil => rfl
  | cons b bs ih =>
      unfold replaceBank
      split
      · rename_i hhash
        rw [List.map_cons, List.map_cons, hhash]
      · rw [List.map_cons, List.map_cons, ih]

theorem find?_hash {banks : List PcrSelection} (h : (banks.map PcrSelection.hash).Nodup) {b : PcrSelection}
    (hb : b ∈ banks) : banks.find? (fun a => a.hash == b.hash) = some b := by
  induction banks with
  | nil => cases hb
  | cons c bs ih =>
      rw [List.map_cons, List.nodup_cons] at h
      rcases List.mem_cons.1 hb with rfl | hmem
      · rw [List.find?_cons_of_pos (by simp)]
      · have hne : (c.hash == b.hash) = false := by
          refine beq_eq_false_iff_ne.2 fun heq => h.1 ?_
          rw [heq]
          exact List.mem_map_of_mem hmem
        rw [List.find?_cons_of_neg (by simp [hne])]
        exact ih h.2 hmem

theorem mem_hashAlgs (alg : HashAlg) : alg ∈ PcrState.hashAlgs := by
  cases alg <;> decide

theorem pcrAllocate_valid {allocate banks banks' : List PcrSelection} (hbanks : ValidAllocation banks)
    (h : pcrAllocate allocate banks = .ok banks') : ValidAllocation banks' := by
  have hmap : ∀ (as bs : List PcrSelection),
      (as.foldl (fun banks a => replaceBank a banks) bs).map PcrSelection.hash = bs.map PcrSelection.hash := by
    intro as
    induction as with
    | nil => exact fun bs => rfl
    | cons a as ih => exact fun bs => (ih _).trans (map_hash_replaceBank a bs)
  unfold pcrAllocate at h
  dsimp only at h
  split at h
  · rename_i hboth
    obtain rfl := Except.ok.inj h
    have hnodup := hmap allocate banks ▸ hbanks.distinct
    refine ⟨hnodup, ?_⟩
    obtain ⟨b, hb, hselected⟩ := List.any_eq_true.1 (Bool.and_eq_true_iff.1 hboth).1
    refine ⟨b.hash, mem_hashAlgs _, ?_⟩
    unfold PcrState.pcrIsAllocated
    rw [find?_hash hnodup hb]
    dsimp only
    rw [hselected]
    rfl
  · cases h

theorem manufacturedBanks_valid : ValidAllocation manufacturedBanks :=
  ⟨by decide, .sha1, by decide, by decide⟩

/-! ## Sessions that a counter backs -/

/-- What the counter of a session says of its assertions, when the banks are those of `P`. -/
def Backed (P : PcrState) (x : Session) (as : List PcrAssertion) : Prop :=
  x.attributes.isTrialPolicy = true ∨
    ∀ a ∈ as, a.current = true → 0 < x.pcrCounter ∧ a.stamp x.pcrCounter ≤ P.view

/-- The counter of a session is not ahead of `n`. -/
def Dated (n : Nat) (x : Session) (as : List PcrAssertion) : Prop :=
  x.attributes.isTrialPolicy = true ∨ ∀ a ∈ as, a.current = true → 0 < x.pcrCounter ∧ x.pcrCounter ≤ n

section
variable {P P' : PcrState} {x x' : Session} {as : List PcrAssertion}

theorem Backed.mono (h : Backed P x as) (hle : P.view ≤ P'.view) : Backed P' x as := by
  rcases h with htrial | hall
  · exact .inl htrial
  · refine .inr fun a ha hcurrent => ?_
    obtain ⟨hpos, hstamp⟩ := hall a ha hcurrent
    exact ⟨hpos, le_trans hstamp hle⟩

theorem Backed.dated (h : Backed P x as) : Dated P.pcrCounter x as := by
  rcases h with htrial | hall
  · exact .inl htrial
  · refine .inr fun a ha hcurrent => ?_
    obtain ⟨hpos, hstamp⟩ := hall a ha hcurrent
    exact ⟨hpos, hstamp.1⟩

theorem Dated.backed {n : Nat} (h : Dated n x as) (hn : n < P.pcrCounter) : Backed P x as := by
  rcases h with htrial | hall
  · exact .inl htrial
  · refine .inr fun a ha hcurrent => ?_
    obtain ⟨hpos, hle⟩ := hall a ha hcurrent
    exact ⟨hpos, Versioned.le_of_version_lt (Nat.lt_of_le_of_lt hle hn)⟩

theorem backed_nil (P : PcrState) (x : Session) : Backed P x [] := .inr fun _ ha => absurd ha List.not_mem_nil

theorem Backed.sameCounter (h : Backed P x as) (hsame : x.SameCounter x') : Backed P x' as := by
  unfold Backed
  rw [hsame.pcrCounter, hsame.isTrialPolicy]
  exact h

theorem backed_retire (P : PcrState) (x : Session) (as : List PcrAssertion) : Backed P x (as.map .retire) := by
  refine .inr fun a ha hcurrent => ?_
  obtain ⟨b, -, rfl⟩ := List.mem_map.1 ha
  cases hcurrent

theorem Backed.respond (h : Backed P x as) (w : Circumstances) (nonceTpm : Bytes) :
    Backed P (x.respond w nonceTpm) (if x.attributes.isPolicy then as.map .retire else as) := by
  unfold Session.respond
  cases x.attributes.isPolicy with
  | true => exact backed_retire ..
  | false => exact h

theorem Backed.policyPCR {H : PolicyHash} {m : PcrMachine} (hpos : 0 < m.pcr.pcrCounter) (h : Backed m.pcr x as)
    (w : Circumstances) (pcrs : List PcrSelection) (pcrDigest : Bytes) :
    Backed m.pcr (m.policyPCR H w pcrs pcrDigest x as).1 (m.policyPCR H w pcrs pcrDigest x as).2 := by
  unfold PcrMachine.policyPCR
  dsimp only
  generalize m.pcr.currentDigest H x.authHashAlg pcrs = current
  unfold PqcTpm.policyPCR
  cases htrial : x.attributes.isTrialPolicy with
  | true => exact .inl htrial
  | false =>
      rw [if_neg Bool.false_ne_true]
      split
      · rename_i r x' hout
        split at hout
        · cases hout
        · rename_i hcounter
          split at hout
          · cases hout
          · cases hout
            have hnow : x.pcrCounter = 0 ∨ x.pcrCounter = m.pcr.pcrCounter := by
              by_contra hne
              rw [not_or] at hne
              exact hcounter hne
            refine .inr fun a ha hcurrent => ⟨hpos, ?_⟩
            rcases List.mem_cons.1 ha with rfl | hmem
            · exact le_refl _
            · rcases h with hreal | hall
              · exact absurd (hreal.symm.trans htrial) (by decide)
              · obtain ⟨hbefore, hstamp⟩ := hall a hmem hcurrent
                -- the session already had a counter, which is the present one
                rcases hnow with hzero | hsame
                · omega
                · rw [hsame] at hstamp
                  exact hstamp
      · rename_i e x' hout
        split at hout
        · cases hout
          exact h
        · split at hout
          · cases hout
            exact h
          · cases hout

end

/-! ## The invariant -/

namespace PcrMachine
variable {H : PolicyHash} {level : Nat} {m : PcrMachine}

/-- While the TPM runs, the counters of all sessions and contexts back what has been asserted. -/
structure Running (m : PcrMachine) : Prop where
  valid : ValidAllocation m.pcr.pcrAllocated
  bounded : m.pcr.pcrCounter < 2 ^ 32
  positive : 0 < m.pcr.pcrCounter
  loaded : ∀ k x, m.sessions.table.sessions k = some x → Backed m.pcr x (m.asserted k)
  saved : ∀ g ∈ m.givenOut, Backed m.pcr g.1.session g.2

/-- What a start finds is not older than the contexts that it leaves. -/
structure Sound (m : PcrMachine) : Prop where
  nvValid : ValidAllocation m.nvAllocated
  savedCounter : m.savedCounter < 2 ^ 32
  dated : m.sessions.orderly = some .state → ∀ g ∈ m.givenOut, Dated m.savedCounter g.1.session g.2
  off : m.mode = .off → m.pcr.pcrAllocated = m.nvAllocated
  running : m.mode = .running → m.Running

theorem Sound.fail (h : m.Sound) : ({ m with mode := .failed } : PcrMachine).Sound :=
  ⟨h.nvValid, h.savedCounter, h.dated, (nomatch ·), (nomatch ·)⟩

/-- The banks change as they may: the counter has gone up or the counted values are the same. -/
theorem Sound.settle (h : m.Sound) (hmode : m.mode = .running) {r : Except Fault PcrState} {endsOrderly : Bool}
    (hr : ∀ P, r = .ok P → m.pcr.Counts P ∧ m.pcr.view ≤ P.view) : (m.settle endsOrderly r).Sound := by
  unfold PcrMachine.settle
  cases r with
  | error e => exact h.fail
  | ok P =>
      obtain ⟨hcounts, hle⟩ := hr P rfl
      have hrun := h.running hmode
      have hrunning : ∀ sessions : SessionMachine, sessions.table = m.sessions.table →
          ({ m with pcr := P, sessions } : PcrMachine).Running := by
        intro sessions htable
        refine ⟨hcounts.allocated ▸ hrun.valid, hcounts.bounded, Nat.lt_of_lt_of_le hrun.positive hcounts.le, ?_, ?_⟩
        · intro k x hx
          exact (hrun.loaded k x (htable ▸ hx)).mono hle
        · intro g hg
          exact (hrun.saved g hg).mono hle
      cases endsOrderly with
      | true => exact ⟨h.nvValid, h.savedCounter, (nomatch ·), fun hoff => absurd (hmode.symm.trans hoff) (by decide),
          fun _ => hrunning _ rfl⟩
      | false => exact ⟨h.nvValid, h.savedCounter, h.dated, fun hoff => absurd (hmode.symm.trans hoff) (by decide),
          fun _ => hrunning _ rfl⟩

theorem Sound.sessions (h : m.Sound) (hmode : m.mode = .running) {sessions : SessionMachine}
    {asserted : SessionSlot → List PcrAssertion}
    (horderly : sessions.orderly = m.sessions.orderly ∨ sessions.orderly = none)
    (hloaded : m.Running → ∀ k x, sessions.table.sessions k = some x → Backed m.pcr x (asserted k)) :
    ({ m with sessions, asserted } : PcrMachine).Sound := by
  have hrun := h.running hmode
  refine ⟨h.nvValid, h.savedCounter, fun hstate => ?_, fun hoff => absurd (hmode.symm.trans hoff) (by decide), fun _ => ?_⟩
  · rcases horderly with hsame | hnone
    · exact h.dated (hsame.symm.trans hstate)
    · exact absurd (hnone.symm.trans hstate) (by decide)
  · exact ⟨hrun.valid, hrun.bounded, hrun.positive, hloaded hrun, hrun.saved⟩

theorem Sound.follows (h : m.Sound) (hmode : m.mode = .running) {sessions : SessionMachine}
    (hf : m.sessions.Follows sessions fun _ => False) : ({ m with sessions } : PcrMachine).Sound := by
  have hbacked : m.Running → ∀ k x, sessions.table.sessions k = some x → Backed m.pcr x (m.asserted k) := by
    intro hrun k x hx
    rcases hf.loaded k x hx with hold | ⟨-, hfalse⟩
    · exact hrun.loaded k x hold
    · exact hfalse.elim
  exact h.sessions hmode hf.orderly hbacked

/-- A command on one session that keeps it backed. -/
theorem Sound.onSession (h : m.Sound) (hmode : m.mode = .running) (handle : TpmHandle) (continueSession : Bool)
    {f : Session → List PcrAssertion → Session × List PcrAssertion}
    (hf : m.Running → ∀ s as, Backed m.pcr s as → Backed m.pcr (f s as).1 (f s as).2) :
    (m.onSession handle continueSession f).Sound := by
  unfold PcrMachine.onSession
  split
  · exact h
  · rename_i k hslot
    split
    · rename_i hload hs
      rename_i s
      refine h.sessions hmode (SessionMachine.useSession_follows _ _) fun hrun l x hx => ?_
      rcases SessionMachine.sessions_useSession hload hx with ⟨hne, hold⟩ | ⟨s', hsame, hold, rfl⟩
      · have hl : l ≠ k := by
          rintro rfl
          exact hne hslot
        rw [Function.update_of_ne hl]
        exact hrun.loaded l x hold
      · obtain rfl : k = l := Option.some.inj (hslot.symm.trans hsame)
        obtain rfl : s = s' := Option.some.inj (hs.symm.trans hold)
        rw [Function.update_self]
        exact hf hrun s _ (hrun.loaded k s hold)
    · exact h

theorem shutdown_state {sessions : SessionMachine} {r : SessionReply} {nvStatus : Option RcCode} {reConfig : Bool}
    {shutdownType : ShutdownType} {s : SessionMachine} (h : s.shutdown nvStatus reConfig shutdownType = (.ok r, sessions)) :
    sessions.table = s.table ∧ sessions.orderly = some shutdownType := by
  unfold SessionMachine.shutdown at h
  split at h
  · cases h
  · split at h
    · cases h
    · dsimp only at h
      split at h
      · cases h
        exact ⟨rfl, rfl⟩
      · cases h
        exact ⟨rfl, rfl⟩

/-- A start leaves no session loaded, and no orderly state. -/
theorem startup_ok {sessions s : SessionMachine} {r : SessionReply} {nvStatus : Option RcCode} {startupType : ShutdownType}
    {nvOk : Bool} {sameStart : Option TpmRc} (h : s.startup nvStatus startupType nvOk sameStart = (.ok r, sessions)) :
    (∀ k, sessions.table.sessions k = none) ∧ sessions.orderly = none ∧
      (startupKindOf s.orderly startupType nvOk ≠ .reset → s.orderly = some .state) := by
  have hstart : ∀ kind, (∀ k, (s.start kind).table.sessions k = none) ∧ (s.start kind).orderly = none := by
    intro kind
    cases kind <;> exact ⟨fun _ => rfl, rfl⟩
  unfold SessionMachine.startup at h
  unfold startupKindOf
  split at h
  · cases h
  · split at h
    · split at h
      · cases h
      · rename_i horderly
        have hstate : s.orderly = some .state := Decidable.not_not.1 horderly
        split at h
        · cases h
        · split at h
          · cases h
          · cases h
            exact ⟨(hstart _).1, (hstart _).2, fun _ => hstate⟩
    · rw [if_neg (by decide)]
      split at h
      · rename_i hboth
        cases h
        exact ⟨(hstart _).1, (hstart _).2, fun _ => hboth.1⟩
      · rename_i hnot
        cases h
        refine ⟨(hstart _).1, (hstart _).2, fun hne => ?_⟩
        rw [if_neg hnot] at hne
        exact absurd rfl hne

theorem startup_sound (h : m.Sound) (hmode : m.mode = .off) (nvStatus : Option RcCode) (startupType : ShutdownType)
    (nvOk : Bool) (sameStart : Option TpmRc) (locality : UInt8) :
    (m.startup nvStatus startupType nvOk sameStart locality).Sound := by
  unfold PcrMachine.startup
  split
  · exact h
  · split
    · exact h
    · rename_i sessions hstart
      obtain ⟨hvacant, hnone, hkind⟩ := startup_ok hstart
      dsimp only
      generalize startupKindOf m.sessions.orderly startupType nvOk = kind at hkind
      have hsaved : (m.restored kind).pcrAllocated = m.nvAllocated ∧
          (kind ≠ .reset → (m.restored kind).pcrCounter = m.savedCounter) := by
        cases kind with
        | reset => exact ⟨h.off hmode, fun hne => absurd rfl hne⟩
        | restart => exact ⟨h.off hmode, fun _ => rfl⟩
        | resume => exact ⟨h.off hmode, fun _ => rfl⟩
      split
      · exact h.fail
      · rename_i P' hP'
        obtain ⟨hbounded, hallocated, hpos, hlt⟩ := PcrState.pcrStartup_counts
          (fun hne => by rw [hsaved.2 hne]; exact h.savedCounter) hP'
        refine ⟨h.nvValid, h.savedCounter, ?_, (nomatch ·), fun _ => ⟨?_, hbounded, hpos, ?_, ?_⟩⟩
        · intro hstate
          exact absurd (hnone.symm.trans hstate) (by decide)
        · dsimp only
          rw [hallocated, hsaved.1]
          exact h.nvValid
        · intro k x hx
          exact absurd ((hvacant k).symm.trans hx) (nomatch ·)
        · intro g hg
          dsimp only at hg
          split at hg
          · cases hg
          · rename_i hne
            -- the contexts are from before the shutdown whose counter goes on
            have hdated := h.dated (hkind hne) g hg
            exact hdated.backed ((hsaved.2 hne) ▸ hlt hne)

theorem shutdown_sound (h : m.Sound) (hmode : m.mode = .running) (nvStatus : Option RcCode) (shutdownType : ShutdownType) :
    (m.act H level (.shutdown nvStatus shutdownType)).Sound := by
  have hrun := h.running hmode
  simp only [act]
  split
  · exact h
  · rename_i sessions hshutdown
    obtain ⟨htable, horderly⟩ := shutdown_state hshutdown
    split
    · refine ⟨h.nvValid, hrun.bounded, fun _ g hg => (hrun.saved g hg).dated,
        fun hoff => absurd (hmode.symm.trans hoff) (by decide), fun _ => ?_⟩
      exact ⟨hrun.valid, hrun.bounded, hrun.positive, fun k x hx => hrun.loaded k x (htable ▸ hx), hrun.saved⟩
    · rename_i hclear
      refine ⟨h.nvValid, h.savedCounter, fun hstate => ?_,
        fun hoff => absurd (hmode.symm.trans hoff) (by decide), fun _ => ?_⟩
      · exact absurd (Option.some.inj (horderly.symm.trans hstate)) hclear
      · exact ⟨hrun.valid, hrun.bounded, hrun.positive, fun k x hx => hrun.loaded k x (htable ▸ hx), hrun.saved⟩

theorem startAuthSession_sound (h : m.Sound) (hmode : m.mode = .running) (sessionType : SessionType)
    (checks : Option TpmRc) (session : Session) :
    (m.act H level (.startAuthSession sessionType checks session)).Sound := by
  have hf := SessionMachine.startAuthSession_follows (m := m.sessions) sessionType checks session
  refine h.sessions hmode hf.orderly fun hrun k x hx => ?_
  rcases hf.loaded k x hx with hold | ⟨hnone, -⟩
  · rw [hold, Option.isNone_some, if_neg Bool.false_ne_true]
    exact hrun.loaded k x hold
  · rw [hnone, Option.isNone_none, if_pos rfl]
    exact backed_nil ..

/-- A context has the counter of the session that is saved, and its assertions. -/
theorem contextSave_sound (h : m.Sound) (hmode : m.mode = .running) (nvStatus : Option RcCode) (handle : TpmHandle) :
    (m.act H level (.contextSave nvStatus handle)).Sound := by
  have hrun := h.running hmode
  obtain ⟨hf, hgiven⟩ := SessionMachine.contextSave_follows (m := m.sessions) nvStatus handle
  simp only [act]
  split
  · rename_i context sessions hsave
    rw [hsave] at hf hgiven
    obtain ⟨hnone, hget⟩ := hgiven context rfl
    obtain ⟨k, hslot, hk⟩ := SessionMachine.sessions_of_sessionGet hget
    refine ⟨h.nvValid, h.savedCounter, fun hstate => absurd (hnone.symm.trans hstate) (by decide),
      fun hoff => absurd (hmode.symm.trans hoff) (by decide), fun _ => ?_⟩
    refine ⟨hrun.valid, hrun.bounded, hrun.positive, fun l x hx => ?_, fun g hg => ?_⟩
    · rcases hf.loaded l x hx with hold | ⟨-, hfalse⟩
      · exact hrun.loaded l x hold
      · exact hfalse.elim
    · rcases List.mem_cons.1 hg with rfl | hmem
      · dsimp only
        rw [hslot]
        exact hrun.loaded k context.session hk
      · exact hrun.saved g hmem
  · rename_i hsave
    rw [hsave] at hf
    exact h.follows hmode hf

theorem contextLoad_sound (h : m.Sound) (hmode : m.mode = .running) (nvStatus : Option RcCode)
    (integrity : Option TpmRc) (k : Nat) : (m.act H level (.contextLoad nvStatus integrity k)).Sound := by
  simp only [act]
  split
  · exact h
  · rename_i context as hk
    have hf := SessionMachine.contextLoad_follows (m := m.sessions) nvStatus integrity context
    refine h.sessions hmode hf.orderly fun hrun l x hx => ?_
    rcases hf.loaded l x hx with hold | ⟨hnone, rfl⟩
    · rw [hold, Option.isNone_some, if_neg Bool.false_ne_true]
      exact hrun.loaded l x hold
    · rw [hnone, Option.isNone_none, if_pos rfl]
      exact hrun.saved _ (List.mem_of_getElem? hk)

theorem pcrAllocate_sound (h : m.Sound) (hmode : m.mode = .running) (nvStatus : Option RcCode)
    (pcrAllocation : List PcrSelection) : (m.act H level (.pcrAllocate nvStatus pcrAllocation)).Sound := by
  have hrun := h.running hmode
  simp only [act]
  split
  · exact h
  · split
    · exact h
    · rename_i banks hbanks
      refine ⟨pcrAllocate_valid hrun.valid hbanks, h.savedCounter, h.dated,
        fun hoff => absurd (hmode.symm.trans hoff) (by decide), fun _ => ?_⟩
      exact ⟨hrun.valid, hrun.bounded, hrun.positive, hrun.loaded, hrun.saved⟩

theorem act_sound (h : m.Sound) (hmode : m.mode = .running) (e : PcrEvent) : (m.act H level e).Sound := by
  have hrun := h.running hmode
  cases e with
  | powerLoss | startup => exact h
  | hashSequence data =>
      refine h.settle hmode fun P hP => ?_
      obtain ⟨hcounts, hlt⟩ := PcrState.hashEnd_counts hrun.bounded hrun.valid.drtm hP
      exact ⟨hcounts, Versioned.le_of_version_lt hlt⟩
  | shutdown nvStatus shutdownType => exact shutdown_sound h hmode nvStatus shutdownType
  | startAuthSession sessionType checks session => exact startAuthSession_sound h hmode sessionType checks session
  | contextSave nvStatus handle => exact contextSave_sound h hmode nvStatus handle
  | contextLoad nvStatus integrity k => exact contextLoad_sound h hmode nvStatus integrity k
  | flushContext handle => exact h.follows hmode (SessionMachine.flushContext_follows handle)
  | policyPCR handle w pcrs pcrDigest =>
      simp only [act]
      split
      · exact h.onSession hmode handle true fun hrun s as hs => hs.policyPCR hrun.positive w pcrs pcrDigest
      · exact h
  | policy handle w cmd =>
      simp only [act]
      split
      · exact h.onSession hmode handle true fun _ s as hs => hs.sameCounter (cmd.val.act_sameCounter cmd.property)
      · exact h
  | policyRestart handle =>
      simp only [act]
      split
      · exact h.onSession hmode handle true fun _ s as _ => backed_retire ..
      · exact h
  | audit handle digest =>
      simp only [act]
      exact h.onSession hmode handle true fun _ s as hs => hs.sameCounter ⟨rfl, rfl⟩
  | respond handle w nonceTpm continueSession =>
      simp only [act]
      exact h.onSession hmode handle continueSession fun _ s as hs => hs.respond w nonceTpm
  | pcr nvStatus locality cmd =>
      simp only [act]
      split
      · exact h
      · split
        · exact h
        · exact h.settle hmode fun P hP => cmd.update_counts hrun.bounded hP
  | pcrAllocate nvStatus pcrAllocation => exact pcrAllocate_sound h hmode nvStatus pcrAllocation
  | clear nvStatus disableClear =>
      simp only [act]
      split
      · exact h
      · refine h.settle hmode fun P hP => ?_
        obtain ⟨hcounts, hle, -⟩ := PcrState.view_le_of_written (fun _ _ _ => rfl) hrun.bounded hP
        exact ⟨hcounts, hle⟩

theorem step_sound (h : m.Sound) (e : PcrEvent) : (m.step H level e).Sound := by
  have hoff : ∀ memory : PcrState, ({ m with
      mode := .off
      pcr := { memory with pcrAllocated := m.nvAllocated, drtmPreStartup := false } } : PcrMachine).Sound :=
    fun memory => ⟨h.nvValid, h.savedCounter, h.dated, fun _ => rfl, (nomatch ·)⟩
  cases hmode : m.mode with
  | failed =>
      unfold step
      rw [hmode]
      cases e with
      | powerLoss memory => exact hoff memory
      | _ => exact h
  | running =>
      unfold step
      rw [hmode]
      cases e with
      | powerLoss memory => exact hoff memory
      | _ => exact act_sound h hmode _
  | off =>
      unfold step
      rw [hmode]
      cases e with
      | powerLoss memory => exact hoff memory
      | startup nvStatus startupType nvOk sameStart locality =>
          exact startup_sound h hmode nvStatus startupType nvOk sameStart locality
      | hashSequence data =>
          dsimp only
          unfold PcrMachine.settle
          split
          · exact h.fail
          · rename_i P hP
            exact ⟨h.nvValid, h.savedCounter, h.dated, fun _ => (PcrState.hashEnd_allocated hP).trans (h.off hmode),
              fun hrunning => absurd (hmode.symm.trans hrunning) (by decide)⟩
      | _ => exact h

theorem initial_sound (mask : Nat) : (initial mask).Sound :=
  ⟨manufacturedBanks_valid, Nat.two_pow_pos 32, (nomatch ·), fun _ => rfl, (nomatch ·)⟩

/-! ## Runs -/

theorem sound_of_run {mask : Nat} (h : Reachable (fun m => m = initial mask) (fun m m' => ∃ e, m' = m.step H level e) m) :
    m.Sound := by
  refine Reachable.invariant ?_ ?_ h
  · rintro m rfl
    exact initial_sound mask
  · rintro m m' hm ⟨e, rfl⟩
    exact step_sound hm e

theorem holds_of_backed {P : PcrState} {x : Session} {as : List PcrAssertion} (h : Backed P x as)
    (hreal : x.attributes.isTrialPolicy = false) (hcurrent : x.pcrCounter = 0 ∨ x.pcrCounter = P.pcrCounter) :
    ∀ a ∈ as, a.current = true → a.Holds P := by
  intro a ha hasserted select _ pcr _ hcounted
  rcases h with htrial | hall
  · exact absurd (htrial.symm.trans hreal) (by decide)
  · obtain ⟨hpos, hstamp⟩ := hall a ha hasserted
    rcases hcurrent with hzero | hsame
    · omega
    · exact (pcrs_eq_of_counted (Versioned.value_eq hstamp hsame) hcounted select.hash).symm

theorem counter_of_accepts {x : Session} (h : m.Accepts H level x) :
    x.pcrCounter = 0 ∨ x.pcrCounter = m.pcr.pcrCounter := by
  obtain ⟨-, w, cmd, hcheck⟩ := h
  unfold checkPolicyAuthSession at hcheck
  obtain ⟨_, -, hcheck⟩ := bind_eq_ok hcheck
  obtain ⟨_, hcounter, -⟩ := bind_eq_ok hcheck
  have hor := demand_eq_ok hcounter
  unfold sessionPCRValueIsCurrent at hor
  rw [Bool.or_eq_true, beq_iff_eq, beq_iff_eq] at hor
  exact hor

/-- In every run, what `TPM2_PolicyPCR` has asserted on a session since its policy last started over holds of the PCRs
while the session is accepted. -/
theorem policyPCR_holds {mask : Nat}
    (h : Reachable (fun m => m = initial mask) (fun m m' => ∃ e, m' = m.step H level e) m) (hmode : m.mode = .running)
    {k : SessionSlot} {x : Session} (hx : m.sessions.table.sessions k = some x) (haccepts : m.Accepts H level x) :
    ∀ a ∈ m.asserted k, a.current = true → a.Holds m.pcr :=
  holds_of_backed (((sound_of_run h).running hmode).loaded k x hx) haccepts.1 (counter_of_accepts haccepts)

end PcrMachine

/-! ## A policy that starts over -/

def onesHash : PolicyHash where
  hash alg _ := List.replicate alg.digestSize 1
  length_eq _ _ := List.length_replicate

def quietWorld : Circumstances where
  pcrCounter := 0
  time := 0
  timeEpoch := 0
  nvAvailable := true
  locality := 0
  physicalPresence := false
  enabledCommands _ := true

def policyHandle : TpmHandle := 0x03000000

/-- A start, a policy session, and an assertion on PCR 1. -/
def assertedEvents : List PcrEvent :=
  [.startup none .clear true none 0,
    .startAuthSession .policy none (Session.createPolicy quietWorld .sha256 [] false false false),
    .policyPCR policyHandle quietWorld [⟨.sha256, [2, 0, 0]⟩] []]

/-- The policy is started over, and the PCR extended. -/
def restartedEvents : List PcrEvent :=
  assertedEvents ++ [.policyRestart policyHandle, .pcr none 0 (.pcrExtend (some 1) [(.sha256, [])])]

def pcrRun (es : List PcrEvent) : PcrMachine := run (fun m e => m.step onesHash 4 e) (.initial 0xffff) es

theorem pcrRun_reached (es : List PcrEvent) :
    Reachable (fun m => m = PcrMachine.initial 0xffff) (fun m m' => ∃ e, m' = m.step onesHash 4 e) (pcrRun es) :=
  @Reachable.of_run _ _ (fun m e => m.step onesHash 4 e) (fun m => m = PcrMachine.initial 0xffff) _ rfl es

/-- A command that an entity authorizes with the policy digest `digest`. -/
def policedCommand (digest : Bytes) : AuthorizedCommand where
  code := 0x14E
  handleNames := []
  parameters := []
  role := .user
  authPolicy := digest
  policyAlg := some .sha256
  nvWritten := none

abbrev PolicyHolds (m : PcrMachine) (k : SessionSlot) : Prop :=
  ∀ a ∈ m.asserted k, a.current = true → a.Holds m.pcr

/-- A second assertion, on the debug PCR, and an extend of that PCR, which the update counter does not count. -/
def debugExtended : List PcrEvent :=
  assertedEvents ++ [.policyPCR policyHandle quietWorld [⟨.sha256, [0, 0, 1]⟩] [],
    .pcr none 0 (.pcrExtend (some 16) [(.sha256, [])])]

theorem debugExtended_policyHolds :
    PolicyHolds (pcrRun debugExtended) 0 ∧
      (pcrRun debugExtended).pcr.pcrs .sha256 16 ≠ (pcrRun assertedEvents).pcr.pcrs .sha256 16 := by
  have hx : ∃ x, (pcrRun debugExtended).sessions.table.sessions 0 = some x ∧
      (pcrRun debugExtended).Accepts onesHash 4 x :=
    ⟨_, rfl, rfl, quietWorld, policedCommand (List.replicate 32 1), rfl⟩
  obtain ⟨x, hx, haccepts⟩ := hx
  exact ⟨PcrMachine.policyPCR_holds (pcrRun_reached debugExtended) rfl hx haccepts, by decide⟩

/-- A session whose policy has started over is accepted whatever its PCRs hold. -/
theorem restarted_policy_accepts :
    ∃ m k x, Reachable (fun m => m = PcrMachine.initial 0xffff) (fun m m' => ∃ e, m' = m.step onesHash 4 e) m ∧
      m.mode = .running ∧ m.sessions.table.sessions k = some x ∧ m.Accepts onesHash 4 x ∧
        ¬ ∀ a ∈ m.asserted k, a.Holds m.pcr := by
  refine ⟨pcrRun restartedEvents, 0, _, pcrRun_reached restartedEvents, rfl, rfl,
    ⟨rfl, quietWorld, policedCommand (List.replicate 32 0), rfl⟩, fun hholds => ?_⟩
  have hvalue := hholds _ List.mem_cons_self ⟨.sha256, [2, 0, 0]⟩ List.mem_cons_self 1 rfl rfl
  exact absurd hvalue (by decide)

end PqcTpm
