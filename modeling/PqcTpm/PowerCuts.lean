import PqcTpm.SelfHeal

/-!
# Failures and power cuts

A failure that is reported while NV is not available is counted in RAM only; that protected values
were used in this cycle has been recorded before. The ledger says how many reported failures NV does
not know of, and whether a startup owes one to the cycle before.
-/
namespace PqcTpm

/-- What is pending outside NV in this cycle, and what is owed to earlier ones. -/
structure CutLedger where
  pending : Nat := 0
  owed : Nat := 0
  deriving DecidableEq, Repr

namespace DaState
variable {accumulate : Bool} {f : DaCopy} {q : Prop} {s s' s'' : DaState}

/-- The failure of a protected authorization is reported. -/
def Reports (accumulate : Bool) (s : DaState) (e : DaEvent) : Prop :=
  s.Registers e ∧ s.gp.recoveryTime ≠ 0 ∧ (s.after accumulate e).inFailureMode = false

instance (s : DaState) (e : DaEvent) : Decidable (s.Reports accumulate e) :=
  inferInstanceAs (Decidable (_ ∧ _ ∧ _))

/-- What `TPM2_Startup` adds; healing may take it off again. -/
def added (s s' : DaState) : Nat := s'.gp.failedTries + (s'.healed - s.healed) - s.gp.failedTries

/-- Nothing is pending once NV holds the counter. -/
def ledgerAfter (accumulate : Bool) (s : DaState) (e : DaEvent) (l : CutLedger) : CutLedger :=
  let s' := s.after accumulate e
  match e with
  | .tick _ => l
  | .init powerOn _ =>
      if s.inFailureMode && !powerOn then l else ⟨0, if l.pending = 0 then l.owed else 1⟩
  | .startup _ _ _ _ =>
      if s.started then { l with pending := if s'.file.gp.failedTries = s'.gp.failedTries then 0 else l.pending }
      else if s'.started && !s'.inFailureMode then
        ⟨0, if s.gp.maxTries ≤ s.gp.failedTries then 0 else l.owed - s.added s'⟩
      else l
  | .command _ _ _ _ =>
      { l with
        pending :=
          if s'.file.gp.failedTries = s'.gp.failedTries then 0
          else l.pending + if s.Reports accumulate e then 1 else 0 }

def ledger (accumulate : Bool) : DaState → CutLedger → List DaEvent → DaState × CutLedger
  | s, l, [] => (s, l)
  | s, l, e :: events => ledger accumulate (s.after accumulate e) (s.ledgerAfter accumulate e l) events

/-! ## NV within a cycle -/

/-- NV memory holds the counter of RAM, but for one failure at most; that one is pending, and NV has the
mark of the cycle. What is committed is `f`, and NV memory unless it is to be committed; `q` is why
something may be pending. -/
structure Counted (f : DaCopy) (q : Prop) (s : DaState) : Prop where
  maxTries : s.gp.maxTries = s.nv.gp.maxTries
  recoveryTime : s.gp.recoveryTime = s.nv.gp.recoveryTime
  failedTries : s.gp.failedTries = s.nv.gp.failedTries ∨
    q ∧ s.gp.failedTries = s.nv.gp.failedTries + 1 ∧ s.daPendingOnNv = true ∧ s.nv.gp.orderlyState = .daUsed ∧
      s.nv.gp.recoveryTime ≠ 0
  file : s.file = f
  stored : s.updateNv = true ∨ s.nv.gp = f.gp

/-- In a running TPM it holds the state of the cycle as well. -/
structure Tracked (f : DaCopy) (q : Prop) (s : DaState) : Prop extends Counted f q s where
  orderlyState : s.gp.orderlyState = s.nv.gp.orderlyState

theorem Counted.healFailedTries (h : Counted f q s) : s.healFailedTries.Counted f q := by
  unfold DaState.healFailedTries
  split
  · exact h
  split
  · exact ⟨h.maxTries, h.recoveryTime, .inl rfl, h.file, .inl rfl⟩
  · dsimp only
    split
    · exact ⟨h.maxTries, h.recoveryTime, .inl rfl, h.file, .inl rfl⟩
    · rename_i hcount
      rw [not_not.mp hcount, Nat.zero_mod, Nat.sub_zero]
      refine ⟨h.maxTries, h.recoveryTime, ?_, h.file, h.stored⟩
      have hsame : (if s.gp.failedTries ≤ 0 then 0 else s.gp.failedTries) = s.gp.failedTries := by
        split <;> omega
      dsimp only
      rw [hsame]
      exact h.failedTries

theorem Counted.healLockout (h : Counted f q s) : s.healLockout.Counted f q := by
  unfold DaState.healLockout
  split
  · exact ⟨h.maxTries, h.recoveryTime, h.failedTries, h.file, .inl rfl⟩
  · exact h

theorem Counted.timeUpdate (clockDue : Bool) (h : Counted f q s) : (s.timeUpdate clockDue).Counted f q := by
  unfold DaState.timeUpdate
  dsimp only
  refine Counted.healLockout (Counted.healFailedTries ?_)
  split
  · exact ⟨h.maxTries, h.recoveryTime, h.failedTries, h.file, h.stored⟩
  · exact ⟨h.maxTries, h.recoveryTime, h.failedTries, h.file, h.stored⟩

theorem timeUpdate_orderlyState (clockDue : Bool) (s : DaState) :
    (s.timeUpdate clockDue).gp.orderlyState = s.gp.orderlyState ∧
      (s.timeUpdate clockDue).nv.gp.orderlyState = s.nv.gp.orderlyState := by
  have hfirst (s : DaState) : s.healFailedTries.gp.orderlyState = s.gp.orderlyState ∧
      s.healFailedTries.nv.gp.orderlyState = s.nv.gp.orderlyState := by
    unfold DaState.healFailedTries
    split
    · exact ⟨rfl, rfl⟩
    split
    · exact ⟨rfl, rfl⟩
    · dsimp only
      split <;> exact ⟨rfl, rfl⟩
  have hsecond (s : DaState) : s.healLockout.gp.orderlyState = s.gp.orderlyState ∧
      s.healLockout.nv.gp.orderlyState = s.nv.gp.orderlyState := by
    unfold DaState.healLockout
    split <;> exact ⟨rfl, rfl⟩
  have hboth (s : DaState) : s.daSelfHeal.gp.orderlyState = s.gp.orderlyState ∧
      s.daSelfHeal.nv.gp.orderlyState = s.nv.gp.orderlyState :=
    ⟨(hsecond _).1.trans (hfirst s).1, (hsecond _).2.trans (hfirst s).2⟩
  unfold DaState.timeUpdate
  dsimp only
  split
  · exact hboth { s with time := s.timer, nv := { s.nv with go := s.go } }
  · exact hboth { s with time := s.timer }

theorem Tracked.timeUpdate (clockDue : Bool) (h : Tracked f q s) : (s.timeUpdate clockDue).Tracked f q := by
  obtain ⟨hram, hnv⟩ := s.timeUpdate_orderlyState clockDue
  exact ⟨h.toCounted.timeUpdate clockDue, hram.trans (h.orderlyState.trans hnv.symm)⟩

theorem Tracked.checkLockedOut (available lockoutAuthCheck : Bool) (h : Tracked f q s) :
    (s.checkLockedOut available lockoutAuthCheck).2.Tracked f q := by
  have hwritten : s.writePending.Tracked f q := by
    unfold writePending
    split
    · exact ⟨⟨h.maxTries, h.recoveryTime, .inl rfl, h.file, .inl rfl⟩, h.orderlyState⟩
    · exact h
  unfold DaState.checkLockedOut
  split
  · exact h
  dsimp only
  split
  · exact hwritten
  split
  · exact hwritten
  split
  · exact hwritten
  split
  · exact hwritten
  · refine ⟨⟨hwritten.maxTries, hwritten.recoveryTime, ?_, hwritten.file, .inl rfl⟩, rfl⟩
    rcases hwritten.failedTries with hsame | ⟨hq, hone, hpending, -, hrecovery⟩
    · exact .inl hsame
    · exact .inr ⟨hq, hone, hpending, rfl, hrecovery⟩

theorem checkLockedOut_unavailable (lockoutAuthCheck : Bool) (s : DaState) :
    s.checkLockedOut false lockoutAuthCheck =
      (!(s.gp.orderlyState.isOrderly || s.daPendingOnNv) &&
        (if lockoutAuthCheck then s.gp.lockOutAuthEnabled
          else decide (s.gp.failedTries < s.gp.maxTries) && s.daUsed), s) := by
  unfold checkLockedOut
  cases hblocked : s.gp.orderlyState.isOrderly || s.daPendingOnNv with
  | true => rfl
  | false =>
      have hpending : s.writePending = s := if_neg (by simp [(Bool.or_eq_false_iff.mp hblocked).2])
      rw [hpending]
      cases lockoutAuthCheck with
      | true => rfl
      | false =>
          by_cases hlimit : s.gp.maxTries ≤ s.gp.failedTries
          · simp [hlimit, Nat.not_lt.mpr hlimit]
          · cases hused : s.daUsed <;> simp [hlimit, hused, Nat.lt_of_not_le hlimit]

/-! ## Sessions -/

theorem Tracked.lockoutGate (due available lockoutAuthCheck : Bool) (h : Tracked f q s) :
    (s.lockoutGate due available lockoutAuthCheck).2.Tracked f q := by
  unfold DaState.lockoutGate
  split
  · exact h.checkLockedOut available lockoutAuthCheck
  · exact h

theorem lockoutGate_unavailable (due lockoutAuthCheck : Bool) (s : DaState) :
    (s.lockoutGate due false lockoutAuthCheck).2 = s := by
  unfold lockoutGate
  split
  · rw [checkLockedOut_unavailable]
  · rfl

/-- What a gate that is due for `failedTries` has looked at. -/
theorem lockoutGate_passes (h : (s.lockoutGate true false false).1 = true) :
    s.gp.orderlyState.isOrderly = false ∧ s.daPendingOnNv = false ∧ s.daUsed = true := by
  rw [lockoutGate, if_pos rfl, checkLockedOut_unavailable] at h
  simp only [Bool.false_eq_true, if_false, Bool.and_eq_true, Bool.not_eq_true', Bool.or_eq_false_iff] at h
  exact ⟨h.1.1, h.1.2, h.2.2⟩

/-- A failure is counted in NV, or it is the first that is pending. -/
theorem Tracked.incrementLockout (available : Bool) (u : DaUse) (h : Tracked f q s)
    (hopen : available = false → (s.incrementLockout available u).1 = .counts →
      s.daPendingOnNv = false ∧ s.gp.orderlyState = .daUsed ∧ (s.gp.recoveryTime ≠ 0 → q)) :
    (s.incrementLockout available u).2.Tracked f q := by
  have hsame : s.daPendingOnNv = false → s.gp.failedTries = s.nv.gp.failedTries := by
    intro hnone
    rcases h.failedTries with hsame | ⟨-, -, hpending, -, -⟩
    · exact hsame
    · rw [hnone] at hpending
      cases hpending
  unfold DaState.incrementLockout at hopen ⊢
  split
  · exact h
  rename_i hcounted
  rw [if_neg hcounted] at hopen
  split
  · split
    · exact ⟨⟨h.maxTries, h.recoveryTime, h.failedTries, h.file, h.stored⟩, h.orderlyState⟩
    · dsimp only
      split
      · exact ⟨⟨h.maxTries, h.recoveryTime, h.failedTries, h.file, h.stored⟩, h.orderlyState⟩
      · split
        · exact ⟨⟨h.maxTries, h.recoveryTime, h.failedTries, h.file, .inl rfl⟩, h.orderlyState⟩
        · refine ⟨⟨h.maxTries, h.recoveryTime, ?_, h.file, h.stored⟩, h.orderlyState⟩
          rcases h.failedTries with hsame | ⟨hq, hone, -, hmark, hrecovery⟩
          · exact .inl hsame
          · exact .inr ⟨hq, hone, rfl, hmark, hrecovery⟩
  · rename_i hlockout
    rw [if_neg hlockout] at hopen
    dsimp only at hopen ⊢
    split
    · exact ⟨⟨h.maxTries, h.recoveryTime, h.failedTries, h.file, h.stored⟩, h.orderlyState⟩
    · rename_i hrecovery
      split
      · exact ⟨⟨h.maxTries, h.recoveryTime, .inl rfl, h.file, .inl rfl⟩, h.orderlyState⟩
      · rename_i hunavailable
        obtain ⟨hnone, hmark, hq⟩ := hopen (Bool.eq_false_of_not_eq_true hunavailable) rfl
        refine ⟨⟨h.maxTries, h.recoveryTime, .inr ⟨?_, ?_, rfl, ?_, ?_⟩, h.file, h.stored⟩, h.orderlyState⟩
        · exact hq hrecovery
        · exact congrArg (· + 1) (hsame hnone)
        · exact h.orderlyState.symm.trans hmark
        · exact h.recoveryTime ▸ hrecovery

theorem incrementLockout_due {available : Bool} {u : DaUse} (h : (s.incrementLockout available u).1 = .counts) :
    u.lockout = false ∧ u.isLockoutBound = false ∧
      (u.isDaBound = true ∨ (u.includeAuth && !u.exempted) = true) := by
  unfold DaState.incrementLockout at h
  split at h
  · cases h
  rename_i hcounted
  split at h
  · split at h <;> cases h
  · rename_i hlockout
    have hneither := Bool.or_eq_false_iff.mp (Bool.eq_false_of_not_eq_true hlockout)
    refine ⟨hneither.1, hneither.2, ?_⟩
    cases hbound : u.isDaBound with
    | true => exact .inl rfl
    | false =>
        rw [hbound, Bool.not_false, Bool.true_and] at hcounted
        have hboth := Bool.or_eq_false_iff.mp (Bool.eq_false_of_not_eq_true hcounted)
        rw [hboth.1, Bool.not_false, Bool.and_true]
        exact .inr (by simpa using hboth.2)

/-- `g_daUsed` is not left over from the cycle before where an authorization fails without NV. -/
def MarkKnown (available : Bool) (uses : List DaUse) (s : DaState) : Prop :=
  available = false → s.daUsed = true → s.gp.orderlyState = .none → ∀ u ∈ uses, u.genuine = true

/-- What the gates have looked at where a failure is counted without NV. -/
theorem checkSession_open {u : DaUse} (h : (s.checkSession false u).1 = .counts) :
    s.gp.orderlyState.isOrderly = false ∧ s.daPendingOnNv = false ∧ s.daUsed = true ∧ u.genuine = false := by
  unfold DaState.checkSession at h
  split at h
  · cases h
  dsimp only at h
  split at h
  · cases h
  rename_i hhandle
  rw [lockoutGate_unavailable u.isDaBound] at h
  split at h
  · cases h
  rename_i havailable
  rw [lockoutGate_unavailable] at h
  split at h
  · cases h
  rename_i hgenuine
  obtain ⟨hlockout, hlockoutBound, hdue⟩ := incrementLockout_due h
  have hpassed : (s.lockoutGate true false false).1 = true := by
    rcases hdue with hdue | hdue
    · rw [hdue, hlockoutBound] at hhandle
      cases hgate : (s.lockoutGate true false false).1 with
      | true => rfl
      | false => exact absurd (by rw [hgate]; rfl) hhandle
    · rw [hdue, hlockout] at havailable
      cases hgate : (s.lockoutGate true false false).1 with
      | true => rfl
      | false => exact absurd (by rw [hgate]; rfl) havailable
  obtain ⟨horderly, hpending, hused⟩ := lockoutGate_passes hpassed
  exact ⟨horderly, hpending, hused, Bool.eq_false_of_not_eq_true hgenuine⟩

theorem Tracked.checkSession {available : Bool} {u : DaUse} (h : Tracked f q s) (hmark : s.MarkKnown available [u])
    (hq : available = false → (s.checkSession available u).1 = .counts → s.gp.recoveryTime ≠ 0 → q) :
    (s.checkSession available u).2.Tracked f q := by
  have hopen : available = false → (s.checkSession available u).1 = .counts →
      s.daPendingOnNv = false ∧ s.gp.orderlyState = .daUsed ∧ (s.gp.recoveryTime ≠ 0 → q) := by
    intro hno hcounts
    subst hno
    obtain ⟨horderly, hpending, hused, hgenuine⟩ := checkSession_open hcounts
    refine ⟨hpending, ?_, hq rfl hcounts⟩
    cases hstate : s.gp.orderlyState with
    | daUsed => rfl
    | none =>
        have hyes := hmark rfl hused hstate u List.mem_cons_self
        rw [hgenuine] at hyes
        cases hyes
    | clear =>
        rw [hstate] at horderly
        cases horderly
    | state =>
        rw [hstate] at horderly
        cases horderly
  unfold DaState.checkSession at hopen ⊢
  split
  · exact h
  rename_i hsession
  rw [if_neg hsession] at hopen
  dsimp only at hopen ⊢
  have hbound := h.lockoutGate u.isDaBound available u.isLockoutBound
  split
  · exact hbound
  rename_i hhandle
  rw [if_neg hhandle] at hopen
  have hvalue := hbound.lockoutGate (u.includeAuth && !u.exempted) available u.lockout
  split
  · exact hvalue
  rename_i havailable
  rw [if_neg havailable] at hopen
  split
  · exact hvalue
  rename_i hgenuine
  rw [if_neg hgenuine] at hopen
  refine hvalue.incrementLockout available u fun hno hcounts => ?_
  have hfacts := hopen hno hcounts
  subst hno
  rw [lockoutGate_unavailable, lockoutGate_unavailable]
  exact hfacts

theorem incrementLockout_fails (available : Bool) (u : DaUse) (s : DaState) :
    (s.incrementLockout available u).1 ≠ .passes := by
  unfold DaState.incrementLockout
  split
  · exact nofun
  split
  · split <;> exact nofun
  · exact nofun

theorem checkSession_unavailable {u : DaUse} (h : s.checkSession false u = (.passes, s')) : s' = s := by
  unfold DaState.checkSession at h
  split at h
  · cases h
  dsimp only at h
  split at h
  · cases h
  split at h
  · cases h
  rw [lockoutGate_unavailable u.isDaBound, lockoutGate_unavailable] at h
  split at h
  · cases h
    rfl
  · exact absurd (congrArg Prod.fst h) (incrementLockout_fails false u s)

theorem Tracked.parseSessionBuffer {available : Bool} {uses : List DaUse} (h : Tracked f q s)
    (hmark : s.MarkKnown available uses)
    (hq : available = false → (s.parseSessionBuffer available uses).1 = .counts → s.gp.recoveryTime ≠ 0 → q) :
    (s.parseSessionBuffer available uses).2.Tracked f q := by
  induction uses generalizing s with
  | nil => exact h
  | cons u rest ih =>
      have hmark₁ : s.MarkKnown available [u] := by
        intro hno hused hnone v hv
        rw [List.mem_singleton] at hv
        exact hmark hno hused hnone v (hv ▸ List.mem_cons_self)
      unfold DaState.parseSessionBuffer at hq ⊢
      cases hstep : s.checkSession available u with
      | mk outcome t =>
          have hfirst := h.checkSession hmark₁ fun hno hcounts => by
            rw [hstep] at hcounts hq
            cases hcounts
            exact hq hno rfl
          rw [hstep] at hfirst hq
          cases outcome with
          | passes =>
              refine ih hfirst (fun hno hused hnone v hv => ?_) fun hno hcounts hrecovery => ?_
              · subst hno
                rw [checkSession_unavailable hstep] at hused hnone
                exact hmark rfl hused hnone v (List.mem_cons_of_mem u hv)
              · subst hno
                rw [checkSession_unavailable hstep] at hcounts hrecovery hq
                exact hq rfl hcounts hrecovery
          | refused => exact hfirst
          | counts => exact hfirst

theorem incrementLockout_stored {u : DaUse} (h : (s.incrementLockout true u).1 = .counts)
    (hr : (s.incrementLockout true u).2.gp.recoveryTime ≠ 0) :
    (s.incrementLockout true u).2.gp.failedTries = (s.incrementLockout true u).2.nv.gp.failedTries := by
  unfold DaState.incrementLockout at h hr ⊢
  split at h
  · cases h
  rename_i hcounted
  rw [if_neg hcounted] at hr ⊢
  split at h
  · split at h <;> cases h
  rename_i hlockout
  rw [if_neg hlockout] at hr ⊢
  dsimp only at hr ⊢
  split at hr
  · rename_i hzero
    exact absurd hzero hr
  · rename_i hsome
    rw [if_neg hsome]
    rfl

/-- A failure that is counted is in NV memory, or NV was not available and nothing was pending. -/
theorem parseSessionBuffer_registers {available : Bool} {uses : List DaUse}
    (h : (s.parseSessionBuffer available uses).1 = .counts)
    (hafter : (s.parseSessionBuffer available uses).2.Tracked f q) :
    (s.parseSessionBuffer available uses).2.gp.failedTries =
        (s.parseSessionBuffer available uses).2.nv.gp.failedTries ∨
      available = false ∧ s.daPendingOnNv = false := by
  induction uses generalizing s with
  | nil => cases h
  | cons u rest ih =>
      unfold DaState.parseSessionBuffer at h hafter ⊢
      split at h
      · rename_i t hpasses
        simp only [hpasses] at h hafter ⊢
        rcases ih h hafter with hsame | ⟨hno, hpending⟩
        · exact .inl hsame
        · subst hno
          rw [checkSession_unavailable hpasses] at hpending
          exact .inr ⟨rfl, hpending⟩
      · rename_i hstops
        split at hafter
        · rename_i t hpasses
          exact absurd hpasses (hstops t)
        cases available with
        | false => exact .inr ⟨rfl, (checkSession_open h).2.1⟩
        | true =>
            obtain ⟨t, ht⟩ := checkSession_counts h
            rw [ht] at h hafter ⊢
            refine .inl ?_
            rcases hafter.failedTries with hsame | ⟨-, -, -, -, hrecovery⟩
            · exact hsame
            · rw [← hafter.recoveryTime] at hrecovery
              exact incrementLockout_stored h hrecovery

/-! ## Commands -/

/-- `TPM2_Shutdown` makes the state orderly only where NV holds the counter. -/
def ShutdownKnown (a : DaAction) (s : DaState) : Prop :=
  match a with
  | .shutdown state pcrReConfig => (pcrReConfig && state) = false → s.gp.failedTries = s.nv.gp.failedTries
  | _ => True

theorem Tracked.act (accumulate available : Bool) {a : DaAction} (h : Tracked f q s)
    (hknown : available = true → s.ShutdownKnown a) : (s.act accumulate available a).Tracked f q := by
  unfold DaState.act
  split
  · exact h
  rename_i havailable
  have hyes : available = true := by simpa using havailable
  cases a with
  | none => exact h
  | shutdown state pcrReConfig =>
      dsimp only
      split
      · exact h
      · rename_i hdone
        have hsame := hknown hyes (Bool.eq_false_of_not_eq_true hdone)
        exact ⟨⟨h.maxTries, h.recoveryTime, .inl hsame, h.file, .inl rfl⟩, rfl⟩
  | dictionaryAttackLockReset => exact ⟨⟨h.maxTries, h.recoveryTime, .inl rfl, h.file, .inl rfl⟩, h.orderlyState⟩
  | dictionaryAttackParameters => exact ⟨⟨rfl, rfl, .inl rfl, h.file, .inl rfl⟩, h.orderlyState⟩
  | clear disableClear =>
      dsimp only
      split
      · exact h
      · exact ⟨⟨rfl, rfl, .inl rfl, h.file, .inl rfl⟩, rfl⟩
  | clockSet due =>
      dsimp only
      split
      · exact ⟨⟨h.maxTries, h.recoveryTime, h.failedTries, h.file, h.stored⟩, h.orderlyState⟩
      · exact h

theorem Tracked.cleanup (clearOrderly : Bool) (h : Tracked f q s) : (s.cleanup clearOrderly).Tracked f q := by
  unfold DaState.cleanup
  split
  · rename_i horderly
    refine ⟨⟨h.maxTries, h.recoveryTime, .inl ?_, h.file, .inl rfl⟩, rfl⟩
    rcases h.failedTries with hsame | ⟨-, -, -, hmark, -⟩
    · exact hsame
    · -- an orderly state has no mark
      rw [h.orderlyState, hmark] at horderly
      exact absurd (Bool.and_eq_true_iff.mp horderly).2 (by decide)
  · exact h

theorem Tracked.perform {x : DaFrame} {uses : List DaUse} {a : DaAction} (accumulate clearsOrderly : Bool)
    (h : Tracked f q s) (hmark : s.MarkKnown x.available uses)
    (hq : x.available = false → (s.parseSessionBuffer x.available uses).1 = .counts → s.gp.recoveryTime ≠ 0 → q)
    (hknown : x.available = true → (s.parseSessionBuffer x.available uses).1 = .passes →
      (s.parseSessionBuffer x.available uses).2.ShutdownKnown a) :
    (s.perform accumulate x uses a clearsOrderly).Tracked f q := by
  have hparsed := h.parseSessionBuffer hmark hq
  unfold DaState.perform
  dsimp only
  split
  · exact hparsed
  refine Tracked.cleanup clearsOrderly ?_
  split
  · rename_i hpasses
    exact hparsed.act accumulate x.available fun hyes => hknown hyes hpasses
  · exact hparsed

/-- What the commit leaves; what is committed is NV memory unless the TPM is in failure mode. -/
theorem Tracked.commit (x : DaFrame) (h : Tracked f q s) :
    ((s.commit x).inFailureMode = true ∧ (s.commit x).file = f) ∨
      ((s.commit x).inFailureMode = false ∧ Tracked (s.commit x).file q (s.commit x) ∧
        (s.commit x).file.gp = (s.commit x).nv.gp) := by
  unfold DaState.commit
  split
  · rename_i hnothing
    cases hmode : s.inFailureMode with
    | true => exact .inl ⟨rfl, h.file⟩
    | false =>
        have hclean : s.updateNv = false ∧ x.writes = false := by simpa [hmode] using hnothing
        have hsame : s.nv.gp = s.file.gp := by
          rcases h.stored with hupdate | hstored
          · rw [hclean.1] at hupdate
            cases hupdate
          · rw [h.file, hstored]
        refine .inr ⟨rfl, ?_, hsame.symm⟩
        exact ⟨⟨h.maxTries, h.recoveryTime, h.failedTries, rfl, .inr hsame⟩, h.orderlyState⟩
  split
  · exact .inl ⟨rfl, h.file⟩
  · rename_i hcommit _
    refine .inr ⟨?_, ?_, rfl⟩
    · cases hmode : s.inFailureMode with
      | true => exact absurd (by rw [hmode]; rfl) hcommit
      | false => rfl
    · exact ⟨⟨h.maxTries, h.recoveryTime, h.failedTries, rfl, .inr rfl⟩, h.orderlyState⟩

/-! ## Startups -/

/-- Before `TPM2_Startup` RAM holds what NV holds, but for a mark that a refused startup has taken. -/
structure Waiting (s : DaState) : Prop where
  maxTries : s.gp.maxTries = s.nv.gp.maxTries
  recoveryTime : s.gp.recoveryTime = s.nv.gp.recoveryTime
  failedTries : s.gp.failedTries = s.nv.gp.failedTries
  orderlyState : s.gp.orderlyState = s.nv.gp.orderlyState ∨
    s.gp.orderlyState = .none ∧ s.nv.gp.orderlyState = .daUsed

theorem healFailedTries_conserves (hr : s.gp.recoveryTime ≠ 0) :
    s.healFailedTries.gp.failedTries + (s.healFailedTries.healed - s.healed) = s.gp.failedTries := by
  by_cases hfailed : s.gp.failedTries = 0
  · rw [healFailedTries, if_pos hfailed, Nat.sub_self, Nat.add_zero]
  · obtain ⟨htries, hhealed, -⟩ := healFailedTries_eq hr hfailed
    rw [hhealed]
    omega

theorem timeUpdate_conserves (clockDue : Bool) (hr : s.gp.recoveryTime ≠ 0) :
    (s.timeUpdate clockDue).gp.failedTries + ((s.timeUpdate clockDue).healed - s.healed) = s.gp.failedTries := by
  have hheal (s' : DaState) (hgp : s'.gp = s.gp) (hhealed : s'.healed = s.healed) :
      s'.daSelfHeal.gp.failedTries + (s'.daSelfHeal.healed - s.healed) = s.gp.failedTries := by
    have hconserved := healFailedTries_conserves (s := s') (by rw [hgp]; exact hr)
    rw [hgp, hhealed] at hconserved
    rw [(daSelfHeal_platform s').2.2.1, daSelfHeal, healLockout_failedTries]
    exact hconserved
  unfold timeUpdate
  dsimp only
  split
  · exact hheal _ rfl rfl
  · exact hheal _ rfl rfl

theorem timeUpdate_inFailureMode (clockDue : Bool) (s : DaState) :
    (s.timeUpdate clockDue).inFailureMode = s.inFailureMode := by
  have hheal (s : DaState) : s.daSelfHeal.inFailureMode = s.inFailureMode := by
    have hfirst : s.healFailedTries.inFailureMode = s.inFailureMode := by
      unfold DaState.healFailedTries
      split
      · rfl
      split
      · rfl
      · dsimp only
        split <;> rfl
    unfold daSelfHeal DaState.healLockout
    split
    · exact hfirst
    · exact hfirst
  unfold DaState.timeUpdate
  dsimp only
  split
  · exact hheal { s with time := s.timer, nv := { s.nv with go := s.go } }
  · exact hheal { s with time := s.timer }

theorem daStartup_platform (accumulate clockDue : Bool) (s : DaState) :
    (s.daStartup accumulate clockDue).started = s.started ∧
      (s.daStartup accumulate clockDue).inFailureMode = s.inFailureMode := by
  have hrebase : (s.rebase accumulate).started = s.started ∧
      (s.rebase accumulate).inFailureMode = s.inFailureMode := by
    unfold rebase
    split
    · exact ⟨rfl, rfl⟩
    split
    · split <;> exact ⟨rfl, rfl⟩
    · exact ⟨rfl, rfl⟩
  have hstep (s' : DaState) (hs : s'.started = s.started ∧ s'.inFailureMode = s.inFailureMode) :
      (s'.timeUpdate clockDue).started = s.started ∧ (s'.timeUpdate clockDue).inFailureMode = s.inFailureMode :=
    ⟨(s'.timeUpdate_platform clockDue).1.started.trans hs.1, (s'.timeUpdate_inFailureMode clockDue).trans hs.2⟩
  unfold daStartup
  dsimp only
  split <;> split <;> exact hstep _ hrebase

/-- What `DAStartup` leaves of a counter that NV holds, and what it adds. -/
theorem daStartup_spec (accumulate clockDue : Bool) (h : Counted f False s) :
    Counted f False (s.daStartup accumulate clockDue) ∧
      (s.gp.recoveryTime ≠ 0 → s.gp.failedTries < s.gp.maxTries → s.gp.orderlyState.isOrderly = false →
        s.daUsed = true → s.added (s.daStartup accumulate clockDue) = 1) := by
  have hrebase : Counted f False (s.rebase accumulate) ∧ (s.rebase accumulate).gp = s.gp ∧
      (s.rebase accumulate).daUsed = s.daUsed ∧ (s.rebase accumulate).healed = s.healed := by
    unfold rebase
    split
    · exact ⟨⟨h.maxTries, h.recoveryTime, h.failedTries, h.file, h.stored⟩, rfl, rfl, rfl⟩
    split
    · split
      · exact ⟨⟨h.maxTries, h.recoveryTime, h.failedTries, h.file, h.stored⟩, rfl, rfl, rfl⟩
      · exact ⟨⟨h.maxTries, h.recoveryTime, h.failedTries, h.file, h.stored⟩, rfl, rfl, rfl⟩
    · exact ⟨h, rfl, rfl, rfl⟩
  obtain ⟨hcounted, hgp, hused, hhealed⟩ := hrebase
  set t := s.rebase accumulate with ht
  have henabled : ∃ u : DaState,
      (if t.gp.lockoutRecovery = 0 then
        DaState.syncLockOutAuthEnabled { t with gp := { t.gp with lockOutAuthEnabled := true } } else t) = u ∧
      Counted f False u ∧ u.gp.recoveryTime = t.gp.recoveryTime ∧ u.gp.failedTries = t.gp.failedTries ∧
      u.gp.maxTries = t.gp.maxTries ∧ u.gp.orderlyState = t.gp.orderlyState ∧ u.daUsed = t.daUsed ∧
      u.healed = t.healed := by
    split
    · exact ⟨_, rfl, ⟨hcounted.maxTries, hcounted.recoveryTime, hcounted.failedTries, hcounted.file, .inl rfl⟩, rfl,
        rfl, rfl, rfl, rfl, rfl⟩
    · exact ⟨_, rfl, hcounted, rfl, rfl, rfl, rfl, rfl, rfl⟩
  obtain ⟨u, hu, hcounted', hrecovery, hfailed, hmax, horderly, hused', hhealed'⟩ := henabled
  unfold daStartup
  rw [← ht]
  dsimp only
  rw [hu]
  constructor
  · split
    · exact Counted.timeUpdate clockDue
        ⟨hcounted'.maxTries, hcounted'.recoveryTime, .inl rfl, hcounted'.file, .inl rfl⟩
    · exact hcounted'.timeUpdate clockDue
  · intro hr hlt hnot hmark
    rw [← hgp] at hr hlt hnot
    have hadds : u.gp.recoveryTime ≠ 0 ∧ u.gp.failedTries < u.gp.maxTries ∧
        u.gp.orderlyState.isOrderly = false := by
      rw [hrecovery, hfailed, hmax, horderly]
      exact ⟨hr, hlt, hnot⟩
    rw [if_pos hadds]
    have hconserved := timeUpdate_conserves clockDue (s := syncFailedTries
      { u with gp := { u.gp with failedTries := u.gp.failedTries + u.daUsed.toNat }, daUsed := false }) hadds.1
    have hone : u.daUsed.toNat = 1 := by rw [hused', hused, hmark]; rfl
    have htotal : u.gp.failedTries + u.daUsed.toNat = s.gp.failedTries + 1 := by rw [hone, hfailed, hgp]
    have hbase : u.healed = s.healed := hhealed'.trans hhealed
    generalize timeUpdate clockDue _ = v at hconserved ⊢
    change v.gp.failedTries + (v.healed - u.healed) = u.gp.failedTries + u.daUsed.toNat at hconserved
    rw [hbase, htotal] at hconserved
    unfold added
    omega

theorem Tracked.lift {q' : Prop} (h : Tracked f q s) (hq : q → q') : Tracked f q' s := by
  refine ⟨⟨h.maxTries, h.recoveryTime, ?_, h.file, h.stored⟩, h.orderlyState⟩
  rcases h.failedTries with hsame | ⟨hwhy, hrest⟩
  · exact .inl hsame
  · exact .inr ⟨hq hwhy, hrest⟩

/-- A startup that is not refused starts the TPM with nothing pending. It pays what is owed where the mark
is in place. -/
theorem start_spec (accumulate clockDue : Bool) (h : s.Waiting)
    (hfile : s.updateNv = true ∨ s.nv.gp = s.file.gp) :
    Tracked s.file False (s.start accumulate clockDue) ∧ (s.start accumulate clockDue).started = true ∧
      (s.start accumulate clockDue).inFailureMode = s.inFailureMode ∧
      (s.daUsed = true → s.gp.orderlyState = .none → s.gp.recoveryTime ≠ 0 → s.gp.failedTries < s.gp.maxTries →
        s.added (s.start accumulate clockDue) = 1) := by
  have hcounted : Counted s.file False { s with started := true } :=
    ⟨h.maxTries, h.recoveryTime, .inl h.failedTries, rfl, hfile⟩
  obtain ⟨hafter, hadds⟩ := daStartup_spec accumulate clockDue hcounted
  refine ⟨?_, ?_, ?_, ?_⟩
  · refine ⟨⟨hafter.maxTries, hafter.recoveryTime, ?_, hafter.file, .inl rfl⟩, rfl⟩
    rcases hafter.failedTries with hsame | ⟨hno, -⟩
    · exact .inl hsame
    · exact hno.elim
  · exact (daStartup_platform accumulate clockDue { s with started := true }).1
  · exact (daStartup_platform accumulate clockDue { s with started := true }).2
  · intro hused hnone hr hlt
    exact hadds hr hlt (by rw [hnone]; rfl) hused

/-! ## The ledger along runs -/

/-- The ledger is right: one failure at most is pending, the mark of what is pending or owed is committed, and a
TPM that runs owes nothing. -/
structure Sound (s : DaState) (l : CutLedger) : Prop where
  pending_le : l.pending ≤ 1
  owed_le : l.owed ≤ 1
  mark : l.pending = 1 ∨ l.owed = 1 → s.file.gp.orderlyState = .daUsed ∧ s.file.gp.recoveryTime ≠ 0
  running : s.inFailureMode = false → s.started = true →
    l.owed = 0 ∧ Tracked s.file (l.pending = 1) s ∧ s.file.gp = s.nv.gp ∧
      s.gp.failedTries = s.nv.gp.failedTries + l.pending
  waiting : s.inFailureMode = false → s.started = false → l.pending = 0 ∧ s.file.gp = s.nv.gp ∧ s.Waiting

theorem commit_frame (x : DaFrame) (s : DaState) :
    (s.commit x).gp = s.gp ∧ (s.commit x).nv = s.nv ∧ (s.commit x).started = s.started ∧
      (s.commit x).healed = s.healed := by
  unfold DaState.commit
  split
  · exact ⟨rfl, rfl, rfl, rfl⟩
  split <;> exact ⟨rfl, rfl, rfl, rfl⟩

theorem Sound.failed {l : CutLedger} {pending : Nat} (h : s.Sound l) (hmode : s'.inFailureMode = true)
    (hfile : s'.file = s.file) (hle : pending ≤ l.pending) : s'.Sound { l with pending } := by
  refine ⟨hle.trans h.pending_le, h.owed_le, fun hmark => ?_, fun hnot => ?_, fun hnot => ?_⟩
  · rw [hfile]
    refine h.mark ?_
    rcases hmark with hpending | howed
    · have hone := h.pending_le
      dsimp only at hpending
      exact .inl (by omega)
    · exact .inr howed
  · rw [hmode] at hnot
    cases hnot
  · rw [hmode] at hnot
    cases hnot

/-- The end of a command of a TPM that is not started. -/
theorem Sound.idle {l : CutLedger} (x : DaFrame) (h : s.Sound l) (hpending : l.pending = 0) (hfile : s'.file = s.file)
    (hnv : s'.nv.gp = s.file.gp) (hwaiting : s'.Waiting) (hstarted : s'.started = false) :
    (s'.commit x).Sound l := by
  have hframe := s'.commit_frame x
  have hcommitted : (s'.commit x).file.gp = s.file.gp := by
    unfold DaState.commit
    split
    · rw [hfile]
    split
    · exact congrArg DaCopy.gp hfile
    · exact hnv
  refine ⟨h.pending_le, h.owed_le, fun hmark => ?_, fun _ hnot => ?_, fun _ _ => ⟨hpending, ?_, ?_⟩⟩
  · rw [hcommitted]
    exact h.mark hmark
  · rw [hframe.2.2.1, hstarted] at hnot
    cases hnot
  · rw [hcommitted, hframe.2.1, hnv]
  · constructor <;> rw [hframe.1, hframe.2.1]
    · exact hwaiting.maxTries
    · exact hwaiting.recoveryTime
    · exact hwaiting.failedTries
    · exact hwaiting.orderlyState

/-- The end of a command of a running TPM; `r` is that it counts a failure. -/
theorem Sound.commit {l : CutLedger} {r reports : Prop} [Decidable reports] (x : DaFrame) (h : s.Sound l)
    (howed : l.owed = 0) (ht : Tracked s.file (l.pending = 1 ∨ r) s') (hstarted : s'.started = true)
    (hreports : reports ↔ r ∧ (s'.commit x).inFailureMode = false)
    (hfirst : r → s'.gp.failedTries ≠ s'.nv.gp.failedTries → l.pending = 0) :
    (s'.commit x).Sound
      { l with
        pending :=
          if (s'.commit x).file.gp.failedTries = (s'.commit x).gp.failedTries then 0
          else l.pending + if reports then 1 else 0 } := by
  obtain ⟨hgp, hnv, hstarted', -⟩ := s'.commit_frame x
  rcases ht.commit x with ⟨hmode, hfile⟩ | ⟨hmode, htracked, hfile⟩
  · -- nothing of the command is reported or kept
    have hno : ¬ reports := by
      rw [hreports, hmode]
      exact fun hboth => nomatch hboth.2
    rw [if_neg hno, Nat.add_zero]
    refine h.failed hmode hfile ?_
    split <;> omega
  · have hpending : (if (s'.commit x).file.gp.failedTries = (s'.commit x).gp.failedTries then 0
          else l.pending + if reports then 1 else 0) ≤ 1 ∧
        (s'.commit x).gp.failedTries = (s'.commit x).nv.gp.failedTries +
          (if (s'.commit x).file.gp.failedTries = (s'.commit x).gp.failedTries then 0
            else l.pending + if reports then 1 else 0) := by
      rw [hfile]
      rcases htracked.failedTries with hsame | ⟨hwhy, hone, -⟩
      · rw [if_pos hsame.symm, hsame]
        exact ⟨Nat.zero_le 1, rfl⟩
      · have hdiffer : (s'.commit x).nv.gp.failedTries ≠ (s'.commit x).gp.failedTries := by omega
        rw [if_neg hdiffer]
        have hdiffer' : s'.gp.failedTries ≠ s'.nv.gp.failedTries := by
          rw [← hgp, ← hnv]
          exact hdiffer.symm
        have hle := h.pending_le
        by_cases hcounts : r
        · have hnone := hfirst hcounts hdiffer'
          rw [if_pos (hreports.mpr ⟨hcounts, hmode⟩), hnone]
          exact ⟨by omega, by omega⟩
        · rw [if_neg fun hyes => hcounts (hreports.mp hyes).1]
          rcases hwhy with hpending | hyes
          · rw [hpending]
            exact ⟨by omega, by omega⟩
          · exact absurd hyes hcounts
    have hlifted : Tracked (s'.commit x).file ((if (s'.commit x).file.gp.failedTries = (s'.commit x).gp.failedTries
        then 0 else l.pending + if reports then 1 else 0) = 1) (s'.commit x) := by
      refine ⟨⟨htracked.maxTries, htracked.recoveryTime, ?_, rfl, htracked.stored⟩, htracked.orderlyState⟩
      rcases htracked.failedTries with hsame | ⟨-, hone, hrest⟩
      · exact .inl hsame
      · exact .inr ⟨by omega, hone, hrest⟩
    refine ⟨hpending.1, h.owed_le, fun hmark => ?_, fun _ _ => ⟨howed, hlifted, hfile, hpending.2⟩, fun _ hnot => ?_⟩
    · rcases hmark with hone | howed'
      · dsimp only at hone
        rcases hlifted.failedTries with hsame | ⟨-, -, -, hmark, hrecovery⟩
        · have htotal := hpending.2
          omega
        · rw [hfile]
          exact ⟨hmark, hrecovery⟩
      · exact absurd howed' (by rw [howed]; decide)
    · rw [hstarted', hstarted] at hnot
      cases hnot

/-- The mark is where it was left when a startup is accepted; `g_daUsed` is not left over where an authorization
fails without NV; and a shutdown finds the counter in NV. -/
def KeepsMark (s : DaState) : DaEvent → Prop
  | .tick _ | .init _ _ => True
  | .startup x state locality _ =>
      s.inFailureMode = false → s.started = false → x.available = true → locality = true → state = false →
        s.nv.gp.orderlyState = .daUsed → s.gp.orderlyState = .daUsed
  | .command x uses a _ =>
      s.inFailureMode = false → s.started = true → s.MarkKnown x.available uses ∧
        (x.available = true → ((s.before x).parseSessionBuffer x.available uses).1 = .passes →
          ((s.before x).parseSessionBuffer x.available uses).2.ShutdownKnown a)

theorem Sound.before {l : CutLedger} (x : DaFrame) (h : s.Sound l) (hmode : s.inFailureMode = false)
    (hstarted : s.started = true) (r : Prop) : Tracked s.file (l.pending = 1 ∨ r) (s.before x) := by
  obtain ⟨-, htracked, hfile, -⟩ := h.running hmode hstarted
  have hbegun : Tracked s.file (l.pending = 1 ∨ r) { s with updateNv := false } := by
    refine ⟨⟨htracked.maxTries, htracked.recoveryTime, ?_, rfl, .inr hfile.symm⟩, htracked.orderlyState⟩
    rcases htracked.failedTries with hsame | ⟨hwhy, hrest⟩
    · exact .inl hsame
    · exact .inr ⟨.inl hwhy, hrest⟩
  unfold DaState.before
  dsimp only
  split
  · exact hbegun.timeUpdate x.clockDue
  · exact hbegun

theorem before_unavailable {x : DaFrame} (h : x.available = false) (s : DaState) :
    s.before x = { s with updateNv := false } := by
  unfold DaState.before
  rw [h, if_neg Bool.false_ne_true]

theorem perform_counts (accumulate : Bool) {x : DaFrame} {uses : List DaUse} (a : DaAction) (clearsOrderly : Bool)
    (h : (s.parseSessionBuffer x.available uses).1 = .counts) :
    (s.perform accumulate x uses a clearsOrderly).gp.failedTries =
        (s.parseSessionBuffer x.available uses).2.gp.failedTries ∧
      (s.perform accumulate x uses a clearsOrderly).nv.gp.failedTries =
        (s.parseSessionBuffer x.available uses).2.nv.gp.failedTries := by
  have hcleanup (s : DaState) : (s.cleanup clearsOrderly).gp.failedTries = s.gp.failedTries ∧
      (s.cleanup clearsOrderly).nv.gp.failedTries = s.nv.gp.failedTries := by
    unfold DaState.cleanup
    split <;> exact ⟨rfl, rfl⟩
  unfold DaState.perform
  dsimp only
  split
  · exact ⟨rfl, rfl⟩
  · rw [h, if_neg (by decide)]
    exact hcleanup _

theorem Sound.command {l : CutLedger} {x : DaFrame} {uses : List DaUse} {a : DaAction} {clearsOrderly : Bool}
    (h : s.Sound l) (hmark : s.KeepsMark (.command x uses a clearsOrderly)) :
    (s.after accumulate (.command x uses a clearsOrderly)).Sound
      (s.ledgerAfter accumulate (.command x uses a clearsOrderly) l) := by
  cases hmode : s.inFailureMode with
  | true =>
      have hsame : s.after accumulate (.command x uses a clearsOrderly) = s := if_pos hmode
      have hno : ¬ s.Reports accumulate (.command x uses a clearsOrderly) := by
        rintro ⟨⟨hnot, -⟩, -⟩
        rw [hmode] at hnot
        cases hnot
      unfold ledgerAfter
      dsimp only
      rw [hsame, if_neg hno, Nat.add_zero]
      refine h.failed hmode rfl ?_
      split <;> omega
  | false =>
  cases hstarted : s.started with
  | false =>
      obtain ⟨hpending, hfile, hwaiting⟩ := h.waiting hmode hstarted
      have hidle : s.after accumulate (.command x uses a clearsOrderly) =
          DaState.commit x { s with updateNv := false } := by
        change s.execute x _ = _
        unfold execute
        rw [if_neg (by simp [hmode])]
        simp only [hstarted, Bool.and_false, Bool.false_eq_true, if_false]
      have hno : ¬ s.Reports accumulate (.command x uses a clearsOrderly) := by
        rintro ⟨⟨-, hnot, -⟩, -⟩
        rw [hstarted] at hnot
        cases hnot
      have hdone : (DaState.commit x { s with updateNv := false }).Sound l := h.idle x hpending rfl hfile.symm
        ⟨hwaiting.maxTries, hwaiting.recoveryTime, hwaiting.failedTries, hwaiting.orderlyState⟩ hstarted
      unfold ledgerAfter
      dsimp only
      rw [hidle, if_neg hno, hpending, ite_self, ← hpending]
      exact hdone
  | true =>
      obtain ⟨howed, htracked, hfile, htotal⟩ := h.running hmode hstarted
      obtain ⟨hknown, hshutdown⟩ := hmark hmode hstarted
      have hcommand : s.after accumulate (.command x uses a clearsOrderly) = _ :=
        after_command x uses a clearsOrderly hmode hstarted
      have hbefore := h.before x hmode hstarted
        (s.Registers (.command x uses a clearsOrderly) ∧ s.gp.recoveryTime ≠ 0)
      have hmarked : (s.before x).MarkKnown x.available uses := by
        intro hno
        rw [before_unavailable hno]
        exact hknown hno
      have hwhy : x.available = false → ((s.before x).parseSessionBuffer x.available uses).1 = .counts →
          (s.before x).gp.recoveryTime ≠ 0 →
          l.pending = 1 ∨ s.Registers (.command x uses a clearsOrderly) ∧ s.gp.recoveryTime ≠ 0 := by
        intro hno hcounts hrecovery
        refine .inr ⟨⟨hmode, hstarted, hcounts⟩, ?_⟩
        rw [before_unavailable hno] at hrecovery
        exact hrecovery
      have hparsed := hbefore.parseSessionBuffer hmarked hwhy
      have hperformed := hbefore.perform accumulate clearsOrderly hmarked hwhy hshutdown
      have hfirst : s.Registers (.command x uses a clearsOrderly) ∧ s.gp.recoveryTime ≠ 0 →
          ((s.before x).perform accumulate x uses a clearsOrderly).gp.failedTries ≠
            ((s.before x).perform accumulate x uses a clearsOrderly).nv.gp.failedTries → l.pending = 0 := by
        rintro ⟨⟨-, -, hcounts⟩, -⟩ hdiffer
        obtain ⟨hram, hnv⟩ := perform_counts accumulate a clearsOrderly hcounts
        rw [hram, hnv] at hdiffer
        rcases parseSessionBuffer_registers hcounts hparsed with hsame | ⟨hno, hnone⟩
        · exact absurd hsame hdiffer
        · rw [before_unavailable hno] at hnone
          rcases htracked.failedTries with hsame | ⟨-, -, hpending, -⟩
          · omega
          · exact absurd (hnone.symm.trans hpending) (by decide)
      have hreports : s.Reports accumulate (.command x uses a clearsOrderly) ↔
          (s.Registers (.command x uses a clearsOrderly) ∧ s.gp.recoveryTime ≠ 0) ∧
            (DaState.commit x ((s.before x).perform accumulate x uses a clearsOrderly)).inFailureMode = false := by
        unfold Reports
        rw [hcommand, and_assoc]
      have hrunning : ((s.before x).perform accumulate x uses a clearsOrderly).started = true :=
        ((s.before x).perform_quiet accumulate x uses a clearsOrderly).started.trans
          ((s.before_started x).trans hstarted)
      unfold ledgerAfter
      dsimp only
      rw [hcommand]
      exact h.commit x howed hperformed hrunning hreports hfirst

theorem Waiting.takeMark (h : s.Waiting) : s.takeMark.Waiting := by
  refine ⟨h.maxTries, h.recoveryTime, h.failedTries, ?_⟩
  unfold DaState.takeMark
  dsimp only
  split
  · rename_i hused
    refine .inr ⟨rfl, ?_⟩
    rcases h.orderlyState with hsame | ⟨hnone, -⟩
    · exact hsame.symm.trans hused
    · rw [hnone] at hused
      cases hused
  · exact h.orderlyState

theorem after_startup (x : DaFrame) (state locality fits : Bool) (hmode : s.inFailureMode = false)
    (hstarted : s.started = false) :
    s.after accumulate (.startup x state locality fits) =
      DaState.commit x (DaState.startup accumulate x state locality fits { s with updateNv := false }) := by
  change s.execute x (fun s => if s.started then s else s.startup accumulate x state locality fits) = _
  unfold execute
  rw [if_neg (by simp [hmode])]
  simp only [hstarted, Bool.and_false, Bool.false_eq_true, if_false]

theorem Sound.startup {l : CutLedger} {x : DaFrame} {state locality fits : Bool} (h : s.Sound l)
    (hmark : s.KeepsMark (.startup x state locality fits)) :
    (s.after accumulate (.startup x state locality fits)).Sound
      (s.ledgerAfter accumulate (.startup x state locality fits) l) := by
  cases hmode : s.inFailureMode with
  | true =>
      have hsame : s.after accumulate (.startup x state locality fits) = s := if_pos hmode
      unfold ledgerAfter
      dsimp only
      rw [hsame]
      split
      · refine h.failed hmode rfl ?_
        split <;> omega
      · rw [hmode, Bool.not_true, Bool.and_false, if_neg Bool.false_ne_true]
        exact h
  | false =>
  cases hstarted : s.started with
  | true =>
      obtain ⟨howed, -, -, -⟩ := h.running hmode hstarted
      have hnothing : False ↔ False ∧ ((s.before x).commit x).inFailureMode = false := by rw [false_and]
      have hdone := h.commit x howed (h.before x hmode hstarted False) ((s.before_started x).trans hstarted)
        hnothing nofun
      have hcommand : s.after accumulate (.startup x state locality fits) = (s.before x).commit x := by
        have hdue : (x.available && s.started) = x.available := by rw [hstarted, Bool.and_true]
        change s.execute x (fun s => if s.started then s else s.startup accumulate x state locality fits) = _
        unfold execute
        rw [if_neg (by simp [hmode])]
        dsimp only
        rw [hdue]
        change (if (s.before x).started then s.before x else _).commit x = _
        rw [if_pos ((s.before_started x).trans hstarted)]
      unfold ledgerAfter
      dsimp only
      rw [hcommand, if_pos hstarted]
      exact hdone
  | false =>
      obtain ⟨hpending, hfile, hwaiting⟩ := h.waiting hmode hstarted
      have hbegun : DaState.Waiting { s with updateNv := false } :=
        ⟨hwaiting.maxTries, hwaiting.recoveryTime, hwaiting.failedTries, hwaiting.orderlyState⟩
      have hcommand : s.after accumulate (.startup x state locality fits) = _ :=
        after_startup x state locality fits hmode hstarted
      have hrefused (t : DaState)
          (ht : DaState.startup accumulate x state locality fits { s with updateNv := false } = t)
          (hfile' : t.file = s.file) (hnv : t.nv.gp = s.file.gp) (hwaiting' : t.Waiting) (hnot : t.started = false) :
          (s.after accumulate (.startup x state locality fits)).Sound
            (s.ledgerAfter accumulate (.startup x state locality fits) l) := by
        have hstays : (s.after accumulate (.startup x state locality fits)).started = false := by
          rw [hcommand, ht]
          exact (t.commit_frame x).2.2.1.trans hnot
        unfold ledgerAfter
        dsimp only
        rw [if_neg (by simp [hstarted]), hstays, Bool.false_and, if_neg Bool.false_ne_true, hcommand, ht]
        exact h.idle x hpending hfile' hnv hwaiting' hnot
      unfold DaState.startup at hrefused hcommand
      split at hcommand
      · rename_i hearly
        rw [if_pos hearly] at hrefused
        exact hrefused _ rfl rfl hfile.symm hbegun hstarted
      rename_i hlocality
      rw [if_neg hlocality] at hrefused
      split at hcommand
      · rename_i hlate
        rw [if_pos hlate] at hrefused
        exact hrefused _ rfl rfl hfile.symm hbegun.takeMark hstarted
      rename_i haccepted
      clear hrefused
      set marked := DaState.takeMark { s with updateNv := false } with hmarked
      obtain ⟨htracked, hrun, -, hadds⟩ := start_spec accumulate x.clockDue hbegun.takeMark (.inr hfile.symm)
      rw [← hmarked] at htracked hrun hadds
      obtain ⟨hgp, -, hstarted', hhealed⟩ := (marked.start accumulate x.clockDue).commit_frame x
      rw [← hcommand] at hgp hstarted' hhealed
      have hmeasure : s.added (s.after accumulate (.startup x state locality fits)) =
          marked.added (marked.start accumulate x.clockDue) := by
        unfold added
        rw [hgp, hhealed]
        rfl
      have hsettled : (if s.gp.maxTries ≤ s.gp.failedTries then 0
          else l.owed - s.added (s.after accumulate (.startup x state locality fits))) = 0 := by
        split
        · rfl
        rename_i hbelow
        by_cases howed : l.owed = 1
        · obtain ⟨hstate, hrecovery⟩ := h.mark (.inr howed)
          rw [hfile] at hstate hrecovery
          have hused : s.gp.orderlyState = .daUsed := by
            rcases hwaiting.orderlyState with hsame | ⟨hnone, -⟩
            · exact hsame.trans hstate
            · have hboth : x.available = true ∧ locality = true := by simpa using hlocality
              cases state with
              | false => exact hmark hmode hstarted hboth.1 hboth.2 rfl hstate
              | true =>
                  -- a resume is refused when there is no state to resume
                  refine absurd ?_ haccepted
                  have hleft : marked.gp.orderlyState = .none := by
                    rw [hmarked]
                    unfold DaState.takeMark
                    dsimp only
                    rw [hnone]
                    rfl
                  rw [hleft]
                  rfl
          have hone : marked.added (marked.start accumulate x.clockDue) = 1 := by
            refine hadds (decide_eq_true hused) (if_pos hused) ?_ (Nat.lt_of_not_le hbelow)
            exact hwaiting.recoveryTime ▸ hrecovery
          rw [hmeasure, hone, howed]
        · have hle := h.owed_le
          omega
      unfold ledgerAfter
      dsimp only
      rw [if_neg (by simp [hstarted]), hstarted', hrun, Bool.true_and, hsettled, hcommand]
      rcases htracked.commit x with ⟨hfailed, hkept⟩ | ⟨hworks, hdone, hstored⟩
      · rw [hfailed, Bool.not_true, if_neg Bool.false_ne_true]
        exact h.failed hfailed hkept (Nat.le_refl l.pending)
      · rw [hworks, Bool.not_false, if_pos rfl]
        have hsame : (DaState.commit x (marked.start accumulate x.clockDue)).gp.failedTries =
            (DaState.commit x (marked.start accumulate x.clockDue)).nv.gp.failedTries := by
          rcases hdone.failedTries with hsame | ⟨hno, -⟩
          · exact hsame
          · exact hno.elim
        refine ⟨Nat.zero_le 1, Nat.zero_le 1, fun hmark => ?_, fun _ _ => ⟨rfl, hdone.lift False.elim, hstored, hsame⟩,
          fun _ hnot => ?_⟩
        · rcases hmark with hzero | hzero <;> exact absurd hzero (by decide)
        · rw [← hcommand, hstarted', hrun] at hnot
          cases hnot

theorem Sound.after {l : CutLedger} {e : DaEvent} (h : s.Sound l) (hmark : s.KeepsMark e) :
    (s.after accumulate e).Sound (s.ledgerAfter accumulate e l) := by
  cases e with
  | tick ms =>
      refine ⟨h.pending_le, h.owed_le, h.mark, fun hmode hstarted => ?_, fun hmode hstarted => ?_⟩
      · obtain ⟨howed, htracked, hfile, htotal⟩ := h.running hmode hstarted
        exact ⟨howed, ⟨⟨htracked.maxTries, htracked.recoveryTime, htracked.failedTries, rfl, htracked.stored⟩,
          htracked.orderlyState⟩, hfile, htotal⟩
      · obtain ⟨hpending, hfile, hwaiting⟩ := h.waiting hmode hstarted
        exact ⟨hpending, hfile, ⟨hwaiting.maxTries, hwaiting.recoveryTime, hwaiting.failedTries,
          hwaiting.orderlyState⟩⟩
  | init powerOn sameProcess =>
      change (s.init powerOn sameProcess).Sound
        (if s.inFailureMode && !powerOn then l else ⟨0, if l.pending = 0 then l.owed else 1⟩)
      unfold DaState.init
      split
      · exact h
      rename_i hreads
      have hfile : s.file.gp = (if powerOn then s.file else s.nv).gp := by
        split
        · rfl
        rename_i hoff
        have hmode : s.inFailureMode = false := by
          cases hmode : s.inFailureMode with
          | false => rfl
          | true => exact absurd (by simp [hmode, hoff]) hreads
        cases hstarted : s.started with
        | true => exact (h.running hmode hstarted).2.2.1
        | false => exact (h.waiting hmode hstarted).2.1
      have howed := h.owed_le
      refine ⟨Nat.zero_le 1, ?_, fun hwhy => ?_, fun _ hnot => (nomatch hnot),
        fun _ _ => ⟨rfl, hfile, ⟨rfl, rfl, rfl, .inl rfl⟩⟩⟩
      · dsimp only
        split <;> omega
      · refine h.mark ?_
        have hpending := h.pending_le
        rcases hwhy with hzero | hwhy
        · exact absurd hzero Nat.zero_ne_one
        · dsimp only at hwhy
          split at hwhy
          · exact .inr hwhy
          · exact .inl (by omega)
  | startup x state locality fits => exact h.startup hmark
  | command x uses a clearsOrderly => exact h.command hmark

/-- Every step keeps the mark. -/
def KeepingRun (accumulate : Bool) : DaState → List DaEvent → Prop
  | _, [] => True
  | s, e :: events => s.KeepsMark e ∧ KeepingRun accumulate (s.after accumulate e) events

theorem sound_new : ({} : DaState).Sound {} := by
  refine ⟨Nat.zero_le 1, Nat.zero_le 1, fun hwhy => ?_, fun _ hnot => (nomatch hnot),
    fun _ _ => ⟨rfl, rfl, ⟨rfl, rfl, rfl, .inl rfl⟩⟩⟩
  rcases hwhy with hzero | hzero <;> exact absurd hzero (by decide)

theorem Sound.ledger {l : CutLedger} {events : List DaEvent} (h : s.Sound l) (hrun : KeepingRun accumulate s events) :
    (DaState.ledger accumulate s l events).1.Sound (DaState.ledger accumulate s l events).2 := by
  induction events generalizing s l with
  | nil => exact h
  | cons e events ih =>
      obtain ⟨hmark, hrest⟩ := hrun
      exact ih (h.after hmark) hrest

/-- In every run that keeps the mark one failure at most is pending outside NV, and when the TPM runs again after
a power cut the failure of the earlier cycle has been added, or the counter was at its maximum. -/
theorem no_failure_lost {accumulate : Bool} {events : List DaEvent} (hrun : KeepingRun accumulate {} events) :
    (ledger accumulate {} {} events).2.pending ≤ 1 ∧
      ((ledger accumulate {} {} events).1.inFailureMode = false → (ledger accumulate {} {} events).1.started = true →
        (ledger accumulate {} {} events).2.owed = 0) := by
  have hsound := sound_new.ledger hrun
  exact ⟨hsound.pending_le, fun hmode hstarted => (hsound.running hmode hstarted).1⟩

/-- A protected authorization that succeeds. -/
def genuineUse : DaUse := { failingUse with genuine := true }

/-- A use of a protected value while NV is available, then a failure while it is not, and the power goes. -/
def cutRun : List DaEvent :=
  [.startup {} false true true, .command {} [genuineUse] .none false,
    .command { available := false } [failingUse] .none false, .init true false]

theorem failure_added :
    (ledger true {} {} (cutRun ++ [.startup {} false true true])).2.owed = 0 ∧
      (ledger true {} {} (cutRun ++ [.startup {} false true true])).1.file.gp.failedTries = 1 := by
  have hrun : KeepingRun true {} (cutRun ++ [.startup {} false true true]) :=
    ⟨fun _ _ _ _ _ hused => (nomatch hused), fun _ _ => ⟨fun hno => (nomatch hno), fun _ _ => trivial⟩,
      fun _ _ => ⟨fun _ _ hnone => absurd hnone (by decide), fun hyes => (nomatch hyes)⟩, trivial,
      fun _ _ _ _ _ _ => by decide, trivial⟩
  exact ⟨(no_failure_lost hrun).2 (by decide) (by decide), by decide⟩

/-- A startup to resume, which is refused, takes the mark; the next startup adds nothing. -/
theorem failure_lost :
    (ledger true {} {} cutRun).2.owed = 1 ∧
      let out := ledger true {} {} (cutRun ++ [.startup {} true true true, .startup {} false true true])
      out.1.started = true ∧ out.1.inFailureMode = false ∧ out.2.owed = 1 ∧ out.1.gp.failedTries = 0 ∧
        out.1.file.gp.failedTries = 0 := by
  decide

end DaState
end PqcTpm
