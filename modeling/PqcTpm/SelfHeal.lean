import PqcTpm.FailedTries

/-!
# Self-healing

What `DASelfHeal` takes off the counter against the time that the TPM was powered. The time that is
not used up yet is the credit of a state: while the TPM runs it lies between the timer and the
platform's clock, between `_TPM_Init` and `TPM2_Startup` it is what `DAStartup` will make of what was
read from NV.
-/
namespace PqcTpm

theorem elapsed_self (time : Nat) : elapsed time time = 0 := by
  unfold elapsed
  omega

theorem elapsed_zero {time : Nat} (h : time < 2 ^ 64) : elapsed time 0 = time := by
  unfold elapsed
  omega

theorem elapsed_advance {time timer step : Nat} (h : step ≤ elapsed time timer) :
    elapsed time ((timer + step) % 2 ^ 64) = elapsed time timer - step := by
  unfold elapsed at *
  omega

namespace DaState
variable {accumulate : Bool} {s s' s'' : DaState} {r : Nat}

/-! ## What healing does -/

@[simp] theorem healLockout_failedTries (s : DaState) : s.healLockout.gp.failedTries = s.gp.failedTries := by
  unfold healLockout
  split <;> rfl

@[simp] theorem healLockout_go (s : DaState) : s.healLockout.go = s.go := by
  unfold healLockout
  split <;> rfl

/-- `DASelfHeal` in one equation. -/
theorem healFailedTries_eq (hr : s.gp.recoveryTime ≠ 0) (hfailed : s.gp.failedTries ≠ 0) :
    s.healFailedTries.gp.failedTries = s.gp.failedTries - s.decreaseCount % 2 ^ 32 ∧
      s.healFailedTries.healed = s.healed + (s.gp.failedTries - s.healFailedTries.gp.failedTries) ∧
      s.healFailedTries.go.selfHealTimer =
        (s.go.selfHealTimer + s.decreaseCount * s.gp.recoveryTime * 1000) % 2 ^ 64 := by
  have hmonus (a b : Nat) : (if a ≤ b then 0 else a - b) = a - b := by
    split <;> omega
  unfold healFailedTries
  rw [if_neg hfailed, if_neg hr]
  dsimp only
  split <;> exact ⟨hmonus _ _, rfl, rfl⟩

/-- The platform and its timer stay as they are. -/
structure SamePlatform (s s' : DaState) : Prop where
  started : s'.started = s.started
  timer : s'.timer = s.timer
  timerReset : s'.timerReset = s.timerReset
  powered : s'.powered = s.powered

theorem SamePlatform.refl (s : DaState) : SamePlatform s s := ⟨rfl, rfl, rfl, rfl⟩

theorem SamePlatform.trans (h : SamePlatform s s') (h' : SamePlatform s' s'') : SamePlatform s s'' :=
  ⟨h'.started.trans h.started, h'.timer.trans h.timer, h'.timerReset.trans h.timerReset, h'.powered.trans h.powered⟩

/-- Nothing heals, and the timer stays or starts again. -/
structure Quiet (s s' : DaState) : Prop extends SamePlatform s s' where
  time : s'.time = s.time
  healed : s'.healed = s.healed
  selfHealTimer : s'.go.selfHealTimer = s.go.selfHealTimer ∨ s'.go.selfHealTimer = s.time

theorem Quiet.refl (s : DaState) : Quiet s s := ⟨.refl s, rfl, rfl, .inl rfl⟩

theorem Quiet.trans (h : Quiet s s') (h' : Quiet s' s'') : Quiet s s'' := by
  refine ⟨h.toSamePlatform.trans h'.toSamePlatform, h'.time.trans h.time, h'.healed.trans h.healed, ?_⟩
  rcases h'.selfHealTimer with hkept | hset
  · rw [hkept]
    exact h.selfHealTimer
  · exact .inr (hset.trans h.time)

theorem Quiet.elapsed_le (h : Quiet s s') :
    elapsed s'.time s'.go.selfHealTimer ≤ elapsed s.time s.go.selfHealTimer := by
  rw [h.time]
  rcases h.selfHealTimer with hkept | hset
  · rw [hkept]
  · rw [hset, elapsed_self]
    exact Nat.zero_le _

theorem writePending_quiet (s : DaState) : Quiet s s.writePending := by
  unfold writePending
  split
  · exact ⟨⟨rfl, rfl, rfl, rfl⟩, rfl, rfl, .inl rfl⟩
  · exact .refl s

theorem checkLockedOut_quiet (available lockoutAuthCheck : Bool) (s : DaState) :
    Quiet s (s.checkLockedOut available lockoutAuthCheck).2 := by
  unfold checkLockedOut
  split
  · exact .refl s
  refine s.writePending_quiet.trans ?_
  dsimp only
  split
  · exact .refl _
  split
  · exact .refl _
  split
  · exact .refl _
  split
  · exact .refl _
  · exact ⟨⟨rfl, rfl, rfl, rfl⟩, rfl, rfl, .inl rfl⟩

theorem incrementLockout_quiet (available : Bool) (u : DaUse) (s : DaState) :
    Quiet s (s.incrementLockout available u).2 := by
  unfold incrementLockout
  split
  · exact .refl s
  split
  · split
    · exact ⟨⟨rfl, rfl, rfl, rfl⟩, rfl, rfl, .inl rfl⟩
    · dsimp only
      split
      · exact ⟨⟨rfl, rfl, rfl, rfl⟩, rfl, rfl, .inl rfl⟩
      · split <;> exact ⟨⟨rfl, rfl, rfl, rfl⟩, rfl, rfl, .inl rfl⟩
  · dsimp only
    split
    · exact ⟨⟨rfl, rfl, rfl, rfl⟩, rfl, rfl, .inr rfl⟩
    · split <;> exact ⟨⟨rfl, rfl, rfl, rfl⟩, rfl, rfl, .inr rfl⟩

theorem lockoutGate_quiet (due available lockoutAuthCheck : Bool) (s : DaState) :
    Quiet s (s.lockoutGate due available lockoutAuthCheck).2 := by
  unfold lockoutGate
  split
  · exact checkLockedOut_quiet ..
  · exact .refl s

theorem checkSession_quiet (available : Bool) (u : DaUse) (s : DaState) :
    Quiet s (s.checkSession available u).2 := by
  unfold checkSession
  split
  · exact .refl s
  dsimp only
  refine (s.lockoutGate_quiet u.isDaBound available u.isLockoutBound).trans ?_
  split
  · exact .refl _
  refine (lockoutGate_quiet (u.includeAuth && !u.exempted) available u.lockout _).trans ?_
  split
  · exact .refl _
  split
  · exact .refl _
  · exact incrementLockout_quiet ..

theorem parseSessionBuffer_quiet (available : Bool) (uses : List DaUse) (s : DaState) :
    Quiet s (s.parseSessionBuffer available uses).2 := by
  induction uses generalizing s with
  | nil => exact .refl s
  | cons u rest ih =>
      have hfirst := s.checkSession_quiet available u
      unfold parseSessionBuffer
      split
      · rename_i s' hpasses
        rw [hpasses] at hfirst
        exact hfirst.trans (ih s')
      · exact hfirst

theorem act_quiet (accumulate available : Bool) (a : DaAction) (s : DaState) :
    Quiet s (s.act accumulate available a) := by
  unfold act
  split
  · exact .refl s
  cases a with
  | none => exact .refl s
  | shutdown state pcrReConfig =>
      dsimp only
      split
      · exact .refl s
      · refine ⟨⟨rfl, rfl, rfl, rfl⟩, rfl, rfl, .inl ?_⟩
        cases accumulate <;> rfl
  | dictionaryAttackLockReset => exact ⟨⟨rfl, rfl, rfl, rfl⟩, rfl, rfl, .inl rfl⟩
  | dictionaryAttackParameters => exact ⟨⟨rfl, rfl, rfl, rfl⟩, rfl, rfl, .inl rfl⟩
  | clear disableClear =>
      dsimp only
      split
      · exact .refl s
      · exact ⟨⟨rfl, rfl, rfl, rfl⟩, rfl, rfl, .inl rfl⟩
  | clockSet due =>
      dsimp only
      split
      · exact ⟨⟨rfl, rfl, rfl, rfl⟩, rfl, rfl, .inl rfl⟩
      · exact .refl s

theorem cleanup_quiet (clearOrderly : Bool) (s : DaState) : Quiet s (s.cleanup clearOrderly) := by
  unfold cleanup
  split
  · exact ⟨⟨rfl, rfl, rfl, rfl⟩, rfl, rfl, .inl rfl⟩
  · exact .refl s

theorem perform_quiet (accumulate : Bool) (x : DaFrame) (uses : List DaUse) (a : DaAction) (clearsOrderly : Bool)
    (s : DaState) : Quiet s (s.perform accumulate x uses a clearsOrderly) := by
  unfold perform
  dsimp only
  refine (s.parseSessionBuffer_quiet x.available uses).trans ?_
  split
  · exact .refl _
  · refine Quiet.trans ?_ (cleanup_quiet ..)
    split
    · exact act_quiet ..
    · exact .refl _

theorem daSelfHeal_platform (s : DaState) :
    SamePlatform s s.daSelfHeal ∧ s.daSelfHeal.time = s.time ∧ s.daSelfHeal.healed = s.healFailedTries.healed ∧
      s.daSelfHeal.go = s.healFailedTries.go := by
  have hfirst : SamePlatform s s.healFailedTries ∧ s.healFailedTries.time = s.time := by
    unfold healFailedTries
    split
    · exact ⟨.refl s, rfl⟩
    split
    · exact ⟨⟨rfl, rfl, rfl, rfl⟩, rfl⟩
    · dsimp only
      split <;> exact ⟨⟨rfl, rfl, rfl, rfl⟩, rfl⟩
  have hsecond (s : DaState) : SamePlatform s s.healLockout ∧ s.healLockout.time = s.time ∧
      s.healLockout.healed = s.healed := by
    unfold healLockout
    split
    · exact ⟨⟨rfl, rfl, rfl, rfl⟩, rfl, rfl⟩
    · exact ⟨.refl s, rfl, rfl⟩
  obtain ⟨hplatform, htime, hhealed⟩ := hsecond s.healFailedTries
  exact ⟨hfirst.1.trans hplatform, htime.trans hfirst.2, hhealed, healLockout_go _⟩

/-- `TimeUpdate` catches up with the platform. -/
theorem timeUpdate_platform (clockDue : Bool) (s : DaState) :
    SamePlatform s (s.timeUpdate clockDue) ∧ (s.timeUpdate clockDue).time = s.timer := by
  unfold timeUpdate
  dsimp only
  split
  · obtain ⟨hsame, htime, -, -⟩ := daSelfHeal_platform { s with time := s.timer, nv := { s.nv with go := s.go } }
    exact ⟨⟨hsame.started, hsame.timer, hsame.timerReset, hsame.powered⟩, htime⟩
  · obtain ⟨hsame, htime, -, -⟩ := daSelfHeal_platform { s with time := s.timer }
    exact ⟨⟨hsame.started, hsame.timer, hsame.timerReset, hsame.powered⟩, htime⟩

/-- Time that healing has not used up. -/
def credit (accumulate : Bool) (s : DaState) : Nat :=
  (if s.started || (accumulate && !s.timerReset) then elapsed s.time s.go.selfHealTimer
    else (if accumulate && s.gp.orderlyState.isOrderly then elapsed s.go.time s.go.selfHealTimer else 0) + s.time) +
  (s.timer - s.time)

/-- What is found of it at a restart. -/
def readBack (accumulate powerOn : Bool) (s : DaState) : Nat :=
  let c := if powerOn then s.file else s.nv
  let timer := if powerOn then 0 else s.timer
  if accumulate && !(s.timerReset || powerOn) then elapsed timer c.go.selfHealTimer
  else (if accumulate && c.gp.orderlyState.isOrderly then elapsed c.go.time c.go.selfHealTimer else 0) + timer

/-- The platform's clock does not run over, and no restart finds more time than there was before. -/
def Mindful (accumulate : Bool) (s : DaState) : DaEvent → Prop
  | .tick ms => s.timer + ms < 2 ^ 64
  | .init powerOn _ => s.readBack accumulate powerOn ≤ s.credit accumulate
  | .startup _ _ _ _ | .command _ _ _ _ => True

instance (accumulate : Bool) (s : DaState) : (e : DaEvent) → Decidable (s.Mindful accumulate e)
  | .tick ms => inferInstanceAs (Decidable (s.timer + ms < 2 ^ 64))
  | .init powerOn _ => inferInstanceAs (Decidable (s.readBack accumulate powerOn ≤ s.credit accumulate))
  | .startup _ _ _ _ | .command _ _ _ _ => isTrue trivial

structure Timed (s : DaState) : Prop where
  time_le : s.time ≤ s.timer
  timer_lt : s.timer < 2 ^ 64

/-- From one state to the next, healing and the credit grow by no more than the time with power. -/
structure Pays (accumulate : Bool) (r : Nat) (s s' : DaState) : Prop where
  timed : s'.Timed
  pays : 1000 * r * s'.healed + s'.credit accumulate + s.powered ≤
    1000 * r * s.healed + s.credit accumulate + s'.powered

theorem Pays.trans (h : Pays accumulate r s s') (h' : Pays accumulate r s' s'') : Pays accumulate r s s'' := by
  refine ⟨h'.timed, ?_⟩
  have hfirst := h.pays
  have hsecond := h'.pays
  omega

theorem credit_started (hstarted : s.started = true) :
    s.credit accumulate = elapsed s.time s.go.selfHealTimer + (s.timer - s.time) := by
  rw [credit, hstarted, Bool.true_or, if_pos rfl]

theorem Quiet.pays (h : Quiet s s') (hstarted : s.started = true) (htimed : s.Timed) : Pays accumulate r s s' := by
  refine ⟨⟨?_, ?_⟩, ?_⟩
  · rw [h.time, h.timer]
    exact htimed.time_le
  · rw [h.timer]
    exact htimed.timer_lt
  · have hless := h.elapsed_le
    rw [credit_started hstarted, credit_started (h.started.trans hstarted), h.healed, h.powered, h.timer]
    rw [h.time] at hless ⊢
    omega

/-! ## Restarts -/

/-- Every step is mindful, and `recoveryTime` is held. -/
def MindfulRun (accumulate : Bool) (r : Nat) : DaState → List DaEvent → Prop
  | s, [] => s.gp.recoveryTime = r
  | s, e :: events =>
      s.gp.recoveryTime = r ∧ s.Mindful accumulate e ∧ MindfulRun accumulate r (s.after accumulate e) events

theorem checkSession_counts {available : Bool} {u : DaUse} (h : (s.checkSession available u).1 = .counts) :
    ∃ t : DaState, s.checkSession available u = t.incrementLockout available u := by
  unfold checkSession at h ⊢
  split at h
  · cases h
  rename_i hsession
  rw [if_neg hsession]
  dsimp only at h ⊢
  split at h
  · cases h
  rename_i hhandle
  rw [if_neg hhandle]
  split at h
  · cases h
  rename_i havailable
  rw [if_neg havailable]
  split at h
  · cases h
  rename_i hgenuine
  rw [if_neg hgenuine]
  exact ⟨_, rfl⟩

theorem before_started (x : DaFrame) (s : DaState) : (s.before x).started = s.started := by
  unfold before
  dsimp only
  split
  · exact (timeUpdate_platform x.clockDue { s with updateNv := false }).1.started
  · rfl

theorem after_command (x : DaFrame) (uses : List DaUse) (a : DaAction) (clearsOrderly : Bool)
    (hmode : s.inFailureMode = false) (hstarted : s.started = true) :
    s.after accumulate (.command x uses a clearsOrderly) =
      ((s.before x).perform accumulate x uses a clearsOrderly).commit x := by
  have hbefore := (s.before_started x).trans hstarted
  have hsame : (if x.available && s.started then timeUpdate x.clockDue { s with updateNv := false }
      else { s with updateNv := false }) = s.before x := by
    have hdue : (x.available && s.started) = x.available := by rw [hstarted, Bool.and_true]
    rw [hdue]
    rfl
  change s.execute x _ = _
  unfold execute
  rw [if_neg (by simp [hmode])]
  dsimp only
  rw [hsame, if_pos hbefore]

theorem run_append (before events : List DaEvent) :
    s.run accumulate (before ++ events) = (s.run accumulate before).run accumulate events :=
  List.foldl_append ..

theorem MindfulRun.append {before events : List DaEvent} (h : MindfulRun accumulate r s (before ++ events)) :
    MindfulRun accumulate r s before ∧ MindfulRun accumulate r (s.run accumulate before) events := by
  induction before generalizing s with
  | nil =>
      refine ⟨?_, h⟩
      cases events with
      | nil => exact h
      | cons e events => exact h.1
  | cons e before ih =>
      obtain ⟨hr, hstep, hrest⟩ := h
      obtain ⟨hbefore, hevents⟩ := ih hrest
      exact ⟨⟨hr, hstep, hbefore⟩, hevents⟩

theorem MindfulRun.recoveryTime {events : List DaEvent} (h : MindfulRun accumulate r s events) :
    (s.run accumulate events).gp.recoveryTime = r := by
  rw [← List.append_nil events] at h
  exact h.append.2

/-- A protected authorization that fails. -/
def failingUse : DaUse where
  isDaBound := false
  isLockoutBound := false
  includeAuth := true
  exempted := false
  lockout := false
  badSession := false
  badHandle := false
  unavailable := false
  genuine := false

end DaState
end PqcTpm
