import PqcTpm.DictionaryAttack

/-!
# The counter of failed tries

`DA.c` with its callers: the counter in `gp`, the timers in `go`, what NV holds of both, and the
platform's timer. `ACCUMULATE_SELF_HEAL_TIMER` is a parameter.
-/
namespace PqcTpm

/-- `gp.orderlyState` without the startup flags. -/
inductive OrderlyState
  | clear | state | daUsed | none
  deriving DecidableEq, Repr

/-- `IS_ORDERLY`. -/
def OrderlyState.isOrderly : OrderlyState → Bool
  | .clear | .state => true
  | .daUsed | .none => false

/-- The part of `gp` that `DAPreInstall_Init` sets, and `orderlyState`. -/
structure DaParameters where
  failedTries : Nat := 0
  maxTries : Nat := 3
  recoveryTime : Nat := 1000
  lockoutRecovery : Nat := 1000
  lockOutAuthEnabled : Bool := true
  orderlyState : OrderlyState := .clear
  deriving DecidableEq, Repr

/-- The part of `go`, in milliseconds. -/
structure OrderlyTimers where
  time : Nat := 0
  selfHealTimer : Nat := 0
  lockoutTimer : Nat := 0
  deriving DecidableEq, Repr

structure DaCopy where
  gp : DaParameters := {}
  go : OrderlyTimers := {}
  deriving DecidableEq, Repr

/-- The platform is powered for the first time. -/
structure DaState where
  started : Bool := false
  inFailureMode : Bool := false
  gp : DaParameters := {}
  go : OrderlyTimers := {}
  /-- NV memory, and what is committed of it. -/
  nv : DaCopy := {}
  file : DaCopy := {}
  updateNv : Bool := false
  /-- `g_time`. -/
  time : Nat := 0
  /-- What `_plat__TimerRead` returns. -/
  timer : Nat := 0
  /-- Not yet consumed by `_plat__TimerWasReset`. -/
  timerReset : Bool := true
  daUsed : Bool := false
  daPendingOnNv : Bool := false
  /-- History: the milliseconds of power so far, and what `DASelfHeal` has taken off `failedTries`. -/
  powered : Nat := 0
  healed : Nat := 0
  deriving DecidableEq, Repr

/-- The difference of two times, which are unsigned. -/
def elapsed (time timer : Nat) : Nat := (((time : Int) - timer) % 2 ^ 64).toNat

/-- A session of a command, and the handle it is for. -/
structure DaUse where
  isDaBound : Bool
  isLockoutBound : Bool
  /-- Always for a password. -/
  includeAuth : Bool
  exempted : Bool
  lockout : Bool
  /-- Refused by a check before those of the session, of the handle or of the value. -/
  badSession : Bool
  badHandle : Bool
  unavailable : Bool
  genuine : Bool
  deriving DecidableEq, Repr

/-- What comes of a session; `counts` is a failure that `DARegisterFailure` times for `failedTries`. -/
inductive DaOutcome
  | passes | refused | counts
  deriving DecidableEq, Repr

inductive DaAction
  | none
  | shutdown (state pcrReConfig : Bool)
  | dictionaryAttackLockReset
  | dictionaryAttackParameters (newMaxTries newRecoveryTime lockoutRecovery : Nat)
  | clear (disableClear : Bool)
  /-- Writes `go` when the new time is beyond the recorded one. -/
  | clockSet (due : Bool)
  deriving DecidableEq, Repr

/-- What a command meets: NV, whether the clock is to be written, whether something else is, and
whether the commit fails. -/
structure DaFrame where
  available : Bool := true
  clockDue : Bool := false
  writes : Bool := false
  commitFails : Bool := false
  deriving DecidableEq, Repr

inductive DaEvent
  /-- Milliseconds pass. -/
  | tick (ms : Nat)
  /-- `_TPM_Init`, after a loss of power or not. -/
  | init (powerOn sameProcess : Bool)
  /-- `TPM2_Startup`; whether the locality is supported, and whether what NV holds fits a resume. -/
  | startup (frame : DaFrame) (state locality fits : Bool)
  | command (frame : DaFrame) (uses : List DaUse) (action : DaAction) (clearsOrderly : Bool)
  deriving DecidableEq, Repr

namespace DaState

/-- `NV_SYNC_PERSISTENT(failedTries)`. -/
def syncFailedTries (s : DaState) : DaState :=
  { s with nv := { s.nv with gp := { s.nv.gp with failedTries := s.gp.failedTries } }, updateNv := true }

def syncLockOutAuthEnabled (s : DaState) : DaState :=
  { s with nv := { s.nv with gp := { s.nv.gp with lockOutAuthEnabled := s.gp.lockOutAuthEnabled } }, updateNv := true }

def syncOrderlyState (s : DaState) : DaState :=
  { s with nv := { s.nv with gp := { s.nv.gp with orderlyState := s.gp.orderlyState } }, updateNv := true }

/-! ## `DA.c` -/

/-- `decreaseCount` of `DASelfHeal`. -/
def decreaseCount (s : DaState) : Nat := elapsed s.time s.go.selfHealTimer / 1000 / s.gp.recoveryTime

/-- The first half of `DASelfHeal`. -/
def healFailedTries (s : DaState) : DaState :=
  if s.gp.failedTries = 0 then s
  else if s.gp.recoveryTime = 0 then syncFailedTries { s with gp := { s.gp with failedTries := 0 } }
  else
    let count := s.decreaseCount
    let failedTries := if s.gp.failedTries ≤ count % 2 ^ 32 then 0 else s.gp.failedTries - count % 2 ^ 32
    let selfHealTimer := (s.go.selfHealTimer + count * s.gp.recoveryTime * 1000) % 2 ^ 64
    let healed :=
      { s with
        gp := { s.gp with failedTries }
        go := { s.go with selfHealTimer }
        healed := s.healed + (s.gp.failedTries - failedTries) }
    if count ≠ 0 then healed.syncFailedTries else healed

/-- The second half. -/
def healLockout (s : DaState) : DaState :=
  if !s.gp.lockOutAuthEnabled && s.gp.lockoutRecovery ≠ 0 &&
      s.gp.lockoutRecovery ≤ elapsed s.time s.go.lockoutTimer / 1000 then
    syncLockOutAuthEnabled { s with gp := { s.gp with lockOutAuthEnabled := true } }
  else s

/-- `DASelfHeal`. -/
def daSelfHeal (s : DaState) : DaState := s.healFailedTries.healLockout

/-- `TimeUpdate`. `TimeClockUpdate` leaves `g_updateNV` as it was. -/
def timeUpdate (clockDue : Bool) (s : DaState) : DaState :=
  let s := { s with time := s.timer }
  let s := if clockDue then { s with nv := { s.nv with go := s.go } } else s
  s.daSelfHeal

/-- The timers at startup. -/
def rebase (accumulate : Bool) (s : DaState) : DaState :=
  if !accumulate then { s with timerReset := false, go := { s.go with selfHealTimer := 0, lockoutTimer := 0 } }
  else if s.timerReset then
    if s.gp.orderlyState.isOrderly then
      { s with
        timerReset := false
        go :=
          { s.go with
            selfHealTimer := elapsed s.go.selfHealTimer s.go.time
            lockoutTimer := elapsed s.go.lockoutTimer s.go.time } }
    else { s with timerReset := false, go := { s.go with selfHealTimer := 0, lockoutTimer := 0 } }
  else s

/-- `DAStartup`. -/
def daStartup (accumulate clockDue : Bool) (s : DaState) : DaState :=
  let s := s.rebase accumulate
  let s :=
    if s.gp.lockoutRecovery = 0 then
      syncLockOutAuthEnabled { s with gp := { s.gp with lockOutAuthEnabled := true } }
    else s
  let s :=
    if s.gp.recoveryTime ≠ 0 ∧ s.gp.failedTries < s.gp.maxTries ∧ s.gp.orderlyState.isOrderly = false then
      syncFailedTries
        { s with gp := { s.gp with failedTries := s.gp.failedTries + s.daUsed.toNat }, daUsed := false }
    else s
  s.timeUpdate clockDue

/-! ## Authorizations -/

/-- What is pending is written. -/
def writePending (s : DaState) : DaState :=
  if s.daPendingOnNv then { s.syncLockOutAuthEnabled.syncFailedTries with daPendingOnNv := false } else s

/-- `CheckLockedOut`; the result is whether the check passes. -/
def checkLockedOut (available lockoutAuthCheck : Bool) (s : DaState) : Bool × DaState :=
  if !available && (s.gp.orderlyState.isOrderly || s.daPendingOnNv) then (false, s)
  else
    let s := s.writePending
    if lockoutAuthCheck then (s.gp.lockOutAuthEnabled, s)
    else if s.gp.maxTries ≤ s.gp.failedTries then (false, s)
    else if s.daUsed then (true, s)
    else if !available then (false, s)
    else (true, syncOrderlyState { s with daUsed := true, gp := { s.gp with orderlyState := .daUsed } })

/-- A check that is made only where it is due. -/
def lockoutGate (due available lockoutAuthCheck : Bool) (s : DaState) : Bool × DaState :=
  if due then s.checkLockedOut available lockoutAuthCheck else (true, s)

/-- `IncrementLockout`. -/
def incrementLockout (available : Bool) (u : DaUse) (s : DaState) : DaOutcome × DaState :=
  if !u.isDaBound && (u.exempted || !u.includeAuth) then (.refused, s)
  else if u.lockout || u.isLockoutBound then
    if !s.gp.lockOutAuthEnabled then (.refused, { s with inFailureMode := true })
    else
      let s := { s with gp := { s.gp with lockOutAuthEnabled := false } }
      let s :=
        if s.gp.lockoutRecovery = 0 then s
        else if available then s.syncLockOutAuthEnabled
        else { s with daPendingOnNv := true }
      (.refused, { s with go := { s.go with lockoutTimer := s.time } })
  else
    let s :=
      if s.gp.recoveryTime = 0 then s
      else
        -- below `maxTries`, so there is no overflow
        let s := { s with gp := { s.gp with failedTries := s.gp.failedTries + 1 } }
        if available then s.syncFailedTries else { s with daPendingOnNv := true }
    (.counts, { s with go := { s.go with selfHealTimer := s.time } })

/-- One round of `ParseSessionBuffer`, with `CheckAuthSession`. -/
def checkSession (available : Bool) (u : DaUse) (s : DaState) : DaOutcome × DaState :=
  if u.badSession then (.refused, s)
  else
    let (passed, s) := s.lockoutGate u.isDaBound available u.isLockoutBound
    if !passed || u.badHandle then (.refused, s)
    else
      let (passed, s) := s.lockoutGate (u.includeAuth && !u.exempted) available u.lockout
      if !passed || u.unavailable then (.refused, s)
      else if u.genuine then (.passes, s)
      else s.incrementLockout available u

/-- `ParseSessionBuffer`. -/
def parseSessionBuffer (available : Bool) : List DaUse → DaState → DaOutcome × DaState
  | [], s => (.passes, s)
  | u :: rest, s =>
      match s.checkSession available u with
      | (.passes, s) => parseSessionBuffer available rest s
      | stopped => stopped

/-! ## Commands -/

/-- The actions that reach `gp` or `go`. -/
def act (accumulate available : Bool) (a : DaAction) (s : DaState) : DaState :=
  if !available then s
  else match a with
    | .none => s
    | .shutdown state pcrReConfig =>
        if pcrReConfig && state then s
        else
          let go := if accumulate then { s.go with time := s.time } else s.go
          syncOrderlyState
            { s with
              gp := { s.gp with orderlyState := if state then .state else .clear }
              daUsed := false
              go
              nv := { s.nv with go } }
    | .dictionaryAttackLockReset => syncFailedTries { s with gp := { s.gp with failedTries := 0 } }
    | .dictionaryAttackParameters maxTries recoveryTime lockoutRecovery =>
        let gp := { s.gp with maxTries, recoveryTime, lockoutRecovery }
        { s with
          gp
          nv :=
            { s.nv with
              gp :=
                { s.nv.gp with failedTries := gp.failedTries, maxTries, recoveryTime, lockoutRecovery } }
          updateNv := true }
    | .clear disableClear =>
        if disableClear then s
        else
          let gp : DaParameters := { orderlyState := s.gp.orderlyState }
          { s with gp, nv := ⟨gp, s.go⟩, updateNv := true }
    | .clockSet due => if due then { s with nv := { s.nv with go := s.go } } else s

/-- The end of `ExecuteCommand` before the commit. -/
def cleanup (clearOrderly : Bool) (s : DaState) : DaState :=
  if clearOrderly && s.gp.orderlyState.isOrderly then
    syncOrderlyState { s with gp := { s.gp with orderlyState := if s.daUsed then .daUsed else .none } }
  else s

/-- `NvCommit`. -/
def commit (x : DaFrame) (s : DaState) : DaState :=
  if s.inFailureMode || !(s.updateNv || x.writes) then s
  else if x.commitFails then { s with inFailureMode := true }
  else { s with file := s.nv }

/-- `ExecuteCommand` around what is done for a command. -/
def execute (x : DaFrame) (body : DaState → DaState) (s : DaState) : DaState :=
  if s.inFailureMode then s
  else
    let s := { s with updateNv := false }
    let s := if x.available && s.started then s.timeUpdate x.clockDue else s
    (body s).commit x

/-- The mark of a use of protected values is taken out of `orderlyState`. -/
def takeMark (s : DaState) : DaState :=
  { s with
    daUsed := decide (s.gp.orderlyState = .daUsed)
    gp := { s.gp with orderlyState := if s.gp.orderlyState = .daUsed then .none else s.gp.orderlyState } }

/-- `TPM2_Startup` after its checks. -/
def start (accumulate clockDue : Bool) (s : DaState) : DaState :=
  let s := { s with started := true }.daStartup accumulate clockDue
  syncOrderlyState { s with gp := { s.gp with orderlyState := .none } }

/-- `TPM2_Startup`. The mark is taken before the type is looked at. -/
def startup (accumulate : Bool) (x : DaFrame) (state locality fits : Bool) (s : DaState) : DaState :=
  if !x.available || !locality then s
  else if state && (s.takeMark.gp.orderlyState ≠ .state || !fits) then s.takeMark
  else s.takeMark.start accumulate x.clockDue

/-- The sessions, the action and the cleanup. -/
def perform (accumulate : Bool) (x : DaFrame) (uses : List DaUse) (a : DaAction) (clearsOrderly : Bool)
    (s : DaState) : DaState :=
  let (outcome, s) := s.parseSessionBuffer x.available uses
  if s.inFailureMode then s
  else (if outcome = .passes then s.act accumulate x.available a else s).cleanup clearsOrderly

/-- `_TPM_Init`; only power ends failure mode. -/
def init (powerOn sameProcess : Bool) (s : DaState) : DaState :=
  if s.inFailureMode && !powerOn then s
  else
    let nv := if powerOn then s.file else s.nv
    let timer := if powerOn then 0 else s.timer
    { s with
      started := false
      inFailureMode := false
      gp := nv.gp
      go := nv.go
      nv
      timer
      time := timer
      timerReset := s.timerReset || powerOn
      daPendingOnNv := sameProcess && s.daPendingOnNv }

def after (accumulate : Bool) (s : DaState) : DaEvent → DaState
  | .tick ms => { s with timer := (s.timer + ms) % 2 ^ 64, powered := s.powered + ms }
  | .init powerOn sameProcess => s.init powerOn sameProcess
  | .startup x state locality fits =>
      s.execute x fun s => if s.started then s else s.startup accumulate x state locality fits
  | .command x uses a clearsOrderly =>
      s.execute x fun s => if s.started then s.perform accumulate x uses a clearsOrderly else s

def run (accumulate : Bool) (s : DaState) (events : List DaEvent) : DaState :=
  events.foldl (after accumulate) s

/-- The state in which the sessions of a command are checked. -/
def before (x : DaFrame) (s : DaState) : DaState :=
  let s := { s with updateNv := false }
  if x.available then s.timeUpdate x.clockDue else s

/-- A failure of a session of the command is timed and, unless `recoveryTime` is 0, counted. -/
def Registers (s : DaState) : DaEvent → Prop
  | .command x uses _ _ =>
      s.inFailureMode = false ∧ s.started = true ∧ ((s.before x).parseSessionBuffer x.available uses).1 = .counts
  | _ => False

instance (s : DaState) : (e : DaEvent) → Decidable (s.Registers e)
  | .command x uses _ _ => inferInstanceAs (Decidable (s.inFailureMode = false ∧ s.started = true ∧
      ((s.before x).parseSessionBuffer x.available uses).1 = .counts))
  | .tick _ | .init _ _ | .startup _ _ _ _ => isFalse id

end DaState

/-! ## The same as the session processing does -/

/-- What the two models of the checks share. -/
structure DaAgrees (s : AuthState σ) (d : DaState) : Prop where
  failedTries : d.gp.failedTries = s.failedTries
  maxTries : d.gp.maxTries = s.maxTries
  recoveryTime : d.gp.recoveryTime = s.recoveryTime
  lockOutAuthEnabled : d.gp.lockOutAuthEnabled = s.lockOutAuthEnabled
  orderly : d.gp.orderlyState.isOrderly = s.orderly
  daUsed : d.daUsed = s.daUsed
  daPendingOnNv : d.daPendingOnNv = s.daPendingOnNv

/-- `CheckLockedOut` passes here when it passes there, and leaves the same behind. -/
theorem DaAgrees.checkLockedOut {s : AuthState σ} {d : DaState} (h : DaAgrees s d) (lockoutAuthCheck : Bool) :
    (d.checkLockedOut s.nv.nvStatus.isNone lockoutAuthCheck).1 =
        decide ((AuthState.checkLockedOut lockoutAuthCheck s).1 = .ok ()) ∧
      DaAgrees (AuthState.checkLockedOut lockoutAuthCheck s).2
        (d.checkLockedOut s.nv.nvStatus.isNone lockoutAuthCheck).2 := by
  obtain ⟨hfailed, hmax, hrecovery, henabled, horderly, hused, hpending⟩ := h
  have hkept : DaAgrees s d := ⟨hfailed, hmax, hrecovery, henabled, horderly, hused, hpending⟩
  have hwritten : d.writePending.gp = d.gp ∧ d.writePending.daUsed = d.daUsed ∧
      d.writePending.daPendingOnNv = false := by
    unfold DaState.writePending
    split
    · exact ⟨rfl, rfl, rfl⟩
    · rename_i hnone
      exact ⟨rfl, rfl, Bool.eq_false_of_not_eq_true hnone⟩
  obtain ⟨hgp, hused', hpending'⟩ := hwritten
  have hsettled : DaAgrees { s with daPendingOnNv := false } d.writePending := by
    constructor <;> simp only [hgp, hused', hpending', hfailed, hmax, hrecovery, henabled, horderly, hused]
  unfold DaState.checkLockedOut AuthState.checkLockedOut
  cases hstatus : s.nv.nvStatus with
  | some rc =>
      simp only [Option.isNone_some, Bool.not_false, Bool.true_and, horderly, hpending]
      cases hblocked : s.orderly || s.daPendingOnNv with
      | true => exact ⟨by simp, hkept⟩
      | false =>
          have hclear : d.daPendingOnNv = false := hpending.trans (Bool.or_eq_false_iff.mp hblocked).2
          have hsame : d.writePending = d := if_neg (by simp [hclear])
          rw [hsame]
          cases lockoutAuthCheck with
          | true =>
              refine ⟨?_, hkept⟩
              simp only [henabled]
              cases s.lockOutAuthEnabled <;> simp
          | false =>
              simp only [Bool.false_eq_true, if_false, hmax, hfailed, hused]
              split
              · exact ⟨by simp, hkept⟩
              · cases s.daUsed with
                | true => exact ⟨by simp, hkept⟩
                | false => exact ⟨by simp, hkept⟩
  | none =>
      simp only [Option.isNone_none, Bool.not_true, Bool.false_and, Bool.false_eq_true, if_false]
      cases lockoutAuthCheck with
      | true =>
          refine ⟨?_, hsettled⟩
          simp only [hgp, henabled]
          cases s.lockOutAuthEnabled <;> simp
      | false =>
          have hlimit : d.writePending.gp.maxTries ≤ d.writePending.gp.failedTries ↔ s.maxTries ≤ s.failedTries := by
            rw [hgp, hmax, hfailed]
          have hmarked : d.writePending.daUsed = s.daUsed := hused'.trans hused
          by_cases hlocked : s.maxTries ≤ s.failedTries
          · simp only [Bool.false_eq_true, if_false, if_pos hlocked, if_pos (hlimit.mpr hlocked)]
            exact ⟨by simp, hsettled⟩
          · simp only [Bool.false_eq_true, if_false, if_neg hlocked, if_neg (mt hlimit.mp hlocked)]
            cases hmark : s.daUsed with
            | true =>
                simp only [hmarked, hmark, if_true]
                rw [hmark] at hsettled
                exact ⟨by simp, hsettled⟩
            | false =>
                simp only [hmarked, hmark, Bool.false_eq_true, if_false]
                obtain ⟨hfailed', hmax', hrecovery', henabled', -, -, -⟩ := hsettled
                exact ⟨by simp, ⟨hfailed', hmax', hrecovery', henabled', rfl, rfl, hpending'⟩⟩

end PqcTpm
