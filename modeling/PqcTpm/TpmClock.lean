import PqcTpm.SelfHeal

/-!
# The clock and its safe flag

`Time.c` and the commands that change `go.clock`: the clock in RAM, the copy in NV memory that `TimeClockUpdate`
writes now and then, and the copy that is committed. A write of the clock alone is not committed.
-/
namespace PqcTpm

/-- `CLOCK_UPDATE_MASK`. -/
def clockUpdateMask : Nat := 2 ^ 12 - 1

/-- `clock` and `clockSafe` of `go`. -/
structure OrderlyClock where
  clock : Nat := 0
  clockSafe : Bool := true
  deriving DecidableEq, Repr

/-- `go` in NV and whether `orderlyState` is orderly there. History: what had been reported when an orderly
copy was made. -/
structure ClockCopy where
  go : OrderlyClock := {}
  orderly : Bool := true
  covers : List Nat := []
  deriving DecidableEq, Repr

/-- A TPM that has been manufactured. -/
structure ClockState where
  started : Bool := false
  inFailureMode : Bool := false
  go : OrderlyClock := {}
  /-- Whether `gp.orderlyState` is. -/
  orderly : Bool := true
  nv : ClockCopy := {}
  file : ClockCopy := {}
  updateNv : Bool := false
  /-- `g_time`, and what `_plat__TimerRead` returns. -/
  time : Nat := 0
  timer : Nat := 0
  timerStopped : Bool := true
  /-- History: the values of the clock that have been reported since `TPM2_Clear`, but for those that a loss
  of power has taken; those of this cycle since `TPM2_Clear`; the milliseconds of power so far. -/
  reported : List Nat := []
  cycle : List Nat := []
  powered : Nat := 0
  deriving DecidableEq, Repr

/-- What a command meets: NV, whether something else is written, and whether the commit fails. -/
structure ClockFrame where
  available : Bool := true
  writes : Bool := false
  commitFails : Bool := false
  deriving DecidableEq, Repr

inductive ClockAction
  | none
  /-- `TPM2_ReadClock`, and all that gives a `TPMS_CLOCK_INFO` out. -/
  | readClock
  | clockSet (newTime : Nat)
  | shutdown (state pcrReConfig : Bool)
  | clear (disableClear : Bool)
  deriving DecidableEq, Repr

inductive ClockEvent
  /-- Milliseconds pass. -/
  | tick (ms : Nat)
  | timerRestart
  /-- `_TPM_Init`, after a loss of power or not. -/
  | init (powerOn : Bool)
  /-- `TPM2_Startup`; whether its checks of the locality and the type pass. -/
  | startup (frame : ClockFrame) (accepted : Bool)
  | command (frame : ClockFrame) (action : ClockAction) (clearsOrderly : Bool)
  deriving DecidableEq, Repr

namespace ClockState

/-! ## `Time.c` -/

/-- `TimeStartup`. -/
def timeStartup (s : ClockState) : ClockState :=
  if s.orderly then s else { s with go := { s.go with clockSafe := false } }

/-- `TimeClockUpdate`. `g_updateNV` is as before afterwards. -/
def timeClockUpdate (newTime : Nat) (s : ClockState) : ClockState :=
  if s.go.clock ||| clockUpdateMask < newTime ||| clockUpdateMask then
    { s with go := ⟨newTime, true⟩, nv := { s.nv with go := ⟨newTime, true⟩ } }
  else { s with go := { s.go with clock := newTime } }

/-- `TimeUpdate`. A new epoch is a reason to commit; what `DASelfHeal` writes is among the other writes. -/
def timeUpdate (s : ClockState) : ClockState :=
  let s := if s.timerStopped then { s with timerStopped := false, updateNv := true } else s
  let elapsed := elapsed s.timer s.time
  timeClockUpdate ((s.go.clock + elapsed) % 2 ^ 64) { s with time := (s.time + elapsed) % 2 ^ 64 }

/-- `TimeFillInfo`. -/
def clockInfo (available : Bool) (s : ClockState) : OrderlyClock := ⟨s.go.clock, s.go.clockSafe && available⟩

/-! ## Commands -/

def syncOrderlyState (s : ClockState) : ClockState :=
  { s with nv := { s.nv with orderly := s.orderly }, updateNv := true }

/-- The actions; those that write need NV. -/
def act (available : Bool) (a : ClockAction) (s : ClockState) : ClockState :=
  match a with
  | .none => s
  | .readClock => { s with reported := s.go.clock :: s.reported, cycle := s.go.clock :: s.cycle }
  | .clockSet newTime =>
      if 0xFFFF000000000000 < newTime ∨ newTime < s.go.clock ∨ available = false then s else s.timeClockUpdate newTime
  | .shutdown state pcrReConfig =>
      if available = false ∨ (pcrReConfig && state) = true then s
      else { s with orderly := true, nv := ⟨s.go, true, s.reported⟩, updateNv := true }
  | .clear disableClear =>
      if available = false ∨ disableClear = true then s
      else { s with go := {}, nv := ⟨{}, s.orderly, []⟩, updateNv := true, reported := [], cycle := [] }

/-- The end of `ExecuteCommand` before the commit. -/
def cleanup (clearOrderly : Bool) (s : ClockState) : ClockState :=
  if clearOrderly && s.orderly then syncOrderlyState { s with orderly := false } else s

/-- What a commit of NV memory makes safe from a loss of power. -/
def nvCovers (s : ClockState) : List Nat := if s.nv.orderly then s.nv.covers else s.reported

/-- `NvCommit`. -/
def commit (x : ClockFrame) (s : ClockState) : ClockState :=
  if !(s.updateNv || x.writes) then s
  else if x.commitFails then { s with inFailureMode := true }
  else { s with file := { s.nv with covers := s.nvCovers } }

/-- `ExecuteCommand` around what is done for a command. -/
def execute (x : ClockFrame) (body : ClockState → ClockState) (s : ClockState) : ClockState :=
  if s.inFailureMode then s
  else
    let s := { s with updateNv := false }
    let s := if x.available && s.started then s.timeUpdate else s
    (body s).commit x

/-- `TPM2_Startup`; `DAStartup` ends with `TimeUpdate`. -/
def startup (accepted : Bool) (x : ClockFrame) (s : ClockState) : ClockState :=
  if !x.available || !accepted then s
  else syncOrderlyState { (timeUpdate (timeStartup { s with started := true })) with orderly := false }

/-- `_TPM_Init`; only power ends failure mode, and the timer starts anew with it. -/
def init (powerOn : Bool) (s : ClockState) : ClockState :=
  if s.inFailureMode && !powerOn then s
  else
    let nv := if powerOn then s.file else { s.nv with covers := s.nvCovers }
    let timer := if powerOn then 0 else s.timer
    { s with
      started := false
      inFailureMode := false
      go := nv.go
      orderly := nv.orderly
      nv
      timer
      time := timer
      timerStopped := s.timerStopped || powerOn
      reported := nv.covers
      cycle := [] }

/-- Once the TPM has been started only the other commands are, before only `TPM2_Startup` is. -/
def startupBody (x : ClockFrame) (accepted : Bool) (s : ClockState) : ClockState :=
  if s.started then s else s.startup accepted x

def commandBody (x : ClockFrame) (a : ClockAction) (clearsOrderly : Bool) (s : ClockState) : ClockState :=
  if s.started then (s.act x.available a).cleanup clearsOrderly else s

def after (s : ClockState) : ClockEvent → ClockState
  | .tick ms => { s with timer := (s.timer + ms) % 2 ^ 64, powered := s.powered + ms }
  | .timerRestart => { s with timerStopped := true }
  | .init powerOn => s.init powerOn
  | .startup x accepted => s.execute x (startupBody x accepted)
  | .command x a clearsOrderly => s.execute x (commandBody x a clearsOrderly)

def run (s : ClockState) (events : List ClockEvent) : ClockState := events.foldl after s

/-! ## Intervals -/

theorem or_clockUpdateMask (c : Nat) : c ||| clockUpdateMask = c / 4096 * 4096 + 4095 := by
  have hdiv : (c ||| clockUpdateMask) / 2 ^ 12 = c / 2 ^ 12 := by
    rw [← Nat.shiftRight_eq_div_pow, ← Nat.shiftRight_eq_div_pow, Nat.shiftRight_or_distrib]
    exact Nat.or_zero _
  have hmod : (c ||| clockUpdateMask) % 2 ^ 12 = clockUpdateMask := by
    rw [Nat.or_mod_two_pow]
    refine Nat.eq_of_testBit_eq fun j => ?_
    rw [Nat.testBit_or, Nat.testBit_mod_two_pow, Nat.testBit_mod_two_pow, clockUpdateMask, Nat.testBit_two_pow_sub_one]
    by_cases hj : j < 12 <;> simp [hj]
  have hvalue := Nat.div_add_mod' (c ||| clockUpdateMask) (2 ^ 12)
  rw [hdiv, hmod] at hvalue
  exact hvalue.symm

theorem mask_lt {c n : Nat} (h : c ||| clockUpdateMask < n ||| clockUpdateMask) : c ||| clockUpdateMask < n := by
  rw [or_clockUpdateMask] at h ⊢
  rw [or_clockUpdateMask] at h
  omega

theorem le_mask (c : Nat) : c ≤ c ||| clockUpdateMask := by
  rw [or_clockUpdateMask]
  omega

theorem mask_eq {c n : Nat} (hle : c ≤ n) (h : ¬ c ||| clockUpdateMask < n ||| clockUpdateMask) :
    n ||| clockUpdateMask = c ||| clockUpdateMask := by
  rw [or_clockUpdateMask, or_clockUpdateMask] at h ⊢
  omega

/-! ## What is covered -/

section Invariant
variable {s : ClockState}

/-- No value that a copy covers is beyond its interval, and beyond its clock none if a startup keeps the flag. -/
def Covers (c : ClockCopy) (values : List Nat) : Prop :=
  ∀ v ∈ values, v ≤ c.go.clock ||| clockUpdateMask ∧ (c.orderly = true → c.go.clockSafe = true → v ≤ c.go.clock)

/-- A TPM that has been started. -/
structure Running (s : ClockState) : Prop where
  orderly : s.orderly = s.nv.orderly
  interval : s.go.clock ||| clockUpdateMask = s.nv.go.clock ||| clockUpdateMask
  reported : ∀ v ∈ s.reported, v ≤ s.go.clock ||| clockUpdateMask ∧ (s.go.clockSafe = true → v ≤ s.go.clock)
  cycle : ∀ v ∈ s.cycle, v ≤ s.go.clock
  nv : Covers s.nv s.nvCovers

/-- One that waits for `TPM2_Startup`. -/
structure Waiting (s : ClockState) : Prop where
  go : s.go = s.nv.go
  orderly : s.orderly = s.nv.orderly
  reported : s.reported = s.nvCovers
  cycle : s.cycle = []
  nv : Covers s.nv s.nvCovers

/-- The largest value for `TPM2_ClockSet`, and what power has added. -/
def clockLimit (s : ClockState) : Nat := 0xFFFF000000000000 + s.powered

structure Bounded (s : ClockState) : Prop where
  elapsed : elapsed s.timer s.time ≤ s.powered
  clock : s.go.clock + PqcTpm.elapsed s.timer s.time ≤ s.clockLimit
  nv : s.nv.go.clock ≤ s.clockLimit

/-- What a loss of power leaves. -/
structure FileSound (s : ClockState) : Prop where
  covers : Covers s.file s.file.covers
  clock : s.file.go.clock ≤ s.clockLimit

structure Live (s : ClockState) : Prop where
  bounded : s.Bounded
  running : s.started = true → s.Running
  waiting : s.started = false → s.Waiting

/-- The invariant; in failure mode only the file counts. -/
structure Sound (s : ClockState) : Prop where
  file : s.FileSound
  live : s.inFailureMode = false → s.Live

theorem Running.covers_all (h : s.Running) (v : Nat) (hv : v ∈ s.reported) : v ≤ s.nv.go.clock ||| clockUpdateMask := by
  rw [← h.interval]
  exact (h.reported v hv).1

theorem Running.timeClockUpdate (h : s.Running) {newTime : Nat} (hle : s.go.clock ≤ newTime) :
    (s.timeClockUpdate newTime).Running := by
  unfold ClockState.timeClockUpdate
  split
  · rename_i hcross
    have hlt := mask_lt hcross
    refine ⟨h.orderly, rfl, fun v hv => ?_, fun v hv => ?_, fun v hv => ?_⟩
    · have hv' := (h.reported v hv).1
      dsimp only
      have hmask := le_mask newTime
      exact ⟨by omega, fun _ => by omega⟩
    · exact Nat.le_trans (h.cycle v hv) hle
    · have hmask := le_mask newTime
      have hinterval := h.interval
      have hv' : v ≤ s.nv.go.clock ||| clockUpdateMask := (h.nv v hv).1
      dsimp only
      exact ⟨by omega, fun _ _ => by omega⟩
  · rename_i hsame
    have hinterval := mask_eq hle hsame
    refine ⟨h.orderly, hinterval.trans h.interval, fun v hv => ?_, fun v hv => ?_, h.nv⟩
    · obtain ⟨hmask, hsafe⟩ := h.reported v hv
      dsimp only
      exact ⟨hmask.trans_eq hinterval.symm, fun hflag => (hsafe hflag).trans hle⟩
    · exact Nat.le_trans (h.cycle v hv) hle

/-! ## The steps -/

theorem timeClockUpdate_eq (s : ClockState) (newTime : Nat) : ∃ go nv, s.timeClockUpdate newTime = { s with go, nv } ∧
    go.clock = newTime ∧ (nv.go.clock = newTime ∨ nv = s.nv) := by
  unfold ClockState.timeClockUpdate
  split
  · exact ⟨_, _, rfl, rfl, .inl rfl⟩
  · exact ⟨_, s.nv, rfl, rfl, .inr rfl⟩

theorem Bounded.timeClockUpdate (h : s.Bounded) {newTime : Nat}
    (hlimit : newTime + PqcTpm.elapsed s.timer s.time ≤ s.clockLimit) : (s.timeClockUpdate newTime).Bounded := by
  obtain ⟨go, nv, heq, hclock, hnv⟩ := timeClockUpdate_eq s newTime
  rw [heq]
  refine ⟨h.elapsed, ?_, ?_⟩
  · rw [hclock]
    exact hlimit
  · rcases hnv with hnew | hkept
    · rw [hnew]
      exact Nat.le_trans (Nat.le_add_right _ _) hlimit
    · rw [hkept]
      exact h.nv

theorem Bounded.no_wrap (h : s.Bounded) (hpowered : s.powered < 2 ^ 48) :
    (s.go.clock + PqcTpm.elapsed s.timer s.time) % 2 ^ 64 = s.go.clock + PqcTpm.elapsed s.timer s.time := by
  have hlimit := h.clock
  unfold clockLimit at hlimit
  exact Nat.mod_eq_of_lt (by omega)

/-- `TimeUpdate` sets the clock that much forward. -/
theorem timeUpdate_eq (h : s.Bounded) (hpowered : s.powered < 2 ^ 48) : ∃ timerStopped updateNv,
    s.timeUpdate = timeClockUpdate (s.go.clock + PqcTpm.elapsed s.timer s.time)
      { s with timerStopped, updateNv, time := (s.time + PqcTpm.elapsed s.timer s.time) % 2 ^ 64 } := by
  have hwrap := h.no_wrap hpowered
  unfold timeUpdate
  cases hstopped : s.timerStopped with
  | true =>
      refine ⟨false, true, ?_⟩
      dsimp only
      rw [if_pos rfl]
      dsimp only
      rw [hwrap]
  | false =>
      refine ⟨false, s.updateNv, ?_⟩
      dsimp only
      rw [if_neg Bool.false_ne_true, hwrap, hstopped]

theorem Bounded.timeUpdate (h : s.Bounded) (hpowered : s.powered < 2 ^ 48) : s.timeUpdate.Bounded := by
  obtain ⟨timerStopped, updateNv, heq⟩ := timeUpdate_eq h hpowered
  rw [heq]
  have hzero : PqcTpm.elapsed s.timer ((s.time + PqcTpm.elapsed s.timer s.time) % 2 ^ 64) = 0 := by
    rw [elapsed_advance (Nat.le_refl _), Nat.sub_self]
  apply Bounded.timeClockUpdate
  · refine ⟨?_, ?_, h.nv⟩
    · rw [hzero]
      exact Nat.zero_le _
    · rw [hzero]
      exact Nat.le_trans (Nat.le_add_right _ _) h.clock
  · rw [hzero]
    exact h.clock

theorem Running.timeUpdate (h : s.Running) (hbound : s.Bounded) (hpowered : s.powered < 2 ^ 48) : s.timeUpdate.Running := by
  obtain ⟨timerStopped, updateNv, heq⟩ := timeUpdate_eq hbound hpowered
  rw [heq]
  apply Running.timeClockUpdate
  · exact ⟨h.orderly, h.interval, h.reported, h.cycle, h.nv⟩
  · exact Nat.le_add_right _ _

/-- `TPM2_Startup` and the first command that ends the orderly state write that it is not orderly. -/
theorem Running.notOrderly (h : s.Running) : (syncOrderlyState { s with orderly := false }).Running := by
  refine ⟨rfl, h.interval, h.reported, h.cycle, fun v hv => ?_⟩
  exact ⟨h.covers_all v hv, fun horderly => absurd horderly Bool.false_ne_true⟩

theorem Running.cleanup (h : s.Running) (clearOrderly : Bool) : (s.cleanup clearOrderly).Running := by
  unfold ClockState.cleanup
  split
  · exact h.notOrderly
  · exact h

theorem mem_nvCovers_report {available : Bool} {v : Nat} (hv : v ∈ (s.act available .readClock).nvCovers) :
    v ∈ s.nvCovers ∨ v = s.go.clock ∧ s.nv.orderly = false := by
  change v ∈ if s.nv.orderly then s.nv.covers else s.go.clock :: s.reported at hv
  unfold nvCovers
  cases horderly : s.nv.orderly with
  | true =>
      rw [horderly, if_pos rfl] at hv
      exact .inl hv
  | false =>
      rw [horderly, if_neg Bool.false_ne_true] at hv
      exact (List.mem_cons.mp hv).symm.imp_right fun heq => ⟨heq, rfl⟩

theorem Running.act (h : s.Running) (available : Bool) (a : ClockAction) : (s.act available a).Running := by
  cases a with
  | none => exact h
  | readClock =>
      have hmask := le_mask s.go.clock
      refine ⟨h.orderly, h.interval, ?_, ?_, ?_⟩
      · intro v hv
        rcases List.mem_cons.mp hv with rfl | hv
        · exact ⟨hmask, fun _ => Nat.le_refl _⟩
        · exact h.reported v hv
      · intro v hv
        rcases List.mem_cons.mp hv with rfl | hv
        · exact Nat.le_refl _
        · exact h.cycle v hv
      · intro v hv
        rcases mem_nvCovers_report hv with hold | ⟨rfl, hdirty⟩
        · exact h.nv v hold
        · exact ⟨h.interval ▸ hmask, fun horderly => absurd (hdirty.symm.trans horderly) Bool.false_ne_true⟩
  | clockSet newTime =>
      rw [ClockState.act]
      split
      · exact h
      · rename_i haccepted
        exact h.timeClockUpdate (Nat.le_of_not_lt fun hlt => haccepted (.inr (.inl hlt)))
  | shutdown state pcrReConfig =>
      rw [ClockState.act]
      split
      · exact h
      · exact ⟨rfl, rfl, h.reported, h.cycle, fun v hv => ⟨(h.reported v hv).1, fun _ => (h.reported v hv).2⟩⟩
  | clear disableClear =>
      rw [ClockState.act]
      split
      · exact h
      · refine ⟨rfl, rfl, fun v hv => absurd hv List.not_mem_nil, fun v hv => absurd hv List.not_mem_nil, ?_⟩
        intro v hv
        unfold nvCovers at hv
        rw [ite_self] at hv
        exact absurd hv List.not_mem_nil

theorem Bounded.act (h : s.Bounded) (available : Bool) (a : ClockAction) : (s.act available a).Bounded := by
  have helapsed := h.elapsed
  cases a with
  | none => exact h
  | readClock => exact ⟨h.elapsed, h.clock, h.nv⟩
  | clockSet newTime =>
      rw [ClockState.act]
      split
      · exact h
      · apply h.timeClockUpdate
        unfold clockLimit
        omega
  | shutdown state pcrReConfig =>
      rw [ClockState.act]
      split
      · exact h
      · exact ⟨h.elapsed, h.clock, Nat.le_trans (Nat.le_add_right _ _) h.clock⟩
  | clear disableClear =>
      rw [ClockState.act]
      split
      · exact h
      · refine ⟨h.elapsed, ?_, Nat.zero_le _⟩
        unfold clockLimit
        dsimp only
        omega

theorem Bounded.cleanup (h : s.Bounded) (clearOrderly : Bool) : (s.cleanup clearOrderly).Bounded := by
  unfold ClockState.cleanup
  split
  · exact ⟨h.elapsed, h.clock, h.nv⟩
  · exact h

/-- `TimeStartup`: without the flag nothing has to be below the clock. -/
theorem Waiting.timeStartup (h : s.Waiting) : (timeStartup { s with started := true }).Running := by
  have hgo := h.go
  have hreported := h.reported
  unfold ClockState.timeStartup
  split
  · rename_i horderly
    refine ⟨h.orderly, congrArg (·.clock ||| clockUpdateMask) hgo, fun v hv => ?_, ?_, h.nv⟩
    · obtain ⟨hinterval, hsafe⟩ := h.nv v (hreported ▸ hv)
      dsimp only
      rw [hgo]
      exact ⟨hinterval, hsafe (h.orderly ▸ horderly)⟩
    · intro v hv
      exact absurd (h.cycle ▸ hv) List.not_mem_nil
  · refine ⟨h.orderly, congrArg (·.clock ||| clockUpdateMask) hgo, fun v hv => ?_, ?_, h.nv⟩
    · obtain ⟨hinterval, -⟩ := h.nv v (hreported ▸ hv)
      dsimp only
      rw [hgo]
      exact ⟨hinterval, fun hflag => absurd hflag Bool.false_ne_true⟩
    · intro v hv
      exact absurd (h.cycle ▸ hv) List.not_mem_nil

theorem Bounded.timeStartup (h : s.Bounded) : (timeStartup { s with started := true }).Bounded := by
  unfold ClockState.timeStartup
  split <;> exact ⟨h.elapsed, h.clock, h.nv⟩

/-! ## Runs -/

/-- What only the end of `ExecuteCommand`, the events outside of it and `TPM2_Startup` change. -/
structure Frame (s s' : ClockState) : Prop where
  started : s'.started = s.started
  inFailureMode : s'.inFailureMode = s.inFailureMode
  file : s'.file = s.file
  powered : s'.powered = s.powered

theorem Frame.refl (s : ClockState) : Frame s s := ⟨rfl, rfl, rfl, rfl⟩

theorem Frame.trans {s' s'' : ClockState} (h : Frame s s') (h' : Frame s' s'') : Frame s s'' :=
  ⟨h'.started.trans h.started, h'.inFailureMode.trans h.inFailureMode, h'.file.trans h.file, h'.powered.trans h.powered⟩

theorem timeStartup_frame (s : ClockState) : Frame s s.timeStartup := by
  unfold timeStartup
  split <;> exact ⟨rfl, rfl, rfl, rfl⟩

theorem timeClockUpdate_frame (s : ClockState) (newTime : Nat) : Frame s (s.timeClockUpdate newTime) := by
  obtain ⟨go, nv, heq, -, -⟩ := timeClockUpdate_eq s newTime
  rw [heq]
  exact ⟨rfl, rfl, rfl, rfl⟩

theorem timeUpdate_frame (s : ClockState) : Frame s s.timeUpdate := by
  unfold timeUpdate
  dsimp only
  refine Frame.trans ?_ (timeClockUpdate_frame _ _)
  split <;> exact ⟨rfl, rfl, rfl, rfl⟩

theorem act_frame (s : ClockState) (available : Bool) (a : ClockAction) : Frame s (s.act available a) := by
  cases a with
  | none => exact .refl s
  | readClock => exact ⟨rfl, rfl, rfl, rfl⟩
  | clockSet newTime =>
      rw [act]
      split
      · exact .refl s
      · exact timeClockUpdate_frame s newTime
  | shutdown state pcrReConfig =>
      rw [act]
      split <;> exact ⟨rfl, rfl, rfl, rfl⟩
  | clear disableClear =>
      rw [act]
      split <;> exact ⟨rfl, rfl, rfl, rfl⟩

theorem cleanup_frame (s : ClockState) (clearOrderly : Bool) : Frame s (s.cleanup clearOrderly) := by
  unfold cleanup
  split <;> exact ⟨rfl, rfl, rfl, rfl⟩

/-- A body keeps the file and leaves a state that a commit may find. -/
structure Body (s s' : ClockState) : Prop where
  live : s'.Live
  file : s'.file = s.file
  powered : s'.powered = s.powered

theorem Waiting.startup (h : s.Waiting) (hbound : s.Bounded) (hpowered : s.powered < 2 ^ 48)
    (hstarted : s.started = false) (x : ClockFrame) (accepted : Bool) : Body s (s.startup accepted x) := by
  unfold ClockState.startup
  split
  · exact ⟨⟨hbound, fun hs => absurd (hstarted.symm.trans hs) Bool.false_ne_true, fun _ => h⟩, rfl, rfl⟩
  · have hframe := timeStartup_frame { s with started := true }
    have hlater := hframe.trans (timeUpdate_frame _)
    have hpowered' := lt_of_eq_of_lt hframe.powered hpowered
    have hrunning := (h.timeStartup.timeUpdate hbound.timeStartup hpowered').notOrderly
    obtain ⟨helapsed, hclock, hnv⟩ := hbound.timeStartup.timeUpdate hpowered'
    exact ⟨⟨⟨helapsed, hclock, hnv⟩, fun _ => hrunning, fun hs => absurd (hs.symm.trans hlater.started) Bool.false_ne_true⟩,
      hlater.file, hlater.powered⟩

theorem Running.command (h : s.Running) (hbound : s.Bounded) (hstarted : s.started = true) (available clearsOrderly : Bool)
    (a : ClockAction) : Body s ((s.act available a).cleanup clearsOrderly) := by
  have hframe := (act_frame s available a).trans (cleanup_frame _ clearsOrderly)
  have hrunning := (h.act available a).cleanup clearsOrderly
  refine ⟨⟨(hbound.act available a).cleanup clearsOrderly, fun _ => hrunning, fun hs => ?_⟩, hframe.file, hframe.powered⟩
  exact absurd ((hs.symm.trans hframe.started).trans hstarted) Bool.false_ne_true

theorem Live.nv (h : s.Live) : Covers s.nv s.nvCovers := by
  cases hstarted : s.started with
  | true => exact (h.running hstarted).nv
  | false => exact (h.waiting hstarted).nv

theorem Live.of_update (h : s.Live) (file : ClockCopy) (updateNv timerStopped : Bool) :
    ({ s with file, updateNv, timerStopped } : ClockState).Live := by
  obtain ⟨⟨helapsed, hclock, hnv⟩, hrunning, hwaiting⟩ := h
  refine ⟨⟨helapsed, hclock, hnv⟩, fun hs => ?_, fun hs => ?_⟩
  · obtain ⟨horderly, hinterval, hreported, hcycle, hcovers⟩ := hrunning hs
    exact ⟨horderly, hinterval, hreported, hcycle, hcovers⟩
  · obtain ⟨hgo, horderly, hreported, hcycle, hcovers⟩ := hwaiting hs
    exact ⟨hgo, horderly, hreported, hcycle, hcovers⟩

theorem Live.commit (h : s.Live) (hfile : s.FileSound) (x : ClockFrame) : (s.commit x).Sound := by
  unfold ClockState.commit
  split
  · exact ⟨hfile, fun _ => h⟩
  · split
    · exact ⟨⟨hfile.covers, hfile.clock⟩, fun hf => absurd hf.symm Bool.false_ne_true⟩
    · exact ⟨⟨h.nv, h.bounded.nv⟩, fun _ => h.of_update _ s.updateNv s.timerStopped⟩

theorem Live.timeUpdate (h : s.Live) (hstarted : s.started = true) (hpowered : s.powered < 2 ^ 48) : Body s s.timeUpdate := by
  have hframe := timeUpdate_frame s
  have hrunning := (h.running hstarted).timeUpdate h.bounded hpowered
  refine ⟨⟨h.bounded.timeUpdate hpowered, fun _ => hrunning, fun hs => ?_⟩, hframe.file, hframe.powered⟩
  exact absurd ((hs.symm.trans hframe.started).trans hstarted) Bool.false_ne_true

/-- `ExecuteCommand` around a body that keeps what is live. -/
theorem Sound.execute (h : s.Sound) (hpowered : s.powered < 2 ^ 48) (x : ClockFrame) {body : ClockState → ClockState}
    (hbody : ∀ s', s'.Live → s'.powered < 2 ^ 48 → Body s' (body s')) : (s.execute x body).Sound := by
  unfold ClockState.execute
  split
  · exact h
  · rename_i hf
    have hlive := (h.live (Bool.eq_false_iff.mpr hf)).of_update s.file false s.timerStopped
    have hentered : Body { s with updateNv := false }
        (if x.available && s.started then timeUpdate { s with updateNv := false } else { s with updateNv := false }) := by
      split
      · rename_i hstarted
        exact hlive.timeUpdate (Bool.and_eq_true_iff.mp hstarted).2 hpowered
      · exact ⟨hlive, rfl, rfl⟩
    have hdone := hbody _ hentered.live (lt_of_eq_of_lt hentered.powered hpowered)
    have hfile := hdone.file.trans hentered.file
    have hsame := hdone.powered.trans hentered.powered
    refine hdone.live.commit ⟨?_, ?_⟩ x
    · rw [hfile]
      exact h.file.covers
    · rw [clockLimit, hfile, hsame]
      exact h.file.clock

theorem Sound.init (h : s.Sound) (powerOn : Bool) : (s.init powerOn).Sound := by
  unfold ClockState.init
  split
  · exact h
  · rename_i hf
    have hlive (hpower : ¬ powerOn = true) : s.Live := by
      rw [Bool.eq_false_iff.mpr hpower, Bool.not_false, Bool.and_true] at hf
      exact h.live (Bool.eq_false_iff.mpr hf)
    have hzero (time : Nat) : PqcTpm.elapsed time time ≤ s.powered := by
      rw [elapsed_self]
      exact Nat.zero_le _
    refine ⟨⟨h.file.covers, h.file.clock⟩, fun _ => ⟨?_, fun hs => absurd hs Bool.false_ne_true, fun _ => ?_⟩⟩
    · have hnv : (if powerOn then s.file else { s.nv with covers := s.nvCovers }).go.clock ≤ s.clockLimit := by
        split
        · exact h.file.clock
        · rename_i hpower
          exact (hlive hpower).bounded.nv
      refine ⟨hzero _, ?_, hnv⟩
      dsimp only
      rw [elapsed_self]
      exact hnv
    · refine ⟨rfl, rfl, ?_, rfl, ?_⟩
      · exact (ite_self _).symm
      · unfold nvCovers
        dsimp only
        rw [ite_self]
        split
        · exact h.file.covers
        · rename_i hpower
          exact (hlive hpower).nv

theorem Sound.tick (h : s.Sound) (ms : Nat) : (s.after (.tick ms)).Sound := by
  have hlimit : s.clockLimit ≤ (s.after (.tick ms)).clockLimit := Nat.add_le_add_left (Nat.le_add_right _ _) _
  have helapsed : PqcTpm.elapsed ((s.timer + ms) % 2 ^ 64) s.time ≤ PqcTpm.elapsed s.timer s.time + ms := by
    unfold PqcTpm.elapsed
    omega
  refine ⟨⟨h.file.covers, Nat.le_trans h.file.clock hlimit⟩, fun hf => ?_⟩
  obtain ⟨⟨hbound, hclock, hnv⟩, hrunning, hwaiting⟩ := h.live hf
  refine ⟨⟨?_, ?_, Nat.le_trans hnv hlimit⟩, fun hs => ?_, fun hs => ?_⟩
  · change PqcTpm.elapsed ((s.timer + ms) % 2 ^ 64) s.time ≤ s.powered + ms
    omega
  · change s.go.clock + PqcTpm.elapsed ((s.timer + ms) % 2 ^ 64) s.time ≤ 0xFFFF000000000000 + (s.powered + ms)
    unfold clockLimit at hclock
    omega
  · obtain ⟨horderly, hinterval, hreported, hcycle, hcovers⟩ := hrunning hs
    exact ⟨horderly, hinterval, hreported, hcycle, hcovers⟩
  · obtain ⟨hgo, horderly, hreported, hcycle, hcovers⟩ := hwaiting hs
    exact ⟨hgo, horderly, hreported, hcycle, hcovers⟩

theorem Sound.after (h : s.Sound) (hpowered : s.powered < 2 ^ 48) (event : ClockEvent) : (s.after event).Sound := by
  cases event with
  | tick ms => exact h.tick ms
  | timerRestart =>
      exact ⟨⟨h.file.covers, h.file.clock⟩, fun hf => (h.live hf).of_update s.file s.updateNv true⟩
  | init powerOn => exact h.init powerOn
  | startup x accepted =>
      apply h.execute hpowered x
      intro s' hlive hpowered'
      unfold startupBody
      split
      · exact ⟨hlive, rfl, rfl⟩
      · rename_i hs
        have hs' := Bool.eq_false_iff.mpr hs
        exact (hlive.waiting hs').startup hlive.bounded hpowered' hs' x accepted
  | command x a clearsOrderly =>
      apply h.execute hpowered x
      intro s' hlive _
      unfold commandBody
      split
      · rename_i hs
        exact (hlive.running hs).command hlive.bounded hs x.available clearsOrderly a
      · exact ⟨hlive, rfl, rfl⟩

theorem powered_execute (s : ClockState) (x : ClockFrame) {body : ClockState → ClockState}
    (hbody : ∀ s', (body s').powered = s'.powered) : (s.execute x body).powered = s.powered := by
  have hcommit (s' : ClockState) : (s'.commit x).powered = s'.powered := by
    unfold commit
    split
    · rfl
    · split <;> rfl
  unfold execute
  split
  · rfl
  · rw [hcommit, hbody]
    split
    · exact (timeUpdate_frame _).powered
    · rfl

/-- Power is only ever added. -/
theorem le_powered_after (s : ClockState) (event : ClockEvent) : s.powered ≤ (s.after event).powered := by
  cases event with
  | tick ms => exact Nat.le_add_right _ _
  | timerRestart => exact Nat.le_refl _
  | init powerOn =>
      change s.powered ≤ (s.init powerOn).powered
      unfold init
      split <;> exact Nat.le_refl _
  | startup x accepted =>
      refine Nat.le_of_eq (powered_execute s x fun s' => ?_).symm
      unfold startupBody
      split
      · rfl
      · unfold startup
        split
        · rfl
        · exact ((timeStartup_frame { s' with started := true }).trans (timeUpdate_frame _)).powered
  | command x a clearsOrderly =>
      refine Nat.le_of_eq (powered_execute s x fun s' => ?_).symm
      unfold commandBody
      split
      · exact ((act_frame s' x.available a).trans (cleanup_frame _ clearsOrderly)).powered
      · rfl

theorem le_powered_run (s : ClockState) (events : List ClockEvent) : s.powered ≤ (s.run events).powered := by
  induction events generalizing s with
  | nil => exact Nat.le_refl _
  | cons event events ih => exact Nat.le_trans (le_powered_after s event) (ih (s.after event))

theorem Sound.run (h : s.Sound) {events : List ClockEvent} (hpowered : (s.run events).powered < 2 ^ 48) :
    (s.run events).Sound := by
  induction events generalizing s with
  | nil => exact h
  | cons event events ih =>
      have hrest := le_powered_run (s.after event) events
      have hstep := le_powered_after s event
      change ((s.after event).run events).powered < 2 ^ 48 at hpowered
      exact ih (h.after (by omega) event) hpowered

theorem manufactured_sound : ({} : ClockState).Sound := by
  have hnone : Covers {} [] := fun v hv => absurd hv List.not_mem_nil
  refine ⟨⟨hnone, Nat.zero_le _⟩, fun _ => ⟨⟨Nat.zero_le _, Nat.zero_le _, Nat.zero_le _⟩, ?_, fun _ => ?_⟩⟩
  · intro hs
    exact absurd hs Bool.false_ne_true
  · exact ⟨rfl, rfl, rfl, rfl, hnone⟩

/-- While a TPM is powered for less than 2 ^ 48 milliseconds in all, its clock is at or beyond every value that it has
given out in this cycle and since `TPM2_Clear`. When it says that the clock is safe, the clock is at or beyond every
value given out since `TPM2_Clear`, but for those that a loss of power took: what was given out after the last commit,
or after the last `TPM2_Shutdown` of a cycle that stayed orderly. -/
theorem safe_clock (events : List ClockEvent) (hpowered : (({} : ClockState).run events).powered < 2 ^ 48)
    (hlive : (({} : ClockState).run events).inFailureMode = false) (hstarted : (({} : ClockState).run events).started = true)
    (available : Bool) :
    (∀ v ∈ (({} : ClockState).run events).cycle, v ≤ ((({} : ClockState).run events).clockInfo available).clock) ∧
      (((({} : ClockState).run events).clockInfo available).clockSafe = true →
        ∀ v ∈ (({} : ClockState).run events).reported, v ≤ ((({} : ClockState).run events).clockInfo available).clock) := by
  have hrunning := ((manufactured_sound.run hpowered).live hlive).running hstarted
  refine ⟨hrunning.cycle, fun hsafe v hv => ?_⟩
  exact (hrunning.reported v hv).2 (Bool.and_eq_true_iff.mp hsafe).1

/-- Two cycles, the second after a loss of power. -/
theorem safe_clock_cycles :
    let s := ({} : ClockState).run [.init true, .startup {} true, .tick 5000, .command {} .readClock true,
      .command {} (.shutdown false false) false, .init true, .startup {} true, .tick 100, .command {} .readClock false]
    (∀ v ∈ s.cycle, v ≤ (s.clockInfo true).clock) ∧
      ((s.clockInfo true).clockSafe = true → ∀ v ∈ s.reported, v ≤ (s.clockInfo true).clock) :=
  safe_clock _ (by decide) (by decide) (by decide) true

/-! ## What a loss of power takes -/

theorem timeUpdate_updateNv (hstopped : s.timerStopped = false) : s.timeUpdate.updateNv = s.updateNv := by
  unfold timeUpdate
  dsimp only
  rw [hstopped, if_neg Bool.false_ne_true]
  unfold timeClockUpdate
  split <;> rfl

theorem readClock_eq (hf : s.inFailureMode = false) (hs : s.started = true) (hstopped : s.timerStopped = false) :
    s.after (.command {} .readClock false) = act true .readClock (timeUpdate { s with updateNv := false }) := by
  have hframe := timeUpdate_frame { s with updateNv := false }
  have hupdate := timeUpdate_updateNv (s := { s with updateNv := false }) hstopped
  have hbody (s' : ClockState) (hs' : s'.started = true) : commandBody {} .readClock false s' = act true .readClock s' :=
    if_pos hs'
  have hcommit (s' : ClockState) (hnone : s'.updateNv = false) : s'.commit {} = s' := by
    unfold commit
    rw [hnone]
    exact if_pos rfl
  change s.execute {} _ = _
  unfold execute
  rw [if_neg (Bool.eq_false_iff.mp hf)]
  dsimp only
  rw [Bool.true_and, if_pos hs, hbody _ (hframe.started.trans hs)]
  exact hcommit _ hupdate

theorem timeUpdate_clock (h : s.Bounded) (hpowered : s.powered < 2 ^ 48) :
    s.timeUpdate.go.clock = s.go.clock + PqcTpm.elapsed s.timer s.time := by
  obtain ⟨timerStopped, updateNv, heq⟩ := timeUpdate_eq h hpowered
  obtain ⟨go, nv, hclock, hgo, -⟩ := timeClockUpdate_eq
    { s with timerStopped, updateNv, time := (s.time + PqcTpm.elapsed s.timer s.time) % 2 ^ 64 }
    (s.go.clock + PqcTpm.elapsed s.timer s.time)
  rw [heq, hclock]
  exact hgo

/-- `TPM2_Startup` after a loss of power; the epoch that ends with it is a reason to commit. -/
theorem restart_eq (s : ClockState) (hclock : s.file.go.clock < 2 ^ 64) : ∃ clockSafe nv reported,
    (s.after (.init true)).after (.startup {} true) =
      { started := true, inFailureMode := false, go := ⟨s.file.go.clock, clockSafe⟩, orderly := false, nv, file := nv,
        updateNv := true, time := 0, timer := 0, timerStopped := false, reported, cycle := [], powered := s.powered } := by
  have hinit : s.after (.init true) =
      { started := false, inFailureMode := false, go := s.file.go, orderly := s.file.orderly, nv := s.file,
        file := s.file, updateNv := s.updateNv, time := 0, timer := 0, timerStopped := true, reported := s.file.covers,
        cycle := [], powered := s.powered } := by
    simp [after, init]
  rw [hinit]
  have hwrap : s.file.go.clock % 18446744073709551616 = s.file.go.clock := Nat.mod_eq_of_lt hclock
  cases horderly : s.file.orderly with
  | true =>
      refine ⟨s.file.go.clockSafe, { s.file with orderly := false }, s.file.covers, ?_⟩
      simp [after, execute, startupBody, startup, timeStartup, timeUpdate, timeClockUpdate, elapsed_self, hwrap,
        syncOrderlyState, commit, nvCovers]
  | false =>
      refine ⟨false, { s.file with orderly := false }, s.file.covers, ?_⟩
      simp [after, execute, startupBody, startup, timeStartup, timeUpdate, timeClockUpdate, elapsed_self, hwrap,
        syncOrderlyState, commit, nvCovers]

theorem elapsed_tick {timer time ms : Nat} (h : PqcTpm.elapsed timer time + ms < 2 ^ 64) :
    PqcTpm.elapsed ((timer + ms) % 2 ^ 64) time = PqcTpm.elapsed timer time + ms := by
  unfold PqcTpm.elapsed at *
  omega

/-- What a `TPM2_ReadClock` after `ms` milliseconds gives out; the file stays. -/
theorem tick_readClock (h : s.Sound) (hf : s.inFailureMode = false) (hs : s.started = true) (hstopped : s.timerStopped = false)
    {ms : Nat} (hpowered : s.powered + ms < 2 ^ 48) :
    let s' := (s.after (.tick ms)).after (.command {} .readClock false)
    s'.go.clock = s.go.clock + PqcTpm.elapsed s.timer s.time + ms ∧ s'.cycle = s'.go.clock :: s'.cycle.tail ∧
      s'.file = s.file ∧ s'.powered = s.powered + ms := by
  have hbound := (h.live hf).bounded
  have htick := (h.tick ms).live hf
  have hentered := htick.of_update s.file false s.timerStopped
  have helapsed : PqcTpm.elapsed ((s.timer + ms) % 2 ^ 64) s.time = PqcTpm.elapsed s.timer s.time + ms := by
    apply elapsed_tick
    have hle := hbound.elapsed
    omega
  have hclock := timeUpdate_clock hentered.bounded hpowered
  have hframe := timeUpdate_frame { s.after (.tick ms) with file := s.file, updateNv := false, timerStopped := s.timerStopped }
  dsimp only
  rw [readClock_eq (s := s.after (.tick ms)) hf hs hstopped]
  refine ⟨?_, rfl, hframe.file, hframe.powered⟩
  refine hclock.trans ?_
  change s.go.clock + PqcTpm.elapsed ((s.timer + ms) % 2 ^ 64) s.time = _
  rw [helapsed, Nat.add_assoc]

/-- An interval later the clock is safe whatever it was. -/
theorem clockInfo_after_interval (hf : s.inFailureMode = false) (hs : s.started = true) (hstopped : s.timerStopped = false)
    (htimer : s.timer = 0) (htime : s.time = 0) {later : Nat} (hlater : 4096 ≤ later) (hlt : s.go.clock + later < 2 ^ 64) :
    (s.run [.tick later, .command {} .readClock false]).clockInfo true = ⟨s.go.clock + later, true⟩ := by
  have hcross : s.go.clock ||| clockUpdateMask < s.go.clock + later ||| clockUpdateMask := by
    rw [or_clockUpdateMask, or_clockUpdateMask]
    omega
  have helapsed : elapsed ((s.timer + later) % 2 ^ 64) s.time = later := by
    rw [htimer, htime, elapsed_zero (Nat.mod_lt _ (Nat.two_pow_pos 64)), Nat.zero_add]
    exact Nat.mod_eq_of_lt (by omega)
  change ((s.after (.tick later)).after (.command {} .readClock false)).clockInfo true = _
  rw [readClock_eq (s := s.after (.tick later)) hf hs hstopped]
  have hupdate : (timeUpdate { s.after (.tick later) with updateNv := false }).go = ⟨s.go.clock + later, true⟩ := by
    unfold timeUpdate after
    dsimp only
    rw [hstopped, if_neg Bool.false_ne_true, helapsed, Nat.mod_eq_of_lt hlt, timeClockUpdate]
    dsimp only
    rw [if_pos hcross]
  unfold clockInfo act
  dsimp only
  rw [hupdate]
  rfl

/-- A write of the clock alone is not committed, so there is no bound on what a loss of power takes: whenever the TPM
runs it gives out a value of the clock as far ahead as it is kept powered, and an interval after power has come back it
gives out what was last committed and the time since then, and says that this is safe. -/
theorem safe_after_power_cut (events : List ClockEvent) {ms later : Nat}
    (hpowered : (({} : ClockState).run events).powered + ms + later < 2 ^ 48) (hlater : 4096 ≤ later)
    (hlive : (({} : ClockState).run events).inFailureMode = false) (hstarted : (({} : ClockState).run events).started = true)
    (hstopped : (({} : ClockState).run events).timerStopped = false) :
    (({} : ClockState).run (events ++ [.tick ms, .command {} .readClock false])).cycle.head? =
        some ((({} : ClockState).run events).go.clock +
          elapsed (({} : ClockState).run events).timer (({} : ClockState).run events).time + ms) ∧
      (({} : ClockState).run (events ++ [.tick ms, .command {} .readClock false, .init true, .startup {} true, .tick later,
          .command {} .readClock false])).clockInfo true =
        ⟨(({} : ClockState).run events).file.go.clock + later, true⟩ := by
  have hsound := @Sound.run {} manufactured_sound events (by omega)
  rw [show (({} : ClockState).run (events ++ [.tick ms, .command {} .readClock false])) =
      ((({} : ClockState).run events).after (.tick ms)).after (.command {} .readClock false) from List.foldl_append,
    show (({} : ClockState).run (events ++ [.tick ms, .command {} .readClock false, .init true, .startup {} true,
        .tick later, .command {} .readClock false])) =
      (((((({} : ClockState).run events).after (.tick ms)).after (.command {} .readClock false)).after (.init true)).after
        (.startup {} true)).run [.tick later, .command {} .readClock false] from List.foldl_append]
  generalize ({} : ClockState).run events = s at *
  obtain ⟨hclock, hcycle, hfile, hpower⟩ := @tick_readClock s hsound hlive hstarted hstopped ms (by omega)
  generalize (s.after (.tick ms)).after (.command {} .readClock false) = cut at *
  have hbound := hsound.file.clock
  unfold clockLimit at hbound
  refine ⟨?_, ?_⟩
  · rw [hcycle, List.head?_cons, hclock]
  · obtain ⟨clockSafe, nv, reported, hrestart⟩ := restart_eq cut (by rw [hfile]; omega)
    rw [hrestart, hfile]
    exact clockInfo_after_interval rfl rfl rfl rfl rfl hlater (by dsimp only; omega)

/-- A value of eleven days is followed by a safe one of four seconds. -/
theorem safe_after_eleven_days :
    (({} : ClockState).run
        ([.init true, .startup {} true] ++ [.tick 1000000000, .command {} .readClock false])).cycle.head? =
      some ((({} : ClockState).run [.init true, .startup {} true]).go.clock +
        elapsed (({} : ClockState).run [.init true, .startup {} true]).timer
          (({} : ClockState).run [.init true, .startup {} true]).time + 1000000000) ∧
      (({} : ClockState).run
          ([.init true, .startup {} true] ++ [.tick 1000000000, .command {} .readClock false, .init true, .startup {} true,
            .tick 4096, .command {} .readClock false])).clockInfo true =
        ⟨(({} : ClockState).run [.init true, .startup {} true]).file.go.clock + 4096, true⟩ :=
  safe_after_power_cut _ (by decide) (by decide) (by decide) (by decide) (by decide)

end Invariant

end ClockState

end PqcTpm
