import Mathlib.Algebra.Group.Nat.Defs
import PqcTpm.Lib.Transition

/-!
# The platform's timer

`_plat__TimerRead` of `Clock.c` with the adjustment of its rate. The real time is the argument of a read; the
history says how often the timer has been read since the reset.
-/
namespace PqcTpm

/-- `CLOCK_NOMINAL`. -/
def clockNominal : Nat := 30000

/-- `TPM_CLOCK_ADJUST`. -/
inductive ClockAdjust
  | coarseSlower | mediumSlower | fineSlower | noChange | fineFaster | mediumFaster | coarseFaster
  deriving DecidableEq, Repr

/-- The divisor of `_plat__ClockRateAdjust` before it is limited. -/
def ClockAdjust.adjusted (rate : Nat) : ClockAdjust → Nat
  | .coarseSlower => rate + 300
  | .mediumSlower => rate + 30
  | .fineSlower => rate + 1
  | .noChange => rate
  | .fineFaster => rate - 1
  | .mediumFaster => rate - 30
  | .coarseFaster => rate - 300

/-- The statics of `Clock.c`, as `_plat__TimerReset` leaves them; it keeps two of them, which the first read sets. -/
structure PlatformTimer where
  lastSystemTime : Nat := 0
  lastReportedTime : Nat := 0
  realTimePrevious : Nat := 0
  tpmTime : Nat := 0
  adjustRate : Nat := clockNominal
  deriving DecidableEq, Repr

namespace PlatformTimer

/-- `_plat__TimerReset`. -/
def reset (t : PlatformTimer) : PlatformTimer :=
  { t with lastSystemTime := 0, tpmTime := 0, adjustRate := clockNominal }

/-- `_plat__ClockRateAdjust`. -/
def clockRateAdjust (t : PlatformTimer) (adjust : ClockAdjust) : PlatformTimer :=
  let rate := adjust.adjusted t.adjustRate
  let rate := if clockNominal + 5000 < rate then clockNominal + 5000 else rate
  { t with adjustRate := if rate < clockNominal - 5000 then clockNominal - 5000 else rate }

/-- The real time since the first read, as far as it has been going forward. -/
def report (t : PlatformTimer) (timeNow : Nat) : PlatformTimer :=
  let t :=
    if t.lastSystemTime = 0 then
      { t with lastSystemTime := timeNow, lastReportedTime := 0, realTimePrevious := 0 }
    else t
  let t := if timeNow < t.lastReportedTime then { t with lastSystemTime := timeNow } else t
  { t with
    lastReportedTime := (t.lastReportedTime + timeNow + 2 ^ 64 - t.lastSystemTime) % 2 ^ 64
    lastSystemTime := timeNow }

/-- `_plat__TimerRead`; its result is `tpmTime` afterwards. -/
def timerRead (t : PlatformTimer) (timeNow : Nat) : PlatformTimer :=
  let t := t.report timeNow
  if t.lastReportedTime ≤ t.realTimePrevious then t
  else
    let timeDiff := t.lastReportedTime - t.realTimePrevious
    let adjustedTimeDiff := timeDiff * clockNominal % 2 ^ 64 / t.adjustRate
    let readjustedTimeDiff := adjustedTimeDiff * t.adjustRate % 2 ^ 64 / clockNominal
    { t with
      tpmTime := (t.tpmTime + adjustedTimeDiff) % 2 ^ 64
      realTimePrevious := (t.realTimePrevious + readjustedTimeDiff) % 2 ^ 64 }

/-! ## What a read does -/

section Rounding
variable {d r : Nat}

theorem readjusted_le (d r : Nat) : d * clockNominal / r * r / clockNominal ≤ d := by
  have hmul : d * clockNominal / r * r ≤ d * clockNominal := Nat.div_mul_le_self _ _
  have hdiv := Nat.div_le_div_right (c := clockNominal) hmul
  rwa [Nat.mul_div_cancel d (by decide : 0 < clockNominal)] at hdiv

theorem le_readjusted_add (hr : 0 < r) (hslow : r ≤ 35000) : d ≤ d * clockNominal / r * r / clockNominal + 2 := by
  have hmod := Nat.div_add_mod (d * clockNominal) r
  have hlt := Nat.mod_lt (d * clockNominal) hr
  rw [Nat.mul_comm r] at hmod
  generalize d * clockNominal / r * r = used at hmod ⊢
  generalize d * clockNominal % r = rest at hmod hlt
  rw [show clockNominal = 30000 from rfl] at hmod ⊢
  omega

theorem readjusted_mul_le (a : Nat) : clockNominal * (a * r / clockNominal) ≤ a * r := Nat.mul_div_le _ _

theorem mul_lt_readjusted (a : Nat) : a * r < clockNominal * (a * r / clockNominal + 1) :=
  Nat.lt_mul_div_succ _ (by decide)

end Rounding

theorem clockRateAdjust_bounds (t : PlatformTimer) (adjust : ClockAdjust) :
    25000 ≤ (t.clockRateAdjust adjust).adjustRate ∧ (t.clockRateAdjust adjust).adjustRate ≤ 35000 := by
  unfold clockRateAdjust
  dsimp only
  generalize adjust.adjusted t.adjustRate = rate
  rw [show clockNominal = 30000 from rfl]
  split <;> split <;> omega

/-! ## Runs -/

inductive TimerEvent
  | read (timeNow : Nat)
  | adjust (adjust : ClockAdjust)
  deriving DecidableEq, Repr

def after (t : PlatformTimer) : TimerEvent → PlatformTimer
  | .read timeNow => t.timerRead timeNow
  | .adjust adjust => t.clockRateAdjust adjust

def run (t : PlatformTimer) (events : List TimerEvent) : PlatformTimer := events.foldl after t

theorem run_append (t : PlatformTimer) (events more : List TimerEvent) :
    t.run (events ++ more) = (t.run events).run more := List.foldl_append

/-- The real time does not go back, as `CLOCK_MONOTONIC` does not. -/
def Forward (last : Nat) : List TimerEvent → Prop
  | [] => True
  | .read timeNow :: events => last ≤ timeNow ∧ timeNow < 2 ^ 48 ∧ Forward timeNow events
  | .adjust _ :: events => Forward last events

/-- The real time of the last read. -/
def lastRead (last : Nat) : List TimerEvent → Nat
  | [] => last
  | .read timeNow :: events => lastRead timeNow events
  | .adjust _ :: events => lastRead last events

def reads : List TimerEvent → Nat
  | [] => 0
  | .read _ :: events => reads events + 1
  | .adjust _ :: events => reads events

/-- At no time is the rate outside these bounds. -/
def RateWithin (lo hi : Nat) (t : PlatformTimer) : List TimerEvent → Prop
  | [] => True
  | event :: events => (lo ≤ t.adjustRate ∧ t.adjustRate ≤ hi) ∧ RateWithin lo hi (t.after event) events

/-- The timer after `n` reads that advance it, the first of all reads at `first` and the last at `last`. -/
structure Accurate (lo hi first last n : Nat) (t : PlatformTimer) : Prop where
  order : 0 < first ∧ first ≤ last ∧ last < 2 ^ 48
  lastSystemTime : t.lastSystemTime = last
  lastReportedTime : t.lastReportedTime = last - first
  taken_le : t.realTimePrevious ≤ last - first
  le_taken : last - first ≤ t.realTimePrevious + 2
  slow : clockNominal * t.realTimePrevious ≤ hi * t.tpmTime
  fast : lo * t.tpmTime ≤ clockNominal * (t.realTimePrevious + n)

namespace Accurate
variable {lo hi first last n : Nat} {t : PlatformTimer}

theorem report_eq (h : Accurate lo hi first last n t) {timeNow : Nat} (hle : last ≤ timeNow) (hlt : timeNow < 2 ^ 48) :
    t.report timeNow = { t with lastReportedTime := timeNow - first, lastSystemTime := timeNow } := by
  obtain ⟨hpos, hfirst, -⟩ := h.order
  have hsystem := h.lastSystemTime
  have hreported := h.lastReportedTime
  unfold report
  rw [if_neg (by omega)]
  dsimp only
  rw [if_neg (by omega)]
  have hword : (t.lastReportedTime + timeNow + 2 ^ 64 - t.lastSystemTime) % 2 ^ 64 = timeNow - first := by
    rw [hsystem, hreported]
    omega
  rw [hword]

/-- A read keeps the bounds; only a read that finds something to take counts. -/
theorem read (h : Accurate lo hi first last n t) (hlo : 25000 ≤ lo) (hhi : hi ≤ 35000)
    (hrate : lo ≤ t.adjustRate ∧ t.adjustRate ≤ hi) (hn : n < 2 ^ 48) {timeNow : Nat} (hle : last ≤ timeNow)
    (hlt : timeNow < 2 ^ 48) : Accurate lo hi first timeNow (n + 1) (t.timerRead timeNow) := by
  obtain ⟨hpos, hfirst, -⟩ := h.order
  have htaken := h.taken_le
  have hback := h.le_taken
  have hslow := h.slow
  have hfast := h.fast
  unfold timerRead
  rw [h.report_eq hle hlt]
  dsimp only
  by_cases hnone : timeNow - first ≤ t.realTimePrevious
  · rw [if_pos hnone]
    refine ⟨⟨hpos, by omega, hlt⟩, rfl, rfl, ?_, ?_, hslow, ?_⟩
    · dsimp only
      omega
    · dsimp only
      omega
    · dsimp only
      rw [show clockNominal = 30000 from rfl] at hfast ⊢
      omega
  · rw [if_neg hnone]
    obtain ⟨hrlo, hrhi⟩ := hrate
    generalize hd : timeNow - first - t.realTimePrevious = d
    generalize ha : d * clockNominal / t.adjustRate = a
    have hproduct : a * t.adjustRate ≤ d * clockNominal := ha ▸ Nat.div_mul_le_self _ _
    have htime : 25000 * t.tpmTime ≤ clockNominal * (t.realTimePrevious + n) :=
      Nat.le_trans (Nat.mul_le_mul_right _ hlo) hfast
    have hadded : a * 25000 ≤ d * clockNominal :=
      Nat.le_trans (Nat.mul_le_mul_left a (Nat.le_trans hlo hrlo)) hproduct
    have hc := readjusted_le d t.adjustRate
    have hc' := le_readjusted_add (d := d) (r := t.adjustRate) (by omega) (Nat.le_trans hrhi hhi)
    have hslow' := readjusted_mul_le (r := t.adjustRate) a
    have hfast' := mul_lt_readjusted (r := t.adjustRate) a
    rw [ha] at hc hc'
    generalize hcdef : a * t.adjustRate / clockNominal = c at hc hc' hslow' hfast'
    -- no sum overflows
    rw [show clockNominal = 30000 from rfl] at *
    have hfits : d * 30000 % 2 ^ 64 = d * 30000 := Nat.mod_eq_of_lt (by omega)
    have hfits' : a * t.adjustRate % 2 ^ 64 = a * t.adjustRate := Nat.mod_eq_of_lt (by omega)
    rw [hfits, ha, hfits', hcdef, Nat.mod_eq_of_lt (by omega : t.tpmTime + a < 2 ^ 64),
      Nat.mod_eq_of_lt (by omega : t.realTimePrevious + c < 2 ^ 64)]
    have hlo' : a * lo ≤ a * t.adjustRate := Nat.mul_le_mul_left a hrlo
    have hhi' : a * t.adjustRate ≤ a * hi := Nat.mul_le_mul_left a hrhi
    refine ⟨⟨hpos, by omega, hlt⟩, rfl, rfl, ?_, ?_, ?_, ?_⟩
    · dsimp only
      omega
    · dsimp only
      omega
    · dsimp only
      rw [Nat.mul_add hi, Nat.mul_comm hi a, show clockNominal = 30000 from rfl]
      omega
    · dsimp only
      rw [Nat.mul_add lo, Nat.mul_comm lo a, show clockNominal = 30000 from rfl]
      omega

theorem adjust (h : Accurate lo hi first last n t) (adjust : ClockAdjust) :
    Accurate lo hi first last n (t.clockRateAdjust adjust) :=
  ⟨h.order, h.lastSystemTime, h.lastReportedTime, h.taken_le, h.le_taken, h.slow, h.fast⟩

theorem run (h : Accurate lo hi first last n t) (hlo : 25000 ≤ lo) (hhi : hi ≤ 35000) {events : List TimerEvent}
    (hrate : RateWithin lo hi t events) (hforward : Forward last events) (hn : n + reads events ≤ 2 ^ 48) :
    Accurate lo hi first (lastRead last events) (n + reads events) (t.run events) := by
  induction events generalizing t last n with
  | nil => exact h
  | cons event events ih =>
      obtain ⟨hnow, hlater⟩ := hrate
      cases event with
      | read timeNow =>
          obtain ⟨hle, hlt, hforward⟩ := hforward
          rw [reads] at hn
          have hstep := h.read hlo hhi hnow (by omega) hle hlt
          have hrest := ih hstep hlater hforward (by omega)
          rwa [Nat.add_assoc, Nat.add_comm 1] at hrest
      | adjust adjust => exact ih (h.adjust adjust) hlater hforward hn

end Accurate

theorem reset_read (t : PlatformTimer) {first : Nat} (hfirst : 0 < first) (hlt : first < 2 ^ 48) (lo hi : Nat) :
    Accurate lo hi first first 0 (t.reset.timerRead first) := by
  have hread : t.reset.timerRead first = { t.reset with lastSystemTime := first, lastReportedTime := 0, realTimePrevious := 0 } := by
    unfold timerRead report reset
    dsimp only
    rw [if_pos rfl]
    dsimp only
    rw [if_neg (Nat.not_lt_zero first), show (0 + first + 2 ^ 64 - first) % 2 ^ 64 = 0 by omega]
    exact if_pos (Nat.le_refl 0)
  rw [hread]
  refine ⟨⟨hfirst, Nat.le_refl first, hlt⟩, rfl, (Nat.sub_self first).symm, Nat.zero_le _, ?_, Nat.zero_le _, ?_⟩
  · rw [Nat.sub_self]
    exact Nat.zero_le _
  · exact Nat.le_of_eq (Nat.mul_zero lo)

/-- After a reset the timer keeps to the real time within what the rate allows, two milliseconds and a millisecond
for each read. The rate is between the bounds that `_plat__ClockRateAdjust` has, or any that are closer. -/
theorem timer_accuracy (t : PlatformTimer) {lo hi first : Nat} {events : List TimerEvent} (hlo : 25000 ≤ lo)
    (hhi : hi ≤ 35000) (hfirst : 0 < first ∧ first < 2 ^ 48) (hforward : Forward first events)
    (hrate : RateWithin lo hi (t.reset.timerRead first) events) (hreads : reads events ≤ 2 ^ 48) :
    lo * ((t.reset.timerRead first).run events).tpmTime ≤
        clockNominal * (lastRead first events - first + reads events) ∧
      clockNominal * (lastRead first events - first) ≤
        hi * ((t.reset.timerRead first).run events).tpmTime + 2 * clockNominal := by
  have haccurate := (reset_read t hfirst.1 hfirst.2 lo hi).run hlo hhi hrate hforward (by omega)
  rw [Nat.zero_add] at haccurate
  have htaken := haccurate.taken_le
  have hback := haccurate.le_taken
  have hslow := haccurate.slow
  have hfast := haccurate.fast
  rw [show clockNominal = 30000 from rfl] at *
  omega

theorem report_adjustRate (t : PlatformTimer) (timeNow : Nat) : (t.report timeNow).adjustRate = t.adjustRate := by
  rw [report]
  dsimp only
  split <;> split <;> rfl

theorem timerRead_adjustRate (t : PlatformTimer) (timeNow : Nat) : (t.timerRead timeNow).adjustRate = t.adjustRate := by
  rw [timerRead]
  dsimp only
  by_cases hnone : (t.report timeNow).lastReportedTime ≤ (t.report timeNow).realTimePrevious
  · rw [if_pos hnone, report_adjustRate]
  · rw [if_neg hnone, report_adjustRate]

theorem rateWithin_limits {lo hi : Nat} (hlo : lo ≤ 25000) (hhi : 35000 ≤ hi) {t : PlatformTimer}
    (h : lo ≤ t.adjustRate ∧ t.adjustRate ≤ hi) (events : List TimerEvent) : RateWithin lo hi t events := by
  induction events generalizing t with
  | nil => trivial
  | cons event events ih =>
      refine ⟨h, ih ?_⟩
      cases event with
      | read timeNow =>
          rw [after, timerRead_adjustRate]
          exact h
      | adjust adjust =>
          obtain ⟨hslow, hfast⟩ := t.clockRateAdjust_bounds adjust
          exact ⟨Nat.le_trans hlo hslow, Nat.le_trans hfast hhi⟩

theorem run_adjustRate {t : PlatformTimer} (h : 25000 ≤ t.adjustRate ∧ t.adjustRate ≤ 35000) (events : List TimerEvent) :
    25000 ≤ (t.run events).adjustRate ∧ (t.run events).adjustRate ≤ 35000 := by
  induction events generalizing t with
  | nil => exact h
  | cons event events ih =>
      apply ih
      cases event with
      | read timeNow =>
          rw [after, timerRead_adjustRate]
          exact h
      | adjust adjust => exact t.clockRateAdjust_bounds adjust

/-- Two reads with a slower rate between them. -/
theorem timer_accuracy_slower :
    25000 * ((({} : PlatformTimer).reset.timerRead 1).run [.read 5000, .adjust .coarseSlower, .read 9000]).tpmTime ≤
        clockNominal * (9000 - 1 + 2) ∧
      clockNominal * (9000 - 1) ≤
        35000 * ((({} : PlatformTimer).reset.timerRead 1).run [.read 5000, .adjust .coarseSlower, .read 9000]).tpmTime +
          2 * clockNominal :=
  timer_accuracy {} (by decide) (by decide) (by decide)
    ⟨by decide, by decide, by decide, by decide, trivial⟩
    (rateWithin_limits (by decide) (by decide) (by decide) _) (by decide)

/-! ## Reads that advance the timer -/

/-- A millisecond that is pending at a rate faster than nominal is taken by no read, and every read advances the timer. -/
theorem read_pending {t : PlatformTimer} {first last n : Nat} (h : Accurate 25000 35000 first last n t)
    (hrate : 25000 ≤ t.adjustRate ∧ t.adjustRate < clockNominal) (hpending : last - first = t.realTimePrevious + 1)
    (hroom : t.tpmTime + 1 < 2 ^ 64) : t.timerRead last = { t with tpmTime := t.tpmTime + 1 } := by
  obtain ⟨hpos, hle, hlt⟩ := h.order
  unfold timerRead
  rw [h.report_eq (Nat.le_refl last) hlt]
  dsimp only
  rw [if_neg (by omega), show last - first - t.realTimePrevious = 1 by omega, Nat.one_mul,
    Nat.mod_eq_of_lt (by decide : clockNominal < 2 ^ 64)]
  obtain ⟨hfast, hnominal⟩ := hrate
  rw [show clockNominal = 30000 from rfl] at *
  have hone : 30000 / t.adjustRate = 1 := Nat.div_eq_of_lt_le (by omega) (by omega)
  rw [hone, Nat.one_mul, Nat.mod_eq_of_lt (by omega : t.adjustRate < 2 ^ 64), Nat.div_eq_of_lt hnominal,
    Nat.mod_eq_of_lt hroom, Nat.mod_eq_of_lt (by omega : t.realTimePrevious + 0 < 2 ^ 64), ← h.lastReportedTime]
  have hsystem := h.lastSystemTime
  subst hsystem
  rfl

theorem reads_advance {t : PlatformTimer} {first last n : Nat} (h : Accurate 25000 35000 first last n t)
    (hrate : 25000 ≤ t.adjustRate ∧ t.adjustRate < clockNominal) (hpending : last - first = t.realTimePrevious + 1)
    {k : Nat} (hroom : n + k ≤ 2 ^ 48) : t.run (List.replicate k (.read last)) = { t with tpmTime := t.tpmTime + k } := by
  induction k generalizing t n with
  | zero => rfl
  | succ k ih =>
      obtain ⟨-, -, hlt⟩ := h.order
      have hfast := h.fast
      have hbound := h.taken_le
      have hnominal : t.adjustRate ≤ 35000 := Nat.le_trans (Nat.le_of_lt hrate.2) (by decide)
      have hread := h.read (Nat.le_refl _) (Nat.le_refl _) ⟨hrate.1, hnominal⟩ (by omega) (Nat.le_refl last) hlt
      have hstep := read_pending h hrate hpending (by rw [show clockNominal = 30000 from rfl] at hfast; omega)
      rw [hstep] at hread
      have hrest := ih hread hrate hpending (by omega)
      rw [List.replicate_succ, run, List.foldl_cons, after, hstep]
      change run _ _ = _
      rw [hrest, Nat.add_assoc, Nat.add_comm 1]

/-- At a rate faster than nominal the timer is not bound to the real time: once a read has left a millisecond pending,
`k` more reads at the same real time advance the timer by `k`. -/
theorem timer_drift (t : PlatformTimer) {first : Nat} {events : List TimerEvent} (hfirst : 0 < first ∧ first < 2 ^ 48)
    (hforward : Forward first events)
    (hrate : ((t.reset.timerRead first).run events).adjustRate < clockNominal)
    (hpending : ((t.reset.timerRead first).run events).lastReportedTime =
      ((t.reset.timerRead first).run events).realTimePrevious + 1) {k : Nat} (hreads : reads events + k ≤ 2 ^ 48) :
    ((t.reset.timerRead first).run (events ++ List.replicate k (.read (lastRead first events)))).tpmTime =
      ((t.reset.timerRead first).run events).tpmTime + k := by
  have hreset := reset_read t hfirst.1 hfirst.2 25000 35000
  have hnominal : 25000 ≤ (t.reset.timerRead first).adjustRate ∧ (t.reset.timerRead first).adjustRate ≤ 35000 := by
    rw [timerRead_adjustRate]
    exact show 25000 ≤ clockNominal ∧ clockNominal ≤ 35000 by decide
  have hwithin := rateWithin_limits (Nat.le_refl _) (Nat.le_refl _) hnominal events
  have haccurate := hreset.run (Nat.le_refl _) (Nat.le_refl _) hwithin hforward (by omega)
  rw [Nat.zero_add] at haccurate
  have hslow := run_adjustRate hnominal events
  rw [haccurate.lastReportedTime] at hpending
  have hadvance := reads_advance haccurate ⟨hslow.1, hrate⟩ hpending hreads
  rw [run_append, hadvance]

/-- One real millisecond, after the rate has been made faster by the least step. -/
theorem timer_drift_fine :
    ((({} : PlatformTimer).reset.timerRead 1).run
      ([.adjust .fineFaster, .read 2] ++ List.replicate 1000 (.read 2))).tpmTime = 1 + 1000 := by
  exact @timer_drift {} 1 [.adjust .fineFaster, .read 2] (by decide) ⟨by decide, by decide, trivial⟩ (by decide) (by decide)
    1000 (by decide)

end PlatformTimer

end PqcTpm
