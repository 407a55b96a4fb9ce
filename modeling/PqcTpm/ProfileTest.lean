import PqcTpm.ProfileReplay

/-!
# Testing a profile

`RuntimeProfileTest` sets each list that it is given and then sets the stored list again.
Its verdict is the one of the last list given; what a stored list does not say is lost on
the way. Below stands when neither of the two shows.
-/
namespace PqcTpm
open LevelScan TextFields

namespace RuntimeProfileState

/-- `RuntimeProfileTest` on the attributes: switch to the list, then back. -/
def testAttributes (ra : RuntimeAttributes) (given : Option CString) (level max : Nat)
    (retVal : Option RcCode) : Result RuntimeAttributes RcCode :=
  match given with
  | none => ⟨ra, level, retVal⟩
  | some p =>
    match ra.switchProfile (some p) max with
    | (some e, ra, _) => ⟨ra, level, some e⟩
    | (none, ra, old) => ra.setProfile old level (2 ^ 32 - 1)

def testAlgorithms (ra : RuntimeAlgorithm) (given : Option CString) (level max : Nat)
    (retVal : Option RcCode) : Result RuntimeAlgorithm RcCode :=
  match given with
  | none => ⟨ra, level, retVal⟩
  | some p =>
    match ra.switchProfile (some p) max with
    | (some e, ra, _) => ⟨ra, level, some e⟩
    | (none, ra, old) => ra.setProfile old level (2 ^ 32 - 1)

def testCommands (rc : RuntimeCommands) (given : Option CString) (level max : Nat)
    (retVal : Option Fault) : Result RuntimeCommands Fault :=
  match given with
  | none => ⟨rc, level, retVal⟩
  | some p =>
    match rc.switchProfile (some p) max with
    | (some e, rc, _) => ⟨rc, level, some e⟩
    | (none, rc, old) => rc.setProfile old level (2 ^ 32 - 1)

/-- `maxStateFormatLevel` in `RuntimeProfileTest`. -/
def testMax (q : ProfileParameters) : Nat := if q.stateFormatLevel ≠ 0 then q.stateFormatLevel else 2 ^ 32 - 1

theorem testMax_pos (q : ProfileParameters) : 1 ≤ testMax q := by
  unfold testMax
  split
  · rename_i h
    exact Nat.one_le_iff_ne_zero.mpr h
  · decide

/-- `RuntimeProfileTest`; each of the three parts overwrites the return code of the one before. -/
def test (rp : RuntimeProfileState) (jsonProfile : Option CString) (fromUser : Bool) :
    RuntimeProfileState × Option Fault :=
  match getParametersFromJSON jsonProfile fromUser with
  | .error e => (rp, some (.of e))
  | .ok q =>
    match findByName q fromUser with
    | none => (rp, some (.of .value))
    | some _ =>
      let a := testAttributes rp.runtimeAttributes q.attributesProfile 0 (testMax q) none
      let g := testAlgorithms rp.runtimeAlgorithm q.algorithmsProfile a.level (testMax q) a.error
      let c := testCommands rp.runtimeCommands q.commandsProfile g.level (testMax q) (g.error.map Fault.of)
      ({ rp with runtimeAttributes := a.state, runtimeAlgorithm := g.state, runtimeCommands := c.state }, c.error)

end RuntimeProfileState

/-! ## When a part comes back as it was -/

/-- The attributes are the ones that the stored list gives under a maximum. -/
def RuntimeAttributes.Stands (max : Nat) (ra : RuntimeAttributes) : Prop :=
  match ra.attributesProfile with
  | none => ra = RuntimeAttributes.init
  | some p => RuntimeAttributes.accepts max p ∧ ra = RuntimeAttributes.listed p

theorem RuntimeAttributes.setProfile_stored_iff (x ra : RuntimeAttributes) (level max : Nat) :
    (x.setProfile ra.attributesProfile level max).state = ra ↔ ra.Stands max := by
  unfold Stands
  cases hp : ra.attributesProfile with
  | none => exact eq_comm
  | some p =>
      simp only
      by_cases h : accepts max p
      · rw [setProfile_listed h]
        exact ⟨fun heq => ⟨h, heq.symm⟩, fun hr => hr.2.symm⟩
      · rw [setProfile_refused h]
        refine ⟨fun heq => ?_, fun hr => absurd hr.1 h⟩
        rw [← heq] at hp
        cases hp

theorem RuntimeAttributes.setProfile_stored_ok {x ra : RuntimeAttributes} {level max : Nat}
    (h : ra.Stands max) : (x.setProfile ra.attributesProfile level max).error = none := by
  unfold Stands at h
  cases hp : ra.attributesProfile with
  | none => rfl
  | some p =>
      rw [hp] at h
      exact (setProfile_ok_iff x p level max).mpr h.1

/-- The algorithms, sizes and curves are the ones that the stored list gives on top of given
sizes; without a list everything is enabled, and the shortcuts are given ones. -/
def RuntimeAlgorithm.Stands (max : Nat) (sizes : Nat → Nat) (shortcuts : Nat → Bool) (ra : RuntimeAlgorithm) :
    Prop :=
  match ra.algorithmProfile with
  | none => ra = { RuntimeAlgorithm.zero.setDefault with enabledEccShortcuts := shortcuts }
  | some p => RuntimeAlgorithm.accepts max sizes p ∧ ra = RuntimeAlgorithm.listed max sizes p

theorem RuntimeAlgorithm.setProfile_stored_iff (x ra : RuntimeAlgorithm) (level max : Nat) :
    (x.setProfile ra.algorithmProfile level max).state = ra ↔
      ra.Stands max x.algosMinimumKeySizes x.enabledEccShortcuts := by
  unfold Stands
  cases hp : ra.algorithmProfile with
  | none => exact eq_comm
  | some p =>
      simp only
      by_cases h : accepts max x.algosMinimumKeySizes p
      · rw [setProfile_listed x level h]
        exact ⟨fun heq => ⟨h, heq.symm⟩, fun hr => hr.2.symm⟩
      · rw [setProfile_refused x level h]
        refine ⟨fun heq => ?_, fun hr => absurd hr.1 h⟩
        rw [← heq] at hp
        cases hp

theorem RuntimeAlgorithm.setProfile_stored_ok {x ra : RuntimeAlgorithm} {level max : Nat}
    (h : ra.Stands max x.algosMinimumKeySizes x.enabledEccShortcuts) :
    (x.setProfile ra.algorithmProfile level max).error = none := by
  unfold Stands at h
  cases hp : ra.algorithmProfile with
  | none => rfl
  | some p =>
      rw [hp] at h
      exact (setProfile_ok_iff x p level max).mpr h.1

/-- A stored list of commands does not come back: it is not stored again. -/
theorem RuntimeCommands.setProfile_stored_iff (x rc : RuntimeCommands) (level : Nat) {max : Nat} (hmax : 1 ≤ max)
    (hx : x.commandsProfile = none) :
    (x.setProfile rc.commandsProfile level max).state = rc ↔ rc = allCommands max := by
  cases hp : rc.commandsProfile with
  | none =>
      rw [setProfile_none x level hmax]
      exact eq_comm
  | some p =>
      have hlost : (x.setProfile (some p) level max).state.commandsProfile = none := by
        by_cases h : accepts max p
        · rw [setProfile_listed h]
          exact hx
        · rw [setProfile_refused h]
          rfl
      constructor
      · intro heq
        rw [heq, hp] at hlost
        cases hlost
      · intro heq
        rw [heq] at hp
        cases hp

theorem RuntimeCommands.setProfile_stored_ok {x rc : RuntimeCommands} {level max m : Nat} (hmax : 1 ≤ max)
    (h : rc = allCommands m) : (x.setProfile rc.commandsProfile level max).error = none := by
  rw [h, show (allCommands m).commandsProfile = none from rfl, setProfile_none x level hmax]

theorem RuntimeCommands.switchProfile_refused (rc : RuntimeCommands) {p : CString} {max : Nat} (hmax : 1 ≤ max)
    (h : ¬accepts max p) :
    ∃ (e : RcCode) (x : RuntimeCommands) (level : Nat), x.commandsProfile = none ∧
      rc.switchProfile (some p) max = (some (.of e), (x.setProfile rc.commandsProfile level max).state, none) := by
  obtain ⟨e, he⟩ := setProfile_eq_refuse { rc with commandsProfile := none } 0 h
  refine ⟨e, allCommands (2 ^ 32 - 1), (scanTokens { rc with commandsProfile := none } p 0 max).level, rfl, ?_⟩
  unfold switchProfile
  rw [he]
  exact congrArg (·, _, none) (if_neg (setProfile_returns _ _ _ hmax))

namespace RuntimeProfileState

/-- What the object has to be for a tested list of attributes to leave no trace. -/
def AttributesKept (max : Nat) (ra : RuntimeAttributes) (p : CString) : Prop :=
  (RuntimeAttributes.accepts max p ∧ ra.Stands (2 ^ 32 - 1)) ∨
    (¬RuntimeAttributes.accepts max p ∧ ra.Stands max)

theorem testAttributes_kept_iff {ra : RuntimeAttributes} {p : CString} {level max : Nat} {e : Option RcCode} :
    (testAttributes ra (some p) level max e).state = ra ↔ AttributesKept max ra p := by
  have hok := RuntimeAttributes.setProfile_ok_iff { ra with attributesProfile := none } p 0 max
  unfold testAttributes RuntimeAttributes.switchProfile AttributesKept
  simp only
  cases he : (RuntimeAttributes.setProfile { ra with attributesProfile := none } (some p) 0 max).error with
  | none =>
      simp only [hok.mp he, RuntimeAttributes.setProfile_stored_iff, true_and, not_true, false_and, or_false]
  | some e =>
      have hno : ¬RuntimeAttributes.accepts max p := fun h => Option.some_ne_none e (he.symm.trans (hok.mpr h))
      simp only [hno, RuntimeAttributes.setProfile_stored_iff, false_and, not_false_eq_true, true_and, false_or]

theorem testAttributes_verdict {ra : RuntimeAttributes} {p : CString} {level max : Nat} {e : Option RcCode}
    (h : AttributesKept max ra p) :
    (testAttributes ra (some p) level max e).error = none ↔ RuntimeAttributes.accepts max p := by
  have hok := RuntimeAttributes.setProfile_ok_iff { ra with attributesProfile := none } p 0 max
  unfold testAttributes RuntimeAttributes.switchProfile
  simp only
  cases he : (RuntimeAttributes.setProfile { ra with attributesProfile := none } (some p) 0 max).error with
  | none =>
      have hacc := hok.mp he
      have hst : ra.Stands (2 ^ 32 - 1) := h.elim And.right fun hno => absurd hacc hno.1
      simp only [RuntimeAttributes.setProfile_stored_ok hst, hacc]
  | some e =>
      have hno : ¬RuntimeAttributes.accepts max p := fun h => Option.some_ne_none e (he.symm.trans (hok.mpr h))
      exact ⟨fun h => absurd h (Option.some_ne_none e), fun h => absurd h hno⟩

/-- What the object has to be for a tested list of algorithms to leave no trace. -/
def AlgorithmsKept (max : Nat) (ra : RuntimeAlgorithm) (p : CString) : Prop :=
  (RuntimeAlgorithm.accepts max ra.algosMinimumKeySizes p ∧
    ra.Stands (2 ^ 32 - 1) (RuntimeAlgorithm.sizesAfter ra.algosMinimumKeySizes p)
      fun idx => (RuntimeAlgorithm.requests p).any (·.namesShortcut idx)) ∨
  (¬RuntimeAlgorithm.accepts max ra.algosMinimumKeySizes p ∧
    ra.Stands max RuntimeAlgorithm.initialKeySizes
      fun idx => RuntimeAlgorithm.triedShortcuts max idx (RuntimeAlgorithm.requests p))

theorem testAlgorithms_kept_iff {ra : RuntimeAlgorithm} {p : CString} {level max : Nat} {e : Option RcCode} :
    (testAlgorithms ra (some p) level max e).state = ra ↔ AlgorithmsKept max ra p := by
  have hok := RuntimeAlgorithm.setProfile_ok_iff { ra with algorithmProfile := none } p 0 max
  unfold testAlgorithms RuntimeAlgorithm.switchProfile AlgorithmsKept
  simp only at hok ⊢
  cases he : (RuntimeAlgorithm.setProfile { ra with algorithmProfile := none } (some p) 0 max).error with
  | none =>
      have hacc := hok.mp he
      simp only [hacc, RuntimeAlgorithm.setProfile_stored_iff, true_and, not_true, false_and, or_false]
      rw [RuntimeAlgorithm.setProfile_listed { ra with algorithmProfile := none } 0 hacc]
      rfl
  | some e =>
      have hno : ¬RuntimeAlgorithm.accepts max ra.algosMinimumKeySizes p :=
        fun h => Option.some_ne_none e (he.symm.trans (hok.mpr h))
      simp only [hno, RuntimeAlgorithm.setProfile_stored_iff, false_and, not_false_eq_true, true_and, false_or]
      rw [RuntimeAlgorithm.setProfile_refused { ra with algorithmProfile := none } 0 hno]
      rfl

theorem testAlgorithms_verdict {ra : RuntimeAlgorithm} {p : CString} {level max : Nat} {e : Option RcCode}
    (h : AlgorithmsKept max ra p) :
    (testAlgorithms ra (some p) level max e).error = none ↔
      RuntimeAlgorithm.accepts max ra.algosMinimumKeySizes p := by
  have hok := RuntimeAlgorithm.setProfile_ok_iff { ra with algorithmProfile := none } p 0 max
  unfold testAlgorithms RuntimeAlgorithm.switchProfile
  simp only at hok ⊢
  cases he : (RuntimeAlgorithm.setProfile { ra with algorithmProfile := none } (some p) 0 max).error with
  | none =>
      have hacc := hok.mp he
      have hst := h.elim And.right fun hno => absurd hacc hno.1
      have hstored : (RuntimeAlgorithm.setProfile (RuntimeAlgorithm.setProfile { ra with algorithmProfile := none }
          (some p) 0 max).state ra.algorithmProfile level (2 ^ 32 - 1)).error = none := by
        rw [RuntimeAlgorithm.setProfile_listed { ra with algorithmProfile := none } 0 hacc]
        exact RuntimeAlgorithm.setProfile_stored_ok hst
      simp only [hstored, hacc]
  | some e =>
      have hno : ¬RuntimeAlgorithm.accepts max ra.algosMinimumKeySizes p :=
        fun h => Option.some_ne_none e (he.symm.trans (hok.mpr h))
      exact ⟨fun h => absurd h (Option.some_ne_none e), fun h => absurd h hno⟩

/-- What the object has to be for a tested list of commands to leave no trace: no list is stored,
and the commands are those that are enabled without one. -/
def CommandsKept (max : Nat) (rc : RuntimeCommands) (p : CString) : Prop :=
  (RuntimeCommands.accepts max p ∧ rc = RuntimeCommands.allCommands (2 ^ 32 - 1)) ∨
    (¬RuntimeCommands.accepts max p ∧ rc = RuntimeCommands.allCommands max)

theorem testCommands_kept_iff {rc : RuntimeCommands} {p : CString} {level max : Nat} {e : Option Fault}
    (hmax : 1 ≤ max) : (testCommands rc (some p) level max e).state = rc ↔ CommandsKept max rc p := by
  unfold testCommands CommandsKept
  by_cases hacc : RuntimeCommands.accepts max p
  · have he := (RuntimeCommands.setProfile_ok_iff { rc with commandsProfile := none } p 0 max).mpr hacc
    have hx := RuntimeCommands.setProfile_profile he
    simp only [RuntimeCommands.switchProfile, he, hacc, true_and, not_true, false_and, or_false]
    exact RuntimeCommands.setProfile_stored_iff _ rc _ (by decide) hx
  · obtain ⟨e, x, l, hx, hswitch⟩ := rc.switchProfile_refused hmax hacc
    simp only [hswitch, hacc, false_and, not_false_eq_true, true_and, false_or]
    exact RuntimeCommands.setProfile_stored_iff x rc l hmax hx

theorem testCommands_verdict {rc : RuntimeCommands} {p : CString} {level max : Nat} {e : Option Fault} (hmax : 1 ≤ max)
    (h : CommandsKept max rc p) :
    (testCommands rc (some p) level max e).error = none ↔ RuntimeCommands.accepts max p := by
  unfold testCommands
  by_cases hacc : RuntimeCommands.accepts max p
  · have he := (RuntimeCommands.setProfile_ok_iff { rc with commandsProfile := none } p 0 max).mpr hacc
    have hst := h.elim And.right fun hno => absurd hacc hno.1
    simp only [RuntimeCommands.switchProfile, he, hacc, iff_true]
    exact RuntimeCommands.setProfile_stored_ok (by decide) hst
  · obtain ⟨e, x, l, -, hswitch⟩ := rc.switchProfile_refused hmax hacc
    simp only [hswitch, hacc, iff_false]
    exact Option.some_ne_none _

end RuntimeProfileState

/-! ## The level under its maximum -/

theorem RuntimeAttributes.setProfile_le_max {ra : RuntimeAttributes} {given : Option CString} {level max : Nat}
    (h : (ra.setProfile given level max).error = none) (hl : level ≤ max) :
    (ra.setProfile given level max).level ≤ max := by
  cases given with
  | none => exact hl
  | some p =>
      cases p with
      | nil => exact hl
      | cons c p =>
          simp only [setProfile] at h ⊢
          cases hs : (scan (tokenStep max) ((c :: p).splitOn ',') init level).error with
          | some e => rw [hs] at h; exact absurd h (Option.some_ne_none e)
          | none =>
              refine scan_invariant (P := fun (_ : RuntimeAttributes) l => l ≤ max) (fun t _ s l hle ht => ?_) hl hs
              obtain ⟨e, he, hem⟩ := tokenStep_ok_iff.mp ht
              simp only [tokenStep, he, if_neg (Nat.not_lt_of_le hem)]
              exact Nat.max_le.mpr ⟨hle, hem⟩

theorem RuntimeAttributes.setProfile_given_iff (ra : RuntimeAttributes) (given : Option CString) (level max : Nat) :
    (ra.setProfile given level max).error = none ↔ ∀ p, given = some p → accepts max p := by
  cases given with
  | none => exact ⟨fun _ p hp => (nomatch hp), fun _ => rfl⟩
  | some p =>
      rw [setProfile_ok_iff]
      exact ⟨fun h q hq => Option.some.inj hq ▸ h, fun h => h p rfl⟩

theorem RuntimeCommands.setProfile_le_max {rc : RuntimeCommands} {p : CString} {level max : Nat}
    (h : (rc.setProfile (some p) level max).error = none) (hl : level ≤ max) :
    (rc.setProfile (some p) level max).level ≤ max := by
  obtain ⟨hs, _, heq⟩ := setProfile_some_ok h
  rw [heq]
  refine scan_invariant (P := fun (_ : RuntimeCommands) l => l ≤ max) (fun t _ s l hle ht => ?_) hl hs
  unfold tokenStep at ht ⊢
  split at ht
  · exact absurd ht (Option.some_ne_none _)
  · split at ht
    · rename_i hin
      rw [if_pos hin]
      refine scan_invariant (P := fun (_ : RuntimeCommands) l => l ≤ max) (fun code _ s l hle hc => ?_) hle ht
      obtain ⟨c, hfind, hcm⟩ := commandStep_ok_iff.mp hc
      simp only [commandStep, hfind, if_neg (Nat.not_lt_of_le hcm)]
      exact Nat.max_le.mpr ⟨hle, hcm⟩
    · exact absurd ht (Option.some_ne_none _)

/-- The level that a request asks for without comparing it with the maximum. -/
def AlgorithmRequest.unchecked : AlgorithmRequest → Nat
  | .minKeySize _ need _ => need
  | _ => 0

namespace AlgorithmRequest

theorem curves_le_max {one : Bool} {found : EccAlgorithmProperty → Bool} {max : Nat} {ra : RuntimeAlgorithm}
    {level : Nat} (h : (curves one found max ra level).error = none) (hl : level ≤ max) :
    (curves one found max ra level).level ≤ max := by
  obtain ⟨hs, _, heq⟩ := curves_ok h
  rw [heq]
  refine scan_invariant (P := fun (_ : RuntimeAlgorithm) l => l ≤ max) (fun c _ s l hle _ => ?_) hl hs
  unfold curveStep
  split
  · split
    · exact hle
    · rename_i hc
      exact Nat.max_le.mpr ⟨hle, Nat.le_of_not_lt hc⟩
  · exact hle

/-- A request that is carried out stays under the maximum when what it asks for unchecked does. -/
theorem perform_le_max {r : AlgorithmRequest} {max : Nat} {ra : RuntimeAlgorithm} {level : Nat}
    (h : (r.perform max ra level).error = none) (hl : level ≤ max) (hr : r.unchecked ≤ max) :
    (r.perform max ra level).level ≤ max := by
  cases r with
  | algorithm e =>
      simp only [perform] at h ⊢
      split at h
      · exact absurd h (Option.some_ne_none _)
      · rename_i he
        rw [if_neg he]
        exact Nat.max_le.mpr ⟨hl, Nat.le_of_not_lt he⟩
  | minKeySize algId need arg =>
      simp only [perform] at h ⊢
      split at h
      · exact absurd h (Option.some_ne_none _)
      · rename_i harg
        rw [if_neg harg]
        exact Nat.max_le.mpr ⟨hl, hr⟩
  | minSize algId arg =>
      simp only [perform] at h ⊢
      split at h
      · exact absurd h (Option.some_ne_none _)
      · rename_i harg
        rw [if_neg harg]
        exact sizesLevel_le_max hl
  | eccShortcut idx start => exact curves_le_max h hl
  | ecc name => exact curves_le_max h hl

theorem perform_reaches {r : AlgorithmRequest} {max : Nat} {ra : RuntimeAlgorithm} {level : Nat}
    (h : (r.perform max ra level).error = none) : r.unchecked ≤ (r.perform max ra level).level := by
  cases r with
  | minKeySize algId need arg =>
      simp only [perform] at h ⊢
      split at h
      · exact absurd h (Option.some_ne_none _)
      · rename_i harg
        rw [if_neg harg]
        exact Nat.le_max_right _ _
  | _ => exact Nat.zero_le _

end AlgorithmRequest

theorem RuntimeAlgorithm.setProfile_le_max_iff {ra : RuntimeAlgorithm} {p : CString} {level max : Nat}
    (h : (ra.setProfile (some p) level max).error = none) (hl : level ≤ max) :
    (ra.setProfile (some p) level max).level ≤ max ↔ ∀ r ∈ requests p, r.unchecked ≤ max := by
  obtain ⟨hs, r, _, heq⟩ := setProfile_some_ok h
  rw [heq]
  constructor
  · intro hle r hr
    obtain ⟨token, ht, rfl⟩ := List.mem_map.mp hr
    refine Nat.le_trans ?_ hle
    refine (scan_reaches (fun token => (algorithmRequest token).unchecked) ?_ hs).2 token ht
    exact fun t s l ht => ⟨(AlgorithmRequest.perform_settles (algorithmRequest t) ht).1,
      AlgorithmRequest.perform_reaches ht⟩
  · intro hall
    refine scan_invariant (P := fun (_ : RuntimeAlgorithm) l => l ≤ max) (fun t ht s l hle hok => ?_) hl hs
    exact AlgorithmRequest.perform_le_max hok hle (hall _ (List.mem_map_of_mem ht))

namespace RuntimeProfileState

/-- Every list given is one that its part accepts under the maximum. -/
def ListsAccepted (rp : RuntimeProfileState) (q : ProfileParameters) (max : Nat) : Prop :=
  (∀ p, q.attributesProfile = some p → RuntimeAttributes.accepts max p) ∧
  (∀ p, q.algorithmsProfile = some p →
    RuntimeAlgorithm.accepts max rp.runtimeAlgorithm.algosMinimumKeySizes p ∧
      ∀ r ∈ RuntimeAlgorithm.requests p, r.unchecked ≤ max) ∧
  ∀ p, q.commandsProfile = some p → RuntimeCommands.accepts max p

/-- The three parts are carried out, and end under the maximum, when every list is accepted. -/
theorem setRuntimeProfile_ok_iff {rp : RuntimeProfileState} {q : ProfileParameters} {algs cmds : CString}
    {level max : Nat} (halgs : q.algorithmsProfile = some algs) (hcmds : q.commandsProfile = some cmds)
    (hl : level ≤ max) :
    ((rp.setRuntimeProfile q.algorithmsProfile q.commandsProfile q.attributesProfile level max).error = none ∧
      (rp.setRuntimeProfile q.algorithmsProfile q.commandsProfile q.attributesProfile level max).level ≤ max) ↔
      rp.ListsAccepted q max := by
  unfold ListsAccepted
  simp only [halgs, hcmds, Option.some.injEq, forall_eq']
  have hatt := RuntimeAttributes.setProfile_given_iff rp.runtimeAttributes q.attributesProfile level max
  constructor
  · rintro ⟨hok, hle⟩
    obtain ⟨a, g, c, rfl, ha, rfl, hg, rfl, hc, heq⟩ := setRuntimeProfile_ok hok
    have hal := RuntimeAttributes.setProfile_le_max ha hl
    have hga := (RuntimeAlgorithm.setProfile_ok_iff _ algs _ max).mp hg
    have hca := (RuntimeCommands.setProfile_ok_iff _ cmds _ max).mp hc
    rw [heq] at hle
    have hgl := Nat.le_trans (RuntimeCommands.setProfile_settles cmds hc).1 hle
    exact ⟨hatt.mp ha, ⟨hga, (RuntimeAlgorithm.setProfile_le_max_iff hg hal).mp hgl⟩, hca⟩
  · rintro ⟨ha, ⟨hg, hneed⟩, hc⟩
    have ha := hatt.mpr ha
    have hal := RuntimeAttributes.setProfile_le_max ha hl
    have hg := (RuntimeAlgorithm.setProfile_ok_iff rp.runtimeAlgorithm algs
      (rp.runtimeAttributes.setProfile q.attributesProfile level max).level max).mpr hg
    have hgl := (RuntimeAlgorithm.setProfile_le_max_iff hg hal).mpr hneed
    have hc := (RuntimeCommands.setProfile_ok_iff rp.runtimeCommands cmds
      (rp.runtimeAlgorithm.setProfile (some algs)
        (rp.runtimeAttributes.setProfile q.attributesProfile level max).level max).level max).mpr hc
    have hcl := RuntimeCommands.setProfile_le_max hc hgl
    simp only [setRuntimeProfile, ha, hg, hc]
    exact ⟨trivial, hcl⟩

theorem runtimeProfileDescs_lists : ∀ d ∈ runtimeProfileDescs, d.allowModifications = false →
    (RuntimeAlgorithm.zero.setProfile (some d.algorithmsProfile) 0 d.stateFormatLevel).error = none ∧
      RuntimeAlgorithm.sizeNamed TpmAlg.aes (d.algorithmsProfile.splitOn ',') = some 128 ∧
      (∀ r ∈ RuntimeAlgorithm.requests d.algorithmsProfile, r.unchecked ≤ d.stateFormatLevel) ∧
      (RuntimeCommands.init.setProfile (some d.commandsProfile) 0 d.stateFormatLevel).error = none := by
  decide +kernel

theorem builtIn_accepted (rp : RuntimeProfileState) {d : RuntimeProfileDesc} (hd : d ∈ runtimeProfileDescs)
    (hfixed : d.allowModifications = false) {q : ProfileParameters} (hq : q.customizes = false) :
    rp.ListsAccepted (withDefaults d q) d.stateFormatLevel := by
  obtain ⟨halgs, haes, hneed, hcmds⟩ := runtimeProfileDescs_lists d hd hfixed
  obtain ⟨hnone, _⟩ := runtimeProfileDescs_clean d hd
  obtain ⟨hadm, hreq, hcurves, _⟩ := (RuntimeAlgorithm.setProfile_ok_iff _ _ _ _).mp halgs
  simp only [ProfileParameters.customizes, Bool.or_eq_false_iff, decide_eq_false_iff_not, Option.isSome_eq_false_iff,
    Option.isNone_iff_eq_none] at hq
  obtain ⟨⟨⟨⟨_, hqc⟩, hqa⟩, hqt⟩, _⟩ := hq
  unfold ListsAccepted
  simp only [withDefaults, hqc, hqa, hqt, hnone, Option.none_or, ite_self, Option.some.injEq, forall_eq']
  refine ⟨fun p hp => absurd hp.symm (Option.some_ne_none p), ⟨⟨hadm, hreq, hcurves, fun hsizes => ?_⟩, hneed⟩,
    (RuntimeCommands.setProfile_ok_iff _ _ _ _).mp hcmds⟩
  have haes' : RuntimeAlgorithm.sizesAfter rp.runtimeAlgorithm.algosMinimumKeySizes d.algorithmsProfile TpmAlg.aes =
      128 := by rw [RuntimeAlgorithm.sizesAfter, haes, Option.getD_some]
  rw [haes'] at hsizes
  exact absurd hsizes.1 (Nat.lt_irrefl 128)

theorem withDefaults_some (d : RuntimeProfileDesc) (q : ProfileParameters) :
    ∃ algs cmds, (withDefaults d q).algorithmsProfile = some algs ∧ (withDefaults d q).commandsProfile = some cmds := by
  refine ⟨q.algorithmsProfile.getD d.algorithmsProfile, q.commandsProfile.getD d.commandsProfile, ?_, ?_⟩
  · cases h : q.algorithmsProfile <;> simp only [withDefaults, h] <;> rfl
  · cases h : q.commandsProfile <;> simp only [withDefaults, h] <;> rfl

/-- When a profile that was found can be set. -/
theorem set_ok_iff (rp : RuntimeProfileState) {json : Option CString} {fromUser : Bool} {q : ProfileParameters}
    {d : RuntimeProfileDesc} {start max : Nat} (hq : getParametersFromJSON json fromUser = .ok q)
    (hd : findByName q fromUser = some d) (hl : formatLevels d fromUser q.stateFormatLevel = some (start, max))
    (hle : start ≤ max) : (rp.set json fromUser).2 = none ↔ rp.ListsAccepted (withDefaults d q) max := by
  obtain ⟨algs, cmds, halgs, hcmds⟩ := withDefaults_some d q
  rw [← setRuntimeProfile_ok_iff halgs hcmds hle]
  simp only [RuntimeProfileState.set, hq, hd, hl]
  cases he : (rp.setRuntimeProfile (withDefaults d q).algorithmsProfile (withDefaults d q).commandsProfile
      (withDefaults d q).attributesProfile start max).error with
  | some e => exact ⟨fun h => absurd h (Option.some_ne_none _), fun h => absurd h.1 (Option.some_ne_none e)⟩
  | none =>
      simp only
      split
      · rename_i hlt
        exact ⟨fun h => absurd h (Option.some_ne_none _), fun h => absurd h.2 (Nat.not_le_of_lt hlt)⟩
      · rename_i hlt
        exact ⟨fun _ => ⟨trivial, Nat.le_of_not_lt hlt⟩, fun _ => rfl⟩

/-- `RuntimeProfileSet` takes the parameters of a custom profile. -/
def Acceptable (rp : RuntimeProfileState) (d : RuntimeProfileDesc) (q : ProfileParameters) : Prop :=
  q.stateFormatLevel ≠ 1 ∧ rp.ListsAccepted (withDefaults d q) (testMax q)

theorem set_custom_iff (rp : RuntimeProfileState) {json : Option CString} {q : ProfileParameters}
    {d : RuntimeProfileDesc} (hq : getParametersFromJSON json true = .ok q)
    (hd : findByName q true = some d) (hallow : d.allowModifications = true) :
    (rp.set json true).2 = none ↔ rp.Acceptable d q := by
  unfold Acceptable
  by_cases hzero : q.stateFormatLevel = 0
  · have hl : formatLevels d true q.stateFormatLevel = some (0, 2 ^ 32 - 1) := by
      simp only [formatLevels, hallow, hzero, Bool.true_or, Bool.not_true, Bool.false_eq_true, if_true, if_false]
    rw [set_ok_iff rp hq hd hl (Nat.zero_le _)]
    simp only [testMax, hzero, ne_eq, not_true, if_false, zero_ne_one, not_false_eq_true, true_and]
  · have hmax : testMax q = q.stateFormatLevel := by rw [testMax, if_pos hzero]
    rw [hmax]
    by_cases hone : q.stateFormatLevel = 1
    · have hl : formatLevels d true q.stateFormatLevel = none := by
        simp only [formatLevels, hallow, hone, Bool.true_or, Bool.not_true, Bool.false_eq_true, if_true, if_false,
          one_ne_zero, Nat.one_lt_two]
      simp only [RuntimeProfileState.set, hq, hd, hl]
      exact ⟨fun h => absurd h (Option.some_ne_none _), fun h => absurd hone h.1⟩
    · have hl : formatLevels d true q.stateFormatLevel = some (q.stateFormatLevel, q.stateFormatLevel) := by
        have hlt : ¬q.stateFormatLevel < 2 := by omega
        simp only [formatLevels, hallow, hzero, hlt, Bool.true_or, Bool.not_true, Bool.false_eq_true, if_true, if_false]
      rw [set_ok_iff rp hq hd hl (Nat.le_refl _)]
      simp only [hone, ne_eq, not_false_eq_true, true_and]

/-! ## When the test is faithful -/

/-- The last list given, which is the one that the verdict is about, is accepted. -/
def LastAccepted (rp : RuntimeProfileState) (q : ProfileParameters) : Prop :=
  match q.commandsProfile, q.algorithmsProfile, q.attributesProfile with
  | some p, _, _ => RuntimeCommands.accepts (testMax q) p
  | none, some p, _ => RuntimeAlgorithm.accepts (testMax q) rp.runtimeAlgorithm.algosMinimumKeySizes p
  | none, none, some p => RuntimeAttributes.accepts (testMax q) p
  | none, none, none => True

/-- Every part that is tested comes back as it was. -/
def Restored (rp : RuntimeProfileState) (q : ProfileParameters) : Prop :=
  (∀ p, q.attributesProfile = some p → AttributesKept (testMax q) rp.runtimeAttributes p) ∧
  (∀ p, q.algorithmsProfile = some p → AlgorithmsKept (testMax q) rp.runtimeAlgorithm p) ∧
  ∀ p, q.commandsProfile = some p → CommandsKept (testMax q) rp.runtimeCommands p

theorem Acceptable.last {rp : RuntimeProfileState} {d : RuntimeProfileDesc} {q : ProfileParameters}
    (h : rp.Acceptable d q) (hd : d ∈ runtimeProfileDescs) : rp.LastAccepted q := by
  obtain ⟨_, hatt, halg, hcmd⟩ := h
  obtain ⟨hnone, _⟩ := runtimeProfileDescs_clean d hd
  unfold LastAccepted
  cases hc : q.commandsProfile with
  | some p => exact hcmd p (by simp only [withDefaults, hc, Option.some_or])
  | none =>
      cases hg : q.algorithmsProfile with
      | some p => exact (halg p (by simp only [withDefaults, hg, Option.some_or])).1
      | none =>
          cases ha : q.attributesProfile with
          | some p => exact hatt p (by simp only [withDefaults, ha, hnone, Option.some_or, ite_self])
          | none => trivial

theorem test_found {rp : RuntimeProfileState} {json : Option CString} {q : ProfileParameters}
    {d : RuntimeProfileDesc} (hq : getParametersFromJSON json true = .ok q) (hd : findByName q true = some d) :
    (rp.test json true).1 = rp ↔ rp.Restored q := by
  have hatt : ∀ e, (testAttributes rp.runtimeAttributes q.attributesProfile 0 (testMax q) e).state =
      rp.runtimeAttributes ↔ ∀ p, q.attributesProfile = some p → AttributesKept (testMax q) rp.runtimeAttributes p := by
    intro e
    cases q.attributesProfile with
    | none => exact ⟨fun _ p hp => (nomatch hp), fun _ => rfl⟩
    | some p => simp only [Option.some.injEq, forall_eq', testAttributes_kept_iff]
  have halg : ∀ level e, (testAlgorithms rp.runtimeAlgorithm q.algorithmsProfile level (testMax q) e).state =
      rp.runtimeAlgorithm ↔ ∀ p, q.algorithmsProfile = some p → AlgorithmsKept (testMax q) rp.runtimeAlgorithm p := by
    intro level e
    cases q.algorithmsProfile with
    | none => exact ⟨fun _ p hp => (nomatch hp), fun _ => rfl⟩
    | some p => simp only [Option.some.injEq, forall_eq', testAlgorithms_kept_iff]
  have hcmd : ∀ level e, (testCommands rp.runtimeCommands q.commandsProfile level (testMax q) e).state =
      rp.runtimeCommands ↔ ∀ p, q.commandsProfile = some p → CommandsKept (testMax q) rp.runtimeCommands p := by
    intro level e
    cases q.commandsProfile with
    | none => exact ⟨fun _ p hp => (nomatch hp), fun _ => rfl⟩
    | some p => simp only [Option.some.injEq, forall_eq', testCommands_kept_iff (testMax_pos q)]
  unfold Restored
  simp only [test, hq, hd]
  constructor
  · intro h
    exact ⟨(hatt _).mp (congrArg runtimeAttributes h), (halg _ _).mp (congrArg runtimeAlgorithm h),
      (hcmd _ _).mp (congrArg runtimeCommands h)⟩
  · rintro ⟨ha, hg, hc⟩
    rw [(hatt _).mpr ha, (halg _ _).mpr hg, (hcmd _ _).mpr hc]

theorem test_verdict {rp : RuntimeProfileState} {json : Option CString} {q : ProfileParameters}
    {d : RuntimeProfileDesc} (hq : getParametersFromJSON json true = .ok q) (hd : findByName q true = some d)
    (hkept : rp.Restored q) : (rp.test json true).2 = none ↔ rp.LastAccepted q := by
  obtain ⟨hatt, halg, hcmd⟩ := hkept
  unfold LastAccepted
  simp only [test, hq, hd]
  cases hc : q.commandsProfile with
  | some p => exact testCommands_verdict (testMax_pos q) (hcmd p hc)
  | none =>
      simp only [testCommands, Option.map_eq_none_iff]
      cases hg : q.algorithmsProfile with
      | some p => exact testAlgorithms_verdict (halg p hg)
      | none =>
          cases ha : q.attributesProfile with
          | some p => exact testAttributes_verdict (hatt p ha)
          | none => exact ⟨fun _ => trivial, fun _ => rfl⟩

theorem fixed_parameters {q : ProfileParameters} {d : RuntimeProfileDesc} (hd : findByName q true = some d)
    (hfixed : d.allowModifications = false) : q.customizes = false := by
  unfold findByName at hd
  split at hd
  · cases hd
  · split at hd
    · cases hd
    · rename_i hno
      obtain rfl := Option.some.inj hd
      simpa only [hfixed, Bool.not_false, Bool.true_and, Bool.not_eq_true] using hno

theorem fixed_faithful (rp : RuntimeProfileState) {json : Option CString} {q : ProfileParameters}
    {d : RuntimeProfileDesc} (hq : getParametersFromJSON json true = .ok q) (hd : findByName q true = some d)
    (hfixed : d.allowModifications = false) :
    (rp.test json true).2 = none ∧ (rp.set json true).2 = none ∧ (rp.test json true).1 = rp := by
  have hcust := fixed_parameters hd hfixed
  have hl : formatLevels d true q.stateFormatLevel = some (d.stateFormatLevel, d.stateFormatLevel) := by
    simp only [formatLevels, hfixed, Bool.true_or, Bool.not_false, if_true]
  have hset := (set_ok_iff rp hq hd hl (Nat.le_refl _)).mpr
    (builtIn_accepted rp (findByName_mem hd).1 hfixed hcust)
  simp only [ProfileParameters.customizes, Bool.or_eq_false_iff, decide_eq_false_iff_not, Option.isSome_eq_false_iff,
    Option.isNone_iff_eq_none] at hcust
  obtain ⟨⟨⟨⟨_, hqc⟩, hqa⟩, hqt⟩, _⟩ := hcust
  have hkept : rp.Restored q := by
    unfold Restored
    simp only [hqc, hqa, hqt]
    exact ⟨fun p hp => absurd hp.symm (Option.some_ne_none p), fun p hp => absurd hp.symm (Option.some_ne_none p),
      fun p hp => absurd hp.symm (Option.some_ne_none p)⟩
  refine ⟨(test_verdict hq hd hkept).mpr ?_, hset, (test_found hq hd).mpr hkept⟩
  simp only [LastAccepted, hqc, hqa, hqt]

end RuntimeProfileState

/-! ## What a setter owes to the lists before -/

/-- The algorithms after a list owe the sizes that it does not name to what was set before. -/
theorem RuntimeAlgorithm.setProfile_state_iff (ra ra' : RuntimeAlgorithm) (p : CString) (level max : Nat) :
    (ra.setProfile (some p) level max).state = (ra'.setProfile (some p) level max).state ↔
      (∀ algId, sizeNamed algId (p.splitOn ',') = none →
        ra.algosMinimumKeySizes algId = ra'.algosMinimumKeySizes algId) ∨
      (¬accepts max ra.algosMinimumKeySizes p ∧ ¬accepts max ra'.algosMinimumKeySizes p) := by
  have hverdict : (∀ algId, sizeNamed algId (p.splitOn ',') = none →
      ra.algosMinimumKeySizes algId = ra'.algosMinimumKeySizes algId) →
      (accepts max ra.algosMinimumKeySizes p ↔ accepts max ra'.algosMinimumKeySizes p) := by
    intro hsizes
    rw [← setProfile_ok_iff ra p level max, ← setProfile_ok_iff ra' p level max, setProfile_congr hsizes]
  have hlost : ∀ x : RuntimeAlgorithm, ∀ sizes shortcuts,
      listed max sizes p ≠ { x.setDefault with enabledEccShortcuts := shortcuts } := by
    intro x sizes shortcuts h
    exact Option.some_ne_none p (congrArg algorithmProfile h)
  by_cases h : accepts max ra.algosMinimumKeySizes p
  · by_cases h' : accepts max ra'.algosMinimumKeySizes p
    · refine ⟨fun heq => .inl fun algId hn => ?_, fun hor => ?_⟩
      · rw [setProfile_listed ra level h, setProfile_listed ra' level h'] at heq
        have hsize : sizesAfter ra.algosMinimumKeySizes p algId = sizesAfter ra'.algosMinimumKeySizes p algId :=
          congrFun (congrArg algosMinimumKeySizes heq) algId
        simpa only [sizesAfter, hn, Option.getD_none] using hsize
      · exact congrArg Result.state (setProfile_congr (hor.resolve_right fun hno => hno.1 h))
    · rw [setProfile_listed ra level h, setProfile_refused ra' level h']
      exact ⟨fun heq => absurd heq (hlost _ _ _), fun hor =>
        hor.elim (fun hsizes => absurd ((hverdict hsizes).mp h) h') fun hno => absurd h hno.1⟩
  · by_cases h' : accepts max ra'.algosMinimumKeySizes p
    · rw [setProfile_refused ra level h, setProfile_listed ra' level h']
      exact ⟨fun heq => absurd heq.symm (hlost _ _ _), fun hor =>
        hor.elim (fun hsizes => absurd ((hverdict hsizes).mpr h') h) fun hno => absurd h' hno.2⟩
    · rw [setProfile_refused ra level h, setProfile_refused ra' level h']
      exact ⟨fun _ => .inr ⟨h, h'⟩, fun _ => rfl⟩

theorem RuntimeAlgorithm.setProfile_none_iff (ra ra' : RuntimeAlgorithm) (level max : Nat) :
    (ra.setProfile none level max).state = (ra'.setProfile none level max).state ↔
      ra.enabledEccShortcuts = ra'.enabledEccShortcuts := by
  constructor
  · intro h
    have hsame : (ra.setProfile none level max).state.enabledEccShortcuts =
        (ra'.setProfile none level max).state.enabledEccShortcuts := by rw [h]
    exact hsame
  · intro h
    simp only [setProfile, setDefault, init, h]

theorem RuntimeCommands.setProfile_state_iff (rc rc' : RuntimeCommands) (p : CString) (level max : Nat) :
    (rc.setProfile (some p) level max).state = (rc'.setProfile (some p) level max).state ↔
      rc.commandsProfile = rc'.commandsProfile ∨ ¬accepts max p := by
  by_cases h : accepts max p
  · rw [setProfile_listed h, setProfile_listed h]
    constructor
    · intro heq
      exact .inl (RuntimeCommands.mk.inj heq).2
    · intro hor
      rw [hor.resolve_right (not_not.mpr h)]
  · rw [setProfile_refused h, setProfile_refused h]
    exact ⟨fun _ => .inr h, fun _ => rfl⟩

namespace RuntimeProfileState

/-- The test gives the verdict of `RuntimeProfileSet` and leaves the object as it was exactly when
every part that is tested comes back and the last list given is not accepted alone; the setters
owe the sizes that are not named, the shortcuts and the stored string to earlier profiles. -/
theorem test_faithful_iff (rp : RuntimeProfileState) (json : Option CString) (at₁ at₂ : RuntimeAttributes)
    (ra₁ ra₂ : RuntimeAlgorithm) (rc₁ rc₂ : RuntimeCommands) (p : CString) (given : Option CString)
    (level max : Nat) :
    ((((rp.test json true).2 = none ↔ (rp.set json true).2 = none) ∧ (rp.test json true).1 = rp) ↔
      ∀ q d, getParametersFromJSON json true = .ok q → findByName q true = some d →
        d.allowModifications = true → rp.Restored q ∧ (rp.Acceptable d q ∨ ¬rp.LastAccepted q)) ∧
    (at₁.setProfile given level max).state = (at₂.setProfile given level max).state ∧
    ((ra₁.setProfile (some p) level max).state = (ra₂.setProfile (some p) level max).state ↔
      (∀ algId, RuntimeAlgorithm.sizeNamed algId (p.splitOn ',') = none →
        ra₁.algosMinimumKeySizes algId = ra₂.algosMinimumKeySizes algId) ∨
      (¬RuntimeAlgorithm.accepts max ra₁.algosMinimumKeySizes p ∧
        ¬RuntimeAlgorithm.accepts max ra₂.algosMinimumKeySizes p)) ∧
    ((ra₁.setProfile none level max).state = (ra₂.setProfile none level max).state ↔
      ra₁.enabledEccShortcuts = ra₂.enabledEccShortcuts) ∧
    ((rc₁.setProfile (some p) level max).state = (rc₂.setProfile (some p) level max).state ↔
      rc₁.commandsProfile = rc₂.commandsProfile ∨ ¬RuntimeCommands.accepts max p) ∧
    (rc₁.setProfile none level max).state = (rc₂.setProfile none level max).state := by
  refine ⟨?_, congrArg Result.state (at₁.setProfile_eq at₂ given level max),
    ra₁.setProfile_state_iff ra₂ p level max, ra₁.setProfile_none_iff ra₂ level max,
    rc₁.setProfile_state_iff rc₂ p level max, rfl⟩
  cases hq : getParametersFromJSON json true with
  | error e =>
      simp only [test, RuntimeProfileState.set, hq]
      exact ⟨fun _ q d h => (nomatch h), fun _ => ⟨trivial, trivial⟩⟩
  | ok q =>
      cases hd : findByName q true with
      | none =>
          simp only [test, RuntimeProfileState.set, hq, hd]
          refine ⟨fun _ q' d h hd' => ?_, fun _ => ⟨trivial, trivial⟩⟩
          rw [← Except.ok.inj h, hd] at hd'
          cases hd'
      | some d =>
          cases hallow : d.allowModifications with
          | false =>
              obtain ⟨htest, hset, hsame⟩ := fixed_faithful rp hq hd hallow
              refine ⟨fun _ q' d' h hd' hallow' => ?_, fun _ => ⟨iff_of_true htest hset, hsame⟩⟩
              rw [← Except.ok.inj h, hd] at hd'
              rw [← Option.some.inj hd', hallow] at hallow'
              cases hallow'
          | true =>
              have hset := set_custom_iff rp hq hd hallow
              constructor
              · rintro ⟨hverdict, hsame⟩ q' d' h hd' _
                obtain rfl := Except.ok.inj h
                obtain rfl := Option.some.inj (hd.symm.trans hd')
                have hkept := (test_found hq hd).mp hsame
                rw [test_verdict hq hd hkept, hset] at hverdict
                exact ⟨hkept, (em (rp.LastAccepted q)).imp_left hverdict.mp⟩
              · intro h
                obtain ⟨hkept, hor⟩ := h q d rfl hd hallow
                refine ⟨?_, (test_found hq hd).mpr hkept⟩
                rw [test_verdict hq hd hkept, hset]
                exact ⟨fun hacc => hor.resolve_right (not_not.mpr hacc), fun hacc => hacc.last (findByName_mem hd).1⟩

/-- A custom profile without lists: there is nothing to test, and the commands it takes by default
need more than level 2. -/
def levelTwoProfile : CString := "\x7b\"Name\":\"custom\",\"StateFormatLevel\":2\x7d".toList

/-- The test lets a profile pass that cannot be set. -/
theorem test_passes_what_set_refuses :
    ¬((zero.init.test (some levelTwoProfile) true).2 = none ↔
      (zero.init.set (some levelTwoProfile) true).2 = none) := by
  have htest : (zero.init.test (some levelTwoProfile) true).2 = none := by decide +kernel
  have hset : (zero.init.set (some levelTwoProfile) true).2 = some (.of .value) := by decide +kernel
  rw [hset]
  exact fun h => Option.some_ne_none _ (h.mp htest)

end RuntimeProfileState

end PqcTpm
