import PqcTpm.CommandTable
import PqcTpm.RuntimeAlgorithm

/-!
# Command profiles

`RuntimeCommands.c`: the commands that a profile enables, read from a list of codes and
ranges of codes.
-/
namespace PqcTpm
open LevelScan TextFields

/-- A row of `s_CommandProperties` with a name; the index of the row gives the code. -/
structure CommandProperty where
  code : Nat
  canBeDisabled : Bool
  stateFormatLevel : Nat
  deriving DecidableEq, Repr

def commandProperties : List CommandProperty :=
  [⟨0x11f, true, 1⟩, ⟨0x120, false, 1⟩, ⟨0x121, true, 1⟩, ⟨0x122, true, 1⟩, ⟨0x124, true, 1⟩,
   ⟨0x125, true, 1⟩, ⟨0x126, true, 1⟩, ⟨0x127, true, 1⟩, ⟨0x128, true, 1⟩, ⟨0x129, false, 1⟩,
   ⟨0x12a, true, 1⟩, ⟨0x12b, false, 1⟩, ⟨0x12c, true, 1⟩, ⟨0x12d, true, 1⟩, ⟨0x12e, true, 1⟩,
   ⟨0x130, true, 1⟩, ⟨0x131, false, 1⟩, ⟨0x132, true, 1⟩, ⟨0x133, true, 1⟩, ⟨0x134, true, 1⟩,
   ⟨0x135, true, 1⟩, ⟨0x136, true, 1⟩, ⟨0x137, true, 1⟩, ⟨0x138, true, 1⟩, ⟨0x139, true, 1⟩,
   ⟨0x13a, true, 1⟩, ⟨0x13b, true, 1⟩, ⟨0x13c, false, 1⟩, ⟨0x13d, true, 1⟩, ⟨0x13e, true, 1⟩,
   ⟨0x13f, true, 1⟩, ⟨0x140, true, 1⟩, ⟨0x142, true, 1⟩, ⟨0x143, false, 1⟩, ⟨0x144, false, 1⟩,
   ⟨0x145, false, 1⟩, ⟨0x146, true, 1⟩, ⟨0x147, true, 1⟩, ⟨0x148, false, 1⟩, ⟨0x149, true, 1⟩,
   ⟨0x14a, true, 1⟩, ⟨0x14b, true, 1⟩, ⟨0x14c, true, 1⟩, ⟨0x14d, true, 1⟩, ⟨0x14e, false, 1⟩,
   ⟨0x14f, true, 1⟩, ⟨0x150, true, 1⟩, ⟨0x151, true, 1⟩, ⟨0x152, true, 1⟩, ⟨0x153, false, 1⟩,
   ⟨0x154, true, 1⟩, ⟨0x155, true, 1⟩, ⟨0x156, false, 1⟩, ⟨0x157, false, 1⟩, ⟨0x158, false, 1⟩,
   ⟨0x159, true, 1⟩, ⟨0x15b, true, 1⟩, ⟨0x15c, false, 1⟩, ⟨0x15d, true, 1⟩, ⟨0x15e, true, 1⟩,
   ⟨0x160, true, 1⟩, ⟨0x161, true, 1⟩, ⟨0x162, true, 1⟩, ⟨0x163, true, 1⟩, ⟨0x164, true, 1⟩,
   ⟨0x165, false, 1⟩, ⟨0x167, true, 1⟩, ⟨0x168, true, 1⟩, ⟨0x169, false, 1⟩, ⟨0x16a, true, 1⟩,
   ⟨0x16b, true, 1⟩, ⟨0x16c, true, 1⟩, ⟨0x16d, true, 1⟩, ⟨0x16e, true, 1⟩, ⟨0x16f, true, 1⟩,
   ⟨0x170, true, 1⟩, ⟨0x171, true, 1⟩, ⟨0x172, true, 1⟩, ⟨0x173, false, 1⟩, ⟨0x174, true, 1⟩,
   ⟨0x176, false, 1⟩, ⟨0x177, true, 1⟩, ⟨0x178, true, 1⟩, ⟨0x17a, false, 1⟩, ⟨0x17b, true, 1⟩,
   ⟨0x17c, false, 1⟩, ⟨0x17d, false, 1⟩, ⟨0x17e, false, 1⟩, ⟨0x17f, true, 1⟩, ⟨0x180, true, 1⟩,
   ⟨0x181, true, 1⟩, ⟨0x182, false, 1⟩, ⟨0x183, true, 1⟩, ⟨0x184, true, 1⟩, ⟨0x185, false, 1⟩,
   ⟨0x186, false, 1⟩, ⟨0x187, true, 1⟩, ⟨0x188, true, 1⟩, ⟨0x189, true, 1⟩, ⟨0x18a, true, 1⟩,
   ⟨0x18b, true, 1⟩, ⟨0x18c, true, 1⟩, ⟨0x18d, true, 1⟩, ⟨0x18e, true, 1⟩, ⟨0x18f, true, 1⟩,
   ⟨0x190, true, 1⟩, ⟨0x191, true, 1⟩, ⟨0x192, true, 1⟩, ⟨0x193, true, 1⟩, ⟨0x197, true, 1⟩,
   ⟨0x199, true, 3⟩, ⟨0x19a, true, 3⟩, ⟨0x19b, true, 5⟩, ⟨0x19c, true, 5⟩, ⟨0x1a3, true, 1⟩,
   ⟨0x1a4, true, 1⟩, ⟨0x1a5, true, 1⟩, ⟨0x1a6, true, 1⟩, ⟨0x1a7, true, 1⟩, ⟨0x1a8, true, 1⟩,
   ⟨0x1a9, true, 1⟩, ⟨0x1aa, true, 1⟩]

theorem commandProperties_codes :
    commandProperties.map CommandProperty.code = commandTable.map CommandRow.code := by decide +kernel

/-- `struct RuntimeCommands`. -/
@[ext]
structure RuntimeCommands where
  enabledCommands : Nat → Bool
  commandsProfile : Option CString

namespace RuntimeCommands

/-- `RuntimeCommandsInit`. -/
def init : RuntimeCommands where
  enabledCommands _ := false
  commandsProfile := none

/-- The object with the commands that `RuntimeCommandsEnableAllCommands` enables, and no list. -/
def allCommands (max : Nat) : RuntimeCommands where
  enabledCommands code := commandProperties.any fun c => c.code == code && decide (c.stateFormatLevel ≤ max)
  commandsProfile := none

/-- `RuntimeCommandsSetDefault`; `failureMode` is the assertion of `RuntimeCommandsEnableAllCommands` on the maximum. -/
def setDefault (level max : Nat) : Result RuntimeCommands Fault :=
  if 1 ≤ max then ⟨allCommands max, level, none⟩ else ⟨init, level, some .failureMode⟩

/-- The end of `RuntimeCommandsSetProfile` on a list that is not accepted. -/
def refuse (level : Nat) (e : RcCode) : Result RuntimeCommands Fault :=
  { setDefault level (2 ^ 32 - 1) with error := some (.of e) }

def setCommand (rc : RuntimeCommands) (code : Nat) : RuntimeCommands :=
  { rc with enabledCommands := Function.update rc.enabledCommands code true }

/-- `parseRange` on a token. -/
def parseRange (token : CString) : Option (Nat × Nat) :=
  let lo := strtoul token 0
  if lo.erange ∨ lo.value > 2 ^ 32 - 1 then none
  else match lo.endptr with
    | [] => some (lo.value, lo.value)
    | '-' :: rest =>
      let hi := strtoul rest 0
      if hi.erange ∨ hi.value > 2 ^ 32 - 1 then none
      else if hi.endptr = [] then some (lo.value, hi.value) else none
    | _ :: _ => none

/-- `CcToIdx` is below the size of the table: from `TPM_CC_FIRST` to `TPM_CC_LAST`. -/
def inTable (code : Nat) : Bool := decide (0x11f ≤ code ∧ code ≤ 0x1aa)

/-- A command of a range. -/
def commandStep (max code : Nat) (rc : RuntimeCommands) (level : Nat) : Result RuntimeCommands RcCode :=
  match commandProperties.find? (·.code == code) with
  | none => ⟨rc, level, some .value⟩
  | some c =>
    if c.stateFormatLevel > max then ⟨rc, level, some .value⟩
    else ⟨rc.setCommand code, Nat.max level c.stateFormatLevel, none⟩

/-- The codes of a range; none when the bounds are the wrong way round. -/
def rangeCodes (lo hi : Nat) : List Nat := List.range' lo (hi + 1 - lo)

/-- One turn of the loop in `RuntimeCommandsSetProfile`. -/
def tokenStep (max : Nat) (token : CString) (rc : RuntimeCommands) (level : Nat) :
    Result RuntimeCommands RcCode :=
  match parseRange token with
  | none => ⟨rc, level, some .value⟩
  | some (lo, hi) =>
    if inTable lo && inTable hi then scan (commandStep max) (rangeCodes lo hi) rc level
    else ⟨rc, level, some .value⟩

/-- Every command that cannot be disabled is enabled. -/
def reconciled (rc : RuntimeCommands) : Bool :=
  commandProperties.all fun c => c.canBeDisabled || rc.enabledCommands c.code

/-- The list of tokens carried out on a cleared bit map. -/
def scanTokens (rc : RuntimeCommands) (newProfile : CString) (level max : Nat) :
    Result RuntimeCommands RcCode :=
  scan (tokenStep max) (newProfile.splitOn ',') { rc with enabledCommands := fun _ => false } level

/-- `RuntimeCommandsSetProfile`. It leaves `commandsProfile` as it is on a list that it accepts. -/
def setProfile (rc : RuntimeCommands) (newProfile : Option CString) (level max : Nat) :
    Result RuntimeCommands Fault :=
  match newProfile with
  | none => setDefault level max
  | some p =>
    let r := rc.scanTokens p level max
    match r.error with
    | some e => refuse r.level e
    | none => if r.state.reconciled then ⟨r.state, r.level, none⟩ else refuse r.level .value

/-- `RuntimeCommandsSwitchProfile`. -/
def switchProfile (rc : RuntimeCommands) (newProfile : Option CString) (max : Nat) :
    Option Fault × RuntimeCommands × Option CString :=
  let r := { rc with commandsProfile := none }.setProfile newProfile 0 max
  match r.error with
  | none => (none, r.state, rc.commandsProfile)
  | some .failureMode => (some .failureMode, r.state, none)
  | some e =>
    let old := r.state.setProfile rc.commandsProfile r.level max
    (if old.error = some .failureMode then old.error else some e, old.state, none)

/-- `RuntimeCommandsCheckEnabled`. -/
def checkEnabled (rc : RuntimeCommands) (code : Nat) : Bool := inTable code && rc.enabledCommands code

/-- `RuntimeCommandsCountEnabled`. -/
def countEnabled (rc : RuntimeCommands) : Nat :=
  ((List.range' 0x11f (0x1b0 - 0x11f)).filter rc.enabledCommands).length

/-! ## Under a smaller maximum -/

theorem commandStep_settles (code : Nat) : Settles fun max rc level => commandStep max code rc level := by
  intro max rc level h
  unfold commandStep at h ⊢
  cases hf : commandProperties.find? (·.code == code) with
  | none => rw [hf] at h; exact absurd h (Option.some_ne_none _)
  | some c =>
      simp only [hf] at h ⊢
      split at h
      · exact absurd h (Option.some_ne_none _)
      · rename_i hc
        rw [if_neg hc]
        refine ⟨Nat.le_max_left _ _, fun m k hl _ hk => ?_⟩
        have hcm : c.stateFormatLevel ≤ m := Nat.le_trans (Nat.le_max_right _ _) hl
        rw [if_neg (Nat.not_lt_of_le hcm)]
        exact ⟨rfl, rfl, Nat.le_max_left _ _, Nat.max_le.mpr ⟨hk, hcm⟩⟩

theorem tokenStep_settles (token : CString) :
    Settles fun max rc level => tokenStep max token rc level := by
  intro max rc level h
  unfold tokenStep at h ⊢
  cases hp : parseRange token with
  | none => rw [hp] at h; exact absurd h (Option.some_ne_none _)
  | some r =>
      simp only [hp] at h ⊢
      split at h
      · rename_i hin
        simp only [if_pos hin]
        exact Settles.scan (f := commandStep) (fun code _ => commandStep_settles code) h
      · exact absurd h (Option.some_ne_none _)

theorem setProfile_some_ok {rc : RuntimeCommands} {p : CString} {level max : Nat}
    (h : (rc.setProfile (some p) level max).error = none) :
    (rc.scanTokens p level max).error = none ∧ (rc.scanTokens p level max).state.reconciled = true ∧
      rc.setProfile (some p) level max =
        ⟨(rc.scanTokens p level max).state, (rc.scanTokens p level max).level, none⟩ := by
  unfold setProfile at h ⊢
  simp only at h ⊢
  split at h
  · exact absurd h (Option.some_ne_none _)
  · rename_i he
    split at h
    · rename_i hr
      rw [if_pos hr]
      exact ⟨he, hr, rfl⟩
    · exact absurd h (Option.some_ne_none _)

theorem scanTokens_settles (p : CString) :
    Settles fun max rc level => scanTokens rc p level max := by
  intro max rc level h
  exact Settles.scan (f := tokenStep) (fun token _ => tokenStep_settles token) h

theorem setProfile_settles (p : CString) :
    Settles fun max rc level => setProfile rc (some p) level max := by
  intro max rc level h
  simp only at h ⊢
  obtain ⟨hs, hr, heq⟩ := setProfile_some_ok h
  obtain ⟨hl, hagain⟩ := scanTokens_settles p hs
  rw [heq]
  refine ⟨hl, fun m k hm hmax hk => ?_⟩
  obtain ⟨hok, hst, hkl, hlm⟩ := hagain m k hm hmax hk
  have hset : setProfile rc (some p) k m = ⟨(scanTokens rc p k m).state, (scanTokens rc p k m).level, none⟩ := by
    unfold setProfile
    simp only [hok, hst, hr, if_true]
  rw [hset]
  exact ⟨rfl, hst, hkl, hlm⟩

/-! ## What a list of tokens does depends on the list -/

def SameCommands (rc rc' : RuntimeCommands) : Prop := rc.enabledCommands = rc'.enabledCommands

theorem commandStep_agree {max code : Nat} {rc rc' : RuntimeCommands} {level : Nat}
    (h : SameCommands rc rc') :
    (commandStep max code rc level).Agree SameCommands (commandStep max code rc' level) := by
  have h : rc.enabledCommands = rc'.enabledCommands := h
  unfold commandStep
  split
  · exact ⟨h, rfl, rfl⟩
  · split
    · exact ⟨h, rfl, rfl⟩
    · refine ⟨?_, rfl, rfl⟩
      simp only [SameCommands, setCommand, h]

theorem tokenStep_agree {max : Nat} {token : CString} {rc rc' : RuntimeCommands} {level : Nat}
    (h : SameCommands rc rc') :
    (tokenStep max token rc level).Agree SameCommands (tokenStep max token rc' level) := by
  unfold tokenStep
  split
  · exact ⟨h, rfl, rfl⟩
  · split
    · exact scan_agree (f := commandStep max) (fun _ _ _ _ h => commandStep_agree h) h
    · exact ⟨h, rfl, rfl⟩

theorem scanTokens_agree (rc rc' : RuntimeCommands) (p : CString) (level max : Nat) :
    (rc.scanTokens p level max).Agree SameCommands (rc'.scanTokens p level max) :=
  scan_agree (f := tokenStep max) (fun _ _ _ _ h => tokenStep_agree h) rfl

/-- The commands, the level and the verdict depend on the list alone. -/
theorem setProfile_agree (rc rc' : RuntimeCommands) (newProfile : Option CString) (level max : Nat) :
    (rc.setProfile newProfile level max).Agree SameCommands (rc'.setProfile newProfile level max) := by
  cases newProfile with
  | none => exact ⟨rfl, rfl, rfl⟩
  | some p =>
      have h := scanTokens_agree rc rc' p level max
      have hst : (rc.scanTokens p level max).state.enabledCommands =
        (rc'.scanTokens p level max).state.enabledCommands := h.state
      have hrec : (rc.scanTokens p level max).state.reconciled =
          (rc'.scanTokens p level max).state.reconciled := by
        simp only [reconciled, hst]
      unfold setProfile
      simp only
      rw [← h.error, ← hrec]
      split
      · rw [h.level]
        exact ⟨rfl, rfl, rfl⟩
      · split
        · exact ⟨hst, h.level, rfl⟩
        · rw [h.level]
          exact ⟨rfl, rfl, rfl⟩

/-- The stored list is not touched, unless the list is rejected. -/
theorem setProfile_profile {rc : RuntimeCommands} {p : CString} {level max : Nat}
    (h : (rc.setProfile (some p) level max).error = none) :
    (rc.setProfile (some p) level max).state.commandsProfile = rc.commandsProfile := by
  obtain ⟨_, _, heq⟩ := setProfile_some_ok h
  rw [heq, scanTokens]
  have hkeep : ∀ (s : RuntimeCommands) (token : CString) (l : Nat),
      (tokenStep max token s l).state.commandsProfile = s.commandsProfile := by
    intro s token l
    unfold tokenStep
    split
    · rfl
    · split
      · refine scan_keeps (P := fun (s' : RuntimeCommands) _ =>
          s'.commandsProfile = s.commandsProfile) ?_ rfl
        intro code _ s' l' hs'
        unfold commandStep
        split
        · exact hs'
        · split
          · exact hs'
          · exact hs'
      · rfl
  exact scan_keeps (P := fun (s : RuntimeCommands) _ => s.commandsProfile = rc.commandsProfile)
    (fun token _ s l hs => (hkeep s token l).trans hs) rfl

/-! ## What a list stands for -/

/-- The codes that a token names. -/
def tokenCodes (token : CString) : List Nat :=
  match parseRange token with
  | none => []
  | some (lo, hi) => rangeCodes lo hi

/-- The codes that a list names. -/
def codes (p : CString) : List Nat := (p.splitOn ',').flatMap tokenCodes

/-- A code of a command that the maximum admits. -/
def codeAdmitted (max code : Nat) : Prop :=
  ∃ c, commandProperties.find? (·.code == code) = some c ∧ c.stateFormatLevel ≤ max

/-- The list is made of ranges of admitted commands, and names every command that is required. -/
def accepts (max : Nat) (p : CString) : Prop :=
  (∀ token ∈ p.splitOn ',', ∃ lo hi, parseRange token = some (lo, hi) ∧ inTable lo = true ∧
    inTable hi = true ∧ ∀ code ∈ rangeCodes lo hi, codeAdmitted max code) ∧
  ∀ c ∈ commandProperties, c.canBeDisabled = false → c.code ∈ codes p

theorem commandStep_ok_iff {max code : Nat} {rc : RuntimeCommands} {level : Nat} :
    (commandStep max code rc level).error = none ↔ codeAdmitted max code := by
  unfold commandStep codeAdmitted
  cases commandProperties.find? (·.code == code) with
  | none => exact ⟨fun h => absurd h (Option.some_ne_none _), fun ⟨c, hc, _⟩ => by cases hc⟩
  | some c =>
      simp only [Option.some.injEq, exists_eq_left']
      split
      · rename_i hc
        exact ⟨fun h => absurd h (Option.some_ne_none _), fun h => absurd hc (Nat.not_lt_of_le h)⟩
      · rename_i hc
        exact ⟨fun _ => Nat.le_of_not_lt hc, fun _ => rfl⟩

theorem commandStep_state {max code : Nat} {rc : RuntimeCommands} {level : Nat}
    (h : (commandStep max code rc level).error = none) :
    (commandStep max code rc level).state = rc.setCommand code := by
  obtain ⟨c, hc, hle⟩ := commandStep_ok_iff.mp h
  unfold commandStep
  simp only [hc, if_neg (Nat.not_lt_of_le hle)]

theorem tokenStep_ok_iff {max : Nat} {token : CString} {rc : RuntimeCommands} {level : Nat} :
    (tokenStep max token rc level).error = none ↔ ∃ lo hi, parseRange token = some (lo, hi) ∧
      inTable lo = true ∧ inTable hi = true ∧ ∀ code ∈ rangeCodes lo hi, codeAdmitted max code := by
  unfold tokenStep
  cases parseRange token with
  | none => exact ⟨fun h => absurd h (Option.some_ne_none _), fun ⟨lo, hi, h, _⟩ => by cases h⟩
  | some r =>
      obtain ⟨lo, hi⟩ := r
      have hscan : (scan (commandStep max) (rangeCodes lo hi) rc level).error = none ↔ _ :=
        scan_ok_iff fun code s l => commandStep_ok_iff
      simp only
      split
      · rename_i hin
        rw [Bool.and_eq_true] at hin
        rw [hscan]
        refine ⟨fun h => ⟨lo, hi, rfl, hin.1, hin.2, h⟩, ?_⟩
        rintro ⟨lo', hi', heq, _, _, h⟩
        obtain ⟨rfl, rfl⟩ := Prod.mk.inj (Option.some.inj heq)
        exact h
      · rename_i hin
        refine ⟨fun h => absurd h (Option.some_ne_none _), ?_⟩
        rintro ⟨lo', hi', heq, hlo, hhi, _⟩
        obtain ⟨rfl, rfl⟩ := Prod.mk.inj (Option.some.inj heq)
        exact absurd (Bool.and_eq_true_iff.mpr ⟨hlo, hhi⟩) hin

theorem foldl_setCommand (cs : List Nat) (rc : RuntimeCommands) :
    cs.foldl setCommand rc =
      { rc with enabledCommands := fun code => rc.enabledCommands code || decide (code ∈ cs) } := by
  induction cs generalizing rc with
  | nil =>
      ext code
      · simp only [List.foldl_nil, List.not_mem_nil, decide_false, Bool.or_false]
      · rfl
  | cons c cs ih =>
      rw [List.foldl_cons, ih]
      ext code
      · by_cases hc : code = c
        · simp only [setCommand, hc, Function.update_self, Bool.true_or, List.mem_cons, true_or, decide_true,
            Bool.or_true]
        · simp only [setCommand, Function.update_of_ne hc, List.mem_cons, hc, false_or]
      · rfl

theorem tokenStep_state {max : Nat} {token : CString} {rc : RuntimeCommands} {level : Nat}
    (h : (tokenStep max token rc level).error = none) :
    (tokenStep max token rc level).state = (tokenCodes token).foldl setCommand rc := by
  obtain ⟨lo, hi, hp, hlo, hhi, hcodes⟩ := tokenStep_ok_iff.mp h
  unfold tokenStep tokenCodes at *
  simp only [hp, hlo, hhi, Bool.and_self, if_true] at h ⊢
  exact scan_state (f := commandStep max) (g := setCommand) (fun _ _ _ => commandStep_state) h

theorem scanTokens_state {rc : RuntimeCommands} {p : CString} {level max : Nat}
    (h : (rc.scanTokens p level max).error = none) :
    (rc.scanTokens p level max).state = { rc with enabledCommands := fun code => decide (code ∈ codes p) } := by
  have hstate := scan_state (f := tokenStep max) (g := fun rc token => (tokenCodes token).foldl setCommand rc)
    (fun _ _ _ => tokenStep_state) h
  unfold scanTokens
  rw [hstate]
  unfold codes
  generalize p.splitOn ',' = tokens
  suffices hs : ∀ rc : RuntimeCommands,
      tokens.foldl (fun rc token => (tokenCodes token).foldl setCommand rc) rc =
        { rc with enabledCommands :=
            fun code => rc.enabledCommands code || decide (code ∈ tokens.flatMap tokenCodes) } by
    rw [hs]
    simp only [Bool.false_or]
  intro rc
  induction tokens generalizing rc with
  | nil =>
      ext code
      · simp only [List.foldl_nil, List.flatMap_nil, List.not_mem_nil, decide_false, Bool.or_false]
      · rfl
  | cons token tokens ih =>
      rw [List.foldl_cons, ih, foldl_setCommand]
      ext code
      · simp only [List.flatMap_cons, List.mem_append, Bool.decide_or, Bool.or_assoc]
      · rfl

/-- A list is accepted by its text alone. -/
theorem setProfile_ok_iff (rc : RuntimeCommands) (p : CString) (level max : Nat) :
    (rc.setProfile (some p) level max).error = none ↔ accepts max p := by
  have hscan : (rc.scanTokens p level max).error = none ↔ _ := scan_ok_iff fun t s l => tokenStep_ok_iff
  have hrec : (rc.scanTokens p level max).error = none →
      ((rc.scanTokens p level max).state.reconciled = true ↔
        ∀ c ∈ commandProperties, c.canBeDisabled = false → c.code ∈ codes p) := by
    intro h
    simp only [scanTokens_state h, reconciled, List.all_eq_true, Bool.or_eq_true, decide_eq_true_eq]
    refine forall₂_congr fun c _ => ?_
    cases c.canBeDisabled with
    | true => simp only [true_or, Bool.true_eq_false, false_implies]
    | false => simp only [Bool.false_eq_true, false_or, forall_const]
  constructor
  · intro h
    obtain ⟨hs, hr, _⟩ := setProfile_some_ok h
    exact ⟨hscan.mp hs, (hrec hs).mp hr⟩
  · rintro ⟨htokens, hreq⟩
    have hs := hscan.mpr htokens
    unfold setProfile
    simp only [hs, (hrec hs).mpr hreq, if_true]

theorem setProfile_listed {rc : RuntimeCommands} {p : CString} {level max : Nat} (h : accepts max p) :
    (rc.setProfile (some p) level max).state =
      { rc with enabledCommands := fun code => decide (code ∈ codes p) } := by
  obtain ⟨hs, _, heq⟩ := setProfile_some_ok ((setProfile_ok_iff rc p level max).mpr h)
  rw [heq, scanTokens_state hs]

/-- A list that is not accepted ends in `refuse`. -/
theorem setProfile_eq_refuse (rc : RuntimeCommands) {p : CString} (level : Nat) {max : Nat} (h : ¬accepts max p) :
    ∃ e, rc.setProfile (some p) level max = refuse (rc.scanTokens p level max).level e := by
  have hok := mt (setProfile_ok_iff rc p level max).mp h
  unfold setProfile at hok ⊢
  simp only at hok ⊢
  split
  · exact ⟨_, rfl⟩
  · rename_i he
    rw [he] at hok
    simp only at hok
    split
    · rename_i hr
      rw [if_pos hr] at hok
      exact absurd rfl hok
    · exact ⟨_, rfl⟩

theorem setProfile_refused {rc : RuntimeCommands} {p : CString} {level max : Nat} (h : ¬accepts max p) :
    (rc.setProfile (some p) level max).state = allCommands (2 ^ 32 - 1) := by
  obtain ⟨e, he⟩ := setProfile_eq_refuse rc level h
  rw [he]
  rfl

theorem setProfile_none (rc : RuntimeCommands) (level : Nat) {max : Nat} (h : 1 ≤ max) :
    rc.setProfile none level max = ⟨allCommands max, level, none⟩ := if_pos h

theorem setProfile_returns (rc : RuntimeCommands) (newProfile : Option CString) (level : Nat) {max : Nat}
    (hmax : 1 ≤ max) : (rc.setProfile newProfile level max).error ≠ some .failureMode := by
  cases newProfile with
  | none =>
      rw [setProfile_none rc level hmax]
      exact nofun
  | some p =>
      by_cases h : accepts max p
      · rw [(setProfile_ok_iff rc p level max).mpr h]
        exact nofun
      · obtain ⟨e, he⟩ := setProfile_eq_refuse rc level h
        rw [he]
        exact nofun

/-! ## The level that a list asks for -/

theorem commandProperties_level : ∀ c ∈ commandProperties, 1 ≤ c.stateFormatLevel ∧ c.stateFormatLevel ≤ 7 := by
  decide +kernel

theorem commandStep_bound {max code : Nat} {rc : RuntimeCommands} {level : Nat} (h : level ≤ 7) :
    (commandStep max code rc level).level ≤ 7 := by
  unfold commandStep
  split
  · exact h
  · rename_i c hc
    split
    · exact h
    · exact Nat.max_le.mpr ⟨h, (commandProperties_level c (List.mem_of_find?_eq_some hc)).2⟩

theorem tokenStep_bound {max : Nat} {token : CString} {rc : RuntimeCommands} {level : Nat} (h : level ≤ 7) :
    (tokenStep max token rc level).level ≤ 7 := by
  unfold tokenStep
  split
  · exact h
  · split
    · exact scan_keeps (P := fun (_ : RuntimeCommands) l => l ≤ 7)
        (fun _ _ _ _ hl => commandStep_bound hl) h
    · exact h

theorem setProfile_bound (rc : RuntimeCommands) (newProfile : Option CString) (max : Nat) {level : Nat}
    (h : level ≤ 7) : (rc.setProfile newProfile level max).level ≤ 7 := by
  cases newProfile with
  | none =>
      unfold setProfile setDefault
      simp only
      split <;> exact h
  | some p =>
      have hscan : (rc.scanTokens p level max).level ≤ 7 :=
        scan_keeps (P := fun (_ : RuntimeCommands) l => l ≤ 7) (fun _ _ _ _ hl => tokenStep_bound hl) h
      unfold setProfile
      simp only
      split
      · exact hscan
      · split
        · exact hscan
        · exact hscan

/-- Every enabled command is implemented, and the level is the one its row asks for or above. -/
def PaidFor (rc : RuntimeCommands) (level : Nat) : Prop :=
  ∀ code, rc.enabledCommands code = true → ∃ c ∈ commandProperties, c.code = code ∧ c.stateFormatLevel ≤ level

theorem commandStep_paid {max code : Nat} {rc : RuntimeCommands} {level : Nat} (h : rc.PaidFor level) :
    (commandStep max code rc level).state.PaidFor (commandStep max code rc level).level := by
  unfold commandStep
  split
  · exact h
  · rename_i c hc
    split
    · exact h
    · intro code' hcode'
      simp only [setCommand, Function.update_apply] at hcode'
      split at hcode'
      · rename_i heq
        refine ⟨c, List.mem_of_find?_eq_some hc, ?_, Nat.le_max_right _ _⟩
        rw [heq]
        exact eq_of_beq (List.find?_some (p := fun x : CommandProperty => x.code == code) hc)
      · obtain ⟨d, hd, heq, hle⟩ := h code' hcode'
        exact ⟨d, hd, heq, Nat.le_trans hle (Nat.le_max_left _ _)⟩

theorem tokenStep_paid {max : Nat} {token : CString} {rc : RuntimeCommands} {level : Nat}
    (h : rc.PaidFor level) :
    (tokenStep max token rc level).state.PaidFor (tokenStep max token rc level).level := by
  unfold tokenStep
  split
  · exact h
  · split
    · exact scan_keeps (P := fun (s : RuntimeCommands) l => s.PaidFor l)
        (fun _ _ _ _ hs => commandStep_paid hs) h
    · exact h

theorem setProfile_paid {rc : RuntimeCommands} {p : CString} {level max : Nat}
    (h : (rc.setProfile (some p) level max).error = none) :
    (rc.setProfile (some p) level max).state.PaidFor (rc.setProfile (some p) level max).level := by
  obtain ⟨_, _, heq⟩ := setProfile_some_ok h
  rw [heq]
  exact scan_keeps (P := fun (s : RuntimeCommands) l => s.PaidFor l) (fun _ _ _ _ hs => tokenStep_paid hs)
    fun code hcode => absurd hcode Bool.false_ne_true

theorem setProfile_mandatory {rc : RuntimeCommands} {p : CString} {level max : Nat}
    (h : (rc.setProfile (some p) level max).error = none) {c : CommandProperty} (hc : c ∈ commandProperties)
    (hd : c.canBeDisabled = false) :
    (rc.setProfile (some p) level max).state.enabledCommands c.code = true := by
  obtain ⟨_, hrec, heq⟩ := setProfile_some_ok h
  rw [heq]
  unfold reconciled at hrec
  have hall := List.all_eq_true.mp hrec c hc
  rwa [hd, Bool.false_or] at hall

theorem setProfile_pos {rc : RuntimeCommands} {p : CString} {level max : Nat}
    (h : (rc.setProfile (some p) level max).error = none) :
    1 ≤ (rc.setProfile (some p) level max).level := by
  have hc : (⟨0x120, false, 1⟩ : CommandProperty) ∈ commandProperties := by decide +kernel
  obtain ⟨c, hc, _, hle⟩ := setProfile_paid h 0x120 (setProfile_mandatory h hc rfl)
  exact Nat.le_trans (commandProperties_level c hc).1 hle

end RuntimeCommands

end PqcTpm
