import PqcTpm.RuntimeCommands
import PqcTpm.Lib.HexText

/-!
# The printed list of commands

`RuntimeCommandsPrint`: the commands of a kind, with neighbouring codes joined to ranges, and what
`RuntimeCommandsSetProfile` makes of the list.
-/
namespace PqcTpm
open LevelScan TextFields

/-- `enum RuntimeCommandType`. -/
inductive RuntimeCommandType
  | implemented | canBeDisabled | enabled | disabled
  deriving DecidableEq, Repr

namespace RuntimeCommands

/-- The locals of `RuntimeCommandsPrint`. -/
structure PrintState where
  buffer : CString
  first : Bool
  commandCodeLo : Nat
  commandCodeHi : Nat
  deriving DecidableEq, Repr

/-- The text of a code or of a range of codes. -/
def rangeText (lo hi : Nat) : CString := if lo = hi then hexText lo else hexText lo ++ '-' :: hexText hi

/-- `RuntimeCommandPrint`. -/
def runtimeCommandPrint (buffer : CString) (first : Bool) (commandCodeLo commandCodeHi : Nat) : CString :=
  buffer ++ (if first then [] else [',']) ++ rangeText commandCodeLo commandCodeHi

/-- The filter of `RuntimeCommandsPrint`. -/
def doPrint (rc : RuntimeCommands) : RuntimeCommandType → CommandProperty → Bool
  | .implemented, _ => true
  | .canBeDisabled, c => c.canBeDisabled
  | .enabled, c => rc.checkEnabled c.code
  | .disabled, c => !rc.checkEnabled c.code

/-- One turn of the loop in `RuntimeCommandsPrint`, for a row with a name. -/
def printStep (print : Bool) (code : Nat) (s : PrintState) : PrintState :=
  if print ∧ s.commandCodeLo = 0 then { s with commandCodeLo := code, commandCodeHi := code }
  else if print ∧ s.commandCodeHi + 1 = code then { s with commandCodeHi := s.commandCodeHi + 1 }
  else if ¬print ∧ s.commandCodeLo = 0 then s
  else
    { buffer := runtimeCommandPrint s.buffer s.first s.commandCodeLo s.commandCodeHi
      first := false
      commandCodeLo := if print then code else 0
      commandCodeHi := if print then code else s.commandCodeHi }

/-- The loop of `RuntimeCommandsPrint`. -/
def printLoop (rc : RuntimeCommands) (rct : RuntimeCommandType) (rows : List CommandProperty) (s : PrintState) :
    PrintState :=
  rows.foldl (fun s c => printStep (rc.doPrint rct c) c.code s) s

/-- `RuntimeCommandsPrint`. -/
def print (rc : RuntimeCommands) (rct : RuntimeCommandType) : CString :=
  let s := rc.printLoop rct commandProperties ⟨['"'], true, 0, 0⟩
  (if s.commandCodeLo ≠ 0 then runtimeCommandPrint s.buffer s.first s.commandCodeLo s.commandCodeHi
    else s.buffer) ++ ['"']

/-- A list without its quotes. -/
def unquoted (p : CString) : CString := p.tail.dropLast

/-! ## The ranges that are printed -/

theorem intercalate_concat (sep : Char) {ts : List CString} (h : ts ≠ []) (t : CString) :
    [sep].intercalate (ts ++ [t]) = [sep].intercalate ts ++ sep :: t := by
  induction ts with
  | nil => exact absurd rfl h
  | cons u us ih =>
      cases us with
      | nil => simp [List.intercalate, List.intersperse]
      | cons v vs =>
          have hrec := ih (List.cons_ne_nil v vs)
          simp only [List.intercalate, List.cons_append, List.intersperse, List.flatten_cons] at hrec ⊢
          rw [hrec]
          simp only [List.append_assoc, List.cons_append]

/-- The codes that a list of ranges stands for. -/
def rangesCodes (rs : List (Nat × Nat)) : List Nat := rs.flatMap fun r => rangeCodes r.1 r.2

/-- The text of a list of ranges. -/
def rangesText (rs : List (Nat × Nat)) : CString := [','].intercalate (rs.map fun r => rangeText r.1 r.2)

/-- The ranges that are written, and the one that is open, stand for the codes seen so far. -/
structure Printed (s : PrintState) (rs : List (Nat × Nat)) (l : List Nat) : Prop where
  buffer : s.buffer = '"' :: rangesText rs
  first : s.first = rs.isEmpty
  forward : ∀ r ∈ rs, r.1 ≤ r.2
  isOpen : s.commandCodeLo ≠ 0 → s.commandCodeLo ≤ s.commandCodeHi
  codes : l = rangesCodes rs ++
    if s.commandCodeLo = 0 then [] else rangeCodes s.commandCodeLo s.commandCodeHi

theorem rangesText_concat (rs : List (Nat × Nat)) (lo hi : Nat) :
    rangesText (rs ++ [(lo, hi)]) = rangesText rs ++ (if rs.isEmpty then [] else [',']) ++ rangeText lo hi := by
  unfold rangesText
  rw [List.map_append]
  cases rs with
  | nil => simp [List.intercalate]
  | cons r rs =>
      have h := intercalate_concat ',' (List.map_cons ▸ List.cons_ne_nil _ _ :
        (r :: rs).map (fun r => rangeText r.1 r.2) ≠ []) (rangeText lo hi)
      simpa using h

theorem rangesCodes_concat (rs : List (Nat × Nat)) (lo hi : Nat) :
    rangesCodes (rs ++ [(lo, hi)]) = rangesCodes rs ++ rangeCodes lo hi := by
  unfold rangesCodes
  rw [List.flatMap_append, List.flatMap_singleton]

theorem rangeCodes_self (n : Nat) : rangeCodes n n = [n] := by
  unfold rangeCodes
  rw [Nat.add_sub_cancel_left]
  rfl

theorem rangeCodes_succ {lo hi : Nat} (h : lo ≤ hi) : rangeCodes lo (hi + 1) = rangeCodes lo hi ++ [hi + 1] := by
  unfold rangeCodes
  have hlen : hi + 1 + 1 - lo = hi + 1 - lo + 1 := by omega
  have hlast : lo + (hi + 1 - lo) = hi + 1 := by omega
  rw [hlen, List.range'_1_concat, hlast]

theorem Printed.write {s : PrintState} {rs : List (Nat × Nat)} {l : List Nat} (h : Printed s rs l)
    (hlo : s.commandCodeLo ≠ 0) :
    runtimeCommandPrint s.buffer s.first s.commandCodeLo s.commandCodeHi =
        '"' :: rangesText (rs ++ [(s.commandCodeLo, s.commandCodeHi)]) ∧
      (∀ r ∈ rs ++ [(s.commandCodeLo, s.commandCodeHi)], r.1 ≤ r.2) ∧
      l = rangesCodes (rs ++ [(s.commandCodeLo, s.commandCodeHi)]) := by
  refine ⟨?_, ?_, ?_⟩
  · unfold runtimeCommandPrint
    rw [rangesText_concat, h.buffer, h.first, List.cons_append, List.cons_append]
  · intro r hr
    rcases List.mem_append.mp hr with hr | hr
    · exact h.forward r hr
    · rw [List.mem_singleton.mp hr]
      exact h.isOpen hlo
  · have hcodes := h.codes
    rwa [if_neg hlo, ← rangesCodes_concat] at hcodes

theorem printStep_printed {s : PrintState} {rs : List (Nat × Nat)} {l : List Nat} (h : Printed s rs l)
    (print : Bool) {code : Nat} (hcode : 0 < code) :
    ∃ rs', Printed (printStep print code s) rs' (if print then l ++ [code] else l) := by
  have hne : code ≠ 0 := Nat.pos_iff_ne_zero.mp hcode
  unfold printStep
  by_cases hlo : s.commandCodeLo = 0
  · -- no range is open
    have hl : l = rangesCodes rs := by
      have hcodes := h.codes
      rwa [if_pos hlo, List.append_nil] at hcodes
    cases print with
    | true =>
        rw [if_pos ⟨rfl, hlo⟩]
        refine ⟨rs, h.buffer, h.first, h.forward, fun _ => Nat.le_refl _, ?_⟩
        rw [if_neg hne, if_pos rfl, rangeCodes_self, hl]
    | false =>
        rw [if_neg (fun h' => Bool.false_ne_true h'.1), if_neg (fun h' => Bool.false_ne_true h'.1),
          if_pos ⟨Bool.false_ne_true, hlo⟩]
        exact ⟨rs, h⟩
  · obtain ⟨hbuffer, hforward, hl⟩ := h.write hlo
    have hnonempty : (rs ++ [(s.commandCodeLo, s.commandCodeHi)]).isEmpty = false := by
      rw [List.isEmpty_eq_false_iff]
      exact List.append_ne_nil_of_right_ne_nil _ (List.cons_ne_nil _ _)
    cases print with
    | true =>
        rw [if_neg (fun h' => hlo h'.2)]
        by_cases hnext : s.commandCodeHi + 1 = code
        · rw [if_pos ⟨rfl, hnext⟩]
          refine ⟨rs, h.buffer, h.first, h.forward, fun hlo' => Nat.le_succ_of_le (h.isOpen hlo'), ?_⟩
          have hcodes := h.codes
          rw [if_neg hlo] at hcodes
          simp only [if_true]
          rw [if_neg hlo, rangeCodes_succ (h.isOpen hlo), hcodes, hnext, List.append_assoc]
        · rw [if_neg (fun h' => hnext h'.2), if_neg (fun h' => h'.1 rfl)]
          refine ⟨_, hbuffer, hnonempty.symm, hforward, fun _ => Nat.le_refl _, ?_⟩
          simp only [if_true]
          rw [if_neg hne, rangeCodes_self, ← hl]
    | false =>
        rw [if_neg (fun h' => Bool.false_ne_true h'.1), if_neg (fun h' => Bool.false_ne_true h'.1),
          if_neg (fun h' => hlo h'.2)]
        refine ⟨_, hbuffer, hnonempty.symm, hforward, fun hlo' => absurd rfl hlo', ?_⟩
        simp only [Bool.false_eq_true, if_false, if_true]
        rw [List.append_nil, ← hl]

/-- The codes of the rows that are printed. -/
def printedCodes (rc : RuntimeCommands) (rct : RuntimeCommandType) (rows : List CommandProperty) : List Nat :=
  (rows.filter (rc.doPrint rct)).map CommandProperty.code

theorem printLoop_printed (rc : RuntimeCommands) (rct : RuntimeCommandType) {rows : List CommandProperty}
    (hrows : ∀ c ∈ rows, 0 < c.code) {s : PrintState} {rs : List (Nat × Nat)} {l : List Nat} (h : Printed s rs l) :
    ∃ rs', Printed (rc.printLoop rct rows s) rs' (l ++ rc.printedCodes rct rows) := by
  induction rows generalizing s rs l with
  | nil =>
      refine ⟨rs, ?_⟩
      rw [printedCodes, List.filter_nil, List.map_nil, List.append_nil]
      exact h
  | cons c rows ih =>
      obtain ⟨rs₁, h₁⟩ := printStep_printed h (rc.doPrint rct c) (hrows c List.mem_cons_self)
      obtain ⟨rs₂, h₂⟩ := ih (fun d hd => hrows d (List.mem_cons_of_mem c hd)) h₁
      refine ⟨rs₂, ?_⟩
      have hcodes : l ++ rc.printedCodes rct (c :: rows) =
          (if rc.doPrint rct c then l ++ [c.code] else l) ++ rc.printedCodes rct rows := by
        unfold printedCodes
        cases hprint : rc.doPrint rct c with
        | true =>
            rw [List.filter_cons_of_pos hprint, List.map_cons, if_pos rfl, List.append_assoc, List.singleton_append]
        | false => rw [List.filter_cons_of_neg (by rw [hprint]; exact Bool.false_ne_true), if_neg Bool.false_ne_true]
      rw [hcodes]
      exact h₂

theorem commandProperties_inTable : ∀ c ∈ commandProperties, inTable c.code = true := by decide +kernel

/-- A list is the text of forward ranges that stand for the codes it is meant to show. -/
theorem print_ranges (rc : RuntimeCommands) (rct : RuntimeCommandType) :
    ∃ rs, unquoted (rc.print rct) = rangesText rs ∧ (∀ r ∈ rs, r.1 ≤ r.2) ∧
      rangesCodes rs = rc.printedCodes rct commandProperties := by
  have hpos : ∀ c ∈ commandProperties, 0 < c.code := by
    intro c hc
    have hin := of_decide_eq_true (commandProperties_inTable c hc)
    omega
  have hinit : Printed ⟨['"'], true, 0, 0⟩ [] [] := ⟨rfl, rfl, nofun, fun h => absurd rfl h, rfl⟩
  obtain ⟨rs, h⟩ := printLoop_printed rc rct hpos hinit
  rw [List.nil_append] at h
  have hunquoted : ∀ t : CString, unquoted ('"' :: t ++ ['"']) = t := fun t => List.dropLast_concat
  unfold print
  simp only
  by_cases hlo : (rc.printLoop rct commandProperties ⟨['"'], true, 0, 0⟩).commandCodeLo = 0
  · have hcodes := h.codes
    rw [if_pos hlo, List.append_nil] at hcodes
    rw [if_neg (fun h' => h' hlo), h.buffer, hunquoted]
    exact ⟨rs, rfl, h.forward, hcodes.symm⟩
  · obtain ⟨hbuffer, hforward, hcodes⟩ := h.write hlo
    rw [if_pos hlo, hbuffer, hunquoted]
    exact ⟨_, rfl, hforward, hcodes.symm⟩

/-! ## Reading a printed list -/

theorem parseRange_rangeText {lo hi : Nat} (hlo : lo < 2 ^ 32) (hhi : hi < 2 ^ 32) :
    parseRange (rangeText lo hi) = some (lo, hi) := by
  have hlo64 : lo < 2 ^ 64 := by omega
  have hhi64 : hi < 2 ^ 64 := by omega
  have hend := strtoul_hexText hhi64 [] nofun
  unfold rangeText parseRange
  by_cases heq : lo = hi
  · have hone := strtoul_hexText hlo64 [] nofun
    rw [List.append_nil] at hone
    rw [if_pos heq, hone, heq]
    have hle : ¬hi > 2 ^ 32 - 1 := by omega
    simp only [Bool.false_eq_true, hle, or_self, if_false]
  · have htwo := strtoul_hexText hlo64 ('-' :: hexText hi) (by
      intro c hc
      cases hc
      rfl)
    rw [List.append_nil] at hend
    rw [if_neg heq, htwo]
    have hle : ¬lo > 2 ^ 32 - 1 := by omega
    have hle' : ¬hi > 2 ^ 32 - 1 := by omega
    simp only [Bool.false_eq_true, hle, hle', or_self, if_false, hend, if_true]

theorem comma_not_mem_rangeText (lo hi : Nat) : ',' ∉ rangeText lo hi := by
  have hhex : ∀ n, ',' ∉ hexText n := fun n => not_mem_hexText n (by decide) (by decide)
  unfold rangeText
  split
  · exact hhex lo
  · intro h
    rcases List.mem_append.mp h with h | h
    · exact hhex lo h
    · rcases List.mem_cons.mp h with h | h
      · exact absurd h (by decide)
      · exact hhex hi h

theorem splitOn_rangesText {rs : List (Nat × Nat)} (h : rs ≠ []) :
    (rangesText rs).splitOn ',' = rs.map fun r => rangeText r.1 r.2 := by
  refine List.splitOn_intercalate ',' ?_ (fun hnil => h (List.map_eq_nil_iff.mp hnil))
  intro t ht
  obtain ⟨r, -, rfl⟩ := List.mem_map.mp ht
  exact comma_not_mem_rangeText r.1 r.2

theorem rangesText_ne_nil {rs : List (Nat × Nat)} (h : rs ≠ []) : rangesText rs ≠ [] := by
  intro hnil
  have hsplit := splitOn_rangesText h
  rw [hnil, List.splitOn_nil] at hsplit
  cases rs with
  | nil => exact h rfl
  | cons r rs =>
      have hhead : [] = rangeText r.1 r.2 := (List.cons.inj hsplit).1
      unfold rangeText hexText at hhead
      split at hhead
      · cases hhead
      · cases hhead

/-- The codes that a printed list shows; an empty list shows none. -/
def listed (p : CString) : List Nat := if p = [] then [] else codes p

theorem codes_rangesText {rs : List (Nat × Nat)} (h : rs ≠ []) (hrs : ∀ r ∈ rs, r.1 < 2 ^ 32 ∧ r.2 < 2 ^ 32) :
    codes (rangesText rs) = rangesCodes rs := by
  unfold codes rangesCodes
  rw [splitOn_rangesText h, List.flatMap_map]
  apply List.flatMap_congr
  intro r hr
  unfold tokenCodes
  rw [parseRange_rangeText (hrs r hr).1 (hrs r hr).2]

theorem ends_mem {rs : List (Nat × Nat)} {r : Nat × Nat} (hr : r ∈ rs) (h : r.1 ≤ r.2) :
    r.1 ∈ rangesCodes rs ∧ r.2 ∈ rangesCodes rs := by
  unfold rangesCodes rangeCodes
  constructor
  · exact List.mem_flatMap.mpr ⟨r, hr, List.mem_range'_1.mpr ⟨Nat.le_refl _, by omega⟩⟩
  · exact List.mem_flatMap.mpr ⟨r, hr, List.mem_range'_1.mpr ⟨h, by omega⟩⟩

theorem mem_printedCodes {rc : RuntimeCommands} {rct : RuntimeCommandType} {code : Nat} :
    code ∈ rc.printedCodes rct commandProperties ↔
      ∃ c ∈ commandProperties, c.code = code ∧ rc.doPrint rct c = true := by
  unfold printedCodes
  rw [List.mem_map]
  constructor
  · rintro ⟨c, hc, hcode⟩
    obtain ⟨hc, hprint⟩ := List.mem_filter.mp hc
    exact ⟨c, hc, hcode, hprint⟩
  · rintro ⟨c, hc, hcode, hprint⟩
    exact ⟨c, List.mem_filter.mpr ⟨hc, hprint⟩, hcode⟩

theorem print_spec (rc : RuntimeCommands) (rct : RuntimeCommandType) :
    ∃ rs, unquoted (rc.print rct) = rangesText rs ∧ rangesCodes rs = rc.printedCodes rct commandProperties ∧
      ∀ r ∈ rs, r.1 ≤ r.2 ∧ inTable r.1 = true ∧ inTable r.2 = true := by
  obtain ⟨rs, htext, hforward, hcodes⟩ := print_ranges rc rct
  have hin : ∀ code ∈ rangesCodes rs, inTable code = true := by
    intro code hcode
    rw [hcodes] at hcode
    obtain ⟨c, hc, rfl, -⟩ := mem_printedCodes.mp hcode
    exact commandProperties_inTable c hc
  refine ⟨rs, htext, hcodes, ?_⟩
  intro r hr
  obtain ⟨hlo, hhi⟩ := ends_mem hr (hforward r hr)
  exact ⟨hforward r hr, hin _ hlo, hin _ hhi⟩

theorem inTable_lt {code : Nat} (h : inTable code = true) : code < 2 ^ 32 := by
  have hin := of_decide_eq_true h
  omega

theorem listed_print (rc : RuntimeCommands) (rct : RuntimeCommandType) :
    listed (unquoted (rc.print rct)) = rc.printedCodes rct commandProperties := by
  obtain ⟨rs, htext, hcodes, hrs⟩ := print_spec rc rct
  rw [htext, ← hcodes]
  unfold listed
  by_cases h : rs = []
  · rw [h]
    rfl
  · rw [if_neg (rangesText_ne_nil h), codes_rangesText h fun r hr => ⟨inTable_lt (hrs r hr).2.1, inTable_lt (hrs r hr).2.2⟩]

/-- What is shown as enabled and what is shown as disabled are together the implemented commands, each once. -/
theorem print_partition (rc : RuntimeCommands) :
    (listed (unquoted (rc.print .enabled)) ++ listed (unquoted (rc.print .disabled))).Perm
      (commandProperties.map CommandProperty.code) := by
  rw [listed_print, listed_print]
  unfold printedCodes
  rw [← List.map_append]
  apply List.Perm.map
  exact List.filter_append_perm (rc.doPrint .enabled) commandProperties

/-! ## What was set can be printed and set again -/

/-- The maximum admits every enabled command. -/
def Sufficient (rc : RuntimeCommands) (max : Nat) : Prop :=
  ∀ c ∈ commandProperties, rc.enabledCommands c.code = true → c.stateFormatLevel ≤ max

/-- The printed list of the enabled commands is accepted and enables the same commands. -/
def RoundTrips (rc : RuntimeCommands) : Prop :=
  ∀ (rc₁ : RuntimeCommands) (level max : Nat), rc.Sufficient max →
    (rc₁.setProfile (some (unquoted (rc.print .enabled))) level max).error = none ∧
      (rc₁.setProfile (some (unquoted (rc.print .enabled))) level max).state.enabledCommands = rc.enabledCommands

/-- Only implemented commands are enabled. -/
def Known (rc : RuntimeCommands) : Prop :=
  ∀ code, rc.enabledCommands code = true → ∃ c ∈ commandProperties, c.code = code

/-- Every command that cannot be disabled is enabled. -/
def Required (rc : RuntimeCommands) : Prop :=
  ∀ c ∈ commandProperties, c.canBeDisabled = false → rc.enabledCommands c.code = true

theorem mem_enabledCodes {rc : RuntimeCommands} (hknown : rc.Known) {code : Nat} :
    code ∈ rc.printedCodes .enabled commandProperties ↔ rc.enabledCommands code = true := by
  rw [mem_printedCodes]
  constructor
  · rintro ⟨c, -, rfl, hprint⟩
    exact (Bool.and_eq_true_iff.mp hprint).2
  · intro h
    obtain ⟨c, hc, rfl⟩ := hknown code h
    exact ⟨c, hc, rfl, Bool.and_eq_true_iff.mpr ⟨commandProperties_inTable c hc, h⟩⟩

theorem codeAdmitted_of_mem {max : Nat} {c : CommandProperty} (hc : c ∈ commandProperties)
    (hmax : ∀ d ∈ commandProperties, d.code = c.code → d.stateFormatLevel ≤ max) : codeAdmitted max c.code := by
  have hsome : (commandProperties.find? (·.code == c.code)).isSome = true :=
    List.find?_isSome.mpr ⟨c, hc, beq_self_eq_true _⟩
  obtain ⟨d, hd⟩ := Option.isSome_iff_exists.mp hsome
  have hcode : d.code = c.code := eq_of_beq (List.find?_some (p := fun x : CommandProperty => x.code == c.code) hd)
  exact ⟨d, hd, hmax d (List.mem_of_find?_eq_some hd) hcode⟩

theorem evictControl_mem : (⟨0x120, false, 1⟩ : CommandProperty) ∈ commandProperties := by decide +kernel

theorem codes_print {rc : RuntimeCommands} (hknown : rc.Known) (hreq : rc.Required) {code : Nat} :
    code ∈ codes (unquoted (rc.print .enabled)) ↔ rc.enabledCommands code = true := by
  rw [← mem_enabledCodes hknown, ← listed_print]
  have hnonempty : unquoted (rc.print .enabled) ≠ [] := by
    intro hnil
    have hmem := (mem_enabledCodes hknown).mpr (hreq _ evictControl_mem rfl)
    rw [← listed_print, hnil] at hmem
    exact absurd hmem List.not_mem_nil
  unfold listed
  rw [if_neg hnonempty]

theorem accepts_print {rc : RuntimeCommands} (hknown : rc.Known) (hreq : rc.Required) {max : Nat}
    (hmax : rc.Sufficient max) : accepts max (unquoted (rc.print .enabled)) := by
  obtain ⟨rs, htext, hcodes, hrs⟩ := print_spec rc .enabled
  constructor
  · have hne : rs ≠ [] := by
      intro hnil
      have hmem := (mem_enabledCodes hknown).mpr (hreq _ evictControl_mem rfl)
      rw [← hcodes, hnil] at hmem
      exact absurd hmem List.not_mem_nil
    intro t ht
    rw [htext, splitOn_rangesText hne] at ht
    obtain ⟨r, hr, rfl⟩ := List.mem_map.mp ht
    obtain ⟨-, hlo, hhi⟩ := hrs r hr
    refine ⟨r.1, r.2, parseRange_rangeText (inTable_lt hlo) (inTable_lt hhi), hlo, hhi, ?_⟩
    intro code hcode
    have hmem : code ∈ rangesCodes rs := List.mem_flatMap.mpr ⟨r, hr, hcode⟩
    rw [hcodes] at hmem
    obtain ⟨c, hc, rfl, -⟩ := mem_printedCodes.mp hmem
    have henabled := (mem_enabledCodes hknown).mp hmem
    exact codeAdmitted_of_mem hc fun d hd hdc => hmax d hd (by rw [hdc]; exact henabled)
  · intro c hc hd
    exact (codes_print hknown hreq).mpr (hreq c hc hd)

theorem roundTrips_of_required {rc : RuntimeCommands} (hknown : rc.Known) (hreq : rc.Required) : rc.RoundTrips := by
  intro rc₁ level max hmax
  have haccepts := accepts_print hknown hreq hmax
  refine ⟨(setProfile_ok_iff _ _ _ _).mpr haccepts, ?_⟩
  rw [setProfile_listed haccepts]
  funext code
  apply Bool.eq_iff_iff.mpr
  rw [decide_eq_true_eq]
  exact codes_print hknown hreq

/-! ### The sets that can be reached -/

theorem allCommands_enabled {max code : Nat} :
    (allCommands max).enabledCommands code = true ↔
      ∃ c ∈ commandProperties, c.code = code ∧ c.stateFormatLevel ≤ max := by
  unfold allCommands
  rw [List.any_eq_true]
  constructor
  · rintro ⟨c, hc, h⟩
    obtain ⟨hcode, hlevel⟩ := Bool.and_eq_true_iff.mp h
    exact ⟨c, hc, eq_of_beq hcode, of_decide_eq_true hlevel⟩
  · rintro ⟨c, hc, rfl, hlevel⟩
    exact ⟨c, hc, Bool.and_eq_true_iff.mpr ⟨beq_self_eq_true _, decide_eq_true hlevel⟩⟩

theorem allCommands_known (max : Nat) : (allCommands max).Known := by
  intro code h
  obtain ⟨c, hc, hcode, -⟩ := allCommands_enabled.mp h
  exact ⟨c, hc, hcode⟩

theorem required_level : ∀ c ∈ commandProperties, c.canBeDisabled = false → c.stateFormatLevel = 1 := by decide +kernel

theorem allCommands_required {max : Nat} (h : 1 ≤ max) : (allCommands max).Required := by
  intro c hc hd
  exact allCommands_enabled.mpr ⟨c, hc, rfl, by rw [required_level c hc hd]; exact h⟩

theorem setProfile_reached {rc₀ : RuntimeCommands} {newProfile : Option CString} {level max : Nat}
    (h : (rc₀.setProfile newProfile level max).error ≠ some .failureMode) :
    (rc₀.setProfile newProfile level max).state.Known ∧ (rc₀.setProfile newProfile level max).state.Required := by
  cases newProfile with
  | none =>
      by_cases hmax : 1 ≤ max
      · rw [setProfile_none rc₀ level hmax]
        exact ⟨allCommands_known max, allCommands_required hmax⟩
      · have habort : (rc₀.setProfile none level max).error = some .failureMode :=
          congrArg Result.error (if_neg hmax)
        exact absurd habort h
  | some p =>
      by_cases haccepts : accepts max p
      · have hok := (setProfile_ok_iff rc₀ p level max).mpr haccepts
        refine ⟨fun code hcode => ?_, fun c hc hd => setProfile_mandatory hok hc hd⟩
        obtain ⟨c, hc, hcc, -⟩ := setProfile_paid hok code hcode
        exact ⟨c, hc, hcc⟩
      · rw [setProfile_refused haccepts]
        exact ⟨allCommands_known _, allCommands_required (by decide)⟩

/-! ## Ranges the wrong way round -/

/-- An accepted list is made of codes and of forward ranges of admitted codes, and enables what they name. -/
def AcceptsForward (p : CString) (max : Nat) : Prop :=
  ∀ (rc : RuntimeCommands) (level : Nat), (rc.setProfile (some p) level max).error = none →
    (∀ item ∈ p.splitOn ',', ∃ lo hi, parseRange item = some (lo, hi) ∧ lo ≤ hi ∧
      ∀ code, lo ≤ code → code ≤ hi → codeAdmitted max code) ∧
    ∀ code, (rc.setProfile (some p) level max).state.enabledCommands code = true ↔
      ∃ item ∈ p.splitOn ',', ∃ lo hi, parseRange item = some (lo, hi) ∧ lo ≤ code ∧ code ≤ hi

/-- An item is a range the wrong way round. -/
def HasReversed (p : CString) : Prop :=
  ∃ item ∈ p.splitOn ',', ∃ lo hi, parseRange item = some (lo, hi) ∧ hi < lo

/-- An item cannot be read, ends outside of the table or names a code that is not admitted, or no item names a
command that is required. -/
def HasFault (p : CString) (max : Nat) : Prop :=
  (∃ item ∈ p.splitOn ',', parseRange item = none ∨ ∃ lo hi, parseRange item = some (lo, hi) ∧
    (inTable lo = false ∨ inTable hi = false ∨ ∃ code, lo ≤ code ∧ code ≤ hi ∧ ¬codeAdmitted max code)) ∨
  ∃ c ∈ commandProperties, c.canBeDisabled = false ∧
    ¬∃ item ∈ p.splitOn ',', ∃ lo hi, parseRange item = some (lo, hi) ∧ lo ≤ c.code ∧ c.code ≤ hi

theorem mem_rangeCodes {lo hi code : Nat} : code ∈ rangeCodes lo hi ↔ lo ≤ code ∧ code ≤ hi := by
  unfold rangeCodes
  rw [List.mem_range'_1]
  omega

theorem mem_codes {p : CString} {code : Nat} :
    code ∈ codes p ↔
      ∃ item ∈ p.splitOn ',', ∃ lo hi, parseRange item = some (lo, hi) ∧ lo ≤ code ∧ code ≤ hi := by
  unfold codes
  rw [List.mem_flatMap]
  refine exists_congr fun item => and_congr_right fun _ => ?_
  unfold tokenCodes
  cases hparse : parseRange item with
  | none => exact ⟨fun h => absurd h List.not_mem_nil, fun ⟨_, _, h, _⟩ => nomatch h⟩
  | some r =>
      obtain ⟨lo, hi⟩ := r
      simp only [mem_rangeCodes]
      constructor
      · exact fun h => ⟨lo, hi, rfl, h⟩
      · rintro ⟨lo', hi', heq, h⟩
        cases heq
        exact h

theorem accepts_iff_not_hasFault {p : CString} {max : Nat} : accepts max p ↔ ¬HasFault p max := by
  constructor
  · rintro ⟨hitems, hreq⟩ hfault
    rcases hfault with ⟨item, hmem, hbad⟩ | ⟨c, hc, hd, hnone⟩
    · obtain ⟨lo, hi, hparse, hlo, hhi, hcodes⟩ := hitems item hmem
      rcases hbad with hbad | ⟨lo', hi', hparse', hbad⟩
      · exact nomatch hparse.symm.trans hbad
      · cases hparse.symm.trans hparse'
        rcases hbad with hbad | hbad | ⟨code, hle, hge, hnot⟩
        · exact nomatch hlo.symm.trans hbad
        · exact nomatch hhi.symm.trans hbad
        · exact hnot (hcodes code (mem_rangeCodes.mpr ⟨hle, hge⟩))
    · exact hnone (mem_codes.mp (hreq c hc hd))
  · intro hsound
    constructor
    · intro item hmem
      cases hparse : parseRange item with
      | none => exact absurd (.inl ⟨item, hmem, .inl hparse⟩) hsound
      | some r =>
          obtain ⟨lo, hi⟩ := r
          have hgood : ∀ bad, (inTable lo = false ∨ inTable hi = false ∨
              ∃ code, lo ≤ code ∧ code ≤ hi ∧ ¬codeAdmitted max code) → bad := fun _ hbad =>
            absurd (.inl ⟨item, hmem, .inr ⟨lo, hi, hparse, hbad⟩⟩) hsound
          refine ⟨lo, hi, rfl, ?_, ?_, ?_⟩
          · exact Bool.of_not_eq_false fun h => hgood _ (.inl h)
          · exact Bool.of_not_eq_false fun h => hgood _ (.inr (.inl h))
          · intro code hcode
            obtain ⟨hle, hge⟩ := mem_rangeCodes.mp hcode
            by_contra hnot
            exact hgood _ (.inr (.inr ⟨code, hle, hge, hnot⟩))
    · intro c hc hd
      by_contra hnot
      exact hsound (.inr ⟨c, hc, hd, fun h => hnot (mem_codes.mpr h)⟩)

theorem acceptsForward_iff (p : CString) (max : Nat) : AcceptsForward p max ↔ (HasReversed p → HasFault p max) := by
  constructor
  · rintro h ⟨item, hmem, lo, hi, hparse, hlt⟩
    by_contra hsound
    have hok := (setProfile_ok_iff init p 0 max).mpr (accepts_iff_not_hasFault.mpr hsound)
    obtain ⟨lo', hi', hparse', hle, -⟩ := (h init 0 hok).1 item hmem
    cases hparse.symm.trans hparse'
    exact Nat.lt_irrefl _ (Nat.lt_of_lt_of_le hlt hle)
  · intro h rc level hok
    have haccepts := (setProfile_ok_iff rc p level max).mp hok
    refine ⟨?_, ?_⟩
    · intro item hmem
      obtain ⟨lo, hi, hparse, -, -, hcodes⟩ := haccepts.1 item hmem
      refine ⟨lo, hi, hparse, ?_, fun code hle hge => hcodes code (mem_rangeCodes.mpr ⟨hle, hge⟩)⟩
      by_contra hlt
      exact accepts_iff_not_hasFault.mp haccepts (h ⟨item, hmem, lo, hi, hparse, Nat.lt_of_not_le hlt⟩)
    · intro code
      rw [setProfile_listed haccepts, ← mem_codes]
      exact decide_eq_true_iff

/-- Printing and setting agree on every set that is reached, the two lists divide the implemented commands, and a list
is accepted only for forward ranges of admitted codes: exactly when a range the wrong way round does not stand in a
list without another fault. -/
theorem commandList_sound_iff (rc₀ : RuntimeCommands) (newProfile : Option CString) (level max : Nat) (p : CString)
    (maxStateFormatLevel : Nat) (h : (rc₀.setProfile newProfile level max).error ≠ some .failureMode) :
    ((rc₀.setProfile newProfile level max).state.RoundTrips ∧
      (listed (unquoted ((rc₀.setProfile newProfile level max).state.print .enabled)) ++
        listed (unquoted ((rc₀.setProfile newProfile level max).state.print .disabled))).Perm
          (commandProperties.map CommandProperty.code) ∧
      AcceptsForward p maxStateFormatLevel) ↔
    (HasReversed p → HasFault p maxStateFormatLevel) := by
  obtain ⟨hknown, hreq⟩ := setProfile_reached h
  rw [← acceptsForward_iff]
  constructor
  · rintro ⟨-, -, hforward⟩
    exact hforward
  · intro hforward
    exact ⟨roundTrips_of_required hknown hreq, print_partition _, hforward⟩

/-- The commands that are required. -/
def requiredList : CString :=
  ("0x120,0x129,0x12b,0x131,0x13c,0x143-0x145,0x148,0x14e,0x153,0x156-0x158,0x15c,0x165,0x169,0x173,0x176,0x17a," ++
    "0x17c-0x17e,0x182,0x185-0x186").toList

theorem requiredList_sound :
    (setProfile init (some requiredList) 0 7).error = none ∧
      (setProfile init (some requiredList) 0 7).state.RoundTrips ∧ AcceptsForward requiredList 7 := by
  have hok : (setProfile init (some requiredList) 0 7).error = none := by decide +kernel
  have hforward : ∀ item ∈ requiredList.splitOn ',', ∀ r ∈ parseRange item, r.1 ≤ r.2 := by decide +kernel
  obtain ⟨hround, -, haccepts⟩ :=
    (commandList_sound_iff init (some requiredList) 0 7 requiredList 7 (by rw [hok]; exact nofun)).mpr (by
      rintro ⟨item, hmem, lo, hi, hparse, hlt⟩
      exact absurd hlt (Nat.not_lt_of_le (hforward item hmem (lo, hi) hparse)))
  exact ⟨hok, hround, haccepts⟩

/-- And a range the wrong way round. -/
def reversedList : CString := requiredList ++ ",0x122-0x121".toList

theorem reversedList_accepted :
    (setProfile init (some reversedList) 0 7).error = none ∧
      parseRange "0x122-0x121".toList = some (0x122, 0x121) ∧ ¬AcceptsForward reversedList 7 := by
  have hok : (setProfile init (some reversedList) 0 7).error = none := by decide +kernel
  have hrange : parseRange "0x122-0x121".toList = some (0x122, 0x121) := by decide +kernel
  refine ⟨hok, hrange, ?_⟩
  intro h
  obtain ⟨lo, hi, hparse, hle, -⟩ := (h init 0 hok).1 "0x122-0x121".toList (by decide +kernel)
  cases hrange.symm.trans hparse
  exact absurd hle (by decide)

end RuntimeCommands
end PqcTpm
