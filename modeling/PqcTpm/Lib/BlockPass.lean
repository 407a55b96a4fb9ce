import Mathlib.Tactic.Common
import Mathlib.Data.List.Basic

/-!
# A pass over the blocks of a text

A text is cut into blocks of one size, of which the last may be shorter, and a step with a state goes over them. If
every step is undone by another that reaches the same state, the pass is; and a text may be given in pieces.
-/
namespace BlockPass

section Pass
variable {α σ : Type} {n : Nat}

/-- The loop; every turn consumes something, so the length of the text is enough fuel. -/
def passFuel (n : Nat) (step : σ → List α → List α × σ) : Nat → σ → List α → List α × σ
  | 0, s, _ => ([], s)
  | fuel + 1, s, text =>
      if text.isEmpty then ([], s)
      else
        let head := step s (text.take n)
        let rest := passFuel n step fuel head.2 (text.drop n)
        (head.1 ++ rest.1, rest.2)

/-- What the steps make of the blocks, and the last state. -/
def pass (n : Nat) (step : σ → List α → List α × σ) (s : σ) (text : List α) : List α × σ :=
  passFuel n step text.length s text

variable {step : σ → List α → List α × σ}

theorem passFuel_eq (hn : 0 < n) (step : σ → List α → List α × σ) {fuel : Nat} {text : List α} (h : text.length ≤ fuel) (s : σ) :
    passFuel n step fuel s text = pass n step s text := by
  induction fuel using Nat.strongRecOn generalizing text s with
  | ind fuel ih =>
      cases fuel with
      | zero =>
          rw [List.length_eq_zero_iff.mp (Nat.le_zero.mp h)]
          rfl
      | succ fuel =>
          cases text with
          | nil => rfl
          | cons a text =>
              have hdrop : ((a :: text).drop n).length ≤ text.length := by
                rw [List.length_drop, List.length_cons]
                omega
              have hshort : text.length ≤ fuel := Nat.le_of_succ_le_succ h
              have hrest (s : σ) : passFuel n step fuel s ((a :: text).drop n) =
                  passFuel n step text.length s ((a :: text).drop n) := by
                rw [ih fuel (Nat.lt_succ_self _) (Nat.le_trans hdrop hshort)]
                by_cases hlt : text.length < fuel + 1
                · exact (ih text.length hlt hdrop s).symm
                · omega
              rw [pass, List.length_cons, passFuel, passFuel]
              dsimp only
              rw [hrest]

@[simp] theorem pass_nil (s : σ) : pass n step s [] = ([], s) := rfl

theorem pass_eq (hn : 0 < n) (step : σ → List α → List α × σ) (s : σ) {text : List α} (h : text ≠ []) :
    pass n step s text =
      ((step s (text.take n)).1 ++ (pass n step (step s (text.take n)).2 (text.drop n)).1,
        (pass n step (step s (text.take n)).2 (text.drop n)).2) := by
  have hlength : 0 < text.length := List.length_pos_of_ne_nil h
  obtain ⟨fuel, hfuel⟩ := Nat.exists_eq_succ_of_ne_zero (Nat.ne_of_gt hlength)
  have hdrop : (text.drop n).length ≤ fuel := by
    rw [List.length_drop]
    omega
  rw [pass, hfuel, passFuel, if_neg (by simpa using h)]
  dsimp only
  rw [passFuel_eq hn step hdrop]

/-- Induction over the blocks of a text. -/
theorem block_induction (hn : 0 < n) {P : List α → Prop} (hnil : P [])
    (hstep : ∀ text, text ≠ [] → P (text.drop n) → P text) (text : List α) : P text := by
  induction hlength : text.length using Nat.strongRecOn generalizing text with
  | ind length ih =>
      by_cases h : text = []
      · exact h ▸ hnil
      · have hpos := List.length_pos_of_ne_nil h
        exact hstep text h (ih (text.drop n).length (by rw [List.length_drop]; omega) _ rfl)

theorem pass_append (hn : 0 < n) (s : σ) {first : List α} (h : n ∣ first.length) (second : List α) :
    pass n step s (first ++ second) =
      ((pass n step s first).1 ++ (pass n step (pass n step s first).2 second).1,
        (pass n step (pass n step s first).2 second).2) := by
  induction first using block_induction hn generalizing s with
  | hnil => rfl
  | hstep first hfirst ih =>
      have hle : n ≤ first.length := Nat.le_of_dvd (List.length_pos_of_ne_nil hfirst) h
      have hdvd : n ∣ (first.drop n).length := by
        rw [List.length_drop]
        exact Nat.dvd_sub h (Nat.dvd_refl n)
      rw [pass_eq hn step s (List.append_ne_nil_of_left_ne_nil hfirst second), pass_eq hn step s hfirst,
        List.take_append_of_le_length hle, List.drop_append_of_le_length hle, ih _ hdvd, List.append_assoc]

end Pass

section Undo
variable {α σ : Type} {n : Nat} {enc dec : σ → List α → List α × σ} {good : σ → Prop} {whole : List α → Prop}

/-- On the blocks in question `dec` undoes `enc` and goes to the same state. -/
structure Undoes (good : σ → Prop) (whole : List α → Prop) (enc dec : σ → List α → List α × σ) : Prop where
  keeps : ∀ s block, good s → whole block → good (enc s block).2
  length : ∀ s block, good s → whole block → (enc s block).1.length = block.length
  undo : ∀ s block, good s → whole block → dec s (enc s block).1 = (block, (enc s block).2)

/-- Every block of the text qualifies. -/
def EveryBlock (n : Nat) (whole : List α → Prop) (text : List α) : Prop :=
  ∀ k, k * n < text.length → whole ((text.drop (k * n)).take n)

theorem EveryBlock.head {text : List α} (h : EveryBlock n whole text) (hne : text ≠ []) : whole (text.take n) := by
  have hfirst := h 0
  rw [Nat.zero_mul] at hfirst
  exact hfirst (List.length_pos_of_ne_nil hne)

theorem EveryBlock.tail {text : List α} (h : EveryBlock n whole text) : EveryBlock n whole (text.drop n) := by
  intro k hk
  rw [List.length_drop] at hk
  have hblock := h (k + 1)
  rw [Nat.succ_mul] at hblock
  rw [List.drop_drop, Nat.add_comm n]
  exact hblock (by omega)

theorem everyBlock_of_le (hn : 0 < n) (hwhole : ∀ block : List α, block ≠ [] → block.length ≤ n → whole block) (text : List α) :
    EveryBlock n whole text := by
  intro k hk
  refine hwhole _ (fun hnil => ?_) (List.length_take_le n _)
  have hlength := congrArg List.length hnil
  rw [List.length_take, List.length_drop, List.length_nil] at hlength
  omega

theorem everyBlock_of_dvd (hwhole : ∀ block : List α, block.length = n → whole block) {text : List α} (h : n ∣ text.length) :
    EveryBlock n whole text := by
  obtain ⟨count, hcount⟩ := h
  intro k hk
  refine hwhole _ ?_
  have hlt : k < count := by
    rw [hcount, Nat.mul_comm n] at hk
    exact Nat.lt_of_mul_lt_mul_right hk
  have hroom : k * n + n ≤ count * n := by
    rw [← Nat.succ_mul]
    exact Nat.mul_le_mul_right n hlt
  rw [List.length_take, List.length_drop, hcount, Nat.mul_comm n]
  omega

theorem pass_keeps (hn : 0 < n) (hkeeps : ∀ s block, good s → whole block → good (enc s block).2) {text : List α} {s : σ}
    (hs : good s) (hblocks : EveryBlock n whole text) : good (pass n enc s text).2 := by
  induction text using block_induction hn generalizing s with
  | hnil => exact hs
  | hstep text htext ih =>
      rw [pass_eq hn enc s htext]
      exact ih (hkeeps s _ hs (hblocks.head htext)) hblocks.tail

variable (h : Undoes good whole enc dec)
include h

theorem Undoes.pass_length (hn : 0 < n) {text : List α} {s : σ} (hs : good s) (hblocks : EveryBlock n whole text) :
    (pass n enc s text).1.length = text.length := by
  induction text using block_induction hn generalizing s with
  | hnil => rfl
  | hstep text htext ih =>
      have hhead := hblocks.head htext
      rw [pass_eq hn enc s htext, List.length_append, ih (h.keeps s _ hs hhead) hblocks.tail, h.length s _ hs hhead,
        ← List.length_append, List.take_append_drop]

/-- The pass of the one over what the other has made gives the text back, and the states agree. -/
theorem Undoes.pass (hn : 0 < n) {text : List α} {s : σ} (hs : good s) (hblocks : EveryBlock n whole text) :
    BlockPass.pass n dec s (BlockPass.pass n enc s text).1 = (text, (BlockPass.pass n enc s text).2) := by
  induction text using block_induction hn generalizing s with
  | hnil => rfl
  | hstep text htext ih =>
      have hhead := hblocks.head htext
      have hkeeps := h.keeps s _ hs hhead
      have hlength := h.length s _ hs hhead
      have hpieces : ((enc s (text.take n)).1 ++ (BlockPass.pass n enc (enc s (text.take n)).2 (text.drop n)).1).take n =
            (enc s (text.take n)).1 ∧
          ((enc s (text.take n)).1 ++ (BlockPass.pass n enc (enc s (text.take n)).2 (text.drop n)).1).drop n =
            (BlockPass.pass n enc (enc s (text.take n)).2 (text.drop n)).1 := by
        rw [List.length_take] at hlength
        by_cases hlong : n ≤ text.length
        · rw [Nat.min_eq_left hlong] at hlength
          exact ⟨List.take_left' hlength, List.drop_left' hlength⟩
        · have hempty : text.drop n = [] := List.drop_eq_nil_of_le (by omega)
          rw [hempty, pass_nil, List.append_nil]
          exact ⟨List.take_of_length_le (by omega), List.drop_eq_nil_of_le (by omega)⟩
      have hne : (enc s (text.take n)).1 ++ (BlockPass.pass n enc (enc s (text.take n)).2 (text.drop n)).1 ≠ [] := by
        apply List.append_ne_nil_of_left_ne_nil
        apply List.ne_nil_of_length_pos
        have hpos := List.length_pos_of_ne_nil htext
        rw [hlength, List.length_take]
        omega
      rw [pass_eq hn enc s htext]
      dsimp only
      rw [pass_eq hn dec s hne, hpieces.1, hpieces.2, h.undo s _ hs hhead]
      dsimp only
      rw [ih hkeeps hblocks.tail, List.take_append_drop]

end Undo

end BlockPass
