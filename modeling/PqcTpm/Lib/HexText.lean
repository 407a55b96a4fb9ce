import PqcTpm.Lib.TextFields

/-!
# Numbers in base sixteen

What `printf` writes for `0x%x`, and that `strtoul` reads the number back, whatever follows it.
-/
namespace TextFields

/-- `0x%x`. -/
def hexText (n : Nat) : List Char := '0' :: 'x' :: Nat.toDigits 16 n

theorem digitValue_digitChar : ∀ d < 16, digitValue d.digitChar = d := by decide

theorem isDigit_digitChar {d : Nat} (h : d < 16) : isDigit 16 d.digitChar = true := by
  unfold isDigit
  rw [digitValue_digitChar d h]
  exact decide_eq_true h

theorem isDigit_of_mem_toDigits {n : Nat} {c : Char} (h : c ∈ Nat.toDigits 16 n) : isDigit 16 c = true := by
  induction n using Nat.strongRecOn generalizing c with
  | ind n ih =>
      rw [Nat.toDigits_eq_if (by decide)] at h
      split at h
      · rename_i hlt
        rw [List.mem_singleton.mp h]
        exact isDigit_digitChar hlt
      · rename_i hge
        rcases List.mem_append.mp h with hfront | hlast
        · exact ih (n / 16) (by omega) hfront
        · rw [List.mem_singleton.mp hlast]
          exact isDigit_digitChar (Nat.mod_lt n (by decide))

theorem value_toDigits (n : Nat) : (Nat.toDigits 16 n).foldl (fun v c => v * 16 + digitValue c) 0 = n := by
  induction n using Nat.strongRecOn with
  | ind n ih =>
      rw [Nat.toDigits_eq_if (by decide)]
      split
      · rename_i hlt
        rw [List.foldl_cons, List.foldl_nil, digitValue_digitChar n hlt]
        omega
      · rename_i hge
        rw [List.foldl_append, ih (n / 16) (by omega), List.foldl_cons, List.foldl_nil,
          digitValue_digitChar _ (Nat.mod_lt n (by decide))]
        omega

theorem not_mem_hexText {c : Char} (n : Nat) (hx : c ≠ 'x') (h : isDigit 16 c = false) : c ∉ hexText n := by
  intro hmem
  rcases List.mem_cons.mp hmem with rfl | hmem
  · exact absurd h (by decide)
  · rcases List.mem_cons.mp hmem with rfl | hmem
    · exact hx rfl
    · exact absurd (isDigit_of_mem_toDigits hmem) (by rw [h]; exact Bool.false_ne_true)

theorem takeWhile_stops {p : Char → Bool} {rest : List Char} (h : ∀ c ∈ rest.head?, p c = false) :
    rest.takeWhile p = [] ∧ rest.dropWhile p = rest := by
  cases rest with
  | nil => exact ⟨rfl, rfl⟩
  | cons c cs =>
      have hc : ¬p c = true := by
        rw [h c rfl]
        exact Bool.false_ne_true
      exact ⟨List.takeWhile_cons_of_neg hc, List.dropWhile_cons_of_neg hc⟩

theorem strtoul_zero (t : List Char) : strtoul ('0' :: t) 0 =
    (let r := detectBase ('0' :: t)
     let digits := r.2.takeWhile (isDigit r.1)
     let v := digits.foldl (fun v c => v * r.1 + digitValue c) 0
     if digits = [] then ⟨0, false, '0' :: t⟩
     else if 2 ^ 64 ≤ v then ⟨2 ^ 64 - 1, true, r.2.dropWhile (isDigit r.1)⟩
     else ⟨v, false, r.2.dropWhile (isDigit r.1)⟩) := rfl

theorem detectBase_hex {d : Char} (h : isDigit 16 d = true) (t : List Char) :
    detectBase ('0' :: 'x' :: d :: t) = (16, d :: t) := by
  show (if isDigit 16 d then (16, d :: t) else (8, '0' :: 'x' :: d :: t)) = _
  rw [if_pos h]

theorem strtoul_hexText {n : Nat} (hn : n < 2 ^ 64) (rest : List Char)
    (hrest : ∀ c ∈ rest.head?, isDigit 16 c = false) : strtoul (hexText n ++ rest) 0 = ⟨n, false, rest⟩ := by
  obtain ⟨d, ds, hdigits⟩ : ∃ d ds, Nat.toDigits 16 n = d :: ds := List.exists_cons_of_ne_nil Nat.toDigits_ne_nil
  have hall : ∀ c ∈ d :: ds, isDigit 16 c = true := by
    intro c hc
    rw [← hdigits] at hc
    exact isDigit_of_mem_toDigits hc
  have htake : (d :: ds ++ rest).takeWhile (isDigit 16) = d :: ds := by
    rw [List.takeWhile_append_of_pos hall, (takeWhile_stops hrest).1, List.append_nil]
  have hdrop : (d :: ds ++ rest).dropWhile (isDigit 16) = rest := by
    rw [List.dropWhile_append_of_pos hall, (takeWhile_stops hrest).2]
  have hvalue := value_toDigits n
  rw [hdigits] at hvalue
  unfold hexText
  rw [List.cons_append, strtoul_zero, hdigits, List.cons_append, List.cons_append,
    detectBase_hex (hall d List.mem_cons_self), ← List.cons_append]
  simp only [htake, hdrop, hvalue, List.cons_ne_nil, if_false, if_neg (Nat.not_le_of_lt hn)]

end TextFields
