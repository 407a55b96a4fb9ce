import Mathlib.Data.List.Basic
import Mathlib.Tactic.Common

/-!
# Truncated counters

A counter hands out its value and counts on, and of a value that has been handed out
only the residue modulo `m` is kept. While every value kept is at most one turn of `m`
behind the counter the residue determines the value, and the values are ordered by the
distance of their residues from the counter's own.
-/
namespace TruncatedCounter

/-- `id` has been handed out by a counter that now stands at `n`, no more than one turn ago. -/
structure Live (m n id : Nat) : Prop where
  before : id < n
  recent : n ≤ id + m

variable {m n id id' : Nat}

theorem eq_of_mod_eq (hle : id ≤ id') (hlt : id' < id + m) (hmod : id % m = id' % m) : id = id' := by
  have hdiff : (id' - id) % m = 0 := Nat.sub_mod_eq_zero_of_mod_eq hmod.symm
  rw [Nat.mod_eq_of_lt (by omega)] at hdiff
  omega

theorem Live.eq_of_mod_eq (h : Live m n id) (h' : Live m n id') (hmod : id % m = id' % m) : id = id' := by
  have hbefore := h.before
  have hbefore' := h'.before
  have hrecent := h.recent
  have hrecent' := h'.recent
  rcases Nat.le_total id id' with hle | hle
  · exact TruncatedCounter.eq_of_mod_eq hle (by omega) hmod
  · exact (TruncatedCounter.eq_of_mod_eq hle (by omega) hmod.symm).symm

/-- A value that has been handed out again, as far as its residue shows, is more than one turn old. -/
theorem stale (hlt : id < id') (hbefore : id' < n) (hmod : id % m = id' % m) : m < n - id := by
  by_contra hgap
  have heq := TruncatedCounter.eq_of_mod_eq (Nat.le_of_lt hlt) (by omega) hmod
  omega

theorem Live.age (h : Live m n id) (hm : 0 < m) : (id % m + m - n % m) % m = id + m - n := by
  have hbefore := h.before
  have hrecent := h.recent
  have hn := Nat.div_add_mod n m
  have hid := Nat.div_add_mod id m
  have hlt := Nat.mod_lt n hm
  have hlt' := Nat.mod_lt id hm
  have hshift : (id % m + m - n % m) + m * (id / m) = (id + m - n) + m * (n / m) := by omega
  calc (id % m + m - n % m) % m
      = ((id % m + m - n % m) + m * (id / m)) % m := (Nat.add_mul_mod_self_left ..).symm
    _ = ((id + m - n) + m * (n / m)) % m := by rw [hshift]
    _ = (id + m - n) % m := Nat.add_mul_mod_self_left ..
    _ = id + m - n := Nat.mod_eq_of_lt (by omega)

theorem Live.next (h : Live m n id) (hne : n % m ≠ id % m) : Live m (n + 1) id := by
  refine ⟨Nat.lt_succ_of_lt h.before, ?_⟩
  have hrecent := h.recent
  by_contra hgap
  have hn : n = id + m := by omega
  rw [hn, Nat.add_mod_right] at hne
  exact hne rfl

theorem Live.skip {j : Nat} (h : Live m n id) (hturn : n % m = 0) (hj : j ≤ id % m) : Live m (n + j) id := by
  refine ⟨Nat.lt_of_lt_of_le h.before (Nat.le_add_right n j), ?_⟩
  have hbefore := h.before
  have hrecent := h.recent
  have hn := Nat.div_add_mod n m
  have hid := Nat.div_add_mod id m
  have hlt : m * (id / m) < m * (n / m) := by omega
  have hq : id / m + 1 ≤ n / m := Nat.lt_of_mul_lt_mul_left hlt
  have hturns : m * (id / m) + m ≤ m * (n / m) := by
    rw [← Nat.mul_succ]
    exact Nat.mul_le_mul_left m hq
  rcases Nat.lt_or_ge (id / m + 1) (n / m) with hfar | hnear
  · have hfar' : m * (id / m + 1 + 1) ≤ m * (n / m) := Nat.mul_le_mul_left m hfar
    rw [Nat.mul_succ, Nat.mul_succ] at hfar'
    have hpos : id % m < m := Nat.mod_lt _ (by omega)
    omega
  · have heq : n / m = id / m + 1 := by omega
    rw [heq, Nat.mul_succ] at hn
    omega

/-! ## The last of the least -/

section Scan
variable {ι β : Type} (key : ι → Option Nat) (val : ι → β)

/-- One round of a search for the smallest key, a later entry winning over an equal one. -/
def leastStep (acc : Nat × β) (i : ι) : Nat × β :=
  match key i with
  | none => acc
  | some a => if a ≤ acc.1 then (a, val i) else acc

/-- The search ends where it began, all keys being larger, or at an entry with the smallest key. -/
theorem foldl_leastStep (l : List ι) (acc : Nat × β) :
    (l.foldl (leastStep key val) acc = acc ∧ ∀ i ∈ l, ∀ a, key i = some a → acc.1 < a) ∨
      ∃ i ∈ l, ∃ a, key i = some a ∧ a ≤ acc.1 ∧ l.foldl (leastStep key val) acc = (a, val i) ∧
        ∀ j ∈ l, ∀ b, key j = some b → a ≤ b := by
  induction l generalizing acc with
  | nil => exact .inl ⟨rfl, by simp⟩
  | cons x l ih =>
      rw [List.foldl_cons]
      cases hx : key x with
      | none =>
          have hstep : leastStep key val acc x = acc := by simp [leastStep, hx]
          rw [hstep]
          rcases ih acc with ⟨hsame, hlarger⟩ | ⟨i, hi, a, ha, hle, hres, hmin⟩
          · refine .inl ⟨hsame, ?_⟩
            simpa [hx] using hlarger
          · refine .inr ⟨i, List.mem_cons_of_mem x hi, a, ha, hle, hres, ?_⟩
            simpa [hx] using hmin
      | some a =>
          by_cases hle : a ≤ acc.1
          · have hstep : leastStep key val acc x = (a, val x) := by simp [leastStep, hx, hle]
            rw [hstep]
            rcases ih (a, val x) with ⟨hsame, hlarger⟩ | ⟨i, hi, b, hb, hble, hres, hmin⟩
            · refine .inr ⟨x, List.mem_cons_self, a, hx, hle, hsame, ?_⟩
              intro j hj b hb
              rcases List.mem_cons.1 hj with rfl | hj
              · rw [hx] at hb
                cases hb
                exact Nat.le_refl a
              · exact Nat.le_of_lt (hlarger j hj b hb)
            · refine .inr ⟨i, List.mem_cons_of_mem x hi, b, hb, Nat.le_trans hble hle, hres, ?_⟩
              intro j hj c hc
              rcases List.mem_cons.1 hj with rfl | hj
              · rw [hx] at hc
                cases hc
                exact hble
              · exact hmin j hj c hc
          · have hstep : leastStep key val acc x = acc := by simp [leastStep, hx, hle]
            rw [hstep]
            rcases ih acc with ⟨hsame, hlarger⟩ | ⟨i, hi, b, hb, hble, hres, hmin⟩
            · refine .inl ⟨hsame, ?_⟩
              intro j hj b hb
              rcases List.mem_cons.1 hj with rfl | hj
              · rw [hx] at hb
                cases hb
                exact Nat.lt_of_not_le hle
              · exact hlarger j hj b hb
            · refine .inr ⟨i, List.mem_cons_of_mem x hi, b, hb, hble, hres, ?_⟩
              intro j hj c hc
              rcases List.mem_cons.1 hj with rfl | hj
              · rw [hx] at hc
                cases hc
                omega
              · exact hmin j hj c hc

end Scan

end TruncatedCounter
