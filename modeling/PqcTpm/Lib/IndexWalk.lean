import Mathlib.Data.List.Range
import Mathlib.Tactic.Common

/-!
# Walks over the indexes of a table

A search for the first index from a place on that qualifies, and the walk of a caller who goes from one
index to the next until there is none. Both may stop early with an error.
-/
namespace IndexWalk

variable {ε : Type}

/-- The first index from `i` on, below `count`, that qualifies. -/
def firstFrom (p : Nat → Bool) (count i : Nat) : Option Nat := (List.range' i (count - i)).find? p

/-- The indexes from `i` on, below `count`, that qualify. -/
def allFrom (p : Nat → Bool) (count i : Nat) : List Nat := (List.range' i (count - i)).filter p

section
variable {p : Nat → Bool} {count i j : Nat}

theorem range'_cons (h : i < count) : List.range' i (count - i) = i :: List.range' (i + 1) (count - (i + 1)) := by
  have hlen : count - i = count - (i + 1) + 1 := by omega
  rw [hlen]
  exact List.range'_succ

theorem firstFrom_of_le (h : count ≤ i) : firstFrom p count i = none := by
  unfold firstFrom
  rw [Nat.sub_eq_zero_of_le h]
  rfl

theorem firstFrom_hit (h : i < count) (hp : p i = true) : firstFrom p count i = some i := by
  unfold firstFrom
  rw [range'_cons h, List.find?_cons_of_pos hp]

theorem firstFrom_miss (h : i < count) (hp : p i = false) : firstFrom p count i = firstFrom p count (i + 1) := by
  unfold firstFrom
  rw [range'_cons h, List.find?_cons_of_neg (by rw [hp]; exact Bool.false_ne_true)]

theorem mem_allFrom : j ∈ allFrom p count i ↔ i ≤ j ∧ j < count ∧ p j = true := by
  unfold allFrom
  rw [List.mem_filter, List.mem_range'_1]
  constructor
  · rintro ⟨⟨hle, hlt⟩, hp⟩
    exact ⟨hle, by omega, hp⟩
  · rintro ⟨hle, hlt, hp⟩
    exact ⟨⟨hle, by omega⟩, hp⟩

theorem allFrom_ascending (p : Nat → Bool) (count i : Nat) : (allFrom p count i).Pairwise (· < ·) :=
  List.Pairwise.filter _ List.pairwise_lt_range'

/-- What is left of the list begins with what the search finds. -/
theorem allFrom_eq (p : Nat → Bool) (count i : Nat) :
    allFrom p count i = match firstFrom p count i with
      | none => []
      | some j => j :: allFrom p count (j + 1) := by
  induction hn : count - i generalizing i with
  | zero =>
      rw [firstFrom_of_le (by omega)]
      unfold allFrom
      rw [hn]
      rfl
  | succ n ih =>
      have hi : i < count := by omega
      cases hp : p i with
      | true =>
          rw [firstFrom_hit hi hp]
          unfold allFrom
          rw [range'_cons hi, List.filter_cons_of_pos hp]
      | false =>
          rw [firstFrom_miss hi hp, ← ih (i + 1) (by omega)]
          unfold allFrom
          rw [range'_cons hi, List.filter_cons_of_neg (by rw [hp]; exact Bool.false_ne_true)]

theorem firstFrom_some (h : firstFrom p count i = some j) : i ≤ j ∧ j < count ∧ p j = true := by
  have hmem : j ∈ allFrom p count i := by
    rw [allFrom_eq, h]
    exact List.mem_cons_self
  exact mem_allFrom.mp hmem

end

/-! ## The walk -/

/-- A caller who follows `next` from an index on, and the indexes that are visited. -/
inductive Walk (next : Nat → Except ε (Option Nat)) : Option Nat → List Nat → Prop
  | done : Walk next none []
  | visit {i o l} (hnext : next i = .ok o) (hrest : Walk next o l) : Walk next (some i) (i :: l)

theorem Walk.unique {next : Nat → Except ε (Option Nat)} {o : Option Nat} {l l' : List Nat} (h : Walk next o l)
    (h' : Walk next o l') : l = l' := by
  induction h generalizing l' with
  | done => cases h'; rfl
  | visit hnext hrest ih =>
      cases h' with
      | visit hnext' hrest' =>
          cases hnext.symm.trans hnext'
          rw [ih hrest']

section
variable {p : Nat → Bool} {count : Nat} {next : Nat → Except ε (Option Nat)}

theorem walk_allFrom (hnext : ∀ i < count, next i = .ok (firstFrom p count (i + 1))) (i : Nat) :
    Walk next (firstFrom p count i) (allFrom p count i) := by
  induction hn : count - i using Nat.strongRecOn generalizing i with
  | ind n ih =>
      rw [allFrom_eq]
      cases hfirst : firstFrom p count i with
      | none => exact .done
      | some j =>
          obtain ⟨hle, hlt, -⟩ := firstFrom_some hfirst
          exact .visit (hnext j hlt) (ih (count - (j + 1)) (by omega) (j + 1) rfl)

end

end IndexWalk
