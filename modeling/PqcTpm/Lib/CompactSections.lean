import Mathlib.Data.List.Basic
import PqcTpm.Lib.PackedList

/-!
# Sections without holes

A table gives every file an offset and a size in one address space, and the sections of the files in use lie
one behind the other, in an order that the table does not say. What that tells about two of them, and how it
outlives a new section at the end and the removal of one in the middle.
-/
namespace ByteMemory
open ByteCodec

variable {m m' : Memory} {a b n k src dst len : Nat}

theorem load_shift (h : ∀ i, i < n → m (a + i) = m' (b + i)) : load m a n = load m' b n := by
  induction n generalizing a b with
  | zero => rfl
  | succ n ih =>
      have hhead : m a = m' b := h 0 (Nat.succ_pos n)
      rw [load, load, hhead]
      congr 1
      apply ih
      intro i hi
      have htail := h (i + 1) (Nat.succ_lt_succ hi)
      rwa [← Nat.add_assoc, ← Nat.add_assoc, Nat.add_right_comm a, Nat.add_right_comm b] at htail

theorem load_move (h : k + len ≤ n) : load (move m src dst n) (dst + k) len = load m (src + k) len := by
  apply load_shift
  intro i hi
  have hget := getD_load (m := m) (a := src) (k := k + i) (n := n) (by omega)
  rw [move, store, if_pos ⟨by omega, by rw [load_length]; omega⟩, show dst + k + i - dst = k + i by omega, hget,
    Nat.add_assoc]

end ByteMemory

namespace CompactSections

variable {ι : Type} {offset size offset' size' : ι → Nat} {start : Nat} {order xs ys : List ι} {i j f : ι}

/-- From `start` on the sections lie one behind the other in this order. -/
def Packed (offset size : ι → Nat) : Nat → List ι → Prop
  | _, [] => True
  | start, i :: is => offset i = start ∧ Packed offset size (start + size i) is

/-- Where the last of them ends. -/
def endOf (size : ι → Nat) (start : Nat) (order : List ι) : Nat := start + (order.map size).sum

@[simp] theorem endOf_nil : endOf size start [] = start := rfl

theorem endOf_cons : endOf size start (i :: xs) = endOf size (start + size i) xs := by
  simp only [endOf, List.map_cons, List.sum_cons, Nat.add_assoc]

theorem endOf_append : endOf size start (xs ++ ys) = endOf size (endOf size start xs) ys := by
  simp only [endOf, List.map_append, List.sum_append_nat, Nat.add_assoc]

theorem le_endOf : start ≤ endOf size start order := Nat.le_add_right _ _

theorem endOf_congr (h : ∀ i ∈ order, size' i = size i) : endOf size' start order = endOf size start order := by
  rw [endOf, endOf, List.map_congr_left h]

theorem endOf_le {bound : Nat} (h : ∀ i ∈ order, size i ≤ bound) : endOf size start order ≤ start + order.length * bound := by
  induction order generalizing start with
  | nil => simp
  | cons i is ih =>
      have hi := h i List.mem_cons_self
      have his : endOf size (start + size i) is ≤ start + size i + is.length * bound := ih fun j hj => h j (List.mem_cons_of_mem i hj)
      rw [endOf_cons, List.length_cons, Nat.add_one_mul]
      omega

namespace Packed

theorem append_iff : Packed offset size start (xs ++ ys) ↔
    Packed offset size start xs ∧ Packed offset size (endOf size start xs) ys := by
  induction xs generalizing start with
  | nil => simp [Packed]
  | cons x xs ih => rw [List.cons_append, Packed, Packed, ih, endOf_cons, and_assoc]

theorem congr (h : Packed offset size start order) (ho : ∀ i ∈ order, offset' i = offset i)
    (hs : ∀ i ∈ order, size' i = size i) : Packed offset' size' start order := by
  induction order generalizing start with
  | nil => trivial
  | cons i is ih =>
      refine ⟨(ho i List.mem_cons_self).trans h.1, ?_⟩
      rw [hs i List.mem_cons_self]
      exact ih h.2 (fun j hj => ho j (List.mem_cons_of_mem i hj)) fun j hj => hs j (List.mem_cons_of_mem i hj)

theorem shift {d : Nat} (h : Packed offset size (start + d) order) (ho : ∀ i ∈ order, offset' i + d = offset i)
    (hs : ∀ i ∈ order, size' i = size i) : Packed offset' size' start order := by
  induction order generalizing start with
  | nil => trivial
  | cons i is ih =>
      have hi := ho i List.mem_cons_self
      have hstart := h.1
      refine ⟨by omega, ?_⟩
      apply ih
      · rw [hs i List.mem_cons_self, Nat.add_right_comm]
        exact h.2
      · intro j hj
        exact ho j (List.mem_cons_of_mem i hj)
      · intro j hj
        exact hs j (List.mem_cons_of_mem i hj)

theorem bounds (h : Packed offset size start order) (hi : i ∈ order) :
    start ≤ offset i ∧ offset i + size i ≤ endOf size start order := by
  induction order generalizing start with
  | nil => cases hi
  | cons j js ih =>
      rw [endOf_cons]
      rcases List.mem_cons.mp hi with rfl | hi
      · exact ⟨Nat.le_of_eq h.1.symm, h.1 ▸ le_endOf⟩
      · obtain ⟨hlo, hhi⟩ := ih h.2 hi
        exact ⟨by omega, hhi⟩

theorem middle (h : Packed offset size start (xs ++ f :: ys)) :
    Packed offset size start xs ∧ offset f = endOf size start xs ∧ Packed offset size (offset f + size f) ys := by
  obtain ⟨hxs, hf, hys⟩ := append_iff.mp h
  rw [← hf] at hys
  exact ⟨hxs, hf, hys⟩

theorem before (h : Packed offset size start (xs ++ f :: ys)) (hi : i ∈ xs) : offset i + size i ≤ offset f := by
  obtain ⟨hxs, hf, -⟩ := h.middle
  rw [hf]
  exact (hxs.bounds hi).2

theorem behind (h : Packed offset size start (xs ++ f :: ys)) (hi : i ∈ ys) : offset f + size f ≤ offset i :=
  (h.middle.2.2.bounds hi).1

theorem disjoint (h : Packed offset size start order) (hi : i ∈ order) (hj : j ∈ order) (hne : i ≠ j) :
    offset i + size i ≤ offset j ∨ offset j + size j ≤ offset i := by
  obtain ⟨xs, ys, rfl⟩ := List.append_of_mem hj
  rcases List.mem_append.mp hi with hx | hy
  · exact .inl (h.before hx)
  · exact .inr (h.behind ((List.mem_cons.mp hy).resolve_left hne))

theorem snoc (h : Packed offset size start order) (ho : offset f = endOf size start order) :
    Packed offset size start (order ++ [f]) :=
  append_iff.mpr ⟨h, ho, trivial⟩

theorem remove (h : Packed offset size start (xs ++ f :: ys)) (hxs : ∀ i ∈ xs, offset' i = offset i)
    (hys : ∀ i ∈ ys, offset' i + size f = offset i) (hs : ∀ i ∈ xs ++ ys, size' i = size i) :
    Packed offset' size' start (xs ++ ys) := by
  obtain ⟨hbefore, hf, hbehind⟩ := h.middle
  have hsx : ∀ i ∈ xs, size' i = size i := fun i hi => hs i (List.mem_append_left ys hi)
  refine append_iff.mpr ⟨hbefore.congr hxs hsx, ?_⟩
  rw [endOf_congr hsx, ← hf]
  exact hbehind.shift hys fun i hi => hs i (List.mem_append_right xs hi)

end Packed

theorem endOf_remove (hs : ∀ i ∈ xs ++ ys, size' i = size i) :
    endOf size' start (xs ++ ys) + size f = endOf size start (xs ++ f :: ys) := by
  rw [endOf_congr hs]
  simp only [endOf, List.map_append, List.map_cons, List.sum_append_nat, List.sum_cons]
  omega

theorem exists_endOf (h : Packed offset size start order) (hne : order ≠ []) :
    ∃ i ∈ order, offset i + size i = endOf size start order := by
  obtain ⟨xs, l, rfl⟩ : ∃ xs l, order = xs ++ [l] := ⟨_, _, (List.dropLast_append_getLast hne).symm⟩
  have hl := h.middle.2.1
  refine ⟨l, List.mem_append_right xs List.mem_cons_self, ?_⟩
  rw [hl, endOf_append, endOf_cons, endOf_nil]

end CompactSections
