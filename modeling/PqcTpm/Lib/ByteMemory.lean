import Mathlib.Data.List.GetD
import PqcTpm.Lib.ByteCodec

/-!
# A byte memory with stores at offsets

An output buffer that several writers fill in any order. A load sees what was stored
last where the two ranges meet, and what was there before elsewhere.
-/
namespace ByteMemory
open ByteCodec

abbrev Memory := Nat → UInt8

def store (m : Memory) (a : Nat) (bs : Bytes) : Memory := fun i =>
  if a ≤ i ∧ i < a + bs.length then bs.getD (i - a) 0 else m i

def load (m : Memory) (a : Nat) : Nat → Bytes
  | 0 => []
  | n + 1 => m a :: load m (a + 1) n

variable {m : Memory} {a b n k : Nat} {bs cs : Bytes}

@[simp] theorem store_nil (m : Memory) (a : Nat) : store m a [] = m := by
  funext i
  rw [store, List.length_nil, if_neg (by omega)]

@[simp] theorem load_length (m : Memory) (a n : Nat) : (load m a n).length = n := by
  induction n generalizing a with
  | zero => rfl
  | succ n ih => simp only [load, List.length_cons, ih]

theorem load_congr {m' : Memory} (h : ∀ i, a ≤ i → i < a + n → m i = m' i) : load m a n = load m' a n := by
  induction n generalizing a with
  | zero => rfl
  | succ n ih =>
      rw [load, load, h a (Nat.le_refl a) (by omega), ih fun i hlo hhi => h i (by omega) (by omega)]

theorem load_add (m : Memory) (a n k : Nat) : load m a (n + k) = load m a n ++ load m (a + n) k := by
  induction n generalizing a with
  | zero => rw [Nat.zero_add, load, List.nil_append, Nat.add_zero]
  | succ n ih =>
      rw [Nat.succ_add, load, load, ih, List.cons_append, Nat.add_assoc, Nat.add_comm 1 n]

theorem load_store_disjoint (h : a + n ≤ b ∨ b + bs.length ≤ a) : load (store m b bs) a n = load m a n := by
  apply load_congr
  intro i hlo hhi
  rw [store, if_neg (by omega)]

theorem load_store_tail (m : Memory) (a : Nat) (x : UInt8) (bs : Bytes) :
    load (store m a (x :: bs)) (a + 1) bs.length = load (store m (a + 1) bs) (a + 1) bs.length := by
  apply load_congr
  intro i hlo hhi
  rw [store, store, if_pos ⟨by omega, by rw [List.length_cons]; omega⟩, if_pos ⟨hlo, hhi⟩]
  obtain ⟨j, rfl⟩ : ∃ j, i = a + 1 + j := ⟨i - (a + 1), by omega⟩
  rw [show a + 1 + j - a = j + 1 by omega, show a + 1 + j - (a + 1) = j by omega, List.getD_cons_succ]

@[simp] theorem load_store_same (m : Memory) (a : Nat) (bs : Bytes) :
    load (store m a bs) a bs.length = bs := by
  induction bs generalizing a with
  | nil => rfl
  | cons x bs ih =>
      have hhead : store m a (x :: bs) a = x := by
        simp [store]
      rw [List.length_cons, load, hhead, load_store_tail, ih]

theorem load_store_eq (h : n = bs.length) : load (store m a bs) a n = bs := by
  rw [h, load_store_same]

theorem getD_load (h : k < n) : (load m a n).getD k 0 = m (a + k) := by
  induction n generalizing a k with
  | zero => omega
  | succ n ih =>
      cases k with
      | zero => rfl
      | succ k =>
          rw [load, List.getD_cons_succ, ih (Nat.lt_of_succ_lt_succ h)]
          congr 1
          omega

theorem store_load (h : load m a bs.length = bs) : store m a bs = m := by
  funext i
  rw [store]
  split
  · rename_i hi
    have hget := getD_load (m := m) (a := a) (k := i - a) (n := bs.length) (by omega)
    rw [h] at hget
    rw [hget]
    congr 1
    omega
  · rfl

theorem store_append (m : Memory) (a : Nat) (bs cs : Bytes) :
    store (store m a bs) (a + bs.length) cs = store m a (bs ++ cs) := by
  funext i
  simp only [store, List.length_append]
  by_cases hlo : a ≤ i
  · obtain ⟨j, rfl⟩ : ∃ j, i = a + j := ⟨i - a, by omega⟩
    by_cases hfirst : j < bs.length
    · rw [if_neg (by omega), if_pos (by omega), if_pos (by omega), Nat.add_sub_cancel_left,
        List.getD_append _ _ _ _ hfirst]
    · by_cases hsecond : j < bs.length + cs.length
      · rw [if_pos (by omega), if_pos (by omega), Nat.add_sub_cancel_left,
          List.getD_append_right _ _ _ _ (by omega), Nat.add_sub_add_left]
      · rw [if_neg (by omega), if_neg (by omega), if_neg (by omega)]
  · rw [if_neg (by omega), if_neg (by omega), if_neg (by omega)]

end ByteMemory
