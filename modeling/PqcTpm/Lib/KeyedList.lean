import Mathlib.Data.List.Nodup
import Mathlib.Tactic.Common

/-!
# Lists whose elements carry a key

Facts about erasing an element, by position or by its key, from a list in which
every key occurs once.
-/
namespace KeyedList
variable {α β : Type} {f : α → β}

/-- Erasing by a predicate that excludes `q` does not disturb a search for `q`. -/
theorem find?_eraseP {p q : α → Bool} (h : ∀ a, p a = true → q a = false) (l : List α) :
    (l.eraseP p).find? q = l.find? q := by
  induction l with
  | nil => rfl
  | cons a l ih =>
      cases hp : p a with
      | false => simp only [List.eraseP_cons, hp, cond_false, List.find?_cons, ih]
      | true => simp only [List.eraseP_cons, hp, cond_true, List.find?_cons, h a hp]

theorem find?_map_key [BEq β] {g : α → α} (hg : ∀ a, f (g a) = f a) (l : List α) (key : β) :
    (l.map g).find? (fun a => f a == key) = (l.find? fun a => f a == key).map g := by
  rw [List.find?_map]
  congr 2
  funext a
  simp only [Function.comp_apply, hg]

/-- Erasing the `k`-th element does not disturb a search for another key. -/
theorem find?_eraseIdx_of_ne [BEq β] [LawfulBEq β] {l : List α} {k : Nat} {a : α} (hk : l[k]? = some a) {key : β}
    (hne : f a ≠ key) : (l.eraseIdx k).find? (fun b => f b == key) = l.find? fun b => f b == key := by
  induction l generalizing k with
  | nil => rfl
  | cons x l ih =>
      cases k with
      | zero =>
          obtain rfl : x = a := by simpa using hk
          rw [List.eraseIdx_cons_zero, List.find?_cons, beq_false_of_ne hne]
      | succ k =>
          rw [List.eraseIdx_cons_succ, List.find?_cons, List.find?_cons, ih (by simpa using hk)]

/-- What is left after erasing the `k`-th element has another key than that element. -/
theorem ne_of_mem_eraseIdx {l : List α} (hnd : (l.map f).Nodup) {k : Nat} {a b : α}
    (hk : l[k]? = some a) (hb : b ∈ l.eraseIdx k) : f b ≠ f a := by
  obtain ⟨j, hjk, hj⟩ := List.mem_eraseIdx_iff_getElem?.1 hb
  intro heq
  have hj' : (l.map f)[j]? = some (f a) := by rw [List.getElem?_map, hj, Option.map_some, heq]
  have hk' : (l.map f)[k]? = some (f a) := by rw [List.getElem?_map, hk, Option.map_some]
  have hlt : j < (l.map f).length := (List.getElem?_eq_some_iff.1 hj').1
  exact hjk ((List.getElem?_inj hlt hnd).1 (hj'.trans hk'.symm))

theorem mem_eraseIdx_of_ne {l : List α} {k : Nat} {a b : α} (hk : l[k]? = some a) (hb : b ∈ l)
    (hne : b ≠ a) : b ∈ l.eraseIdx k := by
  obtain ⟨j, hj⟩ := List.mem_iff_getElem?.1 hb
  refine List.mem_eraseIdx_iff_getElem?.2 ⟨j, ?_, hj⟩
  rintro rfl
  rw [hk] at hj
  exact hne (Option.some.inj hj).symm

/-- Erasing the one element with key `b` leaves no element with that key. -/
theorem ne_of_mem_eraseP [BEq β] [LawfulBEq β] {l : List α} (hnd : (l.map f).Nodup) {b : β} {a : α}
    (ha : a ∈ l.eraseP fun x => f x == b) : f a ≠ b := by
  induction l with
  | nil => cases ha
  | cons x l ih =>
      rw [List.map_cons, List.nodup_cons] at hnd
      cases hx : f x == b with
      | true =>
          simp only [List.eraseP_cons, hx, cond_true] at ha
          rintro rfl
          exact hnd.1 (eq_of_beq hx ▸ List.mem_map_of_mem ha)
      | false =>
          simp only [List.eraseP_cons, hx, cond_false] at ha
          rcases List.mem_cons.1 ha with rfl | ha
          · exact fun h => by simp [h] at hx
          · exact ih hnd.2 ha

theorem find?_eraseIdx_self [BEq β] [LawfulBEq β] {l : List α} (hnd : (l.map f).Nodup) {k : Nat} {a : α}
    (hk : l[k]? = some a) : (l.eraseIdx k).find? (fun b => f b == f a) = none := by
  rw [List.find?_eq_none]
  intro b hb
  rw [beq_iff_eq]
  exact ne_of_mem_eraseIdx hnd hk hb

theorem find?_eraseP_self [BEq β] [LawfulBEq β] {l : List α} (hnd : (l.map f).Nodup) (b : β) :
    (l.eraseP fun x => f x == b).find? (fun x => f x == b) = none := by
  rw [List.find?_eq_none]
  intro a ha
  rw [beq_iff_eq]
  exact ne_of_mem_eraseP hnd ha

theorem map_set {l : List α} {k : Nat} {a b : α} (hk : l[k]? = some a) (hf : f b = f a) :
    (l.set k b).map f = l.map f := by
  induction l generalizing k with
  | nil => rfl
  | cons x l ih =>
      cases k with
      | zero =>
          obtain rfl : x = a := by simpa using hk
          rw [List.set_cons_zero, List.map_cons, List.map_cons, hf]
      | succ k => rw [List.set_cons_succ, List.map_cons, List.map_cons, ih (by simpa using hk)]

theorem mem_set_of_ne {l : List α} {k : Nat} {a b c : α} (hk : l[k]? = some a) (hb : b ∈ l)
    (hne : b ≠ a) : b ∈ l.set k c := by
  obtain ⟨j, hj⟩ := List.mem_iff_getElem?.1 hb
  refine List.mem_iff_getElem?.2 ⟨j, ?_⟩
  rw [List.getElem?_set_ne, hj]
  rintro rfl
  rw [hk] at hj
  exact hne (Option.some.inj hj).symm

/-- A search by key after such a replacement finds the same element or its replacement. -/
theorem find?_set [BEq β] {l : List α} {k : Nat} {a b x : α} (hk : l[k]? = some a) (hf : f b = f a)
    {key : β} (hx : l.find? (fun y => f y == key) = some x) :
    ∃ y, (l.set k b).find? (fun y => f y == key) = some y ∧ (y = x ∨ y = b ∧ x = a) := by
  induction l generalizing k with
  | nil => cases hx
  | cons z l ih =>
      cases k with
      | zero =>
          obtain rfl : z = a := by simpa using hk
          rw [List.set_cons_zero]
          simp only [List.find?_cons, hf] at hx ⊢
          cases hz : f z == key with
          | true =>
              simp only [hz, Option.some.injEq] at hx
              exact ⟨b, rfl, Or.inr ⟨rfl, hx.symm⟩⟩
          | false =>
              simp only [hz] at hx
              exact ⟨x, hx, Or.inl rfl⟩
      | succ k =>
          rw [List.set_cons_succ]
          simp only [List.find?_cons] at hx ⊢
          cases hz : f z == key with
          | true =>
              simp only [hz, Option.some.injEq] at hx
              exact ⟨z, rfl, Or.inl hx⟩
          | false =>
              simp only [hz] at hx
              exact ih (by simpa using hk) hx

end KeyedList
