import Mathlib.Data.List.Basic
import Mathlib.Data.List.Nodup
import Mathlib.Tactic.Common

/-!
# Taking so many elements of several lists

A reader with room for `n` elements goes over several lists in their order: it takes the lists whole while there is
room, the front of the one in which the room ends, and nothing behind it. The places of the elements that are
taken are the first `n` of all, and what is left are the others, so that rounds over what is left come to
every place once.
-/
namespace Rounds
variable {α β σ : Type}

/-- The front of the lists, `n` elements in all. -/
def takeAcross : Nat → List (List α) → List (List α)
  | _, [] => []
  | n, xs :: xss => xs.take n :: takeAcross (n - xs.length) xss

/-- The lists without their front. -/
def dropAcross : Nat → List (List α) → List (List α)
  | _, [] => []
  | n, xs :: xss => xs.drop n :: dropAcross (n - xs.length) xss

/-- The elements with the number of their list, counted from `i`. -/
def places : Nat → List (List α) → List (Nat × α)
  | _, [] => []
  | i, xs :: xss => xs.map (fun x => (i, x)) ++ places (i + 1) xss

theorem places_takeAcross (n i : Nat) (xss : List (List α)) : places i (takeAcross n xss) = (places i xss).take n := by
  induction xss generalizing n i with
  | nil => exact List.take_nil.symm
  | cons xs xss ih =>
      simp only [takeAcross, places]
      rw [ih, List.take_append, List.length_map, List.map_take]

theorem places_dropAcross (n i : Nat) (xss : List (List α)) : places i (dropAcross n xss) = (places i xss).drop n := by
  induction xss generalizing n i with
  | nil => exact List.drop_nil.symm
  | cons xs xss ih =>
      simp only [dropAcross, places]
      rw [ih, List.drop_append, List.length_map, List.map_drop]

theorem le_of_mem_places {i : Nat} {xss : List (List α)} {p : Nat × α} (h : p ∈ places i xss) : i ≤ p.1 := by
  induction xss generalizing i with
  | nil => exact absurd h List.not_mem_nil
  | cons xs xss ih =>
      rcases List.mem_append.mp h with hmem | hmem
      · obtain ⟨x, -, rfl⟩ := List.mem_map.mp hmem
        exact Nat.le_refl i
      · exact Nat.le_of_succ_le (ih hmem)

/-- No place occurs twice if no list has an element twice. -/
theorem places_nodup {i : Nat} {xss : List (List α)} (h : ∀ xs ∈ xss, xs.Nodup) : (places i xss).Nodup := by
  induction xss generalizing i with
  | nil => exact List.nodup_nil
  | cons xs xss ih =>
      have hhead := h xs List.mem_cons_self
      refine List.Nodup.append (hhead.map fun x y hxy => (Prod.mk.inj hxy).2)
        (ih fun ys hys => h ys (List.mem_cons_of_mem _ hys)) ?_
      intro p hp hp'
      obtain ⟨x, -, rfl⟩ := List.mem_map.mp hp
      exact absurd (le_of_mem_places hp') (Nat.not_succ_le_self i)

theorem map_places (g : Option σ → α → β) (before ss : List σ) (xss : List (List α)) (h : xss.length = ss.length) :
    (places before.length xss).map (fun p => g (before ++ ss)[p.1]? p.2) =
      (ss.zipWith (fun s xs => xs.map (g (some s))) xss).flatten := by
  induction ss generalizing before xss with
  | nil =>
      rw [List.length_nil, List.length_eq_zero_iff] at h
      rw [h]
      rfl
  | cons s ss ih =>
      obtain ⟨xs, xss, rfl⟩ : ∃ x y, xss = x :: y := List.exists_cons_of_length_eq_add_one h
      have hlen : (before ++ [s]).length = before.length + 1 := by
        rw [List.length_append, List.length_singleton]
      have hrest := ih (before ++ [s]) xss (Nat.succ.inj h)
      rw [hlen, List.append_assoc, List.singleton_append] at hrest
      simp only [places, List.map_append, List.map_map, List.zipWith_cons_cons, List.flatten_cons, hrest]
      congr 1
      apply List.map_congr_left
      intro x _
      simp

theorem filter_eq_drop {xs : List α} {n : Nat} {p : α → Bool} (h : xs.Nodup)
    (hp : ∀ x ∈ xs, p x = true ↔ x ∉ xs.take n) : xs.filter p = xs.drop n := by
  have hsplit := List.take_append_drop n xs
  have hnodup : (xs.take n ++ xs.drop n).Nodup := by rwa [hsplit]
  have hdisjoint := (List.nodup_append.mp hnodup).2.2
  have hfront : (xs.take n).filter p = [] := by
    apply List.filter_eq_nil_iff.mpr
    intro x hx
    rw [hp x (List.mem_of_mem_take hx)]
    exact fun hnot => hnot hx
  have hrest : (xs.drop n).filter p = xs.drop n := by
    apply List.filter_eq_self.mpr
    intro x hx
    rw [hp x (List.mem_of_mem_drop hx)]
    exact fun hmem => hdisjoint x hmem x hx rfl
  conv_lhs => rw [← hsplit]
  rw [List.filter_append, hfront, hrest, List.nil_append]

end Rounds
