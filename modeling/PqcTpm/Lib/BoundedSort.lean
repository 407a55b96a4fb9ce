import Mathlib.Data.List.Sort

/-!
# The smallest elements of a list

A list of at most `n` elements is kept in ascending order while elements arrive in any order: each is inserted,
and what is behind the `n`-th place is dropped. What is left in the end are the smallest `n`. Pages of a list that
is asked for its elements from a start on, and the reading of page after page.
-/
namespace BoundedSort

variable {α : Type} [LinearOrder α]

/-- Insertion in front of the first larger element; what does not fit is dropped. -/
def insertBounded (n : Nat) (l : List α) (a : α) : List α := (l.orderedInsert (· < ·) a).take n

theorem insertBounded_take (n : Nat) (l : List α) (a : α) : insertBounded n (l.take n) a = insertBounded n l a := by
  unfold insertBounded
  induction l generalizing n with
  | nil => rw [List.take_nil]
  | cons b l ih =>
      cases n with
      | zero => rw [List.take_zero, List.take_zero]
      | succ n =>
          rw [List.take_succ_cons, List.orderedInsert_cons, List.orderedInsert_cons]
          split
          · cases n with
            | zero => rfl
            | succ n => rw [List.take_succ_cons, List.take_succ_cons, List.take_succ_cons, List.take_succ_cons,
                List.take_take, Nat.min_eq_left (Nat.le_succ n)]
          · rw [List.take_succ_cons, List.take_succ_cons, ih]

/-- All elements, inserted one after the other. -/
def ascending (as : List α) : List α := as.foldl (fun l a => l.orderedInsert (· < ·) a) []

theorem foldl_insertBounded (n : Nat) (l as : List α) :
    as.foldl (insertBounded n) (l.take n) = (as.foldl (fun l a => l.orderedInsert (· < ·) a) l).take n := by
  induction as generalizing l with
  | nil => rfl
  | cons a as ih =>
      rw [List.foldl_cons, List.foldl_cons, insertBounded_take, ← ih]
      rfl

theorem foldl_insertBounded_nil (n : Nat) (as : List α) : as.foldl (insertBounded n) [] = (ascending as).take n := by
  have h := foldl_insertBounded n [] as
  rwa [List.take_nil] at h

theorem orderedInsert_pairwise {l : List α} (h : l.Pairwise (· ≤ ·)) (a : α) :
    (l.orderedInsert (· < ·) a).Pairwise (· ≤ ·) := by
  induction l with
  | nil => exact List.pairwise_singleton _ _
  | cons b l ih =>
      obtain ⟨hb, hl⟩ := List.pairwise_cons.mp h
      rw [List.orderedInsert_cons]
      split
      · rename_i hlt
        refine List.pairwise_cons.mpr ⟨?_, h⟩
        intro c hc
        rcases List.mem_cons.mp hc with rfl | hc
        · exact le_of_lt hlt
        · exact le_trans (le_of_lt hlt) (hb c hc)
      · rename_i hle
        refine List.pairwise_cons.mpr ⟨?_, ih hl⟩
        intro c hc
        rcases (List.mem_orderedInsert (· < ·)).mp hc with rfl | hc
        · exact not_lt.mp hle
        · exact hb c hc

theorem ascending_spec (as : List α) : (ascending as).Perm as ∧ (ascending as).Pairwise (· ≤ ·) := by
  have hfold : ∀ l : List α, l.Pairwise (· ≤ ·) →
      (as.foldl (fun l a => l.orderedInsert (· < ·) a) l).Perm (as ++ l) ∧
        (as.foldl (fun l a => l.orderedInsert (· < ·) a) l).Pairwise (· ≤ ·) := by
    induction as with
    | nil => exact fun l h => ⟨.refl l, h⟩
    | cons a as ih =>
        intro l h
        obtain ⟨hperm, hsorted⟩ := ih _ (orderedInsert_pairwise h a)
        refine ⟨?_, hsorted⟩
        have hinsert : (as ++ l.orderedInsert (· < ·) a).Perm (as ++ a :: l) :=
          (List.perm_orderedInsert _ a l).append_left as
        exact hperm.trans (hinsert.trans List.perm_middle)
  have h := hfold [] .nil
  rwa [List.append_nil] at h

/-! ## Pages -/

/-- The smallest `n` elements, and whether there are others. -/
structure IsPage (n : Nat) (all page : List α) (more : Bool) : Prop where
  ascending : page.Pairwise (· < ·)
  length_eq : page.length = min n all.length
  present : ∀ a ∈ page, a ∈ all
  smallest : ∀ a ∈ page, ∀ b ∈ all, b ∉ page → a < b
  more_iff : more = true ↔ ∃ b ∈ all, b ∉ page

theorem isPage_ascending {all : List α} (hnodup : all.Nodup) (n : Nat) :
    IsPage n all ((ascending all).take n) (decide (n < all.length)) := by
  obtain ⟨hperm, hsorted⟩ := ascending_spec all
  have hstrict : (BoundedSort.ascending all).Pairwise (· < ·) :=
    (hsorted.and (hperm.nodup_iff.mpr hnodup)).imp fun h => lt_of_le_of_ne h.1 h.2
  have hsplit : ∀ b ∈ all, b ∉ (BoundedSort.ascending all).take n → b ∈ (BoundedSort.ascending all).drop n := by
    intro b hb hnot
    rw [← hperm.mem_iff, ← List.take_append_drop n (BoundedSort.ascending all), List.mem_append] at hb
    exact hb.resolve_left hnot
  have happ := hstrict
  rw [← List.take_append_drop n (BoundedSort.ascending all), List.pairwise_append] at happ
  refine ⟨happ.1, ?_, ?_, ?_, ?_⟩
  · rw [List.length_take, hperm.length_eq]
  · exact fun a ha => hperm.mem_iff.mp (List.mem_of_mem_take ha)
  · exact fun a ha b hb hnot => happ.2.2 a ha b (hsplit b hb hnot)
  · rw [decide_eq_true_eq, ← hperm.length_eq]
    constructor
    · intro hlt
      obtain ⟨b, hb⟩ : ∃ b, b ∈ (BoundedSort.ascending all).drop n := by
        apply List.exists_mem_of_length_pos
        rw [List.length_drop]
        omega
      refine ⟨b, hperm.mem_iff.mp (List.mem_of_mem_drop hb), ?_⟩
      intro htake
      exact lt_irrefl b (happ.2.2 b htake b hb)
    · rintro ⟨b, hb, hnot⟩
      have hpos := List.length_pos_of_mem (hsplit b hb hnot)
      rw [List.length_drop] at hpos
      omega

theorem IsPage.le_getLast {n : Nat} {all page : List α} {more : Bool} {l : α} (h : IsPage n all page more)
    (hlast : page.getLast? = some l) {a : α} (ha : a ∈ page) : a ≤ l := by
  obtain ⟨front, rfl⟩ := List.getLast?_eq_some_iff.mp hlast
  rcases List.mem_append.mp ha with hfront | hsingle
  · exact le_of_lt ((List.pairwise_append.mp h.ascending).2.2 a hfront l (List.mem_singleton.mpr rfl))
  · exact le_of_eq (List.mem_singleton.mp hsingle)

/-! ## Page after page -/

/-- A caller who asks again from behind the last element, until there is nothing more. -/
inductive Enumerates (answer : α → List α → Bool → Prop) (next : α → α) : α → List α → Prop
  | last {start page} (h : answer start page false) : Enumerates answer next start page
  | more {start page l rest} (h : answer start page true) (hlast : page.getLast? = some l)
      (hrest : Enumerates answer next (next l) rest) : Enumerates answer next start (page ++ rest)

/-- Every element from the start on is read, once and in order. -/
theorem exists_enumerates {answer : α → List α → Bool → Prop} {next : α → α} {P : α → Prop} {all : List α}
    {n : Nat} (hn : 0 < n)
    (hanswer : ∀ start, P start → ∃ page more, answer start page more ∧
      IsPage n (all.filter fun a => decide (start ≤ a)) page more)
    (hnext : ∀ l ∈ all, ∀ b ∈ all, l < b → P (next l) ∧ ∀ c ∈ all, next l ≤ c ↔ l < c)
    (start : α) (hstart : P start) :
    ∃ read, Enumerates answer next start read ∧ read.Pairwise (· < ·) ∧ ∀ a, a ∈ read ↔ a ∈ all ∧ start ≤ a := by
  have hmem : ∀ {s a : α}, a ∈ all.filter (fun a => decide (s ≤ a)) ↔ a ∈ all ∧ s ≤ a := by
    intro s a
    rw [List.mem_filter, decide_eq_true_eq]
  -- what is left to be read gets shorter with every page
  induction hleft : (all.filter fun a => decide (start ≤ a)).length using Nat.strong_induction_on generalizing start with
  | _ left ih =>
      obtain ⟨page, more, hpage, h⟩ := hanswer start hstart
      cases more with
      | false =>
          refine ⟨page, .last hpage, h.ascending, fun a => ?_⟩
          rw [← hmem]
          refine ⟨h.present a, fun ha => ?_⟩
          by_contra hnot
          exact Bool.false_ne_true (h.more_iff.mpr ⟨a, ha, hnot⟩)
      | true =>
          obtain ⟨b, hb, hnot⟩ := h.more_iff.mp rfl
          have hpos : 0 < page.length := by
            have hlen := List.length_pos_of_mem hb
            rw [h.length_eq]
            exact lt_min hn hlen
          obtain ⟨l, hlast⟩ : ∃ l, page.getLast? = some l :=
            ⟨_, List.getLast?_eq_some_getLast (List.ne_nil_of_length_pos hpos)⟩
          have hl : l ∈ page := List.mem_of_getLast? hlast
          have hlb : l < b := h.smallest l hl b hb hnot
          obtain ⟨hvalid, hbehind⟩ := hnext l (hmem.mp (h.present l hl)).1 b (hmem.mp hb).1 hlb
          have hshorter : (all.filter fun a => decide (next l ≤ a)).length < left := by
            have hnested : all.filter (fun a => decide (next l ≤ a)) =
                (all.filter fun a => decide (start ≤ a)).filter fun a => decide (next l ≤ a) := by
              rw [List.filter_filter]
              apply List.filter_congr
              intro a ha
              by_cases hla : next l ≤ a
              · have hsa := le_trans (hmem.mp (h.present l hl)).2 (le_of_lt ((hbehind a ha).mp hla))
                rw [decide_eq_true hla, decide_eq_true hsa]
                rfl
              · rw [decide_eq_false hla, Bool.false_and]
            have hself : ¬next l ≤ l := fun hle => lt_irrefl l ((hbehind l (hmem.mp (h.present l hl)).1).mp hle)
            rw [← hleft, hnested, List.length_filter_lt_length_iff_exists]
            exact ⟨l, h.present l hl, by rwa [decide_eq_true_eq]⟩
          obtain ⟨rest, hrest, hascending, hread⟩ := ih _ hshorter (next l) hvalid rfl
          refine ⟨page ++ rest, .more hpage hlast hrest, ?_, fun a => ?_⟩
          · refine List.pairwise_append.mpr ⟨h.ascending, hascending, fun a ha c hc => ?_⟩
            obtain ⟨hc, hlc⟩ := (hread c).mp hc
            exact lt_of_le_of_lt (h.le_getLast hlast ha) ((hbehind c hc).mp hlc)
          · rw [List.mem_append, hread]
            constructor
            · rintro (ha | ⟨ha, hla⟩)
              · exact hmem.mp (h.present a ha)
              · have hstart := (hmem.mp (h.present l hl)).2
                exact ⟨ha, le_trans hstart (le_of_lt ((hbehind a ha).mp hla))⟩
            · intro ha
              by_cases hin : a ∈ page
              · exact .inl hin
              · exact .inr ⟨ha.1, (hbehind a ha.1).mpr (h.smallest l hl a (hmem.mpr ha) hin)⟩

end BoundedSort
