import Mathlib.Data.List.Basic
import Mathlib.Tactic.Common

/-!
# Terminated strings in a buffer

A buffer of characters in which `none` is the terminator. The string functions of the C library on positions of a
buffer; each gives `none` where the function would leave the buffer.
-/
namespace CStrings

abbrev Buffer (α : Type) := List (Option α)

section
variable {α : Type}

/-- The characters before the first terminator. -/
def chars : Buffer α → Option (List α)
  | [] => none
  | none :: _ => some []
  | some c :: b => (chars b).map (c :: ·)

/-- The characters of a string, without its terminator. -/
def text (s : List α) : Buffer α := s.map some

/-- `b[i] = c`. -/
def write (b : Buffer α) (i : Nat) (c : Option α) : Option (Buffer α) :=
  if i < b.length then some (b.set i c) else none

/-- `strlen`. -/
def strlen (b : Buffer α) (p : Nat) : Option Nat := (chars (b.drop p)).map List.length

/-- `memmove`. -/
def memmove (b : Buffer α) (dest src n : Nat) : Option (Buffer α) :=
  if src + n ≤ b.length ∧ dest + n ≤ b.length then
    some (b.take dest ++ (b.drop src).take n ++ b.drop (dest + n))
  else none

variable [DecidableEq α]

/-- `index`: the first occurrence of a character in the string at `p`. -/
def index (b : Buffer α) (p : Nat) (c : α) : Option (Option Nat) :=
  (chars (b.drop p)).map fun s => (s.findIdx? (· = c)).map (p + ·)

/-- The place where `needle` occurs first. -/
def occurrence (needle : List α) : List α → Option Nat
  | [] => if needle = [] then some 0 else none
  | c :: s => if needle.isPrefixOf (c :: s) then some 0 else (occurrence needle s).map (· + 1)

/-- `strstr`: the first occurrence of the string at `n` in the string at `p`. -/
def strstr (b : Buffer α) (p n : Nat) : Option (Option Nat) :=
  (chars (b.drop p)).bind fun s => (chars (b.drop n)).map fun needle => (occurrence needle s).map (p + ·)

end

section
variable {α : Type} {A T J : Buffer α} {s : List α}

theorem text_append (s t : List α) : text (s ++ t) = text s ++ text t := List.map_append

theorem text_length (s : List α) : (text s).length = s.length := List.length_map some

theorem chars_text (s : List α) (J : Buffer α) : chars (text s ++ none :: J) = some s := by
  induction s with
  | nil => rfl
  | cons c s ih =>
      show (chars (text s ++ none :: J)).map (c :: ·) = _
      rw [ih]
      rfl

theorem chars_drop {p : Nat} (hp : A.length = p) (s : List α) (J : Buffer α) :
    chars ((A ++ (text s ++ none :: J)).drop p) = some s := by
  rw [← hp, List.drop_left]
  exact chars_text s J

theorem strlen_behind {p : Nat} (hp : A.length = p) (s : List α) (J : Buffer α) :
    strlen (A ++ (text s ++ none :: J)) p = some s.length := by
  unfold strlen
  rw [chars_drop hp]
  rfl

theorem getElem?_behind {p : Nat} (hp : A.length = p) (c : Option α) (T : Buffer α) :
    (A ++ c :: T)[p]? = some c := by
  rw [← hp, List.getElem?_append_right (Nat.le_refl _), Nat.sub_self]
  rfl

theorem write_behind {p : Nat} (hp : A.length = p) (c d : Option α) (T : Buffer α) :
    write (A ++ c :: T) p d = some (A ++ d :: T) := by
  have hlt : p < (A ++ c :: T).length := by
    rw [List.length_append, List.length_cons, hp]
    omega
  unfold write
  rw [if_pos hlt, List.set_append_right p d (Nat.le_of_eq hp), hp, Nat.sub_self]
  rfl

theorem memmove_close {dest src : Nat} (hdest : A.length = dest) (G : Buffer α) (hsrc : A.length + G.length = src)
    (s : List α) (J : Buffer α) :
    ∃ J', memmove (A ++ (G ++ (text s ++ none :: J))) dest src (s.length + 1) = some (A ++ (text s ++ none :: J')) := by
  have hsplit : text s ++ none :: J = (text s ++ [none]) ++ J := by rw [List.append_assoc, List.singleton_append]
  have hlen : (text s ++ [none]).length = s.length + 1 := by rw [List.length_append, text_length]; rfl
  have hfront : (A ++ (G ++ (text s ++ none :: J))).take dest = A := by rw [← hdest, List.take_left]
  have hmoved : ((A ++ (G ++ (text s ++ none :: J))).drop src).take (s.length + 1) = text s ++ [none] := by
    rw [← List.append_assoc, ← hsrc, ← List.length_append, List.drop_left, hsplit, ← hlen, List.take_left]
  refine ⟨(A ++ (G ++ (text s ++ none :: J))).drop (dest + (s.length + 1)), ?_⟩
  unfold memmove
  rw [if_pos, hfront, hmoved, List.append_assoc, List.append_assoc, List.singleton_append]
  simp only [List.length_append, List.length_cons, text_length]
  omega

end

section
variable {α : Type} [DecidableEq α] {A J : Buffer α}

theorem index_spec {p : Nat} (hp : A.length = p) (s : List α) (J : Buffer α) (c : α) :
    index (A ++ (text s ++ none :: J)) p c = some ((s.findIdx? (· = c)).map (p + ·)) := by
  unfold index
  rw [chars_drop hp]
  rfl

theorem findIdx?_absent {c : α} {s : List α} (h : c ∉ s) : s.findIdx? (· = c) = none := by
  apply List.findIdx?_eq_none_iff.mpr
  intro d hd
  exact decide_eq_false fun hdc => h (hdc ▸ hd)

theorem findIdx?_split {c : α} {s : List α} (h : c ∉ s) (t : List α) :
    (s ++ c :: t).findIdx? (· = c) = some s.length := by
  rw [List.findIdx?_append, findIdx?_absent h, List.findIdx?_cons, decide_eq_true rfl]
  simp only [if_true, Option.map_some, Option.none_or, Nat.zero_add]

theorem isPrefixOf_stop {needle : List α} {sep : α} (h : sep ∉ needle) (u t : List α) :
    needle.isPrefixOf (u ++ sep :: t) = needle.isPrefixOf u := by
  induction needle generalizing u with
  | nil => rfl
  | cons a needle ih =>
      have hsep : sep ∉ needle := fun hmem => h (List.mem_cons_of_mem a hmem)
      cases u with
      | nil =>
          have hne : (a == sep) = false := beq_eq_false_iff_ne.mpr fun heq => h (heq ▸ List.mem_cons_self)
          show (a == sep && needle.isPrefixOf t) = false
          rw [hne, Bool.false_and]
      | cons b u =>
          show (a == b && needle.isPrefixOf (u ++ sep :: t)) = (a == b && needle.isPrefixOf u)
          rw [ih hsep]

/-- An occurrence does not reach over a separator that the needle does not hold. -/
theorem occurrence_stop {needle : List α} {sep : α} (h : sep ∉ needle) (u t : List α) :
    occurrence needle (u ++ sep :: t) =
      match occurrence needle u with
      | some d => some d
      | none => (occurrence needle t).map (· + (u.length + 1)) := by
  induction u with
  | nil =>
      rw [List.nil_append, occurrence, occurrence]
      cases needle with
      | nil => rfl
      | cons a needle =>
          have hstop := isPrefixOf_stop h [] t
          rw [List.nil_append] at hstop
          rw [hstop]
          rfl
  | cons b u ih =>
      have hstop := isPrefixOf_stop h (b :: u) t
      rw [List.cons_append] at hstop ⊢
      rw [occurrence, occurrence, hstop, ih]
      by_cases hprefix : needle.isPrefixOf (b :: u) = true
      · rw [if_pos hprefix, if_pos hprefix]
      · rw [if_neg hprefix, if_neg hprefix]
        cases occurrence needle u with
        | some d => rfl
        | none =>
            show ((occurrence needle t).map _).map _ = (occurrence needle t).map _
            rw [Option.map_map]
            rfl

theorem occurrence_some {needle s : List α} {d : Nat} (h : occurrence needle s = some d) :
    ∃ u v, s = u ++ needle ++ v ∧ u.length = d ∧ (0 < d → needle.isPrefixOf s = false) := by
  induction s generalizing d with
  | nil =>
      rw [occurrence] at h
      split at h
      · rename_i hnil
        cases h
        exact ⟨[], [], by rw [hnil]; rfl, rfl, fun hlt => absurd hlt (Nat.lt_irrefl 0)⟩
      · cases h
  | cons c s ih =>
      rw [occurrence] at h
      split at h
      · rename_i hprefix
        cases h
        obtain ⟨v, hv⟩ := List.isPrefixOf_iff_prefix.mp hprefix
        exact ⟨[], v, hv.symm, rfl, fun hlt => absurd hlt (Nat.lt_irrefl 0)⟩
      · rename_i hprefix
        obtain ⟨e, he, rfl⟩ := Option.map_eq_some_iff.mp h
        obtain ⟨u, v, hs, hu, -⟩ := ih he
        exact ⟨c :: u, v, by rw [hs]; rfl, by rw [List.length_cons, hu], fun _ => Bool.eq_false_iff.mpr hprefix⟩

theorem occurrence_none {needle s : List α} (h : occurrence needle s = none) : needle.isPrefixOf s = false := by
  cases s with
  | nil =>
      rw [occurrence] at h
      split at h
      · cases h
      · rename_i hnil
        cases needle with
        | nil => exact absurd rfl hnil
        | cons a needle => rfl
  | cons c s =>
      rw [occurrence] at h
      split at h
      · cases h
      · rename_i hprefix
        exact Bool.eq_false_iff.mpr hprefix

end
end CStrings
