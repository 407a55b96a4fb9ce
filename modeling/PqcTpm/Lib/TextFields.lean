import Mathlib.Algebra.Group.Nat.Defs
import Mathlib.Data.List.Basic
import Mathlib.Tactic.Common

/-!
# Separated fields and numbers in character strings

A character string as the fields between the occurrences of a separator, the removal of
fields that a later one replaces, and `strtoul` of the C library.
-/
namespace TextFields

section Fields
variable {α : Type} [DecidableEq α]

/-- A field holds no separator. -/
theorem not_mem_of_mem_splitOn {sep : α} {xs f : List α} (h : f ∈ xs.splitOn sep) : sep ∉ f := by
  induction xs generalizing f with
  | nil =>
      rw [List.splitOn_nil, List.mem_singleton] at h
      rw [h]
      exact List.not_mem_nil
  | cons x xs ih =>
      rw [List.splitOn_cons_eq_if_modifyHead] at h
      split at h
      · rcases List.mem_cons.mp h with rfl | h
        · exact List.not_mem_nil
        · exact ih h
      · rename_i hx
        have hx : sep ≠ x := fun he => hx (by rw [he]; exact beq_self_eq_true x)
        cases hs : xs.splitOn sep with
        | nil => exact absurd hs (List.splitOn_ne_nil sep xs)
        | cons g gs =>
            rw [hs] at h ih
            rcases List.mem_cons.mp h with rfl | h
            · intro hm
              rcases List.mem_cons.mp hm with heq | hm
              · exact hx heq
              · exact ih List.mem_cons_self hm
            · exact ih (List.mem_cons_of_mem g h)

variable (eq : α)

/-- `x` is replaced by one of the fields behind it: by an equal one, or, where `x` gives a
value to a key, by one that gives the key a value again or ends the list with the bare key. -/
def shadowed (x : List α) (rest : List (List α)) : Bool :=
  if eq ∈ x then
    let key := x.takeWhile (· ≠ eq)
    rest.any (fun y => (key ++ [eq]).isPrefixOf y) || rest.getLast? == some key
  else rest.contains x

/-- The fields that no later one replaces. -/
def keepLast : List (List α) → List (List α)
  | [] => []
  | x :: rest => if shadowed eq x rest then keepLast rest else x :: keepLast rest

variable {eq}

theorem keepLast_sublist (l : List (List α)) : (keepLast eq l).Sublist l := by
  induction l with
  | nil => exact List.Sublist.refl []
  | cons x rest ih =>
      unfold keepLast
      split
      · exact ih.trans (List.sublist_cons_self x rest)
      · exact ih.cons_cons x

theorem shadowed_nil (x : List α) : shadowed eq x [] = false := by
  unfold shadowed
  split <;> simp

theorem keepLast_getLast? (l : List (List α)) : (keepLast eq l).getLast? = l.getLast? := by
  induction l with
  | nil => rfl
  | cons x rest ih =>
      cases rest with
      | nil => simp only [keepLast, shadowed_nil, Bool.false_eq_true, if_false]
      | cons y rest =>
          rw [keepLast]
          split
          · rw [ih, List.getLast?_cons_cons]
          · cases hk : keepLast eq (y :: rest) with
            | nil =>
                rw [hk, List.getLast?_nil, eq_comm, List.getLast?_eq_none_iff] at ih
                exact absurd ih (List.cons_ne_nil y rest)
            | cons z zs => rw [List.getLast?_cons_cons, List.getLast?_cons_cons, ← hk, ih]

theorem keepLast_ne_nil {l : List (List α)} (h : l ≠ []) : keepLast eq l ≠ [] := by
  intro hk
  have hlast : (keepLast eq l).getLast? = l.getLast? := keepLast_getLast? l
  rw [hk, List.getLast?_nil, eq_comm, List.getLast?_eq_none_iff] at hlast
  exact h hlast

theorem shadowed_of_sublist {x : List α} {l rest : List (List α)} (hsub : l.Sublist rest)
    (hlast : l.getLast? = rest.getLast?) (h : shadowed eq x l = true) :
    shadowed eq x rest = true := by
  unfold shadowed at h ⊢
  split at h
  · rename_i heq
    rw [if_pos heq]
    rw [Bool.or_eq_true] at h ⊢
    rcases h with h | h
    · obtain ⟨y, hy, hp⟩ := List.any_eq_true.mp h
      exact .inl (List.any_eq_true.mpr ⟨y, hsub.subset hy, hp⟩)
    · exact .inr (hlast ▸ h)
  · rename_i heq
    rw [if_neg heq]
    rw [List.contains_iff_mem] at h ⊢
    exact hsub.subset h

theorem keepLast_keepLast (l : List (List α)) : keepLast eq (keepLast eq l) = keepLast eq l := by
  induction l with
  | nil => rfl
  | cons x rest ih =>
      rw [keepLast]
      split
      · exact ih
      · rename_i hx
        rw [keepLast, if_neg, ih]
        intro hs
        exact hx (shadowed_of_sublist (keepLast_sublist rest) (keepLast_getLast? rest) hs)

/-- The string without the fields that a later one replaces. -/
def dedup (sep eq : α) (s : List α) : List α := [sep].intercalate (keepLast eq (s.splitOn sep))

theorem splitOn_dedup (sep eq : α) (s : List α) :
    (dedup sep eq s).splitOn sep = keepLast eq (s.splitOn sep) := by
  refine List.splitOn_intercalate sep ?_ (keepLast_ne_nil (List.splitOn_ne_nil sep s))
  intro f hf
  exact not_mem_of_mem_splitOn ((keepLast_sublist _).subset hf)

theorem dedup_dedup (sep eq : α) (s : List α) : dedup sep eq (dedup sep eq s) = dedup sep eq s := by
  rw [dedup, splitOn_dedup, keepLast_keepLast]
  rfl

omit [DecidableEq α] in
theorem mem_intercalate {sep c : α} {l : List (List α)} (h : c ∈ [sep].intercalate l) :
    c = sep ∨ ∃ f ∈ l, c ∈ f := by
  induction l with
  | nil => exact absurd h List.not_mem_nil
  | cons f l ih =>
      cases l with
      | nil =>
          rw [List.intercalate_singleton] at h
          exact .inr ⟨f, List.mem_cons_self, h⟩
      | cons g l =>
          rw [List.intercalate_cons_cons] at h
          rcases List.mem_append.mp h with h | h
          · rcases List.mem_append.mp h with h | h
            · exact .inr ⟨f, List.mem_cons_self, h⟩
            · exact .inl (List.mem_singleton.mp h)
          · rcases ih h with h | ⟨e, he, hc⟩
            · exact .inl h
            · exact .inr ⟨e, List.mem_cons_of_mem f he, hc⟩

theorem mem_of_mem_splitOn {sep c : α} {xs f : List α} (hf : f ∈ xs.splitOn sep) (hc : c ∈ f) :
    c ∈ xs := by
  induction xs generalizing f with
  | nil =>
      rw [List.splitOn_nil, List.mem_singleton] at hf
      exact absurd (hf ▸ hc) List.not_mem_nil
  | cons x xs ih =>
      rw [List.splitOn_cons_eq_if_modifyHead] at hf
      split at hf
      · rcases List.mem_cons.mp hf with rfl | hf
        · exact absurd hc List.not_mem_nil
        · exact List.mem_cons_of_mem x (ih hf hc)
      · cases hs : xs.splitOn sep with
        | nil => exact absurd hs (List.splitOn_ne_nil sep xs)
        | cons g gs =>
            rw [hs] at hf ih
            rcases List.mem_cons.mp hf with rfl | hf
            · rcases List.mem_cons.mp hc with rfl | hc
              · exact List.mem_cons_self
              · exact List.mem_cons_of_mem x (ih List.mem_cons_self hc)
            · exact List.mem_cons_of_mem x (ih (List.mem_cons_of_mem g hf) hc)

theorem mem_of_mem_dedup {sep eq c : α} {s : List α} (h : c ∈ dedup sep eq s) : c = sep ∨ c ∈ s := by
  rcases mem_intercalate h with h | ⟨f, hf, hc⟩
  · exact .inl h
  · exact .inr (mem_of_mem_splitOn ((keepLast_sublist _).subset hf) hc)

end Fields

/-! ## Numbers -/

/-- `isspace` of the C locale. -/
def isSpace (c : Char) : Bool := c ∈ [' ', '\t', '\n', '\x0b', '\x0c', '\r']

/-- The value of a digit in any base up to sixteen; anything else is no digit. -/
def digitValue (c : Char) : Nat :=
  if '0' ≤ c ∧ c ≤ '9' then c.toNat - '0'.toNat
  else if 'a' ≤ c ∧ c ≤ 'f' then c.toNat - 'a'.toNat + 10
  else if 'A' ≤ c ∧ c ≤ 'F' then c.toNat - 'A'.toNat + 10
  else 16

def isDigit (base : Nat) (c : Char) : Bool := digitValue c < base

/-- What `strtoul` leaves: the value, whether `errno` is `ERANGE`, and `endptr`. -/
structure Strtoul where
  value : Nat
  erange : Bool
  endptr : List Char
  deriving DecidableEq, Repr

/-- The base that a number in base 0 is written in, and its digits. -/
def detectBase : List Char → Nat × List Char
  | '0' :: 'x' :: d :: cs => if isDigit 16 d then (16, d :: cs) else (8, '0' :: 'x' :: d :: cs)
  | '0' :: 'X' :: d :: cs => if isDigit 16 d then (16, d :: cs) else (8, '0' :: 'X' :: d :: cs)
  | '0' :: cs => (8, '0' :: cs)
  | cs => (10, cs)

/-- `strtoul` with 64-bit `unsigned long`: blanks, a sign, digits. Without a digit nothing is read;
a negated value wraps around. -/
def strtoul (s : List Char) (base : Nat) : Strtoul :=
  let t := s.dropWhile isSpace
  let (neg, t) := match t with
    | '-' :: t => (true, t)
    | '+' :: t => (false, t)
    | t => (false, t)
  let (base, t) := if base = 0 then detectBase t else (base, t)
  let digits := t.takeWhile (isDigit base)
  let v := digits.foldl (fun v c => v * base + digitValue c) 0
  if digits = [] then ⟨0, false, s⟩
  else if 2 ^ 64 ≤ v then ⟨2 ^ 64 - 1, true, t.dropWhile (isDigit base)⟩
  else ⟨if neg then (2 ^ 64 - v) % 2 ^ 64 else v, false, t.dropWhile (isDigit base)⟩

example : strtoul " -0x1F,7".toList 0 = ⟨2 ^ 64 - 31, false, [',', '7']⟩ := by decide

end TextFields
