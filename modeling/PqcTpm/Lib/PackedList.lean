import PqcTpm.Lib.ByteMemory

/-!
# Packed lists in a byte memory

Entries of different lengths that lie one behind the other, with no table beside them: an entry says how
long it is, and the way from one to the next is by its length. What the memory holds from an address on,
how appending, removing and overwriting change it, and the walk over the entries.
-/
namespace ByteMemory
open ByteCodec

/-- The memory holds these octets from the address on. -/
def Holds (m : Memory) (a : Nat) (bs : Bytes) : Prop := load m a bs.length = bs

/-- `n` octets are copied from one address to another, through a copy of their own if the two meet. -/
def move (m : Memory) (src dst n : Nat) : Memory := store m dst (load m src n)

def fillZero (m : Memory) (a n : Nat) : Memory := store m a (List.replicate n 0)

namespace Holds
variable {m m' : Memory} {a b : Nat} {xs ys zs : Bytes}

theorem nil (m : Memory) (a : Nat) : Holds m a [] := rfl

theorem append_iff : Holds m a (xs ++ ys) ↔ Holds m a xs ∧ Holds m (a + xs.length) ys := by
  unfold Holds
  rw [List.length_append, load_add]
  constructor
  · intro h
    exact List.append_inj h (by rw [load_length])
  · rintro ⟨hx, hy⟩
    rw [hx, hy]

theorem left (h : Holds m a (xs ++ ys)) : Holds m a xs := (append_iff.mp h).1

theorem right (h : Holds m a (xs ++ ys)) : Holds m (a + xs.length) ys := (append_iff.mp h).2

theorem congr (h : Holds m a xs) (hm : ∀ i, a ≤ i → i < a + xs.length → m' i = m i) : Holds m' a xs := by
  unfold Holds
  rw [load_congr hm]
  exact h

theorem store_self (m : Memory) (a : Nat) (xs : Bytes) : Holds (store m a xs) a xs := load_store_same m a xs

theorem store_disjoint (h : Holds m a xs) (hd : a + xs.length ≤ b ∨ b + ys.length ≤ a) :
    Holds (store m b ys) a xs := by
  unfold Holds
  rw [load_store_disjoint hd]
  exact h

theorem append (h : Holds m a xs) (ys : Bytes) : Holds (store m (a + xs.length) ys) a (xs ++ ys) :=
  append_iff.mpr ⟨h.store_disjoint (.inl (Nat.le_refl _)), store_self _ _ _⟩

theorem replace (h : Holds m a (xs ++ (ys ++ zs))) {ys' : Bytes} (hlen : ys'.length = ys.length) :
    Holds (store m (a + xs.length) ys') a (xs ++ (ys' ++ zs)) := by
  have hz := h.right.right
  rw [← hlen] at hz
  refine append_iff.mpr ⟨h.left.store_disjoint (.inl (Nat.le_refl _)), append_iff.mpr ⟨store_self _ _ _, ?_⟩⟩
  exact hz.store_disjoint (.inr (Nat.le_refl _))

theorem remove (h : Holds m a (xs ++ (ys ++ zs))) :
    Holds (move m (a + xs.length + ys.length) (a + xs.length) zs.length) a (xs ++ zs) := by
  have hz : load m (a + xs.length + ys.length) zs.length = zs := h.right.right
  rw [move, hz]
  exact h.left.append zs

theorem word {w n : Nat} (h : Holds m a (le w n ++ xs)) (hn : n < 256 ^ w) : fromLe (load m a w) = n := by
  have hw : load m a (le w n).length = le w n := h.left
  rw [le_length] at hw
  rw [hw, fromLe_le hn]

end Holds

/-! ## The walk -/

section Walk
variable {M : Type → Type} [Monad M] {ε : Type}

/-- From an address on, as long as there is a next entry: where the entries begin, and where the list ends. -/
def walk (next : Nat → M (Option Nat)) : Nat → Nat → M (List Nat × Nat)
  | 0, a => pure ([], a)
  | fuel + 1, a => do
      match ← next a with
      | none => pure ([], a)
      | some n => do
          let found ← walk next fuel (a + n)
          pure (a :: found.1, found.2)

/-- Where entries of these sizes begin. -/
def starts (size : ε → Nat) : Nat → List ε → List Nat
  | _, [] => []
  | a, e :: es => a :: starts size (a + size e) es

/-- What `next` says from an address on agrees with the entries. -/
def Linked (next : Nat → M (Option Nat)) (size : ε → Nat) : Nat → List ε → Prop
  | a, [] => next a = pure none
  | a, e :: es => next a = pure (some (size e)) ∧ Linked next size (a + size e) es

theorem walk_of_linked [LawfulMonad M] {next : Nat → M (Option Nat)} {size : ε → Nat} {es : List ε} {a fuel : Nat}
    (h : Linked next size a es) (hfuel : es.length < fuel) :
    walk next fuel a = pure (starts size a es, a + (es.map size).sum) := by
  induction es generalizing a fuel with
  | nil =>
      obtain ⟨fuel, rfl⟩ : ∃ n, fuel = n + 1 := ⟨fuel - 1, by simp at hfuel; omega⟩
      have hnext : next a = pure none := h
      simp [walk, hnext, starts]
  | cons e es ih =>
      obtain ⟨fuel, rfl⟩ : ∃ n, fuel = n + 1 := ⟨fuel - 1, by simp at hfuel; omega⟩
      have hrest := ih h.2 (Nat.lt_of_succ_lt_succ hfuel)
      simp [walk, h.1, hrest, starts, Nat.add_assoc]

end Walk

section Starts
variable {ε β : Type}

theorem starts_map (size : ε → Nat) (a : Nat) (es : List ε) (f : Nat → β) (g : ε → β)
    (h : ∀ xs e ys, es = xs ++ e :: ys → f (a + (xs.map size).sum) = g e) :
    (starts size a es).map f = es.map g := by
  induction es generalizing a with
  | nil => rfl
  | cons e es ih =>
      have hhead := h [] e es rfl
      rw [starts, List.map_cons, List.map_cons]
      congr 1
      apply ih
      intro xs x ys hes
      have hx := h (e :: xs) x ys (by rw [hes]; rfl)
      rwa [List.map_cons, List.sum_cons, ← Nat.add_assoc] at hx

theorem starts_find (size : ε → Nat) (a : Nat) (xs : List ε) (e : ε) (ys : List ε) (p : Nat → Bool) (q : ε → Bool)
    (h : ∀ zs x zs', xs ++ e :: ys = zs ++ x :: zs' → p (a + (zs.map size).sum) = q x)
    (hxs : ∀ x ∈ xs, q x = false) (he : q e = true) :
    (starts size a (xs ++ e :: ys)).find? p = some (a + (xs.map size).sum) := by
  induction xs generalizing a with
  | nil =>
      have hp := h [] e ys rfl
      rw [List.nil_append, starts, List.find?_cons_of_pos (by rw [he] at hp; exact hp)]
      rfl
  | cons x xs ih =>
      have hp := h [] x (xs ++ e :: ys) rfl
      rw [hxs x List.mem_cons_self] at hp
      have hrest := ih (a + size x) ?_ fun z hz => hxs z (List.mem_cons_of_mem x hz)
      · rw [List.cons_append, starts, List.find?_cons_of_neg (by simpa using hp), hrest]
        simp [Nat.add_assoc]
      · intro zs z ys' hsplit
        have hz := h (x :: zs) z ys' (by rw [List.cons_append, hsplit]; rfl)
        rwa [List.map_cons, List.sum_cons, ← Nat.add_assoc] at hz

end Starts

end ByteMemory
