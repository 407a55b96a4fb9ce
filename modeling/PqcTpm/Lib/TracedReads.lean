import Mathlib.Tactic.Common
import Mathlib.Data.List.Basic

/-!
# Programs that read a memory

A computation that keeps the addresses it has read, so that where it reads can be stated beside what it
computes. Addresses are integers: a pointer may be moved before the start of its buffer as well as behind its
end.
-/
namespace TracedReads

/-- The result, and the addresses that were read, in order. -/
structure Traced (α : Type) where
  value : α
  reads : List Int

variable {α β γ : Type}

namespace Traced

instance : Monad Traced where
  pure a := ⟨a, []⟩
  bind t f := ⟨(f t.value).value, t.reads ++ (f t.value).reads⟩

/-- Every address lies in the range. -/
def Within (lo hi : Int) (t : Traced α) : Prop := ∀ a ∈ t.reads, lo ≤ a ∧ a < hi

@[simp] theorem value_pure (a : α) : (pure a : Traced α).value = a := rfl

@[simp] theorem value_bind (t : Traced α) (f : α → Traced β) : (t >>= f).value = (f t.value).value := rfl

@[simp] theorem reads_pure (a : α) : (pure a : Traced α).reads = [] := rfl

@[simp] theorem reads_bind (t : Traced α) (f : α → Traced β) : (t >>= f).reads = t.reads ++ (f t.value).reads := rfl

variable {lo hi lo' hi' : Int} {t : Traced α}

@[simp] theorem within_pure (a : α) : (pure a : Traced α).Within lo hi := fun _ h => absurd h List.not_mem_nil

@[simp] theorem within_bind {f : α → Traced β} :
    (t >>= f).Within lo hi ↔ t.Within lo hi ∧ (f t.value).Within lo hi := by
  simp only [Within, reads_bind, List.mem_append]
  constructor
  · intro h
    exact ⟨fun a ha => h a (.inl ha), fun a ha => h a (.inr ha)⟩
  · rintro ⟨ht, hf⟩ a (ha | ha)
    · exact ht a ha
    · exact hf a ha

theorem Within.mono (h : t.Within lo hi) (hlo : lo' ≤ lo) (hhi : hi ≤ hi') : t.Within lo' hi' := by
  intro a ha
  obtain ⟨h₁, h₂⟩ := h a ha
  exact ⟨by omega, by omega⟩

end Traced

open Traced

variable (m : Int → β) (a : Int)

/-- One cell. -/
def read : Traced β := ⟨m a, [a]⟩

/-- `n` cells from `a` on. -/
def readBlock : Int → Nat → Traced (List β)
  | _, 0 => pure []
  | a, n + 1 => do
      let b ← read m a
      let bs ← readBlock (a + 1) n
      pure (b :: bs)

@[simp] theorem value_read : (read m a).value = m a := rfl

@[simp] theorem within_read {lo hi : Int} : (read m a).Within lo hi ↔ lo ≤ a ∧ a < hi := by
  constructor
  · intro h
    exact h a (List.mem_singleton.mpr rfl)
  · intro h b hb
    rw [List.mem_singleton.mp hb]
    exact h

theorem within_readBlock {lo hi : Int} {a : Int} {n : Nat} (hlo : lo ≤ a) (hhi : a + n ≤ hi) :
    (readBlock m a n).Within lo hi := by
  induction n generalizing a with
  | zero => exact within_pure _
  | succ n ih =>
      simp only [readBlock, within_bind, within_read, within_pure, and_true]
      exact ⟨⟨hlo, by omega⟩, ih (by omega) (by omega)⟩

/-! ## Memories that hold a string -/

/-- The memory with a string from address 0 on, and `rest` elsewhere. -/
def layout (bs : List β) (rest : Int → β) : Int → β := fun a =>
  match if 0 ≤ a then bs[a.toNat]? else none with
  | some b => b
  | none => rest a

/-- The memory holds the string from `a` on. -/
def Holds (m : Int → β) (a : Int) (bs : List β) : Prop := ∀ (i : Nat) (b : β), bs[i]? = some b → m (a + i) = b

theorem layout_holds (bs : List β) (rest : Int → β) : Holds (layout bs rest) 0 bs := by
  intro i b hb
  have hpos : (0 : Int) ≤ 0 + i := by omega
  have hi : ((0 : Int) + i).toNat = i := by omega
  simp only [layout, hpos, if_true, hi, hb]

variable {m} {a}

theorem holds_cons {b : β} {bs : List β} : Holds m a (b :: bs) ↔ m a = b ∧ Holds m (a + 1) bs := by
  constructor
  · intro h
    refine ⟨by simpa using h 0 b rfl, fun i c hc => ?_⟩
    have hi := h (i + 1) c (by simpa using hc)
    rw [show a + 1 + (i : Int) = a + ((i + 1 : Nat) : Int) by omega]
    exact hi
  · rintro ⟨hhead, htail⟩ i c hc
    cases i with
    | zero =>
        rw [List.getElem?_cons_zero] at hc
        rw [← Option.some.inj hc, ← hhead]
        congr 1
        omega
    | succ i =>
        rw [List.getElem?_cons_succ] at hc
        rw [← htail i c hc]
        congr 1
        omega

theorem holds_append {bs cs : List β} : Holds m a (bs ++ cs) ↔ Holds m a bs ∧ Holds m (a + bs.length) cs := by
  induction bs generalizing a with
  | nil =>
      have hnil : Holds m a [] := fun i b hb => by rw [List.getElem?_nil] at hb; cases hb
      simp only [List.nil_append, hnil, List.length_nil, Int.natCast_zero, Int.add_zero, true_and]
  | cons b bs ih =>
      rw [List.cons_append, holds_cons, holds_cons, ih, and_assoc, List.length_cons,
        show a + 1 + (bs.length : Int) = a + ((bs.length + 1 : Nat) : Int) by omega]

theorem value_readBlock {bs : List β} (h : Holds m a bs) : (readBlock m a bs.length).value = bs := by
  induction bs generalizing a with
  | nil => rfl
  | cons b bs ih =>
      obtain ⟨hhead, htail⟩ := holds_cons.mp h
      simp only [List.length_cons, readBlock, value_bind, value_read, value_pure, hhead, ih htail]

end TracedReads
