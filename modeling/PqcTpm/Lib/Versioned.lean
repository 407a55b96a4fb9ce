import Mathlib.Order.Defs.PartialOrder

/-!
# Values with a version

A value that may change only as its version goes up. A copy that has been taken of it says what the
value is now as long as the versions agree: the copy is below what the value has become.
-/
namespace Versions

structure Versioned (V : Type) where
  version : Nat
  value : V

namespace Versioned
variable {V : Type} {a b c : Versioned V}

/-- The version has gone up, or nothing has changed. -/
instance : LE (Versioned V) where
  le a b := a.version ≤ b.version ∧ (a.version = b.version → a.value = b.value)

instance : Preorder (Versioned V) where
  le_refl a := ⟨Nat.le_refl _, fun _ => rfl⟩
  le_trans a b c hab hbc := by
    refine ⟨Nat.le_trans hab.1 hbc.1, fun h => ?_⟩
    have hb : a.version = b.version := Nat.le_antisymm hab.1 (h ▸ hbc.1)
    exact (hab.2 hb).trans (hbc.2 (hb.symm.trans h))

theorem le_of_version_lt (h : a.version < b.version) : a ≤ b :=
  ⟨Nat.le_of_lt h, fun he => absurd he (Nat.ne_of_lt h)⟩

theorem le_of_value_eq (hversion : a.version ≤ b.version) (hvalue : a.value = b.value) : a ≤ b :=
  ⟨hversion, fun _ => hvalue⟩

theorem value_eq (h : a ≤ b) (hversion : a.version = b.version) : a.value = b.value := h.2 hversion

end Versioned
end Versions
