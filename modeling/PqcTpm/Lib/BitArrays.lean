import Mathlib.Data.List.GetD
import Mathlib.Tactic.Common

/-!
# Bit arrays

Arrays of octets whose bits are numbered from the least significant bit of the first octet.
Setting or clearing a bit behind the end is refused.
-/
namespace BitArrays

@[ext]
structure BitArray (size : Nat) where
  bytes : List UInt8
  length_eq : bytes.length = size
  deriving DecidableEq

namespace BitArray
variable {size : Nat}

/-- The octet with one bit, `1 << (n & 7)`. -/
def mask (n : Nat) : UInt8 := .ofBitVec (BitVec.twoPow 8 (n % 8))

def get (a : BitArray size) (n : Nat) : Bool := (a.bytes.getD (n / 8) 0).toBitVec.getLsbD (n % 8)

def zero (size : Nat) : BitArray size := ⟨List.replicate size 0, List.length_replicate⟩

def modify (f : UInt8 → UInt8) (n : Nat) (a : BitArray size) : BitArray size :=
  ⟨a.bytes.modify (n / 8) f, by rw [List.length_modify, a.length_eq]⟩

def set? (n : Nat) (a : BitArray size) : Option (BitArray size) :=
  if n / 8 < size then some (a.modify (· ||| mask n) n) else none

def clear? (n : Nat) (a : BitArray size) : Option (BitArray size) :=
  if n / 8 < size then some (a.modify (· &&& ~~~mask n) n) else none

/-- The numbers of the bits that are set, in ascending order. -/
def bits (a : BitArray size) : List Nat := (List.range (8 * size)).filter a.get

@[simp] theorem get_zero (n : Nat) : (zero size).get n = false := by
  have hoctet : (List.replicate size (0 : UInt8)).getD (n / 8) 0 = 0 := by
    rw [List.getD_eq_getElem?_getD, List.getElem?_replicate]
    split <;> rfl
  unfold get zero
  rw [hoctet]
  exact BitVec.getLsbD_zero

theorem get_modify (f : UInt8 → UInt8) (n m : Nat) (a : BitArray size) (hn : n / 8 < size) :
    (a.modify f n).get m =
      if m / 8 = n / 8 then (f (a.bytes.getD (n / 8) 0)).toBitVec.getLsbD (m % 8) else a.get m := by
  have hlen : n / 8 < a.bytes.length := by
    rw [a.length_eq]
    exact hn
  unfold get modify
  simp only [List.getD_eq_getElem?_getD, List.getElem?_modify]
  split
  · rename_i h
    rw [← h, if_pos rfl, List.getElem?_eq_getElem hlen]
    rfl
  · rename_i h
    rw [if_neg (Ne.symm h)]
    cases a.bytes[m / 8]? <;> rfl

theorem mod_eq_iff {n m : Nat} (h : m / 8 = n / 8) : n % 8 = m % 8 ↔ m = n := by
  omega

theorem get_set? {n : Nat} {a b : BitArray size} (h : a.set? n = some b) (m : Nat) :
    b.get m = (a.get m || decide (m = n)) := by
  unfold set? at h
  split at h
  · rename_i hn
    rw [← Option.some.inj h, get_modify _ n m a hn]
    split
    · rename_i hm
      have hlt : n % 8 < 8 := Nat.mod_lt n (by decide)
      simp only [get, hm, mask, UInt8.toBitVec_or, BitVec.getLsbD_or, BitVec.getLsbD_twoPow, hlt, decide_true,
        Bool.true_and, mod_eq_iff hm]
    · rename_i hm
      have hne : m ≠ n := fun heq => hm (by rw [heq])
      rw [decide_eq_false hne, Bool.or_false]
  · cases h

theorem get_clear? {n : Nat} {a b : BitArray size} (h : a.clear? n = some b) (m : Nat) :
    b.get m = (a.get m && !decide (m = n)) := by
  unfold clear? at h
  split at h
  · rename_i hn
    rw [← Option.some.inj h, get_modify _ n m a hn]
    split
    · rename_i hm
      have hlt : n % 8 < 8 := Nat.mod_lt n (by decide)
      have hlt' : m % 8 < 8 := Nat.mod_lt m (by decide)
      simp only [get, hm, mask, UInt8.toBitVec_and, UInt8.toBitVec_not, BitVec.getLsbD_and, BitVec.getLsbD_not,
        BitVec.getLsbD_twoPow, hlt, hlt', decide_true, Bool.true_and, mod_eq_iff hm]
    · rename_i hm
      have hne : m ≠ n := fun heq => hm (by rw [heq])
      rw [decide_eq_false hne, Bool.not_false, Bool.and_true]
  · cases h

theorem set?_isSome_iff {n : Nat} {a : BitArray size} : (∃ b, a.set? n = some b) ↔ n / 8 < size := by
  unfold set?
  split
  · rename_i h
    exact ⟨fun _ => h, fun _ => ⟨_, rfl⟩⟩
  · rename_i h
    exact ⟨fun ⟨b, hb⟩ => (nomatch hb), fun hn => absurd hn h⟩

theorem get_eq_false {a : BitArray size} {n : Nat} (h : ¬n / 8 < size) : a.get n = false := by
  have hlen : a.bytes.length ≤ n / 8 := by
    rw [a.length_eq]
    exact Nat.le_of_not_lt h
  unfold get
  rw [List.getD_eq_default _ _ hlen]
  exact BitVec.getLsbD_zero

theorem mem_bits {a : BitArray size} {n : Nat} : n ∈ a.bits ↔ a.get n = true := by
  unfold bits
  rw [List.mem_filter, List.mem_range]
  refine ⟨And.right, fun h => ⟨?_, h⟩⟩
  have hn : n / 8 < size := by
    apply Decidable.of_not_not
    intro hn
    rw [get_eq_false hn] at h
    exact Bool.false_ne_true h
  omega

theorem ext_get {a b : BitArray size} (h : ∀ n, a.get n = b.get n) : a = b := by
  apply BitArray.ext
  apply List.ext_getElem (a.length_eq.trans b.length_eq.symm)
  intro i ha hb
  apply UInt8.toBitVec_inj.mp
  apply BitVec.eq_of_getLsbD_eq
  intro j hj
  have hbit := h (8 * i + j)
  have hdiv : (8 * i + j) / 8 = i := by omega
  have hmod : (8 * i + j) % 8 = j := by omega
  unfold get at hbit
  rwa [hdiv, hmod, List.getD_eq_getElem _ _ ha, List.getD_eq_getElem _ _ hb] at hbit

end BitArray

end BitArrays
