import Mathlib.Data.List.Range
import PqcTpm.Lib.BitArrays

/-!
# Loops over the bits of an array

Two nested loops, over the octets and over the bits of one of them. The inner loop clears every bit that it has
visited and ends when none is left, or at a bound on the number of bits. Together they visit the bits below the
bound that are set, in ascending order.
-/
namespace BitArrays

variable {σ ε : Type} (visit : σ → Nat → Except ε σ)

/-- The bits of one octet; `n` is what is left of the bound. -/
def octetLoop : Nat → UInt8 → UInt8 → Nat → σ → Except ε σ
  | 0, _, _, _, s => .ok s
  | n + 1, bits, mask, bit, s =>
      if bits = 0 then .ok s
      else if bits &&& mask ≠ 0 then do
        let s ← visit s bit
        octetLoop n (bits ^^^ mask) (mask <<< 1) (bit + 1) s
      else octetLoop n bits (mask <<< 1) (bit + 1) s

/-- The octets of an array, from bit number `bit` on. -/
def bitsLoop (max : Nat) : List UInt8 → Nat → σ → Except ε σ
  | [], _, s => .ok s
  | b :: bs, bit, s =>
      if bit < max then do
        let s ← octetLoop visit (max - bit) b 1 bit s
        bitsLoop max bs (bit + 8) s
      else .ok s

/-! ## One octet -/

theorem mask_succ {j : Nat} (hj : j < 8) : BitArray.mask j <<< 1 = if j + 1 < 8 then BitArray.mask (j + 1) else 0 := by
  have hall : ∀ i : Fin 8, BitArray.mask i <<< 1 = if i.val + 1 < 8 then BitArray.mask (i + 1) else 0 := by
    decide
  exact hall ⟨j, hj⟩

theorem getLsbD_mask {j : Nat} (hj : j < 8) (i : Nat) : (BitArray.mask j).toBitVec.getLsbD i = decide (j = i) := by
  rw [BitArray.mask, BitVec.getLsbD_twoPow, Nat.mod_eq_of_lt hj, decide_eq_true hj, Bool.true_and]

theorem eq_zero_iff (bits : UInt8) : bits = 0 ↔ ∀ i, bits.toBitVec.getLsbD i = false := by
  constructor
  · rintro rfl i
    exact BitVec.getLsbD_zero
  · intro h
    apply UInt8.toBitVec_inj.mp
    apply BitVec.eq_of_getLsbD_eq
    intro i _
    rw [h i]
    exact BitVec.getLsbD_zero.symm

theorem and_mask_ne_zero_iff {j : Nat} (hj : j < 8) (bits : UInt8) :
    bits &&& BitArray.mask j ≠ 0 ↔ bits.toBitVec.getLsbD j = true := by
  rw [ne_eq, eq_zero_iff]
  simp only [UInt8.toBitVec_and, BitVec.getLsbD_and, getLsbD_mask hj]
  constructor
  · intro h
    by_contra hbit
    apply h
    intro i
    by_cases hi : j = i
    · rw [← hi, Bool.eq_false_iff.mpr hbit, Bool.false_and]
    · rw [decide_eq_false hi, Bool.and_false]
  · intro hbit h
    have hj' := h j
    rw [hbit, decide_eq_true rfl] at hj'
    cases hj'

variable {visit}

/-- What is left of the octet `b` are its bits from number `j` on; these are visited, up to the bound. -/
theorem octetLoop_eq {b bits mask : UInt8} {j k n base : Nat} {s : σ} (hk : j + k = 8)
    (hmask : mask = if j < 8 then BitArray.mask j else 0)
    (hbits : ∀ i, bits.toBitVec.getLsbD i = (decide (j ≤ i) && b.toBitVec.getLsbD i)) :
    octetLoop visit n bits mask (base + j) s =
      ((List.range' (base + j) k).filter fun i => b.toBitVec.getLsbD (i - base) && decide (i < base + j + n)).foldlM
        visit s := by
  induction k generalizing bits mask j n s with
  | zero =>
      have hzero : bits = 0 := by
        rw [eq_zero_iff]
        intro i
        rw [hbits i]
        by_cases hi : j ≤ i
        · rw [decide_eq_true hi, Bool.true_and]
          exact BitVec.getLsbD_of_ge _ _ (by omega)
        · rw [decide_eq_false hi, Bool.false_and]
      cases n with
      | zero => rfl
      | succ n =>
          rw [octetLoop, if_pos hzero]
          rfl
  | succ k ih =>
      have hj : j < 8 := by omega
      rw [if_pos hj] at hmask
      have hnext := mask_succ hj
      rw [← hmask] at hnext
      have hjump : base + j + 1 = base + (j + 1) := rfl
      rw [List.range'_succ, List.filter_cons, Nat.add_sub_cancel_left, hjump]
      cases n with
      | zero =>
          have hnone : ∀ i ∈ List.range' (base + (j + 1)) k,
              ¬(b.toBitVec.getLsbD (i - base) && decide (i < base + j + 0)) = true := by
            intro i hi hlt
            rw [List.mem_range'_1] at hi
            rw [Bool.and_eq_true, decide_eq_true_eq] at hlt
            omega
          rw [octetLoop, decide_eq_false (by omega), Bool.and_false, if_neg Bool.false_ne_true,
            List.filter_eq_nil_iff.mpr hnone]
          rfl
      | succ n =>
          have hrange : ∀ i ∈ List.range' (base + (j + 1)) k,
              (b.toBitVec.getLsbD (i - base) && decide (i < base + j + (n + 1))) =
                (b.toBitVec.getLsbD (i - base) && decide (i < base + (j + 1) + n)) := by
            intro i _
            rw [show base + j + (n + 1) = base + (j + 1) + n by omega]
          rw [List.filter_congr hrange, decide_eq_true (by omega), Bool.and_true, octetLoop]
          by_cases hzero : bits = 0
          · have hbit : ∀ i, j ≤ i → b.toBitVec.getLsbD i = false := by
              intro i hi
              have h := (eq_zero_iff bits).mp hzero i
              rwa [hbits i, decide_eq_true hi, Bool.true_and] at h
            have hnone : ∀ i ∈ List.range' (base + (j + 1)) k,
                ¬(b.toBitVec.getLsbD (i - base) && decide (i < base + (j + 1) + n)) = true := by
              intro i hi
              rw [List.mem_range'_1] at hi
              rw [hbit (i - base) (by omega)]
              exact Bool.false_ne_true
            rw [if_pos hzero, hbit j (Nat.le_refl j), if_neg Bool.false_ne_true, List.filter_eq_nil_iff.mpr hnone]
            rfl
          · have htest : bits &&& mask ≠ 0 ↔ b.toBitVec.getLsbD j = true := by
              rw [hmask, and_mask_ne_zero_iff hj, hbits j, decide_eq_true (Nat.le_refl j), Bool.true_and]
            rw [if_neg hzero]
            by_cases hbit : b.toBitVec.getLsbD j = true
            · have hrest : ∀ i, (bits ^^^ mask).toBitVec.getLsbD i =
                  (decide (j + 1 ≤ i) && b.toBitVec.getLsbD i) := by
                intro i
                rw [hmask, UInt8.toBitVec_xor, BitVec.getLsbD_xor, getLsbD_mask hj, hbits i]
                by_cases hi : j = i
                · rw [← hi, hbit, decide_eq_true rfl, decide_eq_true (Nat.le_refl j), decide_eq_false (by omega)]
                  rfl
                · rw [decide_eq_false hi, Bool.xor_false]
                  congr 1
                  exact decide_eq_decide.mpr (by omega)
              rw [if_pos (htest.mpr hbit), hbit, if_pos rfl, List.foldlM_cons]
              congr 1
              funext s'
              exact ih (by omega) hnext hrest
            · have hrest : ∀ i, bits.toBitVec.getLsbD i = (decide (j + 1 ≤ i) && b.toBitVec.getLsbD i) := by
                intro i
                rw [hbits i]
                by_cases hi : j = i
                · rw [← hi, Bool.eq_false_iff.mpr hbit, Bool.and_false, Bool.and_false]
                · congr 1
                  exact decide_eq_decide.mpr (by omega)
              rw [if_neg (htest.not.mpr hbit), if_neg hbit]
              exact ih (by omega) hnext hrest

theorem octetLoop_start {b : UInt8} {n base : Nat} {s : σ} :
    octetLoop visit n b 1 base s =
      ((List.range' base 8).filter fun i => b.toBitVec.getLsbD (i - base) && decide (i < base + n)).foldlM visit s :=
  octetLoop_eq (j := 0) (k := 8) rfl rfl fun i => by rw [decide_eq_true (Nat.zero_le i), Bool.true_and]

/-! ## All octets -/

theorem bitsLoop_eq {max base : Nat} {bytes : List UInt8} {s : σ} :
    bitsLoop visit max bytes base s =
      ((List.range' base (8 * bytes.length)).filter fun i =>
        (bytes.getD ((i - base) / 8) 0).toBitVec.getLsbD ((i - base) % 8) && decide (i < max)).foldlM visit s := by
  induction bytes generalizing base s with
  | nil => rfl
  | cons b bs ih =>
      by_cases hbase : base < max
      · have hfirst : ∀ i ∈ List.range' base 8,
            (b.toBitVec.getLsbD (i - base) && decide (i < base + (max - base))) =
              (((b :: bs).getD ((i - base) / 8) 0).toBitVec.getLsbD ((i - base) % 8) && decide (i < max)) := by
          intro i hi
          rw [List.mem_range'_1] at hi
          rw [Nat.div_eq_of_lt (by omega), Nat.mod_eq_of_lt (by omega), List.getD_cons_zero,
            show base + (max - base) = max by omega]
        have hrest : ∀ i ∈ List.range' (base + 8) (8 * bs.length),
            ((bs.getD ((i - (base + 8)) / 8) 0).toBitVec.getLsbD ((i - (base + 8)) % 8) && decide (i < max)) =
              (((b :: bs).getD ((i - base) / 8) 0).toBitVec.getLsbD ((i - base) % 8) && decide (i < max)) := by
          intro i hi
          rw [List.mem_range'_1] at hi
          have hdiv : (i - base) / 8 = (i - (base + 8)) / 8 + 1 := by omega
          have hmod : (i - base) % 8 = (i - (base + 8)) % 8 := by omega
          rw [hdiv, hmod, List.getD_cons_succ]
        rw [bitsLoop, if_pos hbase, octetLoop_start, List.filter_congr hfirst, List.length_cons,
          show 8 * (bs.length + 1) = 8 + 8 * bs.length by omega, ← List.range'_append_1, List.filter_append,
          List.foldlM_append]
        congr 1
        funext s'
        rw [ih, List.filter_congr hrest]
      · have hnone : ∀ i ∈ List.range' base (8 * (b :: bs).length),
            ¬(((b :: bs).getD ((i - base) / 8) 0).toBitVec.getLsbD ((i - base) % 8) && decide (i < max)) = true := by
          intro i hi
          rw [List.mem_range'_1] at hi
          rw [decide_eq_false (by omega), Bool.and_false]
          exact Bool.false_ne_true
        rw [bitsLoop, if_neg hbase, List.filter_eq_nil_iff.mpr hnone]
        rfl

theorem bitsLoop_bits {size max : Nat} (a : BitArray size) (s : σ) :
    bitsLoop visit max a.bytes 0 s = (a.bits.filter fun n => decide (n < max)).foldlM visit s := by
  rw [bitsLoop_eq, a.length_eq, BitArray.bits, List.filter_filter, List.range_eq_range']
  congr 1
  apply List.filter_congr
  intro i _
  rw [Nat.sub_zero, Bool.and_comm]
  rfl

end BitArrays
