import Mathlib.Data.Nat.Bitwise
import PqcTpm.Lib.ByteCodec

/-!
# Octet strings as numbers

The order of strings of one length, read as big-endian numbers with and without a sign, and their bits.
-/
namespace ByteCodec

/-- The string as a big-endian two's-complement number; the empty string is 0. -/
def signedBe (bs : Bytes) : Int :=
  if 2 * fromBe bs < 256 ^ bs.length then fromBe bs else (fromBe bs : Int) - 256 ^ bs.length

@[simp] theorem fromBe_nil : fromBe [] = 0 := rfl

variable {x y : UInt8} {as bs : Bytes}

theorem fromBe_cons_lt (hlen : as.length = bs.length) (hxy : x < y) : fromBe (x :: as) < fromBe (y :: bs) := by
  have has := fromBe_lt as
  have hstep : x.toNat + 1 ≤ y.toNat := UInt8.lt_iff_toNat_lt.mp hxy
  rw [fromBe_cons, fromBe_cons, ← hlen]
  calc 256 ^ as.length * x.toNat + fromBe as
      < 256 ^ as.length * x.toNat + 256 ^ as.length := Nat.add_lt_add_left has _
    _ = 256 ^ as.length * (x.toNat + 1) := by rw [Nat.mul_add, Nat.mul_one]
    _ ≤ 256 ^ as.length * y.toNat := Nat.mul_le_mul_left _ hstep
    _ ≤ 256 ^ as.length * y.toNat + fromBe bs := Nat.le_add_right _ _

theorem fromBe_cons_sub (hlen : as.length = bs.length) :
    (fromBe (x :: as) : Int) - fromBe (x :: bs) = (fromBe as : Int) - fromBe bs := by
  rw [fromBe_cons, fromBe_cons, hlen]
  omega

theorem two_mul_fromBe_cons_lt_iff : 2 * fromBe (x :: as) < 256 ^ (x :: as).length ↔ x < 128 := by
  have has := fromBe_lt as
  rw [fromBe_cons, List.length_cons, pow_succ, UInt8.lt_iff_toNat_lt]
  have hcut : (128 : UInt8).toNat = 128 := rfl
  rw [hcut]
  constructor
  · intro h
    by_contra hx
    have hle : 256 ^ as.length * 128 ≤ 256 ^ as.length * x.toNat :=
      Nat.mul_le_mul_left _ (Nat.le_of_not_lt hx)
    omega
  · intro h
    have hle : 256 ^ as.length * (x.toNat + 1) ≤ 256 ^ as.length * 128 := Nat.mul_le_mul_left _ h
    rw [Nat.mul_add, Nat.mul_one] at hle
    omega

theorem signedBe_of_lt (hx : x < 128) : signedBe (x :: as) = fromBe (x :: as) :=
  if_pos (two_mul_fromBe_cons_lt_iff.mpr hx)

theorem signedBe_of_not_lt (hx : ¬x < 128) :
    signedBe (x :: as) = (fromBe (x :: as) : Int) - 256 ^ (x :: as).length :=
  if_neg fun h => hx (two_mul_fromBe_cons_lt_iff.mp h)

theorem signedBe_nonneg (hx : x < 128) : 0 ≤ signedBe (x :: as) := by
  rw [signedBe_of_lt hx]
  exact Int.natCast_nonneg _

theorem signedBe_neg (hx : ¬x < 128) : signedBe (x :: as) < 0 := by
  have hlt : (fromBe (x :: as) : Int) < 256 ^ (x :: as).length := by exact_mod_cast fromBe_lt (x :: as)
  rw [signedBe_of_not_lt hx]
  omega

theorem signedBe_sub (hlen : as.length = bs.length) (hsign : x < 128 ↔ y < 128) :
    signedBe (x :: as) - signedBe (y :: bs) = (fromBe (x :: as) : Int) - fromBe (y :: bs) := by
  by_cases hx : x < 128
  · rw [signedBe_of_lt hx, signedBe_of_lt (hsign.mp hx)]
  · have hy : ¬y < 128 := fun h => hx (hsign.mpr h)
    rw [signedBe_of_not_lt hx, signedBe_of_not_lt hy, List.length_cons, List.length_cons, hlen]
    omega

theorem testBit_fromBe_cons (i : Nat) :
    (fromBe (x :: as)).testBit i =
      if i < 8 * as.length then (fromBe as).testBit i else x.toNat.testBit (i - 8 * as.length) := by
  have hpow : (256 : Nat) ^ as.length = 2 ^ (8 * as.length) := by
    rw [pow_mul]
    rfl
  have hlt : fromBe as < 2 ^ (8 * as.length) := hpow ▸ fromBe_lt as
  rw [fromBe_cons, hpow, Nat.testBit_two_pow_mul_add _ hlt]

theorem fromBe_zipWith_and (hlen : as.length = bs.length) :
    fromBe (List.zipWith (· &&& ·) as bs) = fromBe as &&& fromBe bs := by
  induction as generalizing bs with
  | nil => rw [List.zipWith_nil_left, fromBe_nil, Nat.zero_and]
  | cons x as ih =>
      cases bs with
      | nil => cases hlen
      | cons y bs =>
          have hlen' : as.length = bs.length := Nat.succ.inj hlen
          have hzip : (List.zipWith (· &&& ·) as bs).length = as.length := by
            rw [List.length_zipWith, hlen', Nat.min_self]
          apply Nat.eq_of_testBit_eq
          intro i
          rw [List.zipWith_cons_cons, testBit_fromBe_cons, Nat.testBit_and, testBit_fromBe_cons, testBit_fromBe_cons,
            hzip, ih hlen', ← hlen']
          split
          · exact Nat.testBit_and ..
          · rw [UInt8.toNat_and]
            exact Nat.testBit_and ..

theorem fromBe_inj (hlen : as.length = bs.length) : fromBe as = fromBe bs ↔ as = bs := by
  constructor
  · intro h
    rw [← be_fromBe as, ← be_fromBe bs, h, hlen]
  · rintro rfl
    rfl

@[simp] theorem fromBe_replicate_zero (n : Nat) : fromBe (List.replicate n 0) = 0 := by
  induction n with
  | zero => rfl
  | succ n ih =>
      rw [List.replicate_succ, fromBe_cons, ih]
      rfl

end ByteCodec
