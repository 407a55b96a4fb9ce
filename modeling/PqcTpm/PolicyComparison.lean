import PqcTpm.Lib.ByteOrder
import PqcTpm.Lib.TracedReads
import PqcTpm.Types

/-!
# Comparisons in policies

`PolicySptCheckCondition` of `Policy_spt.c` over the comparisons of `MathOnByteBuffers.c`, with the octets they
read, and the three commands that use it.
-/
namespace PqcTpm
open ByteCodec TracedReads Traced

/-- `TPM_EO`. -/
inductive TpmEo
  | eq | neq | signedGt | unsignedGt | signedLt | unsignedLt | signedGe | unsignedGe | signedLe | unsignedLe
  | bitset | bitclear
  deriving DecidableEq, Repr

namespace TpmEo

def code : TpmEo → Nat
  | eq => 0x0000
  | neq => 0x0001
  | signedGt => 0x0002
  | unsignedGt => 0x0003
  | signedLt => 0x0004
  | unsignedLt => 0x0005
  | signedGe => 0x0006
  | unsignedGe => 0x0007
  | signedLe => 0x0008
  | unsignedLe => 0x0009
  | bitset => 0x000A
  | bitclear => 0x000B

def all : List TpmEo :=
  [eq, neq, signedGt, unsignedGt, signedLt, unsignedLt, signedGe, unsignedGe, signedLe, unsignedLe, bitset, bitclear]

/-- The codes that `TPM_EO_Unmarshal` lets through. -/
def ofCode? (n : Nat) : Option TpmEo := all.find? (·.code == n)

@[simp] theorem ofCode?_code (op : TpmEo) : ofCode? op.code = some op := by
  cases op <;> rfl

def isSigned : TpmEo → Bool
  | signedGt | signedLt | signedGe | signedLe => true
  | _ => false

/-- What the name of the operation says of two operands. -/
def Holds (a b : Bytes) : TpmEo → Prop
  | eq => fromBe a = fromBe b
  | neq => fromBe a ≠ fromBe b
  | signedGt => signedBe a > signedBe b
  | unsignedGt => fromBe a > fromBe b
  | signedLt => signedBe a < signedBe b
  | unsignedLt => fromBe a < fromBe b
  | signedGe => signedBe a ≥ signedBe b
  | unsignedGe => fromBe a ≥ fromBe b
  | signedLe => signedBe a ≤ signedBe b
  | unsignedLe => fromBe a ≤ fromBe b
  | bitset => fromBe a &&& fromBe b = fromBe b
  | bitclear => fromBe a &&& fromBe b = 0

end TpmEo

section
variable (a b : Int → UInt8)

/-- The loop of `UnsignedCompareB` with `n` octets left. -/
def unsignedCompareLoop (i : Int) : Nat → Traced Int
  | 0 => pure 0
  | n + 1 => do
      let x ← read a i
      let y ← read b i
      if x ≠ y then pure (if x > y then 1 else -1) else unsignedCompareLoop (i + 1) n

/-- `UnsignedCompareB`. -/
def unsignedCompareB (aSize bSize : Nat) : Traced Int :=
  if aSize > bSize then pure 1
  else if aSize < bSize then pure (-1)
  else unsignedCompareLoop a b 0 aSize

/-- `SignedCompareB`. -/
def signedCompareB (aSize bSize : Nat) : Traced Int := do
  let x ← read a 0
  let y ← read b 0
  if (x ^^^ y) &&& 0x80 > 0 then pure (if x &&& 0x80 ≠ 0 then -1 else 1) else unsignedCompareB a b aSize bSize

/-- The loops of `TPM_EO_BITSET` and `TPM_EO_BITCLEAR` with `n` octets left. -/
def bitLoop (keeps : UInt8 → UInt8 → Bool) (i : Int) : Nat → Traced Bool
  | 0 => pure true
  | n + 1 => do
      let x ← read a i
      let y ← read b i
      if !keeps x y then pure false else bitLoop keeps (i + 1) n

/-- A case of the `switch` in `PolicySptCheckCondition`. -/
def TpmEo.check (size : Nat) : TpmEo → Traced Bool
  | eq => do pure (decide ((← unsignedCompareB a b size size) = 0))
  | neq => do pure (decide ((← unsignedCompareB a b size size) ≠ 0))
  | signedGt => do pure (decide ((← signedCompareB a b size size) > 0))
  | unsignedGt => do pure (decide ((← unsignedCompareB a b size size) > 0))
  | signedLt => do pure (decide ((← signedCompareB a b size size) < 0))
  | unsignedLt => do pure (decide ((← unsignedCompareB a b size size) < 0))
  | signedGe => do pure (decide ((← signedCompareB a b size size) ≥ 0))
  | unsignedGe => do pure (decide ((← unsignedCompareB a b size size) ≥ 0))
  | signedLe => do pure (decide ((← signedCompareB a b size size) ≤ 0))
  | unsignedLe => do pure (decide ((← unsignedCompareB a b size size) ≤ 0))
  | bitset => bitLoop a b (fun x y => x &&& y == y) 0 size
  | bitclear => bitLoop a b (fun x y => x &&& y == 0) 0 size

/-- `PolicySptCheckCondition`; `a` and `b` are the memory at `opA` and `opB`. -/
def policySptCheckCondition (operation : Nat) (size : Nat) : Traced (Except Fault Bool) :=
  match TpmEo.ofCode? operation with
  | some op => do pure (.ok (← op.check a b size))
  | none => pure (.error .failureMode)

end

/-! ## The commands -/

section
variable (operation : Nat) (operandB : Bytes)

/-- `TPM_RC_POLICY` where the condition is not met. -/
def conditionVerdict (a b : Int → UInt8) (size : Nat) : Traced (Except Fault Unit) := do
  match ← policySptCheckCondition a b operation size with
  | .error e => pure (.error e)
  | .ok true => pure (.ok ())
  | .ok false => pure (.error (.of .policy))

/-- The comparison in `TPM2_PolicyNV`: the octets asked for are copied to the front of `nvBuffer`. What stands
behind the two strings is given by `nvBuffer` and `inBuffer`. -/
def policyNvComparison (data : Bytes) (offset : Nat) (nvBuffer inBuffer : Int → UInt8) :
    Traced (Except Fault Unit) :=
  if offset > data.length then pure (.error (.at .value 0x240))
  else if data.length - offset < operandB.length then pure (.error (.at .size 0x140))
  else conditionVerdict operation (layout ((data.drop offset).take operandB.length) nvBuffer)
    (layout operandB inBuffer) operandB.length

/-- `TPM2_PolicyCounterTimer`: its limits hold for a trial session too. -/
def policyCounterTimerLimits (infoData : Bytes) (offset : Nat) : Except Fault Unit :=
  if offset > infoData.length then .error (.at .value 0x240)
  else if offset + operandB.length > infoData.length then .error (.of .range)
  else .ok ()

/-- The comparison in `TPM2_PolicyCounterTimer`. -/
def policyCounterTimerComparison (infoData : Bytes) (offset : Nat) (behind inBuffer : Int → UInt8) :
    Traced (Except Fault Unit) :=
  conditionVerdict operation (fun i => layout infoData behind (offset + i)) (layout operandB inBuffer) operandB.length

/-- The comparison in `TPM2_PolicyCapability`; a property that is not found has no octets. -/
def policyCapabilityComparison (propertyData : Bytes) (offset : Nat) (behind inBuffer : Int → UInt8) :
    Traced (Except Fault Unit) :=
  if propertyData.length = 0 then
    if operation ≠ TpmEo.neq.code then pure (.error (.of .policy)) else pure (.ok ())
  else if offset > propertyData.length then pure (.error (.at .value 0x240))
  else if propertyData.length - offset < operandB.length then pure (.error (.at .size 0x140))
  else conditionVerdict operation (fun i => layout propertyData behind (offset + i)) (layout operandB inBuffer)
    operandB.length

end

/-! ## What the loops compute, and what they read -/

section
variable {a b : Int → UInt8}

theorem unsignedCompareLoop_within {lo hi i : Int} {n : Nat} (hlo : lo ≤ i) (hhi : i + n ≤ hi) :
    (unsignedCompareLoop a b i n).Within lo hi := by
  induction n generalizing i with
  | zero => exact within_pure _
  | succ n ih =>
      simp only [unsignedCompareLoop, within_bind, within_read]
      refine ⟨⟨hlo, by omega⟩, ⟨hlo, by omega⟩, ?_⟩
      split
      · exact within_pure _
      · apply ih
        · omega
        · omega

/-- The octets in front have been equal, so the rest decides. -/
theorem unsignedCompareLoop_value {i : Int} {as bs : Bytes} (hlen : as.length = bs.length)
    (ha : Holds a i as) (hb : Holds b i bs) :
    (unsignedCompareLoop a b i as.length).value = Int.sign ((fromBe as : Int) - fromBe bs) := by
  induction as generalizing i bs with
  | nil =>
      obtain rfl := List.length_eq_zero_iff.mp hlen.symm
      rfl
  | cons x as ih =>
      cases bs with
      | nil => cases hlen
      | cons y bs =>
          have hlen' : as.length = bs.length := Nat.succ.inj hlen
          obtain ⟨hx, has⟩ := holds_cons.mp ha
          obtain ⟨hy, hbs⟩ := holds_cons.mp hb
          simp only [List.length_cons, unsignedCompareLoop, value_bind, value_read, hx, hy]
          by_cases hxy : x = y
          · subst hxy
            rw [if_neg (fun h => h rfl), ih hlen' has hbs, fromBe_cons_sub hlen']
          · rw [if_pos hxy]
            by_cases hgt : x > y
            · have hlt := fromBe_cons_lt hlen'.symm hgt
              rw [if_pos hgt, value_pure]
              symm
              apply Int.sign_eq_one_iff_pos.mpr
              omega
            · have hle : x < y := by
                have hne : x.toNat ≠ y.toNat := fun h => hxy (UInt8.toNat.inj h)
                rw [gt_iff_lt, UInt8.lt_iff_toNat_lt] at hgt
                rw [UInt8.lt_iff_toNat_lt]
                omega
              have hlt := fromBe_cons_lt hlen' hle
              rw [if_neg hgt, value_pure]
              symm
              apply Int.sign_eq_neg_one_iff_neg.mpr
              omega

theorem unsignedCompareB_eq (n : Nat) : unsignedCompareB a b n n = unsignedCompareLoop a b 0 n := by
  rw [unsignedCompareB, if_neg (Nat.lt_irrefl n), if_neg (Nat.lt_irrefl n)]

theorem and_highBit (x : UInt8) : x &&& 0x80 = if x < 128 then 0 else 0x80 := by
  have hall : ∀ n : Fin 256, UInt8.ofFin n &&& 0x80 = if UInt8.ofFin n < 128 then 0 else 0x80 := by decide +kernel
  exact hall x.toFin

theorem signBits_iff (x y : UInt8) : (x ^^^ y) &&& 0x80 > 0 ↔ ¬(x < 128 ↔ y < 128) := by
  have hsplit : (x ^^^ y) &&& 0x80 = (x &&& 0x80) ^^^ (y &&& 0x80) := by
    apply UInt8.toNat.inj
    simp only [UInt8.toNat_and, UInt8.toNat_xor, Nat.and_xor_distrib_right]
  rw [hsplit, and_highBit, and_highBit]
  by_cases hx : x < 128
  · by_cases hy : y < 128
    · simp only [hx, hy, if_true]
      decide
    · simp only [hx, hy, if_true, if_false]
      decide
  · by_cases hy : y < 128
    · simp only [hx, hy, if_true, if_false]
      decide
    · simp only [hx, hy, if_false]
      decide

theorem signedCompareB_value {as bs : Bytes} (hlen : as.length = bs.length) (hne : as ≠ [])
    (ha : Holds a 0 as) (hb : Holds b 0 bs) :
    (signedCompareB a b as.length as.length).value = Int.sign (signedBe as - signedBe bs) := by
  cases as with
  | nil => exact absurd rfl hne
  | cons x as =>
      cases bs with
      | nil => cases hlen
      | cons y bs =>
          have hx := (holds_cons.mp ha).1
          have hy := (holds_cons.mp hb).1
          simp only [signedCompareB, value_bind, value_read, hx, hy]
          by_cases hsign : x < 128 ↔ y < 128
          · rw [if_neg ((signBits_iff x y).not.mpr (not_not.mpr hsign)), unsignedCompareB_eq,
              unsignedCompareLoop_value hlen ha hb, signedBe_sub (Nat.succ.inj hlen) hsign]
          · rw [if_pos ((signBits_iff x y).mpr hsign), and_highBit, value_pure]
            symm
            by_cases hx' : x < 128
            · have hy' : ¬y < 128 := fun h => hsign (iff_of_true hx' h)
              have hpos := @signedBe_nonneg _ as hx'
              have hneg := @signedBe_neg _ bs hy'
              rw [if_pos hx', if_neg (fun h => h rfl)]
              apply Int.sign_eq_one_iff_pos.mpr
              omega
            · have hy' : y < 128 := by
                by_contra h
                exact hsign (iff_of_false hx' h)
              have hneg := @signedBe_neg _ as hx'
              have hpos := @signedBe_nonneg _ bs hy'
              rw [if_neg hx', if_pos (by decide)]
              apply Int.sign_eq_neg_one_iff_neg.mpr
              omega

theorem signedCompareB_within {n : Nat} : (signedCompareB a b n n).Within 0 n ↔ n ≠ 0 := by
  simp only [signedCompareB, within_bind, within_read]
  constructor
  · rintro ⟨⟨_, h⟩, _⟩
    omega
  · intro h
    refine ⟨⟨Int.le_refl 0, by omega⟩, ⟨Int.le_refl 0, by omega⟩, ?_⟩
    split
    · exact within_pure _
    · rw [unsignedCompareB_eq]
      apply unsignedCompareLoop_within
      · exact Int.le_refl 0
      · omega

theorem bitLoop_within {keeps : UInt8 → UInt8 → Bool} {lo hi i : Int} {n : Nat} (hlo : lo ≤ i) (hhi : i + n ≤ hi) :
    (bitLoop a b keeps i n).Within lo hi := by
  induction n generalizing i with
  | zero => exact within_pure _
  | succ n ih =>
      simp only [bitLoop, within_bind, within_read]
      refine ⟨⟨hlo, by omega⟩, ⟨hlo, by omega⟩, ?_⟩
      split
      · exact within_pure _
      · apply ih
        · omega
        · omega

theorem bitLoop_value {keeps : UInt8 → UInt8 → Bool} {i : Int} {as bs : Bytes} (hlen : as.length = bs.length)
    (ha : Holds a i as) (hb : Holds b i bs) :
    (bitLoop a b keeps i as.length).value = true ↔ ∀ p ∈ as.zip bs, keeps p.1 p.2 = true := by
  induction as generalizing i bs with
  | nil => exact iff_of_true rfl fun p hp => nomatch hp
  | cons x as ih =>
      cases bs with
      | nil => cases hlen
      | cons y bs =>
          obtain ⟨hx, has⟩ := holds_cons.mp ha
          obtain ⟨hy, hbs⟩ := holds_cons.mp hb
          simp only [List.length_cons, bitLoop, value_bind, value_read, hx, hy, List.zip_cons_cons, List.forall_mem_cons]
          cases hkeeps : keeps x y with
          | false => exact iff_of_false nofun fun h => nomatch h.1
          | true =>
              rw [if_neg (by decide), ih (Nat.succ.inj hlen) has hbs]
              exact (and_iff_right rfl).symm

end

/-! ## The operations -/

/-- Two operands of one size, and the memory from each of them on. -/
structure Operands where
  a : Bytes
  b : Bytes
  opA : Int → UInt8
  opB : Int → UInt8
  length_eq : a.length = b.length
  holdsA : TracedReads.Holds opA 0 a
  holdsB : TracedReads.Holds opB 0 b

namespace Operands

def check (x : Operands) (op : TpmEo) : Traced Bool := op.check x.opA x.opB x.a.length

variable (x : Operands)

theorem unsigned_value :
    (unsignedCompareB x.opA x.opB x.a.length x.a.length).value = Int.sign ((fromBe x.a : Int) - fromBe x.b) := by
  rw [unsignedCompareB_eq, unsignedCompareLoop_value x.length_eq x.holdsA x.holdsB]

theorem unsigned_within :
    (unsignedCompareB x.opA x.opB x.a.length x.a.length).Within 0 x.a.length := by
  rw [unsignedCompareB_eq]
  apply unsignedCompareLoop_within
  · exact Int.le_refl 0
  · omega

/-- What every octet of the two operands satisfies, in terms of the octets of `a & b`. -/
theorem bits_value {keeps : UInt8 → UInt8 → Bool} {f : UInt8 → UInt8 → UInt8}
    (hkeeps : ∀ u v, keeps u v = true ↔ u &&& v = f u v) :
    (bitLoop x.opA x.opB keeps 0 x.a.length).value = true ↔
      List.zipWith (· &&& ·) x.a x.b = List.zipWith f x.a x.b := by
  rw [bitLoop_value x.length_eq x.holdsA x.holdsB, ← List.map_uncurry_zip_eq_zipWith,
    ← List.map_uncurry_zip_eq_zipWith, List.map_inj_left]
  constructor
  · intro h p hp
    exact (hkeeps p.1 p.2).mp (h p hp)
  · intro h p hp
    exact (hkeeps p.1 p.2).mpr (h p hp)

theorem bitset_value :
    (bitLoop x.opA x.opB (fun u v => u &&& v == v) 0 x.a.length).value = true ↔
      fromBe x.a &&& fromBe x.b = fromBe x.b := by
  have hzip : (List.zipWith (· &&& ·) x.a x.b).length = x.b.length := by
    rw [List.length_zipWith, x.length_eq, Nat.min_self]
  have hsecond : List.zipWith (fun _ v => v) x.a x.b = x.b := by
    rw [← List.map_uncurry_zip_eq_zipWith]
    exact List.map_snd_zip x.length_eq.ge
  rw [x.bits_value (f := fun _ v => v) (fun u v => beq_iff_eq), hsecond, ← fromBe_zipWith_and x.length_eq,
    fromBe_inj hzip]

theorem bitclear_value :
    (bitLoop x.opA x.opB (fun u v => u &&& v == 0) 0 x.a.length).value = true ↔ fromBe x.a &&& fromBe x.b = 0 := by
  have hzip : (List.zipWith (· &&& ·) x.a x.b).length = x.a.length := by
    rw [List.length_zipWith, ← x.length_eq, Nat.min_self]
  have hzero : List.zipWith (fun _ _ => 0) x.a x.b = List.replicate x.a.length (0 : UInt8) := by
    rw [← List.map_uncurry_zip_eq_zipWith]
    refine List.eq_replicate_iff.mpr ⟨?_, ?_⟩
    · rw [List.length_map, List.length_zip, ← x.length_eq, Nat.min_self]
    · intro u hu
      obtain ⟨p, _, rfl⟩ := List.mem_map.mp hu
      rfl
  rw [x.bits_value (f := fun _ _ => 0) (fun u v => beq_iff_eq), hzero, ← fromBe_zipWith_and x.length_eq,
    ← fromBe_inj (hzip.trans List.length_replicate.symm), fromBe_replicate_zero]

/-- The answer is what the name says, for a signed comparison only where there is a sign. -/
theorem check_value {op : TpmEo} (hsign : op.isSigned = true → x.a ≠ []) :
    (x.check op).value = true ↔ op.Holds x.a x.b := by
  have hu := x.unsigned_value
  have hs : op.isSigned = true →
      (signedCompareB x.opA x.opB x.a.length x.a.length).value = Int.sign (signedBe x.a - signedBe x.b) :=
    fun h => signedCompareB_value x.length_eq (hsign h) x.holdsA x.holdsB
  cases op with
  | eq =>
      simp only [check, TpmEo.check, value_bind, value_pure, decide_eq_true_eq, hu, TpmEo.Holds, Int.sign_eq_zero_iff_zero]
      omega
  | neq =>
      simp only [check, TpmEo.check, value_bind, value_pure, decide_eq_true_eq, hu, TpmEo.Holds, ne_eq,
        Int.sign_eq_zero_iff_zero]
      omega
  | unsignedGt | unsignedLt | unsignedGe | unsignedLe =>
      simp only [check, TpmEo.check, value_bind, value_pure, decide_eq_true_eq, hu, TpmEo.Holds, gt_iff_lt, ge_iff_le,
        Int.sign_pos_iff, Int.sign_neg_iff, Int.sign_nonneg_iff, Int.sign_nonpos_iff]
      omega
  | signedGt | signedLt | signedGe | signedLe =>
      simp only [check, TpmEo.check, value_bind, value_pure, decide_eq_true_eq, hs rfl, TpmEo.Holds, gt_iff_lt, ge_iff_le,
        Int.sign_pos_iff, Int.sign_neg_iff, Int.sign_nonneg_iff, Int.sign_nonpos_iff]
      omega
  | bitset => exact x.bitset_value
  | bitclear => exact x.bitclear_value

theorem check_within_iff (op : TpmEo) :
    (x.check op).Within 0 x.a.length ↔ (op.isSigned = true → x.a ≠ []) := by
  have hu := x.unsigned_within
  have hbits : ∀ keeps, (bitLoop x.opA x.opB keeps 0 x.a.length).Within 0 x.a.length :=
    fun keeps => bitLoop_within (Int.le_refl 0) (by omega)
  have hs : (signedCompareB x.opA x.opB x.a.length x.a.length).Within 0 x.a.length ↔ x.a ≠ [] :=
    signedCompareB_within.trans List.length_eq_zero_iff.not
  cases op with
  | eq | neq | unsignedGt | unsignedLt | unsignedGe | unsignedLe =>
      simp only [check, TpmEo.check, within_bind, within_pure, and_true]
      exact iff_of_true hu fun h => absurd h Bool.false_ne_true
  | signedGt | signedLt | signedGe | signedLe =>
      simp only [check, TpmEo.check, within_bind, within_pure, and_true, hs]
      exact ⟨fun h _ => h, fun h => h rfl⟩
  | bitset | bitclear => exact iff_of_true (hbits _) fun h => absurd h Bool.false_ne_true

/-- The comparison means what it names, and stays inside its operands. -/
structure ComparesAsNamed (op : TpmEo) : Prop where
  value : ∃ r, (policySptCheckCondition x.opA x.opB op.code x.a.length).value = .ok r ∧ (r = true ↔ op.Holds x.a x.b)
  reads : (policySptCheckCondition x.opA x.opB op.code x.a.length).Within 0 x.a.length

theorem policySptCheckCondition_eq (op : TpmEo) :
    policySptCheckCondition x.opA x.opB op.code x.a.length =
      (x.check op >>= fun r => pure (.ok r)) := by
  rw [policySptCheckCondition, TpmEo.ofCode?_code]
  rfl

theorem comparesAsNamed {op : TpmEo} (hsign : op.isSigned = true → x.a ≠ []) : x.ComparesAsNamed op := by
  have heq := x.policySptCheckCondition_eq op
  refine ⟨⟨(x.check op).value, ?_, x.check_value hsign⟩, ?_⟩
  · rw [heq]
    rfl
  · rw [heq, within_bind]
    exact ⟨(x.check_within_iff op).mpr hsign, within_pure _⟩

/-- Every operation keeps its meaning and its bounds, but for the signed comparisons of empty operands: these
read an octet of each all the same. -/
theorem comparesAsNamed_iff (op : TpmEo) : x.ComparesAsNamed op ↔ (op.isSigned = true → x.a ≠ []) := by
  refine ⟨?_, x.comparesAsNamed⟩
  rintro ⟨_, hreads⟩
  rw [x.policySptCheckCondition_eq op, within_bind] at hreads
  exact (x.check_within_iff op).mp hreads.1

end Operands

/-! ## What the commands compare -/

theorem holds_layout_shift {bs : Bytes} {offset n : Nat} (rest : Int → UInt8) :
    TracedReads.Holds (fun i => layout bs rest (offset + i)) 0 ((bs.drop offset).take n) := by
  intro i b hb
  have hdrop : bs[offset + i]? = some b := by
    rw [List.getElem?_take] at hb
    split at hb
    · rwa [List.getElem?_drop] at hb
    · cases hb
  have haddress : (offset : Int) + (0 + (i : Int)) = 0 + ((offset + i : Nat) : Int) := by omega
  change layout bs rest ((offset : Int) + (0 + (i : Int))) = b
  rw [haddress]
  exact layout_holds bs rest (offset + i) b hdrop

/-- The operands of `TPM2_PolicyCounterTimer` and `TPM2_PolicyCapability`: a part of the data, where it stands. -/
def Operands.part (data operandB : Bytes) (offset : Nat) (behind inBuffer : Int → UInt8)
    (hlimit : offset + operandB.length ≤ data.length) : Operands where
  a := (data.drop offset).take operandB.length
  b := operandB
  opA i := layout data behind (offset + i)
  opB := layout operandB inBuffer
  length_eq := by
    rw [List.length_take, List.length_drop]
    omega
  holdsA := holds_layout_shift behind
  holdsB := layout_holds operandB inBuffer

/-- The operands of `TPM2_PolicyNV`: a copy of the part. -/
def Operands.copy (data operandB : Bytes) (offset : Nat) (nvBuffer inBuffer : Int → UInt8)
    (hlimit : offset + operandB.length ≤ data.length) : Operands where
  a := (data.drop offset).take operandB.length
  b := operandB
  opA := layout ((data.drop offset).take operandB.length) nvBuffer
  opB := layout operandB inBuffer
  length_eq := by
    rw [List.length_take, List.length_drop]
    omega
  holdsA := layout_holds _ nvBuffer
  holdsB := layout_holds operandB inBuffer

theorem Operands.conditionVerdict_ok_iff (x : Operands) {op : TpmEo} (hsign : op.isSigned = true → x.b ≠ []) :
    (conditionVerdict op.code x.opA x.opB x.b.length).value = .ok () ↔ op.Holds x.a x.b := by
  have hne : op.isSigned = true → x.a ≠ [] := by
    intro h hnil
    have hlen := x.length_eq
    rw [hnil] at hlen
    exact hsign h (List.length_eq_zero_iff.mp hlen.symm)
  obtain ⟨r, hr, hiff⟩ := (x.comparesAsNamed hne).value
  rw [← hiff, ← x.length_eq, conditionVerdict, value_bind, hr]
  cases r with
  | true => exact iff_of_true rfl rfl
  | false => exact iff_of_false nofun nofun

section
variable {op : TpmEo} {data operandB : Bytes} {offset : Nat} {behind inBuffer : Int → UInt8}

theorem policyNvComparison_ok_iff (hlimit : offset + operandB.length ≤ data.length)
    (hsign : op.isSigned = true → operandB ≠ []) :
    (policyNvComparison op.code operandB data offset behind inBuffer).value = .ok () ↔
      op.Holds ((data.drop offset).take operandB.length) operandB := by
  rw [policyNvComparison, if_neg (by omega), if_neg (by omega)]
  exact (Operands.copy data operandB offset behind inBuffer hlimit).conditionVerdict_ok_iff hsign

theorem policyCounterTimerComparison_ok_iff (hlimit : policyCounterTimerLimits operandB data offset = .ok ())
    (hsign : op.isSigned = true → operandB ≠ []) :
    (policyCounterTimerComparison op.code operandB data offset behind inBuffer).value = .ok () ↔
      op.Holds ((data.drop offset).take operandB.length) operandB := by
  have hlimit' : offset + operandB.length ≤ data.length := by
    unfold policyCounterTimerLimits at hlimit
    split at hlimit
    · cases hlimit
    · split at hlimit
      · cases hlimit
      · omega
  exact (Operands.part data operandB offset behind inBuffer hlimit').conditionVerdict_ok_iff hsign

theorem policyCapabilityComparison_ok_iff (hfound : data ≠ []) (hlimit : offset + operandB.length ≤ data.length)
    (hsign : op.isSigned = true → operandB ≠ []) :
    (policyCapabilityComparison op.code operandB data offset behind inBuffer).value = .ok () ↔
      op.Holds ((data.drop offset).take operandB.length) operandB := by
  have hlen : data.length ≠ 0 := fun h => hfound (List.length_eq_zero_iff.mp h)
  rw [policyCapabilityComparison, if_neg hlen, if_neg (by omega), if_neg (by omega)]
  exact (Operands.part data operandB offset behind inBuffer hlimit).conditionVerdict_ok_iff hsign

end

/-- `nvBuffer` as an earlier command may have left it. -/
def staleBuffer : Int → UInt8 := fun _ => 0x80

/-- `TPM2_PolicyNV` with an empty operand, at the front of an index of eight octets. -/
def emptyOperands : Operands :=
  .copy (List.replicate 8 0) [] 0 staleBuffer (fun _ => 0) (by decide)

/-- The empty string is not at least the empty string, where the octets behind the buffers say so. -/
theorem emptyOperands_signedGe :
    ¬emptyOperands.ComparesAsNamed .signedGe ∧ TpmEo.signedGe.Holds emptyOperands.a emptyOperands.b ∧
      (policyNvComparison TpmEo.signedGe.code [] (List.replicate 8 0) 0 staleBuffer (fun _ => 0)).value =
        .error (.of .policy) := by
  refine ⟨?_, Int.le_refl _, by decide⟩
  rintro ⟨_, hreads⟩
  have hlt := (hreads 0 (by decide)).2
  exact absurd hlt (by decide)

end PqcTpm
