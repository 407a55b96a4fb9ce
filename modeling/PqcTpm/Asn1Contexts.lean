import PqcTpm.Lib.TracedReads
import PqcTpm.X509

/-!
# Unmarshaling contexts

The reading half of `TpmAsn1.c` on contexts as the code keeps them: a pointer, a signed size that is -1 after a
failure, and an offset. What a context has left is the string that the functions of `X509` read.
-/
namespace PqcTpm
open ByteCodec TracedReads Traced

/-- `ASN1UnmarshalContext`. -/
structure Asn1Context where
  buffer : Int
  size : Int
  offset : Int
  tag : UInt8

namespace Asn1Context
variable (m : Int → UInt8) (c : Asn1Context)

/-- `ASN1UnmarshalContextInitialize`. -/
def asn1UnmarshalContextInitialize (size buffer : Int) : Option Asn1Context :=
  if 0 < size then some ⟨buffer, size, 0, 0xFF⟩ else none

/-- A persistent failure. -/
def failed : Asn1Context := { c with size := -1 }

def advance (n : Int) : Asn1Context := { c with offset := c.offset + n }

/-- The octets from the offset to the end. -/
def left : Bytes := (readBlock m (c.buffer + c.offset) (c.size - c.offset).toNat).value

/-- `NEXT_OCTET`. -/
def nextOctet : Traced (UInt8 × Asn1Context) := do
  let b ← read m (c.buffer + c.offset)
  pure (b, c.advance 1)

/-- `CHECK_SIZE`, which the length has passed or the context has failed. -/
def checkSize (length : Int) : Int × Asn1Context :=
  if c.offset ≤ length + c.offset ∧ length + c.offset ≤ c.size then (length, c) else (-1, c.failed)

/-- The octets of a length that takes more than one; the first is `0x81` or `0x82`. -/
def longLength (first : UInt8) : Traced (Int × Asn1Context) :=
  if ¬ (first.toNat % 128 : Nat) + c.offset ≤ c.size then pure (-1, c.failed)
  else if first = 0x82 then do
    let (high, c) ← c.nextOctet m
    if high < 0x80 then do
      let (low, c) ← c.nextOctet m
      pure (c.checkSize (high.toNat * 256 + low.toNat : Nat))
    else pure (-1, c.failed)
  else if first = 0x81 then do
    let (low, c) ← c.nextOctet m
    pure (c.checkSize low.toNat)
  else pure (-1, c.failed)

/-- `ASN1DecodeLength`. -/
def decodeLength : Traced (Int × Asn1Context) :=
  if c.offset < c.size then do
    let (first, c) ← c.nextOctet m
    if first < 0x80 then pure (c.checkSize first.toNat) else c.longLength m first
  else pure (-1, c.failed)

/-- `ASN1NextTag`. -/
def nextTag : Traced (Int × Asn1Context) :=
  if c.offset < c.size then do
    let (tag, c) ← c.nextOctet m
    if tag &&& 0x1F = 0x1F then pure (-1, { c.failed with tag := 0xFF })
    else ({ c with tag } : Asn1Context).decodeLength m
  else pure (-1, { c.failed with tag := 0xFF })

/-! ## What is left -/

theorem left_of_le (h : c.size ≤ c.offset) : c.left m = [] := by
  rw [left, Int.toNat_of_nonpos (by omega)]
  rfl

theorem left_cons (h : c.offset < c.size) : c.left m = m (c.buffer + c.offset) :: (c.advance 1).left m := by
  obtain ⟨n, hn⟩ : ∃ n, (c.size - c.offset).toNat = n + 1 := ⟨(c.size - c.offset).toNat - 1, by omega⟩
  have hrest : ((c.advance 1).size - (c.advance 1).offset).toNat = n := by
    simp only [advance]
    omega
  rw [left, left, hn, hrest, readBlock]
  simp only [value_bind, value_read, value_pure, advance, Int.add_assoc]

theorem left_length : (c.left m).length = (c.size - c.offset).toNat := by
  generalize hn : (c.size - c.offset).toNat = n
  induction n generalizing c with
  | zero => rw [left_of_le m c (by omega), List.length_nil]
  | succ n ih =>
      rw [left_cons m c (by omega), List.length_cons, ih (c.advance 1) (by simp only [advance]; omega)]

theorem advance_add (a b : Int) : (c.advance a).advance b = c.advance (a + b) := by
  simp only [advance, Int.add_assoc]

@[simp] theorem left_tag (tag : UInt8) : ({ c with tag } : Asn1Context).left m = c.left m := rfl

theorem left_advance (n : Nat) : (c.advance n).left m = (c.left m).drop n := by
  induction n generalizing c with
  | zero => rw [List.drop_zero, show c.advance (0 : Nat) = c by simp [advance]]
  | succ n ih =>
      have hadd : c.advance ((n + 1 : Nat) : Int) = (c.advance 1).advance n := by
        rw [advance_add]
        congr 1
        omega
      rw [hadd, ih]
      by_cases h : c.offset < c.size
      · rw [left_cons m c h, List.drop_succ_cons]
      · rw [left_of_le m c (by omega), left_of_le m (c.advance 1) (by simp only [advance]; omega), List.drop_nil,
          List.drop_nil]

/-! ## Lengths and tags -/

/-- The outcome of a function that reads a length: a failure, or the context behind what it has read. -/
def Decodes (out : Int × Asn1Context) (c : Asn1Context) : Option (Nat × Bytes) → Prop
  | none => out.1 = -1 ∧ out.2.size = -1
  | some (n, rest) =>
      out.1 = n ∧ n ≤ rest.length ∧
        ∃ k : Nat, k ≤ (c.left m).length ∧ rest = (c.left m).drop k ∧ out.2 = { c.advance k with tag := out.2.tag }

variable {m} {c}

/-- Only what is left is read. -/
def ReadsLeft (c : Asn1Context) {α : Type} (t : Traced α) : Prop :=
  t.Within (c.buffer + c.offset) (c.buffer + c.size)

theorem nextOctet_value {α : Type} (f : UInt8 × Asn1Context → Traced α) :
    (c.nextOctet m >>= f).value = (f (m (c.buffer + c.offset), c.advance 1)).value := rfl

theorem nextOctet_within {α : Type} {lo hi : Int} (f : UInt8 × Asn1Context → Traced α) :
    (c.nextOctet m >>= f).Within lo hi ↔ (lo ≤ c.buffer + c.offset ∧ c.buffer + c.offset < hi) ∧
      (f (m (c.buffer + c.offset), c.advance 1)).Within lo hi := by
  rw [within_bind, nextOctet, within_bind, within_read]
  simp only [within_pure, and_true]
  rfl

theorem checkSize_decodes (hle : c.offset ≤ c.size) (n : Nat) :
    Decodes m (c.checkSize n) c (Asn1.checkSize n (c.left m)) := by
  have hlen := left_length m c
  unfold checkSize Asn1.checkSize
  by_cases h : (n : Int) + c.offset ≤ c.size
  · rw [if_pos (by omega), if_pos (by omega)]
    refine ⟨rfl, by omega, 0, Nat.zero_le _, rfl, ?_⟩
    simp [advance]
  · rw [if_neg (by omega), if_neg (by omega)]
    exact ⟨rfl, rfl⟩

theorem Decodes.of_advance {out : Int × Asn1Context} {r : Option (Nat × Bytes)} (h : c.offset < c.size)
    (hd : Decodes m out (c.advance 1) r) : Decodes m out c r := by
  match r, hd with
  | none, hd => exact hd
  | some (n, rest), ⟨h₁, h₂, k, hk, hrest, hout⟩ =>
      have hleft := left_cons m c h
      refine ⟨h₁, h₂, k + 1, ?_, ?_, ?_⟩
      · rw [hleft, List.length_cons]
        omega
      · rw [hleft, List.drop_succ_cons, hrest]
      · rw [hout, advance_add, Int.add_comm]
        rfl

/-! The equations of the length that the contexts follow. -/

theorem decodeLength_short {first : UInt8} (h : first < 0x80) (rest : Bytes) :
    Asn1.decodeLength (first :: rest) = Asn1.checkSize first.toNat rest := by
  unfold Asn1.decodeLength
  exact if_pos h

theorem decodeLength_two (high low : UInt8) (rest : Bytes) :
    Asn1.decodeLength (0x82 :: high :: low :: rest) =
      if high < 0x80 then Asn1.checkSize (high.toNat * 256 + low.toNat) rest else none := rfl

theorem decodeLength_two_short {rest : Bytes} (h : rest.length < 2) : Asn1.decodeLength (0x82 :: rest) = none := by
  match rest, h with
  | [], _ | [_], _ => rfl

theorem decodeLength_one (low : UInt8) (rest : Bytes) :
    Asn1.decodeLength (0x81 :: low :: rest) = Asn1.checkSize low.toNat rest := rfl

theorem decodeLength_other {first : UInt8} (h : ¬ first < 0x80) (h2 : first ≠ 0x82) (h1 : first ≠ 0x81)
    (rest : Bytes) : Asn1.decodeLength (first :: rest) = none := by
  unfold Asn1.decodeLength
  dsimp only
  rw [if_neg h, if_neg h2, if_neg h1]

theorem checkSize_eq_some {value n : Nat} {tail rest : Bytes} (h : Asn1.checkSize value tail = some (n, rest)) :
    n ≤ rest.length ∧ rest = tail := by
  unfold Asn1.checkSize at h
  split at h
  · simp only [Option.some.injEq, Prod.mk.injEq] at h
    obtain ⟨rfl, rfl⟩ := h
    exact ⟨‹_›, rfl⟩
  · cases h

/-- What a length counts is there, behind its octets. -/
theorem decodeLength_le {bs rest : Bytes} {n : Nat} (h : Asn1.decodeLength bs = some (n, rest)) :
    n ≤ rest.length ∧ rest.length < bs.length := by
  have hbehind : ∀ value tail, tail.length < bs.length → Asn1.checkSize value tail = some (n, rest) →
      n ≤ rest.length ∧ rest.length < bs.length := by
    intro value tail hlt heq
    obtain ⟨hn, rfl⟩ := checkSize_eq_some heq
    exact ⟨hn, hlt⟩
  cases bs with
  | nil => cases h
  | cons first bs =>
      by_cases hfirst : first < 0x80
      · rw [decodeLength_short hfirst] at h
        exact hbehind _ _ (by simp) h
      by_cases htwo : first = 0x82
      · subst htwo
        rcases bs with _ | ⟨high, _ | ⟨low, tail⟩⟩
        · cases h
        · cases h
        · rw [decodeLength_two] at h
          split at h
          · exact hbehind _ _ (by simp only [List.length_cons]; omega) h
          · cases h
      by_cases hone : first = 0x81
      · subst hone
        rcases bs with _ | ⟨low, tail⟩
        · cases h
        · exact hbehind _ _ (by simp only [List.length_cons]; omega) h
      rw [decodeLength_other hfirst htwo hone] at h
      cases h

theorem nextTag_le {bs rest : Bytes} {tag : UInt8} {n : Nat} (h : Asn1.nextTag bs = some (tag, n, rest)) :
    n ≤ rest.length ∧ rest.length < bs.length := by
  match bs with
  | [] => cases h
  | first :: bs =>
      rw [Asn1.nextTag] at h
      split at h
      · cases h
      · obtain ⟨p, hp, heq⟩ := Option.map_eq_some_iff.mp h
        simp only [Prod.mk.injEq] at heq
        obtain ⟨-, rfl, rfl⟩ := heq
        obtain ⟨hn, hlt⟩ := decodeLength_le hp
        exact ⟨hn, by rw [List.length_cons]; omega⟩

theorem longLength_two :
    Decodes m (c.longLength m 0x82).value c (Asn1.decodeLength (0x82 :: c.left m)) ∧
      c.ReadsLeft (c.longLength m 0x82) := by
  have hcount : (((0x82 : UInt8).toNat % 128 : Nat) : Int) = 2 := by decide
  unfold longLength
  rw [hcount, if_pos rfl]
  by_cases hfit : (2 : Int) + c.offset ≤ c.size
  · have hlt₀ : c.offset < c.size := by omega
    have hlt₁ : (c.advance 1).offset < (c.advance 1).size := by
      simp only [advance]
      omega
    rw [if_neg (not_not.mpr hfit), left_cons m c hlt₀, left_cons m _ hlt₁, decodeLength_two]
    simp only [ReadsLeft, nextOctet_value, nextOctet_within]
    by_cases hhigh : m (c.buffer + c.offset) < 0x80
    · simp only [if_pos hhigh, nextOctet_value, nextOctet_within, value_pure, within_pure, and_true]
      refine ⟨?_, by omega, by simp only [advance]; omega⟩
      refine Decodes.of_advance hlt₀ (Decodes.of_advance hlt₁ ?_)
      exact checkSize_decodes (by simp only [advance]; omega) _
    · simp only [if_neg hhigh, value_pure, within_pure, and_true]
      exact ⟨⟨rfl, rfl⟩, by omega⟩
  · have hlen := left_length m c
    rw [if_pos hfit, decodeLength_two_short (by omega)]
    exact ⟨⟨rfl, rfl⟩, within_pure _⟩

theorem longLength_one :
    Decodes m (c.longLength m 0x81).value c (Asn1.decodeLength (0x81 :: c.left m)) ∧
      c.ReadsLeft (c.longLength m 0x81) := by
  have hcount : (((0x81 : UInt8).toNat % 128 : Nat) : Int) = 1 := by decide
  unfold longLength
  rw [hcount, if_neg (by decide : ¬ (0x81 : UInt8) = 0x82), if_pos rfl]
  by_cases hfit : (1 : Int) + c.offset ≤ c.size
  · have hlt₀ : c.offset < c.size := by omega
    rw [if_neg (not_not.mpr hfit), left_cons m c hlt₀, decodeLength_one]
    simp only [ReadsLeft, nextOctet_value, nextOctet_within, value_pure, within_pure, and_true]
    exact ⟨Decodes.of_advance hlt₀ (checkSize_decodes (by simp only [advance]; omega) _), by omega⟩
  · rw [if_pos hfit, left_of_le m c (by omega)]
    exact ⟨⟨rfl, rfl⟩, within_pure _⟩

theorem longLength_decodes {first : UInt8} (hfirst : ¬ first < 0x80) :
    Decodes m (c.longLength m first).value c (Asn1.decodeLength (first :: c.left m)) ∧
      c.ReadsLeft (c.longLength m first) := by
  by_cases h2 : first = 0x82
  · rw [h2]
    exact longLength_two
  by_cases h1 : first = 0x81
  · rw [h1]
    exact longLength_one
  rw [longLength, if_neg h2, if_neg h1, ite_self, decodeLength_other hfirst h2 h1]
  exact ⟨⟨rfl, rfl⟩, within_pure _⟩

theorem ReadsLeft.of_advance {α : Type} {t : Traced α} {n : Int} (hn : 0 ≤ n) (h : (c.advance n).ReadsLeft t) :
    c.ReadsLeft t :=
  h.mono (by simp only [advance]; omega) (by simp only [advance]; omega)

/-- `ASN1DecodeLength` reads a length as the model of certificates does, from what is left. -/
theorem decodeLength_decodes :
    Decodes m (c.decodeLength m).value c (Asn1.decodeLength (c.left m)) ∧ c.ReadsLeft (c.decodeLength m) := by
  unfold decodeLength
  by_cases h : c.offset < c.size
  · have hle : (c.advance 1).offset ≤ (c.advance 1).size := by
      simp only [advance]
      omega
    rw [if_pos h, left_cons m c h]
    simp only [ReadsLeft, nextOctet_value, nextOctet_within]
    by_cases hfirst : m (c.buffer + c.offset) < 0x80
    · simp only [if_pos hfirst, value_pure, within_pure, and_true, decodeLength_short hfirst]
      exact ⟨Decodes.of_advance h (checkSize_decodes hle _), by omega⟩
    · simp only [if_neg hfirst]
      obtain ⟨hd, hr⟩ := longLength_decodes (m := m) (c := c.advance 1) hfirst
      exact ⟨Decodes.of_advance h hd, by omega, ReadsLeft.of_advance (by omega) hr⟩
  · rw [if_neg h, left_of_le m c (by omega)]
    exact ⟨⟨rfl, rfl⟩, within_pure _⟩

theorem checkSize_tag (n : Int) : (c.checkSize n).2.tag = c.tag := by
  unfold checkSize
  split <;> rfl

theorem longLength_tag (first : UInt8) : (c.longLength m first).value.2.tag = c.tag := by
  unfold longLength
  split
  · rfl
  split
  · rw [nextOctet_value]
    dsimp only
    split
    · rw [nextOctet_value, value_pure, checkSize_tag]
      rfl
    · rfl
  split
  · rw [nextOctet_value, value_pure, checkSize_tag]
    rfl
  · rfl

theorem decodeLength_tag : (c.decodeLength m).value.2.tag = c.tag := by
  unfold decodeLength
  split
  · rw [nextOctet_value]
    dsimp only
    split
    · rw [value_pure, checkSize_tag]
      rfl
    · rw [longLength_tag]
      rfl
  · rfl

/-- The outcome of `ASN1NextTag`. -/
def Tags (m : Int → UInt8) (out : Int × Asn1Context) (c : Asn1Context) : Option (UInt8 × Nat × Bytes) → Prop
  | none => out.1 = -1 ∧ out.2.size = -1
  | some (tag, n, rest) => out.2.tag = tag ∧ Decodes m out c (some (n, rest))

/-- `ASN1NextTag` reads a tag and a length as the model of certificates does, from what is left. -/
theorem nextTag_tags : Tags m (c.nextTag m).value c (Asn1.nextTag (c.left m)) ∧ c.ReadsLeft (c.nextTag m) := by
  unfold nextTag
  by_cases h : c.offset < c.size
  · rw [if_pos h, left_cons m c h]
    simp only [ReadsLeft, nextOctet_value, nextOctet_within, Asn1.nextTag]
    generalize m (c.buffer + c.offset) = tag
    by_cases hext : tag &&& 0x1F = 0x1F
    · simp only [if_pos hext, value_pure, within_pure, and_true]
      exact ⟨⟨rfl, rfl⟩, by omega⟩
    · simp only [if_neg hext]
      obtain ⟨hd, hr⟩ := decodeLength_decodes (m := m) (c := { c.advance 1 with tag })
      have htag := decodeLength_tag (m := m) (c := { c.advance 1 with tag })
      refine ⟨?_, by omega, ReadsLeft.of_advance (n := 1) (by omega) hr⟩
      rw [left_tag] at hd
      cases hlen : Asn1.decodeLength ((c.advance 1).left m) with
      | none =>
          rw [hlen] at hd
          exact hd
      | some p =>
          rw [hlen] at hd
          exact ⟨htag, Decodes.of_advance h hd⟩
  · rw [if_neg h, left_of_le m c (by omega)]
    exact ⟨⟨rfl, rfl⟩, within_pure _⟩

/-! ## Bit strings -/

/-- What `ASN1GetBitStringValue` gives; a shift by a negative number has no meaning. -/
inductive BitString
  | fails
  | value (v : Nat)
  | badShift (n : Int)
  deriving DecidableEq

/-- The last shift, after which the first bit of the string is the first of 32. -/
def leftJustify (inputBits : Int) (value : Nat) : BitString :=
  if 0 < inputBits then
    if 0 ≤ 32 - inputBits then .value (value * 2 ^ (32 - inputBits).toNat % 2 ^ 32) else .badShift (32 - inputBits)
  else .value value

variable (m) in
/-- The loop over the octets but the last. -/
def shiftOctets : Nat → Nat → Asn1Context → Traced (Option Nat × Asn1Context)
  | 0, value, c => pure (some value, c)
  | n + 1, value, c =>
      if value &&& 0xFF000000 = 0 then do
        let (b, c) ← c.nextOctet m
        shiftOctets n (value * 256 + b.toNat) c
      else pure (none, c)

variable (m c) in
/-- The octet with the last bits. -/
def lastOctet (inputBits : Int) (shift value : Nat) : Traced (BitString × Asn1Context) :=
  if value &&& (0xFF000000 * 2 ^ (8 - shift) % 2 ^ 32) ≠ 0 then pure (.fails, c.failed)
  else do
    let (last, c) ← c.nextOctet m
    pure (leftJustify inputBits ((value * 2 ^ (8 - shift) + last.toNat / 2 ^ shift) % 2 ^ 32), c)

variable (m c) in
/-- The octets of a bit string, the first of which says how many bits the last one lacks. -/
def bitOctets (length : Nat) : Traced (BitString × Asn1Context) := do
  let (unused, c) ← c.nextOctet m
  let shift := unused.toNat
  let inputBits : Int := 8 * (length - 1 : Nat) - shift
  if shift < 8 ∧ (0 < length - 1 ∨ shift = 0) then do
    match ← shiftOctets m (length - 1 - 1) 0 c with
    | (none, c) => pure (.fails, c.failed)
    | (some value, c) =>
        if length - 1 = 0 then pure (leftJustify inputBits value, c) else c.lastOctet m inputBits shift value
  else pure (.fails, c.failed)

variable (m c) in
/-- `ASN1GetBitStringValue`. -/
def getBitStringValue : Traced (BitString × Asn1Context) := do
  let (length, c) ← c.nextTag m
  if 1 ≤ length ∧ c.tag = Asn1.bitString then c.bitOctets m length.toNat else pure (.fails, c.failed)

theorem shiftOctets_spec {n : Nat} (h : n ≤ (c.left m).length) (value : Nat) :
    (shiftOctets m n value c).value.1 = Asn1.shiftIn value ((c.left m).take n) ∧
      (∀ v, (shiftOctets m n value c).value.1 = some v → (shiftOctets m n value c).value.2 = c.advance n) ∧
      c.ReadsLeft (shiftOctets m n value c) := by
  induction n generalizing value c with
  | zero =>
      refine ⟨rfl, fun v _ => ?_, within_pure _⟩
      simp [shiftOctets, advance]
  | succ n ih =>
      have hlt : c.offset < c.size := by
        have := left_length m c
        omega
      have hleft := left_cons m c hlt
      rw [hleft, List.length_cons] at h
      rw [shiftOctets, hleft, List.take_succ_cons, Asn1.shiftIn]
      by_cases hfit : value &&& 0xFF000000 = 0
      · rw [if_pos hfit, if_pos hfit]
        obtain ⟨h₁, h₂, h₃⟩ := ih (c := c.advance 1) (by omega) (value * 256 + (m (c.buffer + c.offset)).toNat)
        rw [nextOctet_value]
        simp only [ReadsLeft, nextOctet_within]
        refine ⟨h₁, fun v hv => ?_, by omega, ReadsLeft.of_advance (by omega) h₃⟩
        rw [h₂ v hv, advance_add]
        congr 1
        omega
      · rw [if_neg hfit, if_neg hfit]
        exact ⟨rfl, nofun, within_pure _⟩

/-- The outcome of reading a bit string against the model of certificates. -/
def BitString.Agrees (b : BitString) : Except Fault Nat → Prop
  | .ok v => b = .value v
  | .error .overrun => ∃ n, n < 0 ∧ b = .badShift n
  | .error _ => b = .fails

/-- The value of the bits, once the tag is one of a bit string. -/
def bitValue (unused : UInt8) (octets : Bytes) : Except Fault Nat :=
  let shift := unused.toNat
  if 8 ≤ shift ∨ octets = [] ∧ shift ≠ 0 then .error (.of .value)
  else
    match Asn1.shiftIn 0 octets.dropLast, octets.getLast? with
    | none, _ => .error (.of .value)
    | some value, none => .ok value
    | some value, some last =>
        if value &&& (0xFF000000 * 2 ^ (8 - shift) % 2 ^ 32) ≠ 0 then .error (.of .value)
        else if 32 < 8 * octets.length - shift then .error .overrun
        else
          let value := (value * 2 ^ (8 - shift) + last.toNat / 2 ^ shift) % 2 ^ 32
          .ok (value * 2 ^ (32 - (8 * octets.length - shift)) % 2 ^ 32)

theorem getBitStringValue_eq {bs rest octets : Bytes} {n : Nat} {unused : UInt8}
    (htag : Asn1.nextTag bs = some (Asn1.bitString, n, rest)) (hcontents : rest.take n = unused :: octets) :
    Asn1.getBitStringValue bs = bitValue unused octets := by
  unfold Asn1.getBitStringValue bitValue
  rw [htag]
  dsimp only
  rw [hcontents]
  dsimp only
  refine if_congr ?_ rfl rfl
  exact or_iff_right fun hne => hne rfl

theorem leftJustify_agrees {k shift : Nat} (hk : 0 < k) (hshift : shift < 8) (value : Nat) :
    (leftJustify (8 * (k : Nat) - shift) value).Agrees
      (if 32 < 8 * k - shift then .error .overrun else .ok (value * 2 ^ (32 - (8 * k - shift)) % 2 ^ 32)) := by
  unfold leftJustify
  rw [if_pos (by omega)]
  by_cases h : 32 < 8 * k - shift
  · rw [if_pos h, if_neg (by omega)]
    exact ⟨_, by omega, rfl⟩
  · rw [if_neg h, if_pos (by omega)]
    have hexp : (32 - (8 * (k : Int) - shift)).toNat = 32 - (8 * k - shift) := by omega
    rw [hexp]
    rfl

theorem bitOctets_agrees {n : Nat} {unused : UInt8} {octets : Bytes} (hn : n ≤ (c.left m).length)
    (hcontents : (c.left m).take n = unused :: octets) :
    (c.bitOctets m n).value.1.Agrees (bitValue unused octets) ∧
      ((c.bitOctets m n).value.1 = .fails → (c.bitOctets m n).value.2.size = -1) ∧
      c.ReadsLeft (c.bitOctets m n) := by
  have hlen := left_length m c
  have hcount : n = octets.length + 1 := by
    rw [← List.length_cons, ← hcontents, List.length_take_of_le hn]
  have hlt : c.offset < c.size := by omega
  have hleft := left_cons m c hlt
  rw [hleft, hcount, List.take_succ_cons] at hcontents
  obtain ⟨hunused, hoctets⟩ := List.cons.inj hcontents
  rw [hleft, List.length_cons, hcount] at hn
  subst hcount
  unfold bitOctets bitValue
  rw [nextOctet_value]
  simp only [ReadsLeft, nextOctet_within, Nat.add_sub_cancel, hunused]
  by_cases hshift : unused.toNat < 8 ∧ (0 < octets.length ∨ unused.toNat = 0)
  · have hno : ¬ (8 ≤ unused.toNat ∨ octets = [] ∧ unused.toNat ≠ 0) := by
      rintro (h | ⟨rfl, h⟩)
      · omega
      · exact hshift.2.elim (fun h => absurd h (Nat.lt_irrefl 0)) h
    rw [if_neg hno]
    simp only [if_pos hshift, value_bind, within_bind]
    rcases List.eq_nil_or_concat' octets with rfl | ⟨init, last, rfl⟩
    · obtain hzero : unused.toNat = 0 := hshift.2.elim (fun h => absurd h (Nat.lt_irrefl 0)) id
      simp only [List.length_nil, Nat.zero_sub, shiftOctets, value_pure, within_pure, if_true, and_true,
        List.dropLast_nil, List.getLast?_nil, Asn1.shiftIn, hzero]
      refine ⟨rfl, fun hfails => ?_, by omega⟩
      cases hfails
    · have hsucc : (init ++ [last]).length = init.length + 1 := by
        rw [List.length_append, List.length_singleton]
      rw [hsucc] at hn hoctets
      have hroom : ((c.advance 1).left m).length = (c.size - (c.offset + 1)).toNat := left_length m (c.advance 1)
      obtain ⟨h₁, h₂, h₃⟩ := shiftOctets_spec (m := m) (c := c.advance 1) (n := init.length) (by omega) 0
      have hinit : ((c.advance 1).left m).take init.length = init := by
        have h := congrArg (List.take init.length) hoctets
        rwa [List.take_take, Nat.min_eq_left (Nat.le_succ _), List.take_left] at h
      have hlast : m (c.buffer + (c.offset + 1 + init.length)) = last := by
        have hlt' : ((c.advance 1).advance init.length).offset < ((c.advance 1).advance init.length).size := by
          simp only [advance]
          omega
        have hdrop := left_advance m (c.advance 1) init.length
        rw [left_cons m _ hlt'] at hdrop
        have htake := List.take_append_drop init.length ((c.advance 1).left m)
        rw [hinit, ← hdrop] at htake
        rw [← htake, List.take_append, List.take_of_length_le (Nat.le_succ _), Nat.add_sub_cancel_left] at hoctets
        exact (List.cons.inj (List.append_cancel_left hoctets)).1
      rw [hinit] at h₁
      rw [hsucc, Nat.add_sub_cancel, List.dropLast_concat, List.getLast?_concat, ← h₁]
      have h₃ := ReadsLeft.of_advance (n := 1) (by omega) h₃
      cases hv : (shiftOctets m init.length 0 (c.advance 1)).value with
      | mk value c' =>
          rw [hv] at h₁ h₂
          cases value with
          | none =>
              dsimp only
              exact ⟨rfl, fun _ => rfl, by omega, h₃, within_pure _⟩
          | some value =>
              obtain rfl : c' = (c.advance 1).advance init.length := h₂ value rfl
              dsimp only
              rw [if_neg (Nat.succ_ne_zero _), lastOctet]
              by_cases hmask : value &&& (0xFF000000 * 2 ^ (8 - unused.toNat) % 2 ^ 32) ≠ 0
              · rw [if_pos hmask, if_pos hmask]
                exact ⟨rfl, fun _ => rfl, by omega, h₃, within_pure _⟩
              · rw [if_neg hmask, if_neg hmask, nextOctet_value]
                simp only [nextOctet_within, value_pure, within_pure, and_true]
                have hoff : ((c.advance 1).advance init.length).buffer + ((c.advance 1).advance init.length).offset =
                    c.buffer + (c.offset + 1 + init.length) := rfl
                rw [hoff, hlast]
                have hk : ((init.length + 1 : Nat) : Int) = (init.length + 1 : Int) := by omega
                have hagrees := leftJustify_agrees (Nat.succ_pos init.length) hshift.1
                  ((value * 2 ^ (8 - unused.toNat) + last.toNat / 2 ^ unused.toNat) % 2 ^ 32)
                refine ⟨hagrees, fun hfails => ?_, by omega, h₃, by omega⟩
                unfold leftJustify at hfails
                split at hfails
                · split at hfails <;> cases hfails
                · cases hfails
  · have hyes : 8 ≤ unused.toNat ∨ octets = [] ∧ unused.toNat ≠ 0 := by
      by_contra hnot
      rw [not_or, not_and, not_not] at hnot
      refine hshift ⟨by omega, ?_⟩
      by_cases hnil : octets = []
      · exact .inr (hnot.2 hnil)
      · exact .inl (List.length_pos_iff.mpr hnil)
    rw [if_pos hyes]
    simp only [if_neg hshift, value_pure, within_pure, and_true]
    exact ⟨rfl, fun _ => rfl, by omega⟩

theorem getBitStringValue_refused {bs rest : Bytes} {tag : UInt8} {n : Nat}
    (htag : Asn1.nextTag bs = some (tag, n, rest)) (h : ¬ (1 ≤ n ∧ tag = Asn1.bitString)) :
    Asn1.getBitStringValue bs = .error (.of .value) := by
  unfold Asn1.getBitStringValue
  rw [htag]
  dsimp only
  cases hcontents : rest.take n with
  | nil => rfl
  | cons unused octets =>
      have hn : 1 ≤ n := by
        by_contra hzero
        obtain rfl : n = 0 := by omega
        rw [List.take_zero] at hcontents
        cases hcontents
      exact if_pos (.inl fun heq => h ⟨hn, heq⟩)

theorem Tags.left {out : Int × Asn1Context} {tag : UInt8} {n : Nat} {rest : Bytes}
    (h : Tags m out c (some (tag, n, rest))) :
    out.1 = n ∧ n ≤ rest.length ∧ out.2.tag = tag ∧ out.2.left m = rest ∧ out.2.buffer = c.buffer ∧
      out.2.size = c.size ∧ c.offset ≤ out.2.offset := by
  obtain ⟨htag, hn, hle, k, hk, hrest, hout⟩ := h
  refine ⟨hn, hle, htag, ?_, ?_, ?_, ?_⟩
  · rw [hout, left_tag, left_advance, hrest]
  · rw [hout]
    rfl
  · rw [hout]
    rfl
  · rw [hout]
    simp only [advance]
    omega

theorem ReadsLeft.of_later {c' : Asn1Context} {α : Type} {t : Traced α} (hbuffer : c'.buffer = c.buffer)
    (hsize : c'.size = c.size) (hoffset : c.offset ≤ c'.offset) (h : c'.ReadsLeft t) : c.ReadsLeft t :=
  h.mono (by omega) (by omega)

/-- `ASN1GetBitStringValue` reads the bits that the model of certificates reads, and shifts by a negative number
where that one says so. -/
theorem getBitStringValue_agrees :
    (c.getBitStringValue m).value.1.Agrees (Asn1.getBitStringValue (c.left m)) ∧
      ((c.getBitStringValue m).value.1 = .fails → (c.getBitStringValue m).value.2.size = -1) ∧
      c.ReadsLeft (c.getBitStringValue m) := by
  obtain ⟨htags, hreads⟩ := nextTag_tags (m := m) (c := c)
  unfold getBitStringValue
  simp only [value_bind, ReadsLeft, within_bind]
  cases hnext : Asn1.nextTag (c.left m) with
  | none =>
      rw [hnext] at htags
      obtain ⟨hlength, hsize⟩ := htags
      have hno : ¬ (1 ≤ (c.nextTag m).value.1 ∧ (c.nextTag m).value.2.tag = Asn1.bitString) := by
        rw [hlength]
        exact fun h => absurd h.1 (by decide)
      simp only [if_neg hno, value_pure, within_pure, and_true]
      refine ⟨?_, fun _ => rfl, hreads⟩
      unfold Asn1.getBitStringValue
      rw [hnext]
      rfl
  | some p =>
      obtain ⟨tag, n, rest⟩ := p
      rw [hnext] at htags
      obtain ⟨hlength, hle, htag, hleft, hbuffer, hsize, hoffset⟩ := htags.left
      by_cases hyes : 1 ≤ (c.nextTag m).value.1 ∧ (c.nextTag m).value.2.tag = Asn1.bitString
      · simp only [if_pos hyes]
        rw [hlength, htag] at hyes
        obtain ⟨hn, rfl⟩ := hyes
        obtain ⟨unused, octets, hcontents⟩ : ∃ unused octets, rest.take n = unused :: octets := by
          cases htake : rest.take n with
          | nil =>
              have hlen := congrArg List.length htake
              rw [List.length_take_of_le hle, List.length_nil] at hlen
              omega
          | cons unused octets => exact ⟨unused, octets, rfl⟩
        have htoNat : (c.nextTag m).value.1.toNat = n := by
          rw [hlength]
          omega
        rw [getBitStringValue_eq hnext hcontents, htoNat]
        rw [← hleft] at hle hcontents
        obtain ⟨h₁, h₂, h₃⟩ := bitOctets_agrees hle hcontents
        exact ⟨h₁, h₂, hreads, h₃.of_later hbuffer hsize hoffset⟩
      · simp only [if_neg hyes, value_pure, within_pure, and_true]
        rw [hlength, htag] at hyes
        rw [getBitStringValue_refused hnext fun h => hyes ⟨by omega, h.2⟩]
        exact ⟨rfl, fun _ => rfl, hreads⟩

end Asn1Context

end PqcTpm
