import Mathlib.Data.List.TakeWhile
import PqcTpm.Asn1Contexts

/-!
# Bit strings, lengths and integers in DER

The writing half of `TpmAsn1.c`, which fills a buffer from its end, and what the codec keeps of DER: bit strings
of up to 32 bits, lengths, and integers without superfluous octets.
-/
namespace PqcTpm
open ByteCodec TracedReads Traced Asn1Context

/-! ## Marshaling contexts -/

/-- `ASN1MarshalContext`: the offset, negative after an overflow, and what stands from there on. Without a buffer the
octets are only counted. -/
structure MarshalContext where
  offset : Int
  written : Bytes

namespace MarshalContext
variable (c : MarshalContext)

def overflown : MarshalContext := { c with offset := -1 }

/-- `ASN1PushByte`; `TRUE` is 1. -/
def pushByte (b : UInt8) : Int × MarshalContext :=
  if 0 < c.offset then (1, ⟨c.offset - 1, b :: c.written⟩) else (0, c.overflown)

/-- `ASN1PushBytes`. -/
def pushBytes (bs : Bytes) : Int × MarshalContext :=
  if 0 ≤ c.offset - bs.length then (bs.length, ⟨c.offset - bs.length, bs ++ c.written⟩) else (0, c.overflown)

/-- `ASN1PushNull`. -/
def pushNull : Int × MarshalContext :=
  let c' := ((c.pushByte 0).2.pushByte Asn1.null).2
  (if 0 ≤ c'.offset then 2 else 0, c')

/-- The octets of `ASN1PushLength`, last one first. -/
def lengthOctets (length : Nat) : MarshalContext :=
  if length ≤ 127 then (c.pushByte (UInt8.ofNat length)).2
  else
    let c := (c.pushByte (UInt8.ofNat (length % 256))).2
    if length / 256 = 0 then (c.pushByte 0x81).2
    else ((c.pushByte (UInt8.ofNat (length / 256))).2.pushByte 0x82).2

/-- `ASN1PushLength`. -/
def pushLength (length : Nat) : Int × MarshalContext :=
  let c' := c.lengthOctets length
  (if 0 < c'.offset then c.offset - c'.offset else 0, c')

/-- `ASN1PushTagAndLength`. -/
def pushTagAndLength (tag : UInt8) (length : Nat) : Int × MarshalContext :=
  let (bytes, c) := c.pushLength length
  let (added, c) := c.pushByte tag
  (if c.offset < 0 then 0 else bytes + added, c)

/-- `ASN1PushTaggedOctetString`. -/
def pushTaggedOctetString (string : Bytes) (tag : UInt8) : Int × MarshalContext :=
  let (added, c) := (c.pushBytes string).2.pushTagAndLength tag string.length
  (string.length + added, c)

/-- The loop over leading zeros: what is left, and the octet that is pointed at. -/
def stripZeros : Bytes → Bytes × UInt8
  | [] => ([], 0)
  | b :: rest => if b = 0 then (if rest = [] then ([], 0) else stripZeros rest) else (b :: rest, b)

/-- `ASN1PushInteger` on at least one octet. -/
def pushInteger (integer : Bytes) : Int × MarshalContext :=
  let (octets, first) := stripZeros integer
  let c := (c.pushBytes octets).2
  let (leading, c) := if 0x80 ≤ first then c.pushByte 0 else (0, c)
  let length := octets.length + leading
  let (added, c) := c.pushTagAndLength Asn1.integer length.toNat
  (length + added, c)

/-- `ASN1PushUINT`. -/
def pushUint (integer : UInt32) : Int × MarshalContext := c.pushInteger (be 4 integer.toNat)

/-- `ASN1PushOID`. -/
def pushOid (oid : Bytes) : Int × MarshalContext :=
  match oid with
  | tag :: size :: _ =>
      if tag = Asn1.objectIdentifier ∧ size < 0x80 then c.pushBytes (oid.take (size.toNat + 2)) else (0, c.overflown)
  | _ => (0, c.overflown)

end MarshalContext

/-! ## What is pushed -/

theorem pushLength_pos (n : Nat) : 0 < (Asn1.pushLength n).length := by
  unfold Asn1.pushLength
  split
  · simp
  · split <;> simp

/-- The octets are put before the others, where there is room for them. -/
def Pushes (c c' : MarshalContext) (bs : Bytes) : Prop :=
  if (bs.length : Int) ≤ c.offset then c' = ⟨c.offset - bs.length, bs ++ c.written⟩ else c'.offset = -1

namespace Pushes
open MarshalContext
variable {c c' c'' : MarshalContext}

theorem comp {as bs : Bytes} (h : Pushes c c' as) (h' : Pushes c' c'' bs) : Pushes c c'' (bs ++ as) := by
  unfold Pushes at *
  rw [List.length_append]
  by_cases has : (as.length : Int) ≤ c.offset
  · rw [if_pos has] at h
    subst h
    by_cases hbs : (bs.length : Int) ≤ c.offset - as.length
    · rw [if_pos hbs] at h'
      rw [if_pos (by omega), h', List.append_assoc]
      congr 1
      dsimp only
      omega
    · rw [if_neg hbs] at h'
      rw [if_neg (by omega)]
      exact h'
  · rw [if_neg has] at h
    rw [h, if_neg (by omega)] at h'
    rw [if_neg (by omega)]
    exact h'

theorem byte (c : MarshalContext) (b : UInt8) : Pushes c (c.pushByte b).2 [b] := by
  unfold Pushes pushByte
  rw [List.length_singleton]
  by_cases h : 0 < c.offset
  · rw [if_pos h, if_pos (by omega)]
    rfl
  · rw [if_neg h, if_neg (by omega)]
    rfl

theorem bytes (c : MarshalContext) (bs : Bytes) : Pushes c (c.pushBytes bs).2 bs := by
  unfold Pushes pushBytes
  by_cases h : 0 ≤ c.offset - bs.length
  · rw [if_pos h, if_pos (by omega)]
  · rw [if_neg h, if_neg (by omega)]
    rfl

theorem length (c : MarshalContext) {n : Nat} (hn : n < 2 ^ 15) :
    Pushes c (c.pushLength n).2 (Asn1.pushLength n) := by
  have hbe : ∀ k, be 1 k = [UInt8.ofNat k] := fun k => by simp [be]
  unfold pushLength lengthOctets Asn1.pushLength
  dsimp only
  by_cases hshort : n ≤ 127
  · rw [if_pos hshort, if_pos hshort, hbe]
    exact byte c _
  rw [if_neg hshort, if_neg hshort]
  by_cases hone : n < 256
  · rw [if_pos (by omega), if_pos hone, hbe, Nat.mod_eq_of_lt hone]
    exact (byte c _).comp (byte _ _)
  · rw [if_neg (by omega), if_neg hone]
    have htwo : be 2 n = [UInt8.ofNat (n / 256), UInt8.ofNat (n % 256)] := by
      rw [show be 2 n = be 1 (n / 256 ^ 1) ++ be 1 n from be_add 1 1 n, ← be_mod 1 n, hbe, hbe, pow_one]
      rfl
    rw [htwo]
    exact ((byte c _).comp (byte _ _)).comp (byte _ _)

theorem tagAndLength (c : MarshalContext) (tag : UInt8) {n : Nat} (hn : n < 2 ^ 15) :
    Pushes c (c.pushTagAndLength tag n).2 (tag :: Asn1.pushLength n) :=
  (length c hn).comp (byte _ tag)

theorem null (c : MarshalContext) : Pushes c c.pushNull.2 [Asn1.null, 0] := (byte c 0).comp (byte _ _)

theorem taggedOctetString (c : MarshalContext) (tag : UInt8) {bs : Bytes} (hn : bs.length < 2 ^ 15) :
    Pushes c (c.pushTaggedOctetString bs tag).2 (tag :: Asn1.pushLength bs.length ++ bs) :=
  (bytes c bs).comp (tagAndLength _ tag hn)

theorem fits {bs : Bytes} (h : Pushes c c' bs) (hroom : (bs.length : Int) ≤ c.offset) :
    c' = ⟨c.offset - bs.length, bs ++ c.written⟩ := by
  unfold Pushes at h
  rwa [if_pos hroom] at h

theorem overflows {bs : Bytes} (h : Pushes c c' bs) (hroom : c.offset < bs.length) : c'.offset = -1 := by
  unfold Pushes at h
  rwa [if_neg (by omega)] at h

theorem offset_nonneg_iff {bs : Bytes} (h : Pushes c c' bs) : 0 ≤ c'.offset ↔ (bs.length : Int) ≤ c.offset := by
  constructor
  · intro hpos
    by_contra hroom
    have := h.overflows (by omega)
    omega
  · intro hroom
    rw [h.fits hroom]
    dsimp only
    omega

end Pushes

/-! ## Integers -/

theorem stripZeros_eq (bs : Bytes) :
    MarshalContext.stripZeros bs = (bs.dropWhile (· == 0), ((bs.dropWhile (· == 0)).head?).getD 0) := by
  induction bs with
  | nil => rfl
  | cons b rest ih =>
      rw [MarshalContext.stripZeros]
      by_cases hb : b = 0
      · rw [if_pos hb, List.dropWhile_cons_of_pos (by rw [hb]; rfl)]
        by_cases hrest : rest = []
        · rw [if_pos hrest, hrest]
          rfl
        · rw [if_neg hrest, ih]
      · rw [if_neg hb, List.dropWhile_cons_of_neg (by simpa using hb)]
        rfl

/-- The contents of an integer: no leading zeros but the one that makes it positive. -/
def integerContents (integer : Bytes) : Bytes :=
  let octets := integer.dropWhile (· == 0)
  if 0x80 ≤ octets.head?.getD 0 then 0 :: octets else octets

theorem pushInteger_eq (integer : Bytes) :
    Asn1.pushInteger integer =
      Asn1.integer :: (Asn1.pushLength (integerContents integer).length ++ integerContents integer) := by
  unfold Asn1.pushInteger Asn1.encapsulate integerContents
  dsimp only
  rw [if_neg (by decide : ¬ Asn1.integer = Asn1.bitString)]
  cases hhead : (integer.dropWhile (· == 0)).head? with
  | none => rfl
  | some b => simp only [Option.any_some, decide_eq_true_eq, Option.getD_some]

namespace MarshalContext
variable {c : MarshalContext}

theorem pushByte_full (h : c.offset ≤ 0) (b : UInt8) : c.pushByte b = (0, c.overflown) := if_neg (by omega)

theorem pushByte_room (h : 0 < c.offset) (b : UInt8) : c.pushByte b = (1, ⟨c.offset - 1, b :: c.written⟩) := if_pos h

theorem lengthOctets_full (h : c.offset ≤ 0) (length : Nat) : (c.lengthOctets length).offset = -1 := by
  have hneg : ∀ x : MarshalContext, x.overflown.offset ≤ 0 := fun _ => show (-1 : Int) ≤ 0 by decide
  unfold lengthOctets
  rw [pushByte_full h, pushByte_full h]
  dsimp only
  rw [pushByte_full (hneg c), pushByte_full (hneg c)]
  dsimp only
  rw [pushByte_full (hneg _)]
  split
  · rfl
  · split <;> rfl

theorem pushTagAndLength_full (h : c.offset ≤ 0) (tag : UInt8) (length : Nat) :
    (c.pushTagAndLength tag length).1 = 0 ∧ (c.pushTagAndLength tag length).2.offset = -1 := by
  have hoffset : (c.pushLength length).2.offset = -1 := lengthOctets_full h length
  have hbyte := pushByte_full (c := (c.pushLength length).2) (by omega) tag
  unfold pushTagAndLength
  dsimp only
  rw [hbyte]
  exact ⟨rfl, rfl⟩

/-- The octets of a tag and a length are counted where there is room for them. -/
theorem pushTagAndLength_value (tag : UInt8) {n : Nat} (hn : n < 2 ^ 15) :
    (c.pushTagAndLength tag n).1 =
      if ((tag :: Asn1.pushLength n).length : Int) ≤ c.offset then ((tag :: Asn1.pushLength n).length : Int) else 0 := by
  have hlength := Pushes.length c hn
  have hall := Pushes.tagAndLength c tag hn
  by_cases hroom : ((tag :: Asn1.pushLength n).length : Int) ≤ c.offset
  · have hpos := hall.offset_nonneg_iff.mpr hroom
    rw [List.length_cons] at hroom
    have hfits := hlength.fits (by omega)
    rw [if_pos (by rw [List.length_cons]; exact hroom)]
    unfold pushTagAndLength at hpos ⊢
    dsimp only at hpos ⊢
    rw [if_neg (by omega), hfits, pushByte_room (by dsimp only; omega)]
    have hvalue : (c.pushLength n).1 = (Asn1.pushLength n).length := by
      change (if 0 < (c.pushLength n).2.offset then c.offset - (c.pushLength n).2.offset else 0) = _
      rw [hfits]
      dsimp only
      rw [if_pos (by omega)]
      omega
    rw [hvalue, List.length_cons]
    rfl
  · have hneg := hall.overflows (by omega)
    rw [if_neg hroom]
    unfold pushTagAndLength at hneg ⊢
    dsimp only at hneg ⊢
    rw [if_pos (by omega)]

end MarshalContext

open MarshalContext in
theorem Pushes.integer {c : MarshalContext} (hc : c.offset < 2 ^ 15) {integer : Bytes} (hn : integer.length < 2 ^ 15) :
    Pushes c (c.pushInteger integer).2 (Asn1.pushInteger integer) := by
  have hlen := (List.dropWhile_sublist (p := (· == 0)) (l := integer)).length_le
  rw [pushInteger_eq, ← List.cons_append]
  unfold MarshalContext.pushInteger
  rw [stripZeros_eq]
  unfold integerContents
  dsimp only
  have hbytes := Pushes.bytes c (integer.dropWhile (· == 0))
  by_cases hhigh : 0x80 ≤ (integer.dropWhile (· == 0)).head?.getD 0
  · simp only [if_pos hhigh]
    have hzero := hbytes.comp (Pushes.byte _ 0)
    by_cases hroom : ((integer.dropWhile (· == 0)).length : Int) + 1 ≤ c.offset
    · have hfits := hbytes.fits (by omega)
      have hone : ((c.pushBytes (integer.dropWhile (· == 0))).2.pushByte 0).1 = 1 := by
        rw [hfits, pushByte_room (by dsimp only; omega)]
      rw [hone]
      have htoNat : (((integer.dropWhile (· == 0)).length : Int) + 1).toNat =
          (0 :: integer.dropWhile (· == 0)).length := by
        rw [List.length_cons]
        omega
      rw [htoNat]
      exact hzero.comp (Pushes.tagAndLength _ _ (by rw [List.length_cons]; omega))
    · have hover := hzero.overflows (by rw [List.length_append, List.length_singleton]; omega)
      unfold Pushes
      rw [if_neg (by simp only [List.length_append, List.length_cons]; omega)]
      exact (pushTagAndLength_full (by omega) _ _).2
  · simp only [if_neg hhigh, Int.add_zero, Int.toNat_natCast]
    exact hbytes.comp (Pushes.tagAndLength _ _ (by omega))

/-! ## The push functions -/

/-- A call of a push function on what its types admit. -/
inductive PushCall
  | byte (b : UInt8)
  | bytes (bs : Bytes)
  | null
  | length (n : Nat)
  | tagAndLength (tag : UInt8) (n : Nat)
  | taggedOctetString (string : Bytes) (tag : UInt8)
  | uint (integer : UInt32)
  | integer (octets : Bytes)
  | oid (octets : Bytes)

namespace PushCall

/-- The arguments are `INT16`s that are not negative, an integer has octets, and an identifier is as long as it says. -/
def Admissible : PushCall → Prop
  | .bytes bs | .taggedOctetString bs _ => bs.length < 2 ^ 15
  | .length n | .tagAndLength _ n => n < 2 ^ 15
  | .integer bs => bs ≠ [] ∧ bs.length < 2 ^ 15
  | .oid bs => ∃ size rest, bs = Asn1.objectIdentifier :: UInt8.ofNat size :: rest ∧ size < 128 ∧ rest.length = size
  | .byte _ | .null | .uint _ => True

def run (c : MarshalContext) : PushCall → Int × MarshalContext
  | .byte b => c.pushByte b
  | .bytes bs => c.pushBytes bs
  | .null => c.pushNull
  | .length n => c.pushLength n
  | .tagAndLength tag n => c.pushTagAndLength tag n
  | .taggedOctetString string tag => c.pushTaggedOctetString string tag
  | .uint n => c.pushUint n
  | .integer bs => c.pushInteger bs
  | .oid bs => c.pushOid bs

/-- The octets that are pushed. -/
def octets : PushCall → Bytes
  | .byte b => [b]
  | .bytes bs | .oid bs => bs
  | .null => [Asn1.null, 0]
  | .length n => Asn1.pushLength n
  | .tagAndLength tag n => tag :: Asn1.pushLength n
  | .taggedOctetString string tag => tag :: Asn1.pushLength string.length ++ string
  | .uint n => Asn1.pushInteger (be 4 n.toNat)
  | .integer bs => Asn1.pushInteger bs

/-- The value is the number of octets that were added, or 0 after an overflow. -/
def TellsLength (c : MarshalContext) (call : PushCall) : Prop :=
  (0 ≤ (call.run c).2.offset → (call.run c).1 = c.offset - (call.run c).2.offset) ∧
    ((call.run c).2.offset < 0 → (call.run c).1 = 0)

/-- The octets that are still counted when there was no room. -/
def counted : PushCall → Bytes
  | .taggedOctetString string _ => string
  | .uint n => (be 4 n.toNat).dropWhile (· == 0)
  | .integer bs => bs.dropWhile (· == 0)
  | .byte _ | .bytes _ | .null | .length _ | .tagAndLength _ _ | .oid _ => []

/-- A length does not end at the start of the buffer, and what is counted before its tag has room. -/
def Accounted (c : MarshalContext) (call : PushCall) : Prop :=
  match call with
  | .length _ => c.offset ≠ call.octets.length
  | _ => call.counted = [] ∨ (call.octets.length : Int) ≤ c.offset

theorem oid_eq {bs : Bytes} (h : (PushCall.oid bs).Admissible) (c : MarshalContext) : c.pushOid bs = c.pushBytes bs := by
  obtain ⟨size, rest, rfl, hsize, hrest⟩ := h
  have htoNat : (UInt8.ofNat size).toNat = size := by
    rw [UInt8.toNat_ofNat', Nat.mod_eq_of_lt (by omega)]
  have hlt : UInt8.ofNat size < 0x80 := by
    rw [UInt8.lt_iff_toNat_lt, htoNat]
    exact hsize
  unfold MarshalContext.pushOid
  dsimp only
  rw [if_pos ⟨rfl, hlt⟩, htoNat, List.take_of_length_le (by simp only [List.length_cons]; omega)]

theorem pushes {call : PushCall} {c : MarshalContext} (hc : c.offset < 2 ^ 15) (h : call.Admissible) :
    Pushes c (call.run c).2 call.octets := by
  cases call with
  | byte b => exact .byte c b
  | bytes bs => exact .bytes c bs
  | null => exact .null c
  | length n => exact .length c h
  | tagAndLength tag n => exact .tagAndLength c tag h
  | taggedOctetString string tag => exact .taggedOctetString c tag h
  | uint n => exact .integer hc (by rw [be_length]; decide)
  | integer bs => exact .integer hc h.2
  | oid bs =>
      rw [run, oid_eq h]
      exact .bytes c bs

theorem tellsLength_iff {call : PushCall} {c : MarshalContext} (h : Pushes c (call.run c).2 call.octets) :
    call.TellsLength c ↔
      (call.run c).1 = if (call.octets.length : Int) ≤ c.offset then (call.octets.length : Int) else 0 := by
  have hnonneg := h.offset_nonneg_iff
  unfold TellsLength
  by_cases hroom : (call.octets.length : Int) ≤ c.offset
  · have hpos := hnonneg.mpr hroom
    have hoffset : (call.run c).2.offset = c.offset - call.octets.length := by rw [h.fits hroom]
    rw [if_pos hroom]
    constructor
    · rintro ⟨hfit, -⟩
      rw [hfit hpos, hoffset]
      omega
    · intro hvalue
      exact ⟨fun _ => by omega, fun hneg => absurd hpos (by omega)⟩
  · have hneg := h.overflows (by omega)
    rw [if_neg hroom]
    exact ⟨fun htells => htells.2 (by omega), fun hvalue => ⟨fun hpos => absurd hpos (by omega), fun _ => hvalue⟩⟩

open MarshalContext

theorem counted_value {c' : MarshalContext} {offset : Int} {tag : UInt8} {n : Nat} (before : Bytes)
    {octets : Bytes} (hn : n < 2 ^ 15) (hfits : (octets.length : Int) ≤ offset → c'.offset = offset - before.length)
    (hfull : offset < octets.length → c'.offset < (tag :: Asn1.pushLength n).length)
    (hoctets : octets.length = (tag :: Asn1.pushLength n).length + before.length) (counted : Int)
    (hcounted : (octets.length : Int) ≤ offset → counted = before.length) :
    (counted + (c'.pushTagAndLength tag n).1 = if (octets.length : Int) ≤ offset then (octets.length : Int) else 0) ↔
      counted = 0 ∨ (octets.length : Int) ≤ offset := by
  rw [pushTagAndLength_value tag hn]
  by_cases hroom : (octets.length : Int) ≤ offset
  · have := hfits hroom
    have := hcounted hroom
    rw [if_pos hroom, if_pos (by omega)]
    exact iff_of_true (by omega) (.inr hroom)
  · have := hfull (by omega)
    rw [if_neg hroom, if_neg (by omega), Int.add_zero]
    simp only [hroom, or_false]

theorem tellsLength_octetString {c : MarshalContext} {string : Bytes} {tag : UInt8} (h : string.length < 2 ^ 15) :
    (PushCall.taggedOctetString string tag).TellsLength c ↔ (PushCall.taggedOctetString string tag).Accounted c := by
  have hpushes : Pushes c _ _ := .taggedOctetString c tag h
  rw [tellsLength_iff hpushes]
  have hbytes := Pushes.bytes c string
  have hlen : (tag :: Asn1.pushLength string.length ++ string).length =
      (tag :: Asn1.pushLength string.length).length + string.length := List.length_append
  refine (counted_value string h ?_ ?_ hlen _ fun _ => rfl).trans ?_
  · intro hroom
    rw [hbytes.fits (by omega)]
  · intro hfull
    by_cases hfirst : (string.length : Int) ≤ c.offset
    · rw [hbytes.fits hfirst]
      dsimp only
      omega
    · rw [hbytes.overflows (by omega)]
      omega
  · rw [Accounted, counted, octets, Int.natCast_eq_zero, List.length_eq_zero_iff]
    exact nofun

theorem tellsLength_integer {c : MarshalContext} (hc : c.offset < 2 ^ 15) {bs : Bytes} (h : bs.length < 2 ^ 15) :
    (PushCall.integer bs).TellsLength c ↔ (PushCall.integer bs).Accounted c := by
  have hpushes : Pushes c (c.pushInteger bs).2 (Asn1.pushInteger bs) := .integer hc h
  have hstrip := (List.dropWhile_sublist (p := (· == 0)) (l := bs)).length_le
  rw [tellsLength_iff hpushes]
  have hbytes := Pushes.bytes c (bs.dropWhile (· == 0))
  have hacc : (PushCall.integer bs).Accounted c ↔
      ((bs.dropWhile (· == 0)).length : Int) = 0 ∨ ((Asn1.pushInteger bs).length : Int) ≤ c.offset := by
    rw [Accounted, counted, octets, Int.natCast_eq_zero, List.length_eq_zero_iff]
    exact nofun
  rw [hacc, octets, run]
  have hlen : (Asn1.pushInteger bs).length = (Asn1.integer :: Asn1.pushLength (integerContents bs).length).length +
      (integerContents bs).length := by
    rw [pushInteger_eq, ← List.cons_append, List.length_append]
  unfold MarshalContext.pushInteger
  rw [stripZeros_eq]
  unfold integerContents at hlen
  dsimp only at hlen ⊢
  by_cases hhigh : 0x80 ≤ (bs.dropWhile (· == 0)).head?.getD 0
  · have hne : (bs.dropWhile (· == 0)).length ≠ 0 := by
      intro hnil
      rw [List.length_eq_zero_iff.mp hnil] at hhigh
      exact absurd hhigh (by decide)
    simp only [if_pos hhigh] at hlen ⊢
    by_cases hroom : ((bs.dropWhile (· == 0)).length : Int) + 1 ≤ c.offset
    · have hone := pushByte_room (c := (c.pushBytes (bs.dropWhile (· == 0))).2)
        (by rw [hbytes.fits (by omega)]; dsimp only; omega) 0
      rw [hone]
      dsimp only
      have htoNat : (((bs.dropWhile (· == 0)).length : Int) + 1).toNat = (0 :: bs.dropWhile (· == 0)).length := by
        rw [List.length_cons]
        omega
      have hcons : (0 :: bs.dropWhile (· == 0)).length = (bs.dropWhile (· == 0)).length + 1 := List.length_cons
      have hfits := hbytes.fits (by omega)
      rw [htoNat]
      refine (counted_value (0 :: bs.dropWhile (· == 0)) (by omega) (fun _ => ?_) (fun hfull => ?_) hlen _ fun _ => by omega).trans ?_
      · rw [hfits]
        dsimp only
        omega
      · rw [hfits]
        dsimp only
        omega
      · omega
    · have hover := (hbytes.comp (Pushes.byte _ 0)).overflows (by rw [List.length_append, List.length_singleton]; omega)
      rw [(pushTagAndLength_full (by omega) _ _).1]
      rw [List.length_cons, List.length_cons] at hlen
      rw [if_neg (by omega)]
      unfold MarshalContext.pushByte
      split <;> dsimp only <;> omega
  · simp only [if_neg hhigh] at hlen ⊢
    rw [Int.add_zero, Int.toNat_natCast]
    refine counted_value (bs.dropWhile (· == 0)) (by omega) (fun hroom => ?_) (fun hfull => ?_) hlen _ fun _ => rfl
    · rw [hbytes.fits (by omega)]
    · by_cases hfirst : ((bs.dropWhile (· == 0)).length : Int) ≤ c.offset
      · rw [hbytes.fits hfirst]
        dsimp only
        omega
      · rw [hbytes.overflows (by omega)]
        omega

/-- The value of a push function is the number of octets that it added, or 0 after an overflow, exactly where a
length does not fill the buffer to its start and what an element counts before its tag has room. -/
theorem tellsLength_iff_accounted {call : PushCall} {c : MarshalContext} (hc : c.offset < 2 ^ 15)
    (h : call.Admissible) : call.TellsLength c ↔ call.Accounted c := by
  cases call with
  | taggedOctetString string tag => exact tellsLength_octetString h
  | uint n => exact tellsLength_integer hc (by rw [be_length]; decide)
  | integer bs => exact tellsLength_integer hc h.2
  | byte b =>
      rw [tellsLength_iff (pushes hc h)]
      refine iff_of_true ?_ (.inl rfl)
      rw [run, MarshalContext.pushByte, octets, List.length_singleton]
      split <;> split <;> first | rfl | omega
  | bytes bs =>
      rw [tellsLength_iff (pushes hc h)]
      refine iff_of_true ?_ (.inl rfl)
      rw [run, MarshalContext.pushBytes, octets]
      split <;> split <;> first | rfl | omega
  | oid bs =>
      rw [tellsLength_iff (pushes hc h)]
      refine iff_of_true ?_ (.inl rfl)
      rw [run, oid_eq h, MarshalContext.pushBytes, octets]
      split <;> split <;> first | rfl | omega
  | null =>
      have hnonneg := (pushes hc h : Pushes c (PushCall.null.run c).2 _).offset_nonneg_iff
      rw [tellsLength_iff (pushes hc h)]
      refine iff_of_true ?_ (.inl rfl)
      rw [run] at hnonneg ⊢
      unfold MarshalContext.pushNull at hnonneg ⊢
      dsimp only at hnonneg ⊢
      by_cases hroom : ((PushCall.null.octets).length : Int) ≤ c.offset
      · rw [if_pos (hnonneg.mpr hroom), if_pos hroom]
        rfl
      · rw [if_neg (fun hpos => hroom (hnonneg.mp hpos)), if_neg hroom]
  | tagAndLength tag n =>
      rw [tellsLength_iff (pushes hc h)]
      exact iff_of_true (pushTagAndLength_value tag h) (.inl rfl)
  | length n =>
      have hpushes : Pushes c (c.pushLength n).2 (Asn1.pushLength n) := .length c h
      rw [tellsLength_iff hpushes]
      have hvalue : (c.pushLength n).1 = if 0 < (c.pushLength n).2.offset then c.offset - (c.pushLength n).2.offset else 0 :=
        rfl
      have hpos := pushLength_pos n
      change (c.pushLength n).1 = _ ↔ c.offset ≠ (Asn1.pushLength n).length
      rw [hvalue, octets]
      by_cases hroom : ((Asn1.pushLength n).length : Int) ≤ c.offset
      · rw [hpushes.fits hroom, if_pos hroom]
        dsimp only
        split <;> omega
      · rw [hpushes.overflows (by omega), if_neg hroom]
        exact iff_of_true rfl (by omega)

end PushCall

/-! ## Integers in DER -/

/-- A minimal element for a number that is not negative: at least one octet of contents, the first bit clear, and no
leading zero that could be left out. -/
def DerInteger (element : Bytes) (value : Nat) : Prop :=
  ∃ first rest, element = Asn1.integer :: (Asn1.pushLength (first :: rest).length ++ (first :: rest)) ∧
    first < 0x80 ∧ (first = 0 → ∀ next ∈ rest.head?, 0x80 ≤ next) ∧ fromBe (first :: rest) = value

theorem DerInteger.length_ge {element : Bytes} {value : Nat} (h : DerInteger element value) : 3 ≤ element.length := by
  obtain ⟨first, rest, rfl, -⟩ := h
  have hpos := pushLength_pos (first :: rest).length
  have hcons : (first :: rest).length = rest.length + 1 := List.length_cons
  rw [List.length_cons, List.length_append]
  omega

theorem fromBe_dropWhile (bs : Bytes) : fromBe (bs.dropWhile (· == 0)) = fromBe bs := by
  induction bs with
  | nil => rfl
  | cons b rest ih =>
      by_cases hb : b = 0
      · rw [List.dropWhile_cons_of_pos (by rw [hb]; rfl), ih, fromBe_cons, hb]
        simp
      · rw [List.dropWhile_cons_of_neg (by simpa using hb)]

theorem dropWhile_cases (bs : Bytes) :
    bs.dropWhile (· == 0) = [] ∧ (∀ b ∈ bs, b = 0) ∨
      ∃ first rest, bs.dropWhile (· == 0) = first :: rest ∧ first ≠ 0 ∧ ∃ b ∈ bs, b ≠ 0 := by
  cases hd : bs.dropWhile (· == 0) with
  | nil =>
      rw [List.dropWhile_eq_nil_iff] at hd
      exact .inl ⟨rfl, fun b hb => by simpa using hd b hb⟩
  | cons first rest =>
      have hne : first ≠ 0 := by
        have := List.head_dropWhile_not (p := (· == 0)) (l := bs) (by rw [hd]; exact List.cons_ne_nil _ _)
        simpa [hd] using this
      exact .inr ⟨first, rest, rfl, hne, first,
        (List.dropWhile_sublist (p := (· == 0)) (l := bs)).subset (by rw [hd]; exact List.mem_cons_self), hne⟩

/-- What is written is an integer in DER exactly for a string that is not all zeros. -/
theorem pushInteger_der_iff (bs : Bytes) : DerInteger (Asn1.pushInteger bs) (fromBe bs) ↔ ∃ b ∈ bs, b ≠ 0 := by
  rw [pushInteger_eq]
  rcases dropWhile_cases bs with ⟨hnil, hzeros⟩ | ⟨first, rest, hcons, hfirst, hsome⟩
  · refine iff_of_false ?_ fun ⟨b, hb, hne⟩ => hne (hzeros b hb)
    intro hder
    have hcontents : integerContents bs = [] := by
      unfold integerContents
      dsimp only
      rw [hnil]
      rfl
    have hlen := hder.length_ge
    rw [hcontents, List.length_nil, List.append_nil] at hlen
    have hone : (Asn1.pushLength 0).length = 1 := by decide
    rw [List.length_cons, hone] at hlen
    omega
  · refine iff_of_true ?_ hsome
    have hvalue : fromBe (first :: rest) = fromBe bs := by rw [← hcons, fromBe_dropWhile]
    unfold integerContents
    dsimp only
    rw [hcons, List.head?_cons, Option.getD_some]
    by_cases hhigh : 0x80 ≤ first
    · rw [if_pos hhigh]
      refine ⟨0, first :: rest, rfl, by decide, ?_, ?_⟩
      · rintro - next hnext
        rw [List.head?_cons, Option.mem_some_iff] at hnext
        rwa [← hnext]
      · rw [fromBe_cons, hvalue]
        simp
    · rw [if_neg hhigh]
      exact ⟨first, rest, rfl, UInt8.not_le.mp hhigh, fun h => absurd h hfirst, hvalue⟩

/-! ## Lengths -/

/-- A length is read back, with the octets that were written, exactly where its contents follow. -/
theorem decodeLength_pushLength {n : Nat} (hn : n < 2 ^ 15) (rest : Bytes) :
    Asn1.decodeLength (Asn1.pushLength n ++ rest) = Asn1.checkSize n rest := by
  have hbe : ∀ k, be 1 k = [UInt8.ofNat k] := fun k => by simp [be]
  unfold Asn1.pushLength
  by_cases hshort : n ≤ 127
  · have htoNat : (UInt8.ofNat n).toNat = n := by
      rw [UInt8.toNat_ofNat', Nat.mod_eq_of_lt (by omega)]
    rw [if_pos hshort, hbe, List.singleton_append, decodeLength_short, htoNat]
    rw [UInt8.lt_iff_toNat_lt, htoNat]
    exact Nat.lt_succ_of_le hshort
  rw [if_neg hshort]
  by_cases hone : n < 256
  · have htoNat : (UInt8.ofNat n).toNat = n := by
      rw [UInt8.toNat_ofNat', Nat.mod_eq_of_lt (by omega)]
    rw [if_pos hone, hbe, List.cons_append, List.singleton_append, decodeLength_one, htoNat]
  · have htwo : be 2 n = [UInt8.ofNat (n / 256), UInt8.ofNat (n % 256)] := by
      rw [show be 2 n = be 1 (n / 256 ^ 1) ++ be 1 n from be_add 1 1 n, ← be_mod 1 n, hbe, hbe, pow_one]
      rfl
    have hhigh : (UInt8.ofNat (n / 256)).toNat = n / 256 := by
      rw [UInt8.toNat_ofNat', Nat.mod_eq_of_lt (by omega)]
    have hlow : (UInt8.ofNat (n % 256)).toNat = n % 256 := by
      rw [UInt8.toNat_ofNat', Nat.mod_mod]
    rw [if_neg hone, htwo, List.cons_append, List.cons_append, List.singleton_append, decodeLength_two, if_pos, hhigh,
      hlow, Nat.div_add_mod']
    rw [UInt8.lt_iff_toNat_lt, hhigh]
    have hlt : n / 256 < 128 := by omega
    exact hlt

/-! ## Bit strings -/

theorem and_high_eq_zero {value n : Nat} (hvalue : value < 2 ^ 32) : value &&& (2 ^ 32 - 2 ^ n) = 0 ↔ value < 2 ^ n := by
  have hbit : ∀ i, (2 ^ 32 - 2 ^ n).testBit i = (decide (i < 32) && !decide (i < n)) := by
    intro i
    by_cases hn : n < 32
    · have hlt : 2 ^ n - 1 < 2 ^ 32 := lt_of_le_of_lt (Nat.sub_le _ _) (Nat.pow_lt_pow_right (by decide) hn)
      have hsucc : 2 ^ 32 - 2 ^ n = 2 ^ 32 - (2 ^ n - 1 + 1) := by rw [Nat.sub_add_cancel Nat.one_le_two_pow]
      rw [hsucc, Nat.testBit_two_pow_sub_succ hlt, Nat.testBit_two_pow_sub_one]
    · have hle : 2 ^ 32 ≤ 2 ^ n := Nat.pow_le_pow_right (by decide) (by omega)
      rw [Nat.sub_eq_zero_of_le hle, Nat.zero_testBit]
      by_cases hi : i < 32
      · rw [decide_eq_true (by omega : i < n)]
        simp
      · rw [decide_eq_false hi, Bool.false_and]
  constructor
  · intro hzero
    by_contra hle
    obtain ⟨i, hi, htrue⟩ := Nat.exists_ge_and_testBit_of_ge_two_pow (Nat.le_of_not_lt hle)
    have hi32 : i < 32 := by
      by_contra hge
      rw [Nat.testBit_lt_two_pow (lt_of_lt_of_le hvalue (Nat.pow_le_pow_right (by decide) (by omega)))] at htrue
      cases htrue
    have hand := congrArg (Nat.testBit · i) hzero
    rw [Nat.testBit_and, htrue, hbit, Nat.zero_testBit, decide_eq_true hi32, decide_eq_false (by omega)] at hand
    cases hand
  · intro hlt
    apply Nat.eq_of_testBit_eq
    intro i
    rw [Nat.testBit_and, hbit, Nat.zero_testBit]
    by_cases hi : i < n
    · rw [decide_eq_true hi]
      simp
    · rw [Nat.testBit_lt_two_pow (lt_of_lt_of_le hlt (Nat.pow_le_pow_right (by decide) (by omega))), Bool.false_and]

/-- Shifting in octets fails exactly where significant bits would be lost. -/
theorem shiftIn_eq {value : Nat} (hvalue : value < 2 ^ 32) (bs : Bytes) :
    Asn1.shiftIn value bs =
      if value * 256 ^ bs.length + fromBe bs < 2 ^ 32 then some (value * 256 ^ bs.length + fromBe bs) else none := by
  induction bs generalizing value with
  | nil =>
      have hsum : value * 256 ^ ([] : Bytes).length + fromBe [] = value := by simp [fromBe]
      rw [hsum, if_pos hvalue]
      rfl
  | cons b rest ih =>
      have hmask : value &&& 0xFF000000 = 0 ↔ value < 2 ^ 24 := by
        rw [← and_high_eq_zero hvalue]
        rfl
      rw [Asn1.shiftIn]
      by_cases hfit : value < 2 ^ 24
      · have hb := b.toNat_lt
        have hsum : (value * 256 + b.toNat) * 256 ^ rest.length + fromBe rest =
            value * 256 ^ (b :: rest).length + fromBe (b :: rest) := by
          rw [fromBe_cons, List.length_cons]
          ring
        rw [if_pos (hmask.mpr hfit), ih (by omega), hsum]
      · have hge : 2 ^ 32 ≤ value * 256 ^ (b :: rest).length := by
          have hpow : 256 ≤ 256 ^ (b :: rest).length := Nat.le_self_pow (Nat.succ_ne_zero _) 256
          calc 2 ^ 32 = 2 ^ 24 * 256 := by decide
            _ ≤ value * 256 ^ (b :: rest).length := Nat.mul_le_mul (Nat.le_of_not_lt hfit) hpow
        rw [if_neg (mt hmask.mp hfit), if_neg (by omega)]

theorem mask_eq {shift : Nat} (h : shift < 8) : 0xFF000000 * 2 ^ (8 - shift) % 2 ^ 32 = 2 ^ 32 - 2 ^ (32 - shift) := by
  interval_cases shift <;> rfl

/-- The value of a bit string: refused for the bits in front of its last octet, a shift by a negative number for
more than 32 bits, and otherwise its bits with the first one as the first of 32. -/
theorem bitValue_eq {unused : UInt8} {octets : Bytes} (hunused : unused.toNat < 8)
    (hnil : octets = [] → unused.toNat = 0) :
    bitValue unused octets =
      if 2 ^ (32 - unused.toNat) ≤ fromBe octets.dropLast then .error (.of .value)
      else if 32 < 8 * octets.length - unused.toNat then .error .overrun
      else .ok (fromBe octets / 2 ^ unused.toNat * 2 ^ (32 - (8 * octets.length - unused.toNat))) := by
  have hno : ¬ (8 ≤ unused.toNat ∨ octets = [] ∧ unused.toNat ≠ 0) := by
    rintro (h | ⟨h, hne⟩)
    · omega
    · exact hne (hnil h)
  unfold bitValue
  dsimp only
  rw [if_neg hno]
  rcases List.eq_nil_or_concat' octets with rfl | ⟨init, last, rfl⟩
  · rw [hnil rfl]
    rfl
  · rw [List.dropLast_concat, List.getLast?_concat, shiftIn_eq (by decide), Nat.zero_mul, Nat.zero_add]
    have hpow : 2 ^ (32 - unused.toNat) ≤ 2 ^ 32 := Nat.pow_le_pow_right (by decide) (Nat.sub_le _ _)
    by_cases hlost : 2 ^ 32 ≤ fromBe init
    · rw [if_neg (by omega), if_pos (by omega)]
    · rw [if_pos (by omega), mask_eq hunused]
      dsimp only
      simp only [ne_eq, and_high_eq_zero (Nat.lt_of_not_le hlost), Nat.not_lt]
      by_cases hhigh : 2 ^ (32 - unused.toNat) ≤ fromBe init
      · rw [if_pos hhigh, if_pos hhigh]
      rw [if_neg hhigh, if_neg hhigh]
      by_cases hlong : 32 < 8 * (init ++ [last]).length - unused.toNat
      · rw [if_pos hlong, if_pos hlong]
      rw [if_neg hlong, if_neg hlong]
      have hlen : (init ++ [last]).length = init.length + 1 := by rw [List.length_append, List.length_singleton]
      have hall : fromBe (init ++ [last]) = fromBe init * 256 + last.toNat := by
        rw [fromBe, List.foldl_append, Nat.mul_comm (fromBe init)]
        rfl
      have hsplit : (2 : Nat) ^ (8 - unused.toNat) * 2 ^ unused.toNat = 256 := by
        rw [← pow_add, Nat.sub_add_cancel hunused.le]
        rfl
      have hvalue : fromBe init * 2 ^ (8 - unused.toNat) + last.toNat / 2 ^ unused.toNat =
          fromBe (init ++ [last]) / 2 ^ unused.toNat := by
        rw [hall, ← hsplit, ← Nat.mul_assoc, Nat.add_comm (_ * _) last.toNat,
          Nat.add_mul_div_right _ _ (Nat.two_pow_pos _), Nat.add_comm]
      have hbits : fromBe (init ++ [last]) / 2 ^ unused.toNat < 2 ^ (8 * (init ++ [last]).length - unused.toNat) := by
        have hlt := fromBe_lt (init ++ [last])
        have height : 256 ^ (init ++ [last]).length = 2 ^ (8 * (init ++ [last]).length) := by
          rw [Nat.pow_mul]
        rw [Nat.div_lt_iff_lt_mul (Nat.two_pow_pos _), ← pow_add, Nat.sub_add_cancel (by omega)]
        omega
      have hsmall : fromBe (init ++ [last]) / 2 ^ unused.toNat < 2 ^ 32 :=
        lt_of_lt_of_le hbits (Nat.pow_le_pow_right (by decide) (Nat.le_of_not_lt hlong))
      have hjust : fromBe (init ++ [last]) / 2 ^ unused.toNat *
          2 ^ (32 - (8 * (init ++ [last]).length - unused.toNat)) < 2 ^ 32 := by
        calc _ < 2 ^ (8 * (init ++ [last]).length - unused.toNat) *
                2 ^ (32 - (8 * (init ++ [last]).length - unused.toNat)) :=
              Nat.mul_lt_mul_of_pos_right hbits (Nat.two_pow_pos _)
          _ = 2 ^ 32 := by rw [← pow_add, Nat.add_sub_cancel' (Nat.le_of_not_lt hlong)]
      rw [hvalue, Nat.mod_eq_of_lt hsmall, Nat.mod_eq_of_lt hjust]

/-- A bit string of at most 32 bits in DER: its length is in the shortest form, and the bits that are not used are
zeros. -/
def DerBitString (element : Bytes) (unused : UInt8) (octets : Bytes) : Prop :=
  element = Asn1.bitString :: (Asn1.pushLength (octets.length + 1) ++ unused :: octets) ∧ unused.toNat < 8 ∧
    (octets = [] → unused.toNat = 0) ∧ fromBe octets % 2 ^ unused.toNat = 0 ∧ 8 * octets.length - unused.toNat ≤ 32

/-- The bits of a string, the first one as the first of 32. -/
def leftJustified (unused : UInt8) (octets : Bytes) : Nat :=
  fromBe octets / 2 ^ unused.toNat * 2 ^ (32 - (8 * octets.length - unused.toNat))

/-- The bits of an element in DER are given, nothing else is taken for one, and no shift is out of range. -/
def Asn1Context.BitString.Exact (out : BitString) (bs : Bytes) : Prop :=
  (∀ v, out = .value v ↔ ∃ element rest unused octets,
      bs = element ++ rest ∧ DerBitString element unused octets ∧ v = leftJustified unused octets) ∧
    ∀ n, out ≠ .badShift n

/-- The tag, the length and the first octet are ones of a bit string. -/
structure BitHeader (bs : Bytes) (n : Nat) (rest : Bytes) (unused : UInt8) (octets : Bytes) : Prop where
  tag : Asn1.nextTag bs = some (Asn1.bitString, n, rest)
  contents : rest.take n = unused :: octets
  unused_lt : unused.toNat < 8
  unused_nil : octets = [] → unused.toNat = 0

/-- A bit string of up to four octets has a length in the shortest form and zeros for the bits that are not used; a
longer one has so many bits in front of its last octet that they would be lost. -/
def PlainBitString (bs : Bytes) : Prop :=
  ∀ n rest unused octets, BitHeader bs n rest unused octets →
    if octets.length ≤ 4 then
      bs = Asn1.bitString :: (Asn1.pushLength n ++ rest) ∧ fromBe octets % 2 ^ unused.toNat = 0
    else 2 ^ (32 - unused.toNat) ≤ fromBe octets.dropLast

namespace BitHeader
variable {bs rest rest' octets octets' : Bytes} {n n' : Nat} {unused unused' : UInt8}

theorem unique (h : BitHeader bs n rest unused octets) (h' : BitHeader bs n' rest' unused' octets') :
    n = n' ∧ rest = rest' ∧ unused = unused' ∧ octets = octets' := by
  have htag := h.tag.symm.trans h'.tag
  simp only [Option.some.injEq, Prod.mk.injEq, true_and] at htag
  obtain ⟨rfl, rfl⟩ := htag
  obtain ⟨hunused, hoctets⟩ := List.cons.inj (h.contents.symm.trans h'.contents)
  exact ⟨rfl, rfl, hunused, hoctets⟩

theorem value (h : BitHeader bs n rest unused octets) : Asn1.getBitStringValue bs =
    if 2 ^ (32 - unused.toNat) ≤ fromBe octets.dropLast then .error (.of .value)
    else if 32 < 8 * octets.length - unused.toNat then .error .overrun
    else .ok (leftJustified unused octets) := by
  rw [getBitStringValue_eq h.tag h.contents, bitValue_eq h.unused_lt h.unused_nil]
  rfl

theorem length_eq (h : BitHeader bs n rest unused octets) : n = octets.length + 1 := by
  have hle : n ≤ rest.length := (nextTag_le h.tag).1
  rw [← List.length_cons, ← h.contents, List.length_take_of_le hle]

theorem of_der {element : Bytes} (h : DerBitString element unused octets) (rest : Bytes) :
    BitHeader (element ++ rest) (octets.length + 1) (unused :: (octets ++ rest)) unused octets := by
  obtain ⟨rfl, hunused, hnil, -, hbits⟩ := h
  refine ⟨?_, by rw [List.take_succ_cons, List.take_left], hunused, hnil⟩
  have hlength : Asn1.decodeLength (Asn1.pushLength (octets.length + 1) ++ unused :: (octets ++ rest)) =
      Asn1.checkSize (octets.length + 1) (unused :: (octets ++ rest)) :=
    decodeLength_pushLength (by omega) _
  have hsize : octets.length + 1 ≤ (unused :: (octets ++ rest)).length := by
    rw [List.length_cons, List.length_append]
    omega
  rw [List.cons_append, List.append_assoc, List.cons_append, Asn1.nextTag, if_neg (by decide), hlength,
    Asn1.checkSize, if_pos hsize]
  rfl

theorem der_iff (h : BitHeader bs n rest unused octets) :
    (∃ element rest' unused' octets', bs = element ++ rest' ∧ DerBitString element unused' octets') ↔
      bs = Asn1.bitString :: (Asn1.pushLength n ++ rest) ∧ fromBe octets % 2 ^ unused.toNat = 0 ∧
        8 * octets.length - unused.toNat ≤ 32 := by
  constructor
  · rintro ⟨element, rest', unused', octets', rfl, hder⟩
    obtain ⟨rfl, rfl, rfl, rfl⟩ := h.unique (of_der hder rest')
    obtain ⟨rfl, -, -, hzeros, hbits⟩ := hder
    refine ⟨?_, hzeros, hbits⟩
    rw [List.cons_append, List.append_assoc, List.cons_append]
  · rintro ⟨hbs, hzeros, hbits⟩
    refine ⟨_, rest.drop n, unused, octets, ?_, rfl, h.unused_lt, h.unused_nil, hzeros, hbits⟩
    rw [← h.length_eq, ← h.contents, List.cons_append, List.append_assoc, List.take_append_drop]
    exact hbs

end BitHeader

theorem getBitStringValue_no_header {bs : Bytes} (h : ∀ n rest unused octets, ¬ BitHeader bs n rest unused octets) :
    Asn1.getBitStringValue bs = .error (.of .value) := by
  cases htag : Asn1.nextTag bs with
  | none =>
      unfold Asn1.getBitStringValue
      rw [htag]
  | some p =>
      obtain ⟨tag, n, rest⟩ := p
      by_cases hkind : 1 ≤ n ∧ tag = Asn1.bitString
      · obtain ⟨hn, rfl⟩ := hkind
        cases hcontents : rest.take n with
        | nil =>
            unfold Asn1.getBitStringValue
            rw [htag]
            dsimp only
            rw [hcontents]
        | cons unused octets =>
            rw [getBitStringValue_eq htag hcontents, bitValue]
            refine if_pos ?_
            by_contra hnot
            rw [not_or, not_and, not_not] at hnot
            exact h n rest unused octets ⟨htag, hcontents, by omega, hnot.2⟩
      · exact getBitStringValue_refused htag hkind

/-- Bit strings are read as DER has them exactly where they are plain. -/
theorem Asn1Context.BitString.exact_iff {out : BitString} {bs : Bytes}
    (hout : out.Agrees (Asn1.getBitStringValue bs)) : out.Exact bs ↔ PlainBitString bs := by
  by_cases hheader : ∃ n rest unused octets, BitHeader bs n rest unused octets
  · obtain ⟨n, rest, unused, octets, h⟩ := hheader
    have hder := h.der_iff
    have hplain : PlainBitString bs ↔
        if octets.length ≤ 4 then
          bs = Asn1.bitString :: (Asn1.pushLength n ++ rest) ∧ fromBe octets % 2 ^ unused.toNat = 0
        else 2 ^ (32 - unused.toNat) ≤ fromBe octets.dropLast := by
      refine ⟨fun hp => hp n rest unused octets h, fun hp n' rest' unused' octets' h' => ?_⟩
      obtain ⟨rfl, rfl, rfl, rfl⟩ := h.unique h'
      exact hp
    have hunused := h.unused_lt
    rw [hplain]
    rw [h.value] at hout
    by_cases hlength : octets.length ≤ 4
    · have hfew : ¬ 2 ^ (32 - unused.toNat) ≤ fromBe octets.dropLast := by
        have hlt := fromBe_lt octets.dropLast
        have hle : 256 ^ octets.dropLast.length ≤ 2 ^ (32 - unused.toNat) := by
          rw [show (256 : Nat) = 2 ^ 8 from rfl, ← pow_mul]
          apply Nat.pow_le_pow_right (by decide)
          rw [List.length_dropLast]
          omega
        omega
      rw [if_neg hfew, if_neg (by omega)] at hout
      obtain rfl : out = .value (leftJustified unused octets) := hout
      rw [if_pos hlength]
      have hbits : 8 * octets.length - unused.toNat ≤ 32 := by omega
      constructor
      · rintro ⟨hvalue, -⟩
        obtain ⟨element, rest', unused', octets', hbs, hd, -⟩ := (hvalue _).mp rfl
        obtain ⟨hshort, hzeros, -⟩ := hder.mp ⟨element, rest', unused', octets', hbs, hd⟩
        exact ⟨hshort, hzeros⟩
      · rintro ⟨hshort, hzeros⟩
        obtain ⟨element, rest', unused', octets', hbs, hd⟩ := hder.mpr ⟨hshort, hzeros, hbits⟩
        refine ⟨fun v => ⟨fun hv => ?_, ?_⟩, nofun⟩
        · obtain ⟨-, -, rfl, rfl⟩ := h.unique (hbs ▸ BitHeader.of_der hd rest')
          exact ⟨element, rest', unused, octets, hbs, hd, (BitString.value.inj hv).symm⟩
        · rintro ⟨element', rest'', unused'', octets'', hbs', hd', rfl⟩
          obtain ⟨-, -, rfl, rfl⟩ := h.unique (hbs' ▸ BitHeader.of_der hd' rest'')
          rfl
    · have hlong : 32 < 8 * octets.length - unused.toNat := by omega
      rw [if_neg hlength]
      by_cases hlost : 2 ^ (32 - unused.toNat) ≤ fromBe octets.dropLast
      · rw [if_pos hlost] at hout
        obtain rfl : out = .fails := hout
        refine iff_of_true ⟨fun v => ⟨nofun, ?_⟩, nofun⟩ hlost
        rintro ⟨element, rest', unused', octets', hbs, hd, -⟩
        exact absurd (hder.mp ⟨element, rest', unused', octets', hbs, hd⟩).2.2 (by omega)
      · rw [if_neg hlost, if_pos hlong] at hout
        obtain ⟨k, -, rfl⟩ := hout
        exact iff_of_false (fun hexact => hexact.2 k rfl) hlost
  · push Not at hheader
    rw [getBitStringValue_no_header hheader] at hout
    obtain rfl : out = .fails := hout
    refine iff_of_true ⟨fun v => ⟨nofun, ?_⟩, nofun⟩ fun n rest unused octets h => (hheader _ _ _ _ h).elim
    rintro ⟨element, rest', unused', octets', rfl, hd, -⟩
    exact (hheader _ _ _ _ (BitHeader.of_der hd rest')).elim

/-- A length that was pushed is read back, with nothing but its octets, exactly where its contents follow. -/
theorem decodeLength_pushed {m : Int → UInt8} {c : Asn1Context} {n : Nat} {rest : Bytes} (hn : n < 2 ^ 15)
    (hleft : c.left m = Asn1.pushLength n ++ rest) :
    ((c.decodeLength m).value.1 = n ∧ (c.decodeLength m).value.2 = c.advance (Asn1.pushLength n).length) ↔
      n ≤ rest.length := by
  obtain ⟨hdecodes, -⟩ := decodeLength_decodes (m := m) (c := c)
  rw [hleft, decodeLength_pushLength hn, Asn1.checkSize] at hdecodes
  by_cases hfollow : n ≤ rest.length
  · rw [if_pos hfollow] at hdecodes
    obtain ⟨hvalue, -, k, hk, hrest, hout⟩ := hdecodes
    refine iff_of_true ⟨hvalue, ?_⟩ hfollow
    have hcount : k = (Asn1.pushLength n).length := by
      have hlen := congrArg List.length hrest
      rw [hleft, List.length_append] at hk
      rw [hleft, List.length_drop, List.length_append] at hlen
      omega
    rw [hout, decodeLength_tag, hcount]
    rfl
  · rw [if_neg hfollow] at hdecodes
    refine iff_of_false (fun h => ?_) hfollow
    have := hdecodes.1.symm.trans h.1
    omega

theorem pushInteger_written {w : MarshalContext} (hw : w.offset < 2 ^ 15) {bs : Bytes} (hbs : bs.length < 2 ^ 15)
    (hroom : 0 ≤ (w.pushInteger bs).2.offset) :
    (∃ element, (w.pushInteger bs).2.written = element ++ w.written ∧ DerInteger element (fromBe bs)) ↔
      ∃ b ∈ bs, b ≠ 0 := by
  have hpushes := Pushes.integer hw hbs
  have hwritten := congrArg MarshalContext.written (hpushes.fits (hpushes.offset_nonneg_iff.mp hroom))
  rw [← pushInteger_der_iff, hwritten]
  constructor
  · rintro ⟨element, heq, hder⟩
    rwa [List.append_cancel_right heq]
  · exact fun hder => ⟨_, rfl, hder⟩

/-- What the codec keeps of DER, for every context that is read and every one that is written: bit strings exactly
where they are plain; a length that was pushed exactly where its contents follow; an integer exactly where it is not
zero; and the values of the functions that push exactly where the octets are accounted for. -/
theorem codec_der_iff (m : Int → UInt8) (c : Asn1Context) (w : MarshalContext) (hw : w.offset < 2 ^ 15) :
    ((c.getBitStringValue m).value.1.Exact (c.left m) ↔ PlainBitString (c.left m)) ∧
      (∀ n < 2 ^ 15, 0 ≤ (w.pushLength n).2.offset → c.left m = (w.pushLength n).2.written →
        (((c.decodeLength m).value.1 = n ∧
            (c.decodeLength m).value.2 = c.advance (w.offset - (w.pushLength n).2.offset)) ↔ n ≤ w.written.length)) ∧
      (∀ bs : Bytes, bs ≠ [] → bs.length < 2 ^ 15 → 0 ≤ (w.pushInteger bs).2.offset →
        ((∃ element, (w.pushInteger bs).2.written = element ++ w.written ∧ DerInteger element (fromBe bs)) ↔
          ∃ b ∈ bs, b ≠ 0)) ∧
      ∀ call : PushCall, call.Admissible → (call.TellsLength w ↔ call.Accounted w) := by
  refine ⟨BitString.exact_iff getBitStringValue_agrees.1, fun n hn hroom hleft => ?_,
    fun bs _ hbs hroom => pushInteger_written hw hbs hroom, fun call hcall => PushCall.tellsLength_iff_accounted hw hcall⟩
  have hpushes := Pushes.length w hn
  have hfits := hpushes.fits (hpushes.offset_nonneg_iff.mp hroom)
  rw [hfits] at hleft ⊢
  rw [show w.offset - (⟨w.offset - (Asn1.pushLength n).length, Asn1.pushLength n ++ w.written⟩ : MarshalContext).offset =
    (Asn1.pushLength n).length from Int.sub_sub_self ..]
  exact decodeLength_pushed hn hleft

/-- Five octets of which the first four are zeros are shifted by -8, zero is written without contents, a length that
fills its buffer counts as none, and a string that has room without its tag is counted. -/
theorem codec_not_der :
    ((⟨0, 8, 0, 0xFF⟩ : Asn1Context).getBitStringValue fun i =>
        [0x03, 0x06, 0x00, 0x00, 0x00, 0x00, 0x00, 0x01].getD i.toNat 0).value.1 = .badShift (-8) ∧
      ((⟨8, []⟩ : MarshalContext).pushInteger [0]).2.written = [0x02, 0x00] ∧ (∀ value, ¬ DerInteger [0x02, 0x00] value) ∧
      ¬ (PushCall.length 5).TellsLength ⟨1, []⟩ ∧ ¬ (PushCall.taggedOctetString [7, 7] 4).TellsLength ⟨2, []⟩ := by
  refine ⟨by decide, by decide, fun value hder => absurd hder.length_ge (by decide : ¬ 3 ≤ 2), ?_, ?_⟩
  · rintro ⟨h, -⟩
    exact absurd (h (by decide)) (by decide)
  · rintro ⟨-, h⟩
    exact absurd (h (by decide)) (by decide)

/-- A buffer that holds these octets. -/
def octetsAt (bs : Bytes) (i : Int) : UInt8 := bs.getD i.toNat 0

theorem oneBit_plain : PlainBitString [0x03, 0x02, 0x07, 0x80] := by
  have hheader : BitHeader [0x03, 0x02, 0x07, 0x80] 2 [0x07, 0x80] 0x07 [0x80] := by
    refine ⟨by decide, rfl, by decide, ?_⟩
    simp
  intro n rest unused octets h
  obtain ⟨rfl, rfl, rfl, rfl⟩ := hheader.unique h
  decide

/-- A bit string of one bit is read, a length that was pushed comes back, and 128 is written with a leading zero. -/
theorem codec_der_one_octet :
    ((⟨0, 4, 0, 0xFF⟩ : Asn1Context).getBitStringValue (octetsAt [0x03, 0x02, 0x07, 0x80])).value.1 = .value (2 ^ 31) ∧
      (((⟨0, 4, 0, 0xFF⟩ : Asn1Context).decodeLength (octetsAt [0x03, 7, 8, 9])).value.1 = (3 : Nat) ∧
        ((⟨0, 4, 0, 0xFF⟩ : Asn1Context).decodeLength (octetsAt [0x03, 7, 8, 9])).value.2 = ⟨0, 4, 1, 0xFF⟩) ∧
      (∃ element, ((⟨8, [7, 8, 9]⟩ : MarshalContext).pushInteger [0x00, 0x80]).2.written = element ++ [7, 8, 9] ∧
        DerInteger element 128) ∧
      (PushCall.uint 0x80).TellsLength ⟨8, [7, 8, 9]⟩ := by
  obtain ⟨hbits, -, hinteger, htells⟩ := codec_der_iff (octetsAt [0x03, 0x02, 0x07, 0x80]) ⟨0, 4, 0, 0xFF⟩
    ⟨8, [7, 8, 9]⟩ (by decide)
  obtain ⟨-, hlength, -⟩ := codec_der_iff (octetsAt [0x03, 7, 8, 9]) ⟨0, 4, 0, 0xFF⟩ ⟨8, [7, 8, 9]⟩ (by decide)
  refine ⟨?_, (hlength 3 (by decide) (by decide) (by decide)).mpr (by decide),
    (hinteger [0x00, 0x80] (by decide) (by decide) (by decide)).mpr ⟨0x80, by decide, by decide⟩,
    (htells (.uint 0x80) trivial).mpr (.inr (by decide))⟩
  exact ((hbits.mpr oneBit_plain).1 _).mpr
    ⟨[0x03, 0x02, 0x07, 0x80], [], 0x07, [0x80], by decide, ⟨by decide, by decide, by decide, by decide⟩, by decide⟩

end PqcTpm
