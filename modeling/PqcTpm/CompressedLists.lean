import PqcTpm.Lib.BitArrays
import PqcTpm.Lib.Transition
import PqcTpm.NvBlob

/-!
# Compressed command lists

`BackwardsCompatibilityBitArray.c`: until v0.9 the bits of the physical presence list and of
the audit list were numbered by a list of commands without gaps. States below
`stateFormatLevel` 3 are still written that way.
-/
namespace PqcTpm
open ByteCodec BitArrays Transition

/-- `TPM_CC_NV_UndefineSpaceSpecial`, the code of command index 0. -/
def firstCommandCode : Nat := 0x11f

/-- `CCToCompressedListIndex`, the code at each index. -/
def ccToCompressedListIndex : List Nat :=
  [0x11f, 0x120, 0x121, 0x122, 0x124, 0x125, 0x126, 0x127, 0x128, 0x129, 0x12a, 0x12b, 0x12c,
   0x12d, 0x12e, 0x130, 0x131, 0x132, 0x133, 0x134, 0x135, 0x136, 0x137, 0x138, 0x139, 0x13a,
   0x13b, 0x13c, 0x13d, 0x13e, 0x13f, 0x140, 0x142, 0x143, 0x144, 0x145, 0x146, 0x147, 0x148,
   0x149, 0x14a, 0x14b, 0x14c, 0x14d, 0x14e, 0x14f, 0x150, 0x151, 0x152, 0x153, 0x154, 0x155,
   0x156, 0x157, 0x158, 0x159, 0x15b, 0x15c, 0x15d, 0x15e, 0x160, 0x161, 0x162, 0x163, 0x164,
   0x165, 0x167, 0x168, 0x169, 0x16a, 0x16b, 0x16c, 0x16d, 0x16e, 0x16f, 0x170, 0x171, 0x172,
   0x173, 0x174, 0x176, 0x177, 0x178, 0x17a, 0x17b, 0x17c, 0x17d, 0x17e, 0x17f, 0x180, 0x181,
   0x182, 0x183, 0x184, 0x185, 0x186, 0x187, 0x188, 0x189, 0x18a, 0x18b, 0x18c, 0x18d, 0x18e,
   0x18f, 0x190, 0x191, 0x192, 0x193, 0x197]

/-- The loop of `FindCCInCompressedListIndexArray`. -/
def findCCLoop (cc : Nat) : Nat → Nat → Nat → Option Nat
  | 0, _, _ => none
  | fuel + 1, sIndex, eIndex =>
    let index := (eIndex + sIndex) / 2
    let found := ccToCompressedListIndex.getD index 0
    if cc = found then some index
    else if eIndex = sIndex then none
    else if cc < found then findCCLoop cc fuel sIndex index
    else if sIndex ≠ index then findCCLoop cc fuel index eIndex
    else findCCLoop cc fuel (sIndex + 1) eIndex

/-- `FindCCInCompressedListIndexArray`, which asserts that the code is there. -/
def findCCInCompressedListIndexArray (cc : Nat) : Except Fault Nat :=
  match findCCLoop cc 110 0 109 with
  | some index => .ok index
  | none => .error .failureMode

/-- `SetBit`. -/
def setBit {size : Nat} (bitNum : Nat) (bArray : BitArray size) : Except Fault (BitArray size) :=
  match bArray.set? bitNum with
  | some b => .ok b
  | none => .error .failureMode

/-- `ClearBit`. -/
def clearBit {size : Nat} (bitNum : Nat) (bArray : BitArray size) : Except Fault (BitArray size) :=
  match bArray.clear? bitNum with
  | some b => .ok b
  | none => .error .failureMode

/-- `ConvertToCompressedBitArray`; the two loops visit the bits that are set. -/
def convertToCompressedBitArray {size : Nat} (input : BitArray size) (outLen : Nat) :
    Except Fault (BitArray outLen) :=
  input.bits.foldlM (fun out idx => do
    let bit ← findCCInCompressedListIndexArray (idx + firstCommandCode)
    setBit bit out) (BitArray.zero outLen)

theorem setBit_ok {size bitNum : Nat} {a b : BitArray size} (h : setBit bitNum a = .ok b) :
    a.set? bitNum = some b := by
  unfold setBit at h
  split at h
  · rename_i c hc
    rw [hc, Except.ok.inj h]
  · cases h

theorem setBit_ok_iff {size bitNum : Nat} {a : BitArray size} :
    (∃ b, setBit bitNum a = .ok b) ↔ bitNum / 8 < size := by
  rw [← BitArray.set?_isSome_iff (a := a)]
  constructor
  · rintro ⟨b, hb⟩
    exact ⟨b, setBit_ok hb⟩
  · rintro ⟨b, hb⟩
    exact ⟨b, by rw [setBit, hb]⟩

theorem clearBit_ok {size bitNum : Nat} {a b : BitArray size} (h : clearBit bitNum a = .ok b) :
    a.clear? bitNum = some b := by
  unfold clearBit at h
  split at h
  · rename_i c hc
    rw [hc, Except.ok.inj h]
  · cases h

/-- What the loop returns is an index of the code. -/
theorem findCCLoop_sound {cc : Nat} (hcc : cc ≠ 0) {fuel sIndex eIndex index : Nat}
    (h : findCCLoop cc fuel sIndex eIndex = some index) : ccToCompressedListIndex[index]? = some cc := by
  induction fuel generalizing sIndex eIndex with
  | zero => cases h
  | succ fuel ih =>
      simp only [findCCLoop] at h
      split at h
      · rename_i hfound
        obtain rfl := Option.some.inj h
        rw [List.getD_eq_getElem?_getD] at hfound
        cases hget : ccToCompressedListIndex[(eIndex + sIndex) / 2]? with
        | none =>
            rw [hget] at hfound
            exact absurd hfound hcc
        | some c =>
            rw [hget] at hfound
            rw [hfound, Option.getD_some]
      · split at h
        · cases h
        · split at h
          · exact ih h
          · split at h
            · exact ih h
            · exact ih h

theorem findCCLoop_complete : ∀ index < 110,
    findCCLoop (ccToCompressedListIndex.getD index 0) 110 0 109 = some index := by decide +kernel

theorem findCC_ok_iff {cc index : Nat} (hcc : cc ≠ 0) :
    findCCInCompressedListIndexArray cc = .ok index ↔ ccToCompressedListIndex[index]? = some cc := by
  constructor
  · intro h
    unfold findCCInCompressedListIndexArray at h
    split at h
    · rename_i i hi
      obtain rfl := Except.ok.inj h
      exact findCCLoop_sound hcc hi
    · cases h
  · intro h
    have hlt : index < 110 := (List.getElem?_eq_some_iff.mp h).1
    have hfound := findCCLoop_complete index hlt
    rw [List.getD_eq_getElem?_getD, h, Option.getD_some] at hfound
    rw [findCCInCompressedListIndexArray, hfound]

/-- The command has a place in a compressed list of that many octets. -/
def Compressible (outLen cc : Nat) : Prop := ∃ index, ccToCompressedListIndex[index]? = some cc ∧ index / 8 < outLen

/-- The conversion goes through exactly when every command of the list has a place. -/
theorem convertToCompressed_ok_iff {size : Nat} (input : BitArray size) (outLen : Nat) :
    (∃ out, convertToCompressedBitArray input outLen = .ok out) ↔
      ∀ idx, input.get idx = true → Compressible outLen (idx + firstCommandCode) := by
  have hstep : ∀ (out : BitArray outLen) (idx : Nat),
      (∃ out', (do
        let bit ← findCCInCompressedListIndexArray (idx + firstCommandCode)
        setBit bit out) = Except.ok out') ↔ Compressible outLen (idx + firstCommandCode) := by
    intro out idx
    have hcc : idx + firstCommandCode ≠ 0 := by
      unfold firstCommandCode
      omega
    constructor
    · rintro ⟨out', h⟩
      obtain ⟨bit, hbit, hset⟩ := bind_eq_ok h
      exact ⟨bit, (findCC_ok_iff hcc).mp hbit, setBit_ok_iff.mp ⟨out', hset⟩⟩
    · rintro ⟨bit, hbit, hlt⟩
      obtain ⟨out', hset⟩ := setBit_ok_iff (a := out).mpr hlt
      refine ⟨out', ?_⟩
      rw [(findCC_ok_iff hcc).mpr hbit]
      exact hset
  unfold convertToCompressedBitArray
  rw [foldlM_ok_iff hstep]
  simp only [BitArray.mem_bits]

end PqcTpm
