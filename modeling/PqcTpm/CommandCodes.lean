import PqcTpm.RuntimeCommands
import PqcTpm.Lib.IndexWalk
import Mathlib.Data.Nat.Bitwise

/-!
# Command codes and command indexes

`CommandCodeAttributes.c`: the index of a command in the tables that are kept by index, the search for
the closest and for the next command, and the list of commands that TPM2_GetCapability returns.
-/
namespace PqcTpm
open IndexWalk

/-- `TPMA_CC`. -/
structure TpmaCc where
  commandIndex : UInt16
  nv : Bool
  extensive : Bool
  flushed : Bool
  cHandles : Nat
  rHandle : Bool
  v : Bool
  deriving DecidableEq, Repr

namespace CommandCodes

/-- `s_ccAttr`. The list is padded: it has a row for every code from the first command to the last. -/
def ccAttrTable : List TpmaCc :=
  [⟨0x11f, true, false, false, 2, false, false⟩, ⟨0x120, true, false, false, 2, false, false⟩,
   ⟨0x121, true, true, false, 1, false, false⟩, ⟨0x122, true, false, false, 2, false, false⟩,
   ⟨0x123, false, false, false, 0, false, false⟩, ⟨0x124, true, true, false, 1, false, false⟩,
   ⟨0x125, true, true, false, 1, false, false⟩, ⟨0x126, true, true, false, 1, false, false⟩,
   ⟨0x127, true, false, false, 1, false, false⟩, ⟨0x128, true, false, false, 1, false, false⟩,
   ⟨0x129, true, false, false, 1, false, false⟩, ⟨0x12a, true, false, false, 1, false, false⟩,
   ⟨0x12b, true, false, false, 1, false, false⟩, ⟨0x12c, true, false, false, 1, false, false⟩,
   ⟨0x12d, true, false, false, 1, false, false⟩, ⟨0x12e, true, false, false, 1, false, false⟩,
   ⟨0x12f, false, false, false, 2, false, false⟩, ⟨0x130, false, false, false, 1, false, false⟩,
   ⟨0x131, false, false, false, 1, true, false⟩, ⟨0x132, true, false, false, 1, false, false⟩,
   ⟨0x133, true, false, false, 2, false, false⟩, ⟨0x134, true, false, false, 2, false, false⟩,
   ⟨0x135, true, false, false, 2, false, false⟩, ⟨0x136, true, false, false, 2, false, false⟩,
   ⟨0x137, true, false, false, 2, false, false⟩, ⟨0x138, true, false, false, 2, false, false⟩,
   ⟨0x139, true, false, false, 1, false, false⟩, ⟨0x13a, true, false, false, 1, false, false⟩,
   ⟨0x13b, true, false, false, 1, false, false⟩, ⟨0x13c, true, false, false, 1, false, false⟩,
   ⟨0x13d, true, false, false, 1, false, false⟩, ⟨0x13e, false, false, true, 1, false, false⟩,
   ⟨0x13f, true, false, false, 1, false, false⟩, ⟨0x140, true, false, false, 1, false, false⟩,
   ⟨0x141, true, false, false, 0, false, false⟩, ⟨0x142, true, false, false, 0, false, false⟩,
   ⟨0x143, true, false, false, 0, false, false⟩, ⟨0x144, true, false, false, 0, false, false⟩,
   ⟨0x145, true, false, false, 0, false, false⟩, ⟨0x146, true, false, false, 0, false, false⟩,
   ⟨0x147, false, false, false, 2, false, false⟩, ⟨0x148, false, false, false, 2, false, false⟩,
   ⟨0x149, false, false, false, 3, false, false⟩, ⟨0x14a, false, false, false, 2, false, false⟩,
   ⟨0x14b, false, false, false, 2, false, false⟩, ⟨0x14c, false, false, false, 2, false, false⟩,
   ⟨0x14d, false, false, false, 3, false, false⟩, ⟨0x14e, false, false, false, 2, false, false⟩,
   ⟨0x14f, true, false, false, 2, false, false⟩, ⟨0x150, false, false, false, 2, false, false⟩,
   ⟨0x151, false, false, false, 2, false, false⟩, ⟨0x152, false, false, false, 2, false, false⟩,
   ⟨0x153, false, false, false, 1, false, false⟩, ⟨0x154, false, false, false, 1, false, false⟩,
   ⟨0x155, false, false, false, 1, false, false⟩, ⟨0x156, false, false, false, 1, false, false⟩,
   ⟨0x157, false, false, false, 1, true, false⟩, ⟨0x158, false, false, false, 1, false, false⟩,
   ⟨0x159, false, false, false, 1, false, false⟩, ⟨0x15a, false, false, false, 0, false, false⟩,
   ⟨0x15b, false, false, false, 1, true, false⟩, ⟨0x15c, false, false, false, 1, false, false⟩,
   ⟨0x15d, false, false, false, 1, false, false⟩, ⟨0x15e, false, false, false, 1, false, false⟩,
   ⟨0x15f, false, false, false, 0, false, false⟩, ⟨0x160, false, false, false, 2, false, false⟩,
   ⟨0x161, false, false, false, 0, true, false⟩, ⟨0x162, false, false, false, 1, false, false⟩,
   ⟨0x163, false, false, false, 1, false, false⟩, ⟨0x164, false, false, false, 1, false, false⟩,
   ⟨0x165, false, false, false, 0, false, false⟩, ⟨0x166, false, false, false, 0, false, false⟩,
   ⟨0x167, false, false, false, 0, true, false⟩, ⟨0x168, false, false, false, 1, false, false⟩,
   ⟨0x169, false, false, false, 1, false, false⟩, ⟨0x16a, false, false, false, 1, false, false⟩,
   ⟨0x16b, false, false, false, 1, false, false⟩, ⟨0x16c, false, false, false, 1, false, false⟩,
   ⟨0x16d, false, false, false, 1, false, false⟩, ⟨0x16e, false, false, false, 1, false, false⟩,
   ⟨0x16f, false, false, false, 1, false, false⟩, ⟨0x170, false, false, false, 1, false, false⟩,
   ⟨0x171, false, false, false, 1, false, false⟩, ⟨0x172, false, false, false, 1, false, false⟩,
   ⟨0x173, false, false, false, 1, false, false⟩, ⟨0x174, false, false, false, 1, false, false⟩,
   ⟨0x175, false, false, false, 0, false, false⟩, ⟨0x176, false, false, false, 2, true, false⟩,
   ⟨0x177, false, false, false, 1, false, false⟩, ⟨0x178, false, false, false, 0, false, false⟩,
   ⟨0x179, false, false, false, 0, false, false⟩, ⟨0x17a, false, false, false, 0, false, false⟩,
   ⟨0x17b, false, false, false, 0, false, false⟩, ⟨0x17c, false, false, false, 0, false, false⟩,
   ⟨0x17d, false, false, false, 0, false, false⟩, ⟨0x17e, false, false, false, 0, false, false⟩,
   ⟨0x17f, false, false, false, 1, false, false⟩, ⟨0x180, false, false, false, 1, false, false⟩,
   ⟨0x181, false, false, false, 0, false, false⟩, ⟨0x182, true, false, false, 1, false, false⟩,
   ⟨0x183, false, false, false, 1, false, false⟩, ⟨0x184, false, false, false, 3, false, false⟩,
   ⟨0x185, true, false, true, 2, false, false⟩, ⟨0x186, false, false, false, 0, true, false⟩,
   ⟨0x187, false, false, false, 1, false, false⟩, ⟨0x188, false, false, false, 1, false, false⟩,
   ⟨0x189, false, false, false, 1, false, false⟩, ⟨0x18a, false, false, false, 0, false, false⟩,
   ⟨0x18b, false, false, false, 1, false, false⟩, ⟨0x18c, false, false, false, 1, false, false⟩,
   ⟨0x18d, false, false, false, 1, false, false⟩, ⟨0x18e, false, false, false, 0, false, false⟩,
   ⟨0x18f, false, false, false, 1, false, false⟩, ⟨0x190, false, false, false, 1, false, false⟩,
   ⟨0x191, false, false, false, 1, true, false⟩, ⟨0x192, false, false, false, 3, false, false⟩,
   ⟨0x193, false, false, false, 1, false, false⟩, ⟨0x194, false, false, false, 1, false, false⟩,
   ⟨0x195, false, false, false, 3, false, false⟩, ⟨0x196, false, false, false, 1, false, false⟩,
   ⟨0x197, false, false, false, 2, false, false⟩, ⟨0x198, false, false, false, 1, false, false⟩,
   ⟨0x199, false, false, false, 1, false, false⟩, ⟨0x19a, false, false, false, 1, false, false⟩,
   ⟨0x19b, false, false, false, 1, false, false⟩, ⟨0x19c, false, false, false, 1, false, false⟩,
   ⟨0x19d, true, false, false, 1, false, false⟩, ⟨0x19e, false, false, false, 1, false, false⟩,
   ⟨0x19f, true, false, false, 1, false, false⟩, ⟨0x1a0, false, false, false, 0, false, false⟩,
   ⟨0x1a1, false, false, false, 0, false, false⟩, ⟨0x1a2, false, false, false, 0, false, false⟩,
   ⟨0x1a3, false, false, false, 1, false, false⟩, ⟨0x1a4, false, false, false, 1, false, false⟩,
   ⟨0x1a5, false, false, false, 1, false, false⟩, ⟨0x1a6, false, false, false, 1, false, false⟩,
   ⟨0x1a7, false, false, false, 1, false, false⟩, ⟨0x1a8, false, false, false, 1, false, false⟩,
   ⟨0x1a9, false, false, false, 1, false, false⟩, ⟨0x1aa, false, false, false, 1, false, false⟩]

/-- `COMMAND_COUNT`, which is `LIBRARY_COMMAND_ARRAY_SIZE`: there are no vendor commands. -/
def commandCount : Nat := 140

/-- `s_ccAttr[commandIndex]`; behind the commands stands the row that ends the list. -/
def ccAttr (commandIndex : Nat) : TpmaCc := ccAttrTable.getD commandIndex ⟨0, false, false, false, 0, false, true⟩

/-- `s_commandAttributes[commandIndex] & IS_IMPLEMENTED`. -/
def isImplemented (commandIndex : Nat) : Bool := commandTable.any (·.code == 0x11f + commandIndex)

/-- `TestBit` on an array of `bytesInArray` octets. -/
def testBit (bitNum : Nat) (bArray : Nat → Bool) (bytesInArray : Nat) : Except Fault Bool :=
  if bitNum >>> 3 < bytesInArray then .ok (bArray bitNum) else .error .failureMode

/-- `CcToIdx`, on 32 bits. -/
def ccToIdx (commandCode : UInt32) : Nat := (commandCode - 0x11f).toNat

/-- `sizeof(RuntimeCommands->enabledCommands)`. -/
def enabledCommandsSize : Nat := (0x11f + 140 + 7) / 8

/-- `RuntimeCommandsCheckEnabled`. -/
def checkEnabled (rc : RuntimeCommands) (commandCode : UInt32) : Except Fault Bool :=
  if 140 ≤ ccToIdx commandCode then .ok false
  else testBit commandCode.toNat rc.enabledCommands enabledCommandsSize

/-- `NextImplementedIndex`. -/
def nextImplementedIndex (rc : RuntimeCommands) (commandIndex : Nat) : Except Fault (Option Nat) :=
  if commandIndex < commandCount then
    if isImplemented commandIndex then do
      if ← checkEnabled rc (ccAttr commandIndex).commandIndex.toUInt32 then return some commandIndex
      else nextImplementedIndex rc (commandIndex + 1)
    else nextImplementedIndex rc (commandIndex + 1)
  else return none
termination_by commandCount - commandIndex

/-- `CC_VEND`. -/
def ccVend : UInt32 := 0x20000000

/-- `GetClosestCommandIndex`. -/
def getClosestCommandIndex (rc : RuntimeCommands) (commandCode : UInt32) : Except Fault (Option Nat) :=
  let searchIndex : UInt16 := commandCode.toUInt16
  if commandCode &&& ~~~ccVend ≠ searchIndex.toUInt32 then return none
  else if commandCode &&& ccVend ≠ 0 then return none
  else if (ccAttr (commandCount - 1)).commandIndex < searchIndex then return none
  else if searchIndex ≤ (ccAttr 0).commandIndex then nextImplementedIndex rc 0
  else nextImplementedIndex rc (searchIndex - (ccAttr 0).commandIndex).toNat

/-- `CommandCodeToCommandIndex`; `none` is `UNIMPLEMENTED_COMMAND_INDEX`. -/
def commandCodeToCommandIndex (rc : RuntimeCommands) (commandCode : UInt32) : Except Fault (Option Nat) := do
  let searchIndex : UInt16 := commandCode.toUInt16
  let vendor : Bool := commandCode &&& ccVend ≠ 0
  if vendor = false then
    let commandIndex := (searchIndex - (ccAttr 0).commandIndex).toNat
    if commandCount ≤ commandIndex ∨ isImplemented commandIndex = false then return none
    else if ← checkEnabled rc commandCode then return some commandIndex
    else return none
  else
    match ← getClosestCommandIndex rc commandCode with
    | none => return none
    | some commandIndex =>
      if (ccAttr commandIndex).commandIndex ≠ searchIndex ∨ (ccAttr commandIndex).v ≠ vendor then return none
      else if ← checkEnabled rc commandCode then return some commandIndex
      else return none

/-- `GetNextCommandIndex`. -/
def getNextCommandIndex (rc : RuntimeCommands) (commandIndex : Nat) : Except Fault (Option Nat) :=
  if commandIndex + 1 < commandCount then do
    if ← checkEnabled rc (ccAttr (commandIndex + 1)).commandIndex.toUInt32 then
      if isImplemented (commandIndex + 1) then return some (commandIndex + 1)
      else getNextCommandIndex rc (commandIndex + 1)
    else getNextCommandIndex rc (commandIndex + 1)
  else return none
termination_by commandCount - commandIndex

/-- `GetCommandCode`. -/
def getCommandCode (commandIndex : Nat) : UInt32 :=
  if (ccAttr commandIndex).v then (ccAttr commandIndex).commandIndex.toUInt32 + ccVend
  else (ccAttr commandIndex).commandIndex.toUInt32

/-- The loop of `CommandCapGetCCList`: `more` and the list, or `none` when `fuel` does not reach its end. -/
def ccListLoop (rc : RuntimeCommands) (count : Nat) :
    Nat → Option Nat → List TpmaCc → Except Fault (Option (Bool × List TpmaCc))
  | _, none, commandList => return some (false, commandList)
  | 0, some _, _ => return none
  | fuel + 1, some commandIndex, commandList => do
    if isImplemented commandIndex && (← checkEnabled rc (ccAttr commandIndex).commandIndex.toUInt32) then
      if commandList.length < count then
        ccListLoop rc count fuel (← getNextCommandIndex rc commandIndex) (commandList ++ [ccAttr commandIndex])
      else return some (true, commandList)
    else ccListLoop rc count fuel (← getNextCommandIndex rc commandIndex) commandList

/-- `CommandCapGetCCList`. -/
def commandCapGetCCList (rc : RuntimeCommands) (commandCode : UInt32) (count : Nat) :
    Except Fault (Option (Bool × List TpmaCc)) := do
  ccListLoop rc count commandCount (← getClosestCommandIndex rc commandCode) []

/-! ## The tables -/

theorem ccAttr_spec : ∀ i < commandCount, (ccAttr i).commandIndex.toNat = 0x11f + i ∧ (ccAttr i).v = false := by
  decide +kernel

theorem code_range : ∀ c ∈ commandTable, 0x11f ≤ c.code ∧ c.code < 0x11f + commandCount := by decide +kernel

/-- What TPM2_GetCapability says of a command is what the dispatcher does, but for the handles of the two commands
that complete a signature sequence. -/
theorem ccAttr_handles : ∀ c ∈ commandTable,
    ((ccAttr (c.code - 0x11f)).cHandles = c.handles.length ↔ c.code ≠ 0x1a3 ∧ c.code ≠ 0x1a4) ∧
      (ccAttr (c.code - 0x11f)).rHandle = c.isHandleInResponse := by
  decide +kernel

theorem isImplemented_iff {i : Nat} : isImplemented i = true ↔ ∃ c ∈ commandTable, c.code = 0x11f + i := by
  unfold isImplemented
  rw [List.any_eq_true]
  constructor
  · rintro ⟨c, hc, hcode⟩
    exact ⟨c, hc, beq_iff_eq.mp hcode⟩
  · rintro ⟨c, hc, hcode⟩
    exact ⟨c, hc, beq_iff_eq.mpr hcode⟩

theorem isImplemented_lt {i : Nat} (h : isImplemented i = true) : i < commandCount := by
  obtain ⟨c, hc, hcode⟩ := isImplemented_iff.mp h
  have hrange := (code_range c hc).2
  omega

theorem commandIndex_toUInt32 {i : Nat} (h : i < commandCount) :
    (ccAttr i).commandIndex.toUInt32.toNat = 0x11f + i := by
  rw [UInt16.toNat_toUInt32]
  exact (ccAttr_spec i h).1

theorem getCommandCode_toNat {i : Nat} (h : i < commandCount) : (getCommandCode i).toNat = 0x11f + i := by
  unfold getCommandCode
  rw [(ccAttr_spec i h).2]
  exact commandIndex_toUInt32 h

/-! ## The check that a command is enabled -/

theorem ccToIdx_lt_iff (commandCode : UInt32) :
    ccToIdx commandCode < 140 ↔ 0x11f ≤ commandCode.toNat ∧ commandCode.toNat ≤ 0x1aa := by
  have hlt := commandCode.toNat_lt
  have hfirst : (0x11f : UInt32).toNat = 0x11f := rfl
  unfold ccToIdx
  rw [UInt32.toNat_sub, hfirst]
  omega

/-- No command code reaches the range assertion of `TestBit`. -/
theorem checkEnabled_eq (rc : RuntimeCommands) (commandCode : UInt32) :
    checkEnabled rc commandCode = .ok (rc.checkEnabled commandCode.toNat) := by
  unfold checkEnabled RuntimeCommands.checkEnabled RuntimeCommands.inTable
  by_cases hin : ccToIdx commandCode < 140
  · have hrange := (ccToIdx_lt_iff commandCode).mp hin
    have hbit : commandCode.toNat >>> 3 < enabledCommandsSize := by
      rw [Nat.shiftRight_eq_div_pow]
      unfold enabledCommandsSize
      omega
    rw [if_neg (Nat.not_le_of_lt hin), decide_eq_true hrange, Bool.true_and]
    unfold testBit
    rw [if_pos hbit]
  · have hrange := mt (ccToIdx_lt_iff commandCode).mpr hin
    rw [if_pos (Nat.le_of_not_lt hin), decide_eq_false hrange, Bool.false_and]

/-- A command that is compiled in and that the profile enables. -/
def runs (rc : RuntimeCommands) (commandIndex : Nat) : Bool :=
  isImplemented commandIndex && rc.checkEnabled (0x11f + commandIndex)

theorem checkEnabled_commandIndex (rc : RuntimeCommands) {i : Nat} (h : i < commandCount) :
    checkEnabled rc (ccAttr i).commandIndex.toUInt32 = .ok (rc.checkEnabled (0x11f + i)) := by
  rw [checkEnabled_eq, commandIndex_toUInt32 h]

/-! ## The searches -/

theorem nextImplementedIndex_eq (rc : RuntimeCommands) (i : Nat) :
    nextImplementedIndex rc i = .ok (firstFrom (runs rc) commandCount i) := by
  induction hn : commandCount - i generalizing i with
  | zero =>
      have hle : commandCount ≤ i := by omega
      rw [nextImplementedIndex, if_neg (Nat.not_lt_of_le hle), firstFrom_of_le hle]
      rfl
  | succ n ih =>
      have hi : i < commandCount := by omega
      have hrest := ih (i + 1) (by omega)
      rw [nextImplementedIndex, if_pos hi]
      cases himpl : isImplemented i with
      | false =>
          have hmiss : runs rc i = false := by rw [runs, himpl, Bool.false_and]
          rw [if_neg Bool.false_ne_true, hrest, firstFrom_miss hi hmiss]
      | true =>
          have hruns : runs rc i = rc.checkEnabled (0x11f + i) := by rw [runs, himpl, Bool.true_and]
          rw [if_pos rfl, checkEnabled_commandIndex rc hi]
          cases henabled : rc.checkEnabled (0x11f + i) with
          | true => rw [firstFrom_hit hi (hruns.trans henabled)]; rfl
          | false => rw [firstFrom_miss hi (hruns.trans henabled), ← hrest]; rfl

theorem getNextCommandIndex_eq (rc : RuntimeCommands) (i : Nat) :
    getNextCommandIndex rc i = .ok (firstFrom (runs rc) commandCount (i + 1)) := by
  induction hn : commandCount - i generalizing i with
  | zero =>
      have hle : commandCount ≤ i + 1 := by omega
      rw [getNextCommandIndex, if_neg (Nat.not_lt_of_le hle), firstFrom_of_le hle]
      rfl
  | succ n ih =>
      have hrest := ih (i + 1) (by omega)
      rw [getNextCommandIndex]
      by_cases hi : i + 1 < commandCount
      · rw [if_pos hi, checkEnabled_commandIndex rc hi]
        cases henabled : rc.checkEnabled (0x11f + (i + 1)) with
        | false =>
            have hmiss : runs rc (i + 1) = false := by rw [runs, henabled, Bool.and_false]
            rw [firstFrom_miss hi hmiss, ← hrest]
            rfl
        | true =>
            have hruns : runs rc (i + 1) = isImplemented (i + 1) := by rw [runs, henabled, Bool.and_true]
            cases himpl : isImplemented (i + 1) with
            | true => rw [firstFrom_hit hi (hruns.trans himpl)]; rfl
            | false => rw [firstFrom_miss hi (hruns.trans himpl), ← hrest]; rfl
      · rw [if_neg hi, firstFrom_of_le (Nat.le_of_not_lt hi)]
        rfl

theorem and_or_and_not (a mask : UInt32) : a &&& mask ||| a &&& ~~~mask = a := by
  apply UInt32.toBitVec_inj.mp
  calc a.toBitVec &&& mask.toBitVec ||| a.toBitVec &&& ~~~mask.toBitVec
      = a.toBitVec &&& (mask.toBitVec ||| ~~~mask.toBitVec) := BitVec.and_or_distrib_left.symm
    _ = a.toBitVec := by rw [BitVec.or_not_self, BitVec.and_allOnes]

/-- What the two first tests of `GetClosestCommandIndex` let through. -/
theorem unextended_iff (commandCode : UInt32) :
    (commandCode &&& ~~~ccVend = commandCode.toUInt16.toUInt32 ∧ commandCode &&& ccVend = 0) ↔
      commandCode.toNat < 2 ^ 16 := by
  have hsplit := and_or_and_not commandCode ccVend
  have hlow : commandCode.toUInt16.toUInt32.toNat = commandCode.toNat % 2 ^ 16 := by
    rw [UInt16.toNat_toUInt32, UInt32.toNat_toUInt16]
  constructor
  · rintro ⟨hcode, hvend⟩
    rw [hcode, hvend, UInt32.zero_or] at hsplit
    rw [← hsplit, hlow]
    exact Nat.mod_lt _ (by decide)
  · intro hlt
    have hbit : commandCode.toNat.testBit 29 = false :=
      Nat.testBit_lt_two_pow (Nat.lt_of_lt_of_le hlt (by decide))
    have hvend : commandCode &&& ccVend = 0 := by
      apply UInt32.toNat_inj.mp
      rw [UInt32.toNat_and]
      show commandCode.toNat &&& 2 ^ 29 = 0
      rw [Nat.and_two_pow, hbit, Bool.toNat_false, Nat.zero_mul]
    refine ⟨?_, hvend⟩
    rw [hvend, UInt32.zero_or] at hsplit
    apply UInt32.toNat_inj.mp
    rw [hsplit, hlow, Nat.mod_eq_of_lt hlt]

theorem ccAttr_first : (ccAttr 0).commandIndex.toNat = 0x11f := rfl

theorem ccAttr_last : (ccAttr (commandCount - 1)).commandIndex.toNat = 0x1aa := rfl

theorem getClosestCommandIndex_eq (rc : RuntimeCommands) (commandCode : UInt32) :
    getClosestCommandIndex rc commandCode = .ok (firstFrom (runs rc) commandCount (commandCode.toNat - 0x11f)) := by
  unfold getClosestCommandIndex
  by_cases hsmall : commandCode.toNat < 2 ^ 16
  · obtain ⟨hcode, hvend⟩ := (unextended_iff commandCode).mpr hsmall
    have hsearch : commandCode.toUInt16.toNat = commandCode.toNat := by
      rw [UInt32.toNat_toUInt16, Nat.mod_eq_of_lt hsmall]
    simp only [hcode, hvend, ne_eq, not_true_eq_false, if_false, UInt16.lt_iff_toNat_lt,
      UInt16.le_iff_toNat_le, ccAttr_first, ccAttr_last, hsearch]
    split
    · rename_i hlast
      rw [firstFrom_of_le (show commandCount ≤ commandCode.toNat - 0x11f by unfold commandCount; omega)]
      rfl
    · split
      · rename_i hfirst
        rw [Nat.sub_eq_zero_of_le hfirst]
        exact nextImplementedIndex_eq rc 0
      · rename_i hfirst
        have hsub : (commandCode.toUInt16 - (ccAttr 0).commandIndex).toNat = commandCode.toNat - 0x11f := by
          rw [UInt16.toNat_sub_of_le, hsearch, ccAttr_first]
          rw [UInt16.le_iff_toNat_le, hsearch, ccAttr_first]
          omega
        rw [hsub]
        exact nextImplementedIndex_eq rc _
  · rw [firstFrom_of_le (show commandCount ≤ commandCode.toNat - 0x11f by unfold commandCount; omega)]
    have hnot := mt (unextended_iff commandCode).mp hsmall
    simp only
    split
    · rfl
    · rename_i hcode
      rw [if_pos fun hvend => hnot ⟨Decidable.not_not.mp hcode, hvend⟩]
      rfl

/-! ## The lookup -/

theorem checkEnabled_range {rc : RuntimeCommands} {code : Nat} (h : rc.checkEnabled code = true) :
    0x11f ≤ code ∧ code ≤ 0x1aa := by
  unfold RuntimeCommands.checkEnabled RuntimeCommands.inTable at h
  exact of_decide_eq_true (Bool.and_eq_true_iff.mp h).1

theorem runs_lt {rc : RuntimeCommands} {i : Nat} (h : runs rc i = true) : i < commandCount :=
  isImplemented_lt (Bool.and_eq_true_iff.mp h).1

theorem commandCodeToCommandIndex_eq (rc : RuntimeCommands) (commandCode : UInt32) :
    commandCodeToCommandIndex rc commandCode =
      .ok (if 0x11f ≤ commandCode.toNat ∧ runs rc (commandCode.toNat - 0x11f) = true
        then some (commandCode.toNat - 0x11f) else none) := by
  unfold commandCodeToCommandIndex
  by_cases hvend : commandCode &&& ccVend = 0
  · simp only [hvend, ne_eq, not_true_eq_false, decide_false, if_true, checkEnabled_eq]
    by_cases hin : 0x11f ≤ commandCode.toNat ∧ commandCode.toNat ≤ 0x1aa
    · have hsearch : commandCode.toUInt16.toNat = commandCode.toNat := by
        rw [UInt32.toNat_toUInt16, Nat.mod_eq_of_lt (by omega)]
      have hsub : (commandCode.toUInt16 - (ccAttr 0).commandIndex).toNat = commandCode.toNat - 0x11f := by
        rw [UInt16.toNat_sub_of_le, hsearch, ccAttr_first]
        rw [UInt16.le_iff_toNat_le, hsearch, ccAttr_first]
        exact hin.1
      have hcount : ¬commandCount ≤ commandCode.toNat - 0x11f := by unfold commandCount; omega
      have hcode : 0x11f + (commandCode.toNat - 0x11f) = commandCode.toNat := by omega
      rw [hsub]
      unfold runs
      rw [hcode]
      cases himpl : isImplemented (commandCode.toNat - 0x11f) with
      | false => simp [pure, Except.pure]
      | true =>
          cases henabled : rc.checkEnabled commandCode.toNat with
          | false => simp [hcount, pure, Except.pure, bind, Except.bind]
          | true => simp [hcount, hin.1, pure, Except.pure, bind, Except.bind]
    · have hdisabled : rc.checkEnabled commandCode.toNat = false := by
        cases henabled : rc.checkEnabled commandCode.toNat with
        | false => rfl
        | true => exact absurd (checkEnabled_range henabled) hin
      have hnone : ¬(0x11f ≤ commandCode.toNat ∧ runs rc (commandCode.toNat - 0x11f) = true) := by
        rintro ⟨hfirst, hruns⟩
        have hlt := runs_lt hruns
        unfold commandCount at hlt
        omega
      rw [if_neg hnone, hdisabled]
      split <;> rfl
  · have hlarge : 2 ^ 16 ≤ commandCode.toNat := by
      by_contra hsmall
      exact hvend ((unextended_iff commandCode).mpr (Nat.lt_of_not_le hsmall)).2
    have hnone : ¬(0x11f ≤ commandCode.toNat ∧ runs rc (commandCode.toNat - 0x11f) = true) := by
      rintro ⟨-, hruns⟩
      have hlt := runs_lt hruns
      unfold commandCount at hlt
      omega
    have hvendor : ¬decide (commandCode &&& ccVend ≠ 0) = false := by
      rw [decide_eq_true hvend]
      exact Bool.noConfusion
    rw [if_neg hnone, if_neg hvendor, getClosestCommandIndex_eq,
      firstFrom_of_le (show commandCount ≤ commandCode.toNat - 0x11f by unfold commandCount; omega)]
    rfl

/-- The index that is returned stands for a command that runs, and every such command has an index. -/
theorem commandCodeToCommandIndex_some {rc : RuntimeCommands} {commandCode : UInt32} {i : Nat} :
    commandCodeToCommandIndex rc commandCode = .ok (some i) ↔
      commandCode.toNat = 0x11f + i ∧ runs rc i = true := by
  rw [commandCodeToCommandIndex_eq]
  constructor
  · intro h
    split at h
    · rename_i hruns
      have hi : commandCode.toNat - 0x11f = i := Option.some.inj (Except.ok.inj h)
      rw [hi] at hruns
      exact ⟨by omega, hruns.2⟩
    · exact absurd (Except.ok.inj h) nofun
  · rintro ⟨hcode, hruns⟩
    have hi : commandCode.toNat - 0x11f = i := by omega
    rw [hi, if_pos ⟨by omega, hruns⟩]

theorem runtimeCommandsCheckEnabled_eq (rc : RuntimeCommands) (code : Nat) :
    runtimeCommandsCheckEnabled rc.enabledCommands code = rc.checkEnabled code := by
  unfold runtimeCommandsCheckEnabled RuntimeCommands.checkEnabled RuntimeCommands.inTable
  rw [← Bool.decide_and]
  congr 1
  apply decide_eq_decide.mpr
  omega

/-- The dispatcher runs a command exactly when its code has an index. -/
theorem commandCodeToCommandIndex_isSome (rc : RuntimeCommands) (commandCode : UInt32) :
    (PqcTpm.commandCodeToCommandIndex rc.enabledCommands commandCode.toNat).isSome = true ↔
      ∃ i, commandCodeToCommandIndex rc commandCode = .ok (some i) := by
  constructor
  · intro h
    obtain ⟨c, hc⟩ := Option.isSome_iff_exists.mp h
    obtain ⟨hmem, hcode⟩ := commandCodeToCommandIndex_eq_some hc
    have henabled : rc.checkEnabled commandCode.toNat = true := by
      unfold PqcTpm.commandCodeToCommandIndex at hc
      split at hc
      · cases hc
      · split at hc
        · cases hc
        · split at hc
          · rename_i henabled
            exact (runtimeCommandsCheckEnabled_eq rc _).symm.trans henabled
          · cases hc
    have hfirst := (code_range c hmem).1
    have hsum : commandCode.toNat = 0x11f + (commandCode.toNat - 0x11f) := by omega
    refine ⟨commandCode.toNat - 0x11f, commandCodeToCommandIndex_some.mpr ⟨hsum, ?_⟩⟩
    rw [runs, ← hsum, henabled, Bool.and_true]
    exact isImplemented_iff.mpr ⟨c, hmem, hcode.trans hsum⟩
  · rintro ⟨i, hi⟩
    obtain ⟨hcode, hruns⟩ := commandCodeToCommandIndex_some.mp hi
    have hlt := runs_lt hruns
    unfold commandCount at hlt
    obtain ⟨himpl, henabled⟩ := Bool.and_eq_true_iff.mp hruns
    obtain ⟨c, hmem, hc⟩ := isImplemented_iff.mp himpl
    have hbit : commandCode.toNat.testBit 29 = false :=
      Nat.testBit_lt_two_pow (Nat.lt_trans (show commandCode.toNat < 2 ^ 16 by omega) (by decide))
    have hfind : (commandTable.find? fun c => c.code == commandCode.toNat % 2 ^ 16).isSome = true := by
      apply List.find?_isSome.mpr
      refine ⟨c, hmem, ?_⟩
      rw [Nat.mod_eq_of_lt (by omega), hcode, hc]
      exact beq_self_eq_true _
    obtain ⟨c', hc'⟩ := Option.isSome_iff_exists.mp hfind
    unfold PqcTpm.commandCodeToCommandIndex
    rw [hbit, if_neg Bool.false_ne_true, hc', runtimeCommandsCheckEnabled_eq, hcode]
    simp only [henabled, if_true, Option.isSome_some]

/-! ## The enumeration -/

/-- The indexes of the commands that run, from a code on. -/
def listFrom (rc : RuntimeCommands) (commandCode : UInt32) : List Nat :=
  allFrom (runs rc) commandCount (commandCode.toNat - 0x11f)

theorem mem_listFrom {rc : RuntimeCommands} {commandCode : UInt32} {i : Nat} :
    i ∈ listFrom rc commandCode ↔
      commandCode ≤ getCommandCode i ∧ commandCodeToCommandIndex rc (getCommandCode i) = .ok (some i) := by
  unfold listFrom
  rw [mem_allFrom, commandCodeToCommandIndex_some, UInt32.le_iff_toNat_le]
  constructor
  · rintro ⟨hle, hlt, hruns⟩
    rw [getCommandCode_toNat hlt]
    exact ⟨by omega, rfl, hruns⟩
  · rintro ⟨hle, hcode, hruns⟩
    exact ⟨by omega, runs_lt hruns, hruns⟩

theorem walk_listFrom (rc : RuntimeCommands) (commandCode : UInt32) :
    ∃ o, getClosestCommandIndex rc commandCode = .ok o ∧
      Walk (getNextCommandIndex rc) o (listFrom rc commandCode) :=
  ⟨_, getClosestCommandIndex_eq rc commandCode, walk_allFrom (fun i _ => getNextCommandIndex_eq rc i) _⟩

/-- The loop takes the attributes of what the walk visits until the list is full. -/
theorem ccListLoop_walk {rc : RuntimeCommands} {o : Option Nat} {l : List Nat}
    (hwalk : Walk (getNextCommandIndex rc) o l) (hruns : ∀ i ∈ l, runs rc i = true) {count fuel : Nat}
    (hfuel : l.length ≤ fuel) {commandList : List TpmaCc} (hlen : commandList.length ≤ count) :
    ccListLoop rc count fuel o commandList =
      .ok (some (decide (count < commandList.length + l.length),
        commandList ++ (l.map ccAttr).take (count - commandList.length))) := by
  induction hwalk generalizing fuel commandList with
  | done =>
      rw [ccListLoop]
      simp [Nat.not_lt_of_le hlen, pure, Except.pure]
  | @visit i o l hnext hrest ih =>
      obtain ⟨n, rfl⟩ : ∃ n, fuel = n + 1 := Nat.exists_eq_add_one.mpr (Nat.lt_of_lt_of_le (Nat.succ_pos _) hfuel)
      have hi := hruns i List.mem_cons_self
      obtain ⟨himpl, henabled⟩ := Bool.and_eq_true_iff.mp hi
      rw [ccListLoop, checkEnabled_commandIndex rc (runs_lt hi), himpl, henabled, hnext]
      by_cases hfull : commandList.length < count
      · have hlen' : (commandList ++ [ccAttr i]).length = commandList.length + 1 := List.length_append
        have hrec := ih (fun j hj => hruns j (List.mem_cons_of_mem _ hj)) (Nat.le_of_succ_le_succ hfuel)
          (show (commandList ++ [ccAttr i]).length ≤ count by omega)
        have htake : count - commandList.length = count - (commandList.length + 1) + 1 := by omega
        have hsum : commandList.length + 1 + l.length = commandList.length + (l.length + 1) := by omega
        rw [hlen', List.append_assoc, List.singleton_append, hsum] at hrec
        rw [htake, List.map_cons, List.take_succ_cons, List.length_cons]
        simpa only [bind, Except.bind, Bool.and_true, if_true, if_pos hfull] using hrec
      · have htake : count - commandList.length = 0 := by omega
        have hmore : count < commandList.length + (i :: l).length := by
          rw [List.length_cons]
          omega
        rw [htake, List.take_zero, List.append_nil, decide_eq_true hmore]
        simp only [bind, Except.bind, Bool.and_true, if_true, if_neg hfull]
        rfl

theorem listFrom_length (rc : RuntimeCommands) (commandCode : UInt32) :
    (listFrom rc commandCode).length ≤ commandCount := by
  unfold listFrom allFrom
  refine Nat.le_trans (List.length_filter_le _ _) ?_
  rw [List.length_range']
  exact Nat.sub_le _ _

theorem commandCapGetCCList_eq (rc : RuntimeCommands) (commandCode : UInt32) (count : Nat) :
    commandCapGetCCList rc commandCode count =
      .ok (some (decide (count < (listFrom rc commandCode).length),
        ((listFrom rc commandCode).map ccAttr).take count)) := by
  obtain ⟨o, hclosest, hwalk⟩ := walk_listFrom rc commandCode
  have hruns : ∀ i ∈ listFrom rc commandCode, runs rc i = true := fun i hi => (mem_allFrom.mp hi).2.2
  have hloop := ccListLoop_walk hwalk hruns (listFrom_length rc commandCode)
    (show ([] : List TpmaCc).length ≤ count from Nat.zero_le _)
  rw [List.length_nil, Nat.zero_add, List.nil_append, Nat.sub_zero] at hloop
  unfold commandCapGetCCList
  rw [hclosest]
  exact hloop

/-- Whatever a profile enables: a 32-bit code has an index exactly when its command is compiled in and enabled, and
`TestBit` never refuses it; the closest index and the ones after it are, in ascending order and once each, the indexes
of the accepted codes from there on; these are the commands that TPM2_GetCapability lists and the ones that are run. -/
theorem lookup_and_enumeration_agree (rc : RuntimeCommands) :
    (∀ cc : UInt32, ∃ o, commandCodeToCommandIndex rc cc = .ok o ∧
      (∀ i, o = some i ↔ isImplemented i = true ∧ getCommandCode i = cc ∧ checkEnabled rc cc = .ok true) ∧
      (o.isSome = (PqcTpm.commandCodeToCommandIndex rc.enabledCommands cc.toNat).isSome)) ∧
    ∀ c : UInt32, ∃ o l, getClosestCommandIndex rc c = .ok o ∧ Walk (getNextCommandIndex rc) o l ∧
      l.Pairwise (· < ·) ∧
      (∀ i, i ∈ l ↔ ∃ cc, c ≤ cc ∧ commandCodeToCommandIndex rc cc = .ok (some i)) ∧
      ∀ count, commandCapGetCCList rc c count =
        .ok (some (decide (count < l.length), (l.map ccAttr).take count)) := by
  constructor
  · intro cc
    refine ⟨_, commandCodeToCommandIndex_eq rc cc, ?_, ?_⟩
    · intro i
      have hsome : (commandCodeToCommandIndex rc cc = .ok (some i)) ↔ _ := commandCodeToCommandIndex_some
      rw [commandCodeToCommandIndex_eq, Except.ok.injEq] at hsome
      rw [hsome, checkEnabled_eq, Except.ok.injEq]
      constructor
      · rintro ⟨hcode, hruns⟩
        obtain ⟨himpl, henabled⟩ := Bool.and_eq_true_iff.mp hruns
        refine ⟨himpl, ?_, hcode ▸ henabled⟩
        apply UInt32.toNat_inj.mp
        rw [getCommandCode_toNat (isImplemented_lt himpl), hcode]
      · rintro ⟨himpl, rfl, henabled⟩
        have hcode := getCommandCode_toNat (isImplemented_lt himpl)
        rw [hcode] at henabled
        exact ⟨hcode, Bool.and_eq_true_iff.mpr ⟨himpl, henabled⟩⟩
    · apply Bool.eq_iff_iff.mpr
      rw [commandCodeToCommandIndex_isSome, Option.isSome_iff_exists]
      simp only [commandCodeToCommandIndex_eq, Except.ok.injEq]
  · intro c
    obtain ⟨o, hclosest, hwalk⟩ := walk_listFrom rc c
    refine ⟨o, _, hclosest, hwalk, allFrom_ascending _ _ _, ?_, commandCapGetCCList_eq rc c⟩
    intro i
    constructor
    · intro hi
      exact ⟨_, mem_listFrom.mp hi⟩
    · rintro ⟨cc, hle, hcc⟩
      obtain ⟨hcode, hruns⟩ := commandCodeToCommandIndex_some.mp hcc
      have hcc' : getCommandCode i = cc := by
        apply UInt32.toNat_inj.mp
        rw [getCommandCode_toNat (runs_lt hruns), hcode]
      rw [← hcc'] at hle hcc
      exact mem_listFrom.mpr ⟨hle, hcc⟩

end CommandCodes
end PqcTpm
