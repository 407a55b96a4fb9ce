import PqcTpm.Lib.BitLoops
import PqcTpm.ProfileSaving

/-!
# Compressed command lists, there and back

The loops of `BackwardsCompatibilityBitArray.c` as they run, over the octets of an array: the search for the
place of a command, and the two conversions one after the other.
-/
namespace PqcTpm
open BitArrays Transition

/-! ## The search -/

/-- A turn of the loop in `FindCCInCompressedListIndexArray`: what it returns, or the bounds it goes on with. -/
def findCCTurn (cc sIndex eIndex : Nat) : Option Nat ⊕ Nat × Nat :=
  let index := (eIndex + sIndex) / 2
  let found := ccToCompressedListIndex.getD index 0
  if cc = found then .inl (some index)
  else if eIndex = sIndex then .inl none
  else if cc < found then .inr (sIndex, index)
  else if sIndex ≠ index then .inr (index, eIndex)
  else .inr (sIndex + 1, eIndex)

/-- The loop ends after finitely many turns, with a position or at its assertion. -/
inductive FindsCC (cc : Nat) : Nat → Nat → Option Nat → Prop
  | stop {sIndex eIndex r} (h : findCCTurn cc sIndex eIndex = .inl r) : FindsCC cc sIndex eIndex r
  | turn {sIndex eIndex s e r} (h : findCCTurn cc sIndex eIndex = .inr (s, e)) (rest : FindsCC cc s e r) :
      FindsCC cc sIndex eIndex r

theorem findCCTurn_shrinks {cc sIndex eIndex s e : Nat} (hle : sIndex ≤ eIndex)
    (h : findCCTurn cc sIndex eIndex = .inr (s, e)) : s ≤ e ∧ e - s < eIndex - sIndex := by
  unfold findCCTurn at h
  dsimp only at h
  split at h
  · cases h
  · split at h
    · cases h
    · split at h
      · cases h
        omega
      · split at h
        · cases h
          omega
        · cases h
          omega

theorem findCCLoop_succ (cc fuel sIndex eIndex : Nat) :
    findCCLoop cc (fuel + 1) sIndex eIndex =
      match findCCTurn cc sIndex eIndex with
      | .inl r => r
      | .inr (s, e) => findCCLoop cc fuel s e := by
  simp only [findCCLoop, findCCTurn]
  split
  · rfl
  · split
    · rfl
    · split
      · rfl
      · split
        · rfl
        · rfl

theorem findCCLoop_findsCC {cc fuel sIndex eIndex : Nat} (hle : sIndex ≤ eIndex) (hfuel : eIndex - sIndex < fuel) :
    FindsCC cc sIndex eIndex (findCCLoop cc fuel sIndex eIndex) := by
  induction fuel generalizing sIndex eIndex with
  | zero => omega
  | succ fuel ih =>
      rw [findCCLoop_succ]
      cases hturn : findCCTurn cc sIndex eIndex with
      | inl r => exact .stop hturn
      | inr bounds =>
          obtain ⟨hle', hlt⟩ := findCCTurn_shrinks hle hturn
          exact .turn hturn (ih hle' (by omega))

theorem FindsCC.unique {cc sIndex eIndex : Nat} {r r' : Option Nat} (h : FindsCC cc sIndex eIndex r)
    (h' : FindsCC cc sIndex eIndex r') : r = r' := by
  induction h with
  | stop hturn =>
      cases h' with
      | stop hturn' => exact Sum.inl.inj (hturn.symm.trans hturn')
      | turn hturn' _ => cases hturn.symm.trans hturn'
  | turn hturn _ ih =>
      cases h' with
      | stop hturn' => cases hturn.symm.trans hturn'
      | turn hturn' rest =>
          obtain ⟨rfl, rfl⟩ := Prod.mk.inj (Sum.inr.inj (hturn.symm.trans hturn'))
          exact ih rest

/-- The search for the place of any code ends, with the position that has the code. -/
theorem findsCC_iff (cc : Nat) (r : Option Nat) :
    FindsCC cc 0 109 r ↔ ∀ index, r = some index ↔ ccToCompressedListIndex[index]? = some cc := by
  have hends : FindsCC cc 0 109 (findCCLoop cc 110 0 109) := findCCLoop_findsCC (Nat.zero_le _) (by decide)
  have hplace : ∀ index, findCCLoop cc 110 0 109 = some index ↔ ccToCompressedListIndex[index]? = some cc := by
    intro index
    by_cases hcc : cc = 0
    · subst hcc
      have hnone : findCCLoop 0 110 0 109 = none := by decide
      have hnot : 0 ∉ ccToCompressedListIndex := by decide
      rw [hnone]
      exact iff_of_false (Option.some_ne_none index).symm fun h => hnot (List.mem_of_getElem? h)
    · rw [← findCC_ok_iff hcc, findCCInCompressedListIndexArray]
      cases findCCLoop cc 110 0 109 with
      | none =>
          refine iff_of_false (Option.some_ne_none index).symm fun h => ?_
          cases h
      | some i => rw [Option.some.injEq, Except.ok.injEq]
  constructor
  · intro h index
    rw [h.unique hends]
    exact hplace index
  · intro h
    have heq : r = findCCLoop cc 110 0 109 := by
      ext index
      exact (h index).trans (hplace index).symm
    rw [heq]
    exact hends

/-! ## The conversions -/

/-- `ConvertToCompressedBitArray`, loop by loop. -/
def convertToCompressedLoops {size : Nat} (input : BitArray size) (outLen : Nat) : Except Fault (BitArray outLen) :=
  bitsLoop (fun out idx => do
    let bit ← findCCInCompressedListIndexArray (idx + firstCommandCode)
    setBit bit out) (8 * size) input.bytes 0 (BitArray.zero outLen)

/-- `ConvertFromCompressedBitArray`. The loops end behind the last command of the table. -/
def convertFromCompressedBitArray {size : Nat} (input : BitArray size) (outLen : Nat) : Except Fault (BitArray outLen) :=
  bitsLoop (fun out bit => setBit (ccToCompressedListIndex.getD bit 0 - firstCommandCode) out)
    (Nat.min (8 * size) 110) input.bytes 0 (BitArray.zero outLen)

theorem convertToCompressedLoops_eq {size : Nat} (input : BitArray size) (outLen : Nat) :
    convertToCompressedLoops input outLen = convertToCompressedBitArray input outLen := by
  have hall : ∀ idx ∈ input.bits, decide (idx < 8 * size) = true := by
    intro idx hidx
    exact decide_eq_true (List.mem_range.mp (List.mem_filter.mp hidx).1)
  rw [convertToCompressedLoops, bitsLoop_bits, List.filter_eq_self.mpr hall, convertToCompressedBitArray]

/-- The place that `ConvertFromCompressedBitArray` gives to a bit. -/
def commandPlace (bit : Nat) : Except Fault Nat := .ok (ccToCompressedListIndex.getD bit 0 - firstCommandCode)

/-- The place that `ConvertToCompressedBitArray` gives to a bit. -/
def compressedPlace (idx : Nat) : Except Fault Nat := findCCInCompressedListIndexArray (idx + firstCommandCode)

section
variable {size : Nat} (place : Nat → Except Fault Nat) {ts : List Nat} {out out' : BitArray size}

/-- A bit is set at the place of every item. -/
def setPlace (place : Nat → Except Fault Nat) (out : BitArray size) (i : Nat) : Except Fault (BitArray size) := do
  let p ← place i
  setBit p out

theorem setPlace_ok_iff (out : BitArray size) (i : Nat) :
    (∃ out', setPlace place out i = .ok out') ↔ ∃ p, place i = .ok p ∧ p / 8 < size := by
  constructor
  · rintro ⟨out', h⟩
    obtain ⟨p, hp, hset⟩ := bind_eq_ok h
    exact ⟨p, hp, setBit_ok_iff.mp ⟨out', hset⟩⟩
  · rintro ⟨p, hp, hlt⟩
    obtain ⟨out', hset⟩ := setBit_ok_iff (a := out).mpr hlt
    refine ⟨out', ?_⟩
    rw [setPlace, hp]
    exact hset

/-- The bits of the result are the places of the items, beside those that were set before. -/
theorem foldlM_setPlace_get (h : ts.foldlM (setPlace place) out = .ok out') (m : Nat) :
    out'.get m = true ↔ out.get m = true ∨ ∃ i ∈ ts, place i = .ok m := by
  induction ts generalizing out with
  | nil =>
      obtain rfl : out = out' := Except.ok.inj h
      exact (or_iff_left (fun ⟨_, hi, _⟩ => absurd hi List.not_mem_nil)).symm
  | cons i ts ih =>
      rw [List.foldlM_cons] at h
      obtain ⟨next, hnext, hrest⟩ := bind_eq_ok h
      obtain ⟨p, hp, hset⟩ := bind_eq_ok hnext
      rw [ih hrest, BitArray.get_set? (setBit_ok hset), Bool.or_eq_true, decide_eq_true_eq, or_assoc]
      constructor
      · rintro (hout | rfl | ⟨j, hj, hplace⟩)
        · exact .inl hout
        · exact .inr ⟨i, List.mem_cons_self, hp⟩
        · exact .inr ⟨j, List.mem_cons_of_mem i hj, hplace⟩
      · rintro (hout | ⟨j, hj, hplace⟩)
        · exact .inl hout
        · rcases List.mem_cons.mp hj with rfl | hj
          · exact .inr (.inl (Except.ok.inj (hplace.symm.trans hp)))
          · exact .inr (.inr ⟨j, hj, hplace⟩)

end

theorem table_bounds {cc : Nat} (h : cc ∈ ccToCompressedListIndex) : firstCommandCode ≤ cc ∧ cc < firstCommandCode + 128 := by
  have hall : ∀ cc ∈ ccToCompressedListIndex, firstCommandCode ≤ cc ∧ cc < firstCommandCode + 128 := by decide
  exact hall cc h

theorem table_inj {i j cc : Nat} (hi : ccToCompressedListIndex[i]? = some cc) (hj : ccToCompressedListIndex[j]? = some cc) :
    i = j := by
  have hnodup : ccToCompressedListIndex.Nodup := by decide
  obtain ⟨hlt, _⟩ := List.getElem?_eq_some_iff.mp hi
  exact (List.getElem?_inj hlt hnodup).mp (hi.trans hj.symm)

theorem table_getElem? {bit : Nat} (h : bit < 110) :
    ∃ idx, ccToCompressedListIndex[bit]? = some (idx + firstCommandCode) ∧ idx < 128 ∧
      ccToCompressedListIndex.getD bit 0 - firstCommandCode = idx := by
  have hget : ccToCompressedListIndex[bit]? = some (ccToCompressedListIndex.getD bit 0) := by
    rw [List.getD_eq_getElem?_getD, List.getElem?_eq_getElem (show bit < ccToCompressedListIndex.length from h),
      Option.getD_some]
  have hbounds := table_bounds (List.mem_of_getElem? hget)
  refine ⟨ccToCompressedListIndex.getD bit 0 - firstCommandCode, ?_, by omega, rfl⟩
  rw [hget, Nat.sub_add_cancel hbounds.1]

section
variable {size outLen : Nat} {input : BitArray size}

theorem convertToCompressed_get {out : BitArray outLen} (h : convertToCompressedLoops input outLen = .ok out) (m : Nat) :
    out.get m = true ↔ ∃ idx, input.get idx = true ∧ ccToCompressedListIndex[m]? = some (idx + firstCommandCode) := by
  rw [convertToCompressedLoops_eq] at h
  have hget := foldlM_setPlace_get compressedPlace h m
  rw [hget, BitArray.get_zero, or_iff_right Bool.false_ne_true]
  constructor
  · rintro ⟨idx, hidx, hplace⟩
    exact ⟨idx, BitArray.mem_bits.mp hidx, (findCC_ok_iff (by unfold firstCommandCode; omega)).mp hplace⟩
  · rintro ⟨idx, hidx, hplace⟩
    exact ⟨idx, BitArray.mem_bits.mpr hidx, (findCC_ok_iff (by unfold firstCommandCode; omega)).mpr hplace⟩

theorem mem_compressed_bits {bit : Nat} :
    bit ∈ input.bits.filter (fun n => decide (n < Nat.min (8 * size) 110)) ↔ input.get bit = true ∧ bit < 110 := by
  rw [List.mem_filter, decide_eq_true_eq, BitArray.mem_bits]
  constructor
  · rintro ⟨hbit, hlt⟩
    exact ⟨hbit, Nat.lt_of_lt_of_le hlt (Nat.min_le_right _ _)⟩
  · rintro ⟨hbit, hlt⟩
    have hsize := List.mem_range.mp (List.mem_filter.mp (BitArray.mem_bits.mpr hbit)).1
    exact ⟨hbit, Nat.lt_min.mpr ⟨hsize, hlt⟩⟩

theorem convertFromCompressed_ok (hroom : 16 ≤ outLen) :
    ∃ out, convertFromCompressedBitArray input outLen = .ok out := by
  rw [convertFromCompressedBitArray, bitsLoop_bits]
  refine (foldlM_ok_iff (setPlace_ok_iff commandPlace)).mpr ?_
  intro bit hbit
  obtain ⟨idx, _, hlt, hidx⟩ := table_getElem? (mem_compressed_bits.mp hbit).2
  exact ⟨idx, congrArg Except.ok hidx, by omega⟩

theorem convertFromCompressed_get {out : BitArray outLen} (h : convertFromCompressedBitArray input outLen = .ok out)
    (m : Nat) :
    out.get m = true ↔ ∃ bit, input.get bit = true ∧ ccToCompressedListIndex[bit]? = some (m + firstCommandCode) := by
  rw [convertFromCompressedBitArray, bitsLoop_bits] at h
  have hget := foldlM_setPlace_get commandPlace h m
  rw [hget, BitArray.get_zero, or_iff_right Bool.false_ne_true]
  constructor
  · rintro ⟨bit, hbit, hplace⟩
    obtain ⟨hset, hlt⟩ := mem_compressed_bits.mp hbit
    obtain ⟨idx, hidx, _, heq⟩ := table_getElem? hlt
    obtain rfl : idx = m := heq.symm.trans (Except.ok.inj hplace)
    exact ⟨bit, hset, hidx⟩
  · rintro ⟨bit, hset, hidx⟩
    have hlt : bit < 110 := (List.getElem?_eq_some_iff.mp hidx).1
    obtain ⟨idx, hidx', _, heq⟩ := table_getElem? hlt
    have hm : idx = m := Nat.add_right_cancel (Option.some.inj (hidx'.symm.trans hidx))
    exact ⟨bit, mem_compressed_bits.mpr ⟨hset, hlt⟩, congrArg Except.ok (heq.trans hm)⟩

theorem convertFrom_convertTo {out : BitArray outLen} (hsize : 16 ≤ size)
    (h : convertToCompressedLoops input outLen = .ok out) : convertFromCompressedBitArray out size = .ok input := by
  obtain ⟨back, hback⟩ : ∃ back, convertFromCompressedBitArray out size = .ok back :=
    convertFromCompressed_ok hsize
  have heq : back = input := by
    apply BitArray.ext_get
    intro m
    rw [Bool.eq_iff_iff, convertFromCompressed_get hback]
    constructor
    · rintro ⟨bit, hbit, hm⟩
      obtain ⟨idx, hidx, hplace⟩ := (convertToCompressed_get h bit).mp hbit
      have hsame := Nat.add_right_cancel (Option.some.inj (hplace.symm.trans hm))
      rwa [← hsame]
    · intro hm
      obtain ⟨bit, hplace, _⟩ := (convertToCompressed_ok_iff input outLen).mp
        ⟨out, (convertToCompressedLoops_eq input outLen).symm.trans h⟩ m hm
      exact ⟨bit, (convertToCompressed_get h bit).mpr ⟨m, hm, hplace⟩, hplace⟩
  rw [hback, heq]

/-- The other way round, nothing gets lost for arrays without bits behind the table. -/
theorem convertTo_convertFrom (hbits : ∀ bit, input.get bit = true → bit < 110) {out : BitArray outLen}
    (h : convertFromCompressedBitArray input outLen = .ok out) : convertToCompressedLoops out size = .ok input := by
  have hgoes : ∃ back, convertToCompressedLoops out size = .ok back := by
    rw [convertToCompressedLoops_eq, convertToCompressed_ok_iff]
    intro idx hidx
    obtain ⟨bit, hbit, hplace⟩ := (convertFromCompressed_get h idx).mp hidx
    refine ⟨bit, hplace, ?_⟩
    by_contra hlt
    rw [BitArray.get_eq_false hlt] at hbit
    cases hbit
  obtain ⟨back, hback⟩ := hgoes
  have heq : back = input := by
    apply BitArray.ext_get
    intro m
    rw [Bool.eq_iff_iff, convertToCompressed_get hback]
    constructor
    · rintro ⟨idx, hidx, hplace⟩
      obtain ⟨bit, hbit, hplace'⟩ := (convertFromCompressed_get h idx).mp hidx
      rwa [table_inj hplace hplace']
    · intro hm
      obtain ⟨idx, hplace, _, _⟩ := table_getElem? (hbits m hm)
      exact ⟨idx, (convertFromCompressed_get h idx).mpr ⟨m, hm, hplace⟩, hplace⟩
  rw [hback, heq]

end

/-- The number of octets of the physical presence list and of the audit list. -/
def commandListOctets : Nat := 18

/-- A list of commands of the table comes back exactly where the shortened list has a place for each of them; a
shortened list always comes back, and every search ends with the place of the command. -/
theorem compressedLists_iff (outLen : Nat) (a : BitArray commandListOctets)
    (hcommands : ∀ idx, a.get idx = true → idx + firstCommandCode ∈ ccToCompressedListIndex) :
    ((∃ c, convertToCompressedLoops a outLen = .ok c ∧ convertFromCompressedBitArray c commandListOctets = .ok a) ↔
        ∀ idx place, a.get idx = true → ccToCompressedListIndex[place]? = some (idx + firstCommandCode) →
          place / 8 < outLen) ∧
      (∀ (len : Nat) (c : BitArray len), (∀ bit, c.get bit = true → bit < 110) →
        ∃ b : BitArray commandListOctets, convertFromCompressedBitArray c commandListOctets = .ok b ∧
          convertToCompressedLoops b len = .ok c) ∧
      ∀ cc, ∃ r, FindsCC cc 0 109 r ∧ ∀ index, r = some index ↔ ccToCompressedListIndex[index]? = some cc := by
  refine ⟨⟨?_, ?_⟩, ?_, ?_⟩
  · rintro ⟨c, hc, _⟩ idx place hidx hplace
    obtain ⟨place', hplace', hlt⟩ := (convertToCompressed_ok_iff a outLen).mp
      ⟨c, (convertToCompressedLoops_eq a outLen).symm.trans hc⟩ idx hidx
    rwa [table_inj hplace hplace']
  · intro hplaces
    obtain ⟨c, hc⟩ := (convertToCompressed_ok_iff a outLen).mpr fun idx hidx => by
      obtain ⟨place, hplace⟩ := List.getElem?_of_mem (hcommands idx hidx)
      exact ⟨place, hplace, hplaces idx place hidx hplace⟩
    have hloops := (convertToCompressedLoops_eq a outLen).trans hc
    exact ⟨c, hloops, convertFrom_convertTo (by decide) hloops⟩
  · intro len c hbits
    obtain ⟨b, hb⟩ : ∃ b, convertFromCompressedBitArray c commandListOctets = .ok b :=
      convertFromCompressed_ok (by decide)
    exact ⟨b, hb, convertTo_convertFrom hbits hb⟩
  · intro cc
    have hends : FindsCC cc 0 109 (findCCLoop cc 110 0 109) := findCCLoop_findsCC (Nat.zero_le _) (by decide)
    exact ⟨_, hends, (findsCC_iff cc _).mp hends⟩

/-- A list with one command. -/
def singleCommand (cc : Nat) : BitArray commandListOctets :=
  (BitArray.zero commandListOctets).modify (· ||| BitArray.mask (cc - firstCommandCode)) (cc - firstCommandCode)

theorem singleCommand_get {cc : Nat} (h : (cc - firstCommandCode) / 8 < commandListOctets) (idx : Nat) :
    (singleCommand cc).get idx = true ↔ idx = cc - firstCommandCode := by
  have hset : (BitArray.zero commandListOctets).set? (cc - firstCommandCode) = some (singleCommand cc) := if_pos h
  rw [BitArray.get_set? hset, BitArray.get_zero, Bool.false_or, decide_eq_true_eq]

/-- `TPM2_CertifyX509` is the last command of the table, and v0.9 had fourteen octets. -/
theorem certifyX509_comes_back :
    ∃ c, convertToCompressedLoops (singleCommand 0x197) 14 = .ok c ∧
      convertFromCompressedBitArray c commandListOctets = .ok (singleCommand 0x197) := by
  have hget := @singleCommand_get 0x197 (by decide)
  refine (compressedLists_iff 14 (singleCommand 0x197) ?_).1.mpr ?_
  · intro idx hidx
    rw [(hget idx).mp hidx]
    decide
  · intro idx place _ hplace
    have hlt : place < 110 := (List.getElem?_eq_some_iff.mp hplace).1
    omega

/-- The commands that cannot be disabled, `TPM2_SetCommandCodeAuditStatus` and `TPM2_CertifyX509`. -/
def certifyingProfile : CString :=
  "\x7b\"Name\":\"custom\",\"StateFormatLevel\":2,\"Commands\":\"".toList ++ commaSeparated
    ["0x120", "0x129", "0x12b", "0x131", "0x13c", "0x140", "0x143-0x145", "0x148", "0x14e", "0x153", "0x156-0x158",
     "0x15c", "0x165", "0x169", "0x173", "0x176", "0x17a", "0x17c-0x17e", "0x182", "0x185-0x186", "0x197"] ++
  "\"\x7d".toList

/-- The audit of `TPM2_CertifyX509` is switched on. -/
def certifyingAudit : List CommandLists.ListCommand := [.setCommandCodeAuditStatus TpmAlg.null [0x197] []]

/-- `TPM2_SetCommandCodeAuditStatus`, which is always audited, and `TPM2_CertifyX509`. -/
def certifyingList : CommandList := ⟨[0, 0, 0, 0, 2, 0, 0, 0, 0, 0, 0, 0, 0, 0, 0, 1, 0, 0], rfl⟩

/-- Where a profile enables the two commands, the list is reached. -/
theorem certifyingList_reached {enabled : Nat → Bool}
    (haudit : (commandCodeToCommandIndex enabled 0x140).map CommandLists.commandIndex = some 33)
    (hcertify : (commandCodeToCommandIndex enabled 0x197).map CommandLists.commandIndex = some 120) :
    ∃ s, CommandLists.Reached enabled s ∧ s.auditCommands = certifyingList := by
  obtain ⟨c, hc, hindex⟩ := Option.map_eq_some_iff.mp haudit
  obtain ⟨c', hc', hindex'⟩ := Option.map_eq_some_iff.mp hcertify
  have hfirst : CommandLists.commandAuditSet enabled (BitArray.zero 18) 0x140 =
      .ok ⟨[0, 0, 0, 0, 2, 0, 0, 0, 0, 0, 0, 0, 0, 0, 0, 0, 0, 0], rfl⟩ := by
    unfold CommandLists.commandAuditSet
    simp only [hc, hindex]
    rfl
  have hsecond : CommandLists.commandAuditSet enabled
      ⟨[0, 0, 0, 0, 2, 0, 0, 0, 0, 0, 0, 0, 0, 0, 0, 0, 0, 0], rfl⟩ 0x197 = .ok certifyingList := by
    unfold CommandLists.commandAuditSet
    simp only [hc', hindex']
    rfl
  obtain ⟨s₀, hs₀⟩ := CommandLists.preInstallInit_ok enabled
  refine ⟨run (CommandLists.step enabled) s₀ certifyingAudit, ⟨s₀, certifyingAudit, hs₀, rfl⟩, ?_⟩
  obtain ⟨ppList, -, hs₀⟩ := bind_eq_ok hs₀
  rw [hfirst] at hs₀
  obtain rfl := Except.ok.inj hs₀
  have hself : (commandCodeToCommandIndex enabled
      (CommandLists.ListCommand.setCommandCodeAuditStatus TpmAlg.null [0x197] []).code).isNone = false := by
    show (commandCodeToCommandIndex enabled 0x140).isNone = false
    rw [hc]
    rfl
  simp only [certifyingAudit, run, List.foldl_cons, List.foldl_nil, CommandLists.step, CommandLists.perform, hself,
    Bool.false_eq_true, if_false, CommandLists.setCommandCodeAuditStatus, ne_eq, not_true_eq_false, false_and,
    List.foldlM_cons, List.foldlM_nil, hsecond]
  rfl

/-- The profile is accepted, and its commands put `TPM2_CertifyX509` on the audit list; but the list is shortened by
the number of commands, and the command is far behind in the table. -/
theorem certifyingProfile_aborts :
    ∃ rp s, RuntimeProfileState.zero.init.set (some certifyingProfile) true = (rp, none) ∧ rp.stateFormatLevel = 2 ∧
      CommandLists.Reached rp.runtimeCommands.enabledCommands s ∧ s.auditCommands = certifyingList ∧
      convertToCompressedLoops s.auditCommands ((rp.runtimeCommands.countEnabled + 1 + 7) / 8) =
        .error .failureMode := by
  have hset : (RuntimeProfileState.zero.init.set (some certifyingProfile) true).2 = none ∧
      (RuntimeProfileState.zero.init.set (some certifyingProfile) true).1.stateFormatLevel = 2 ∧
      (RuntimeProfileState.zero.init.set (some certifyingProfile) true).1.runtimeCommands.countEnabled = 28 ∧
      (commandCodeToCommandIndex (RuntimeProfileState.zero.init.set (some certifyingProfile)
        true).1.runtimeCommands.enabledCommands 0x140).map CommandLists.commandIndex = some 33 ∧
      (commandCodeToCommandIndex (RuntimeProfileState.zero.init.set (some certifyingProfile)
        true).1.runtimeCommands.enabledCommands 0x197).map CommandLists.commandIndex = some 120 := by
    decide +kernel
  have hshort : convertToCompressedLoops certifyingList 4 = .error .failureMode := by decide +kernel
  generalize RuntimeProfileState.zero.init.set (some certifyingProfile) true = r at hset ⊢
  obtain ⟨rp, e⟩ := r
  obtain ⟨rfl, hlevel, hcount, haudit, hcertify⟩ := hset
  obtain ⟨s, hreached, hlist⟩ := certifyingList_reached haudit hcertify
  refine ⟨rp, s, rfl, hlevel, hreached, hlist, ?_⟩
  rw [hlist, hcount]
  exact hshort

end PqcTpm
