import PqcTpm.CompressedLists
import PqcTpm.NvFlush
import PqcTpm.ProfileTest
import PqcTpm.Slots
import PqcTpm.UserNvram

/-!
# Saving the state under a profile

The writers of the persistent and the volatile state assert that the profile and its
`stateFormatLevel` fit together, and below level 3 that the physical presence list and the
audit list fit into the arrays that v0.9 had for them.
-/
namespace PqcTpm
open ByteCodec BitArrays Transition LevelScan TextFields

/-! ## The lists -/

/-- `ppList` and `auditCommands` of `PERSISTENT_DATA`: a bit for each command index. -/
abbrev CommandList := BitArray 18

structure CommandLists where
  ppList : CommandList
  auditCommands : CommandList
  auditHashAlg : Nat
  deriving DecidableEq

namespace CommandLists

def commandIndex (c : CommandRow) : Nat := c.code - firstCommandCode

/-- `PhysicalPresencePreInstall_Init`. -/
def physicalPresencePreInstallInit : Except Fault CommandList :=
  (commandTable.filter (·.attributes.contains .ppRequired)).foldlM
    (fun ppList c => setBit (commandIndex c) ppList) (BitArray.zero 18)

/-- `PhysicalPresenceCommandSet`. -/
def physicalPresenceCommandSet (enabled : Nat → Bool) (ppList : CommandList) (commandCode : Nat) :
    Except Fault CommandList :=
  match commandCodeToCommandIndex enabled commandCode with
  | none => .ok ppList
  | some c => if c.attributes.contains .ppCommand then setBit (commandIndex c) ppList else .ok ppList

/-- `PhysicalPresenceCommandClear`. -/
def physicalPresenceCommandClear (enabled : Nat → Bool) (ppList : CommandList) (commandCode : Nat) :
    Except Fault CommandList :=
  match commandCodeToCommandIndex enabled commandCode with
  | none => .ok ppList
  | some c => if c.attributes.contains .ppRequired then .ok ppList else clearBit (commandIndex c) ppList

/-- `CommandAuditSet`: TPM2_Shutdown is never audited. -/
def commandAuditSet (enabled : Nat → Bool) (auditCommands : CommandList) (commandCode : Nat) :
    Except Fault CommandList :=
  match commandCodeToCommandIndex enabled commandCode with
  | none => .ok auditCommands
  | some c =>
    if commandCode = 0x145 then .ok auditCommands
    else if auditCommands.get (commandIndex c) then .ok auditCommands
    else setBit (commandIndex c) auditCommands

/-- `CommandAuditClear`: TPM2_SetCommandCodeAuditStatus is always audited. -/
def commandAuditClear (enabled : Nat → Bool) (auditCommands : CommandList) (commandCode : Nat) :
    Except Fault CommandList :=
  match commandCodeToCommandIndex enabled commandCode with
  | none => .ok auditCommands
  | some c =>
    if commandCode = 0x140 then .ok auditCommands
    else if auditCommands.get (commandIndex c) then clearBit (commandIndex c) auditCommands
    else .ok auditCommands

/-- `PhysicalPresencePreInstall_Init` and `CommandAuditPreInstall_Init`, when the TPM is manufactured. -/
def preInstallInit (enabled : Nat → Bool) : Except Fault CommandLists := do
  let ppList ← physicalPresencePreInstallInit
  let auditCommands ← commandAuditSet enabled (BitArray.zero 18) 0x140
  pure { ppList, auditCommands, auditHashAlg := TpmAlg.sha512 }

/-- `TPM2_PP_Commands`. -/
def ppCommands (enabled : Nat → Bool) (setList clearList : List Nat) (s : CommandLists) :
    Except Fault CommandLists := do
  let ppList ← setList.foldlM (physicalPresenceCommandSet enabled) s.ppList
  let ppList ← clearList.foldlM (physicalPresenceCommandClear enabled) ppList
  pure { s with ppList }

/-- `TPM2_SetCommandCodeAuditStatus`. -/
def setCommandCodeAuditStatus (enabled : Nat → Bool) (auditAlg : Nat) (setList clearList : List Nat)
    (s : CommandLists) : Except Fault CommandLists :=
  if auditAlg ≠ TpmAlg.null ∧ auditAlg ≠ s.auditHashAlg then
    if setList ≠ [] ∨ clearList ≠ [] then .error (.at .value 0x140)
    else .ok { s with auditHashAlg := auditAlg }
  else do
    let auditCommands ← setList.foldlM (commandAuditSet enabled) s.auditCommands
    let auditCommands ← clearList.foldlM (commandAuditClear enabled) auditCommands
    pure { s with auditCommands }

/-- The commands that change the lists. -/
inductive ListCommand
  | ppCommands (setList clearList : List Nat)
  | setCommandCodeAuditStatus (auditAlg : Nat) (setList clearList : List Nat)

def ListCommand.code : ListCommand → Nat
  | .ppCommands _ _ => 0x12d
  | .setCommandCodeAuditStatus _ _ _ => 0x140

/-- A command of a profile; one that is not enabled ends with `TPM_RC_COMMAND_CODE`. -/
def perform (enabled : Nat → Bool) (s : CommandLists) (c : ListCommand) : Except Fault CommandLists :=
  if (commandCodeToCommandIndex enabled c.code).isNone then .error (.of .commandCode)
  else match c with
    | .ppCommands setList clearList => ppCommands enabled setList clearList s
    | .setCommandCodeAuditStatus auditAlg setList clearList =>
      setCommandCodeAuditStatus enabled auditAlg setList clearList s

/-- The lists after a command; a command that fails leaves them. -/
def step (enabled : Nat → Bool) (s : CommandLists) (c : ListCommand) : CommandLists :=
  match perform enabled s c with
  | .ok s' => s'
  | .error _ => s

/-- The lists that a run of commands on a manufactured TPM comes to. -/
def Reached (enabled : Nat → Bool) (s : CommandLists) : Prop :=
  ∃ s₀ commands, preInstallInit enabled = .ok s₀ ∧ s = run (step enabled) s₀ commands

end CommandLists

/-! ## The writers -/

/-- What is saved beside the profile. The fields that neither the profile nor its level has a say in
stand for the octets that their writers produce. -/
structure SavedState (σ : Type) where
  lists : CommandLists
  paCompileConstants : Bytes
  /-- `PERSISTENT_DATA` up to `pcrAllocated`. -/
  persistentHead : Bytes
  /-- `failedTries` to `orderlyState`. -/
  persistentMiddle : Bytes
  /-- `auditHashAlg` to the end. -/
  persistentTail : Bytes
  orderlyData : Bytes
  /-- `STATE_RESET_DATA` and `STATE_CLEAR_DATA`, which are written in the SU_STATE only. -/
  suState : Option Bytes
  indexOrderlyRam : Bytes
  /-- The entries of the user NVRAM, with their sizes: an index, or a persistent object. -/
  userNvram : List (Nat × (Bytes ⊕ (TpmHandle × Object)))
  maxCount : Nat
  /-- `VOLATILE_STATE` up to `s_objects`. -/
  volatileHead : Bytes
  slots : SlotIndex → Slot σ
  volatileTail : Bytes

section
variable {σ : Type} (hs : HashStateCodec σ)

/-- `String_Marshal` of a string; the length is cut to 16 bits. -/
def stringMarshal (source : CString) : Bytes :=
  be 2 (source.length + 1) ++
    (source.map (fun c : Char => UInt8.ofNat c.toNat) ++ [0]).take ((source.length + 1) % 2 ^ 16)

/-- An array of bits behind its size. -/
def bitArrayMarshal {size : Nat} (a : BitArray size) : Bytes := be 2 size ++ a.bytes

/-- `PERSISTENT_DATA_PPList_Marshal`. -/
def ppListMarshal (blobVersion commandCount : Nat) (ppList : CommandList) : Except Fault Bytes :=
  if blobVersion ≤ 4 then
    if 110 < commandCount then .error .failureMode
    else bitArrayMarshal <$> convertToCompressedBitArray ppList ((commandCount + 7) / 8)
  else .ok (bitArrayMarshal ppList)

/-- `PERSISTENT_DATA_AuditCommands_Marshal`. -/
def auditCommandsMarshal (blobVersion commandCount : Nat) (auditCommands : CommandList) : Except Fault Bytes :=
  if blobVersion ≤ 4 then
    if 110 < commandCount then .error .failureMode
    else bitArrayMarshal <$> convertToCompressedBitArray auditCommands ((commandCount + 1 + 7) / 8)
  else .ok (bitArrayMarshal auditCommands)

/-- `PERSISTENT_DATA_Marshal`. -/
def persistentDataMarshal (rp : RuntimeProfileState) (s : SavedState σ) : Except Fault Bytes := do
  if rp.stateFormatLevel = 0 then .error .failureMode
  let blobVersion := if rp.stateFormatLevel ≤ 2 then 4 else 5
  let ppList ← ppListMarshal blobVersion rp.runtimeCommands.countEnabled s.lists.ppList
  let auditCommands ← auditCommandsMarshal blobVersion rp.runtimeCommands.countEnabled s.lists.auditCommands
  pure (nvHeaderMarshal blobVersion 0x12213443 blobVersion ++ (s.persistentHead ++ (ppList ++
    (s.persistentMiddle ++ (auditCommands ++ (be 2 s.lists.auditHashAlg ++ s.persistentTail))))))

/-- `ANY_OBJECT_Marshal`; `OBJECT_Marshal` asserts that there is a level. -/
def anyObjectMarshal (level : Nat) : AnyObject σ → Except Fault Bytes
  | .object o => if level = 0 then .error .failureMode else .ok (AnyObject.marshal hs level (.object o))
  | x => .ok (x.marshal hs level)

/-- An entry in `USER_NVRAM_Marshal`. -/
def userEntryMarshal (level : Nat) : Nat × (Bytes ⊕ (TpmHandle × Object)) → Except Fault Bytes
  | (entrysize, .inl index) => .ok (be 4 entrysize ++ index)
  | (entrysize, .inr (handle, o)) =>
      (fun object => be 4 entrysize ++ (writeUint32 handle ++ object)) <$> anyObjectMarshal hs level (.object o)

/-- `USER_NVRAM_Marshal`. -/
def userAreaMarshal (level : Nat) (s : SavedState σ) : Except Fault Bytes := do
  let entries ← s.userNvram.mapM (userEntryMarshal hs level)
  pure (nvHeaderMarshal 2 0x094F22C3 1 ++ (be 8 nvUserSize ++ (entries.flatten ++ (be 4 0 ++
    (be 8 s.maxCount ++ futureVersionsMarshal)))))

/-- The version of the blob in `PERSISTENT_ALL_Marshal`, which asserts that level 1 is for the null profile. -/
def persistentAllVersion (rp : RuntimeProfileState) : Except Fault Nat :=
  let blobVersion := if rp.stateFormatLevel = 1 then 3 else 4
  if rp.wasNullProfile ∧ blobVersion ≠ 3 then .error .failureMode
  else if ¬rp.wasNullProfile ∧ blobVersion = 3 then .error .failureMode
  else .ok blobVersion

/-- The profile in `PERSISTENT_ALL_Marshal`. -/
def profileMarshal (rp : RuntimeProfileState) (blobVersion : Nat) : Except Fault Bytes :=
  if 4 ≤ blobVersion then
    match rp.getJSON with
    | none => .error .failureMode
    | some profileJSON => .ok (stringMarshal profileJSON)
  else .ok []

/-- `PERSISTENT_ALL_Marshal`. -/
def persistentAllMarshal (rp : RuntimeProfileState) (s : SavedState σ) : Except Fault Bytes := do
  let blobVersion ← persistentAllVersion rp
  let profile ← profileMarshal rp blobVersion
  let persistentData ← persistentDataMarshal rp s
  let userNvram ← userAreaMarshal hs rp.stateFormatLevel s
  pure (nvHeaderMarshal blobVersion 0xab364723 blobVersion ++ (profile ++ (s.paCompileConstants ++
    (persistentData ++ (s.orderlyData ++ (s.suState.getD [] ++ (s.indexOrderlyRam ++ (userNvram ++
      (futureVersionsMarshal ++ be 4 0xab364723)))))))))

/-- `VolatileState_Marshal`. -/
def volatileStateMarshal (rp : RuntimeProfileState) (s : SavedState σ) : Except Fault Bytes := do
  let objects ← (List.finRange 3).mapM fun i => anyObjectMarshal hs rp.stateFormatLevel (s.slots i).toAnyObject
  pure (nvHeaderMarshal 4 0x45637889 1 ++ (s.volatileHead ++
    (blockSkipMarshal true (be 2 3 ++ objects.flatten) ++ s.volatileTail)))

end

/-! ## The lists that can be reached -/

namespace CommandLists

theorem commandTable_codes : ∀ c ∈ commandTable, firstCommandCode ≤ c.code ∧ c.code < firstCommandCode + 140 := by
  decide +kernel

theorem commandIndex_add {c : CommandRow} (hc : c ∈ commandTable) : commandIndex c + firstCommandCode = c.code :=
  Nat.sub_add_cancel (commandTable_codes c hc).1

theorem commandIndex_div {c : CommandRow} (hc : c ∈ commandTable) : commandIndex c / 8 < 18 := by
  have h := (commandTable_codes c hc).2
  unfold commandIndex
  omega

variable {enabled : Nat → Bool}

/-- A command that always needs physical presence. -/
def RequiredCommand (idx : Nat) : Prop :=
  ∃ c ∈ commandTable, commandIndex c = idx ∧ c.attributes.contains .ppRequired = true

/-- A command that a profile allows to put under physical presence. -/
def PresenceCommand (enabled : Nat → Bool) (idx : Nat) : Prop :=
  (commandCodeToCommandIndex enabled 0x12d).isSome = true ∧
    ∃ code c, commandCodeToCommandIndex enabled code = some c ∧ commandIndex c = idx ∧
      c.attributes.contains .ppCommand = true

/-- A command whose audit can be switched on by a profile. -/
def AuditableCommand (enabled : Nat → Bool) (idx : Nat) : Prop :=
  (commandCodeToCommandIndex enabled 0x140).isSome = true ∧
    ∃ code c, commandCodeToCommandIndex enabled code = some c ∧ commandIndex c = idx ∧ code ≠ 0x145

theorem get_setBit {n m : Nat} {a b : CommandList} (h : setBit n a = .ok b) (hm : b.get m = true) :
    m = n ∨ a.get m = true := by
  rw [BitArray.get_set? (setBit_ok h), Bool.or_eq_true, decide_eq_true_eq] at hm
  exact hm.symm

theorem get_clearBit {n m : Nat} {a b : CommandList} (h : clearBit n a = .ok b) (hm : b.get m = true) :
    a.get m = true := by
  rw [BitArray.get_clear? (clearBit_ok h), Bool.and_eq_true] at hm
  exact hm.1

/-- The lists name no commands beyond those that a profile allows to put there. -/
structure Sound (enabled : Nat → Bool) (s : CommandLists) : Prop where
  ppList : ∀ idx, s.ppList.get idx = true → RequiredCommand idx ∨ PresenceCommand enabled idx
  auditCommands : ∀ idx, s.auditCommands.get idx = true → AuditableCommand enabled idx

theorem physicalPresencePreInstallInit_sound {ppList : CommandList}
    (h : physicalPresencePreInstallInit = .ok ppList) : ∀ idx, ppList.get idx = true → RequiredCommand idx := by
  refine foldlM_invariant (I := fun l : CommandList => ∀ idx, l.get idx = true → RequiredCommand idx)
    ?_ ?_ h
  · intro c hc l l' hl hset idx hidx
    obtain ⟨hmem, hreq⟩ := List.mem_filter.mp hc
    rcases get_setBit hset hidx with heq | hold
    · exact ⟨c, hmem, heq.symm, hreq⟩
    · exact hl idx hold
  · intro idx hidx
    rw [BitArray.get_zero] at hidx
    exact absurd hidx Bool.false_ne_true

theorem physicalPresenceCommandSet_sound {code : Nat} {l l' : CommandList}
    (hself : (commandCodeToCommandIndex enabled 0x12d).isSome = true)
    (hl : ∀ idx, l.get idx = true → RequiredCommand idx ∨ PresenceCommand enabled idx)
    (h : physicalPresenceCommandSet enabled l code = .ok l') :
    ∀ idx, l'.get idx = true → RequiredCommand idx ∨ PresenceCommand enabled idx := by
  unfold physicalPresenceCommandSet at h
  split at h
  · obtain rfl := Except.ok.inj h
    exact hl
  · rename_i c hc
    split at h
    · rename_i hpp
      intro idx hidx
      rcases get_setBit h hidx with heq | hold
      · exact .inr ⟨hself, code, c, hc, heq.symm, hpp⟩
      · exact hl idx hold
    · obtain rfl := Except.ok.inj h
      exact hl

theorem physicalPresenceCommandClear_sound {code : Nat} {l l' : CommandList}
    (hl : ∀ idx, l.get idx = true → RequiredCommand idx ∨ PresenceCommand enabled idx)
    (h : physicalPresenceCommandClear enabled l code = .ok l') :
    ∀ idx, l'.get idx = true → RequiredCommand idx ∨ PresenceCommand enabled idx := by
  unfold physicalPresenceCommandClear at h
  split at h
  · obtain rfl := Except.ok.inj h
    exact hl
  · split at h
    · obtain rfl := Except.ok.inj h
      exact hl
    · exact fun idx hidx => hl idx (get_clearBit h hidx)

theorem commandAuditSet_sound {code : Nat} {l l' : CommandList}
    (hself : (commandCodeToCommandIndex enabled 0x140).isSome = true)
    (hl : ∀ idx, l.get idx = true → AuditableCommand enabled idx) (h : commandAuditSet enabled l code = .ok l') :
    ∀ idx, l'.get idx = true → AuditableCommand enabled idx := by
  unfold commandAuditSet at h
  split at h
  · obtain rfl := Except.ok.inj h
    exact hl
  · rename_i c hc
    split at h
    · obtain rfl := Except.ok.inj h
      exact hl
    · rename_i hne
      split at h
      · obtain rfl := Except.ok.inj h
        exact hl
      · intro idx hidx
        rcases get_setBit h hidx with heq | hold
        · exact ⟨hself, code, c, hc, heq.symm, hne⟩
        · exact hl idx hold

theorem commandAuditClear_sound {code : Nat} {l l' : CommandList}
    (hl : ∀ idx, l.get idx = true → AuditableCommand enabled idx) (h : commandAuditClear enabled l code = .ok l') :
    ∀ idx, l'.get idx = true → AuditableCommand enabled idx := by
  unfold commandAuditClear at h
  split at h
  · obtain rfl := Except.ok.inj h
    exact hl
  · split at h
    · obtain rfl := Except.ok.inj h
      exact hl
    · split at h
      · exact fun idx hidx => hl idx (get_clearBit h hidx)
      · obtain rfl := Except.ok.inj h
        exact hl

theorem perform_sound {s s' : CommandLists} {c : ListCommand} (hs : s.Sound enabled)
    (h : perform enabled s c = .ok s') : s'.Sound enabled := by
  unfold perform at h
  split at h
  · cases h
  · rename_i hself
    have hself : (commandCodeToCommandIndex enabled c.code).isSome = true := by
      rwa [Bool.not_eq_true, Option.isNone_eq_false_iff] at hself
    cases c with
    | ppCommands setList clearList =>
        obtain ⟨ppList, hset, h⟩ := bind_eq_ok h
        obtain ⟨ppList', hclear, h⟩ := bind_eq_ok h
        obtain rfl := Except.ok.inj h
        refine ⟨?_, hs.auditCommands⟩
        refine foldlM_invariant (fun code _ l l' => physicalPresenceCommandClear_sound) ?_ hclear
        exact foldlM_invariant (fun code _ l l' => physicalPresenceCommandSet_sound hself) hs.ppList hset
    | setCommandCodeAuditStatus auditAlg setList clearList =>
        change setCommandCodeAuditStatus enabled auditAlg setList clearList s = .ok s' at h
        unfold setCommandCodeAuditStatus at h
        split at h
        · split at h
          · cases h
          · obtain rfl := Except.ok.inj h
            exact ⟨hs.ppList, hs.auditCommands⟩
        · obtain ⟨auditCommands, hset, h⟩ := bind_eq_ok h
          obtain ⟨auditCommands', hclear, h⟩ := bind_eq_ok h
          obtain rfl := Except.ok.inj h
          refine ⟨hs.ppList, ?_⟩
          refine foldlM_invariant (fun code _ l l' => commandAuditClear_sound) ?_ hclear
          exact foldlM_invariant (fun code _ l l' => commandAuditSet_sound hself) hs.auditCommands hset

theorem step_sound {s : CommandLists} {c : ListCommand} (hs : s.Sound enabled) :
    (step enabled s c).Sound enabled := by
  unfold step
  split
  · rename_i s' h
    exact perform_sound hs h
  · exact hs

theorem preInstallInit_sound {s : CommandLists} (h : preInstallInit enabled = .ok s) : s.Sound enabled := by
  obtain ⟨ppList, hpp, h⟩ := bind_eq_ok h
  obtain ⟨auditCommands, haudit, h⟩ := bind_eq_ok h
  obtain rfl := Except.ok.inj h
  refine ⟨fun idx hidx => .inl (physicalPresencePreInstallInit_sound hpp idx hidx), fun idx hidx => ?_⟩
  cases hself : commandCodeToCommandIndex enabled 0x140 with
  | none =>
      unfold commandAuditSet at haudit
      rw [hself] at haudit
      obtain rfl := Except.ok.inj haudit
      rw [BitArray.get_zero] at hidx
      exact absurd hidx Bool.false_ne_true
  | some c =>
      have hisSome : (commandCodeToCommandIndex enabled 0x140).isSome = true := by
        rw [hself]
        rfl
      refine commandAuditSet_sound hisSome (fun idx hidx => ?_) haudit idx hidx
      rw [BitArray.get_zero] at hidx
      exact absurd hidx Bool.false_ne_true

theorem Reached.sound {s : CommandLists} (h : Reached enabled s) : s.Sound enabled := by
  obtain ⟨s₀, commands, hinit, rfl⟩ := h
  exact run_invariant (I := fun s : CommandLists => s.Sound enabled) (q := fun _ => True)
    (fun s c hs _ => step_sound hs) (preInstallInit_sound hinit) fun _ _ => trivial

theorem setBit_command {c : CommandRow} (hc : c ∈ commandTable) (l : CommandList) :
    ∃ l', setBit (commandIndex c) l = .ok l' := setBit_ok_iff.mpr (commandIndex_div hc)

theorem commandAuditSet_ok (enabled : Nat → Bool) (code : Nat) (l : CommandList) : ∃ l', commandAuditSet enabled l code = .ok l' := by
  unfold commandAuditSet
  split
  · exact ⟨l, rfl⟩
  · rename_i c hc
    split
    · exact ⟨l, rfl⟩
    · split
      · exact ⟨l, rfl⟩
      · exact setBit_command (commandCodeToCommandIndex_eq_some hc).1 l

theorem preInstallInit_ok (enabled : Nat → Bool) : ∃ s, preInstallInit enabled = .ok s := by
  obtain ⟨ppList, hpp⟩ : ∃ ppList, physicalPresencePreInstallInit = .ok ppList := by
    refine ⟨_, rfl⟩
  obtain ⟨auditCommands, haudit⟩ := commandAuditSet_ok enabled 0x140 (BitArray.zero 18)
  refine ⟨⟨ppList, auditCommands, TpmAlg.sha512⟩, ?_⟩
  unfold preInstallInit
  rw [hpp, haudit]
  rfl

theorem preInstallInit_reached (enabled : Nat → Bool) : ∃ s, Reached enabled s := by
  obtain ⟨s, hs⟩ := preInstallInit_ok enabled
  exact ⟨s, s, [], hs, rfl⟩

theorem PresenceCommand.reached {idx : Nat} (h : PresenceCommand enabled idx) :
    ∃ s, Reached enabled s ∧ s.ppList.get idx = true := by
  obtain ⟨hself, code, c, hc, hidx, hpp⟩ := h
  obtain ⟨s₀, hs₀⟩ := preInstallInit_ok enabled
  obtain ⟨l, hl⟩ := setBit_command (commandCodeToCommandIndex_eq_some hc).1 s₀.ppList
  have hset : physicalPresenceCommandSet enabled s₀.ppList code = .ok l := by
    unfold physicalPresenceCommandSet
    rw [hc]
    simp only [hpp, if_true, hl]
  refine ⟨_, ⟨s₀, [.ppCommands [code] []], hs₀, rfl⟩, ?_⟩
  have hstep : step enabled s₀ (.ppCommands [code] []) = { s₀ with ppList := l } := by
    have hcode : (commandCodeToCommandIndex enabled (ListCommand.ppCommands [code] []).code).isNone = false :=
      Option.isNone_eq_false_iff.mpr hself
    unfold step perform
    simp only [hcode, Bool.false_eq_true, if_false, ppCommands, List.foldlM_cons, List.foldlM_nil, hset]
    rfl
  simp only [run, List.foldl_cons, List.foldl_nil, hstep]
  rw [BitArray.get_set? (setBit_ok hl), hidx, decide_eq_true rfl, Bool.or_true]

/-- Every command that may be audited is audited in some run. -/
theorem AuditableCommand.reached {idx : Nat} (h : AuditableCommand enabled idx) :
    ∃ s, Reached enabled s ∧ s.auditCommands.get idx = true := by
  obtain ⟨hself, code, c, hc, hidx, hne⟩ := h
  obtain ⟨s₀, hs₀⟩ := preInstallInit_ok enabled
  obtain ⟨l, hl⟩ := commandAuditSet_ok enabled code s₀.auditCommands
  refine ⟨_, ⟨s₀, [.setCommandCodeAuditStatus TpmAlg.null [code] []], hs₀, rfl⟩, ?_⟩
  have hstep : step enabled s₀ (.setCommandCodeAuditStatus TpmAlg.null [code] []) =
      { s₀ with auditCommands := l } := by
    have hcode : (commandCodeToCommandIndex enabled
        (ListCommand.setCommandCodeAuditStatus TpmAlg.null [code] []).code).isNone = false :=
      Option.isNone_eq_false_iff.mpr hself
    unfold step perform
    simp only [hcode, Bool.false_eq_true, if_false, setCommandCodeAuditStatus, ne_eq, not_true_eq_false, false_and,
      List.foldlM_cons, List.foldlM_nil, hl]
    rfl
  simp only [run, List.foldl_cons, List.foldl_nil, hstep]
  unfold commandAuditSet at hl
  rw [hc] at hl
  simp only [if_neg hne] at hl
  split at hl
  · rename_i hget
    rw [← Except.ok.inj hl, ← hidx]
    exact hget
  · rw [BitArray.get_set? (setBit_ok hl), hidx, decide_eq_true rfl, Bool.or_true]

end CommandLists

/-! ## When the writers go through -/

section
variable {σ : Type} {hs : HashStateCodec σ}

/-- A list in the format of the blob: below version 5 its commands need a place in the compressed list. -/
theorem listMarshal_ok_iff {blobVersion commandCount outLen : Nat} {l : CommandList} :
    (∃ b, (if blobVersion ≤ 4 then
        if 110 < commandCount then .error .failureMode
        else bitArrayMarshal <$> convertToCompressedBitArray l outLen
      else .ok (bitArrayMarshal l)) = Except.ok (ε := Fault) b) ↔
      4 < blobVersion ∨ commandCount ≤ 110 ∧
        ∀ idx, l.get idx = true → Compressible outLen (idx + firstCommandCode) := by
  rw [← convertToCompressed_ok_iff]
  split
  · rename_i hv
    split
    · rename_i hn
      exact ⟨fun ⟨b, hb⟩ => (nomatch hb), fun h => absurd h (by omega)⟩
    · rename_i hn
      constructor
      · rintro ⟨b, hb⟩
        obtain ⟨out, hout, _⟩ := map_eq_ok hb
        exact .inr ⟨Nat.le_of_not_lt hn, out, hout⟩
      · rintro (h | ⟨_, out, hout⟩)
        · exact absurd hv (Nat.not_le_of_lt h)
        · exact ⟨bitArrayMarshal out, by rw [hout]; rfl⟩
  · rename_i hv
    exact ⟨fun _ => .inl (Nat.lt_of_not_le hv), fun _ => ⟨_, rfl⟩⟩

theorem ppListMarshal_ok_iff (blobVersion commandCount : Nat) (ppList : CommandList) :
    (∃ b, ppListMarshal blobVersion commandCount ppList = .ok b) ↔
      4 < blobVersion ∨ commandCount ≤ 110 ∧
        ∀ idx, ppList.get idx = true → Compressible ((commandCount + 7) / 8) (idx + firstCommandCode) :=
  listMarshal_ok_iff

theorem auditCommandsMarshal_ok_iff (blobVersion commandCount : Nat) (auditCommands : CommandList) :
    (∃ b, auditCommandsMarshal blobVersion commandCount auditCommands = .ok b) ↔
      4 < blobVersion ∨ commandCount ≤ 110 ∧ ∀ idx, auditCommands.get idx = true →
        Compressible ((commandCount + 1 + 7) / 8) (idx + firstCommandCode) :=
  listMarshal_ok_iff

theorem anyObjectMarshal_ok (hs : HashStateCodec σ) {level : Nat} (h : level ≠ 0) (x : AnyObject σ) :
    anyObjectMarshal hs level x = .ok (x.marshal hs level) := by
  cases x with
  | object o => exact if_neg h
  | vacant _ => rfl
  | sequence _ => rfl

theorem userEntryMarshal_ok (hs : HashStateCodec σ) {level : Nat} (h : level ≠ 0)
    (entry : Nat × (Bytes ⊕ (TpmHandle × Object))) : ∃ b, userEntryMarshal hs level entry = .ok b := by
  obtain ⟨entrysize, index | ⟨handle, o⟩⟩ := entry
  · exact ⟨_, rfl⟩
  · simp only [userEntryMarshal, anyObjectMarshal_ok hs h]
    exact ⟨_, rfl⟩

theorem userAreaMarshal_ok (hs : HashStateCodec σ) {level : Nat} (h : level ≠ 0) (s : SavedState σ) :
    ∃ b, userAreaMarshal hs level s = .ok b := by
  obtain ⟨entries, hentries⟩ := mapM_ok fun entry (_ : entry ∈ s.userNvram) => userEntryMarshal_ok hs h entry
  unfold userAreaMarshal
  rw [hentries]
  exact ⟨_, rfl⟩

theorem persistentDataMarshal_ok_iff {rp : RuntimeProfileState} {s : SavedState σ} (h : rp.stateFormatLevel ≠ 0) :
    (∃ b, persistentDataMarshal rp s = .ok b) ↔
      3 ≤ rp.stateFormatLevel ∨ rp.runtimeCommands.countEnabled ≤ 110 ∧
        (∀ idx, s.lists.ppList.get idx = true →
          Compressible ((rp.runtimeCommands.countEnabled + 7) / 8) (idx + firstCommandCode)) ∧
        ∀ idx, s.lists.auditCommands.get idx = true →
          Compressible ((rp.runtimeCommands.countEnabled + 1 + 7) / 8) (idx + firstCommandCode) := by
  have hversion : 4 < (if rp.stateFormatLevel ≤ 2 then 4 else 5) ↔ 3 ≤ rp.stateFormatLevel := by
    split
    · omega
    · omega
  have hpp := ppListMarshal_ok_iff (if rp.stateFormatLevel ≤ 2 then 4 else 5)
    rp.runtimeCommands.countEnabled s.lists.ppList
  have haudit := auditCommandsMarshal_ok_iff (if rp.stateFormatLevel ≤ 2 then 4 else 5)
    rp.runtimeCommands.countEnabled s.lists.auditCommands
  rw [hversion] at hpp haudit
  unfold persistentDataMarshal
  rw [if_neg h]
  constructor
  · rintro ⟨b, hb⟩
    obtain ⟨pp, hppok, hb⟩ := bind_eq_ok hb
    obtain ⟨audit, hauditok, _⟩ := bind_eq_ok hb
    rcases hpp.mp ⟨pp, hppok⟩ with hlevel | ⟨hcount, hpplist⟩
    · exact .inl hlevel
    · rcases haudit.mp ⟨audit, hauditok⟩ with hlevel | ⟨_, hauditlist⟩
      · exact .inl hlevel
      · exact .inr ⟨hcount, hpplist, hauditlist⟩
  · intro hok
    obtain ⟨pp, hppok⟩ := hpp.mpr (hok.imp_right fun h => ⟨h.1, h.2.1⟩)
    obtain ⟨audit, hauditok⟩ := haudit.mpr (hok.imp_right fun h => ⟨h.1, h.2.2⟩)
    simp only [hppok, hauditok]
    exact ⟨_, rfl⟩

theorem persistentAllVersion_ok_iff {rp : RuntimeProfileState} :
    (∃ v, persistentAllVersion rp = .ok v) ↔ (rp.stateFormatLevel = 1 ↔ rp.wasNullProfile = true) := by
  unfold persistentAllVersion
  by_cases hone : rp.stateFormatLevel = 1
  · cases hnull : rp.wasNullProfile with
    | true => simp [hone]
    | false => simp [hone]
  · cases hnull : rp.wasNullProfile with
    | true => simp [hone]
    | false => simp [hone]

theorem profileMarshal_ok {rp : RuntimeProfileState} (h : rp.getJSON.isSome = true) (blobVersion : Nat) :
    ∃ b, profileMarshal rp blobVersion = .ok b := by
  obtain ⟨json, hjson⟩ := Option.isSome_iff_exists.mp h
  unfold profileMarshal
  rw [hjson]
  split
  · exact ⟨_, rfl⟩
  · exact ⟨_, rfl⟩

/-- The assertions around the profile, and those of `PERSISTENT_DATA_Marshal`. -/
theorem persistentAllMarshal_ok_iff {rp : RuntimeProfileState} {s : SavedState σ} (h : rp.stateFormatLevel ≠ 0)
    (hjson : rp.getJSON.isSome = true) :
    (∃ b, persistentAllMarshal hs rp s = .ok b) ↔
      (rp.stateFormatLevel = 1 ↔ rp.wasNullProfile = true) ∧ ∃ b, persistentDataMarshal rp s = .ok b := by
  rw [← persistentAllVersion_ok_iff]
  constructor
  · rintro ⟨b, hb⟩
    obtain ⟨blobVersion, hversion, hb⟩ := bind_eq_ok hb
    obtain ⟨profile, _, hb⟩ := bind_eq_ok hb
    obtain ⟨data, hdata, _⟩ := bind_eq_ok hb
    exact ⟨⟨blobVersion, hversion⟩, data, hdata⟩
  · rintro ⟨⟨blobVersion, hversion⟩, data, hdata⟩
    obtain ⟨profile, hprofile⟩ := profileMarshal_ok hjson blobVersion
    obtain ⟨area, harea⟩ := userAreaMarshal_ok hs h s
    unfold persistentAllMarshal
    simp only [hversion, hdata, harea, bind, Except.bind, hprofile]
    exact ⟨_, rfl⟩

theorem volatileStateMarshal_ok {rp : RuntimeProfileState} {s : SavedState σ} (h : rp.stateFormatLevel ≠ 0) :
    ∃ b, volatileStateMarshal hs rp s = .ok b := by
  obtain ⟨objects, hobjects⟩ := mapM_ok fun i (_ : i ∈ List.finRange 3) =>
    ⟨_, anyObjectMarshal_ok hs h (s.slots i).toAnyObject⟩
  unfold volatileStateMarshal
  rw [hobjects]
  exact ⟨_, rfl⟩

end

/-! ## What the level of an accepted profile pays for -/

theorem commandCodeToCommandIndex_enabled {enabled : Nat → Bool} {code : Nat} {c : CommandRow}
    (h : commandCodeToCommandIndex enabled code = some c) : enabled code = true := by
  unfold commandCodeToCommandIndex at h
  split at h
  · cases h
  · split at h
    · cases h
    · split at h
      · rename_i hen
        exact (Bool.and_eq_true_iff.mp hen).2
      · cases h

namespace RuntimeAttributes

/-- The level is one at which every restriction that is switched on exists. -/
def PaidFor (ra : RuntimeAttributes) (level : Nat) : Prop :=
  ∀ e ∈ attributeProperties, ra.enabledAttributesPrint e.idx = true → e.stateFormatLevel ≤ level

theorem attributeProperties_level : ∀ e ∈ attributeProperties, e.stateFormatLevel = 7 := by decide

theorem tokenStep_paid {max : Nat} {token : CString} {ra : RuntimeAttributes} {level : Nat}
    (h : ra.PaidFor level) : (tokenStep max token ra level).state.PaidFor (tokenStep max token ra level).level := by
  unfold tokenStep
  split
  · exact h
  · rename_i e he
    split
    · exact h
    · intro e' he' _
      rw [attributeProperties_level e' he', ← attributeProperties_level e (List.mem_of_find?_eq_some he)]
      exact Nat.le_max_right _ _

theorem init_paid (level : Nat) : init.PaidFor level := fun _ _ h => absurd h Bool.false_ne_true

theorem setProfile_paid (ra : RuntimeAttributes) (newProfile : Option CString) (level max : Nat) :
    (ra.setProfile newProfile level max).state.PaidFor (ra.setProfile newProfile level max).level := by
  cases newProfile with
  | none => exact init_paid level
  | some p =>
      cases p with
      | nil => exact init_paid level
      | cons c p =>
          simp only [setProfile]
          split
          · exact init_paid _
          · exact scan_keeps (P := fun (s : RuntimeAttributes) l => s.PaidFor l)
              (fun _ _ _ _ hs => tokenStep_paid hs) (init_paid level)

end RuntimeAttributes

namespace RuntimeProfileState

variable {rp₀ rp : RuntimeProfileState} {json : Option CString} {fromUser : Bool}

/-- What comes with every accepted profile. -/
structure Consistent (rp : RuntimeProfileState) : Prop where
  pos : 1 ≤ rp.stateFormatLevel
  commands : rp.runtimeCommands.PaidFor rp.stateFormatLevel
  required : ∀ c ∈ commandProperties, c.canBeDisabled = false →
    rp.runtimeCommands.enabledCommands c.code = true
  algorithms : ∀ e ∈ algorithmProperties, e.canBeDisabled = false →
    rp.runtimeAlgorithm.enabledAlgorithms e.algId = true
  attributes : rp.runtimeAttributes.PaidFor rp.stateFormatLevel
  stored : rp.getJSON.isSome = true

theorem set_consistent (h : rp₀.set json fromUser = (rp, none)) : rp.Consistent := by
  obtain ⟨q, d, start, max, r, hacc⟩ := set_ok h
  obtain ⟨algs, cmds, desc, ha, hc, _, hatt, _, _, _, hpos, _⟩ := hacc.lists
  have hcarried := hacc.carried
  rw [ha, hc] at hcarried
  have hok := hacc.ok
  rw [← hcarried] at hok
  obtain ⟨a, g, c, hae, haok, hge, hgok, hce, hcok, heq⟩ := setRuntimeProfile_ok hok
  rw [hcarried] at heq
  subst hae hge hce
  have hgl := (RuntimeAlgorithm.setProfile_settles (some algs) hgok).1
  have hcl := (RuntimeCommands.setProfile_settles cmds hcok).1
  have hstored := hacc.stored
  rw [heq] at hstored hpos
  subst hstored
  refine ⟨hpos, RuntimeCommands.setProfile_paid hcok,
    fun c hmem hreq => RuntimeCommands.setProfile_mandatory hcok hmem hreq,
    fun e he hd => RuntimeAlgorithm.setProfile_mandatory hgok he hd, fun e he hen => ?_, rfl⟩
  exact Nat.le_trans (RuntimeAttributes.setProfile_paid _ _ _ _ e he hen) (Nat.le_trans hgl hcl)

/-- The profile that the readers and writers of structures consult; `usable` is what the crypto library offers. -/
def Consistent.profile (h : rp.Consistent) (usable : EccCurve → Bool) : RuntimeProfile where
  stateFormatLevel := rp.stateFormatLevel
  enabledAlgorithms := rp.runtimeAlgorithm.enabledAlgorithms
  algosMinimumKeySizes := rp.runtimeAlgorithm.algosMinimumKeySizes
  enabledEccCurves := rp.runtimeAlgorithm.enabledEccCurves
  curveRuntimeUsable := usable
  null_enabled := h.algorithms ⟨TpmAlg.null, "null".toList, .none, false, 1⟩ (by decide +kernel) rfl

/-- The profile answers as `RuntimeAlgorithmKeySizeCheckEnabled` does for every algorithm with key sizes. -/
theorem Consistent.profile_keySizeCheckEnabled (h : rp.Consistent) (usable : EccCurve → Bool) {e : AlgorithmProperty}
    (he : e ∈ algorithmProperties) (hu : e.u ≠ .none) (keySize curve : Nat) :
    rp.runtimeAlgorithm.keySizeCheckEnabled e.algId keySize curve rp.stateFormatLevel =
      .ok ((h.profile usable).keySizeCheckEnabled e.algId keySize curve) :=
  RuntimeAlgorithm.keySizeCheckEnabled_eq (p := h.profile usable) rfl rfl rfl he hu keySize curve

theorem nullProfile_desc {d : RuntimeProfileDesc}
    (h : runtimeProfileDescs.find? (·.nameMatch "null".toList) = some d) :
    d.allowModifications = false ∧ d.stateFormatLevel = 1 ∧
      RuntimeCommands.codes d.commandsProfile = ccToCompressedListIndex := by
  have hget : runtimeProfileDescs.find? (·.nameMatch "null".toList) = runtimeProfileDescs[1]? := by decide +kernel
  rw [hget] at h
  obtain rfl := Option.some.inj h
  exact ⟨rfl, rfl, by decide +kernel⟩

theorem findByName_desc {q : ProfileParameters} {d : RuntimeProfileDesc} (h : findByName q fromUser = some d) :
    runtimeProfileDescs.find? (·.nameMatch q.profileName) = some d := by
  unfold findByName at h
  split at h
  · cases h
  · rename_i hfind
    split at h
    · cases h
    · rw [hfind, h]

/-- The null profile is set from its description alone. -/
theorem Accepted.null_parameters {q : ProfileParameters} {d : RuntimeProfileDesc} {start max : Nat}
    {r : Result RuntimeProfileState Fault} (h : Accepted rp₀ json fromUser rp q d start max r)
    (hnull : rp.wasNullProfile = true) :
    q.profileName = "null".toList ∧ q.stateFormatLevel = 0 ∧ q.commandsProfile = none := by
  have hpar := h.parameters
  rw [h.stored] at hnull
  rcases Bool.or_eq_true_iff.mp hnull with hstate | huser
  · obtain ⟨hnone, hfalse⟩ := Bool.and_eq_true_iff.mp hstate
    rw [Option.isNone_iff_eq_none] at hnone
    subst hnone
    rw [← Except.ok.inj hpar]
    exact ⟨rfl, rfl, rfl⟩
  · obtain ⟨htrue, hname⟩ := Bool.and_eq_true_iff.mp huser
    have hname : q.profileName = "null".toList := eq_of_beq hname
    have hfound := h.found
    rw [htrue] at hfound
    have hdesc := findByName_desc hfound
    rw [hname] at hdesc
    have hcust := fixed_parameters hfound (nullProfile_desc hdesc).1
    simp only [ProfileParameters.customizes, Bool.or_eq_false_iff, decide_eq_false_iff_not, not_not,
      Option.isSome_eq_false_iff, Option.isNone_iff_eq_none] at hcust
    exact ⟨hname, hcust.1.1.1.1, hcust.1.1.1.2⟩

theorem set_null (h : rp₀.set json fromUser = (rp, none)) (hnull : rp.wasNullProfile = true) :
    rp.stateFormatLevel = 1 ∧
      rp.runtimeCommands.enabledCommands = fun code => decide (code ∈ ccToCompressedListIndex) := by
  obtain ⟨q, d, start, max, r, hacc⟩ := set_ok h
  obtain ⟨hname, hlevel, hcmds⟩ := hacc.null_parameters hnull
  have hdesc := findByName_desc hacc.found
  rw [hname] at hdesc
  obtain ⟨hfixed, hone, hcodes⟩ := nullProfile_desc hdesc
  have hlevels := hacc.levels
  rw [hlevel] at hlevels
  simp only [formatLevels, beq_self_eq_true, Bool.or_true, if_true, hfixed, Bool.not_false, hone] at hlevels
  obtain ⟨_, rfl⟩ := Prod.mk.inj (Option.some.inj hlevels)
  have hcons := (set_consistent h).pos
  have hle := hacc.le
  have hcarried := hacc.carried
  have hok := hacc.ok
  have hstored := hacc.stored
  subst hstored
  refine ⟨Nat.le_antisymm hle hcons, ?_⟩
  rw [← hcarried] at hok
  obtain ⟨a, g, c, _, _, _, _, hce, hcok, heq⟩ := setRuntimeProfile_ok hok
  have hdefault : (withDefaults d q).commandsProfile = some d.commandsProfile := by
    simp only [withDefaults, hcmds, Option.none_or]
  rw [hdefault] at hce
  subst hce
  have hlisted : (rp₀.runtimeCommands.setProfile (some d.commandsProfile) g.level 1).state = _ :=
    RuntimeCommands.setProfile_listed ((RuntimeCommands.setProfile_ok_iff _ _ _ _).mp hcok)
  rw [← hcarried, heq]
  simp only [store, hlisted, hcodes]

theorem Consistent.le_countEnabled (h : rp.Consistent) : 26 ≤ rp.runtimeCommands.countEnabled := by
  let required : Nat → Bool := fun code => commandProperties.any fun c => c.code == code && !c.canBeDisabled
  have hcount : (List.range' 0x11f (0x1b0 - 0x11f)).countP required = 26 := by decide +kernel
  unfold RuntimeCommands.countEnabled
  rw [← List.countP_eq_length_filter, ← hcount]
  refine List.countP_mono_left fun code _ hcode => ?_
  obtain ⟨c, hc, heq⟩ := List.any_eq_true.mp hcode
  rw [Bool.and_eq_true, Bool.not_eq_true'] at heq
  rw [← eq_of_beq heq.1]
  exact h.required c hc heq.2

theorem Compressible.mono {m n cc : Nat} (h : Compressible m cc) (hmn : m ≤ n) : Compressible n cc := by
  obtain ⟨index, hget, hlt⟩ := h
  exact ⟨index, hget, Nat.lt_of_lt_of_le hlt hmn⟩

theorem RequiredCommand.compressible {idx n : Nat} (h : CommandLists.RequiredCommand idx) (hn : 4 ≤ n) :
    Compressible n (idx + firstCommandCode) := by
  have hrows : ∀ c ∈ commandTable, c.attributes.contains .ppRequired = true → c.code = 0x12d := by decide +kernel
  obtain ⟨c, hc, rfl, hreq⟩ := h
  rw [CommandLists.commandIndex_add hc, hrows c hc hreq]
  exact Compressible.mono (m := 4) ⟨13, rfl, by decide⟩ hn

theorem compressible_of_mem {cc : Nat} (h : cc ∈ ccToCompressedListIndex) : Compressible 14 cc := by
  obtain ⟨index, hlt, hget⟩ := List.getElem_of_mem h
  have hlt : index < 110 := hlt
  exact ⟨index, List.getElem?_eq_some_iff.mpr ⟨hlt, hget⟩, by omega⟩

theorem enabled_of_commandIndex {enabled : Nat → Bool} {code : Nat} {c : CommandRow}
    (h : commandCodeToCommandIndex enabled code = some c) :
    enabled (CommandLists.commandIndex c + firstCommandCode) = true := by
  obtain ⟨hc, hcode⟩ := commandCodeToCommandIndex_eq_some h
  rw [CommandLists.commandIndex_add hc, hcode]
  exact commandCodeToCommandIndex_enabled h

end RuntimeProfileState

/-! ## Profiles under which the state can be saved -/

/-- The writers go through, the level fits the profile, and it is one at which everything that the
profile enables and every command of the lists exists. -/
structure SavesCleanly {σ : Type} (hs : HashStateCodec σ) (rp : RuntimeProfileState) (s : SavedState σ) : Prop where
  persistentAll : ∃ b, persistentAllMarshal hs rp s = .ok b
  volatileState : ∃ b, volatileStateMarshal hs rp s = .ok b
  nullProfile : rp.stateFormatLevel = 1 ↔ rp.wasNullProfile = true
  commands : ∀ c ∈ commandProperties, rp.runtimeCommands.enabledCommands c.code = true →
    c.stateFormatLevel ≤ rp.stateFormatLevel
  algorithms : ∀ e ∈ algorithmProperties, rp.runtimeAlgorithm.enabledAlgorithms e.algId = true →
    e.stateFormatLevel ≤ rp.stateFormatLevel
  curves : ∀ c ∈ eccAlgorithmProperties, rp.runtimeAlgorithm.enabledEccCurves c.curve.id = true →
    c.stateFormatLevel ≤ rp.stateFormatLevel
  attributes : rp.runtimeAttributes.PaidFor rp.stateFormatLevel
  ppList : ∀ idx, s.lists.ppList.get idx = true → 3 ≤ rp.stateFormatLevel ∨
    Compressible ((rp.runtimeCommands.countEnabled + 7) / 8) (idx + firstCommandCode)
  auditCommands : ∀ idx, s.lists.auditCommands.get idx = true → 3 ≤ rp.stateFormatLevel ∨
    Compressible ((rp.runtimeCommands.countEnabled + 1 + 7) / 8) (idx + firstCommandCode)

/-- The null profile, a profile from level 3 on, or one at level 2 with no more commands than v0.9 had,
in which every command that can be put on a list has its place in the shortened list. -/
def RuntimeProfileState.Savable (rp : RuntimeProfileState) : Prop :=
  rp.wasNullProfile = true ∨ 3 ≤ rp.stateFormatLevel ∨
    rp.stateFormatLevel = 2 ∧ rp.runtimeCommands.countEnabled ≤ 110 ∧
      (∀ idx, CommandLists.PresenceCommand rp.runtimeCommands.enabledCommands idx →
        Compressible ((rp.runtimeCommands.countEnabled + 7) / 8) (idx + firstCommandCode)) ∧
      ∀ idx, CommandLists.AuditableCommand rp.runtimeCommands.enabledCommands idx →
        Compressible ((rp.runtimeCommands.countEnabled + 1 + 7) / 8) (idx + firstCommandCode)

namespace RuntimeProfileState
variable {σ : Type} {hs : HashStateCodec σ} {rp₀ rp : RuntimeProfileState} {json : Option CString} {fromUser : Bool}

/-- The writers and the lists, where the level is at least 3 or the lists fit. -/
theorem Consistent.savesCleanly (h : rp.Consistent)
    (hnull : rp.stateFormatLevel = 1 ↔ rp.wasNullProfile = true)
    (hfits : 3 ≤ rp.stateFormatLevel ∨ rp.runtimeCommands.countEnabled ≤ 110 ∧
      (∀ idx, CommandLists.PresenceCommand rp.runtimeCommands.enabledCommands idx →
        Compressible ((rp.runtimeCommands.countEnabled + 7) / 8) (idx + firstCommandCode)) ∧
      ∀ idx, CommandLists.AuditableCommand rp.runtimeCommands.enabledCommands idx →
        Compressible ((rp.runtimeCommands.countEnabled + 1 + 7) / 8) (idx + firstCommandCode))
    {s : SavedState σ} (hreached : CommandLists.Reached rp.runtimeCommands.enabledCommands s.lists) :
    SavesCleanly hs rp s := by
  have hlevel : rp.stateFormatLevel ≠ 0 := Nat.one_le_iff_ne_zero.mp h.pos
  have hsound := hreached.sound
  have hoctets : 4 ≤ (rp.runtimeCommands.countEnabled + 7) / 8 := by
    have hcount := h.le_countEnabled
    omega
  have hpp : ∀ idx, s.lists.ppList.get idx = true → 3 ≤ rp.stateFormatLevel ∨
      Compressible ((rp.runtimeCommands.countEnabled + 7) / 8) (idx + firstCommandCode) := by
    intro idx hidx
    rcases hsound.ppList idx hidx with hreq | hpresence
    · exact .inr (RequiredCommand.compressible hreq hoctets)
    · exact hfits.imp_right fun hf => hf.2.1 idx hpresence
  have haudit : ∀ idx, s.lists.auditCommands.get idx = true → 3 ≤ rp.stateFormatLevel ∨
      Compressible ((rp.runtimeCommands.countEnabled + 1 + 7) / 8) (idx + firstCommandCode) :=
    fun idx hidx => hfits.imp_right fun hf => hf.2.2 idx (hsound.auditCommands idx hidx)
  have hdata : ∃ b, persistentDataMarshal rp s = .ok b := by
    rw [persistentDataMarshal_ok_iff hlevel]
    by_cases h3 : 3 ≤ rp.stateFormatLevel
    · exact .inl h3
    · have hcount := (hfits.resolve_left h3).1
      exact .inr ⟨hcount, fun idx hidx => (hpp idx hidx).resolve_left h3,
        fun idx hidx => (haudit idx hidx).resolve_left h3⟩
  have halgorithms : ∀ e ∈ algorithmProperties, e.stateFormatLevel = 1 := by decide +kernel
  have hcurves : ∀ c ∈ eccAlgorithmProperties, c.stateFormatLevel = 1 := by decide +kernel
  have hcodes : (commandProperties.map CommandProperty.code).Nodup := by decide +kernel
  exact
    { persistentAll := (persistentAllMarshal_ok_iff hlevel h.stored).mpr ⟨hnull, hdata⟩
      volatileState := volatileStateMarshal_ok hlevel
      nullProfile := hnull
      commands := fun c hc hen => by
        obtain ⟨d, hd, hcode, hle⟩ := h.commands c.code hen
        rwa [List.inj_on_of_nodup_map hcodes hd hc hcode] at hle
      algorithms := fun e he _ => by
        rw [halgorithms e he]
        exact h.pos
      curves := fun c hc _ => by
        rw [hcurves c hc]
        exact h.pos
      attributes := h.attributes
      ppList := hpp
      auditCommands := haudit }

theorem set_saves_cleanly_iff (hs : HashStateCodec σ) (h : rp₀.set json fromUser = (rp, none)) :
    (∀ s : SavedState σ, CommandLists.Reached rp.runtimeCommands.enabledCommands s.lists → SavesCleanly hs rp s) ↔
      rp.Savable := by
  have hcons := set_consistent h
  constructor
  · intro hall
    have hlists : ∀ l : CommandLists, CommandLists.Reached rp.runtimeCommands.enabledCommands l →
        ∃ s : SavedState σ, s.lists = l ∧ SavesCleanly hs rp s := by
      intro l hl
      let s : SavedState σ := ⟨l, [], [], [], [], [], none, [], [], 0, [], fun _ => .vacant, []⟩
      exact ⟨s, rfl, hall s hl⟩
    obtain ⟨l₀, hl₀⟩ := CommandLists.preInstallInit_reached rp.runtimeCommands.enabledCommands
    obtain ⟨s₀, -, hclean⟩ := hlists l₀ hl₀
    cases hnull : rp.wasNullProfile with
    | true => exact .inl hnull
    | false =>
        refine .inr ?_
        have hone : rp.stateFormatLevel ≠ 1 := by
          intro hone
          rw [hclean.nullProfile.mp hone] at hnull
          exact Bool.noConfusion hnull
        have hpos := hcons.pos
        by_cases h3 : 3 ≤ rp.stateFormatLevel
        · exact .inl h3
        · refine .inr ⟨by omega, ?_, fun idx hidx => ?_, fun idx hidx => ?_⟩
          · obtain ⟨_, hdata⟩ :=
              (persistentAllMarshal_ok_iff (Nat.one_le_iff_ne_zero.mp hpos) hcons.stored).mp hclean.persistentAll
            rcases (persistentDataMarshal_ok_iff (Nat.one_le_iff_ne_zero.mp hpos)).mp hdata with h3' | hcount
            · exact absurd h3' h3
            · exact hcount.1
          · obtain ⟨l, hl, hget⟩ := hidx.reached
            obtain ⟨s, rfl, hs⟩ := hlists l hl
            exact (hs.ppList idx hget).resolve_left h3
          · obtain ⟨l, hl, hget⟩ := hidx.reached
            obtain ⟨s, rfl, hs⟩ := hlists l hl
            exact (hs.auditCommands idx hget).resolve_left h3
  · rintro hsavable s hreached
    cases hnull : rp.wasNullProfile with
    | true =>
        obtain ⟨hone, hcommands⟩ := set_null h hnull
        have hcount : rp.runtimeCommands.countEnabled = 110 := by
          unfold RuntimeCommands.countEnabled
          rw [hcommands]
          decide +kernel
        refine hcons.savesCleanly ⟨fun _ => hnull, fun _ => hone⟩ (.inr ?_) hreached
        rw [hcount]
        refine ⟨Nat.le_refl 110, ?_, ?_⟩
        · rintro idx ⟨_, code, c, hc, rfl, _⟩
          have hen := enabled_of_commandIndex hc
          rw [hcommands] at hen
          exact compressible_of_mem (of_decide_eq_true hen)
        · rintro idx ⟨_, code, c, hc, rfl, _⟩
          have hen := enabled_of_commandIndex hc
          rw [hcommands] at hen
          exact compressible_of_mem (of_decide_eq_true hen)
    | false =>
        have hfits := hsavable.resolve_left (hnull ▸ Bool.false_ne_true)
        refine hcons.savesCleanly ?_ (hfits.imp_right And.right) hreached
        rw [hnull]
        refine ⟨fun hone => ?_, fun h => absurd h Bool.false_ne_true⟩
        rcases hfits with h3 | ⟨h2, _⟩
        · omega
        · omega

theorem customProfile_saves_cleanly :
    ∃ rp, zero.init.set (some customProfile) true = (rp, none) ∧
      ∀ s : SavedState Empty, CommandLists.Reached rp.runtimeCommands.enabledCommands s.lists →
        SavesCleanly noHashStates rp s := by
  obtain ⟨rp, hrp⟩ := exists_set customProfile_accepted
  have hlevel : 3 ≤ (zero.init.set (some customProfile) true).1.stateFormatLevel := by decide +kernel
  rw [hrp] at hlevel
  exact ⟨rp, hrp, (set_saves_cleanly_iff noHashStates hrp).mpr (.inr (.inl hlevel))⟩

/-- A custom profile of the commands and algorithms that cannot be disabled. -/
def requiredProfile : CString :=
  "\x7b\"Name\":\"custom\",\"Commands\":\"".toList ++ commaSeparated
    ["0x120", "0x129", "0x12b", "0x131", "0x13c", "0x143-0x145", "0x148", "0x14e", "0x153", "0x156-0x158", "0x15c",
     "0x165", "0x169", "0x173", "0x176", "0x17a", "0x17c-0x17e", "0x182", "0x185-0x186"] ++
  "\",\"Algorithms\":\"".toList ++ commaSeparated
    ["rsa", "hmac", "aes", "mgf1", "keyedhash", "xor", "sha256", "sha384", "null", "oaep", "ecdsa", "ecdh",
     "kdf1-sp800-56a", "kdf2", "kdf1-sp800-108", "ecc", "ecc-nist", "symcipher", "cfb"] ++ "\"\x7d".toList

theorem requiredProfile_accepted : (zero.init.set (some requiredProfile) true).2 = none ∧
    (zero.init.set (some requiredProfile) true).1.stateFormatLevel = 1 ∧
    (zero.init.set (some requiredProfile) true).1.wasNullProfile = false := by decide +kernel

/-- It is accepted at level 1, and `PERSISTENT_ALL_Marshal` aborts whatever there is to be saved. -/
theorem requiredProfile_aborts :
    ∃ rp, zero.init.set (some requiredProfile) true = (rp, none) ∧
      (∃ l, CommandLists.Reached rp.runtimeCommands.enabledCommands l) ∧
      ∀ s : SavedState Empty, persistentAllMarshal noHashStates rp s = .error .failureMode := by
  obtain ⟨hok, hlevel, hnull⟩ := requiredProfile_accepted
  obtain ⟨rp, hrp⟩ := exists_set hok
  rw [hrp] at hlevel hnull
  refine ⟨rp, hrp, CommandLists.preInstallInit_reached _, fun s => ?_⟩
  have hversion : persistentAllVersion rp = .error .failureMode := by
    simp only at hlevel hnull
    simp [persistentAllVersion, hlevel, hnull]
  unfold persistentAllMarshal
  rw [hversion]
  rfl

end RuntimeProfileState

end PqcTpm
