import PqcTpm.NvCounters
import PqcTpm.PcrPolicy

/-!
# What a Resume brings back

Four structures live in RAM and reach NV in `TPM2_Shutdown` only: `gc`, `gr`, the PCRs and the orderly
indices. The recorded orderly state says whether the copies are the values that the TPM still holds, so a
command that changes one of the four has to end it. Some do not.
-/
namespace PqcTpm
open ByteCodec Transition

/-! ## The structures -/

/-- `gc`, but for `gc.pcrSave`. `HierarchyStartup` and `PCR_ClearAuth` set what stands here. -/
structure StateClearData where
  shEnable : Bool := true
  ehEnable : Bool := true
  phEnableNv : Bool := true
  platformAlg : Option HashAlg := none
  platformPolicy : Bytes := []
  platformAuth : Tpm2bAuth := .empty
  pcrAuthValues : Nat → Tpm2bAuth := fun _ => .empty

/-- What of `gr` is neither with the banks nor with the sessions. -/
structure StateResetValues where
  objectContextId : Nat := 0
  clearCount : Nat := 0
  restartCount : Nat := 0
  commandAuditDigest : Bytes := []
  commitCounter : Nat := 0

/-- The values that a Resume is to bring back; of the banks the state-saved PCRs that are allocated. -/
structure StateValues where
  ram : List RamEntry
  gc : StateClearData
  gr : StateResetValues
  pcrCounter : Nat
  contextCounter : Nat
  pcrs : HashAlg → Nat → Option Bytes

/-- The values once a Resume has counted itself: PCRs 17 to 20 are not saved, and each of them counts. -/
def StateValues.resumed (v : StateValues) : StateValues :=
  { v with
    gr := { v.gr with restartCount := (v.gr.restartCount + 1) % 2 ^ 32 }
    pcrCounter := (v.pcrCounter + 4) % 2 ^ 32 }

/-- The state-saved PCRs of an allocation, where `value` finds them. -/
def savedReading (pcrAllocated : List PcrSelection) (value : HashAlg → Nat → Bytes) (alg : HashAlg) (pcr : Nat) :
    Option Bytes :=
  if pcrIsStateSaved pcr && ({ pcrAllocated } : PcrState).pcrIsAllocated pcr alg then some (value alg pcr) else none

/-- `TPMI_RH_ENABLES`. -/
inductive Enables
  | owner | endorsement | platform | platformNv

/-- `PCRIsAllocated` of the banks that a command writes, and `PCRChanged` counts. -/
def PcrCommand.counts (P : PcrState) : PcrCommand → Bool
  | .pcrExtend (some pcr) digests => !pcrBelongsTcbGroup pcr && digests.any fun d => P.pcrIsAllocated pcr d.1
  | .pcrEvent (some pcr) _ | .eventSequenceComplete (some pcr) _ =>
      !pcrBelongsTcbGroup pcr && PcrState.hashAlgs.any fun alg => P.pcrIsAllocated pcr alg
  | .pcrReset pcr => !pcrBelongsTcbGroup pcr
  | _ => false

/-- The commands of `NVCommands.c` and those on persistent objects. -/
def NvCommand.isOnIndices : NvCommand → Bool
  | .clear _ | .shutdown _ | .startup _ | .status _ | .phEnableNv _ => false
  | _ => true

/-! ## The machine -/

/-- The four structures with their copies in NV, under one recorded orderly state, which is that of `nv`. Before a
command on sessions theirs is set to it. -/
structure PowerMachine where
  mode : TpmMode := .off
  nv : NvDevice := {}
  sessions : SessionMachine
  pcr : PcrState := {}
  gc : StateClearData := {}
  gr : StateResetValues := {}
  phEnable : Bool := true
  pcrReConfig : Bool := false
  auditHashAlg : HashAlg := .sha512
  nvAllocated : List PcrSelection := manufacturedBanks
  savedGc : StateClearData := {}
  savedGr : StateResetValues := {}
  savedCounter : Nat := 0
  savedPcrs : HashAlg → Nat → Bytes := fun _ _ => []
  /-- What the TPM held when it last ceased to run. -/
  lost : Option StateValues := none

/-- A command, and what it asks of other modules. An audited command is followed by its `commandAudit`;
`ecEphemeral` commits to each point at infinity that it skips; `other` is a command that touches none of the four
structures, which may end the orderly state, as the use of a DA-protected entity does. -/
inductive PowerCommand
  | nv (cmd : { cmd : NvCommand // cmd.isOnIndices = true })
  | pinCount (nvIndex : TpmHandle) (pinData : Nat)
  | startAuthSession (sessionType : SessionType) (checks : Option TpmRc) (session : Session)
  | contextSave (handle : TpmHandle)
  | objectContextSave
  | contextLoad (integrity : Option TpmRc) (context : SessionContext)
  | flushContext (handle : TpmHandle)
  | useSession (handle : TpmHandle) (f : Session → Session) (continueSession : Bool)
  | pcr (locality : UInt8) (cmd : PcrCommand)
  | pcrAllocate (pcrAllocation : List PcrSelection)
  | pcrSetAuthValue (pcrHandle : Fin 24) (auth : Tpm2bAuth)
  | hierarchyControl (authHandle : Hierarchy) (enable : Enables) (state : Bool)
  | setPrimaryPolicy (authHandle : Hierarchy) (authPolicy : Bytes) (hashAlg : Option HashAlg)
  | hierarchyChangeAuth (authHandle : Hierarchy) (newAuth : Tpm2bAuth)
  | changePps
  | changeEps
  | clear (disableClear : Bool)
  | commit (checks : Option TpmRc)
  | ecEphemeral (skipped : Nat)
  | commandAudit (cpHash rpHash : Bytes)
  | getCommandAuditDigest (checks : Option TpmRc) (isSigned : Bool)
  | setAuditHashAlg (auditAlg : HashAlg)
  | shutdown (shutdownType : ShutdownType)
  | other (endsOrderly : Bool)

/-- Memory holds anything after a loss of power. -/
inductive PowerEvent
  | powerLoss (memory : PcrState) (gc : StateClearData) (gr : StateResetValues)
  | hashSequence (data : Bytes)
  | startup (nvStatus : Option RcCode) (startupType : ShutdownType) (nvOk : Bool) (sameStart : Option TpmRc)
      (locality : UInt8)
  | command (nvStatus : Option RcCode) (cmd : PowerCommand)

namespace PowerMachine

def initial (mask : Nat) : PowerMachine := { sessions := .initial mask, pcr := { pcrAllocated := manufacturedBanks } }

/-- `gp.orderlyState`, while that is orderly. -/
def recorded (m : PowerMachine) : Option ShutdownType := if m.nv.orderly then some m.nv.shutdownType else none

/-- The values in RAM. -/
def held (m : PowerMachine) : StateValues where
  ram := m.nv.nv.ram
  gc := m.gc
  gr := m.gr
  pcrCounter := m.pcr.pcrCounter
  contextCounter := m.sessions.table.contextCounter
  pcrs := savedReading m.pcr.pcrAllocated m.pcr.pcrs

/-- The values in NV, as a start is going to find them. -/
def saved (m : PowerMachine) : StateValues where
  ram := m.nv.savedRam
  gc := m.savedGc
  gr := m.savedGr
  pcrCounter := m.savedCounter
  contextCounter := m.sessions.stateResetData.contextCounter
  pcrs := savedReading m.nvAllocated fun alg pcr => m.savedPcrs alg (saveIndex pcr)

/-- `FAIL`, after which nothing of the command is committed. -/
def fail (m : PowerMachine) : PowerMachine := { m with mode := .failed, lost := some m.held }

/-- `g_clearOrderly` on the way out. -/
def endOrderly (m : PowerMachine) : PowerMachine := { m with nv := { m.nv with orderly := false } }

/-- `RETURN_IF_ORDERLY`, before what the command goes on to do. -/
def unlessOrderly (nvStatus : Option RcCode) (f : PowerMachine → PowerMachine) (m : PowerMachine) : PowerMachine :=
  if m.nv.orderly && nvStatus.isSome then m else f m.endOrderly

/-- NV with its status and the enable of the platform. -/
def device (nvStatus : Option RcCode) (m : PowerMachine) : NvDevice :=
  { m.nv with
    phEnableNv := m.gc.phEnableNv
    nv := { m.nv.nv with nvStatus := nvStatus.map fun code => { code } } }

def onNv (r : NvOutcome) (m : PowerMachine) : PowerMachine :=
  match r with
  | (.ok _, nv) | (.error (.rc _), nv) => { m with nv }
  | _ => m.fail

def onSessions (f : SessionMachine → SessionOutcome) (m : PowerMachine) : PowerMachine :=
  match f { m.sessions with orderly := m.recorded } with
  | (.ok _, sessions) | (.error (.rc _), sessions) =>
      { m with sessions, nv := { m.nv with orderly := m.nv.orderly && sessions.orderly.isSome } }
  | _ => m.fail

def onBanks (r : Except Fault PcrState) (m : PowerMachine) : PowerMachine :=
  match r with
  | .ok pcr => { m with pcr }
  | .error _ => m.fail

def isEnabled (enable : Enables) (m : PowerMachine) : Bool :=
  match enable with
  | .owner => m.gc.shEnable
  | .endorsement => m.gc.ehEnable
  | .platform => m.phEnable
  | .platformNv => m.gc.phEnableNv

/-- The checks of `TPM2_HierarchyControl`, with `TPM_RH_PLATFORM_NV`. -/
def hierarchyControlChecks (authHandle : Hierarchy) (enable : Enables) (state : Bool) (m : PowerMachine) :
    Except Fault Unit :=
  match enable with
  | .platform | .platformNv => demand (authHandle == .platform) (.of .authType)
  | .owner => do
      demand (authHandle == .platform || authHandle == .owner) (.of .authType)
      demand (m.isEnabled enable || !state || authHandle == .platform) (.of .authType)
  | .endorsement => do
      demand (authHandle == .platform || authHandle == .endorsement) (.of .authType)
      demand (m.isEnabled enable || !state || authHandle == .platform) (.of .authType)

/-- `TPM2_HierarchyControl` once it has been checked. -/
def enableHierarchy (enable : Enables) (state : Bool) (m : PowerMachine) : PowerMachine :=
  match enable with
  | .owner => { m with gc := { m.gc with shEnable := state } }
  | .endorsement => { m with gc := { m.gc with ehEnable := state } }
  | .platform => { m with phEnable := state }
  | .platformNv => { m with gc := { m.gc with phEnableNv := state } }

/-- `NvFlushHierarchy` with the writes that follow a deletion. -/
def flushHierarchy (hierarchy : Hierarchy) (m : PowerMachine) : PowerMachine :=
  match nvFlushHierarchy hierarchy m.nv.nv with
  | .error _ => m.fail
  | .ok nv =>
      let after : NvDevice := { m.nv with nv }
      let after := if nv.user.length = m.nv.nv.user.length then after else after.writeListEnd
      { m with nv := if nv.ram.length = m.nv.nv.ram.length then after else after.saveRam }

/-- `TPM2_Shutdown`. -/
def shutdown (nvStatus : Option RcCode) (shutdownType : ShutdownType) (m : PowerMachine) : PowerMachine :=
  match m.sessions.shutdown nvStatus m.pcrReConfig shutdownType with
  | (.error _, _) => m
  | (.ok _, sessions) =>
      let m := { m with sessions, nv := { m.nv.saveRam with orderly := true, shutdownType } }
      if shutdownType = .state then
        { m with
          pcr := m.pcr.pcrStateSave
          savedGc := m.gc
          savedGr := m.gr
          savedCounter := m.pcr.pcrCounter
          savedPcrs := m.pcr.pcrStateSave.pcrSave }
      else m

section
variable {σ : Type} (hs : HashStateCodec σ) (L : RawLayout) (H : PolicyHash)

/-- A command of a TPM that is running. -/
def act (nvStatus : Option RcCode) (m : PowerMachine) : PowerCommand → PowerMachine
  | .nv cmd => m.onNv (cmd.val.act hs L H (m.device nvStatus))
  | .pinCount nvIndex pinData =>
      match m.nv.index nvIndex with
      | .error _ => m
      | .ok (i, old) => m.onNv ((m.device nvStatus).writeIndexData i old 0 (be 8 pinData))
  | .startAuthSession sessionType checks session => m.onSessions (·.startAuthSession sessionType checks session)
  | .contextSave handle => m.onSessions (·.contextSave nvStatus handle)
  | .objectContextSave =>
      m.unlessOrderly nvStatus fun m =>
        let objectContextId := (m.gr.objectContextId + 1) % 2 ^ 64
        if objectContextId = 0 then m.fail else { m with gr := { m.gr with objectContextId } }
  | .contextLoad integrity context => m.onSessions (·.contextLoad nvStatus integrity context)
  | .flushContext handle => m.onSessions (·.flushContext handle)
  | .useSession handle f continueSession => m.onSessions (·.useSession handle f continueSession)
  | .pcr locality cmd =>
      if cmd.isAllowed locality = false then m
      else if cmd.endsOrderly then m.unlessOrderly nvStatus fun m => m.onBanks (cmd.update H m.pcr)
      else m.onBanks (cmd.update H m.pcr)
  | .pcrAllocate pcrAllocation =>
      if nvStatus.isSome then m
      else
        match PqcTpm.pcrAllocate pcrAllocation m.pcr.pcrAllocated with
        | .error _ => m
        | .ok nvAllocated => { m with nvAllocated, pcrReConfig := true }
  | .pcrSetAuthValue pcrHandle auth =>
      match pcrBelongsAuthGroup pcrHandle with
      | none => m
      | some group =>
          m.unlessOrderly nvStatus fun m =>
            let pcrAuthValues := Function.update m.gc.pcrAuthValues group (removeTrailingZeros auth)
            { m with gc := { m.gc with pcrAuthValues } }
  | .hierarchyControl authHandle enable state =>
      if (m.hierarchyControlChecks authHandle enable state).isOk && m.isEnabled enable != state then
        m.unlessOrderly nvStatus fun m => m.enableHierarchy enable state
      else m
  | .setPrimaryPolicy authHandle authPolicy hashAlg =>
      if authPolicy.length ≠ (hashAlg.elim 0 HashAlg.digestSize) ∨ nvStatus.isSome ∨ authHandle ≠ .platform then m
      else { m.endOrderly with gc := { m.gc with platformAlg := hashAlg, platformPolicy := authPolicy } }
  | .hierarchyChangeAuth authHandle newAuth =>
      let platformAuth := removeTrailingZeros newAuth
      if nvStatus.isSome ∨ 64 < platformAuth.size ∨ authHandle ≠ .platform then m
      else { m.endOrderly with gc := { m.gc with platformAuth } }
  | .changePps =>
      if nvStatus.isSome then m
      else
        let gc := { m.gc with platformAlg := none, platformPolicy := [] }
        { m with gc }.endOrderly.flushHierarchy .platform
  | .changeEps =>
      if nvStatus.isSome then m
      else { m with gc := { m.gc with ehEnable := true } }.endOrderly.flushHierarchy .endorsement
  | .clear disableClear =>
      match (m.device nvStatus).clear disableClear with
      | (.error (.rc _), _) => m
      | (.error _, _) => m.fail
      | (.ok _, nv) =>
          match m.pcr.pcrChanged 0 with
          | .error _ => m.fail
          | .ok pcr =>
              { m with
                nv
                pcr
                gc := { m.gc with shEnable := true, ehEnable := true, pcrAuthValues := fun _ => .empty }
                gr := { m.gr with clearCount := 0, restartCount := 0 } }
  | .commit checks =>
      if checks.isSome then m
      else { m with gr := { m.gr with commitCounter := (m.gr.commitCounter + 1) % 2 ^ 64 } }
  | .ecEphemeral skipped =>
      { m with gr := { m.gr with commitCounter := (m.gr.commitCounter + (skipped + 1)) % 2 ^ 64 } }
  | .commandAudit cpHash rpHash =>
      let digest :=
        if m.gr.commandAuditDigest = [] then List.replicate m.auditHashAlg.digestSize 0 else m.gr.commandAuditDigest
      { m with gr := { m.gr with commandAuditDigest := H.hash m.auditHashAlg (digest ++ cpHash ++ rpHash) } }
  | .getCommandAuditDigest checks isSigned =>
      if checks.isNone && isSigned then { m with gr := { m.gr with commandAuditDigest := [] } } else m
  | .setAuditHashAlg auditAlg =>
      if nvStatus.isSome ∨ auditAlg = m.auditHashAlg then m
      -- the digest size of one that the command leaves is read, and set to zero, when the command itself is audited
      else { m with auditHashAlg := auditAlg, gr := { m.gr with commandAuditDigest := [] } }
  | .shutdown shutdownType => m.shutdown nvStatus shutdownType
  | .other endsOrderly => if endsOrderly then m.endOrderly else m

/-- The banks with what `NvRead` brings back of `gr` and `gc`. -/
def restored (m : PowerMachine) : StartupKind → PcrState
  | .reset => m.pcr
  | .restart => { m.pcr with pcrCounter := m.savedCounter }
  | .resume => { m.pcr with pcrCounter := m.savedCounter, pcrSave := m.savedPcrs }

/-- The counters of `gr` as each kind of start leaves them. -/
def startedGr (m : PowerMachine) : StartupKind → StateResetValues
  | .resume => { m.savedGr with restartCount := (m.savedGr.restartCount + 1) % 2 ^ 32 }
  | .restart =>
      { m.savedGr with
        clearCount := (m.savedGr.clearCount + 1) % 2 ^ 32
        restartCount := (m.savedGr.restartCount + 1) % 2 ^ 32 }
  | .reset => {}

/-- `TPM2_Startup`. -/
def startup (nvStatus : Option RcCode) (startupType : ShutdownType) (nvOk : Bool) (sameStart : Option TpmRc)
    (locality : UInt8) (m : PowerMachine) : PowerMachine :=
  if locality ≠ 0 ∧ locality ≠ 3 then m
  else
    match { m.sessions with orderly := m.recorded }.startup nvStatus startupType nvOk sameStart with
    | (.error _, _) => m
    | (.ok _, sessions) =>
        let kind := startupKindOf m.recorded startupType nvOk
        match (m.restored kind).pcrStartup kind (if m.pcr.drtmPreStartup then 0 else locality) with
        | .error _ => { m with mode := .failed }
        | .ok pcr =>
            { m with
              mode := .running
              nv := { m.nv.nvEntityStartup kind with orderly := false }
              sessions
              pcr
              gc := if kind = .resume then m.savedGc else {}
              gr := m.startedGr kind
              phEnable := true
              pcrReConfig := false }

/-- `_TPM_Hash_End` before the start. -/
def hashBefore (data : Bytes) (m : PowerMachine) : PowerMachine :=
  match m.pcr.hashEnd H false data with
  | .error _ => { m with mode := .failed }
  | .ok pcr => { m with pcr }

/-- What a DRTM sequence does to `gr`. -/
def countRestart (m : PowerMachine) : PowerMachine :=
  { m with gr := { m.gr with restartCount := (m.gr.restartCount + 1) % 2 ^ 32 } }

def step (m : PowerMachine) (e : PowerEvent) : PowerMachine :=
  match m.mode, e with
  | mode, .powerLoss memory gc gr =>
      { m with
        mode := .off
        pcr := { memory with pcrAllocated := m.nvAllocated, drtmPreStartup := false }
        gc
        gr
        lost := if mode = .running then some m.held else m.lost }
  | .off, .startup nvStatus startupType nvOk sameStart locality =>
      m.startup nvStatus startupType nvOk sameStart locality
  | .off, .hashSequence data => m.hashBefore H data
  | .running, .hashSequence data => m.countRestart.onBanks (m.pcr.hashEnd H true data)
  | .running, .command nvStatus cmd => m.act hs L H nvStatus cmd
  | _, _ => m

end
end PowerMachine

/-! ## Commands that forget the orderly state -/

/-- A lock is set on an orderly index. -/
def NvDevice.locksRam (d : NvDevice) : NvCommand → Bool
  | .nvWriteLock authHandle nvIndex =>
      match d.index nvIndex with
      | .error _ => false
      | .ok (i, _) =>
          i.orderly && (nvWriteAccessChecks authHandle nvIndex i).isOk && (i.isAttribute 13 || i.isAttribute 14)
  | .nvReadLock authHandle nvIndex =>
      match d.index nvIndex with
      | .error _ => false
      | .ok (i, _) =>
          i.orderly && nvReadAccessChecks authHandle nvIndex i != .error (.of .nvAuthorization) &&
            nvReadAccessChecks authHandle nvIndex i != .error (.of .nvLocked) && i.isAttribute 31
  | .nvGlobalWriteLock => d.nv.ram.any fun r => lockGlobally r.attributes != r.attributes
  | _ => false

/-- A state-saved PCR becomes allocated, or ceases to be. -/
def reallocates (banks banks' : List PcrSelection) : Bool :=
  PcrState.hashAlgs.any fun alg => savedPcrs.any fun pcr =>
    ({ pcrAllocated := banks' } : PcrState).pcrIsAllocated pcr alg !=
      ({ pcrAllocated := banks } : PcrState).pcrIsAllocated pcr alg

namespace PowerMachine

/-- The command goes through, changes what a Resume is to bring back, and does not end the orderly state. -/
def forgets (nvStatus : Option RcCode) (m : PowerMachine) : PowerCommand → Bool
  | .nv cmd => (m.device nvStatus).locksRam cmd.val
  | .pcr locality cmd => cmd.isAllowed locality && !cmd.endsOrderly && cmd.counts m.pcr
  | .pcrAllocate pcrAllocation =>
      nvStatus.isNone &&
        reallocates m.pcr.pcrAllocated (pcrAllocation.foldl (fun banks a => replaceBank a banks) m.pcr.pcrAllocated)
  | .commit checks => checks.isNone
  | .ecEphemeral _ | .commandAudit _ _ => true
  | .getCommandAuditDigest checks isSigned => checks.isNone && isSigned && m.gr.commandAuditDigest != []
  | .setAuditHashAlg auditAlg => nvStatus.isNone && auditAlg != m.auditHashAlg && m.gr.commandAuditDigest != []
  | _ => false

/-- While `TPM_SU_STATE` is recorded, nothing happens that forgets it; a DRTM sequence counts in `gr`. -/
def Mindful (m : PowerMachine) (e : PowerEvent) : Prop :=
  m.mode = .running → m.recorded = some .state →
    match e with
    | .hashSequence _ => False
    | .command nvStatus cmd => m.forgets nvStatus cmd = false
    | _ => True

end PowerMachine

/-! ## NV -/

namespace NvDevice
variable {d d' : NvDevice}

/-- What is left orderly was so before, and RAM is as it is saved if it was. -/
structure Stays (d d' : NvDevice) : Prop where
  orderly : d'.orderly = true → d.orderly = true
  shutdownType : d'.shutdownType = d.shutdownType
  ram : d'.orderly = true → d.nv.ram = d.savedRam → d'.nv.ram = d'.savedRam

theorem Stays.refl (d : NvDevice) : d.Stays d := ⟨id, rfl, fun _ => id⟩

theorem Stays.of_ram (horderly : d'.orderly = d.orderly) (htype : d'.shutdownType = d.shutdownType)
    (hram : d'.nv.ram = d.nv.ram) (hsaved : d'.savedRam = d.savedRam) : d.Stays d' := by
  refine ⟨fun h => horderly ▸ h, htype, fun _ h => ?_⟩
  rw [hram, hsaved]
  exact h

theorem Stays.ended (hended : d'.orderly = false) (htype : d'.shutdownType = d.shutdownType) : d.Stays d' := by
  refine ⟨fun h => ?_, htype, fun h => ?_⟩
  · exact absurd (hended.symm.trans h) (by decide)
  · exact absurd (hended.symm.trans h) (by decide)

theorem Stays.saveRam (horderly : d'.orderly = d.orderly) (htype : d'.shutdownType = d.shutdownType) :
    d.Stays d'.saveRam := ⟨fun h => horderly ▸ h, htype, fun _ _ => rfl⟩

theorem writeIndexData_stays (i : NvIndex) (old : Bytes) (offset : Nat) (new : Bytes) :
    d.Stays (d.writeIndexData i old offset new).2 := by
  unfold writeIndexData
  dsimp only
  split
  · exact .refl d
  · split
    · refine .ended rfl ?_
      dsimp only
      split <;> rfl
    · split
      · split
        · exact .refl d
        · split
          · exact .refl d
          · exact .of_ram rfl rfl rfl rfl
      · split
        · exact .refl d
        · exact .of_ram rfl rfl rfl rfl

theorem nvWrite_stays (authHandle nvIndex : TpmHandle) (offset : Nat) (data : Bytes) :
    d.Stays (d.nvWrite authHandle nvIndex offset data).2 := by
  unfold nvWrite
  split
  · exact .refl d
  · dsimp only
    split
    · exact .refl d
    · exact writeIndexData_stays ..

theorem nvSetBits_stays (authHandle nvIndex : TpmHandle) (bits : Nat) :
    d.Stays (d.nvSetBits authHandle nvIndex bits).2 := by
  unfold nvSetBits
  split
  · exact .refl d
  · dsimp only
    split
    · exact .refl d
    · exact writeIndexData_stays ..

theorem nvExtend_stays (H : PolicyHash) (authHandle nvIndex : TpmHandle) (data : Bytes) :
    d.Stays (d.nvExtend H authHandle nvIndex data).2 := by
  unfold nvExtend
  split
  · exact .refl d
  · dsimp only
    split
    · exact .refl d
    · exact writeIndexData_stays ..

theorem nvIncrement_stays (authHandle nvIndex : TpmHandle) : d.Stays (d.nvIncrement authHandle nvIndex).2 := by
  unfold nvIncrement
  split
  · exact .refl d
  · dsimp only
    split
    · exact .refl d
    · rename_i i old _ _ count _
      have hwrite := writeIndexData_stays (d := d) i old 0 (be 8 ((count + 1) % 2 ^ 64))
      split
      · rename_i heq
        rw [heq] at hwrite
        exact hwrite
      · rename_i heq
        rw [heq] at hwrite
        dsimp only
        split
        · exact ⟨hwrite.orderly, hwrite.shutdownType, fun _ _ => rfl⟩
        · exact hwrite

theorem nvDefineSpace_stays (authHandle : TpmHandle) (auth : Tpm2bAuth) (publicInfo : NvPublic) (residue : Bytes) :
    d.Stays (d.nvDefineSpace authHandle auth publicInfo residue).2 := by
  unfold nvDefineSpace
  dsimp only
  split
  · exact .refl d
  · split
    · exact .refl d
    · split
      · exact .refl d
      · rename_i nv hdefine
        dsimp only
        split
        · exact .saveRam rfl rfl
        · rename_i ho
          obtain rfl := nvDefineIndex_ok hdefine
          refine .of_ram rfl rfl ?_ rfl
          unfold newRam
          rw [if_neg ho]
          exact List.append_nil _

theorem deleteIndex_stays (i : NvIndex) (data : Bytes) : d.Stays (d.deleteIndex i data).2 := by
  unfold deleteIndex
  split
  · exact .refl d
  · rename_i retired hretired
    obtain ⟨-, hram, -⟩ := retireCounter_ok hretired
    split
    · exact .of_ram rfl rfl hram rfl
    · rename_i nv hdelete
      dsimp only
      split
      · exact .saveRam rfl rfl
      · rename_i ho
        obtain ⟨-, -, -, hram'⟩ := nvDeleteIndex_ok hdelete
        rw [if_neg ho] at hram'
        exact .of_ram rfl rfl hram' rfl

theorem nvUndefineSpace_stays (authHandle nvIndex : TpmHandle) : d.Stays (d.nvUndefineSpace authHandle nvIndex).2 := by
  unfold nvUndefineSpace
  split
  · exact .refl d
  · split
    · exact .refl d
    · split
      · exact .refl d
      · exact deleteIndex_stays ..

theorem nvUndefineSpaceSpecial_stays (nvIndex : TpmHandle) : d.Stays (d.nvUndefineSpaceSpecial nvIndex).2 := by
  unfold nvUndefineSpaceSpecial
  split
  · exact .refl d
  · split
    · exact deleteIndex_stays ..
    · exact .refl d

theorem nvChangeAuth_stays (nvIndex : TpmHandle) (newAuth : Tpm2bAuth) :
    d.Stays (d.nvChangeAuth nvIndex newAuth).2 := by
  unfold nvChangeAuth
  split
  · exact .refl d
  · dsimp only
    split
    · exact .refl d
    · split
      · exact .refl d
      · split
        · exact .refl d
        · exact .of_ram rfl rfl rfl rfl

theorem addEvict_stays {σ : Type} (hs : HashStateCodec σ) (L : RawLayout) (level : Nat) (handle : TpmHandle)
    (o : Object) : d.Stays (d.addEvict hs L level handle o).2 := by
  unfold addEvict
  split
  · exact .refl d
  · split
    · exact .refl d
    · rename_i nv hadd
      unfold nvAddEvictObject at hadd
      dsimp only at hadd
      split at hadd
      · obtain ⟨-, rfl⟩ := nvAdd_ok hadd
        exact .of_ram rfl rfl rfl rfl
      · cases hadd

theorem deleteEvict_stays (handle : TpmHandle) : d.Stays (d.deleteEvict handle).2 := by
  unfold deleteEvict
  split
  · split
    · exact .refl d
    · rename_i nv hdelete
      obtain ⟨-, rfl⟩ := nvDelete_ok hdelete
      exact .of_ram rfl rfl rfl rfl
  · exact .refl d

/-! ### Locks -/

theorem writeIndexAttributes_stays {i : NvIndex} (ho : i.orderly = false) (attributes : UInt32) :
    d.Stays (d.writeIndexAttributes i attributes).2 := by
  unfold writeIndexAttributes
  dsimp only
  rw [if_neg (by simp [ho])]
  split
  · exact .refl d
  · split
    · exact .refl d
    · exact .of_ram rfl rfl rfl rfl

theorem nvWriteLock_stays {authHandle nvIndex : TpmHandle} (hlock : d.locksRam (.nvWriteLock authHandle nvIndex) = false) :
    d.Stays (d.nvWriteLock authHandle nvIndex).2 := by
  simp only [locksRam] at hlock
  unfold nvWriteLock
  split
  · exact .refl d
  · rename_i i data hindex
    rw [hindex] at hlock
    dsimp only at hlock
    split
    · exact .refl d
    · rename_i hchecks
      split
      · rename_i hattribute
        refine writeIndexAttributes_stays ?_ _
        rw [hchecks, hattribute] at hlock
        simpa [Except.isOk, Except.toBool] using hlock
      · exact .refl d

theorem nvReadLock_stays {authHandle nvIndex : TpmHandle} (hlock : d.locksRam (.nvReadLock authHandle nvIndex) = false) :
    d.Stays (d.nvReadLock authHandle nvIndex).2 := by
  simp only [locksRam] at hlock
  unfold nvReadLock
  split
  · exact .refl d
  · rename_i i data hindex
    rw [hindex] at hlock
    dsimp only at hlock
    split
    · exact .refl d
    · exact .refl d
    · rename_i hauthorized hlocked
      split
      · rename_i hattribute
        refine writeIndexAttributes_stays ?_ _
        have hne : nvReadAccessChecks authHandle nvIndex i ≠ .error (.of .nvAuthorization) := hauthorized 0
        have hne' : nvReadAccessChecks authHandle nvIndex i ≠ .error (.of .nvLocked) := hlocked 0
        simpa [hne, hne', hattribute] using hlock
      · exact .refl d

theorem nvGlobalWriteLock_stays (hlock : d.locksRam .nvGlobalWriteLock = false) : d.Stays d.nvGlobalWriteLock.2 := by
  have hram : d.nv.ram.map (fun r => { r with attributes := lockGlobally r.attributes }) = d.nv.ram := by
    refine (List.map_congr_left fun r hr => ?_).trans (List.map_id _)
    have hsame := List.any_eq_false.1 hlock r hr
    have hattributes : lockGlobally r.attributes = r.attributes := by simpa using hsame
    rw [hattributes]
    rfl
  have hmap : ∀ f, d.Stays (d.mapAttributes f lockGlobally) := fun f => .of_ram rfl rfl hram rfl
  unfold nvGlobalWriteLock
  split
  · exact hmap _
  · dsimp only
    split
    · exact .refl d
    · exact hmap _

theorem act_stays {σ : Type} (hs : HashStateCodec σ) (L : RawLayout) (H : PolicyHash) {cmd : NvCommand}
    (hcmd : cmd.isOnIndices = true) (hlock : d.locksRam cmd = false) : d.Stays (cmd.act hs L H d).2 := by
  cases cmd with
  | nvDefineSpace authHandle auth publicInfo residue => exact nvDefineSpace_stays ..
  | nvUndefineSpace authHandle nvIndex => exact nvUndefineSpace_stays ..
  | nvUndefineSpaceSpecial nvIndex => exact nvUndefineSpaceSpecial_stays ..
  | nvWrite authHandle nvIndex offset data => exact nvWrite_stays ..
  | nvIncrement authHandle nvIndex => exact nvIncrement_stays ..
  | nvSetBits authHandle nvIndex bits => exact nvSetBits_stays ..
  | nvExtend authHandle nvIndex data => exact nvExtend_stays ..
  | nvWriteLock authHandle nvIndex => exact nvWriteLock_stays hlock
  | nvReadLock authHandle nvIndex => exact nvReadLock_stays hlock
  | nvGlobalWriteLock => exact nvGlobalWriteLock_stays hlock
  | nvChangeAuth nvIndex newAuth => exact nvChangeAuth_stays ..
  | addEvict level handle o storable persistent => exact addEvict_stays ..
  | deleteEvict handle => exact deleteEvict_stays ..
  | clear | shutdown | startup | status | phEnableNv => cases hcmd

theorem writeIndexAttributes_kept (i : NvIndex) (attributes : UInt32) :
    (d.writeIndexAttributes i attributes).2.orderly = d.orderly ∧
      (d.writeIndexAttributes i attributes).2.shutdownType = d.shutdownType := by
  unfold writeIndexAttributes
  dsimp only
  split
  · exact ⟨rfl, rfl⟩
  · split
    · exact ⟨rfl, rfl⟩
    · split <;> exact ⟨rfl, rfl⟩

/-- A lock leaves what is recorded, whatever it does to RAM. -/
theorem lock_kept {σ : Type} (hs : HashStateCodec σ) (L : RawLayout) (H : PolicyHash) {cmd : NvCommand}
    (hlock : d.locksRam cmd = true) :
    (cmd.act hs L H d).2.orderly = d.orderly ∧ (cmd.act hs L H d).2.shutdownType = d.shutdownType := by
  cases cmd with
  | nvWriteLock authHandle nvIndex =>
      simp only [NvCommand.act]
      unfold nvWriteLock
      split
      · exact ⟨rfl, rfl⟩
      · split
        · exact ⟨rfl, rfl⟩
        · split
          · exact writeIndexAttributes_kept ..
          · exact ⟨rfl, rfl⟩
  | nvReadLock authHandle nvIndex =>
      simp only [NvCommand.act]
      unfold nvReadLock
      split
      · exact ⟨rfl, rfl⟩
      · split
        · exact ⟨rfl, rfl⟩
        · exact ⟨rfl, rfl⟩
        · split
          · exact writeIndexAttributes_kept ..
          · exact ⟨rfl, rfl⟩
  | nvGlobalWriteLock =>
      simp only [NvCommand.act]
      unfold nvGlobalWriteLock
      split
      · exact ⟨rfl, rfl⟩
      · dsimp only
        split <;> exact ⟨rfl, rfl⟩
  | _ => cases hlock

theorem act_kept {σ : Type} (hs : HashStateCodec σ) (L : RawLayout) (H : PolicyHash) {cmd : NvCommand}
    (hcmd : cmd.isOnIndices = true) :
    ((cmd.act hs L H d).2.orderly = true → d.orderly = true) ∧ (cmd.act hs L H d).2.shutdownType = d.shutdownType := by
  cases hlock : d.locksRam cmd with
  | false =>
      have hstays := act_stays hs L H hcmd hlock
      exact ⟨hstays.orderly, hstays.shutdownType⟩
  | true =>
      obtain ⟨horderly, htype⟩ := lock_kept hs L H hlock
      exact ⟨fun h => horderly ▸ h, htype⟩

end NvDevice

/-! ## Sessions -/

namespace SessionMachine
variable {s s' : SessionMachine}

/-- The counter moves only where the orderly state ends. -/
structure Stays (s s' : SessionMachine) : Prop where
  contextCounter : s'.orderly ≠ none → s'.table.contextCounter = s.table.contextCounter
  stateResetData : s'.stateResetData = s.stateResetData

theorem Stays.refl (s : SessionMachine) : s.Stays s := ⟨fun _ => rfl, rfl⟩

theorem contextCounter_release (v : Nat) (t : SessionTable) : (t.release v).contextCounter = t.contextCounter := by
  unfold SessionTable.release
  split <;> rfl

theorem startAuthSession_stays (sessionType : SessionType) (checks : Option TpmRc) (session : Session) :
    s.Stays (s.startAuthSession sessionType checks session).2 := by
  have hcreate : ∀ k, (s.table.contextIdSessionCreate k).2.contextCounter = s.table.contextCounter := by
    intro k
    unfold SessionTable.contextIdSessionCreate
    split
    · rfl
    · split <;> rfl
  have hcounter : (s.table.sessionCreate sessionType session).2.contextCounter = s.table.contextCounter := by
    unfold SessionTable.sessionCreate
    split
    · rfl
    · split
      · rfl
      · rename_i k _
        have hk := hcreate k
        split
        · rename_i heq
          rw [heq] at hk
          exact hk
        · rename_i heq
          rw [heq] at hk
          exact hk
  unfold startAuthSession
  split
  · exact .refl s
  · split
    · rename_i heq
      rw [heq] at hcounter
      exact ⟨fun _ => hcounter, rfl⟩
    · rename_i heq
      rw [heq] at hcounter
      exact ⟨fun _ => hcounter, rfl⟩

theorem contextSave_stays (nvStatus : Option RcCode) (handle : TpmHandle) :
    s.Stays (s.contextSave nvStatus handle).2 := by
  unfold contextSave
  split
  · exact .refl s
  · split
    · exact .refl s
    · split
      · exact .refl s
      · dsimp only
        split
        · exact ⟨fun h => absurd rfl h, rfl⟩
        · split
          · exact ⟨fun h => absurd rfl h, rfl⟩
          · exact ⟨fun h => absurd rfl h, rfl⟩

theorem contextLoad_stays (nvStatus : Option RcCode) (integrity : Option TpmRc) (context : SessionContext) :
    s.Stays (s.contextLoad nvStatus integrity context).2 := by
  unfold contextLoad
  split
  · exact .refl s
  · split
    · exact .refl s
    · split
      · exact .refl s
      · dsimp only
        split
        · exact ⟨fun h => absurd rfl h, rfl⟩
        · exact ⟨fun h => absurd rfl h, rfl⟩
        · split
          · exact ⟨fun h => absurd rfl h, rfl⟩
          · exact ⟨fun h => absurd rfl h, rfl⟩

theorem flush_stays (handle : TpmHandle) : s.Stays (s.flush handle).2 := by
  have hcounter : (s.table.sessionFlush handle).2.contextCounter = s.table.contextCounter := by
    unfold SessionTable.sessionFlush
    split
    · rfl
    · split
      · rfl
      · dsimp only
        split
        · dsimp only
          split <;> rfl
        · exact contextCounter_release ..
  unfold flush
  split
  · rename_i heq
    rw [heq] at hcounter
    exact ⟨fun _ => hcounter, rfl⟩
  · rename_i heq
    rw [heq] at hcounter
    exact ⟨fun _ => hcounter, rfl⟩

theorem flushContext_stays (handle : TpmHandle) : s.Stays (s.flushContext handle).2 := by
  unfold flushContext
  split
  · exact .refl s
  · split
    · exact .refl s
    · exact flush_stays handle

theorem useSession_stays (handle : TpmHandle) (f : Session → Session) (continueSession : Bool) :
    s.Stays (s.useSession handle f continueSession).2 := by
  have hchange : s.Stays (s.change handle f) := by
    unfold SessionMachine.change
    split
    · exact .refl s
    · split
      · exact .refl s
      · exact ⟨fun _ => rfl, rfl⟩
  unfold useSession
  split
  · exact .refl s
  · split
    · exact .refl s
    · dsimp only
      split
      · exact hchange
      · have hflush := flush_stays (s := s.change handle f) handle
        refine ⟨fun h => (hflush.contextCounter h).trans (hchange.contextCounter ?_),
          hflush.stateResetData.trans hchange.stateResetData⟩
        rcases (flush_follows (m := s.change handle f) handle).orderly with hsame | hnone
        · exact hsame ▸ h
        · exact absurd hnone h

end SessionMachine

/-! ## Banks -/

namespace PcrState
variable {P P' : PcrState}

/-- Neither the counter nor the allocation nor a PCR that is saved has changed. -/
structure Stays (P P' : PcrState) : Prop where
  pcrCounter : P'.pcrCounter = P.pcrCounter
  allocated : P'.pcrAllocated = P.pcrAllocated
  pcrs : ∀ alg n, pcrIsStateSaved n = true → P'.pcrs alg n = P.pcrs alg n

theorem Stays.refl (P : PcrState) : P.Stays P := ⟨rfl, rfl, fun _ _ _ => rfl⟩

theorem Stays.trans {P'' : PcrState} (h : P.Stays P') (h' : P'.Stays P'') : P.Stays P'' :=
  ⟨h'.pcrCounter.trans h.pcrCounter, h'.allocated.trans h.allocated,
    fun alg n hn => (h'.pcrs alg n hn).trans (h.pcrs alg n hn)⟩

theorem Stays.reading (h : P.Stays P') :
    savedReading P'.pcrAllocated P'.pcrs = savedReading P.pcrAllocated P.pcrs := by
  funext alg n
  unfold savedReading
  rw [h.allocated]
  split
  · rename_i hboth
    rw [h.pcrs alg n (Bool.and_eq_true_iff.1 hboth).1]
  · rfl

theorem pcrChanged_stays {pcr : Nat} (hsaved : pcrIsStateSaved pcr = false) (htcb : pcrBelongsTcbGroup pcr = true)
    (h : P.pcrChanged pcr = .ok P') : P' = P := by
  have hne : pcr ≠ 0 := by
    rintro rfl
    exact absurd hsaved (by decide)
  unfold pcrChanged at h
  rw [if_neg (by simp [hne, htcb])] at h
  exact (Except.ok.inj h).symm

theorem pcrExtend_stays {H : PolicyHash} {pcr : Nat} {alg : HashAlg} {data : Bytes}
    (hsaved : pcrIsStateSaved pcr = false) (hquiet : pcrBelongsTcbGroup pcr = true ∨ P.pcrIsAllocated pcr alg = false)
    (h : P.pcrExtend H pcr alg data = .ok P') : P.Stays P' := by
  unfold pcrExtend at h
  split at h
  · rename_i hallocated
    have htcb := hquiet.resolve_right (by simp [hallocated])
    obtain rfl := pcrChanged_stays hsaved htcb h
    refine ⟨rfl, rfl, fun alg' n hn => if_neg fun hboth => ?_⟩
    rw [hboth.2, hsaved] at hn
    cases hn
  · cases h
    exact .refl P

theorem foldlM_pcrExtend_stays {α : Type} {H : PolicyHash} {pcr : Nat} (alg : α → HashAlg) (data : α → Bytes)
    {ds : List α} (hsaved : pcrIsStateSaved pcr = false)
    (hquiet : pcrBelongsTcbGroup pcr = true ∨ ∀ d ∈ ds, P.pcrIsAllocated pcr (alg d) = false)
    (h : ds.foldlM (fun P d => P.pcrExtend H pcr (alg d) (data d)) P = .ok P') : P.Stays P' := by
  refine foldlM_invariant (I := fun Q => P.Stays Q) ?_ (.refl P) h
  intro d hd Q Q' hQ hstep
  refine hQ.trans (pcrExtend_stays hsaved ?_ hstep)
  rw [pcrIsAllocated_congr hQ.allocated]
  exact hquiet.imp_right fun hall => hall d hd

end PcrState

/-- A command on a PCR that is not saved, and that counts nothing. -/
theorem PcrCommand.update_stays {H : PolicyHash} {P P' : PcrState} {cmd : PcrCommand} (hsaved : cmd.endsOrderly = false)
    (hquiet : cmd.counts P = false) (h : cmd.update H P = .ok P') : P.Stays P' := by
  cases cmd with
  | pcrExtend pcrHandle digests =>
      cases pcrHandle with
      | none =>
          cases h
          exact .refl P
      | some pcr =>
          refine PcrState.foldlM_pcrExtend_stays Prod.fst Prod.snd hsaved ?_ h
          simpa [PcrCommand.counts, imp_iff_not_or] using hquiet
  | pcrEvent pcrHandle eventData =>
      cases pcrHandle with
      | none =>
          cases h
          exact .refl P
      | some pcr =>
          refine PcrState.foldlM_pcrExtend_stays id (fun alg => H.hash alg eventData) hsaved ?_ h
          simpa [PcrCommand.counts, imp_iff_not_or] using hquiet
  | eventSequenceComplete pcrHandle results =>
      cases pcrHandle with
      | none =>
          cases h
          exact .refl P
      | some pcr =>
          refine PcrState.foldlM_pcrExtend_stays id results hsaved ?_ h
          simpa [PcrCommand.counts, imp_iff_not_or] using hquiet
  | pcrReset pcr =>
      have hnot : pcrIsStateSaved pcr = false := hsaved
      have htcb : pcrBelongsTcbGroup pcr = true := by simpa [PcrCommand.counts] using hquiet
      obtain rfl := PcrState.pcrChanged_stays hnot htcb h
      refine ⟨rfl, rfl, fun alg n hn => PcrState.setBanks_of_not ?_ _⟩
      refine beq_eq_false_iff_ne.2 ?_
      rintro rfl
      exact absurd (hnot.symm.trans hn) (by decide)

namespace PcrState
variable {P P' : PcrState}

theorem getElem?_saveIndex {pcr : Nat} (hpcr : pcr < 24) (hsaved : pcrIsStateSaved pcr = true) :
    PqcTpm.savedPcrs[saveIndex pcr]? = some pcr := by
  have hall : ∀ n < 24, pcrIsStateSaved n = true → PqcTpm.savedPcrs[saveIndex n]? = some n := by decide
  exact hall pcr hpcr hsaved

theorem lt_of_allocated {pcr : Nat} {alg : HashAlg} (h : P.pcrIsAllocated pcr alg = true) : pcr < 24 := by
  unfold pcrIsAllocated at h
  split at h
  · exact of_decide_eq_true (Bool.and_eq_true_iff.1 h).1
  · cases h

theorem pcrStateSave_reading (P : PcrState) :
    (savedReading P.pcrAllocated fun alg pcr => P.pcrStateSave.pcrSave alg (saveIndex pcr)) =
      savedReading P.pcrAllocated P.pcrs := by
  funext alg pcr
  unfold savedReading
  split
  · rename_i hboth
    obtain ⟨hsaved, hallocated⟩ := Bool.and_eq_true_iff.1 hboth
    have hP : P.pcrIsAllocated pcr alg = true := hallocated
    unfold pcrStateSave
    dsimp only
    rw [getElem?_saveIndex (lt_of_allocated hP) hsaved]
    dsimp only
    rw [if_pos hP]
  · rfl

/-- What a Resume has made of the PCRs `pcrs`. -/
structure Resumed (pcrs : List Nat) (P P' : PcrState) : Prop where
  pcrSave : P'.pcrSave = P.pcrSave
  allocated : P'.pcrAllocated = P.pcrAllocated
  restored : ∀ alg, ∀ n ∈ pcrs, pcrIsStateSaved n = true →
    P'.pcrs alg n = if P.pcrIsAllocated n alg then P.pcrSave alg (saveIndex n) else P.pcrs alg n
  kept : ∀ alg, ∀ n, n ∉ pcrs → P'.pcrs alg n = P.pcrs alg n
  counted : P'.pcrCounter = (fun c => (c + 1) % 2 ^ 32)^[pcrs.countP fun n =>
    !pcrIsStateSaved n && (n == 0 || !pcrBelongsTcbGroup n)] P.pcrCounter

theorem pcrChanged_eq {pcr : Nat} (h : P.pcrChanged pcr = .ok P') :
    P' = { P with pcrCounter :=
      if (pcr == 0 || !pcrBelongsTcbGroup pcr) = true then (P.pcrCounter + 1) % 2 ^ 32 else P.pcrCounter } := by
  unfold pcrChanged at h
  split at h
  · rename_i hcount
    dsimp only at h
    split at h
    · cases h
    · rw [if_pos (by simpa using hcount)]
      exact (Except.ok.inj h).symm
  · rename_i hcount
    rw [if_neg (by simpa using hcount)]
    exact (Except.ok.inj h).symm

theorem startPcr_resumed {locality : UInt8} {pcr : Nat} (h : P.startPcr .resume locality pcr = .ok P') :
    Resumed [pcr] P P' := by
  have hother : ∀ (Q : PcrState) f alg n, n ∉ [pcr] → (Q.setBanks (fun n => n == pcr) f).pcrs alg n = Q.pcrs alg n :=
    fun Q f alg n hn => setBanks_of_not (by simpa using hn) f
  unfold startPcr at h
  cases hsaved : pcrIsStateSaved pcr with
  | true =>
      rw [hsaved, if_pos ⟨rfl, rfl⟩] at h
      obtain rfl := Except.ok.inj h
      refine ⟨rfl, rfl, fun alg n hn _ => ?_, hother P _, ?_⟩
      · obtain rfl := List.mem_singleton.1 hn
        unfold setBanks
        simp
      · simp [hsaved, setBanks]
  | false =>
      rw [hsaved, if_neg (by simp)] at h
      split at h
      · cases h
      · rename_i Q hQ
        rw [if_neg (by simp)] at h
        obtain rfl := Except.ok.inj h
        obtain rfl := pcrChanged_eq hQ
        refine ⟨rfl, rfl, fun alg n hn hn' => ?_, hother _ _, ?_⟩
        · obtain rfl := List.mem_singleton.1 hn
          exact absurd (hsaved.symm.trans hn') (by decide)
        · unfold setBanks
          by_cases hcount : (pcr == 0 || !pcrBelongsTcbGroup pcr) = true
          · simp [hsaved, hcount]
          · simp [hsaved, hcount]

theorem foldlM_startPcr_resumed {locality : UInt8} {pcrs : List Nat}
    (h : pcrs.foldlM (startPcr .resume locality) P = .ok P') : Resumed pcrs P P' := by
  induction pcrs generalizing P with
  | nil =>
      obtain rfl := Except.ok.inj h
      exact ⟨rfl, rfl, fun _ _ hn => absurd hn List.not_mem_nil, fun _ _ _ => rfl, rfl⟩
  | cons pcr pcrs ih =>
      rw [List.foldlM_cons] at h
      obtain ⟨Q, hQ, hrest⟩ := bind_eq_ok h
      have hfirst := startPcr_resumed hQ
      have hafter := ih hrest
      have hallocated : ∀ n alg, Q.pcrIsAllocated n alg = P.pcrIsAllocated n alg :=
        fun n alg => pcrIsAllocated_congr hfirst.allocated n alg
      refine ⟨hafter.pcrSave.trans hfirst.pcrSave, hafter.allocated.trans hfirst.allocated, ?_, ?_, ?_⟩
      · intro alg n hn hsaved
        by_cases hmem : n ∈ pcrs
        · rw [hafter.restored alg n hmem hsaved, hallocated, hfirst.pcrSave]
          by_cases hn' : n ∈ [pcr]
          · rw [hfirst.restored alg n hn' hsaved]
            split <;> rfl
          · rw [hfirst.kept alg n hn']
        · rw [hafter.kept alg n hmem]
          refine hfirst.restored alg n ?_ hsaved
          exact List.mem_singleton.2 ((List.mem_cons.1 hn).resolve_right hmem)
      · intro alg n hn
        rw [List.mem_cons, not_or] at hn
        rw [hafter.kept alg n hn.2]
        exact hfirst.kept alg n (by simpa using hn.1)
      · rw [hafter.counted, hfirst.counted, ← Function.iterate_add_apply, ← List.countP_append, List.countP_append,
          Nat.add_comm, ← List.countP_append, List.singleton_append]

/-- A Resume brings back the PCRs that are saved, and counts the four that are neither saved nor exempt. -/
theorem pcrStartup_resumed {locality : UInt8} (h : P.pcrStartup .resume locality = .ok P') :
    P'.pcrCounter = (P.pcrCounter + 4) % 2 ^ 32 ∧ P'.pcrAllocated = P.pcrAllocated ∧
      savedReading P'.pcrAllocated P'.pcrs =
        savedReading P.pcrAllocated fun alg pcr => P.pcrSave alg (saveIndex pcr) := by
  have hall : Resumed (List.range 24) P P' := foldlM_startPcr_resumed h
  have hfour : ((List.range 24).countP fun n => !pcrIsStateSaved n && (n == 0 || !pcrBelongsTcbGroup n)) = 4 := by
    decide
  refine ⟨?_, hall.allocated, ?_⟩
  · rw [hall.counted, hfour]
    simp only [Function.iterate_succ, Function.iterate_zero, Function.comp, id]
    omega
  · funext alg pcr
    unfold savedReading
    rw [hall.allocated]
    split
    · rename_i hboth
      obtain ⟨hsaved, hallocated⟩ := Bool.and_eq_true_iff.1 hboth
      have hP : P.pcrIsAllocated pcr alg = true := hallocated
      rw [hall.restored alg pcr (List.mem_range.2 (lt_of_allocated hP)) hsaved, if_pos hP]
    · rfl

end PcrState

/-! ## The invariant -/

namespace PowerMachine
variable {σ : Type} {hs : HashStateCodec σ} {L : RawLayout} {H : PolicyHash} {m m' : PowerMachine}
  {nvStatus : Option RcCode}

/-- While `TPM_SU_STATE` is recorded the copies in NV are the values that are held, or were last held. -/
structure Sound (m : PowerMachine) : Prop where
  running : m.mode = .running → m.recorded = some .state → m.held = m.saved
  stopped : m.mode ≠ .running → m.recorded = some .state → m.lost = some m.saved
  off : m.mode = .off → m.pcr.pcrAllocated = m.nvAllocated
  allocated : m.mode = .running → m.pcrReConfig = false → m.pcr.pcrAllocated = m.nvAllocated

theorem recorded_eq_some {t : ShutdownType} : m.recorded = some t ↔ m.nv.orderly = true ∧ m.nv.shutdownType = t := by
  unfold recorded
  cases m.nv.orderly <;> simp

theorem recorded_of_ended (h : m.nv.orderly = false) : m.recorded = none := by
  unfold recorded
  rw [h]
  rfl

theorem Sound.fail (h : m.Sound) (hmode : m.mode = .running) : m.fail.Sound := by
  refine ⟨(nomatch ·), fun _ hstate => ?_, (nomatch ·), (nomatch ·)⟩
  exact congrArg some (h.running hmode hstate)

theorem Sound.follows (h : m.Sound) (hmode : m.mode = .running) (hmode' : m'.mode = .running)
    (hkeeps : m'.recorded = some .state → m.recorded = some .state ∧ (m.held = m.saved → m'.held = m'.saved))
    (hallocated : m'.pcrReConfig = false →
      m.pcrReConfig = false ∧ m'.pcr.pcrAllocated = m.pcr.pcrAllocated ∧ m'.nvAllocated = m.nvAllocated) :
    m'.Sound := by
  refine ⟨fun _ hstate => ?_, fun hne => absurd hmode' hne, fun hoff => ?_, fun _ hconfig => ?_⟩
  · obtain ⟨hbefore, hheld⟩ := hkeeps hstate
    exact hheld (h.running hmode hbefore)
  · exact absurd (hmode'.symm.trans hoff) (by decide)
  · obtain ⟨hconfig', hbanks, hnv⟩ := hallocated hconfig
    rw [hbanks, hnv]
    exact h.allocated hmode hconfig'

theorem Sound.ended (h : m.Sound) (hmode : m.mode = .running) (hmode' : m'.mode = .running)
    (hended : m'.nv.orderly = false) (hconfig : m'.pcrReConfig = m.pcrReConfig)
    (hbanks : m'.pcr.pcrAllocated = m.pcr.pcrAllocated) (hnv : m'.nvAllocated = m.nvAllocated) : m'.Sound := by
  refine h.follows hmode hmode' (fun hstate => ?_) fun hfalse => ⟨hconfig.symm.trans hfalse, hbanks, hnv⟩
  rw [recorded_of_ended hended] at hstate
  cases hstate

theorem Sound.endOrderly (h : m.Sound) (hmode : m.mode = .running) : m.endOrderly.Sound :=
  h.ended hmode hmode rfl rfl rfl rfl

/-- A command that cannot happen while `TPM_SU_STATE` is recorded. -/
theorem Sound.unrecorded (h : m.Sound) (hmode : m.mode = .running) (hnot : m.recorded ≠ some .state)
    (hmode' : m'.mode = .running) (hrecorded : m'.recorded = m.recorded) (hconfig : m'.pcrReConfig = m.pcrReConfig)
    (hbanks : m'.pcr.pcrAllocated = m.pcr.pcrAllocated) (hnv : m'.nvAllocated = m.nvAllocated) : m'.Sound :=
  h.follows hmode hmode' (fun hstate => absurd (hrecorded.symm.trans hstate) hnot)
    fun hfalse => ⟨hconfig.symm.trans hfalse, hbanks, hnv⟩

theorem Sound.same (h : m.Sound) (hmode : m.mode = .running) (hmode' : m'.mode = .running)
    (hrecorded : m'.recorded = m.recorded) (hheld : m'.held = m.held) (hsaved : m'.saved = m.saved)
    (hconfig : m'.pcrReConfig = m.pcrReConfig) (hbanks : m'.pcr.pcrAllocated = m.pcr.pcrAllocated)
    (hnv : m'.nvAllocated = m.nvAllocated) : m'.Sound := by
  refine h.follows hmode hmode' (fun hstate => ⟨hrecorded.symm.trans hstate, fun heq => ?_⟩)
    fun hfalse => ⟨hconfig.symm.trans hfalse, hbanks, hnv⟩
  rw [hheld, hsaved, heq]

/-! ### What each component does -/

theorem onNv_sound (h : m.Sound) (hmode : m.mode = .running) (nvStatus : Option RcCode) {r : NvOutcome}
    (horderly : r.2.orderly = true → m.nv.orderly = true) (htype : r.2.shutdownType = m.nv.shutdownType)
    (hr : m.recorded = some .state → (m.device nvStatus).Stays r.2) : (m.onNv r).Sound := by
  have hstays : ({ m with nv := r.2 } : PowerMachine).Sound := by
    generalize r.2 = nv at horderly htype hr
    refine h.follows hmode hmode (fun hstate => ?_) fun hfalse => ⟨hfalse, rfl, rfl⟩
    obtain ⟨hafter, hstate'⟩ := recorded_eq_some.1 hstate
    have hbefore : m.recorded = some .state := recorded_eq_some.2 ⟨horderly hafter, htype.symm.trans hstate'⟩
    refine ⟨hbefore, fun heq => ?_⟩
    have hram : nv.nv.ram = nv.savedRam := (hr hbefore).ram hafter (congrArg StateValues.ram heq)
    calc ({ m with nv } : PowerMachine).held = { m.held with ram := nv.nv.ram } := rfl
      _ = { m.saved with ram := nv.savedRam } := by rw [heq, hram]
      _ = ({ m with nv } : PowerMachine).saved := rfl
  unfold PowerMachine.onNv
  split
  · exact hstays
  · exact hstays
  · exact h.fail hmode

theorem onSessions_sound (h : m.Sound) (hmode : m.mode = .running) {f : SessionMachine → SessionOutcome}
    (hf : ∀ s, SessionMachine.Stays s (f s).2) : (m.onSessions f).Sound := by
  have hstays : ∀ sessions : SessionMachine,
      SessionMachine.Stays { m.sessions with orderly := m.recorded } sessions →
        ({ m with sessions, nv := { m.nv with orderly := m.nv.orderly && sessions.orderly.isSome } } :
          PowerMachine).Sound := by
    intro sessions hsessions
    refine h.follows hmode hmode (fun hstate => ?_) fun hfalse => ⟨hfalse, rfl, rfl⟩
    obtain ⟨horderly, htype⟩ := recorded_eq_some.1 hstate
    obtain ⟨horderly, hsome⟩ := Bool.and_eq_true_iff.1 horderly
    refine ⟨recorded_eq_some.2 ⟨horderly, htype⟩, fun heq => ?_⟩
    have hcounter := hsessions.contextCounter (Option.isSome_iff_ne_none.1 hsome)
    have hreset := hsessions.stateResetData
    unfold held saved at heq ⊢
    rw [StateValues.mk.injEq] at heq ⊢
    obtain ⟨hram, hgc, hgr, hpcr, hcontext, hpcrs⟩ := heq
    refine ⟨hram, hgc, hgr, hpcr, ?_, hpcrs⟩
    dsimp only at hcounter hreset ⊢
    rw [hcounter, hreset]
    exact hcontext
  have hr := hf { m.sessions with orderly := m.recorded }
  unfold PowerMachine.onSessions
  split
  · rename_i heq
    rw [heq] at hr
    exact hstays _ hr
  · rename_i heq
    rw [heq] at hr
    exact hstays _ hr
  · exact h.fail hmode

theorem onBanks_sound (h : m.Sound) (hmode : m.mode = .running) {r : Except Fault PcrState}
    (hallocated : ∀ P, r = .ok P → P.pcrAllocated = m.pcr.pcrAllocated)
    (hr : m.recorded = some .state → ∀ P, r = .ok P → m.pcr.Stays P) : (m.onBanks r).Sound := by
  unfold PowerMachine.onBanks
  split
  · rename_i P
    refine h.follows hmode hmode (fun hstate => ⟨hstate, fun heq => ?_⟩)
      fun hfalse => ⟨hfalse, hallocated P rfl, rfl⟩
    have hstays := hr hstate P rfl
    have hsame : ({ m with pcr := P } : PowerMachine).held = m.held := by
      unfold held
      rw [StateValues.mk.injEq]
      exact ⟨rfl, rfl, rfl, hstays.pcrCounter, rfl, hstays.reading⟩
    exact hsame.trans heq
  · exact h.fail hmode

theorem unlessOrderly_sound (h : m.Sound) {f : PowerMachine → PowerMachine} (hf : (f m.endOrderly).Sound) :
    (m.unlessOrderly nvStatus f).Sound := by
  unfold PowerMachine.unlessOrderly
  split
  · exact h
  · exact hf

theorem flushHierarchy_sound (h : m.Sound) (hmode : m.mode = .running) (hended : m.nv.orderly = false)
    (hierarchy : Hierarchy) : (m.flushHierarchy hierarchy).Sound := by
  unfold PowerMachine.flushHierarchy
  split
  · exact h.fail hmode
  · dsimp only
    refine h.ended hmode hmode ?_ rfl rfl rfl
    dsimp only
    split
    · split <;> exact hended
    · split <;> exact hended

/-! ### The commands -/

theorem update_allocated {P P' : PcrState} {cmd : PcrCommand} (h : cmd.update H P = .ok P') :
    P'.pcrAllocated = P.pcrAllocated := by
  have hfold : ∀ {α : Type} (pcr : Nat) (alg : α → HashAlg) (data : α → Bytes) (ds : List α),
      ds.foldlM (fun P d => PcrState.pcrExtend H pcr P (alg d) (data d)) P = .ok P' →
        P'.pcrAllocated = P.pcrAllocated := by
    intro α pcr alg data ds hds
    refine foldlM_invariant (I := fun Q : PcrState => Q.pcrAllocated = P.pcrAllocated) ?_ rfl hds
    intro d _ Q Q' hQ hstep
    exact (PcrState.pcrExtend_allocated hstep).trans hQ
  cases cmd with
  | pcrExtend pcrHandle digests =>
      cases pcrHandle with
      | none =>
          cases h
          rfl
      | some pcr => exact hfold pcr Prod.fst Prod.snd digests h
  | pcrEvent pcrHandle eventData =>
      cases pcrHandle with
      | none =>
          cases h
          rfl
      | some pcr => exact hfold pcr id (fun alg => H.hash alg eventData) PcrState.hashAlgs h
  | eventSequenceComplete pcrHandle results =>
      cases pcrHandle with
      | none =>
          cases h
          rfl
      | some pcr => exact hfold pcr id results PcrState.hashAlgs h
  | pcrReset pcr =>
      have hchanged := PcrState.pcrChanged_allocated h
      exact hchanged

theorem pcr_sound (h : m.Sound) (hmode : m.mode = .running) (locality : UInt8) (cmd : PcrCommand)
    (hmindful : m.recorded = some .state → m.forgets nvStatus (.pcr locality cmd) = false) :
    (m.act hs L H nvStatus (.pcr locality cmd)).Sound := by
  simp only [act]
  split
  · exact h
  · rename_i hallowed
    split
    · refine unlessOrderly_sound h ?_
      refine onBanks_sound (h.endOrderly hmode) hmode (fun P hP => update_allocated hP) fun hstate => ?_
      rw [recorded_of_ended rfl] at hstate
      cases hstate
    · rename_i hends
      refine onBanks_sound h hmode (fun P hP => update_allocated hP) fun hstate P hP => ?_
      have hquiet := hmindful hstate
      simp only [forgets] at hquiet
      refine PcrCommand.update_stays (by simpa using hends) ?_ hP
      simpa [hallowed, hends] using hquiet

theorem reading_of_reallocates {banks banks' : List PcrSelection} (h : reallocates banks banks' = false)
    (value : HashAlg → Nat → Bytes) : savedReading banks' value = savedReading banks value := by
  funext alg pcr
  unfold savedReading
  cases hsaved : pcrIsStateSaved pcr with
  | false => rfl
  | true =>
      have hsame : ({ pcrAllocated := banks' } : PcrState).pcrIsAllocated pcr alg =
          ({ pcrAllocated := banks } : PcrState).pcrIsAllocated pcr alg := by
        by_cases hpcr : pcr < 24
        · unfold reallocates at h
          have halg := List.any_eq_false.1 h alg (mem_hashAlgs alg)
          have hmem : pcr ∈ PqcTpm.savedPcrs := List.mem_filter.2 ⟨List.mem_range.2 hpcr, hsaved⟩
          simp only [Bool.not_eq_true, List.any_eq_false, bne_iff_ne, Decidable.not_not] at halg
          exact halg pcr hmem
        · have hnone : ∀ P : PcrState, P.pcrIsAllocated pcr alg = false := by
            intro P
            refine Bool.eq_false_iff.2 fun htrue => hpcr (PcrState.lt_of_allocated htrue)
          rw [hnone, hnone]
      rw [hsame]

theorem savedReading_congr {banks banks' : List PcrSelection} {value value' : HashAlg → Nat → Bytes}
    (h : savedReading banks' value' = savedReading banks value) : savedReading banks' = savedReading banks := by
  funext value₀ alg pcr
  have hread := congrFun (congrFun h alg) pcr
  unfold savedReading at hread ⊢
  split at hread
  · rename_i hboth'
    split at hread
    · rename_i hboth
      rw [if_pos hboth', if_pos hboth]
    · cases hread
  · rename_i hnot'
    split at hread
    · cases hread
    · rename_i hnot
      rw [if_neg hnot', if_neg hnot]

theorem pcrAllocate_sound (h : m.Sound) (hmode : m.mode = .running) (pcrAllocation : List PcrSelection)
    (hmindful : m.recorded = some .state → m.forgets nvStatus (.pcrAllocate pcrAllocation) = false) :
    (m.act hs L H nvStatus (.pcrAllocate pcrAllocation)).Sound := by
  simp only [act]
  split
  · exact h
  · rename_i hstatus
    split
    · exact h
    · rename_i nvAllocated hallocate
      refine h.follows hmode hmode (fun hstate => ⟨hstate, fun heq => ?_⟩) (nomatch ·)
      have hquiet := hmindful hstate
      have hnv : nvAllocated = pcrAllocation.foldl (fun banks a => replaceBank a banks) m.pcr.pcrAllocated := by
        unfold PqcTpm.pcrAllocate at hallocate
        dsimp only at hallocate
        split at hallocate
        · exact (Except.ok.inj hallocate).symm
        · cases hallocate
      simp only [forgets] at hquiet
      rw [← hnv] at hquiet
      have hsame : reallocates m.pcr.pcrAllocated nvAllocated = false := by
        simpa [Option.not_isSome_iff_eq_none.1 hstatus] using hquiet
      refine Eq.trans heq ?_
      unfold saved
      rw [StateValues.mk.injEq]
      refine ⟨rfl, rfl, rfl, rfl, rfl, ?_⟩
      have hreading : savedReading m.pcr.pcrAllocated = savedReading m.nvAllocated :=
        savedReading_congr (congrArg StateValues.pcrs heq)
      dsimp only
      rw [reading_of_reallocates hsame, hreading]

/-- A command that writes `gr` and says so nowhere. -/
theorem gr_sound (h : m.Sound) (hmode : m.mode = .running) {gr : StateResetValues} (auditHashAlg : HashAlg)
    (hquiet : m.recorded = some .state → gr = m.gr) : ({ m with gr, auditHashAlg } : PowerMachine).Sound := by
  refine h.follows hmode hmode (fun hstate => ⟨hstate, fun heq => ?_⟩) fun hfalse => ⟨hfalse, rfl, rfl⟩
  obtain rfl := hquiet hstate
  exact heq

theorem hierarchyControl_sound (h : m.Sound) (hmode : m.mode = .running) (authHandle : Hierarchy) (enable : Enables)
    (state : Bool) : (m.act hs L H nvStatus (.hierarchyControl authHandle enable state)).Sound := by
  simp only [act]
  split
  · refine unlessOrderly_sound h ?_
    cases enable with
    | owner => exact h.ended hmode hmode rfl rfl rfl rfl
    | endorsement => exact h.ended hmode hmode rfl rfl rfl rfl
    | platform => exact h.ended hmode hmode rfl rfl rfl rfl
    | platformNv => exact h.ended hmode hmode rfl rfl rfl rfl
  · exact h

theorem clear_orderly {d d' : NvDevice} {disableClear : Bool} {u : Unit} (h : d.clear disableClear = (.ok u, d')) :
    d'.orderly = false := by
  unfold NvDevice.clear at h
  split at h
  · cases h
  · split at h
    · cases h
    · split at h
      · cases h
      · dsimp only at h
        obtain rfl := (Prod.mk.inj h).2
        split
        · split <;> rfl
        · split <;> rfl

theorem clear_sound (h : m.Sound) (hmode : m.mode = .running) (disableClear : Bool) :
    (m.act hs L H nvStatus (.clear disableClear)).Sound := by
  simp only [act]
  split
  · exact h
  · exact h.fail hmode
  · rename_i nv hclear
    split
    · exact h.fail hmode
    · rename_i pcr hpcr
      exact h.ended hmode hmode (clear_orderly hclear) rfl (PcrState.pcrChanged_allocated hpcr) rfl

/-- `TPM2_Shutdown` makes the copies what the TPM holds. -/
theorem shutdown_sound (h : m.Sound) (hmode : m.mode = .running) (shutdownType : ShutdownType) :
    (m.shutdown nvStatus shutdownType).Sound := by
  unfold PowerMachine.shutdown
  split
  · exact h
  · rename_i sessions hshutdown
    dsimp only
    unfold SessionMachine.shutdown at hshutdown
    split at hshutdown
    · cases hshutdown
    · split at hshutdown
      · cases hshutdown
      · rename_i hconfig
        dsimp only at hshutdown
        split at hshutdown
        · rename_i hstate
          subst hstate
          obtain rfl := (Prod.mk.inj hshutdown).2
          have hbanks := h.allocated hmode (by simpa using hconfig)
          rw [if_pos rfl]
          refine ⟨fun _ _ => ?_, fun hne => absurd hmode hne, fun hoff => ?_, fun _ _ => hbanks⟩
          · have hpcrs := m.pcr.pcrStateSave_reading
            unfold held saved
            rw [StateValues.mk.injEq]
            refine ⟨rfl, rfl, rfl, rfl, rfl, ?_⟩
            dsimp only
            rw [← hbanks]
            exact hpcrs.symm
          · exact absurd (hmode.symm.trans hoff) (by decide)
        · rename_i hclear
          obtain rfl := (Prod.mk.inj hshutdown).2
          rw [if_neg hclear]
          refine ⟨fun _ hstate => ?_, fun hne => absurd hmode hne, fun hoff => ?_, fun _ => h.allocated hmode⟩
          · exact absurd (recorded_eq_some.1 hstate).2 hclear
          · exact absurd (hmode.symm.trans hoff) (by decide)

theorem act_sound (h : m.Sound) (hmode : m.mode = .running) (cmd : PowerCommand)
    (hmindful : m.recorded = some .state → m.forgets nvStatus cmd = false) :
    (m.act hs L H nvStatus cmd).Sound := by
  have hnot : ∀ {b : Bool}, b = true → (m.recorded = some .state → b = false) → m.recorded ≠ some .state :=
    fun htrue hfalse hstate => absurd (htrue.symm.trans (hfalse hstate)) (by decide)
  cases cmd with
  | nv cmd =>
      simp only [act]
      obtain ⟨horderly, htype⟩ := NvDevice.act_kept (d := m.device nvStatus) hs L H cmd.property
      refine onNv_sound h hmode nvStatus horderly htype fun hstate => ?_
      exact NvDevice.act_stays hs L H cmd.property (hmindful hstate)
  | pinCount nvIndex pinData =>
      simp only [act]
      split
      · exact h
      · rename_i i old _
        have hstays := NvDevice.writeIndexData_stays (d := m.device nvStatus) i old 0 (be 8 pinData)
        exact onNv_sound h hmode nvStatus hstays.orderly hstays.shutdownType fun _ => hstays
  | startAuthSession sessionType checks session =>
      exact onSessions_sound h hmode fun _ => SessionMachine.startAuthSession_stays ..
  | contextSave handle => exact onSessions_sound h hmode fun _ => SessionMachine.contextSave_stays ..
  | objectContextSave =>
      simp only [act]
      refine unlessOrderly_sound h ?_
      split
      · exact (h.endOrderly hmode).fail hmode
      · exact h.ended hmode hmode rfl rfl rfl rfl
  | contextLoad integrity context => exact onSessions_sound h hmode fun _ => SessionMachine.contextLoad_stays ..
  | flushContext handle => exact onSessions_sound h hmode fun _ => SessionMachine.flushContext_stays ..
  | useSession handle f continueSession =>
      exact onSessions_sound h hmode fun _ => SessionMachine.useSession_stays ..
  | pcr locality cmd => exact pcr_sound h hmode locality cmd hmindful
  | pcrAllocate pcrAllocation => exact pcrAllocate_sound h hmode pcrAllocation hmindful
  | pcrSetAuthValue pcrHandle auth =>
      simp only [act]
      split
      · exact h
      · exact unlessOrderly_sound h (h.ended hmode hmode rfl rfl rfl rfl)
  | hierarchyControl authHandle enable state => exact hierarchyControl_sound h hmode authHandle enable state
  | setPrimaryPolicy authHandle authPolicy hashAlg =>
      simp only [act]
      split
      · exact h
      · exact h.ended hmode hmode rfl rfl rfl rfl
  | hierarchyChangeAuth authHandle newAuth =>
      simp only [act]
      split
      · exact h
      · exact h.ended hmode hmode rfl rfl rfl rfl
  | changePps =>
      simp only [act]
      split
      · exact h
      · refine flushHierarchy_sound ?_ ?_ rfl _
        · exact h.ended hmode hmode rfl rfl rfl rfl
        · exact hmode
  | changeEps =>
      simp only [act]
      split
      · exact h
      · refine flushHierarchy_sound ?_ ?_ rfl _
        · exact h.ended hmode hmode rfl rfl rfl rfl
        · exact hmode
  | clear disableClear => exact clear_sound h hmode disableClear
  | commit checks =>
      simp only [act]
      split
      · exact h
      · rename_i hchecks
        refine gr_sound h hmode m.auditHashAlg fun hstate => ?_
        have hforgets : checks.isNone = true := by simpa using hchecks
        exact absurd hstate (hnot hforgets hmindful)
  | ecEphemeral skipped =>
      exact gr_sound h hmode m.auditHashAlg fun hstate => absurd hstate (hnot rfl hmindful)
  | commandAudit cpHash rpHash =>
      exact gr_sound h hmode m.auditHashAlg fun hstate => absurd hstate (hnot rfl hmindful)
  | getCommandAuditDigest checks isSigned =>
      simp only [act]
      split
      · rename_i hboth
        refine gr_sound h hmode m.auditHashAlg fun hstate => ?_
        have hquiet := hmindful hstate
        simp only [forgets] at hquiet
        rw [hboth] at hquiet
        have hempty : m.gr.commandAuditDigest = [] := by simpa using hquiet
        rw [← hempty]
      · exact h
  | setAuditHashAlg auditAlg =>
      simp only [act]
      split
      · exact h
      · rename_i hneither
        refine gr_sound h hmode auditAlg fun hstate => ?_
        have hquiet := hmindful hstate
        simp only [forgets] at hquiet
        rw [not_or] at hneither
        have hempty : m.gr.commandAuditDigest = [] := by
          simpa [Option.not_isSome_iff_eq_none.1 hneither.1, hneither.2] using hquiet
        rw [← hempty]
  | shutdown shutdownType => exact shutdown_sound h hmode shutdownType
  | other endsOrderly =>
      simp only [act]
      split
      · exact h.endOrderly hmode
      · exact h

/-! ### Starting -/

theorem startup_state {s sessions : SessionMachine} {r : SessionReply} {nvOk : Bool} {sameStart : Option TpmRc}
    (h : s.startup nvStatus .state nvOk sameStart = (.ok r, sessions)) :
    s.orderly = some .state ∧ sessions = s.start .resume := by
  unfold SessionMachine.startup at h
  split at h
  · cases h
  · dsimp only at h
    split at h
    · cases h
    · rename_i hstate
      split at h
      · cases h
      · split at h
        · cases h
        · exact ⟨Decidable.not_not.1 hstate, (Prod.mk.inj h).2.symm⟩

/-- A Resume finds `TPM_SU_STATE` recorded, and leaves the copies. -/
theorem startup_resumed (hmode : m.mode = .off) (hbanks : m.pcr.pcrAllocated = m.nvAllocated) {nvOk : Bool}
    {sameStart : Option TpmRc} {locality : UInt8}
    (hrun : (m.startup nvStatus .state nvOk sameStart locality).mode = .running) :
    m.recorded = some .state ∧ (m.startup nvStatus .state nvOk sameStart locality).held = m.saved.resumed := by
  have hoff : m.mode ≠ .running := by
    rw [hmode]
    decide
  unfold PowerMachine.startup at hrun ⊢
  split at hrun
  · exact absurd hrun hoff
  · rename_i hlocality
    rw [if_neg hlocality]
    split at hrun
    · exact absurd hrun hoff
    · rename_i sessions hstart
      obtain ⟨hstate, rfl⟩ := startup_state hstart
      refine ⟨hstate, ?_⟩
      have hkind : startupKindOf m.recorded .state nvOk = .resume := if_pos rfl
      dsimp only at hrun ⊢
      rw [hkind] at hrun ⊢
      split at hrun
      · cases hrun
      · rename_i pcr hpcr
        obtain ⟨hcounter, hallocated, hreading⟩ := PcrState.pcrStartup_resumed hpcr
        have hrestored : (m.restored .resume).pcrAllocated = m.nvAllocated := hbanks
        rw [hrestored] at hreading
        unfold held saved StateValues.resumed
        rw [StateValues.mk.injEq]
        exact ⟨rfl, rfl, rfl, hcounter, rfl, hreading⟩

theorem pcrStartup_allocated {P P' : PcrState} {kind : StartupKind} {locality : UInt8}
    (h : P.pcrStartup kind locality = .ok P') : P'.pcrAllocated = P.pcrAllocated := by
  unfold PcrState.pcrStartup at h
  refine foldlM_invariant (I := fun Q => Q.pcrAllocated = P.pcrAllocated) ?_ ?_ h
  · intro pcr _ Q Q' hQ hstep
    refine Eq.trans ?_ hQ
    unfold PcrState.startPcr at hstep
    split at hstep
    · cases hstep
      rfl
    · split at hstep
      · cases hstep
      · rename_i R hR
        have hchanged := PcrState.pcrChanged_allocated hR
        split at hstep
        · cases hstep
          exact hchanged
        · cases hstep
          exact hchanged
  · split <;> rfl

theorem startup_sound (h : m.Sound) (hmode : m.mode = .off) (startupType : ShutdownType) (nvOk : Bool)
    (sameStart : Option TpmRc) (locality : UInt8) : (m.startup nvStatus startupType nvOk sameStart locality).Sound := by
  have hoff : m.mode ≠ .running := by
    rw [hmode]
    decide
  unfold PowerMachine.startup
  split
  · exact h
  · split
    · exact h
    · dsimp only
      generalize startupKindOf m.recorded startupType nvOk = kind
      split
      · exact ⟨(nomatch ·), fun _ => h.stopped hoff, (nomatch ·), (nomatch ·)⟩
      · rename_i pcr hpcr
        have hbanks : pcr.pcrAllocated = m.nvAllocated := by
          refine (pcrStartup_allocated hpcr).trans (Eq.trans ?_ (h.off hmode))
          cases kind <;> rfl
        refine ⟨fun _ hstate => ?_, fun hne => absurd rfl hne, (nomatch ·), fun _ _ => hbanks⟩
        rw [recorded_of_ended rfl] at hstate
        cases hstate

/-! ## Runs -/

theorem initial_sound (mask : Nat) : (initial mask).Sound := by
  refine ⟨(nomatch ·), fun _ hstate => ?_, fun _ => rfl, (nomatch ·)⟩
  rw [recorded_of_ended rfl] at hstate
  cases hstate

theorem powerLoss_sound (h : m.Sound) (memory : PcrState) (gc : StateClearData) (gr : StateResetValues) :
    (m.step hs L H (.powerLoss memory gc gr)).Sound := by
  have hstep : m.step hs L H (.powerLoss memory gc gr) = { m with
      mode := .off
      pcr := { memory with pcrAllocated := m.nvAllocated, drtmPreStartup := false }
      gc
      gr
      lost := if m.mode = .running then some m.held else m.lost } := by
    unfold step
    cases m.mode <;> rfl
  rw [hstep]
  refine ⟨(nomatch ·), fun _ hstate => ?_, fun _ => rfl, (nomatch ·)⟩
  have hrecorded : m.recorded = some .state := hstate
  dsimp only
  split
  · rename_i hmode
    exact congrArg some (h.running hmode hrecorded)
  · rename_i hmode
    exact h.stopped hmode hrecorded

theorem hashSequence_sound (h : m.Sound) (data : Bytes) (hmindful : m.Mindful (.hashSequence data)) :
    (m.step hs L H (.hashSequence data)).Sound := by
  cases hmode : m.mode with
  | failed =>
      unfold step
      rw [hmode]
      exact h
  | off =>
      have hoff : m.mode ≠ .running := by
        rw [hmode]
        decide
      have hstep : m.step hs L H (.hashSequence data) = m.hashBefore H data := by
        unfold step
        rw [hmode]
      rw [hstep]
      unfold hashBefore
      split
      · exact ⟨(nomatch ·), fun _ => h.stopped hoff, (nomatch ·), (nomatch ·)⟩
      · rename_i pcr hpcr
        refine ⟨fun hrun => (hoff hrun).elim, fun _ => h.stopped hoff, fun _ => ?_, fun hrun => (hoff hrun).elim⟩
        exact (PcrState.hashEnd_allocated hpcr).trans (h.off hmode)
  | running =>
      have hnot : m.recorded ≠ some .state := fun hstate => hmindful hmode hstate
      have hstep : m.step hs L H (.hashSequence data) = m.countRestart.onBanks (m.pcr.hashEnd H true data) := by
        unfold step
        rw [hmode]
      have hcount : m.countRestart.Sound := h.unrecorded hmode hnot hmode rfl rfl rfl rfl
      rw [hstep]
      refine onBanks_sound hcount hmode (fun P hP => PcrState.hashEnd_allocated hP) fun hstate => ?_
      exact absurd hstate hnot

theorem step_sound (h : m.Sound) (e : PowerEvent) (hmindful : m.Mindful e) : (m.step hs L H e).Sound := by
  cases e with
  | powerLoss memory gc gr => exact powerLoss_sound h memory gc gr
  | hashSequence data => exact hashSequence_sound h data hmindful
  | startup nvStatus startupType nvOk sameStart locality =>
      cases hmode : m.mode with
      | off =>
          unfold step
          rw [hmode]
          exact startup_sound h hmode ..
      | running | failed =>
          unfold step
          rw [hmode]
          exact h
  | command nvStatus cmd =>
      cases hmode : m.mode with
      | running =>
          unfold step
          rw [hmode]
          exact act_sound h hmode cmd (hmindful hmode)
      | off | failed =>
          unfold step
          rw [hmode]
          exact h

/-- Reached by steps that forget nothing. -/
abbrev MindfulRun (hs : HashStateCodec σ) (L : RawLayout) (H : PolicyHash) (mask : Nat) : PowerMachine → Prop :=
  Reachable (fun m => m = initial mask) fun m m' => ∃ e, m.Mindful e ∧ m' = m.step hs L H e

theorem sound_of_run {mask : Nat} (h : MindfulRun hs L H mask m) : m.Sound := by
  refine Reachable.invariant ?_ ?_ h
  · rintro m rfl
    exact initial_sound mask
  · rintro m m' hm ⟨e, hmindful, rfl⟩
    exact step_sound hm e hmindful

/-- `TPM2_Startup(STATE)` went through, and left what the TPM held when it last ceased to run. -/
def Restores (m m' : PowerMachine) : Prop := ∃ v, m.lost = some v ∧ m'.held = v.resumed

/-- A Resume brings back what was lost, in every run in which nothing that a shutdown has saved is changed behind
its back. -/
theorem resume_restores {mask : Nat} (h : MindfulRun hs L H mask m) (hmode : m.mode = .off) {nvStatus : Option RcCode}
    {nvOk : Bool} {sameStart : Option TpmRc} {locality : UInt8}
    (hrun : (m.step hs L H (.startup nvStatus .state nvOk sameStart locality)).mode = .running) :
    m.Restores (m.step hs L H (.startup nvStatus .state nvOk sameStart locality)) := by
  have hsound := sound_of_run h
  have hstep : m.step hs L H (.startup nvStatus .state nvOk sameStart locality) =
      m.startup nvStatus .state nvOk sameStart locality := by
    unfold step
    rw [hmode]
  rw [hstep] at hrun ⊢
  obtain ⟨hstate, hheld⟩ := startup_resumed hmode (hsound.off hmode) hrun
  refine ⟨m.saved, hsound.stopped ?_ hstate, hheld⟩
  rw [hmode]
  decide

end PowerMachine

/-! ## A lock that a Resume takes back -/

def sealedHandle : TpmHandle := 0x01000005

/-- An orderly index with `WRITE_STCLEAR` that the owner reads and writes. -/
def sealedIndex : NvPublic where
  nvIndex := sealedHandle
  nameAlg := .sha256
  attributes := 0x04024002
  authPolicy := .ofBytes []
  dataSize := 1

abbrev powerStep : PowerMachine → PowerEvent → PowerMachine := PowerMachine.step noHashStates zeroLayout zeroHash

def powerRun (es : List PowerEvent) : PowerMachine := run powerStep (.initial 0xffff) es

def resumeEvent : PowerEvent := .startup none .state true none 0

/-- An orderly index is written and the state saved. -/
def savedEvents : List PowerEvent :=
  [.startup none .clear true none 0,
    .command none (.nv ⟨.nvDefineSpace .rhOwner (.ofBytes []) sealedIndex [], rfl⟩),
    .command none (.nv ⟨.nvWrite .rhOwner sealedHandle 0 [1], rfl⟩),
    .command none (.shutdown .state)]

/-- Power is lost at once, or after the index has been locked. -/
def lostEvents (locked : Bool) : List PowerEvent :=
  savedEvents ++ (if locked then [.command none (.nv ⟨.nvWriteLock .rhOwner sealedHandle, rfl⟩)] else []) ++
    [.powerLoss {} {} {}]

theorem powerRun_reached (es : List PowerEvent) :
    Reachable (fun m => m = PowerMachine.initial 0xffff) (fun m m' => ∃ e, m' = powerStep m e) (powerRun es) :=
  @Reachable.of_run _ _ powerStep (fun m => m = PowerMachine.initial 0xffff) _ rfl es

theorem saved_mindful : PowerMachine.MindfulRun noHashStates zeroLayout zeroHash 0xffff (powerRun (lostEvents false)) := by
  have hall : ∀ e ∈ lostEvents false, ∀ m : PowerMachine, m.Mindful e := by
    refine List.forall_mem_cons.2 ⟨fun _ _ _ => trivial, ?_⟩
    refine List.forall_mem_cons.2 ⟨fun _ _ _ => rfl, ?_⟩
    refine List.forall_mem_cons.2 ⟨fun _ _ _ => rfl, ?_⟩
    refine List.forall_mem_cons.2 ⟨fun _ _ _ => rfl, ?_⟩
    exact List.forall_mem_singleton.2 fun _ _ _ => trivial
  refine run_invariant (q := fun e => ∀ m : PowerMachine, m.Mindful e) ?_ (.init rfl) hall
  exact fun m e hm he => hm.step ⟨e, he m, rfl⟩

theorem saved_restored :
    (powerRun (lostEvents false)).Restores (powerStep (powerRun (lostEvents false)) resumeEvent) :=
  PowerMachine.resume_restores saved_mindful rfl rfl

/-- The index is locked after the shutdown, and no longer after the Resume. -/
theorem locked_not_restored :
    ∃ m, Reachable (fun m => m = PowerMachine.initial 0xffff) (fun m m' => ∃ e, m' = powerStep m e) m ∧ m.mode = .off ∧
      (powerStep m resumeEvent).mode = .running ∧ ¬ m.Restores (powerStep m resumeEvent) := by
  refine ⟨powerRun (lostEvents true), powerRun_reached _, rfl, rfl, ?_⟩
  rintro ⟨v, hv, hheld⟩
  have hram : (powerStep (powerRun (lostEvents true)) resumeEvent).held.ram = v.resumed.ram :=
    congrArg StateValues.ram hheld
  have hlost : (powerRun (lostEvents true)).lost.map StateValues.ram = some v.resumed.ram := congrArg _ hv
  rw [← hram] at hlost
  exact absurd hlost (by decide)

end PqcTpm
