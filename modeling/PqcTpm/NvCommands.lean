import PqcTpm.NvFlush
import PqcTpm.SessionProcess

/-!
# Commands on NV indices

`NVCommands.c` with the writers of `NVDynamic.c`, `TPM2_Clear`, `TPM2_Shutdown` and the part
of `TPM2_Startup` that is about NV. Beside the area in use stand the copies that survive the
loss of power: the orderly data as it was last saved, and the counter in the end marker of
the list.
-/
namespace PqcTpm
open ByteCodec Transition

/-! ## Attributes -/

namespace TpmaNv

def set (a : UInt32) (bit : Nat) : UInt32 := a ||| UInt32.ofNat (2 ^ bit)

def clear (a : UInt32) (bit : Nat) : UInt32 := a &&& ~~~UInt32.ofNat (2 ^ bit)

end TpmaNv

namespace NvIndex

def isOrdinary (i : NvIndex) : Bool := i.nt == 0
def isBits (i : NvIndex) : Bool := i.nt == 2
def isExtend (i : NvIndex) : Bool := i.nt == 4

def withAttributes (i : NvIndex) (attributes : UInt32) : NvIndex :=
  { i with publicArea := { i.publicArea with attributes } }

end NvIndex

/-! ## The area and what survives -/

inductive ShutdownType
  | clear | state
  deriving DecidableEq

inductive StartupKind
  | reset | restart | resume
  deriving DecidableEq

/-- NV. The shutdown type is the one of `gp.orderlyState`, as long as that is orderly. -/
structure NvDevice where
  nv : NvState := {}
  orderly : Bool := false
  shutdownType : ShutdownType := .clear
  /-- `NV_INDEX_RAM_DATA`. -/
  savedRam : List RamEntry := []
  /-- The counter in the end marker. -/
  savedMaxCounter : Nat := 0
  phEnableNv : Bool := true

abbrev NvOutcome := Except Fault Unit × NvDevice

namespace NvDevice

def mapIndex (d : NvDevice) (h : TpmHandle) (f : NvIndex → Bytes → NvIndex × Bytes) : NvDevice :=
  { d with
    nv := { d.nv with
      user := d.nv.user.map fun e =>
        match e with
        | .index i data => if i.publicArea.nvIndex = h then .index (f i data).1 (f i data).2 else e
        | .evict _ _ => e } }

def mapRam (d : NvDevice) (h : TpmHandle) (f : RamEntry → RamEntry) : NvDevice :=
  { d with nv := { d.nv with ram := d.nv.ram.map fun r => if r.handle = h then f r else r } }

/-- `NvUpdateIndexOrderlyData`. -/
def saveRam (d : NvDevice) : NvDevice := { d with savedRam := d.nv.ram }

/-- `NvWriteNvListEnd`. -/
def writeListEnd (d : NvDevice) : NvDevice := { d with savedMaxCounter := d.nv.maxCounter }

/-- The octets of an index, as far as it has been written. -/
def octets (d : NvDevice) (i : NvIndex) (data : Bytes) : Except Fault Bytes :=
  if i.orderly then
    match d.nv.ramGetIndex i.publicArea.nvIndex with
    | some r => .ok r.data
    | none => .error .failureMode
  else .ok data

end NvDevice

/-- Octets of a buffer replaced from an offset on. -/
def splice (old : Bytes) (offset : Nat) (new : Bytes) : Bytes :=
  old.take offset ++ new ++ old.drop (offset + new.length)

/-! ## Checks that commands share -/

/-- `NvReadAccessChecks`. -/
def nvReadAccessChecks (authHandle nvHandle : TpmHandle) (i : NvIndex) : Except Fault Unit := do
  demand (!i.isAttribute 28) (.of .nvLocked)
  demand
    (if authHandle = TpmHandle.rhOwner then i.isAttribute 17
      else if authHandle = TpmHandle.rhPlatform then i.isAttribute 16
      else authHandle == nvHandle) (.of .nvAuthorization)
  demand i.written (.of .nvUninitialized)

/-- `NvWriteAccessChecks`. -/
def nvWriteAccessChecks (authHandle nvHandle : TpmHandle) (i : NvIndex) : Except Fault Unit := do
  demand (!i.isAttribute 11) (.of .nvLocked)
  demand
    (if authHandle = TpmHandle.rhOwner then i.isAttribute 1
      else if authHandle = TpmHandle.rhPlatform then i.isAttribute 0
      else authHandle == nvHandle) (.of .nvAuthorization)

/-- `MemoryRemoveTrailingZeros`. -/
def removeTrailingZeros {max : Nat} (b : Tpm2b max) : Tpm2b max :=
  .ofBytes (b.buffer.reverse.dropWhile (· == 0)).reverse

/-- The checks of `TPM2_NV_DefineSpace`, and the range of the handle that `TPMI_RH_NV_INDEX` checks. -/
def nvDefineSpaceChecks (authHandle : TpmHandle) (auth : Tpm2bAuth) (i : NvIndex) (phEnableNv : Bool) :
    Except Fault Unit := do
  let a := i.publicArea
  demand (a.nvIndex.getType == TpmHandle.htNvIndex) (.at .value 0x240)
  demand (a.authPolicy.size == 0 || a.authPolicy.size == a.nameAlg.digestSize) (.at .size 0x240)
  demand (decide ((removeTrailingZeros auth).size ≤ a.nameAlg.digestSize)) (.at .size 0x140)
  demand (!(authHandle == TpmHandle.rhPlatform && !phEnableNv)) (.at .hierarchy 0x100)
  demand ([0, 1, 2, 4, 8, 9].contains i.nt) (.at .attributes 0x240)
  demand
    (if i.isOrdinary then decide (a.dataSize ≤ 8192)
      else if i.isExtend then a.dataSize == a.nameAlg.digestSize
      else a.dataSize == 8) (.at .size 0x240)
  demand (!(i.isCounter && i.isAttribute 27)) (.at .attributes 0x240)
  demand (!(i.isPinFail && !i.isAttribute 25)) (.at .attributes 0x240)
  demand (!(i.isPin && (i.isAttribute 2 || i.isAttribute 15 || i.isAttribute 13))) (.at .attributes 0x240)
  demand (!(i.written || i.isAttribute 11 || i.isAttribute 28)) (.at .attributes 0x240)
  demand (i.isAttribute 17 || i.isAttribute 16 || i.isAttribute 18 || i.isAttribute 19) (.at .attributes 0x240)
  demand (i.isAttribute 1 || i.isAttribute 0 || i.isAttribute 2 || i.isAttribute 3) (.at .attributes 0x240)
  demand (!(i.isAttribute 27 && i.isAttribute 13)) (.at .attributes 0x240)
  demand
    (!((i.platformCreate && authHandle == TpmHandle.rhOwner) ||
      (!i.platformCreate && authHandle == TpmHandle.rhPlatform))) (.at .attributes 0x100)
  demand (!(i.isAttribute 10 && authHandle != TpmHandle.rhPlatform)) (.at .attributes 0x240)
  demand (!(decide (1024 < a.dataSize) && i.isAttribute 12)) (.at .size 0x240)

namespace NvDevice

/-- An index as `NvGetIndexInfo` gives it, with the octets behind it in NV. -/
def index (d : NvDevice) (h : TpmHandle) : Except Fault (NvIndex × Bytes) := do
  let i ← d.nv.indexInfo h
  match d.nv.findIndex h with
  | some (_, data) => .ok (i, data)
  | none => .error .failureMode

/-! ## Defining and deleting -/

/-- `TPM2_NV_DefineSpace`; `residue` is what the memory behind the list holds. -/
def nvDefineSpace (authHandle : TpmHandle) (auth : Tpm2bAuth) (publicInfo : NvPublic) (residue : Bytes)
    (d : NvDevice) : NvOutcome :=
  let i : NvIndex := ⟨publicInfo, removeTrailingZeros auth⟩
  match nvDefineSpaceChecks authHandle auth i d.phEnableNv with
  | .error e => (.error e, d)
  | .ok _ =>
      if d.nv.user.any fun e => e.handle == publicInfo.nvIndex then (.error (.of .nvDefined), d)
      else
        match nvDefineIndex d.nv i (residue ++ List.replicate publicInfo.dataSize 0) with
        | .error e => (.error e, d)
        | .ok nv =>
            let d := { d with nv }.writeListEnd
            (.ok (), if i.orderly then d.saveRam else d)

/-- `NvDeleteIndex`. The counter has been taken over when NV turns out not to be available. -/
def deleteIndex (i : NvIndex) (data : Bytes) (d : NvDevice) : NvOutcome :=
  match retireCounter d.nv i data with
  | .error e => (.error e, d)
  | .ok retired =>
      match nvDeleteIndex d.nv (d.nv.user.findIdx fun e => e.handle == i.publicArea.nvIndex) i data with
      | .error e => (.error e, { d with nv := retired })
      | .ok nv =>
          let d := { d with nv }.writeListEnd
          (.ok (), if i.orderly then d.saveRam else d)

/-- `TPM2_NV_UndefineSpace`. -/
def nvUndefineSpace (authHandle nvIndex : TpmHandle) (d : NvDevice) : NvOutcome :=
  match d.index nvIndex with
  | .error e => (.error e, d)
  | .ok (i, data) =>
      if i.isAttribute 10 then (.error (.at .attributes 0x200), d)
      else if authHandle = TpmHandle.rhOwner ∧ i.platformCreate = true then (.error (.of .nvAuthorization), d)
      else d.deleteIndex i data

/-- `TPM2_NV_UndefineSpaceSpecial`. -/
def nvUndefineSpaceSpecial (nvIndex : TpmHandle) (d : NvDevice) : NvOutcome :=
  match d.index nvIndex with
  | .error e => (.error e, d)
  | .ok (i, data) =>
      if i.isAttribute 10 then d.deleteIndex i data else (.error (.at .attributes 0x100), d)

/-- What `TPM2_Clear` does to NV. -/
def clear (disableClear : Bool) (d : NvDevice) : NvOutcome :=
  match d.nv.nvStatus with
  | some rc => (.error (.rc rc), d)
  | none =>
      if disableClear then (.error (.of .disabled), d)
      else
        match nvFlushHierarchy .owner d.nv >>= nvFlushHierarchy .endorsement with
        | .error e => (.error e, d)
        | .ok nv =>
            -- the end marker is written and orderly data is saved when something has been deleted
            let after := { d with nv, orderly := false }
            let after := if nv.user.length = d.nv.user.length then after else after.writeListEnd
            (.ok (), if nv.ram.length = d.nv.ram.length then after else after.saveRam)

/-! ## Reading and writing -/

/-- `TPM2_NV_Read`, with `NvGetIndexData`. -/
def nvRead (authHandle nvIndex : TpmHandle) (size offset : Nat) (d : NvDevice) : Except Fault Bytes := do
  let (i, data) ← d.index nvIndex
  nvReadAccessChecks authHandle nvIndex i
  demand (decide (size ≤ 1024)) (.at .value 0x140)
  demand (decide (offset ≤ i.publicArea.dataSize)) (.at .value 0x240)
  demand (decide (size ≤ i.publicArea.dataSize - offset)) (.of .nvRange)
  let octets ← d.octets i data
  if offset + size ≤ octets.length then .ok ((octets.drop offset).take size) else .error .failureMode

/-- `NvWriteIndexData` of an index as `NvGetIndexInfo` gives it. An orderly index is written in RAM, which
ends the orderly state; the first write of a counter is saved. -/
def writeIndexData (i : NvIndex) (old : Bytes) (offset : Nat) (new : Bytes) (d : NvDevice) : NvOutcome :=
  let h := i.publicArea.nvIndex
  let attributes := TpmaNv.set i.publicArea.attributes 29
  if i.publicArea.dataSize < offset + new.length then (.error .failureMode, d)
  else if i.orderly then
    let blank := !i.written && i.isOrdinary
    let d := d.mapRam h fun r =>
      { r with
        attributes := if i.written then r.attributes else attributes
        data := splice (if blank then List.replicate r.data.length 0 else r.data) offset new }
    (.ok (), { (if !i.written && i.isCounter then d.saveRam else d) with orderly := false })
  else if i.written then
    if splice old offset new = old then (.ok (), d)
    else
      match d.nv.nvStatus with
      | some rc => (.error (.rc rc), d)
      | none => (.ok (), d.mapIndex h fun j data => (j, splice data offset new))
  else
    match d.nv.nvStatus with
    | some rc => (.error (.rc rc), d)
    | none =>
        let blank := i.isOrdinary && decide (new.length < i.publicArea.dataSize)
        (.ok (), d.mapIndex h fun j data =>
          (j.withAttributes attributes, splice (if blank then List.replicate data.length 0 else data) offset new))

/-- `TPM2_NV_Write`. -/
def nvWrite (authHandle nvIndex : TpmHandle) (offset : Nat) (data : Bytes) (d : NvDevice) : NvOutcome :=
  match d.index nvIndex with
  | .error e => (.error e, d)
  | .ok (i, old) =>
      let checks : Except Fault Unit := do
        nvWriteAccessChecks authHandle nvIndex i
        demand (!(i.isCounter || i.isBits || i.isExtend)) (.of .attributes)
        demand (decide (offset ≤ i.publicArea.dataSize)) (.at .value 0x240)
        demand (decide (data.length ≤ i.publicArea.dataSize - offset)) (.of .nvRange)
        demand (!(i.isAttribute 12 && decide (data.length < i.publicArea.dataSize))) (.of .nvRange)
      match checks with
      | .error e => (.error e, d)
      | .ok _ => d.writeIndexData i old offset data

/-- The value that `TPM2_NV_Increment` starts from. -/
def countValue (i : NvIndex) (data : Bytes) (d : NvDevice) : Except Fault Nat :=
  if i.written then nvGetUint64Data d.nv i data else .ok d.nv.maxCounter

/-- `TPM2_NV_Increment`. A counter in RAM that rolls over is saved. -/
def nvIncrement (authHandle nvIndex : TpmHandle) (d : NvDevice) : NvOutcome :=
  match d.index nvIndex with
  | .error e => (.error e, d)
  | .ok (i, old) =>
      let checks : Except Fault Nat := do
        nvWriteAccessChecks authHandle nvIndex i
        demand i.isCounter (.at .attributes 0x200)
        d.countValue i old
      match checks with
      | .error e => (.error e, d)
      | .ok count =>
          let count' := (count + 1) % 2 ^ 64
          match d.writeIndexData i old 0 (be 8 count') with
          | (.error e, d) => (.error e, d)
          | (.ok _, d) => (.ok (), if i.orderly && count' % 256 == 0 then d.saveRam else d)

/-- `TPM2_NV_SetBits`. -/
def nvSetBits (authHandle nvIndex : TpmHandle) (bits : Nat) (d : NvDevice) : NvOutcome :=
  match d.index nvIndex with
  | .error e => (.error e, d)
  | .ok (i, old) =>
      let checks : Except Fault Nat := do
        nvWriteAccessChecks authHandle nvIndex i
        demand i.isBits (.at .attributes 0x200)
        if i.written then nvGetUint64Data d.nv i old else pure 0
      match checks with
      | .error e => (.error e, d)
      | .ok value => d.writeIndexData i old 0 (be 8 (value ||| bits % 2 ^ 64))

/-- `TPM2_NV_Extend`. -/
def nvExtend (H : PolicyHash) (authHandle nvIndex : TpmHandle) (data : Bytes) (d : NvDevice) : NvOutcome :=
  match d.index nvIndex with
  | .error e => (.error e, d)
  | .ok (i, old) =>
      let size := i.publicArea.nameAlg.digestSize
      let checks : Except Fault Bytes := do
        nvWriteAccessChecks authHandle nvIndex i
        demand i.isExtend (.at .attributes 0x200)
        if i.written then List.take size <$> d.octets i old else pure (List.replicate size 0)
      match checks with
      | .error e => (.error e, d)
      | .ok digest => d.writeIndexData i old 0 (H.hash i.publicArea.nameAlg (digest ++ data))

/-! ## Attributes and authorization values -/

/-- `NvWriteIndexAttributes`. -/
def writeIndexAttributes (i : NvIndex) (attributes : UInt32) (d : NvDevice) : NvOutcome :=
  let h := i.publicArea.nvIndex
  if i.orderly then (.ok (), d.mapRam h fun r => { r with attributes })
  else if attributes = i.publicArea.attributes then (.ok (), d)
  else
    match d.nv.nvStatus with
    | some rc => (.error (.rc rc), d)
    | none => (.ok (), d.mapIndex h fun j data => (j.withAttributes attributes, data))

/-- `TPM2_NV_WriteLock`. -/
def nvWriteLock (authHandle nvIndex : TpmHandle) (d : NvDevice) : NvOutcome :=
  match d.index nvIndex with
  | .error e => (.error e, d)
  | .ok (i, _) =>
      match nvWriteAccessChecks authHandle nvIndex i with
      | .error e => (if e = .of .nvAuthorization then .error e else .ok (), d)
      | .ok _ =>
          if i.isAttribute 13 || i.isAttribute 14 then
            d.writeIndexAttributes i (TpmaNv.set i.publicArea.attributes 11)
          else (.error (.at .attributes 0x200), d)

/-- `TPM2_NV_ReadLock`. -/
def nvReadLock (authHandle nvIndex : TpmHandle) (d : NvDevice) : NvOutcome :=
  match d.index nvIndex with
  | .error e => (.error e, d)
  | .ok (i, _) =>
      match nvReadAccessChecks authHandle nvIndex i with
      | .error (.rc ⟨.nvAuthorization, _⟩) => (.error (.of .nvAuthorization), d)
      | .error (.rc ⟨.nvLocked, _⟩) => (.ok (), d)
      | _ =>
          if i.isAttribute 31 then d.writeIndexAttributes i (TpmaNv.set i.publicArea.attributes 28)
          else (.error (.at .attributes 0x200), d)

/-- A change of attributes, of the indices in NV and of those in RAM. -/
def mapAttributes (inNv inRam : UInt32 → UInt32) (d : NvDevice) : NvDevice :=
  { d with
    nv := { d.nv with
      user := d.nv.user.map fun e =>
        match e with
        | .index i data =>
            if i.orderly then e else .index (i.withAttributes (inNv i.publicArea.attributes)) data
        | .evict _ _ => e
      ram := d.nv.ram.map fun r => { r with attributes := inRam r.attributes } } }

def lockGlobally (a : UInt32) : UInt32 := if a.toNat.testBit 15 then TpmaNv.set a 11 else a

/-- `TPM2_NV_GlobalWriteLock`, with `NvSetGlobalLock`. Nothing is locked that needs NV when NV is not
available. -/
def nvGlobalWriteLock (d : NvDevice) : NvOutcome :=
  match d.nv.nvStatus with
  | none => (.ok (), d.mapAttributes lockGlobally lockGlobally)
  | some rc =>
      let changes := d.nv.user.any fun e =>
        match e with
        | .index i _ => !i.orderly && lockGlobally i.publicArea.attributes != i.publicArea.attributes
        | .evict _ _ => false
      if changes then (.error (.rc rc), d) else (.ok (), d.mapAttributes id lockGlobally)

/-- `TPM2_NV_ChangeAuth`. -/
def nvChangeAuth (nvIndex : TpmHandle) (newAuth : Tpm2bAuth) (d : NvDevice) : NvOutcome :=
  match d.index nvIndex with
  | .error e => (.error e, d)
  | .ok (i, _) =>
      let auth := removeTrailingZeros newAuth
      if i.publicArea.nameAlg.digestSize < auth.size then (.error (.at .size 0x140), d)
      else if auth = i.authValue then (.ok (), d)
      else
        match d.nv.nvStatus with
        | some rc => (.error (.rc rc), d)
        | none => (.ok (), d.mapIndex nvIndex fun j data => ({ j with authValue := auth }, data))

/-! ## Shutdown and startup -/

/-- What `TPM2_Shutdown` does to NV. -/
def shutdown (shutdownType : ShutdownType) (d : NvDevice) : NvOutcome :=
  match d.nv.nvStatus with
  | some rc => (.error (.rc rc), d)
  | none => (.ok (), { d.saveRam with orderly := true, shutdownType })

/-- `NvSetStartupAttributes`. -/
def setStartupAttributes (startup : StartupKind) (a : UInt32) : UInt32 :=
  let a := TpmaNv.clear a 28
  let a :=
    if a.toNat / 16 % 16 ≠ 1 ∧ (a.toNat.testBit 27 = true ∨ (a.toNat.testBit 26 = true ∧ startup = .reset)) then
      TpmaNv.clear a 29
    else a
  if a.toNat.testBit 29 = false ∨ a.toNat.testBit 13 = false then TpmaNv.clear a 11 else a

/-- The lower bits of an orderly counter after a shutdown that was not orderly. -/
def fillCounter (r : RamEntry) : RamEntry :=
  if r.attributes.toNat / 16 % 16 = 1 then
    { r with data := be 8 (fromBe (r.data.take 8) ||| 255) ++ r.data.drop 8 }
  else r

/-- `NvEntityStartup`. -/
def nvEntityStartup (startup : StartupKind) (d : NvDevice) : NvDevice :=
  let d := { d with nv := { d.nv with ram := d.savedRam, maxCounter := d.savedMaxCounter } }
  match startup with
  | .resume => d
  | .reset | .restart =>
      let d := d.mapAttributes (setStartupAttributes startup) (setStartupAttributes startup)
      if d.orderly then d else { d with nv := { d.nv with ram := d.nv.ram.map fillCounter } }

/-- `TPM2_Startup`, as far as NV is concerned. -/
def startup (toState : Bool) (d : NvDevice) : NvOutcome :=
  match d.nv.nvStatus with
  | some rc => (.error (.rc rc), d)
  | none =>
      let saved := d.orderly && d.shutdownType == .state
      if toState && !saved then (.error (.at .value 0x140), d)
      else
        let startup := if toState then .resume else if saved then .restart else .reset
        (.ok (), { d.nvEntityStartup startup with orderly := false })

/-- `NvAddEvictObject` for an object that `TPM2_EvictControl` found in a slot. -/
def addEvict {σ : Type} (hs : HashStateCodec σ) (L : RawLayout) (level : Nat) (handle : TpmHandle) (o : Object)
    (d : NvDevice) : NvOutcome :=
  if d.nv.user.any fun e => e.handle == handle then (.error (.of .nvDefined), d)
  else
    match nvAddEvictObject hs L level d.nv handle o with
    | .error e => (.error e, d)
    | .ok nv => (.ok (), { d with nv }.writeListEnd)

/-- `NvDeleteEvict`. -/
def deleteEvict (handle : TpmHandle) (d : NvDevice) : NvOutcome :=
  if d.nv.user.any fun e => e.handle == handle && e.isEvict then
    match nvDelete d.nv (d.nv.user.findIdx fun e => e.handle == handle) with
    | .error e => (.error e, d)
    | .ok nv => (.ok (), { d with nv }.writeListEnd)
  else (.ok (), d)

end NvDevice

/-! ## Steps -/

/-- What can happen to NV; an object that is made persistent comes with the handle it gets. -/
inductive NvCommand
  | nvDefineSpace (authHandle : TpmHandle) (auth : Tpm2bAuth) (publicInfo : NvPublic) (residue : Bytes)
  | nvUndefineSpace (authHandle nvIndex : TpmHandle)
  | nvUndefineSpaceSpecial (nvIndex : TpmHandle)
  | clear (disableClear : Bool)
  | nvWrite (authHandle nvIndex : TpmHandle) (offset : Nat) (data : Bytes)
  | nvIncrement (authHandle nvIndex : TpmHandle)
  | nvSetBits (authHandle nvIndex : TpmHandle) (bits : Nat)
  | nvExtend (authHandle nvIndex : TpmHandle) (data : Bytes)
  | nvWriteLock (authHandle nvIndex : TpmHandle)
  | nvReadLock (authHandle nvIndex : TpmHandle)
  | nvGlobalWriteLock
  | nvChangeAuth (nvIndex : TpmHandle) (newAuth : Tpm2bAuth)
  | addEvict (level : Nat) (handle : TpmHandle) (o : Object) (storable : Storable o)
      (persistent : handle.getType = TpmHandle.htPersistent)
  | deleteEvict (handle : TpmHandle)
  | shutdown (shutdownType : ShutdownType)
  | startup (toState : Bool)
  /-- NV becomes available, or stops being so. -/
  | status (nvStatus : Option TpmRc)
  | phEnableNv (state : Bool)

def NvCommand.act {σ : Type} (hs : HashStateCodec σ) (L : RawLayout) (H : PolicyHash) (d : NvDevice) :
    NvCommand → NvOutcome
  | .nvDefineSpace authHandle auth publicInfo residue => d.nvDefineSpace authHandle auth publicInfo residue
  | .nvUndefineSpace authHandle nvIndex => d.nvUndefineSpace authHandle nvIndex
  | .nvUndefineSpaceSpecial nvIndex => d.nvUndefineSpaceSpecial nvIndex
  | .clear disableClear => d.clear disableClear
  | .nvWrite authHandle nvIndex offset data => d.nvWrite authHandle nvIndex offset data
  | .nvIncrement authHandle nvIndex => d.nvIncrement authHandle nvIndex
  | .nvSetBits authHandle nvIndex bits => d.nvSetBits authHandle nvIndex bits
  | .nvExtend authHandle nvIndex data => d.nvExtend H authHandle nvIndex data
  | .nvWriteLock authHandle nvIndex => d.nvWriteLock authHandle nvIndex
  | .nvReadLock authHandle nvIndex => d.nvReadLock authHandle nvIndex
  | .nvGlobalWriteLock => d.nvGlobalWriteLock
  | .nvChangeAuth nvIndex newAuth => d.nvChangeAuth nvIndex newAuth
  | .addEvict level handle o _ _ => d.addEvict hs L level handle o
  | .deleteEvict handle => d.deleteEvict handle
  | .shutdown shutdownType => d.shutdown shutdownType
  | .startup toState => d.startup toState
  | .status nvStatus => (.ok (), { d with nv := { d.nv with nvStatus } })
  | .phEnableNv state => (.ok (), { d with phEnableNv := state })

end PqcTpm
