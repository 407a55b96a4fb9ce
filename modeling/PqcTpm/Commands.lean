import PqcTpm.Sequence

/-!
# Commands and events

`ContextCommands.c`, the commands of `HierarchyCommands.c` that free slots, the DRTM
signals, and the frame that `ExecuteCommand` puts around an action: it ends a DRTM
sequence, maps the persistent handles of the command to slots, runs the action and
frees the slots that are marked `evict`.
-/
namespace PqcTpm
open ByteCodec

section
variable {σ : Type} (P : Platform σ) (C : SeqCrypto σ)

/-! ## Contexts -/

/-- `RETURN_IF_ORDERLY`. -/
def TpmState.returnIfOrderly (s : TpmState σ) : Option TpmRc := if s.orderly then s.nv.nvStatus else none

/-- The handle in a saved context says what was saved. -/
def savedHandle (x : Slot σ) : TpmHandle :=
  if x.attributes.isSequence then 0x80000001
  else if x.attributes.stClear then 0x80000002
  else 0x80000000

/-- `ComputeContextIntegrity`. -/
def TpmState.contextIntegrity (s : TpmState σ) (savedHandle : TpmHandle) (h : Hierarchy) :
    ContextIntegrity where
  proof := s.proof h
  totalResetCount := s.totalResetCount
  clearCount := if savedHandle = 0x80000002 then s.clearCount else 0

def savedContext (s : TpmState σ) (x : Slot σ) : SavedContext where
  savedHandle := savedHandle x
  hierarchy := x.hierarchy
  blob := AnyObject.marshal P.hs P.profile.stateFormatLevel x.toAnyObject
  integrity := s.contextIntegrity (savedHandle x) x.hierarchy

/-- `TPM2_ContextSave` of an object; `CryptRsaLoadPrivateExponent` has run when a key was loaded. -/
def contextSave (saveHandle : TpmHandle) (s : TpmState σ) : Outcome σ :=
  match s.returnIfOrderly with
  | some rc => (.error (.rc rc), s)
  | none =>
      if saveHandle.getType = TpmHandle.htTransient then
        match s.handleToObject saveHandle with
        | .ok (some i) =>
            let c := savedContext P s (s.slots i)
            (.ok (.context c), { s with contexts := s.contexts ++ [c], orderly := false })
        | .ok none => (.error .failureMode, s)
        | .error e => (.error e, s)
      else (.error .failureMode, s)

/-- `TPM2_ContextLoad` of the `k`-th context that was given out. Octets that are left over are not
looked at. -/
def contextLoad (k : Nat) (s : TpmState σ) : Outcome σ :=
  match s.contexts[k]? with
  | none => (.error (.at .integrity 0x140), s)
  | some c =>
      if c.integrity ≠ s.contextIntegrity c.savedHandle c.hierarchy then (.error (.at .integrity 0x140), s)
      else if 4816 < c.blob.length then (.error .failureMode, s)
      else if !s.hierarchyIsEnabled c.hierarchy then (.error (.at .hierarchy 0x140), s)
      else match s.findEmptyObjectSlot with
        | none => (.error (.of .objectMemory), s)
        | some i =>
            match AnyObject.unmarshal P.hs P.profile {} c.blob with
            | .ok (x, _) => (.ok (.handle (slotHandle i)), s.setSlot i (Slot.ofAnyObject x))
            | .error .failureMode => (.error .failureMode, s)
            | .error _ => (.error (.of .objectMemory), s)

/-- `TPM2_FlushContext` of an object. -/
def flushContext (flushHandle : TpmHandle) (s : TpmState σ) : Outcome σ :=
  if s.isObjectPresent flushHandle then
    match slotOf flushHandle with
    | some i => (.ok .done, s.flushObject i)
    | none => (.error .failureMode, s)
  else (.error (.at .handle 0x140), s)

/-! ## Persistence -/

def isPlatformPersistentHandle (h : TpmHandle) : Bool := decide (0x81800000 ≤ h ∧ h ≤ 0x81FFFFFF)

def isOwnerPersistentHandle (h : TpmHandle) : Bool := decide (0x81000000 ≤ h ∧ h < 0x81800000)

/-- `NvFindHandle`. -/
def nvFindHandle (nv : NvState) (h : TpmHandle) : Option Nat :=
  nv.user.findIdx? fun e => e.handle == h

/-- `NvDeleteEvict`. -/
def nvDeleteEvict (nv : NvState) (h : TpmHandle) : Except Fault NvState :=
  match nvFindHandle nv h with
  | some k => nvDelete nv k
  | none => .ok nv

/-- `OBJECT.evictHandle`, beyond the end of a `HASH_OBJECT`'s own fields. -/
def Slot.evictHandle : Slot σ → TpmHandle
  | .object o => o.evictHandle
  | .sequence _ _ | .vacant => 0

/-- What `TPM2_EvictControl` checks before it touches NV. -/
def evictControlChecks (auth persistentHandle : TpmHandle) (x : Slot σ) : Except Fault Unit :=
  let a := x.attributes
  if a.temporary || a.stClear || a.publicOnly then .error (.at .attributes 0x200)
  else if a.evict && decide (x.evictHandle ≠ persistentHandle) then .error (.at .handle 0x200)
  else if auth = TpmHandle.rhPlatform then
    if a.evict then .ok ()
    else if !a.ppsHierarchy then .error (.at .hierarchy 0x200)
    else if !isPlatformPersistentHandle persistentHandle then .error (.at .range 0x140)
    else .ok ()
  else if auth = TpmHandle.rhOwner then
    if a.ppsHierarchy then .error (.at .hierarchy 0x200)
    else if !a.evict && !isOwnerPersistentHandle persistentHandle then .error (.at .range 0x140)
    else .ok ()
  else .error .failureMode

/-- The change `TPM2_EvictControl` makes. The type of a sequence is none that `NvObjectToBuffer`
knows. -/
def evictControlUpdate (nv : NvState) (persistentHandle : TpmHandle) (x : Slot σ) : Except Fault NvState :=
  if x.attributes.evict then nvDeleteEvict nv x.evictHandle
  else match nvFindHandle nv persistentHandle with
    | some _ => .error (.of .nvDefined)
    | none =>
        match x with
        | .object o => nvAddEvictObject P.hs P.layout P.profile.stateFormatLevel nv persistentHandle o
        | .sequence _ _ | .vacant => .error .failureMode

/-- `TPM2_EvictControl`. -/
def evictControl (auth objectHandle persistentHandle : TpmHandle) (s : TpmState σ) : Outcome σ :=
  match s.handleToObject objectHandle with
  | .error e => (.error e, s)
  | .ok none => (.error .failureMode, s)
  | .ok (some i) =>
      match evictControlChecks auth persistentHandle (s.slots i) with
      | .error e => (.error e, s)
      | .ok _ =>
          match evictControlUpdate P s.nv persistentHandle (s.slots i) with
          | .error e => (.error e, s)
          | .ok nv => (.ok .done, { s with nv })

/-! ## Hierarchies -/

def hierarchyControlChecks (authHandle : TpmHandle) (enable : Hierarchy) (state : Bool) (s : TpmState σ) :
    Except Fault Unit :=
  match enable with
  | .platform => if authHandle ≠ TpmHandle.rhPlatform then .error (.of .authType) else .ok ()
  | .owner | .endorsement =>
      if authHandle ≠ TpmHandle.rhPlatform ∧ authHandle ≠ enable.handle then .error (.of .authType)
      else if s.hierarchyIsEnabled enable = false ∧ state = true ∧ authHandle ≠ TpmHandle.rhPlatform then
        .error (.of .authType)
      else .ok ()
  | .null => .error .failureMode

def TpmState.enableHierarchy (s : TpmState σ) (state : Bool) : Hierarchy → TpmState σ
  | .platform => { s with phEnable := state }
  | .owner => { s with shEnable := state }
  | .endorsement => { s with ehEnable := state }
  | .null => s

/-- `TPM2_HierarchyControl`, but for `TPM_RH_PLATFORM_NV`, which is not about objects. -/
def hierarchyControl (authHandle : TpmHandle) (enable : Hierarchy) (state : Bool) (s : TpmState σ) :
    Outcome σ :=
  match hierarchyControlChecks authHandle enable state s with
  | .error e => (.error e, s)
  | .ok _ =>
      if s.hierarchyIsEnabled enable = state then (.ok .done, s)
      else match s.returnIfOrderly with
        | some rc => (.error (.rc rc), s)
        | none =>
            let s' := { s.enableHierarchy state enable with orderly := false }
            (.ok .done, if state then s' else s'.objectFlushHierarchy enable)

/-- `ObjectFlushHierarchy` with `NvFlushHierarchy`. NV is available where this is called, so a flush
of NV can end in an assertion only. -/
def flushHierarchy (h : Hierarchy) (s : TpmState σ) : Except Fault (TpmState σ) :=
  match nvFlushHierarchy h s.nv with
  | .ok nv => .ok { s.objectFlushHierarchy h with nv, orderly := false }
  | .error _ => .error .failureMode

/-- `TPM2_ChangePPS` and `TPM2_ChangeEPS`, with the new proof value. -/
def changeSeed (h : Hierarchy) (proof : Bytes) (s : TpmState σ) : Outcome σ :=
  match s.nv.nvStatus with
  | some rc => (.error (.rc rc), s)
  | none =>
      match flushHierarchy h s with
      | .error e => (.error e, s)
      | .ok s' => (.ok .done, { s' with proof := Function.update s'.proof h proof })

def changePPS (phProof : Bytes) (s : TpmState σ) : Outcome σ := changeSeed .platform phProof s

/-- `TPM2_ChangeEPS`; unlike its sibling it enables the hierarchy. -/
def changeEPS (ehProof : Bytes) (s : TpmState σ) : Outcome σ :=
  match changeSeed .endorsement ehProof s with
  | (.ok r, s') => (.ok r, { s' with ehEnable := true })
  | (.error e, s') => (.error e, s')

/-- `TPM2_Clear`. -/
def clear (shProof ehProof : Bytes) (s : TpmState σ) : Outcome σ :=
  match s.nv.nvStatus with
  | some rc => (.error (.rc rc), s)
  | none =>
      if s.disableClear then (.error (.of .disabled), s)
      else match flushHierarchy .owner s with
        | .error e => (.error e, s)
        | .ok s' =>
            match flushHierarchy .endorsement s' with
            | .error e => (.error e, s)
            | .ok s'' =>
                (.ok .done, { s'' with
                  proof := Function.update (Function.update s''.proof .owner shProof) .endorsement ehProof
                  shEnable := true
                  ehEnable := true
                  clearCount := 0
                  failedTries := 0
                  recoveryTime := 1000
                  lockOutAuthEnabled := true })

/-! ## DRTM signals -/

/-- `ObjectTerminateEvent`, at the start of every command. -/
def TpmState.objectTerminateEvent (s : TpmState σ) : TpmState σ :=
  match s.drtm with
  | none => s
  | some i =>
      if (s.slots i).attributes.eventSeq then { s.flushObject i with drtm := none }
      else { s with drtm := none }

/-- `ObjectCreateEventSequence(NULL, &g_DRTMHandle)`. -/
def createDrtmSequence (s : TpmState σ) : Option (TpmState σ) :=
  s.findEmptyObjectSlot.map fun i =>
    { s.setSlot i (.sequence (eventSequence C .empty) .null) with drtm := some i }

def TpmState.dropDrtmSequence (s : TpmState σ) : TpmState σ :=
  match s.drtm with
  | some i => { s.flushObject i with drtm := none }
  | none => s

/-- `_TPM_Hash_Start`: when every slot is taken, slot 0 is freed. -/
def hashStart (s : TpmState σ) : Outcome σ :=
  match createDrtmSequence C s.dropDrtmSequence with
  | some s' => (.ok .done, s')
  | none =>
      match createDrtmSequence C (s.dropDrtmSequence.flushObject 0) with
      | some s' => (.ok .done, s')
      | none => (.error .failureMode, s)

/-- `_TPM_Hash_Data`; `allocated` is `PcrIsAllocated` for the algorithm of a hash state. -/
def hashData (allocated : σ → Bool) (data : Bytes) (s : TpmState σ) : Outcome σ :=
  match s.drtm with
  | none => (.ok .done, s)
  | some i =>
      match s.slots i with
      | .sequence x h =>
          match x.attributes.eventSeq, x.state with
          | true, .hash states count =>
              let states' := states.map fun t => if allocated t then C.update t data else t
              (.ok .done, s.setSlot i
                (.sequence { x with state := .hash states' (by rw [List.length_map, count]) } h))
          | _, _ => (.error .failureMode, s)
      | .object _ | .vacant => (.error .failureMode, s)

/-- `_TPM_Hash_End`. -/
def hashEnd (s : TpmState σ) : Outcome σ :=
  match s.drtm with
  | none => (.ok .done, s)
  | some i =>
      if (s.slots i).occupied then (.ok .done, { s.flushObject i with drtm := none })
      else (.error .failureMode, s)

/-! ## Authorization failures -/

/-- The session of an authorization: its attributes, for another session than `TPM_RS_PW`. -/
inductive AuthSession
  | password
  | session (isLockoutBound isDaBound includeAuth : Bool)

/-- `IsDAExempted`. -/
def isDaExempted (s : TpmState σ) (handle : TpmHandle) : Except Fault Bool :=
  if handle.getType = TpmHandle.htPermanent then .ok (decide (handle ≠ TpmHandle.rhLockout))
  else if handle.getType = TpmHandle.htTransient then
    if 0x80FF0000 ≤ handle ∧ handle ≤ 0x80FF00FF then .ok true
    else match s.handleToObject handle with
      | .ok (some i) => .ok (s.slots i).objectAttributes.noDA
      | .ok none => .error .failureMode
      | .error e => .error e
  else if handle.getType = TpmHandle.htNvIndex then
    match s.nv.user.find? fun e => e.handle == handle with
    | some (.index i _) => .ok (i.isAttribute 25)
    | _ => .error .failureMode
  else .ok (decide (handle.getType = TpmHandle.htPcr))

/-- The handle whose failure `IncrementLockout` counts, if there is one. -/
def lockoutHandle (s : TpmState σ) (handle : TpmHandle) : AuthSession → Except Fault (Option TpmHandle)
  | .password => do
      let exempted ← isDaExempted s handle
      pure (if exempted then none else some handle)
  | .session isLockoutBound isDaBound includeAuth => do
      let handle := if isLockoutBound then TpmHandle.rhLockout else handle
      if isDaBound then pure (some handle)
      else do
        let exempted ← isDaExempted s handle
        pure (if exempted || !includeAuth then none else some handle)

/-- `IncrementLockout`. -/
def incrementLockout (handle : TpmHandle) (session : AuthSession) (s : TpmState σ) : Outcome σ :=
  match lockoutHandle s handle session with
  | .error e => (.error e, s)
  | .ok none => (.error (.of .badAuth), s)
  | .ok (some h) =>
      if h = TpmHandle.rhLockout then
        if s.lockOutAuthEnabled then (.error (.of .authFail), { s with lockOutAuthEnabled := false })
        else (.error .failureMode, s)
      else if s.recoveryTime ≠ 0 then (.error (.of .authFail), { s with failedTries := s.failedTries + 1 })
      else (.error (.of .authFail), s)

/-! ## The frame of a command -/

inductive Action
  | hashSequenceStart (auth : Tpm2bAuth) (hashAlg : Option HashAlg)
  | macStart (auth : Tpm2bAuth) (inScheme : Nat)
  | signSequenceStart (auth : Tpm2bAuth) (context : Tpm2b 255)
  | verifySequenceStart (auth : Tpm2bAuth) (hint : Tpm2b 256) (context : Tpm2b 255)
  | sequenceUpdate (buffer : Tpm2b 1024)
  | sequenceComplete (buffer : Tpm2b 1024) (hierarchy : Hierarchy)
  | eventSequenceComplete (pcrCheck : Except Fault Unit) (buffer : Tpm2b 1024)
  | signSequenceComplete (buffer : Tpm2b 1024)
  | verifySequenceComplete (signature : TpmtSignature)
  | contextSave
  | contextLoad (k : Nat)
  | flushContext (flushHandle : TpmHandle)
  | evictControl (persistentHandle : TpmHandle)
  | hierarchyControl (enable : Hierarchy) (state : Bool)
  | changePPS (phProof : Bytes)
  | changeEPS (ehProof : Bytes)
  | clear (shProof ehProof : Bytes)
  /-- `TPM2_CreatePrimary`, `TPM2_Load`, `TPM2_LoadExternal` and `TPM2_CreateLoaded`. -/
  | load (o : Object)
  /-- Every other command. -/
  | other (after : Surroundings)

structure Command where
  action : Action
  handles : List TpmHandle

/-- An object as the commands that load objects leave it in its slot. -/
def Object.asLoaded (o : Object) : Object :=
  { o with
    attributes :=
      { o.attributes with
        occupied := true, evict := false, hmacSeq := false, hashSeq := false, eventSeq := false
        pqcSeq := false } }

def loadObject (o : Object) (s : TpmState σ) : Outcome σ :=
  match s.findEmptyObjectSlot with
  | none => (.error (.of .objectMemory), s)
  | some i => (.ok (.handle (slotHandle i)), s.setSlot i (.object o.asLoaded))

def Action.isEvictControl : Action → Bool
  | .evictControl _ => true
  | _ => false

/-- `CommandDispatcher` on the handles that are left after `EntityGetLoadStatus`. -/
def Action.act : Action → List TpmHandle → TpmState σ → Outcome σ
  | .hashSequenceStart auth hashAlg, [], s => PqcTpm.hashSequenceStart C auth hashAlg s
  | .macStart auth inScheme, [handle], s => PqcTpm.macStart C handle auth inScheme s
  | .signSequenceStart auth context, [keyHandle], s => PqcTpm.signSequenceStart keyHandle auth context s
  | .verifySequenceStart auth hint context, [keyHandle], s =>
      PqcTpm.verifySequenceStart keyHandle auth hint context s
  | .sequenceUpdate buffer, [sequenceHandle], s => PqcTpm.sequenceUpdate C sequenceHandle buffer s
  | .sequenceComplete buffer hierarchy, [sequenceHandle], s =>
      PqcTpm.sequenceComplete C sequenceHandle buffer hierarchy s
  | .eventSequenceComplete pcrCheck buffer, [_, sequenceHandle], s =>
      PqcTpm.eventSequenceComplete C pcrCheck sequenceHandle buffer s
  | .signSequenceComplete buffer, [sequenceHandle, keyHandle], s =>
      PqcTpm.signSequenceComplete C sequenceHandle keyHandle buffer s
  | .verifySequenceComplete signature, [sequenceHandle, keyHandle], s =>
      PqcTpm.verifySequenceComplete C sequenceHandle keyHandle signature s
  | .contextSave, [saveHandle], s => PqcTpm.contextSave P saveHandle s
  | .contextLoad k, [], s => PqcTpm.contextLoad P k s
  | .flushContext flushHandle, [], s => PqcTpm.flushContext flushHandle s
  | .evictControl persistentHandle, [auth, objectHandle], s =>
      PqcTpm.evictControl P auth objectHandle persistentHandle s
  | .hierarchyControl enable state, [authHandle], s => PqcTpm.hierarchyControl authHandle enable state s
  | .changePPS phProof, [_], s => PqcTpm.changePPS phProof s
  | .changeEPS ehProof, [_], s => PqcTpm.changeEPS ehProof s
  | .clear shProof ehProof, [_], s => PqcTpm.clear shProof ehProof s
  | .load o, _, s => loadObject o s
  | .other after, _, s => (.ok .done, { s with toSurroundings := after })
  | _, _, s => (.error (.of .insufficient), s)

/-- `TPMI_DH_CONTEXT` does not admit persistent handles. -/
def Command.parseHandles (c : Command) : Bool :=
  match c.action with
  | .contextSave => c.handles.all fun h => h.getType == TpmHandle.htTransient
  | _ => true

/-- The command's handles as its action gets them, and the state that goes with them. -/
def Command.resolve (c : Command) (s : TpmState σ) : Except Fault (List TpmHandle × TpmState σ) :=
  if !c.parseHandles then .error (.at .value 0x100)
  else s.objectTerminateEvent.entityGetLoadStatus P c.action.isEvictControl c.handles

/-- `ExecuteCommand` for a command whose authorizations are in order. -/
def execute (c : Command) (s : TpmState σ) : Outcome σ :=
  match c.resolve P s with
  | .error e => (.error e, s.objectTerminateEvent.objectCleanupEvict)
  | .ok (handles, s') =>
      let out := c.action.act P C handles s'
      (out.1, out.2.objectCleanupEvict)

/-- `ExecuteCommand` when the authorization for the `k`-th handle fails. -/
def executeUnauthorized (c : Command) (k : Nat) (session : AuthSession) (s : TpmState σ) : Outcome σ :=
  match c.resolve P s with
  | .error e => (.error e, s.objectTerminateEvent.objectCleanupEvict)
  | .ok (handles, s') =>
      match handles[k]? with
      | none => (.error (.of .authMissing), s'.objectCleanupEvict)
      | some handle =>
          let out := incrementLockout handle session s'
          (out.1, out.2.objectCleanupEvict)

inductive StartupType
  | reset (nullProof : Bytes) | restart | resume

/-- `_TPM_Init` with `TPM2_Startup`. -/
def startup (t : StartupType) (s : TpmState σ) : TpmState σ :=
  let s := { s with slots := fun _ => .vacant, drtm := none, phEnable := true, inFailureMode := false }
  match t with
  | .reset nullProof =>
      { s with
        shEnable := true, ehEnable := true, clearCount := 0, totalResetCount := s.totalResetCount + 1
        proof := Function.update s.proof .null nullProof }
  | .restart => { s with shEnable := true, ehEnable := true, clearCount := s.clearCount + 1 }
  | .resume => s

inductive Event (σ : Type)
  | command (c : Command)
  | unauthorized (c : Command) (k : Nat) (session : AuthSession)
  | hashStart
  | hashData (allocated : σ → Bool) (data : Bytes)
  | hashEnd
  | startup (t : StartupType)

/-- In failure mode only a new start helps. -/
def perform (s : TpmState σ) : Event σ → Outcome σ
  | .startup t => (.ok .done, PqcTpm.startup t s)
  | .command c => if s.inFailureMode then (.error .failureMode, s) else execute P C c s
  | .unauthorized c k session =>
      if s.inFailureMode then (.error .failureMode, s) else executeUnauthorized P c k session s
  | .hashStart => if s.inFailureMode then (.error .failureMode, s) else PqcTpm.hashStart C s
  | .hashData allocated data =>
      if s.inFailureMode then (.error .failureMode, s) else PqcTpm.hashData C allocated data s
  | .hashEnd => if s.inFailureMode then (.error .failureMode, s) else PqcTpm.hashEnd s

/-- The state an event leaves: `FAIL` puts the TPM in failure mode. -/
def step (s : TpmState σ) (e : Event σ) : TpmState σ :=
  match perform P C s e with
  | (.error .failureMode, s') => { s' with inFailureMode := true }
  | (_, s') => s'

end
end PqcTpm
