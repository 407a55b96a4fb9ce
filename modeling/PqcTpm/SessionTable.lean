import Mathlib.Logic.Function.Basic
import Mathlib.Data.List.FinRange
import PqcTpm.NvCommands
import PqcTpm.Lib.TruncatedCounter

/-!
# Session slots and the context array

`Session.c`: the three slots for loaded sessions and `gr.contextArray`, which says of each of
the 64 handles that it is free, in which slot its session is loaded, or with which context
identifier its session has been saved; then the commands that reach these functions.
Of a context identifier the array holds what `CONTEXT_SLOT_MASKED` leaves of it.
-/
namespace PqcTpm
open TruncatedCounter

/-- An index into `gr.contextArray`; there are `MAX_ACTIVE_SESSIONS` of them. -/
abbrev SessionIndex := Fin 64

/-- An index into `s_sessions`; there are `MAX_LOADED_SESSIONS` of them. -/
abbrev SessionSlot := Fin 3

namespace TpmHandle

def hmacSessionFirst : TpmHandle := 0x02000000
def policySessionFirst : TpmHandle := 0x03000000

/-- The handle without its type, `HR_HANDLE_MASK`. -/
def index (h : TpmHandle) : Nat := (h &&& 0xFFFFFF).toNat

def isSession (h : TpmHandle) : Bool := h.getType == htPolicySession || h.getType == htHmacSession

/-- What `TPMI_DH_CONTEXT_Unmarshal` and `TPMI_DH_SAVED_Unmarshal` accept beside the handles of objects. -/
def isSessionContext (h : TpmHandle) : Bool := h.isSession && decide (h.index < 64)

/-- The handle of the session at an index. -/
def ofSession (sessionType : SessionType) (i : SessionIndex) : TpmHandle :=
  (if sessionType = .hmac then hmacSessionFirst else policySessionFirst) + UInt32.ofNat i

end TpmHandle

/-- The part of `STATE_RESET_DATA` that tracks session contexts. -/
structure StateResetData where
  contextArray : SessionIndex → Nat := fun _ => 0
  contextCounter : Nat := 4

/-- `gr` with the static variables of `Session.c`. A slot that is not occupied is `none`. -/
structure SessionTable extends StateResetData where
  sessions : SessionSlot → Option Session := fun _ => none
  freeSessionSlots : Nat := 3
  oldestSavedSession : Nat := 65
  contextSlotMask : Nat := 0xffff

/-- A saved session as `TPM2_ContextSave` gives it out. -/
structure SessionContext where
  savedHandle : TpmHandle
  sequence : Nat
  session : Session
  deriving DecidableEq

/-- What `SessionCreate` sets by the type of the session. -/
def Session.ofType (session : Session) (sessionType : SessionType) : Session :=
  { session with
    attributes :=
      { session.attributes with
        isPolicy := decide (sessionType ≠ .hmac)
        isTrialPolicy := decide (sessionType = .trial) } }

namespace SessionTable

/-- `CONTEXT_SLOT_MASKED`. -/
def masked (t : SessionTable) (v : Nat) : Nat := (v % 2 ^ 16) &&& t.contextSlotMask

/-- The assertion on `s_ContextSlotMask`. -/
def maskIsValid (t : SessionTable) : Bool := t.contextSlotMask == 0xff || t.contextSlotMask == 0xffff

/-- The entry that a number designates. -/
def entryAt (n : Nat) : Option SessionIndex := if h : n < 64 then some ⟨n, h⟩ else none

/-- How far a saved entry is ahead of the counter. -/
def age (t : SessionTable) (i : SessionIndex) : Option Nat :=
  if 3 < t.contextArray i then some (t.masked (t.contextArray i + 2 ^ 16 - t.masked t.contextCounter)) else none

/-- `ContextIdSetOldest`. -/
def contextIdSetOldest (t : SessionTable) : SessionTable :=
  { t with oldestSavedSession := ((List.finRange 64).foldl (leastStep t.age Fin.val) (t.masked 0xffff, 65)).2 }

/-- `SessionStartup`. -/
def sessionStartup (kind : StartupKind) (t : SessionTable) : SessionTable :=
  let t := { t with sessions := fun _ => none, freeSessionSlots := 3 }
  match kind with
  | .reset =>
      { t with
        contextArray := fun _ => 0
        contextCounter := 3 + 1
        oldestSavedSession := 64 + 1
        contextSlotMask := 0xffff }
  | .restart | .resume =>
      contextIdSetOldest { t with contextArray := fun i => if t.contextArray i ≤ 3 then 0 else t.contextArray i }

/-- `SessionIsLoaded`. -/
def sessionIsLoaded (handle : TpmHandle) (t : SessionTable) : Bool :=
  match entryAt handle.index with
  | none => false
  | some i => decide (t.contextArray i ≠ 0 ∧ t.contextArray i ≤ 3)

/-- `SessionIsSaved`. -/
def sessionIsSaved (handle : TpmHandle) (t : SessionTable) : Bool :=
  match entryAt handle.index with
  | none => false
  | some i => decide (t.contextArray i ≠ 0 ∧ 3 < t.contextArray i)

/-- `SequenceNumberForSavedContextIsValid`. -/
def sequenceNumberForSavedContextIsValid (context : SessionContext) (t : SessionTable) : Except Fault Bool :=
  if t.maskIsValid = false then .error .failureMode
  else
    match entryAt context.savedHandle.index with
    | none => .ok false
    | some i =>
        .ok (decide (3 < t.contextArray i ∧ t.contextArray i = t.masked context.sequence ∧
          context.sequence ≤ t.contextCounter ∧ t.contextCounter - context.sequence ≤ t.masked 0xffff + 1))

/-- The slot that an entry for a loaded session names. -/
def slotAt (v : Nat) : Option SessionSlot := if h : 0 < v ∧ v - 1 < 3 then some ⟨v - 1, h.2⟩ else none

/-- `SessionGet`. It does not look whether the slot is occupied; where it is not, what it points to is
not a session. -/
def sessionGet (handle : TpmHandle) (t : SessionTable) : Except Fault Session := do
  demand handle.isSession .failureMode
  match entryAt handle.index with
  | none => .error .failureMode
  | some i =>
      match slotAt (t.contextArray i) with
      | none => .error .failureMode
      | some k =>
          match t.sessions k with
          | none => .error .overrun
          | some x => .ok x

/-- The next identifier would have the low bits of the oldest saved one. -/
def gapIsMaximal (t : SessionTable) : Bool :=
  match entryAt t.oldestSavedSession with
  | none => false
  | some i => t.contextArray i == t.masked t.contextCounter

/-- `ContextIdSessionCreate`. -/
def contextIdSessionCreate (slot : SessionSlot) (t : SessionTable) : Except Fault SessionIndex × SessionTable :=
  if t.freeSessionSlots = 1 ∧ t.gapIsMaximal = true then (.error (.of .contextGap), t)
  else
    match (List.finRange 64).find? fun i => t.contextArray i == 0 with
    | none => (.error (.of .sessionHandles), t)
    | some i => (.ok i, { t with contextArray := Function.update t.contextArray i (t.masked (slot + 1)) })

/-- The first slot that is not occupied. -/
def vacantSlot (t : SessionTable) : Option SessionSlot := (List.finRange 3).find? fun k => (t.sessions k).isNone

/-- `SessionCreate`; `session` is what it writes into the slot beside the type. -/
def sessionCreate (sessionType : SessionType) (session : Session) (t : SessionTable) :
    Except Fault TpmHandle × SessionTable :=
  if t.freeSessionSlots = 0 then (.error (.of .sessionMemory), t)
  else
    match t.vacantSlot with
    | none => (.error .failureMode, t)
    | some k =>
        match t.contextIdSessionCreate k with
        | (.error e, t) => (.error e, t)
        | (.ok i, t) =>
            (.ok (.ofSession sessionType i),
              { t with
                freeSessionSlots := t.freeSessionSlots - 1
                sessions := Function.update t.sessions k (some (session.ofType sessionType)) })

/-- A slot is given back. -/
def release (v : Nat) (t : SessionTable) : SessionTable :=
  match slotAt v with
  | none => t
  | some k =>
      { t with sessions := Function.update t.sessions k none, freeSessionSlots := t.freeSessionSlots + 1 }

/-- `SessionContextSave`. When the counter has come to its end the entry has already been overwritten. -/
def sessionContextSave (handle : TpmHandle) (t : SessionTable) : Except Fault Nat × SessionTable :=
  if t.sessionIsLoaded handle = false ∨ t.maskIsValid = false then (.error .failureMode, t)
  else if t.gapIsMaximal then (.error (.of .contextGap), t)
  else
    match entryAt handle.index with
    | none => (.error .failureMode, t)
    | some i =>
        let slot := t.contextArray i
        let contextId := t.contextCounter
        let t :=
          { t with
            contextArray := Function.update t.contextArray i (t.masked t.contextCounter)
            contextCounter := (t.contextCounter + 1) % 2 ^ 64 }
        if t.contextCounter = 0 then (.error (.of .tooManyContexts), { t with contextCounter := 2 ^ 64 - 1 })
        else
          let t :=
            if t.masked t.contextCounter = 0 then { t with contextCounter := (t.contextCounter + 3 + 1) % 2 ^ 64 } else t
          let t := if 64 ≤ t.oldestSavedSession then { t with oldestSavedSession := i } else t
          (.ok contextId, t.release slot)

/-- `SessionContextLoad`. -/
def sessionContextLoad (session : Session) (handle : TpmHandle) (t : SessionTable) : Except Fault Unit × SessionTable :=
  if t.maskIsValid = false ∨ handle.isSession = false then (.error .failureMode, t)
  else if t.freeSessionSlots = 0 then (.error (.of .sessionMemory), t)
  else
    match t.vacantSlot with
    | none => (.error .failureMode, t)
    | some k =>
        if t.freeSessionSlots = 1 ∧ t.gapIsMaximal = true ∧ handle.index ≠ t.oldestSavedSession then
          (.error (.of .contextGap), t)
        else
          match entryAt handle.index with
          | none => (.error .failureMode, t)
          | some i =>
              let t := { t with contextArray := Function.update t.contextArray i (k + 1) }
              let t := if i.val = t.oldestSavedSession then t.contextIdSetOldest else t
              (.ok (),
                { t with
                  sessions := Function.update t.sessions k (some session)
                  freeSessionSlots := t.freeSessionSlots - 1 })

/-- `SessionFlush`. -/
def sessionFlush (handle : TpmHandle) (t : SessionTable) : Except Fault Unit × SessionTable :=
  if (handle.isSession && (t.sessionIsLoaded handle || t.sessionIsSaved handle)) = false then (.error .failureMode, t)
  else
    match entryAt handle.index with
    | none => (.error .failureMode, t)
    | some i =>
        let slot := t.contextArray i
        let t := { t with contextArray := Function.update t.contextArray i 0 }
        if 3 < slot then (.ok (), if i.val = t.oldestSavedSession then t.contextIdSetOldest else t)
        else (.ok (), t.release slot)

end SessionTable

/-! ## The commands -/

/-- What the commands have reported of a handle. -/
inductive SessionStatus
  | absent
  | loaded
  | saved (context : SessionContext)
  deriving DecidableEq

/-- What the status becomes at startup: what was loaded is gone. -/
def SessionStatus.afterStartup : SessionStatus → SessionStatus
  | .loaded => .absent
  | s => s

/-- The session table with what of it survives a power cycle. No command reads `status`, `contexts` or
`savedStatus`: they record what the commands have reported. -/
structure SessionMachine where
  table : SessionTable := {}
  /-- `gp.orderlyState`, while that is orderly. -/
  orderly : Option ShutdownType := none
  /-- `NV_STATE_RESET_DATA`. -/
  stateResetData : StateResetData := {}
  status : SessionIndex → SessionStatus := fun _ => .absent
  savedStatus : SessionIndex → SessionStatus := fun _ => .absent
  /-- The contexts given out since the last TPM Reset, after which the proof that protects them is another. -/
  contexts : List SessionContext := []

inductive SessionReply
  | none
  | handle (sessionHandle : TpmHandle)
  | context (context : SessionContext)

abbrev SessionOutcome := Except Fault SessionReply × SessionMachine

namespace SessionMachine

/-- The machine before its first command, with the counter that `SessionStartup` sets. At the mask 0xff it is the
one of the builds that had `CONTEXT_SLOT` as `UINT8`, whose state this build resumes. -/
def initial (mask : Nat) : SessionMachine := { table := { contextSlotMask := mask } }

/-- `RETURN_IF_ORDERLY`, with the status of NV at the time. -/
def returnIfOrderly (nvStatus : Option RcCode) (m : SessionMachine) : Except Fault Unit :=
  match m.orderly, nvStatus with
  | some _, some c => .error (.of c)
  | _, _ => .ok ()

/-- `TPM2_StartAuthSession`; `checks` is what its validation of the other inputs finds. -/
def startAuthSession (sessionType : SessionType) (checks : Option TpmRc) (session : Session)
    (m : SessionMachine) : SessionOutcome :=
  match checks with
  | some c => (.error (.rc c), m)
  | none =>
      match m.table.sessionCreate sessionType session with
      | (.error e, table) => (.error e, { m with table })
      | (.ok handle, table) =>
          (.ok (.handle handle),
            { m with table, status := fun i => if i.val = handle.index then .loaded else m.status i })

/-- `EntityGetLoadStatus` for a session. -/
def entityGetLoadStatus (handle : TpmHandle) (m : SessionMachine) : Except Fault Unit := do
  demand (m.table.sessionIsLoaded handle) (.of .referenceH0)
  let session ← m.table.sessionGet handle
  demand (session.attributes.isPolicy == (handle.getType == TpmHandle.htPolicySession)) (.at .handle 0x100)

/-- `TPM2_ContextSave` of a session. -/
def contextSave (nvStatus : Option RcCode) (handle : TpmHandle) (m : SessionMachine) : SessionOutcome :=
  if handle.isSessionContext = false then (.error (.at .value 0x100), m)
  else
    match m.entityGetLoadStatus handle with
    | .error e => (.error e, m)
    | .ok _ =>
        match m.returnIfOrderly nvStatus with
        | .error e => (.error e, m)
        | .ok _ =>
            -- from here on the shutdown state is given up, whatever the command returns
            let m := { m with orderly := none }
            match m.table.sessionGet handle with
            | .error e => (.error e, m)
            | .ok session =>
                match m.table.sessionContextSave handle with
                | (.error e, table) => (.error e, { m with table })
                | (.ok sequence, table) =>
                    let context : SessionContext := ⟨handle, sequence, session⟩
                    (.ok (.context context),
                      { m with
                        table
                        status := fun i => if i.val = handle.index then .saved context else m.status i
                        contexts := context :: m.contexts })

/-- `TPM2_ContextLoad` of a session; `integrity` is what comes before the switch over the handle's type. -/
def contextLoad (nvStatus : Option RcCode) (integrity : Option TpmRc) (context : SessionContext)
    (m : SessionMachine) : SessionOutcome :=
  if context.savedHandle.isSessionContext = false then (.error (.at .value 0x140), m)
  else
    match integrity with
    | some c => (.error (.rc c), m)
    | none =>
        match m.returnIfOrderly nvStatus with
        | .error e => (.error e, m)
        | .ok _ =>
            let m := { m with orderly := none }
            match m.table.sequenceNumberForSavedContextIsValid context with
            | .error e => (.error e, m)
            | .ok false => (.error (.at .handle 0x140), m)
            | .ok true =>
                match m.table.sessionContextLoad context.session context.savedHandle with
                | (.error e, table) => (.error e, { m with table })
                | (.ok _, table) =>
                    (.ok (.handle context.savedHandle),
                      { m with
                        table
                        status := fun i => if i.val = context.savedHandle.index then .loaded else m.status i })

/-- A session is flushed by a command. -/
def flush (handle : TpmHandle) (m : SessionMachine) : SessionOutcome :=
  match m.table.sessionFlush handle with
  | (.error e, table) => (.error e, { m with table })
  | (.ok _, table) =>
      (.ok .none, { m with table, status := fun i => if i.val = handle.index then .absent else m.status i })

/-- `TPM2_FlushContext` of a session. -/
def flushContext (handle : TpmHandle) (m : SessionMachine) : SessionOutcome :=
  if handle.isSessionContext = false then (.error (.at .value 0x140), m)
  else if (m.table.sessionIsLoaded handle || m.table.sessionIsSaved handle) = false then
    (.error (.at .handle 0x140), m)
  else m.flush handle

/-- A command changes a loaded session, be it a policy command or one that the session authorizes. -/
def change (handle : TpmHandle) (f : Session → Session) (m : SessionMachine) : SessionMachine :=
  match SessionTable.entryAt handle.index with
  | none => m
  | some i =>
      match SessionTable.slotAt (m.table.contextArray i) with
      | none => m
      | some k =>
          { m with
            table := { m.table with sessions := Function.update m.table.sessions k ((m.table.sessions k).map f) } }

/-- Any other command that uses a session, which ends it unless `continueSession` is set. -/
def useSession (handle : TpmHandle) (f : Session → Session) (continueSession : Bool) (m : SessionMachine) :
    SessionOutcome :=
  if handle.isSession = false then (.error (.of .value), m)
  else
    match m.entityGetLoadStatus handle with
    | .error e => (.error e, m)
    | .ok _ =>
        let m := m.change handle f
        if continueSession then (.ok .none, m) else m.flush handle

/-- `TPM2_Shutdown`. -/
def shutdown (nvStatus : Option RcCode) (pcrReConfig : Bool) (shutdownType : ShutdownType) (m : SessionMachine) :
    SessionOutcome :=
  match nvStatus with
  | some c => (.error (.of c), m)
  | none =>
      if pcrReConfig && shutdownType == .state then (.error (.at .type 0x140), m)
      else
        let m := { m with orderly := some shutdownType }
        if shutdownType = .state then
          (.ok .none, { m with stateResetData := m.table.toStateResetData, savedStatus := m.status })
        else (.ok .none, m)

/-- `TPM2_Startup` for TPM Reset, TPM Restart or TPM Resume. -/
def start (kind : StartupKind) (m : SessionMachine) : SessionMachine :=
  match kind with
  | .reset =>
      { m with
        table := m.table.sessionStartup .reset
        orderly := none
        status := fun _ => .absent
        contexts := [] }
  | kind =>
      { m with
        table := { m.table with toStateResetData := m.stateResetData }.sessionStartup kind
        orderly := none
        status := fun i => (m.savedStatus i).afterStartup }

/-- `TPM2_Startup`; `nvOk` is `g_nvOk`, and `sameStart` what a Resume finds of the startup locality and the
H-CRTM. -/
def startup (nvStatus : Option RcCode) (startupType : ShutdownType) (nvOk : Bool) (sameStart : Option TpmRc)
    (m : SessionMachine) : SessionOutcome :=
  match nvStatus with
  | some c => (.error (.of c), m)
  | none =>
      match startupType with
      | .state =>
          if m.orderly ≠ some .state then (.error (.at .value 0x140), m)
          else if nvOk = false then (.error (.of .nvUninitialized), m)
          else
            match sameStart with
            | some c => (.error (.rc c), m)
            | none => (.ok .none, m.start .resume)
      | .clear =>
          if m.orderly = some .state ∧ nvOk = true then (.ok .none, m.start .restart)
          else (.ok .none, m.start .reset)

end SessionMachine

/-- The commands that reach the session table, with what they ask of other modules. -/
inductive SessionCommand
  | startup (nvStatus : Option RcCode) (startupType : ShutdownType) (nvOk : Bool) (sameStart : Option TpmRc)
  | shutdown (nvStatus : Option RcCode) (pcrReConfig : Bool) (shutdownType : ShutdownType)
  | startAuthSession (sessionType : SessionType) (checks : Option TpmRc) (session : Session)
  | contextSave (nvStatus : Option RcCode) (handle : TpmHandle)
  | contextLoad (nvStatus : Option RcCode) (integrity : Option TpmRc) (context : SessionContext)
  | flushContext (handle : TpmHandle)
  | useSession (handle : TpmHandle) (f : Session → Session) (continueSession : Bool)

/-- A command is carried out. -/
def SessionMachine.act (m : SessionMachine) : SessionCommand → SessionOutcome
  | .startup nvStatus startupType nvOk sameStart => m.startup nvStatus startupType nvOk sameStart
  | .shutdown nvStatus pcrReConfig shutdownType => m.shutdown nvStatus pcrReConfig shutdownType
  | .startAuthSession sessionType checks session => m.startAuthSession sessionType checks session
  | .contextSave nvStatus handle => m.contextSave nvStatus handle
  | .contextLoad nvStatus integrity context => m.contextLoad nvStatus integrity context
  | .flushContext handle => m.flushContext handle
  | .useSession handle f continueSession => m.useSession handle f continueSession

end PqcTpm
