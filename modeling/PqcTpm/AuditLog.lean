import PqcTpm.PcrPolicy
import PqcTpm.SessionStore

/-!
# Audit logs

The audit of commands and of sessions in `SessionProcess.c`, over the commands that change what is audited
(`AuditCommands.c`, `AttestationCommands.c`) or which sessions there are. `AuditLedger` writes down, from outside,
which commands have succeeded; the digests are to be those of its logs.
-/
namespace PqcTpm
open ByteCodec Transition

/-! ## What is logged -/

/-- A command that has succeeded, with its parameters as they were transmitted. -/
structure AuditEntry where
  code : Nat
  names : List Bytes
  parameters : Bytes
  response : Bytes
  deriving DecidableEq

/-- `gr.commandAuditDigest`; the sizes 0 and 1 stand for a log that has not begun. -/
structure AuditDigest where
  size : Nat := 0
  buffer : Bytes := []
  deriving DecidableEq

def AuditDigest.bytes (d : AuditDigest) : Bytes := d.buffer.take d.size

/-- The part of `COMMAND` that is hashed, and the hashes that have been computed; an empty one has not. -/
structure HashedCommand where
  code : Nat
  names : List Bytes
  parameterBuffer : Bytes
  cpHash : HashAlg → Bytes := fun _ => []
  rpHash : HashAlg → Bytes := fun _ => []

section
variable (H : PolicyHash)

namespace AuditEntry

def cpHash (alg : HashAlg) (e : AuditEntry) : Bytes :=
  H.hash alg (be 4 e.code ++ e.names.flatten ++ e.parameters)

def rpHash (alg : HashAlg) (e : AuditEntry) : Bytes := H.hash alg (be 4 0 ++ be 4 e.code ++ e.response)

/-- One step of a log. -/
def extend (alg : HashAlg) (digest : Bytes) (e : AuditEntry) : Bytes :=
  H.hash alg (digest ++ e.cpHash H alg ++ e.rpHash H alg)

end AuditEntry

/-- The digest of a log. -/
def logDigest (alg : HashAlg) (log : List AuditEntry) : Bytes :=
  log.foldl (AuditEntry.extend H alg) (List.replicate alg.digestSize 0)

namespace HashedCommand

/-- `ComputeCpHash`. -/
def computeCpHash (alg : HashAlg) (c : HashedCommand) : HashedCommand :=
  if c.cpHash alg = [] then
    { c with
      cpHash := Function.update c.cpHash alg (H.hash alg (be 4 c.code ++ c.names.flatten ++ c.parameterBuffer)) }
  else c

/-- `GetCpHash`. -/
def getCpHash (alg : HashAlg) (c : HashedCommand) : Except Fault Bytes :=
  if c.cpHash alg = [] then .error .failureMode else .ok (c.cpHash alg)

/-- `ComputeRpHash`. -/
def computeRpHash (alg : HashAlg) (c : HashedCommand) : HashedCommand :=
  if c.rpHash alg = [] then
    { c with rpHash := Function.update c.rpHash alg (H.hash alg (be 4 0 ++ be 4 c.code ++ c.parameterBuffer)) }
  else c

/-- `UpdateAuditDigest`. -/
def updateAuditDigest (alg : HashAlg) (digest : Bytes) (c : HashedCommand) : Except Fault (Bytes × HashedCommand) := do
  let cpHash ← c.getCpHash alg
  let c := c.computeRpHash H alg
  .ok (H.hash alg (digest ++ cpHash ++ c.rpHash alg), c)

end HashedCommand
end

/-- `InitAuditSession`. -/
def Session.initAuditSession (x : Session) : Session :=
  { x with
    attributes := { x.attributes with isAudit := true, isBound := false }
    policyDigest := List.replicate x.authHashAlg.digestSize 0 }

/-! ## The commands -/

/-- What the action of a command does to sessions and to the audit of commands; `other` is every action that does
nothing to them. -/
inductive AuditAction
  | startup (startupType : ShutdownType) (nvOk : Bool) (sameStart : Option TpmRc)
  | shutdown (pcrReConfig : Bool) (shutdownType : ShutdownType)
  | startAuthSession (sessionType : SessionType) (checks : Option TpmRc) (session : Session)
  | contextSave (handle : TpmHandle)
  | contextLoad (checks : Option TpmRc) (context : SessionContext)
  | flushContext (handle : TpmHandle)
  | policy (code : Nat) (handle : TpmHandle) (cmd : PolicyCommand)
  | policyRestart (handle : TpmHandle)
  | setCommandCodeAuditStatus (auditAlg : Option HashAlg) (setList clearList : List Nat)
  | getCommandAuditDigest (checks : Option TpmRc) (isSigned : Bool)
  | other (code : Nat) (checks : Option TpmRc)

def AuditAction.code : AuditAction → Nat
  | .startup .. => 0x144
  | .shutdown .. => 0x145
  | .startAuthSession .. => 0x176
  | .contextSave _ => 0x162
  | .contextLoad .. => 0x161
  | .flushContext _ => 0x165
  | .policy code .. => code
  | .policyRestart _ => 0x180
  | .setCommandCodeAuditStatus .. => 0x140
  | .getCommandAuditDigest .. => 0x133
  | .other code _ => code

/-- A command as it arrives, with what other modules say to it. `checks` is what else is refused before the action;
`hashed` are the algorithms for which the comparison of an HMAC asks for the cpHash. Where no session decrypts or
encrypts, the two functions change nothing. -/
structure AuditCommand where
  action : AuditAction
  names : List Bytes := []
  parameters : Bytes := []
  sessions : List SessionUse := []
  nvStatus : Option RcCode := none
  circumstances : Circumstances
  checks : Option TpmRc := none
  hashed : List HashAlg := []
  decrypt : Bytes → Except TpmRc Bytes := .ok
  response : Bytes := []
  encrypt : Bytes → Bytes := id
  nonceTpm : Bytes := []
  /-- `g_clearOrderly` at the end. -/
  clearOrderly : Bool := false

namespace AuditCommand

def row (a : AuditCommand) : Option CommandRow :=
  commandCodeToCommandIndex a.circumstances.enabledCommands a.action.code

/-- The response parameters as they are transmitted. -/
def transmitted (a : AuditCommand) : Bytes := if a.sessions = [] then a.response else a.encrypt a.response

def entry (a : AuditCommand) : AuditEntry := ⟨a.action.code, a.names, a.parameters, a.transmitted⟩

end AuditCommand

/-! ## The machine -/

/-- Sessions, `g_exclusiveAuditSession`, and the audit of commands in `gp`, in `gr` and in the copy of `gr`. -/
structure AuditMachine where
  mode : TpmMode := .off
  sessions : SessionMachine
  exclusiveAuditSession : TpmHandle := 0
  auditHashAlg : HashAlg := .sha512
  auditCommands : Nat → Bool := fun code => code == 0x140
  auditCounter : Nat := 0
  commandAuditDigest : AuditDigest := {}
  savedAuditDigest : AuditDigest := {}

namespace AuditMachine

def initial (mask : Nat) : AuditMachine := { sessions := .initial mask }

section
variable (H : PolicyHash) (level : Nat)

/-! ### Before the action -/

/-- A round of `RetrieveSessionData`, after the sessions in `before`; what it finds on encryption is left to the
other checks. -/
def retrieveSession (before : List SessionUse) (u : SessionUse) (m : AuditMachine) : Except Fault Unit := do
  let loc := 0x800 + 0x100 * (before.length + 1)
  if u.isPassword then
    demand (!(u.attributes.audit || u.attributes.auditExclusive || u.attributes.auditReset)) (.at .attributes loc)
  else
    demand u.handle.isSession (.at .value loc)
    demand (m.sessions.table.sessionIsLoaded u.handle) (.of .referenceH0)
    let x ← m.sessions.table.sessionGet u.handle
    demand (x.attributes.isPolicy == u.isPolicy) (.at .handle loc)
    demand (!before.any fun b => b.handle == u.handle) (.at .handle loc)
    if u.attributes.audit then
      demand (!before.any fun b => b.attributes.audit) (.at .attributes loc)
      demand (!u.isPolicy) (.at .attributes loc)
      demand (u.attributes.auditReset || !x.attributes.isAudit || !u.attributes.auditExclusive ||
        m.exclusiveAuditSession == u.handle) (.of .exclusive)
    else .ok ()

def retrieveSessionData (m : AuditMachine) : List SessionUse → List SessionUse → Except Fault Unit
  | _, [] => .ok ()
  | before, u :: rest => do
      m.retrieveSession before u
      m.retrieveSessionData (before ++ [u]) rest

/-- The loop body of `ParseSessionBuffer`, up to the comparison. -/
def parseSession (m : AuditMachine) (c : HashedCommand) (u : SessionUse) : Except Fault HashedCommand :=
  if u.isPassword then .ok c
  else do
    let x ← m.sessions.table.sessionGet u.handle
    demand (!x.attributes.isTrialPolicy) (.of .attributes)
    .ok (if u.attributes.audit then c.computeCpHash H x.authHashAlg else c)

/-- `CheckCommandAudit`. -/
def checkCommandAudit (nvStatus : Option RcCode) (m : AuditMachine) (c : HashedCommand) : Except Fault HashedCommand :=
  match nvStatus with
  | some rc =>
      if m.commandAuditDigest.size = 0 ∨ c.code = 0x133 then .error (.of rc) else .ok (c.computeCpHash H m.auditHashAlg)
  | none => .ok (c.computeCpHash H m.auditHashAlg)

/-- The command has to be prepared for its audit where `CommandAuditIsRequired`. -/
def prepareAudit (nvStatus : Option RcCode) (m : AuditMachine) (c : HashedCommand) : Except Fault HashedCommand :=
  if m.auditCommands c.code then m.checkCommandAudit H nvStatus c else .ok c

/-- `ParseSessionBuffer`, or `CheckAuthNoSession` for a command without sessions. -/
def parseSessionBuffer (row : CommandRow) (a : AuditCommand) (m : AuditMachine) : Except Fault HashedCommand := do
  let c : HashedCommand := { code := a.action.code, names := a.names, parameterBuffer := a.parameters }
  demand (a.sessions.isEmpty || row.isSessionAllowed) (.of .authContext)
  m.retrieveSessionData [] a.sessions
  let c ← a.sessions.foldlM (m.parseSession H) c
  let c := a.hashed.foldl (fun c alg => c.computeCpHash H alg) c
  match a.checks with
  | some rc => .error (.rc rc)
  | none =>
      let c ← m.prepareAudit H a.nvStatus c
      let parameterBuffer ← (a.decrypt c.parameterBuffer).mapError .rc
      .ok { c with parameterBuffer }

/-! ### The actions -/

/-- `CommandAuditSet` and `CommandAuditClear` of the codes of two lists. -/
def auditBits (implemented : Nat → Bool) (setList clearList : List Nat) (bits : Nat → Bool) (code : Nat) : Bool :=
  if implemented code && clearList.contains code && code != 0x140 then false
  else bits code || (implemented code && setList.contains code && code != 0x145)

/-- The hash algorithm that a command sets. -/
def newAuditAlg (auditAlg : Option HashAlg) (m : AuditMachine) : Option HashAlg :=
  auditAlg.filter fun alg => alg != m.auditHashAlg

/-- `TPM2_SetCommandCodeAuditStatus`. -/
def setCommandCodeAuditStatus (nvStatus : Option RcCode) (implemented : Nat → Bool) (auditAlg : Option HashAlg)
    (setList clearList : List Nat) (m : AuditMachine) : Except Fault SessionReply × AuditMachine :=
  match nvStatus with
  | some rc => (.error (.of rc), m)
  | none =>
      match m.newAuditAlg auditAlg with
      | some alg =>
          if setList ≠ [] ∨ clearList ≠ [] then (.error (.at .value 0x140), m)
          else
            -- the size tells `CommandAudit` that the digest starts anew
            (.ok .none,
              { m with auditHashAlg := alg, commandAuditDigest := { m.commandAuditDigest with size := 1 } })
      | none => (.ok .none, { m with auditCommands := auditBits implemented setList clearList m.auditCommands })

/-- A command changes a policy session. -/
def onPolicySession (handle : TpmHandle) (f : Session → PolicyOutcome) (m : AuditMachine) :
    Except Fault SessionReply × AuditMachine :=
  if handle.getType ≠ TpmHandle.htPolicySession then (.error (.of .value), m)
  else
    match m.sessions.entityGetLoadStatus handle, m.sessions.table.sessionGet handle with
    | .ok _, .ok x =>
        ((f x).1.map fun _ => .none, { m with sessions := m.sessions.change handle fun _ => (f x).2 })
    | .error e, _ | _, .error e => (.error e, m)

/-- A command on which the sessions alone have a say. -/
def onSessions (out : SessionOutcome) (m : AuditMachine) : Except Fault SessionReply × AuditMachine :=
  (out.1, { m with sessions := out.2 })

def act (a : AuditCommand) (m : AuditMachine) : Except Fault SessionReply × AuditMachine :=
  match a.action with
  | .startup startupType nvOk sameStart =>
      match m.sessions.startup a.nvStatus startupType nvOk sameStart with
      | (.error e, _) => (.error e, m)
      | (.ok r, sessions) =>
          (.ok r,
            { m with
              mode := .running
              sessions
              commandAuditDigest :=
                if startupKindOf m.sessions.orderly startupType nvOk = .reset then { m.commandAuditDigest with size := 0 }
                else m.savedAuditDigest })
  | .shutdown pcrReConfig shutdownType =>
      match m.sessions.shutdown a.nvStatus pcrReConfig shutdownType with
      | (.error e, _) => (.error e, m)
      | (.ok r, sessions) =>
          (.ok r,
            { m with
              sessions
              savedAuditDigest := if shutdownType = .state then m.commandAuditDigest else m.savedAuditDigest })
  | .startAuthSession sessionType checks session =>
      m.onSessions (m.sessions.startAuthSession sessionType checks
        { session with attributes := { session.attributes with isAudit := false } })
  | .contextSave handle => m.onSessions (m.sessions.contextSave a.nvStatus handle)
  | .contextLoad checks context =>
      -- no integrity value matches but that of a context that has been given out
      let integrity := if context ∈ m.sessions.contexts then checks else some ⟨.integrity, 0x140⟩
      m.onSessions (m.sessions.contextLoad a.nvStatus integrity context)
  | .flushContext handle =>
      match m.sessions.flushContext handle with
      | (.error e, sessions) => (.error e, { m with sessions })
      | (.ok r, sessions) =>
          (.ok r,
            { m with
              sessions
              exclusiveAuditSession :=
                if handle = m.exclusiveAuditSession then TpmHandle.rhUnassigned else m.exclusiveAuditSession })
  | .policy _ handle cmd => m.onPolicySession handle fun x => cmd.act H level a.circumstances x
  | .policyRestart handle => m.onPolicySession handle fun x => (.ok (), x.resetPolicyData)
  | .setCommandCodeAuditStatus auditAlg setList clearList =>
      m.setCommandCodeAuditStatus a.nvStatus
        (fun code => (commandCodeToCommandIndex a.circumstances.enabledCommands code).isSome) auditAlg setList clearList
  | .getCommandAuditDigest checks isSigned =>
      match checks with
      | some rc => (.error (.rc rc), m)
      | none =>
          (.ok .none,
            if isSigned then { m with commandAuditDigest := { m.commandAuditDigest with size := 0 } } else m)
  | .other _ checks =>
      match checks with
      | some rc => (.error (.rc rc), m)
      | none => (.ok .none, m)

/-! ### After the action -/

/-- The loop body of `UpdateAuditSessionStatus`. -/
def auditSession (p : AuditMachine × HashedCommand) (u : SessionUse) : Except Fault (AuditMachine × HashedCommand) :=
  if u.isPassword || !u.attributes.audit then .ok p
  else do
    let x ← p.1.sessions.table.sessionGet u.handle
    let starts := !x.attributes.isAudit || u.attributes.auditReset
    let x := if starts then x.initAuditSession else x
    let (digest, c) ← p.2.updateAuditDigest H x.authHashAlg x.policyDigest
    .ok ({ p.1 with
        sessions := p.1.sessions.change u.handle fun _ => { x with policyDigest := digest }
        exclusiveAuditSession :=
          if starts then u.handle
          else if p.1.exclusiveAuditSession ≠ u.handle then TpmHandle.rhUnassigned
          else p.1.exclusiveAuditSession }, c)

/-- `UpdateAuditSessionStatus`. -/
def updateAuditSessionStatus (row : CommandRow) (a : AuditCommand) (m : AuditMachine) (c : HashedCommand) :
    Except Fault (AuditMachine × HashedCommand) := do
  let (m, c) ← a.sessions.foldlM (auditSession H) (m, c)
  if (a.sessions.any fun u => u.attributes.audit) = false ∧ row.isSessionAllowed = true then
    .ok ({ m with exclusiveAuditSession := TpmHandle.rhUnassigned }, c)
  else .ok (m, c)

/-- `CommandAudit`. -/
def commandAudit (m : AuditMachine) (c : HashedCommand) : Except Fault AuditMachine :=
  if m.commandAuditDigest.size = 1 then
    .ok { m with commandAuditDigest := { m.commandAuditDigest with size := 0 } }
  else do
    let m :=
      if m.commandAuditDigest.size = 0 then
        { m with
          commandAuditDigest := ⟨m.auditHashAlg.digestSize, List.replicate m.auditHashAlg.digestSize 0⟩
          auditCounter := (m.auditCounter + 1) % 2 ^ 64 }
      else m
    let (digest, _) ← c.updateAuditDigest H m.auditHashAlg m.commandAuditDigest.bytes
    .ok { m with commandAuditDigest := ⟨m.auditHashAlg.digestSize, digest⟩ }

def finishAudit (m : AuditMachine) (c : HashedCommand) : Except Fault AuditMachine :=
  if m.auditCommands c.code then m.commandAudit H c else .ok m

/-- The session of the loop at the end of `BuildResponseSession`. -/
def respondSession (a : AuditCommand) (m : AuditMachine) (u : SessionUse) : Except Fault AuditMachine :=
  if u.isPassword then .ok m
  else do
    let x ← m.sessions.table.sessionGet u.handle
    let sessions := m.sessions.change u.handle fun _ => x.respond a.circumstances a.nonceTpm
    if u.attributes.continueSession then .ok { m with sessions }
    else
      match sessions.flush u.handle with
      | (.error e, _) => .error e
      | (.ok _, sessions) => .ok { m with sessions }

/-- `BuildResponseSession`. -/
def buildResponseSession (row : CommandRow) (a : AuditCommand) (c : HashedCommand) (m : AuditMachine) :
    Except Fault AuditMachine := do
  let (m, c) ← m.updateAuditSessionStatus H row a { c with parameterBuffer := a.transmitted }
  let m ← m.finishAudit H c
  a.sessions.foldlM (respondSession a) m

/-! ### A command as a whole -/

def execute (a : AuditCommand) (m : AuditMachine) : Except Fault SessionReply × AuditMachine :=
  match a.row with
  | none => (.error (.of .commandCode), m)
  | some row =>
      match m.parseSessionBuffer H row a with
      | .error e => (.error e, m)
      | .ok c =>
          match m.act H level a with
          | (.error e, m) => (.error e, m)
          | (.ok r, m) =>
              match m.buildResponseSession H row a c with
              | .error e => (.error e, m)
              | .ok m => (.ok r, m)

end
end AuditMachine

/-- What happens. Where the process goes on, memory keeps `g_exclusiveAuditSession` through a loss of power. -/
inductive AuditEvent
  | powerLoss (sameProcess : Bool) (memory : AuditDigest)
  | command (a : AuditCommand)

namespace AuditMachine

/-- Before `TPM2_Startup` no other command is carried out, and after it not this one. -/
def accepts (m : AuditMachine) (a : AuditCommand) : Bool :=
  match m.mode, a.action with
  | .off, .startup .. => true
  | .running, action => action.code != 0x144
  | _, _ => false

/-- The end of `ExecuteCommand`. -/
def cleanup (a : AuditCommand) (out : Except Fault SessionReply × AuditMachine) : AuditMachine :=
  match out.1 with
  | .error .failureMode | .error .overrun => { out.2 with mode := .failed }
  | _ => if a.clearOrderly then { out.2 with sessions := { out.2.sessions with orderly := none } } else out.2

def step (H : PolicyHash) (level : Nat) (m : AuditMachine) : AuditEvent → AuditMachine
  | .powerLoss sameProcess memory =>
      { m with
        mode := .off
        exclusiveAuditSession := if sameProcess then m.exclusiveAuditSession else 0
        commandAuditDigest := memory }
  | .command a => if m.accepts a then cleanup a (m.execute H level a) else m

end AuditMachine

/-! ## The ledger -/

/-- What an observer writes down. A session keeps the number that it gets when it is started, whatever becomes of its
handle; `since` are the audit sessions of the commands since a session has last been made the exclusive one. -/
structure AuditLedger where
  identity : SessionIndex → Nat := fun _ => 0
  savedIdentity : SessionIndex → Nat := fun _ => 0
  fresh : Nat := 0
  sessionLog : Nat → List AuditEntry := fun _ => []
  commandLog : List AuditEntry := []
  since : List (Option Nat) := []

/-- The command sets another hash algorithm for the audit of commands. -/
def AuditMachine.changesAlg (m : AuditMachine) (a : AuditCommand) : Bool :=
  match a.action with
  | .setCommandCodeAuditStatus auditAlg .. => (m.newAuditAlg auditAlg).isSome
  | _ => false

namespace AuditLedger

/-- A session is started, under a number of its own. -/
def start (i : SessionIndex) (l : AuditLedger) : AuditLedger :=
  { l with identity := Function.update l.identity i l.fresh, fresh := l.fresh + 1 }

/-- A command has done its action. -/
def ofAction (a : AuditCommand) (m : AuditMachine) (r : SessionReply) (l : AuditLedger) : AuditLedger :=
  match a.action, r with
  | .startup startupType nvOk _, _ =>
      if startupKindOf m.sessions.orderly startupType nvOk = .reset then { l with commandLog := [] }
      else { l with identity := l.savedIdentity }
  | .shutdown _ .state, _ => { l with savedIdentity := l.identity }
  | .startAuthSession .., .handle h =>
      match SessionTable.entryAt h.index with
      | some i => l.start i
      | none => l
  | .setCommandCodeAuditStatus .., _ => if m.changesAlg a then { l with commandLog := [] } else l
  | .getCommandAuditDigest _ true, _ => { l with commandLog := [] }
  | _, _ => l

/-- A session was used to audit the command. -/
def ofSession (a : AuditCommand) (l : AuditLedger) (u : SessionUse) : AuditLedger :=
  if u.isPassword || !u.attributes.audit then l
  else
    match SessionTable.entryAt u.handle.index with
    | none => l
    | some i =>
        let n := l.identity i
        let log := if u.attributes.auditReset then [] else l.sessionLog n
        { l with
          sessionLog := Function.update l.sessionLog n (log ++ [a.entry])
          since := (if log = [] then [] else l.since) ++ [some n] }

/-- The command allows sessions and had none to audit it. -/
def ofOthers (row : CommandRow) (a : AuditCommand) (l : AuditLedger) : AuditLedger :=
  if (a.sessions.any fun u => u.attributes.audit) = false ∧ row.isSessionAllowed = true then
    { l with since := l.since ++ [none] }
  else l

/-- The command itself is audited, unless it is the one that changes the algorithm. -/
def ofCommand (a : AuditCommand) (m : AuditMachine) (l : AuditLedger) : AuditLedger :=
  if m.auditCommands a.action.code && !m.changesAlg a then { l with commandLog := l.commandLog ++ [a.entry] } else l

/-- The response of a command to the machine `m`. -/
def observe (a : AuditCommand) (m : AuditMachine) (r : Except Fault SessionReply) (l : AuditLedger) : AuditLedger :=
  match a.row, r with
  | some row, .ok r => ((a.sessions.foldl (ofSession a) (l.ofAction a m r)).ofOthers row a).ofCommand a m
  | _, _ => l

end AuditLedger

/-- The TPM beside its ledger. -/
structure AuditRun where
  machine : AuditMachine
  ledger : AuditLedger := {}

namespace AuditRun
variable (H : PolicyHash) (level : Nat)

def step (r : AuditRun) (e : AuditEvent) : AuditRun where
  machine := r.machine.step H level e
  ledger :=
    match e with
    | .command a =>
        if r.machine.accepts a then r.ledger.observe a r.machine (r.machine.execute H level a).1 else r.ledger
    | .powerLoss .. => r.ledger

end AuditRun

/-- The digest of a log that may not have begun. -/
structure AuditDigest.Of (H : PolicyHash) (alg : HashAlg) (log : List AuditEntry) (d : AuditDigest) : Prop where
  empty : log = [] → d.size = 0
  begun : log ≠ [] → d.size = alg.digestSize ∧ d.bytes = logDigest H alg log

/-- The logs are exact: of the commands, and of every loaded session; the exclusive one has been used throughout. -/
structure AuditRun.Exact (H : PolicyHash) (r : AuditRun) : Prop where
  command : r.machine.commandAuditDigest.Of H r.machine.auditHashAlg r.ledger.commandLog
  session : ∀ handle x, r.machine.sessions.table.sessionGet handle = .ok x → x.attributes.isAudit = true →
    ∀ i : SessionIndex, handle.index = i.val →
      x.policyDigest = logDigest H x.authHashAlg (r.ledger.sessionLog (r.ledger.identity i))
  exclusive : ∀ x, r.machine.sessions.table.sessionGet r.machine.exclusiveAuditSession = .ok x →
    x.attributes.isPolicy = false →
      ∀ i : SessionIndex, r.machine.exclusiveAuditSession.index = i.val →
        ∀ n ∈ r.ledger.since, n = some (r.ledger.identity i)

/-! ## The condition -/

namespace AuditMachine

/-- What a successful command loses at a Restart or a Resume, where it leaves `TPM_SU_STATE` recorded. -/
def forgets (m : AuditMachine) (a : AuditCommand) : Bool :=
  m.auditCommands a.action.code ||
    match a.action with
    | .getCommandAuditDigest _ isSigned => isSigned && m.commandAuditDigest.size != 0
    | _ => false

/-- No start brings back another session under the handle of the exclusive one, no context is saved at the last value
of the counter, and nothing that is recorded at a shutdown is forgotten. -/
def Mindful (H : PolicyHash) (level : Nat) (m : AuditMachine) : AuditEvent → Prop
  | .powerLoss .. => True
  | .command a =>
      m.accepts a = true →
        match a.action with
        | .startup startupType nvOk _ =>
            m.sessions.orderly = some .state → startupKindOf m.sessions.orderly startupType nvOk ≠ .reset →
              ∀ i x, m.sessions.store.kept i = some x → x.attributes.isPolicy = false →
                m.exclusiveAuditSession ≠ .ofSession .hmac i
        | .contextSave _ => m.sessions.table.contextCounter ≠ 2 ^ 64 - 1
        | .contextLoad .. => True
        | _ =>
            m.sessions.orderly = some .state → a.clearOrderly = false → (m.execute H level a).1.isOk = true →
              m.forgets a = false

end AuditMachine

end PqcTpm
