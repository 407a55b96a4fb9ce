import PqcTpm.Commands
import PqcTpm.PolicySession

/-!
# The authorization area of a command

`ParseSessionBuffer` of `SessionProcess.c` with what it calls: which session authorizes
which handle, what stands between a session and the comparison of its authorization, and
what is counted when the comparison has been made. What the comparison itself says is an
input, for a password as for an HMAC.
-/
namespace PqcTpm
open ByteCodec

/-- `TPMA_SESSION`. -/
structure TpmaSession where
  continueSession : Bool := false
  auditExclusive : Bool := false
  auditReset : Bool := false
  decrypt : Bool := false
  encrypt : Bool := false
  audit : Bool := false
  deriving DecidableEq

/-- A session in the authorization area; `genuine` is what `CheckPWAuthSession` or `CheckSessionHMAC` finds
when it compares. -/
structure SessionUse where
  handle : TpmHandle
  attributes : TpmaSession := {}
  nonceCaller : Bytes := []
  genuine : Bool
  deriving DecidableEq

namespace SessionUse

def isPassword (u : SessionUse) : Bool := u.handle == TpmHandle.rsPw

def isPolicy (u : SessionUse) : Bool := u.handle.getType == TpmHandle.htPolicySession

end SessionUse

/-- The state of the TPM with its loaded sessions and the rest of what protects against guessing. -/
structure AuthState (σ : Type) extends TpmState σ where
  sessions : TpmHandle → Option Session := fun _ => none
  maxTries : Nat := 3
  lockoutRecovery : Nat := 1000
  daUsed : Bool := false
  daPendingOnNv : Bool := false
  phEnableNv : Bool := true
  /-- `g_clearOrderly`, which `ExecuteCommand` acts on when the command is over. -/
  clearOrderly : Bool := false

/-- What the authorization of a command asks of other modules. -/
structure AuthWorld where
  hash : PolicyHash
  level : Nat
  circumstances : Circumstances
  physicalPresenceIsRequired : Nat → Bool
  /-- `SessionComputeBoundEntity`. -/
  boundEntity : TpmHandle → Bytes
  /-- Whether a hierarchy, or a group of PCR, has a policy. -/
  hasPolicy : TpmHandle → Bool
  pcrPolicyIsRequired : TpmHandle → Bool
  /-- Whether a session has a symmetric algorithm. -/
  symmetric : TpmHandle → Bool
  /-- The command, as a policy session sees it that authorizes the handle. -/
  authorized : CommandRow → AuthRole → TpmHandle → AuthorizedCommand

/-! ## The tables -/

namespace CommandRow

/-- `CommandAuthRole`. -/
def authRole (c : CommandRow) : Nat → AuthRole
  | 0 =>
      if c.attributes.contains .handle1User then .user
      else if c.attributes.contains .handle1Admin then .admin
      else if c.attributes.contains .handle1Dup then .dup
      else .none
  | 1 => if c.attributes.contains .handle2User then .user else .none
  | _ => .none

/-- `IsSessionAllowed`. -/
def isSessionAllowed (c : CommandRow) : Bool := !c.attributes.contains .noSessions

/-- `EncryptSize` is not zero. -/
def encrypts (c : CommandRow) : Bool := c.attributes.contains .encrypt2

/-- `DecryptSize` is not zero. -/
def decrypts (c : CommandRow) : Bool := c.attributes.contains .decrypt2

/-- `IsWriteOperation`. -/
def isWriteOperation (c : CommandRow) : Bool :=
  [0x137, 0x134, 0x135, 0x136, 0x138].contains c.code

end CommandRow

namespace TpmHandle

/-- `HierarchyNormalizeHandle`. -/
def normalize (h : TpmHandle) : TpmHandle :=
  if h = 0x40000140 then rhOwner
  else if h = 0x40000141 then rhEndorsement
  else if h = 0x40000142 then rhPlatform
  else if h = 0x40000143 then rhNull
  else if h &&& 0xFFFF0000 = 0x40010000 then rhOwner
  else if h &&& 0xFFFF0000 = 0x40020000 then rhEndorsement
  else if h &&& 0xFFFF0000 = 0x40030000 then rhPlatform
  else if h &&& 0xFFFF0000 = 0x40040000 then rhNull
  else h

end TpmHandle

/-! ## NV indices -/

namespace NvIndex

/-- The `TPM_NT` field. -/
def nt (i : NvIndex) : Nat := i.publicArea.attributes.toNat / 16 % 16

def isPinFail (i : NvIndex) : Bool := i.nt == 8
def isPinPass (i : NvIndex) : Bool := i.nt == 9
def isPin (i : NvIndex) : Bool := i.isPinFail || i.isPinPass

end NvIndex

/-- The entry of an index. -/
def NvState.findIndex (nv : NvState) (h : TpmHandle) : Option (NvIndex × Bytes) :=
  match nv.user.find? fun e => e.handle == h with
  | some (.index i data) => some (i, data)
  | _ => none

/-- `NvGetIndexInfo`: the attributes of an orderly index are those in RAM. -/
def NvState.getIndexInfo (nv : NvState) (h : TpmHandle) : Except Fault (Option NvIndex) :=
  match nv.findIndex h with
  | none => .ok none
  | some (i, _) =>
      if i.orderly then
        match nv.ramGetIndex h with
        | some r => .ok (some { i with publicArea := { i.publicArea with attributes := r.attributes } })
        | none => .error .failureMode
      else .ok (some i)

/-- `NvGetIndexInfo` where an index is known to be there. -/
def NvState.indexInfo (nv : NvState) (h : TpmHandle) : Except Fault NvIndex :=
  match nv.getIndexInfo h with
  | .ok (some i) => .ok i
  | .ok none => .error .failureMode
  | .error e => .error e

/-- `NvGetUINT64Data` of the index with a handle. -/
def NvState.getUint64 (nv : NvState) (h : TpmHandle) : Except Fault Nat :=
  match nv.findIndex h with
  | some (i, data) => nvGetUint64Data nv i data
  | none => .error .failureMode

/-- `NvWriteUINT64Data` to an index that has been written: to RAM, or to NV if that is available. -/
def NvState.writeUint64 (nv : NvState) (h : TpmHandle) (v : Nat) : NvState :=
  match nv.findIndex h with
  | none => nv
  | some (i, _) =>
      if i.orderly then
        { nv with ram := nv.ram.map fun r => if r.handle = h then { r with data := be 8 v ++ r.data.drop 8 } else r }
      else if nv.nvStatus.isSome then nv
      else
        { nv with
          user := nv.user.map fun e =>
            match e with
            | .index j data => if j.publicArea.nvIndex = h then .index j (be 8 v ++ data.drop 8) else e
            | .evict _ _ => e }

/-- `PIN_DATA`. -/
structure Pin where
  count : Nat
  limit : Nat
  deriving DecidableEq

def Pin.ofUint64 (v : Nat) : Pin := ⟨v / 2 ^ 32, v % 2 ^ 32⟩

/-- The two counters as one word; they have 32 bits each. -/
def Pin.toUint64 (p : Pin) : Nat := p.count % 2 ^ 32 * 2 ^ 32 + p.limit % 2 ^ 32

/-! ## Sessions -/

namespace AuthState
variable {σ : Type} (W : AuthWorld)

def setSession (s : AuthState σ) (h : TpmHandle) (x : Session) : AuthState σ :=
  { s with sessions := Function.update s.sessions h (some x) }

/-- `IsSessionBindEntity`. -/
def isSessionBindEntity (handle : TpmHandle) (x : Session) : Bool :=
  x.attributes.isBound && W.boundEntity handle == x.u1

/-- The session of a use, unless that is a password. -/
def useSession (u : SessionUse) (s : AuthState σ) : Option Session :=
  if u.isPassword then none else s.sessions u.handle

/-- `authUsed` of `CheckAuthSession`; for a session it is stored as `includeAuth`. -/
def authUsed (handle : TpmHandle) (u : SessionUse) : Option Session → Bool
  | none => true
  | some x =>
      if u.isPolicy then x.attributes.isAuthValueNeeded || x.attributes.isPasswordNeeded
      else !isSessionBindEntity W handle x

def setIncludeAuth (u : SessionUse) (includeAuth : Bool) (s : AuthState σ) : AuthState σ :=
  match useSession u s with
  | none => s
  | some x => s.setSession u.handle { x with attributes := { x.attributes with includeAuth } }

/-- `CheckLockedOut`. -/
def checkLockedOut (lockoutAuthCheck : Bool) (s : AuthState σ) : Except Fault Unit × AuthState σ :=
  match s.nv.nvStatus with
  | some rc =>
      if s.orderly || s.daPendingOnNv then (.error (.rc rc), s)
      else if lockoutAuthCheck then (if s.lockOutAuthEnabled then .ok () else .error (.of .lockout), s)
      else if s.maxTries ≤ s.failedTries then (.error (.of .lockout), s)
      else (if s.daUsed then .ok () else .error (.rc rc), s)
  | none =>
      let s := { s with daPendingOnNv := false }
      if lockoutAuthCheck then (if s.lockOutAuthEnabled then .ok () else .error (.of .lockout), s)
      else if s.maxTries ≤ s.failedTries then (.error (.of .lockout), s)
      else (.ok (), if s.daUsed then s else { s with daUsed := true, orderly := false })

/-! ## What is available -/

/-- `IsAuthValueAvailable`. -/
def isAuthValueAvailable (c : CommandRow) (role : AuthRole) (handle : TpmHandle) (s : AuthState σ) :
    Except Fault Bool :=
  if handle.getType = TpmHandle.htPermanent then
    .ok ([TpmHandle.rhOwner, TpmHandle.rhEndorsement, TpmHandle.rhPlatform, TpmHandle.rhLockout,
      TpmHandle.rhNull].contains handle)
  else if handle.getType = TpmHandle.htTransient then
    if 0x80FF0000 ≤ handle ∧ handle ≤ 0x80FF00FF then .ok true
    else
      match s.handleToObject handle with
      | .ok (some i) =>
          match s.slots i with
          | .sequence _ _ => .ok true
          | .object o =>
              let a := o.publicArea.objectAttributes
              .ok (!o.attributes.publicOnly && (a.userWithAuth || (role == .admin && !a.adminWithPolicy)))
          | .vacant => .error .failureMode
      | .ok none => .error .failureMode
      | .error e => .error e
  else if handle.getType = TpmHandle.htNvIndex then
    match s.nv.indexInfo handle with
    | .error e => .error e
    | .ok i =>
        if c.isWriteOperation then .ok (i.isAttribute 2)
        else if i.isPin then
          if !i.written then .ok false
          else (s.nv.getUint64 handle).map fun v => decide ((Pin.ofUint64 v).count < (Pin.ofUint64 v).limit)
        else .ok (i.isAttribute 18)
  else .ok (handle.getType == TpmHandle.htPcr)

/-- `IsPolicySessionRequired`. -/
def isPolicySessionRequired (role : AuthRole) (handle : TpmHandle) (s : AuthState σ) : Except Fault Bool :=
  match role with
  | .dup => .ok true
  | .admin =>
      if handle.getType = TpmHandle.htTransient then
        if 0x80FF0000 ≤ handle ∧ handle ≤ 0x80FF00FF then .ok false
        else
          match s.handleToObject handle with
          | .ok (some i) => .ok (s.slots i).objectAttributes.adminWithPolicy
          | .ok none => .error .failureMode
          | .error e => .error e
      else .ok true
  | .user | .none =>
      .ok (handle.getType == TpmHandle.htPcr && (W.hasPolicy handle && W.pcrPolicyIsRequired handle))

/-- `IsAuthPolicyAvailable`. -/
def isAuthPolicyAvailable (c : CommandRow) (role : AuthRole) (handle : TpmHandle) (s : AuthState σ) :
    Except Fault Bool :=
  if handle.getType = TpmHandle.htPermanent then
    .ok ([TpmHandle.rhOwner, TpmHandle.rhEndorsement, TpmHandle.rhPlatform, TpmHandle.rhLockout].contains handle &&
      W.hasPolicy handle)
  else if handle.getType = TpmHandle.htTransient then
    if 0x80FF0000 ≤ handle ∧ handle ≤ 0x80FF00FF then .ok false
    else
      match s.handleToObject handle with
      | .ok (some i) =>
          match s.slots i with
          | .sequence _ _ => .ok false
          | .object o => .ok (!o.attributes.publicOnly)
          | .vacant => .error .failureMode
      | .ok none => .error .failureMode
      | .error e => .error e
  else if handle.getType = TpmHandle.htNvIndex then
    match s.nv.indexInfo handle with
    | .error e => .error e
    | .ok i =>
        if i.publicArea.authPolicy.size = 0 then .ok false
        else
          match isPolicySessionRequired W role handle s with
          | .error e => .error e
          | .ok true => .ok true
          | .ok false => .ok (i.isAttribute (if c.isWriteOperation then 3 else 19))
  else .ok (handle.getType == TpmHandle.htPcr && W.hasPolicy handle)

/-! ## Up to the comparison -/

/-- The middle of `CheckAuthSession`: the kind of the session fits the entity. -/
def sessionFits (c : CommandRow) (role : AuthRole) (handle : TpmHandle) (u : SessionUse) (s : AuthState σ) :
    Except Fault Unit :=
  match u.isPolicy, useSession u s with
  | true, some x => do
      let available ← isAuthPolicyAvailable W c role handle s
      demand available (.of .authUnavailable)
      checkPolicyAuthSession W.hash W.level W.circumstances (W.authorized c role handle) x
  | _, _ => do
      let required ← isPolicySessionRequired W role handle s
      demand (!required) (.of .authType)
      let available ← isAuthValueAvailable c role handle s
      demand available (.of .authUnavailable)

/-- The lockout check of `CheckAuthSession`. -/
def checkEntityLockedOut (authUsed : Bool) (handle : TpmHandle) (s : AuthState σ) : Except Fault Unit × AuthState σ :=
  if authUsed then
    match isDaExempted s.toTpmState handle with
    | .error e => (.error e, s)
    | .ok true => (.ok (), s)
    | .ok false => checkLockedOut (handle == TpmHandle.rhLockout) s
  else (.ok (), s)

/-- `CheckAuthSession` up to the comparison: whether the authorization value is used. -/
def authGate (c : CommandRow) (role : AuthRole) (handle : TpmHandle) (u : SessionUse) (s : AuthState σ) :
    Except Fault Bool × AuthState σ :=
  if handle = TpmHandle.rhPlatform ∧ W.physicalPresenceIsRequired c.code = true ∧
      W.circumstances.physicalPresence = false then (.error (.of .pp), s)
  else
    let used := authUsed W handle u (useSession u s)
    match checkEntityLockedOut used handle (setIncludeAuth u used s) with
    | (.error e, s) => (.error e, s)
    | (.ok _, s) =>
        match sessionFits W c role handle u s with
        | .error e => (.error e, s)
        | .ok _ => (.ok used, s)

/-- The loop body of `ParseSessionBuffer` up to the comparison. A handle that nothing is associated with is
`TPM_RH_UNASSIGNED`. -/
def sessionGate (c : CommandRow) (role : AuthRole) (handle : TpmHandle) (u : SessionUse) (s : AuthState σ) :
    Except Fault Bool × AuthState σ :=
  if u.isPassword then
    if handle = TpmHandle.rhUnassigned then (.error (.of .handle), s)
    else if u.attributes.audit || u.attributes.encrypt || u.attributes.decrypt then (.error (.of .attributes), s)
    else authGate W c role handle u s
  else
    match s.sessions u.handle with
    | none => (.error .failureMode, s)
    | some x =>
        if x.attributes.isTrialPolicy then (.error (.of .attributes), s)
        else
          match if x.attributes.isDaBound then checkLockedOut x.attributes.isLockoutBound s else (.ok (), s) with
          | (.error e, s) => (.error e, s)
          | (.ok _, s) =>
              if handle ≠ TpmHandle.rhUnassigned then authGate W c role handle u s
              else if u.attributes.audit || u.attributes.encrypt || u.attributes.decrypt then
                (.ok false, setIncludeAuth u false s)
              else (.error (.of .attributes), s)

/-! ## The comparison -/

/-- What `IncrementLockout` looks at. -/
def authSession (u : SessionUse) (s : AuthState σ) : AuthSession :=
  match useSession u s with
  | none => .password
  | some x => .session x.attributes.isLockoutBound x.attributes.isDaBound x.attributes.includeAuth

/-- The comparison, with `IncrementLockout` where it fails. What NV cannot take is left pending. -/
def compareAuth (handle : TpmHandle) (u : SessionUse) (s : AuthState σ) : Except Fault Unit × AuthState σ :=
  if u.genuine then (.ok (), s)
  else
    let out := incrementLockout handle (authSession u s) s.toTpmState
    let recorded := decide (out.2.failedTries ≠ s.failedTries) ||
      (decide (out.2.lockOutAuthEnabled ≠ s.lockOutAuthEnabled) && decide (s.lockoutRecovery ≠ 0))
    (out.1.map fun _ => (),
      { s with toTpmState := out.2, daPendingOnNv := s.daPendingOnNv || (recorded && s.nv.nvStatus.isSome) })

/-- What `CheckAuthSession` does to a PIN index whose authorization value was used. -/
def countPin (handle : TpmHandle) (success : Bool) (s : AuthState σ) : Except Fault (AuthState σ) :=
  if handle.getType ≠ TpmHandle.htNvIndex then .ok s
  else
    match s.nv.indexInfo handle with
    | .error e => .error e
    | .ok i =>
        if (i.isPinFail && i.written) || (i.isPinPass && i.written && success) then
          (s.nv.getUint64 handle).map fun v =>
            let pin := Pin.ofUint64 v
            let count := if i.isPinFail && success then 0 else pin.count + 1
            { s with
              nv := s.nv.writeUint64 handle (Pin.toUint64 ⟨count, pin.limit⟩)
              clearOrderly := s.clearOrderly || i.orderly }
        else .ok s

/-- The rest of the loop body. -/
def evaluate (handle : TpmHandle) (u : SessionUse) (authUsed : Bool) (s : AuthState σ) :
    Except Fault Unit × AuthState σ :=
  match compareAuth handle u s with
  | (.error .failureMode, s) => (.error .failureMode, s)
  | (result, s) =>
      if authUsed then
        match countPin handle result.isOk s with
        | .error e => (.error e, s)
        | .ok s => (result, s)
      else (result, s)

def checkSession (c : CommandRow) (role : AuthRole) (handle : TpmHandle) (u : SessionUse) (s : AuthState σ) :
    Except Fault Unit × AuthState σ :=
  match sessionGate W c role handle u s with
  | (.error e, s) => (.error e, s)
  | (.ok authUsed, s) => evaluate handle u authUsed s

/-- The loop over the sessions of a command, each with the handle it goes with. -/
def checkSessions (c : CommandRow) : Nat → List (TpmHandle × SessionUse) → AuthState σ →
    Except Fault Unit × AuthState σ
  | _, [], s => (.ok (), s)
  | i, (handle, u) :: rest, s =>
      match checkSession W c (c.authRole i) handle u s with
      | (.error e, s) => (.error e, s)
      | (.ok _, s) => checkSessions c (i + 1) rest s

/-! ## The area as a whole -/

/-- A round of `RetrieveSessionData`, after the sessions in `before`. -/
def retrieveSession (c : CommandRow) (before : List SessionUse) (u : SessionUse) (s : AuthState σ) :
    Except Fault Unit :=
  let loc := 0x800 + 0x100 * (before.length + 1)
  let a := u.attributes
  if before.length = 3 then .error (.at .size loc)
  else if u.isPassword then
    if a.encrypt || a.decrypt || a.audit || a.auditExclusive || a.auditReset then .error (.at .attributes loc)
    else if u.nonceCaller ≠ [] then .error (.at .nonce loc)
    else .ok ()
  else
    match s.sessions u.handle with
    | none => .error (.of .referenceH0)
    | some x =>
        if x.attributes.isPolicy ≠ u.isPolicy then
          .error (.at .handle loc)
        else if before.any fun b => b.handle == u.handle then .error (.at .handle loc)
        else if a.decrypt && (!c.decrypts || before.any fun b => b.attributes.decrypt) then
          .error (.at .attributes loc)
        else if a.decrypt && !W.symmetric u.handle then .error (.at .symmetric loc)
        else if a.encrypt && (!c.encrypts || before.any fun b => b.attributes.encrypt) then
          .error (.at .attributes loc)
        else if a.encrypt && !W.symmetric u.handle then .error (.at .symmetric loc)
        else if a.audit && ((before.any fun b => b.attributes.audit) || x.attributes.isPolicy) then
          .error (.at .attributes loc)
        else .ok ()

def retrieveSessionData (c : CommandRow) (s : AuthState σ) :
    List SessionUse → List SessionUse → Except Fault Unit
  | _, [] => .ok ()
  | before, u :: rest => do
      retrieveSession W c before u s
      retrieveSessionData c s (before ++ [u]) rest

/-- The handle that the session at an index is associated with. -/
def associatedHandle (c : CommandRow) (handles : List TpmHandle) (i : Nat) : TpmHandle :=
  match handles[i]? with
  | none => TpmHandle.rhUnassigned
  | some h => if c.authRole i = .none then TpmHandle.rhUnassigned else h.normalize

/-- A handle that needs an authorization has a session. -/
def authorizationsPresent (c : CommandRow) (handles : List TpmHandle) (sessionNum : Nat) : Bool :=
  (List.range handles.length).all fun i => decide (c.authRole i = .none) || decide (i < sessionNum)

/-- `s_associatedHandles` with `s_sessionHandles`. -/
def associate (c : CommandRow) (handles : List TpmHandle) (us : List SessionUse) : List (TpmHandle × SessionUse) :=
  us.mapIdx fun i u => (associatedHandle c handles i, u)

/-- `ParseSessionBuffer`, or `CheckAuthNoSession` for a command without sessions. -/
def parseSessionBuffer (c : CommandRow) (handles : List TpmHandle) (us : List SessionUse) (s : AuthState σ) :
    Except Fault Unit × AuthState σ :=
  if us ≠ [] ∧ c.isSessionAllowed = false then (.error (.of .authContext), s)
  else
    match retrieveSessionData W c s [] us with
    | .error e => (.error e, s)
    | .ok _ =>
        if authorizationsPresent c handles us.length then checkSessions W c 0 (associate c handles us) s
        else (.error (.of .authMissing), s)

end AuthState

/-! ## The comparisons of a command -/

/-- A comparison that the loop comes to, with the state it is made in. -/
structure Evaluation (σ : Type) where
  handle : TpmHandle
  use : SessionUse
  authUsed : Bool
  before : AuthState σ

namespace Evaluation
variable {σ : Type}

def session (e : Evaluation σ) : Option Session := AuthState.useSession e.use e.before

def outcome (e : Evaluation σ) : Except Fault Unit × AuthState σ :=
  AuthState.evaluate e.handle e.use e.authUsed e.before

end Evaluation

namespace AuthState
variable {σ : Type} (W : AuthWorld)

/-- The comparisons of `checkSessions`. -/
def evaluations (c : CommandRow) : Nat → List (TpmHandle × SessionUse) → AuthState σ → List (Evaluation σ)
  | _, [], _ => []
  | i, (handle, u) :: rest, s =>
      match sessionGate W c (c.authRole i) handle u s with
      | (.error _, _) => []
      | (.ok authUsed, s) =>
          ⟨handle, u, authUsed, s⟩ ::
            match evaluate handle u authUsed s with
            | (.error _, _) => []
            | (.ok _, s) => evaluations c (i + 1) rest s

/-- The comparisons of `parseSessionBuffer`. -/
def commandEvaluations (c : CommandRow) (handles : List TpmHandle) (us : List SessionUse) (s : AuthState σ) :
    List (Evaluation σ) :=
  if us ≠ [] ∧ c.isSessionAllowed = false then []
  else
    match retrieveSessionData W c s [] us with
    | .error _ => []
    | .ok _ => if authorizationsPresent c handles us.length then evaluations W c 0 (associate c handles us) s else []

end AuthState
end PqcTpm
