import PqcTpm.Algorithms
import PqcTpm.CommandTable
import PqcTpm.Lib.ByteMemory

/-!
# From a request to a response

`ExecuteCommand` of `ExecCommand.c` with `CommandDispatcher`, the response half of
`BuildResponseSession`, `BuildResponseHeader` of `Response.c` and `TpmFailureMode` of
`TpmFail.c`. The response is put together in one buffer by four writers, each with its own
idea of where its part begins. What is behind the dispatch (sessions, the actions, the
codecs of the parameters) is an `Executor`.
-/
namespace PqcTpm
open ByteCodec ByteMemory

/-- `TPMI_ST_COMMAND_TAG`. -/
inductive CommandTag
  | noSessions | sessions
  deriving DecidableEq, Repr

def CommandTag.value : CommandTag → Nat
  | .noSessions => 0x8001
  | .sessions => 0x8002

/-- A response code that is not `TPM_RC_SUCCESS` in the four octets of the header. -/
structure ErrorCode where
  value : Nat
  not_success : value % 2 ^ 32 ≠ 0

/-- A format-one code, as unmarshalling returns it, before it gets its number. -/
structure FormatOne where
  value : Nat
  base_le : 0x80 ≤ value
  lt_base : value < 0xC0

namespace FormatOne

def size : FormatOne := ⟨0x95, by decide, by decide⟩
def insufficient : FormatOne := ⟨0x9A, by decide, by decide⟩
def badValue : FormatOne := ⟨0x84, by decide, by decide⟩

def plain (e : FormatOne) : ErrorCode := ⟨e.value, by have h₁ := e.base_le; have h₂ := e.lt_base; omega⟩

/-- `result + TPM_RC_H + n * TPM_RC_1`. -/
def inHandle (e : FormatOne) (n : Nat) : ErrorCode :=
  ⟨e.value + 0x100 * n, by have h₁ := e.base_le; have h₂ := e.lt_base; omega⟩

/-- `result + TPM_RC_P + n * TPM_RC_1`. -/
def inParameter (e : FormatOne) (n : Nat) : ErrorCode :=
  ⟨e.value + 0x40 + 0x100 * n, by have h₁ := e.base_le; have h₂ := e.lt_base; omega⟩

end FormatOne

namespace ErrorCode

def badTag : ErrorCode := ⟨0x01E, by decide⟩
def notInitialized : ErrorCode := ⟨0x100, by decide⟩
def commandSize : ErrorCode := ⟨0x142, by decide⟩
def commandCode : ErrorCode := ⟨0x143, by decide⟩

end ErrorCode

/-- A command ends before its response is complete: with a code, or by `FAIL`. -/
inductive Stop (σ : Type)
  | code (e : ErrorCode) (s : σ)
  | fail

/-- What a command's action leaves in its output structure. -/
structure CommandOut (ω : Type) where
  handle : UInt32
  parameter : Nat → ω

/-- One session in a response. -/
structure ResponseAuth where
  nonceTpm : Tpm2b 64
  sessionAttributes : UInt8
  hmac : Tpm2b 64

def ResponseAuth.marshal (a : ResponseAuth) : Bytes :=
  be 2 a.nonceTpm.size ++ a.nonceTpm.buffer ++ [a.sessionAttributes] ++ be 2 a.hmac.size ++ a.hmac.buffer

/-- What the sessions make of a response with `n` octets of parameters: the parameters, the first of
them encrypted if a session says so, and at most `MAX_SESSION_NUM` authorizations. -/
structure SessionPart (n : Nat) where
  parameters : Bytes
  length_eq : parameters.length = n
  auths : List ResponseAuth
  count_le : auths.length ≤ 3

def SessionPart.authorization {n : Nat} (p : SessionPart n) : Bytes := p.auths.flatMap ResponseAuth.marshal

/-- What a TPM in failure mode reports. -/
structure FailureReport where
  failFunction : Nat
  failLine : Nat
  failCode : Nat
  property : Nat → Nat

/-- What `ExecuteCommand` calls, over states `σ`, unmarshalled parameters `ι` and output values `ω`. -/
structure Executor (σ ι ω : Type) where
  maxCommandSize : Nat
  maxResponse : Nat
  header_fits : 10 ≤ maxResponse
  failed : σ → Option FailureReport
  beginCommand : σ → σ
  enabledCommands : σ → Nat → Bool
  isStarted : σ → Bool
  unmarshalHandle : HandleType → Reader FormatOne UInt32
  entityGetLoadStatus : CommandRow → List UInt32 → σ → Except (Stop σ) (List UInt32 × σ)
  parseSessionBuffer : CommandRow → List UInt32 → Bytes → Bytes → σ → Except (Stop σ) (Bytes × σ)
  checkAuthNoSession : CommandRow → List UInt32 → σ → Except (Stop σ) σ
  unmarshalParameter : ParameterType → Reader FormatOne ι
  action : CommandRow → List UInt32 → List ι → σ → Except (Stop σ) (CommandOut ω × σ)
  -- the output buffer is cleared before a command gets it
  blank : ω
  marshal : ResponseType → ω → Bytes
  buildSessions : CommandRow → CommandTag → (parameters : Bytes) → σ →
    Except (Stop σ) (SessionPart parameters.length × σ)
  cleanup : σ → σ

/-- The part of `COMMAND` that the response is built from. -/
structure ResponseState where
  tag : Nat := 0
  handleNum : Nat := 0
  handle : UInt32 := 0
  parameterSize : Nat := 0
  authSize : Nat := 0
  responseBuffer : Nat := 0

/-! ## The response -/

section
variable {σ ι ω : Type} (E : Executor σ ι ω)

/-- Where `ExecuteCommand` lets the parameters begin. -/
def parameterStart (c : CommandRow) (tag : CommandTag) : Nat :=
  10 + (if tag = .sessions then 4 else 0) + (if c.isHandleInResponse then 4 else 0)

def marshalledFrom (out : CommandOut ω) : List ResponseType → Nat → List Bytes
  | [], _ => []
  | t :: ts, i => E.marshal t (out.parameter i) :: marshalledFrom out ts (i + 1)

/-- The octets of the parameters, one after the other. -/
def marshalledParameters (c : CommandRow) (out : CommandOut ω) : Bytes :=
  (marshalledFrom E out c.responseParameters 0).flatten

/-- The loop that marshals the response parameters into the buffer. -/
def marshalInto : List Bytes → Memory → ResponseState → Memory × ResponseState
  | [], m, r => (m, r)
  | bs :: rest, m, r =>
      marshalInto rest (store m r.responseBuffer bs)
        { r with
          responseBuffer := r.responseBuffer + bs.length
          parameterSize := r.parameterSize + bs.length }

/-- `CommandDispatcher` after the action has succeeded. -/
def dispatchResponse (c : CommandRow) (tag : CommandTag) (out : CommandOut ω) (m : Memory) :
    Memory × ResponseState :=
  marshalInto (marshalledFrom E out c.responseParameters 0) m
    { tag := tag.value
      handleNum := if c.marshalsHandle then 1 else 0
      handle := out.handle
      responseBuffer := parameterStart c tag }

/-- The loop over the sessions in `BuildResponseSession`. -/
def authsInto : List ResponseAuth → Memory → ResponseState → Memory × ResponseState
  | [], m, r => (m, r)
  | a :: rest, m, r =>
      authsInto rest (store m r.responseBuffer a.marshal)
        { r with
          responseBuffer := r.responseBuffer + a.marshal.length
          authSize := r.authSize + a.marshal.length }

/-- `BuildResponseSession`: encrypt in place, then add the authorizations. -/
def buildResponseSession {n : Nat} (tag : CommandTag) (p : SessionPart n) (m : Memory) (r : ResponseState) :
    Memory × ResponseState :=
  match tag with
  | .noSessions => (m, r)
  | .sessions => authsInto p.auths (store m (r.responseBuffer - r.parameterSize) p.parameters) r

/-- `BuildResponseHeader`. The octets are written one behind the other from the start of the buffer. -/
def buildResponseHeader (r : ResponseState) (m : Memory) (result : Nat) : Memory × Nat :=
  if result % 2 ^ 32 ≠ 0 then (store m 0 (be 2 0x8001 ++ (be 4 10 ++ be 4 result)), 10)
  else
    let size := (10 + r.handleNum * 4 + r.parameterSize +
      (if r.tag = CommandTag.sessions.value then r.authSize + 4 else 0)) % 2 ^ 32
    (store m 0 (be 2 r.tag ++ (be 4 size ++ (be 4 result ++
      ((if 0 < r.handleNum then be 4 r.handle.toNat else []) ++
        (if r.tag = CommandTag.sessions.value then be 4 r.parameterSize else []))))), size)

/-- The octets of a successful response. -/
def respond {n : Nat} (c : CommandRow) (tag : CommandTag) (out : CommandOut ω) (p : SessionPart n) (old : Memory) :
    Bytes :=
  let (m, r) := dispatchResponse E c tag out old
  let (m, r) := buildResponseSession tag p m r
  let (m, size) := buildResponseHeader r m 0
  load m 0 size

/-! ## The request -/

def readUint16Or : Reader FormatOne Nat := Reader.word 2 .insufficient
def readUint32Or : Reader FormatOne Nat := Reader.word 4 .insufficient

/-- The values that `TPM_ST_Unmarshal` lets through. -/
def tpmSt : List Nat :=
  [0x00C4, 0x8000, 0x8001, 0x8002, 0x8014, 0x8015, 0x8016, 0x8017, 0x8018, 0x8019, 0x801A, 0x8021, 0x8022,
   0x8023, 0x8024, 0x8025]

/-- `TPMI_ST_COMMAND_TAG_Unmarshal`. -/
def readCommandTag (bs : Bytes) : Except ErrorCode (CommandTag × Bytes) :=
  match readUint16Or bs with
  | .error e => .error e.plain
  | .ok (tag, rest) =>
      if !tpmSt.contains tag then .error FormatOne.badValue.plain
      else if tag = CommandTag.noSessions.value then .ok (.noSessions, rest)
      else if tag = CommandTag.sessions.value then .ok (.sessions, rest)
      else .error .badTag

/-- The loop of `ParseHandleBuffer`. -/
def parseHandleBuffer : List HandleType → Nat → Bytes → Except ErrorCode (List UInt32 × Bytes)
  | [], _, bs => .ok ([], bs)
  | t :: ts, handleNum, bs =>
      match E.unmarshalHandle t bs with
      | .error e => .error (e.inHandle (handleNum + 1))
      | .ok (handle, rest) =>
          match parseHandleBuffer ts (handleNum + 1) rest with
          | .error e => .error e
          | .ok (handles, rest) => .ok (handle :: handles, rest)

/-- The loop of `CommandDispatcher` over the command's parameters. -/
def unmarshalParameters : List ParameterType → Nat → Bytes → Except ErrorCode (List ι × Bytes)
  | [], _, bs => .ok ([], bs)
  | t :: ts, pNum, bs =>
      match E.unmarshalParameter t bs with
      | .error e => .error (e.inParameter (pNum + 1))
      | .ok (value, rest) =>
          match unmarshalParameters ts (pNum + 1) rest with
          | .error e => .error e
          | .ok (values, rest) => .ok (value :: values, rest)

/-- The header of a request: the tag, the row of the command, and what follows. -/
def parseHeader (request : Bytes) (s : σ) : Except ErrorCode (CommandTag × CommandRow × Bytes) := do
  let (tag, rest) ← readCommandTag request
  let (commandSize, rest) ← (readUint32Or rest).mapError FormatOne.plain
  if commandSize ≠ request.length ∨ E.maxCommandSize < commandSize then throw .commandSize
  let (code, rest) ← (readUint32Or rest).mapError FormatOne.plain
  match commandCodeToCommandIndex (E.enabledCommands s) code with
  | none => throw .commandCode
  | some c =>
      -- nothing but TPM2_Startup before it, and not a second one
      if E.isStarted s = decide (code = 0x144) then throw .notInitialized
      else pure (tag, c, rest)

/-- The authorization area, or that there is none. -/
def parseAuthorizations (tag : CommandTag) (c : CommandRow) (handles : List UInt32) (rest : Bytes) (s : σ) :
    Except (Stop σ) (Bytes × σ) :=
  match tag with
  | .noSessions => (E.checkAuthNoSession c handles s).map fun s => (rest, s)
  | .sessions =>
      match readUint32Or rest with
      | .error e => .error (.code e.plain s)
      | .ok (authSize, rest) =>
          if authSize < 9 ∨ rest.length < authSize then .error (.code FormatOne.size.plain s)
          else E.parseSessionBuffer c handles (rest.take authSize) (rest.drop authSize) s

/-- What a command was and what it put out. -/
structure Executed (ω : Type) where
  command : CommandRow
  tag : CommandTag
  out : CommandOut ω

/-- A request up to the end of its action. -/
def runAction (request : Bytes) (s : σ) : Except (Stop σ) (Executed ω × σ) := do
  let (tag, c, rest) ← (parseHeader E request s).mapError fun e => .code e s
  let (handles, rest) ← (parseHandleBuffer E c.handles 0 rest).mapError fun e => .code e s
  let (handles, s) ← E.entityGetLoadStatus c handles s
  let (parameters, s) ← parseAuthorizations E tag c handles rest s
  let (inputs, rest) ← (unmarshalParameters E c.parameters 0 parameters).mapError fun e => .code e s
  if rest ≠ [] then throw (.code FormatOne.size.plain s)
  let (out, s) ← E.action c handles inputs s
  pure (⟨c, tag, out⟩, s)

/-! ## Failure mode -/

def failureModeReturn : Bytes := be 2 0x8001 ++ be 4 10 ++ be 4 0x101

def failureModeSuccess (body : Bytes) : Bytes := be 2 0x8001 ++ be 4 (body.length + 10) ++ be 4 0 ++ body

/-- The answer to `TPM2_GetTestResult`. -/
def failureTestResult (F : FailureReport) : Bytes :=
  be 2 12 ++ be 4 F.failFunction ++ be 4 F.failLine ++ be 4 F.failCode ++
    be 4 (if F.failCode = 8 then 0x14A else 0x101)

/-- The answer to `TPM2_GetCapability` for one of the properties `TPM_PT_MANUFACTURER` to
`TPM_PT_FIRMWARE_VERSION_2`. The last word is there also when no property is. -/
def failureCapability (F : FailureReport) (pt count : Nat) : Bytes :=
  let count := if 0 < count then 1 else if 0x10C < pt then 0 else count
  let pt := if pt < 0x105 then 0x105 else pt
  be 1 (if pt < 0x10C then 1 else 0) ++ be 4 6 ++ be 4 count ++ be 4 pt ++
    be 4 (if 0 < count then F.property (min pt 0x10C) else pt)

def readHeader : Reader Unit (Nat × Nat × Nat) := do
  let tag ← Reader.word 2 ()
  let size ← Reader.word 4 ()
  let code ← Reader.word 4 ()
  pure (tag, size, code)

def readCapability : Reader Unit (Nat × Nat × Nat) := do
  let capability ← Reader.word 4 ()
  let pt ← Reader.word 4 ()
  let count ← Reader.word 4 ()
  pure (capability, pt, count)

/-- `TpmFailureMode`: the body of the answer, if the request is one of the two that are still served. -/
def failureModeBody (F : FailureReport) (request : Bytes) : Option Bytes :=
  match readHeader request with
  | .error _ => none
  | .ok ((tag, size, code), rest) =>
      if tag ≠ 0x8001 ∨ size < 10 then none
      else if code = 0x17C then
        if size = 10 then some (failureTestResult F) else none
      else if code = 0x17A then
        match readCapability rest with
        | .error _ => none
        | .ok ((capability, pt, count), _) =>
            if size = 22 ∧ capability = 6 then some (failureCapability F pt count) else none
      else none

/-! ## ExecuteCommand -/

/-- How a response came about: the action of a command, or one of the two services of failure mode. -/
inductive Served (ω : Type)
  | action (x : Executed ω)
  | failureMode (body : Bytes)

structure Execution (σ ω : Type) where
  response : Bytes
  served : Option (Served ω)
  state : σ

/-- The end of `ExecuteCommand`; the response must fit into its buffer. -/
def finish (r : ResponseState) (m : Memory) (result : Nat) (served : Option (Served ω)) (s : σ) :
    Option (Execution σ ω) :=
  let (m, size) := buildResponseHeader r m result
  if size ≤ E.maxResponse then some ⟨load m 0 size, served, E.cleanup s⟩ else none

/-- The response to a command whose action has succeeded. -/
def finishAction (x : Executed ω) (old : Memory) (s : σ) : Option (Execution σ ω) :=
  let (m, r) := dispatchResponse E x.command x.tag x.out old
  -- what does not fit into the output structure's size cannot be marshalled
  if x.command.outSize < r.parameterSize + r.handleNum * 4 then none
  else
    match E.buildSessions x.command x.tag (load m (r.responseBuffer - r.parameterSize) r.parameterSize) s with
    | .error (.code e s) => finish E r m e.value none s
    | .error .fail => none
    | .ok (p, s) =>
        let (m, r) := buildResponseSession x.tag p m r
        finish E r m 0 (some (.action x)) s

/-- `ExecuteCommand`: `none` when it ends in `FAIL`. `stack` is what the local `command` holds before
anything is written to it, `old` what the response buffer holds. -/
def executeCommand (request : Bytes) (stack : ResponseState) (old : Memory) (s : σ) : Option (Execution σ ω) :=
  if 0x7FFFFFFF < request.length then finish E stack old 0 none s
  else
    match E.failed s with
    | some F =>
        match failureModeBody F request with
        | some body => some ⟨failureModeSuccess body, some (.failureMode body), s⟩
        | none => some ⟨failureModeReturn, none, s⟩
    | none =>
        match runAction E request (E.beginCommand s) with
        | .error (.code e s) => finish E stack old e.value none s
        | .error .fail => none
        | .ok (x, s) => finishAction E x old s

end
end PqcTpm
