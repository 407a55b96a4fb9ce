import PqcTpm.ExecCommand
import PqcTpm.Lib.Transition

/-!
# The framing of responses

A response is a header, a handle if the command returns one, with sessions the size of the
parameters, the parameters and the authorizations. The offset at which the parameters are
written comes from one table, the handle in front of them from the other, so the parts fit
together where the tables agree.
-/
namespace PqcTpm
open ByteCodec ByteMemory Transition

structure FrameHeader where
  tag : Nat
  responseSize : Nat
  responseCode : Nat
  handle : Option Nat
  parameterSize : Option Nat
  deriving DecidableEq

structure ResponseFrame where
  header : FrameHeader
  parameters : Bytes
  authorization : Bytes
  deriving DecidableEq

def readOptional (present : Bool) : Reader Unit (Option Nat) :=
  if present then some <$> Reader.word 4 () else pure none

def readFrameHeader (hasHandle : Bool) : Reader Unit FrameHeader := do
  let tag ← Reader.word 2 ()
  let responseSize ← Reader.word 4 ()
  let responseCode ← Reader.word 4 ()
  let handle ← readOptional hasHandle
  let parameterSize ← readOptional (tag == CommandTag.sessions.value)
  pure ⟨tag, responseSize, responseCode, handle, parameterSize⟩

/-- How a caller takes a response apart. -/
def readFrame (hasHandle : Bool) (response : Bytes) : Option ResponseFrame :=
  match readFrameHeader hasHandle response with
  | .error _ => none
  | .ok (header, body) =>
      match header.parameterSize with
      | none => some ⟨header, body, []⟩
      | some n => if n ≤ body.length then some ⟨header, body.take n, body.drop n⟩ else none

/-- `responseCode` of a header. -/
def responseCode (response : Bytes) : Nat := fromBe ((response.drop 6).take 4)

section
variable {σ ι ω : Type} {E : Executor σ ι ω} {c : CommandRow} {tag : CommandTag} {out : CommandOut ω}
  {n : Nat} {p : SessionPart n} {old : Memory}

/-! ## What is in the buffer -/

theorem marshalInto_eq (parts : List Bytes) (m : Memory) (r : ResponseState) :
    marshalInto parts m r = (store m r.responseBuffer parts.flatten,
      { r with
        responseBuffer := r.responseBuffer + parts.flatten.length
        parameterSize := r.parameterSize + parts.flatten.length }) := by
  induction parts generalizing m r with
  | nil => simp [marshalInto]
  | cons bs rest ih =>
      rw [marshalInto, ih, List.flatten_cons, store_append, List.length_append, Nat.add_assoc, Nat.add_assoc]

theorem authsInto_eq (auths : List ResponseAuth) (m : Memory) (r : ResponseState) :
    authsInto auths m r = (store m r.responseBuffer (auths.flatMap ResponseAuth.marshal),
      { r with
        responseBuffer := r.responseBuffer + (auths.flatMap ResponseAuth.marshal).length
        authSize := r.authSize + (auths.flatMap ResponseAuth.marshal).length }) := by
  induction auths generalizing m r with
  | nil => simp [authsInto]
  | cons a rest ih =>
      rw [authsInto, ih, List.flatMap_cons, store_append, List.length_append, Nat.add_assoc, Nat.add_assoc]

theorem dispatchResponse_eq (E : Executor σ ι ω) (c : CommandRow) (tag : CommandTag) (out : CommandOut ω)
    (old : Memory) :
    dispatchResponse E c tag out old = (store old (parameterStart c tag) (marshalledParameters E c out),
      { tag := tag.value
        handleNum := if c.marshalsHandle then 1 else 0
        handle := out.handle
        responseBuffer := parameterStart c tag + (marshalledParameters E c out).length
        parameterSize := (marshalledParameters E c out).length }) := by
  rw [dispatchResponse, marshalInto_eq, Nat.zero_add]
  rfl

/-- The parameters as they stand in the response. -/
def sentParameters (E : Executor σ ι ω) (c : CommandRow) (tag : CommandTag) (out : CommandOut ω)
    (p : SessionPart n) : Bytes :=
  match tag with
  | .noSessions => marshalledParameters E c out
  | .sessions => p.parameters

def sentAuthorization (tag : CommandTag) (p : SessionPart n) : Bytes :=
  match tag with
  | .noSessions => []
  | .sessions => p.authorization

theorem sentParameters_length (hn : n = (marshalledParameters E c out).length) :
    (sentParameters E c tag out p).length = (marshalledParameters E c out).length := by
  cases tag with
  | noSessions => rfl
  | sessions => exact p.length_eq.trans hn

theorem buildResponseSession_eq (tag : CommandTag) (p : SessionPart n) (old : Memory)
    (hn : n = (marshalledParameters E c out).length) :
    ∃ m, buildResponseSession tag p (dispatchResponse E c tag out old).1 (dispatchResponse E c tag out old).2 =
      (store m (parameterStart c tag) (sentParameters E c tag out p ++ sentAuthorization tag p),
        { tag := tag.value
          handleNum := if c.marshalsHandle then 1 else 0
          handle := out.handle
          responseBuffer := parameterStart c tag + (marshalledParameters E c out).length +
            (sentAuthorization tag p).length
          parameterSize := (marshalledParameters E c out).length
          authSize := (sentAuthorization tag p).length }) := by
  rw [dispatchResponse_eq]
  cases tag with
  | noSessions => exact ⟨old, by simp [buildResponseSession, sentParameters, sentAuthorization]⟩
  | sessions =>
      refine ⟨store old (parameterStart c .sessions) (marshalledParameters E c out), ?_⟩
      have hlen : p.parameters.length = (marshalledParameters E c out).length := p.length_eq.trans hn
      simp only [buildResponseSession, authsInto_eq, Nat.add_sub_cancel, sentParameters, sentAuthorization,
        SessionPart.authorization, Nat.zero_add]
      rw [← hlen, store_append, hlen]

/-! ## The header -/

/-- The header that a response should have. -/
def sentHeader (E : Executor σ ι ω) (c : CommandRow) (tag : CommandTag) (out : CommandOut ω) (p : SessionPart n) :
    FrameHeader where
  tag := tag.value
  responseSize := 10 + (if c.marshalsHandle then 4 else 0) + (if tag = .sessions then 4 else 0) +
    (marshalledParameters E c out).length + (sentAuthorization tag p).length
  responseCode := 0
  handle := if c.marshalsHandle then some out.handle.toNat else none
  parameterSize := if tag = .sessions then some (marshalledParameters E c out).length else none

def FrameHeader.octets (h : FrameHeader) : Bytes :=
  be 2 h.tag ++ (be 4 h.responseSize ++ (be 4 h.responseCode ++
    (h.handle.elim [] (be 4) ++ h.parameterSize.elim [] (be 4))))

/-- The numbers of a header are small enough for their fields. -/
structure FrameHeader.Fits (h : FrameHeader) : Prop where
  tag : h.tag < 256 ^ 2
  responseSize : h.responseSize < 256 ^ 4
  responseCode : h.responseCode < 256 ^ 4
  handle : ∀ x, h.handle = some x → x < 256 ^ 4
  parameterSize : ∀ x, h.parameterSize = some x → x < 256 ^ 4
  sessions : (h.tag == CommandTag.sessions.value) = h.parameterSize.isSome

theorem reads_optional {x : Option Nat} (hx : ∀ y, x = some y → y < 256 ^ 4) :
    Reads (readOptional x.isSome) (x.elim [] (be 4)) x := by
  cases x with
  | none => exact Reads.pure none
  | some y => exact (Reads.word () (hx y rfl)).map some

theorem FrameHeader.Fits.reads {h : FrameHeader} (hf : h.Fits) :
    Reads (readFrameHeader h.handle.isSome) h.octets h := by
  refine (Reads.word () hf.tag).bind ((Reads.word () hf.responseSize).bind
    ((Reads.word () hf.responseCode).bind ((reads_optional hf.handle).bind ?_)))
  rw [hf.sessions]
  exact (reads_optional hf.parameterSize).bind_last (Reads.pure h)

theorem ResponseAuth.marshal_length_le (a : ResponseAuth) : a.marshal.length ≤ 133 := by
  have h₁ := a.nonceTpm.size_le
  have h₂ := a.hmac.size_le
  simp only [ResponseAuth.marshal, List.length_append, be_length, List.length_cons, List.length_nil]
  omega

theorem flatMap_length_le {α : Type} {f : α → Bytes} {k : Nat} (hf : ∀ a, (f a).length ≤ k) (as : List α) :
    (as.flatMap f).length ≤ as.length * k := by
  induction as with
  | nil => simp
  | cons a as ih =>
      have ha := hf a
      rw [List.flatMap_cons, List.length_append, List.length_cons, Nat.succ_mul]
      omega

theorem sentAuthorization_length_le (tag : CommandTag) (p : SessionPart n) :
    (sentAuthorization tag p).length ≤ 399 := by
  cases tag with
  | noSessions => exact Nat.zero_le 399
  | sessions =>
      have hlen := flatMap_length_le ResponseAuth.marshal_length_le p.auths
      have hcount := p.count_le
      change (p.auths.flatMap ResponseAuth.marshal).length ≤ 399
      omega

/-- The response fits into the output structure's size. -/
def FitsOut (E : Executor σ ι ω) (c : CommandRow) (out : CommandOut ω) : Prop :=
  (marshalledParameters E c out).length + (if c.marshalsHandle then 1 else 0) * 4 ≤ c.outSize

theorem sentHeader_fits (tag : CommandTag) (p : SessionPart n) (hc : c ∈ commandTable) (hout : FitsOut E c out) :
    (sentHeader E c tag out p).Fits := by
  have hsize := outSize_lt hc
  have hauth := sentAuthorization_length_le tag p
  have hparams : (marshalledParameters E c out).length < 65536 := by
    unfold FitsOut at hout
    omega
  constructor
  · cases tag <;> simp [sentHeader, CommandTag.value]
  · simp only [sentHeader]
    split <;> split <;> omega
  · simp [sentHeader]
  · intro x hx
    simp only [sentHeader] at hx
    split at hx
    · cases hx
      exact out.handle.toNat_lt
    · cases hx
  · intro x hx
    simp only [sentHeader] at hx
    split at hx
    · cases hx
      omega
    · cases hx
  · cases tag <;> simp [sentHeader, CommandTag.value]

theorem sentHeader_octets_length :
    (sentHeader E c tag out p).octets.length =
      10 + (if c.marshalsHandle then 4 else 0) + (if tag = .sessions then 4 else 0) := by
  simp only [FrameHeader.octets, sentHeader, List.length_append, be_length]
  cases c.marshalsHandle <;> cases tag <;> simp

theorem buildResponseHeader_eq {m : Memory} {r : ResponseState} (p : SessionPart n) (hc : c ∈ commandTable)
    (hout : FitsOut E c out)
    (htag : r.tag = tag.value) (hnum : r.handleNum = if c.marshalsHandle then 1 else 0)
    (hhandle : r.handle = out.handle) (hsize : r.parameterSize = (marshalledParameters E c out).length)
    (hauth : r.authSize = (sentAuthorization tag p).length) :
    buildResponseHeader r m 0 =
      (store m 0 (sentHeader E c tag out p).octets, (sentHeader E c tag out p).responseSize) := by
  have hlt : (sentHeader E c tag out p).responseSize < 2 ^ 32 := (sentHeader_fits tag p hc hout).responseSize
  have hsum : 10 + r.handleNum * 4 + r.parameterSize +
      (if r.tag = CommandTag.sessions.value then r.authSize + 4 else 0) =
      (sentHeader E c tag out p).responseSize := by
    rw [htag, hnum, hsize, hauth, sentHeader]
    cases tag with
    | noSessions => cases c.marshalsHandle <;> simp [CommandTag.value, sentAuthorization]
    | sessions =>
        simp only [if_true]
        split <;> omega
  rw [buildResponseHeader, if_neg (by decide)]
  dsimp only
  rw [hsum, Nat.mod_eq_of_lt hlt, FrameHeader.octets, htag, hhandle, hnum, hsize]
  cases hm : c.marshalsHandle <;> cases tag <;> simp [sentHeader, CommandTag.value, hm]

/-! ## When the parts fit together -/

/-- The response that a caller should be able to read. -/
def sentFrame (E : Executor σ ι ω) (c : CommandRow) (tag : CommandTag) (out : CommandOut ω) (p : SessionPart n) :
    ResponseFrame :=
  ⟨sentHeader E c tag out p, sentParameters E c tag out p, sentAuthorization tag p⟩

/-- Whatever a command puts out and whatever the buffer held, its response can be taken apart, and its
header counts all of it. -/
def Frames (E : Executor σ ι ω) (c : CommandRow) (tag : CommandTag) : Prop :=
  ∀ (out : CommandOut ω) (n : Nat) (p : SessionPart n) (old : Memory),
    n = (marshalledParameters E c out).length → FitsOut E c out →
    readFrame c.marshalsHandle (respond E c tag out p old) = some (sentFrame E c tag out p) ∧
      (respond E c tag out p old).length = (sentHeader E c tag out p).responseSize

theorem respond_eq (tag : CommandTag) (p : SessionPart n) (old : Memory) (hc : c ∈ commandTable)
    (hn : n = (marshalledParameters E c out).length)
    (hout : FitsOut E c out) :
    ∃ m, respond E c tag out p old =
      load (store (store m (parameterStart c tag) (sentParameters E c tag out p ++ sentAuthorization tag p)) 0
        (sentHeader E c tag out p).octets) 0 (sentHeader E c tag out p).responseSize := by
  obtain ⟨m, hm⟩ := buildResponseSession_eq tag p old hn
  refine ⟨m, ?_⟩
  rw [respond]
  dsimp only
  rw [hm]
  dsimp only
  rw [buildResponseHeader_eq p hc hout rfl rfl rfl rfl rfl]

theorem readFrame_sent (hc : c ∈ commandTable) (hn : n = (marshalledParameters E c out).length)
    (hout : FitsOut E c out) :
    readFrame c.marshalsHandle ((sentHeader E c tag out p).octets ++
      (sentParameters E c tag out p ++ sentAuthorization tag p)) = some (sentFrame E c tag out p) := by
  have hreads := (sentHeader_fits tag p hc hout).reads
    (sentParameters E c tag out p ++ sentAuthorization tag p)
  have hhandle : (sentHeader E c tag out p).handle.isSome = c.marshalsHandle := by
    cases hm : c.marshalsHandle <;> simp [sentHeader, hm]
  rw [hhandle] at hreads
  rw [readFrame, hreads]
  have hlen : (sentParameters E c tag out p).length = (marshalledParameters E c out).length :=
    sentParameters_length hn
  cases tag with
  | noSessions => simp [sentHeader, sentFrame, sentAuthorization]
  | sessions =>
      have hsize : (sentHeader E c .sessions out p).parameterSize = some (sentParameters E c .sessions out p).length := by
        rw [hlen]
        rfl
      simp only [hsize]
      rw [if_pos (by rw [List.length_append]; omega), List.take_left, List.drop_left]
      rfl

/-- If the place left in front of the parameters is as long as the header, nothing is written over. -/
theorem respond_of_aligned (hc : c ∈ commandTable) (hn : n = (marshalledParameters E c out).length)
    (hout : FitsOut E c out)
    (halign : (sentHeader E c tag out p).octets.length = parameterStart c tag ∨
      sentParameters E c tag out p ++ sentAuthorization tag p = []) :
    respond E c tag out p old = (sentHeader E c tag out p).octets ++
      (sentParameters E c tag out p ++ sentAuthorization tag p) := by
  obtain ⟨m, hm⟩ := respond_eq tag p old hc hn hout
  have hsize : (sentHeader E c tag out p).responseSize = (sentHeader E c tag out p).octets.length +
      (sentParameters E c tag out p ++ sentAuthorization tag p).length := by
    rw [sentHeader_octets_length, List.length_append, sentParameters_length hn, sentHeader]
    dsimp only
    omega
  rw [hm, hsize, load_add, load_store_same, Nat.zero_add,
    load_store_disjoint (.inr (by rw [Nat.zero_add]))]
  rcases halign with halign | hnil
  · rw [halign, load_store_same]
  · rw [hnil, List.length_nil]
    rfl

theorem frames_of_aligned (hc : c ∈ commandTable)
    (halign : ∀ (out : CommandOut ω) (n : Nat) (p : SessionPart n), n = (marshalledParameters E c out).length →
      (sentHeader E c tag out p).octets.length = parameterStart c tag ∨
        sentParameters E c tag out p ++ sentAuthorization tag p = []) :
    Frames E c tag := by
  intro out n p old hn hout
  rw [respond_of_aligned hc hn hout (halign out n p hn)]
  refine ⟨readFrame_sent hc hn hout, ?_⟩
  rw [List.length_append, sentHeader_octets_length, List.length_append, sentParameters_length hn, sentHeader]
  dsimp only
  omega

theorem marshalledParameters_of_sequenceStart (hc : c ∈ commandTable) (h : ¬ (c.code ≠ 0x1a9 ∧ c.code ≠ 0x1aa)) :
    marshalledParameters E c out = [] := by
  rw [marshalledParameters, responseParameters_of_sequenceStart hc h]
  rfl

theorem readFrame_authorization {body : Bytes} {f : ResponseFrame} (hfits : (sentHeader E c .sessions out p).Fits)
    (hhandle : c.marshalsHandle = true)
    (h : readFrame c.marshalsHandle ((sentHeader E c .sessions out p).octets ++ body) = some f) :
    f.authorization = body.drop (marshalledParameters E c out).length := by
  have hsome : (sentHeader E c .sessions out p).handle.isSome = true := by
    simp [sentHeader, hhandle]
  have hreads := hfits.reads body
  rw [hsome] at hreads
  rw [hhandle, readFrame, hreads] at h
  have hsize : (sentHeader E c .sessions out p).parameterSize = some (marshalledParameters E c out).length := rfl
  simp only [hsize] at h
  split at h
  · cases h
    rfl
  · cases h

/-- One session with a nonce of one octet. -/
def shortNonce : SessionPart 0 := ⟨[], rfl, [⟨⟨[5], by decide⟩, 0, .empty⟩], by decide⟩

/-- Without room for the handle, the size of the parameters is written over the first nonce. -/
theorem not_frames_of_sequenceStart (hc : c ∈ commandTable) (h : ¬ (c.code ≠ 0x1a9 ∧ c.code ≠ 0x1aa)) :
    ¬ Frames E c .sessions := by
  intro hframes
  have hnil (out : CommandOut ω) : marshalledParameters E c out = [] :=
    marshalledParameters_of_sequenceStart hc h
  have hdiffer : c.isHandleInResponse ≠ c.marshalsHandle := fun heq => h ((isHandleInResponse_iff hc).1 heq)
  have hspace : c.isHandleInResponse = false := by
    cases hi : c.isHandleInResponse with
    | false => rfl
    | true => exact absurd (hi.trans (marshalsHandle_of_isHandleInResponse hc hi).symm) hdiffer
  have hhandle : c.marshalsHandle = true := by
    cases hm : c.marshalsHandle with
    | true => rfl
    | false => exact absurd (hspace.trans hm.symm) hdiffer
  let out : CommandOut ω := ⟨0, fun _ => E.blank⟩
  have hn : 0 = (marshalledParameters E c out).length := by
    rw [hnil]
    rfl
  have hout : FitsOut E c out := by
    rw [FitsOut, ← hn, hhandle]
    exact handle_fits hc hhandle
  obtain ⟨hread, -⟩ := hframes out 0 shortNonce (fun _ => 0) hn hout
  obtain ⟨m, hm⟩ := respond_eq .sessions shortNonce (fun _ => 0) hc hn hout
  have hstart : parameterStart c .sessions = 14 := by
    rw [parameterStart, hspace]
    rfl
  have hlength : (sentHeader E c .sessions out shortNonce).octets.length = 18 := by
    rw [sentHeader_octets_length, hhandle]
    rfl
  have hsize : (sentHeader E c .sessions out shortNonce).responseSize =
      (sentHeader E c .sessions out shortNonce).octets.length + 6 := by
    rw [hlength, sentHeader, hhandle]
    dsimp only
    rw [← hn]
    rfl
  have hsent : sentParameters E c .sessions out shortNonce ++ sentAuthorization .sessions shortNonce =
      [0, 1, 5, 0, 0, 0] := rfl
  rw [hm, hsize, load_add, load_store_same] at hread
  have hauth := readFrame_authorization (sentHeader_fits .sessions shortNonce hc hout) hhandle hread
  rw [← hn, List.drop_zero, Nat.zero_add, load_store_disjoint (.inr (by rw [Nat.zero_add])), hlength, hstart,
    hsent] at hauth
  -- the nonce's size is read from the last octet of its session
  have hsecond := congrArg (fun bs : Bytes => bs[1]?) hauth
  simp [load, store, sentFrame, sentAuthorization, SessionPart.authorization, shortNonce, ResponseAuth.marshal,
    Tpm2b.size, Tpm2b.empty, be] at hsecond

theorem frames_iff (hc : c ∈ commandTable) :
    Frames E c tag ↔ ¬ (tag = .sessions ∧ (c.code = 0x1a9 ∨ c.code = 0x1aa)) := by
  constructor
  · rintro hframes ⟨rfl, hcode⟩
    exact not_frames_of_sequenceStart hc (by omega) hframes
  · intro hnot
    apply frames_of_aligned hc
    intro out n p hn
    by_cases hcode : c.code ≠ 0x1a9 ∧ c.code ≠ 0x1aa
    · left
      rw [sentHeader_octets_length, parameterStart, (isHandleInResponse_iff hc).2 hcode]
      omega
    · right
      have htag : tag = .noSessions := by
        cases tag with
        | noSessions => rfl
        | sessions => exact absurd ⟨rfl, by omega⟩ hnot
      subst htag
      exact (List.append_nil _).trans (marshalledParameters_of_sequenceStart hc hcode)

/-! ## Success and the action -/

/-- A response with `TPM_RC_SUCCESS` comes from an action that succeeded, or from one of the two services
of failure mode, and is the one that belongs to it. -/
def SuccessOnlyIfExecuted (E : Executor σ ι ω) (s : σ) (request : Bytes) : Prop :=
  ∀ (stack : ResponseState) (old : Memory) (x : Execution σ ω), executeCommand E request stack old s = some x →
    responseCode x.response = 0 →
    (∃ (y : Executed ω) (s' : σ) (n : Nat) (p : SessionPart n),
      runAction E request (E.beginCommand s) = .ok (y, s') ∧ x.served = some (.action y) ∧
        y.command ∈ commandTable ∧ n = (marshalledParameters E y.command y.out).length ∧
        FitsOut E y.command y.out ∧ x.response = respond E y.command y.tag y.out p old) ∨
    (∃ F body, E.failed s = some F ∧ failureModeBody F request = some body ∧
      x.served = some (.failureMode body) ∧ x.response = failureModeSuccess body)

theorem responseCode_eq {tag size code : Nat} {rest : Bytes} :
    responseCode (be 2 tag ++ (be 4 size ++ (be 4 code ++ rest))) = code % 2 ^ 32 := by
  rw [responseCode, ← List.append_assoc, List.drop_left' (by simp), List.take_left' (by simp)]
  exact fromBe_be_mod 4 code

theorem finish_error {r : ResponseState} {m : Memory} {e : ErrorCode} {served : Option (Served ω)} {s : σ}
    {x : Execution σ ω} (h : finish E r m e.value served s = some x) : responseCode x.response ≠ 0 := by
  rw [finish, buildResponseHeader, if_pos e.not_success] at h
  dsimp only at h
  split at h
  · cases h
    have hload : load (store m 0 (be 2 0x8001 ++ (be 4 10 ++ be 4 e.value))) 0 10 =
        be 2 0x8001 ++ (be 4 10 ++ (be 4 e.value ++ [])) := by
      rw [List.append_nil]
      exact load_store_eq (by simp)
    dsimp only
    rw [hload, responseCode_eq]
    exact e.not_success
  · cases h

theorem parseHeader_command {request rest : Bytes} {s : σ} (h : parseHeader E request s = .ok (tag, c, rest)) :
    c ∈ commandTable := by
  obtain ⟨⟨tag', rest₁⟩, -, h⟩ := bind_eq_ok h
  obtain ⟨⟨commandSize, rest₂⟩, -, h⟩ := bind_eq_ok h
  dsimp only at h
  split at h
  · cases h
  · obtain ⟨⟨code, rest₃⟩, -, h⟩ := bind_eq_ok h
    dsimp only at h
    split at h
    · cases h
    · rename_i c' hindex
      split at h
      · cases h
      · cases h
        exact (commandCodeToCommandIndex_eq_some hindex).1

theorem runAction_command {request : Bytes} {s s' : σ} {y : Executed ω}
    (h : runAction E request s = .ok (y, s')) : y.command ∈ commandTable := by
  obtain ⟨⟨tag, c, rest₁⟩, hheader, h⟩ := bind_eq_ok h
  obtain ⟨⟨handles, rest₂⟩, -, h⟩ := bind_eq_ok h
  obtain ⟨⟨handles', s₁⟩, -, h⟩ := bind_eq_ok h
  obtain ⟨⟨parameters, s₂⟩, -, h⟩ := bind_eq_ok h
  obtain ⟨⟨inputs, rest₃⟩, -, h⟩ := bind_eq_ok h
  dsimp only at h
  split at h
  · cases h
  · obtain ⟨⟨out, s₃⟩, -, h⟩ := bind_eq_ok h
    cases h
    exact parseHeader_command (mapError_eq_ok hheader)

theorem finishAction_success {y : Executed ω} {s : σ} {x : Execution σ ω} (h : finishAction E y old s = some x)
    (hok : responseCode x.response = 0) :
    ∃ (n : Nat) (p : SessionPart n), x.served = some (.action y) ∧
      n = (marshalledParameters E y.command y.out).length ∧ FitsOut E y.command y.out ∧
      x.response = respond E y.command y.tag y.out p old := by
  have hsize : (dispatchResponse E y.command y.tag y.out old).2.parameterSize =
      (marshalledParameters E y.command y.out).length := by
    rw [dispatchResponse_eq]
  unfold finishAction at h
  dsimp only at h
  split at h
  · cases h
  · rename_i hfits
    split at h
    · exact absurd hok (finish_error h)
    · cases h
    · rename_i p s' hsessions
      unfold finish at h
      dsimp only at h
      split at h
      · cases h
        refine ⟨_, p, rfl, ?_, ?_, rfl⟩
        · rw [load_length, hsize]
        · rw [dispatchResponse_eq] at hfits
          exact Nat.le_of_not_lt hfits
      · cases h

theorem failureModeReturn_code : responseCode failureModeReturn ≠ 0 := by
  decide

theorem successOnlyIfExecuted_of_length {s : σ} {request : Bytes} (hlen : request.length ≤ 0x7FFFFFFF) :
    SuccessOnlyIfExecuted E s request := by
  intro stack old x h hok
  rw [executeCommand, if_neg (Nat.not_lt.mpr hlen)] at h
  split at h
  · rename_i F hF
    split at h
    · rename_i body hbody
      cases h
      exact .inr ⟨F, body, hF, hbody, rfl, rfl⟩
    · cases h
      exact absurd hok failureModeReturn_code
  · split at h
    · exact absurd hok (finish_error h)
    · cases h
    · rename_i y s' hrun
      obtain ⟨n, p, hserved, hn, hfits, hresponse⟩ := finishAction_success h hok
      exact .inl ⟨y, s', n, p, hrun, hserved, runAction_command hrun, hn, hfits, hresponse⟩

/-- The check of the request's size has the wrong result: what is sent is a header that says success. -/
theorem executeCommand_oversized {request : Bytes} (s : σ) (hlen : 0x7FFFFFFF < request.length) :
    ∃ x, executeCommand E request {} (fun _ => 0) s = some x ∧ responseCode x.response = 0 ∧ x.served = none := by
  refine ⟨⟨load (store (fun _ => 0) 0 (be 2 0 ++ (be 4 10 ++ (be 4 0 ++ [])))) 0 10, none, E.cleanup s⟩,
    ?_, ?_, rfl⟩
  · rw [executeCommand, if_pos hlen, finish]
    exact if_pos E.header_fits
  · dsimp only
    rw [load_store_eq (by simp), responseCode_eq, Nat.zero_mod]

theorem successOnlyIfExecuted_iff (E : Executor σ ι ω) (s : σ) (request : Bytes) :
    SuccessOnlyIfExecuted E s request ↔ request.length ≤ 0x7FFFFFFF := by
  constructor
  · intro h
    by_contra hlen
    obtain ⟨x, hx, hok, hserved⟩ := executeCommand_oversized (E := E) s (Nat.lt_of_not_le hlen)
    rcases h {} (fun _ => 0) x hx hok with ⟨y, s', n, p, -, haction, -⟩ | ⟨F, body, -, -, hmode, -⟩
    · rw [hserved] at haction
      cases haction
    · rw [hserved] at hmode
      cases hmode
  · exact successOnlyIfExecuted_of_length

/-- A success response comes from an action exactly for requests of at most `INT32_MAX` octets, and can be
taken apart exactly when it is not a sequence start of ML-DSA with sessions. -/
theorem response_framing (E : Executor σ ι ω) (s : σ) (request : Bytes) (hc : c ∈ commandTable)
    (tag : CommandTag) :
    (SuccessOnlyIfExecuted E s request ↔ request.length ≤ 0x7FFFFFFF) ∧
      (Frames E c tag ↔ ¬ (tag = .sessions ∧ (c.code = 0x1a9 ∨ c.code = 0x1aa))) ∧
      (c.isHandleInResponse = c.marshalsHandle ↔ c.code ≠ 0x1a9 ∧ c.code ≠ 0x1aa) :=
  ⟨successOnlyIfExecuted_iff E s request, frames_iff hc, isHandleInResponse_iff hc⟩

end
/-! ## A sequence start with a session -/

def readTpm2b : Reader FormatOne Bytes := do
  let size ← Reader.word 2 .insufficient
  Reader.take size .insufficient

/-- A session of a command: its handle, the caller's nonce, its attributes and its HMAC. -/
def readSession : Reader FormatOne (Nat × Bytes × Nat × Bytes) := do
  let handle ← Reader.word 4 .insufficient
  let nonceCaller ← readTpm2b
  let sessionAttributes ← Reader.word 1 .insufficient
  let hmac ← readTpm2b
  pure (handle, nonceCaller, sessionAttributes, hmac)

/-- `ParseSessionBuffer` for a command whose handles need no authorization, while the only session there is is the
HMAC session 0x02000000, neither bound nor salted: no HMAC is expected, but the session has to audit, decrypt or
encrypt. -/
def parseUnboundSession (authorization parameters : Bytes) : Except ErrorCode Bytes :=
  match readSession authorization with
  | .error e => .error ⟨e.value + 0x900, by have h₁ := e.base_le; have h₂ := e.lt_base; omega⟩
  | .ok ((handle, _, sessionAttributes, hmac), rest) =>
      -- TPM_RC_SIZE for what follows the session, TPM_RC_REFERENCE_S0, TPM_RC_ATTRIBUTES, TPM_RC_BAD_AUTH
      if rest ≠ [] then .error ⟨0xA95, by decide⟩
      else if handle ≠ 0x02000000 then .error ⟨0x918, by decide⟩
      else if sessionAttributes &&& 0xE0 = 0 then .error ⟨0x982, by decide⟩
      else if hmac ≠ [] then .error ⟨0x9A2, by decide⟩
      else .ok parameters

/-- The nonce that the TPM rolls, and the attributes with auditExclusive SET. -/
def auditResponse : ResponseAuth := ⟨⟨(List.range 16).map UInt8.ofNat, by decide⟩, 0x83, .empty⟩

/-- Every action returns the handle 0x80000001. -/
def auditExecutor : Executor Unit Bytes Unit where
  maxCommandSize := 4096
  maxResponse := 4096
  header_fits := by decide
  failed _ := none
  beginCommand s := s
  enabledCommands _ _ := true
  isStarted _ := true
  unmarshalHandle _ := UInt32.ofNat <$> Reader.word 4 .insufficient
  entityGetLoadStatus _ handles s := .ok (handles, s)
  parseSessionBuffer _ _ authorization parameters s :=
    match parseUnboundSession authorization parameters with
    | .error e => .error (.code e s)
    | .ok parameters => .ok (parameters, s)
  checkAuthNoSession _ _ s := .ok s
  unmarshalParameter _ := readTpm2b
  action _ _ _ s := .ok (⟨0x80000001, fun _ => ()⟩, s)
  blank := ()
  marshal _ _ := []
  buildSessions _ _ parameters s := .ok (⟨parameters, rfl, [auditResponse], by decide⟩, s)
  cleanup s := s

/-- `TPM2_SignSequenceStart` on the key 0x80000000, with one session. -/
def signSequenceStartRequest (sessionAttributes : UInt8) : Bytes :=
  be 2 0x8002 ++ be 4 31 ++ be 4 0x1aa ++ be 4 0x80000000 ++ be 4 9 ++
    (be 4 0x02000000 ++ be 2 0 ++ [sessionAttributes] ++ be 2 0) ++ be 2 0 ++ be 2 0

-- a session that does not audit is refused
example : (executeCommand auditExecutor (signSequenceStartRequest 0x01) {} (fun _ => 0) ()).map Execution.response =
    some (be 2 0x8001 ++ be 4 10 ++ be 4 0x982) := by decide

theorem sequenceStart_overlaps :
    (∃ x y, executeCommand auditExecutor (signSequenceStartRequest 0x81) {} (fun _ => 0) () = some x ∧
      x.served = some (.action y) ∧ y.command.code = 0x1aa ∧ y.tag = .sessions ∧
      readFrame y.command.marshalsHandle x.response =
        some ⟨⟨0x8002, 39, 0, some 0x80000001, some 0⟩, [], auditResponse.marshal.drop 4 ++ [0, 0, 0, 0]⟩ ∧
      readFrame y.command.marshalsHandle x.response ≠
        some (sentFrame auditExecutor y.command y.tag y.out ⟨[], rfl, [auditResponse], by decide⟩)) ∧
    ¬ SuccessOnlyIfExecuted auditExecutor () (List.replicate 0x80000000 0) := by
  refine ⟨⟨_, _, rfl, rfl, rfl, rfl, ?_, ?_⟩, ?_⟩
  · decide
  · decide
  · rw [successOnlyIfExecuted_iff, List.length_replicate]
    omega

/-- `TPM2_Load` with sessions. -/
theorem load_frames :
    ∃ c ∈ commandTable, c.code = 0x157 ∧ Frames auditExecutor c .sessions ∧
      SuccessOnlyIfExecuted auditExecutor () (signSequenceStartRequest 0x81) := by
  obtain ⟨c, hc, hcode⟩ : ∃ c ∈ commandTable, c.code = 0x157 := by decide
  obtain ⟨hsuccess, hframes, -⟩ := response_framing auditExecutor () (signSequenceStartRequest 0x81) hc .sessions
  exact ⟨c, hc, hcode, hframes.2 (by omega), hsuccess.2 (by decide)⟩

end PqcTpm
