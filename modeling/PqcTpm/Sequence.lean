import PqcTpm.Slots

/-!
# Sequences

`HashCommands.c`, `PqcSequence.c` and `PqcSequenceCommands.c`: hash, HMAC, event and PQC
sequences from start to completion. An action returns its result beside the state, since
some fail and change the state.
-/
namespace PqcTpm
open ByteCodec

/-- The EVP calls of the functions of `CryptMlDsa.c`: key, message, context (and signature). A signature is
verified unless a response code says otherwise. -/
structure EvpCalls where
  pkeyFromSeed : Object → Bool
  pkeyFromPub : TpmtPublic → Bool
  evpSign : Object → Bytes → Bytes → Option Bytes
  evpVerify : TpmtPublic → Bytes → Bytes → Bytes → Option RcCode

/-- What the crypto library does for sequences, signatures and tickets. -/
structure SeqCrypto (σ : Type) extends EvpCalls where
  /-- A `HASH_STATE` of zeros. -/
  blank : σ
  hashStart : HashAlg → σ
  /-- `CryptSelectMac` with `CryptMacStart`. -/
  macStart : Object → Nat → Except Fault σ
  update : σ → Bytes → σ
  finish : σ → Bytes
  hashAlg : σ → Nat
  /-- HMAC with `CONTEXT_INTEGRITY_HASH_ALG`. -/
  hmac : Bytes → Bytes → Bytes

/-- The same library with other EVP calls. -/
def SeqCrypto.withEvp {σ : Type} (C : SeqCrypto σ) (evp : EvpCalls) : SeqCrypto σ := { C with toEvpCalls := evp }

/-- `TPMT_SIGNATURE` of the two ML-DSA schemes. -/
structure TpmtSignature where
  sigAlg : ObjectType
  signature : Bytes
  deriving DecidableEq

/-- `TPMT_TK_HASHCHECK` and `TPMT_TK_VERIFIED`; their tags are given by the command. -/
structure Ticket where
  hierarchy : Hierarchy
  hmac : Bytes
  deriving DecidableEq

inductive Response
  | done
  | handle (h : TpmHandle)
  | digest (result : Bytes) (validation : Ticket)
  | digests (results : List Bytes)
  | signature (s : TpmtSignature)
  | verified (t : Ticket)
  | context (c : SavedContext)

abbrev Outcome (σ : Type) := Except Fault Response × TpmState σ

/-- `TPM_ALG_NULL` in the type field. -/
def typeNull : UInt16 := 0x0010

/-- `TPM_GENERATED_VALUE` in canonical form. -/
def tpmGeneratedValue : Bytes := [0xff, 0x54, 0x43, 0x47]

/-- `TicketIsSafe`: what is shorter than the value is not safe either. -/
def ticketIsSafe (buffer : Bytes) : Bool :=
  decide (4 ≤ buffer.length) && decide (buffer.take 4 ≠ tpmGeneratedValue)

section
variable {σ : Type} (C : SeqCrypto σ)

/-- `TicketComputeHashCheck`. -/
def ticketComputeHashCheck (s : TpmState σ) (hierarchy : Hierarchy) (hashAlg : Nat) (digest : Bytes) :
    Ticket :=
  ⟨hierarchy, C.hmac (s.proof hierarchy) (be 2 0x8024 ++ (be 2 hashAlg ++ digest))⟩

/-- The ticket of `TPM2_VerifySequenceComplete`; it is over the hierarchy and the key's name. -/
def ticketMessageVerified (s : TpmState σ) (key : Object) : Ticket :=
  if key.hierarchy = .null ∨ key.publicArea.nameAlg = none then ⟨key.hierarchy, []⟩
  else ⟨key.hierarchy, C.hmac (s.proof key.hierarchy)
    (be 2 0x8026 ++ (writeUint32 key.hierarchy.handle ++ key.name.buffer))⟩

/-! ## ML-DSA on messages -/

/-- `GetParamSet`. -/
def TpmtPublic.mldsaParameterSet? (a : TpmtPublic) : Option MldsaParameterSet :=
  match a with
  | { type := .mldsa, parameters := q, .. } => some (MldsaParms.parameterSet q)
  | { type := .hashMldsa, parameters := q, .. } => some (HashMldsaParms.parameterSet q)
  | _ => none

/-- `CryptMlDsaSigSize`. -/
def MldsaParameterSet.sigSize : MldsaParameterSet → Nat
  | .mldsa44 => 2420
  | .mldsa65 => 3309
  | .mldsa87 => 4627

/-- `HashMlDsaInstance` knows no SHA-1 variant. -/
def hashMldsaInstance (a : TpmtPublic) : Bool :=
  decide (a.type ≠ .hashMldsa) || decide (a.nameAlg ≠ none ∧ a.nameAlg ≠ some .sha1)

/-- `CryptMlDsaSignMessage`. -/
def cryptMlDsaSignMessage (key : Object) (msg ctx : Bytes) : Except Fault TpmtSignature :=
  match key.publicArea.mldsaParameterSet? with
  | none => .error (.of .scheme)
  | some _ =>
      if !C.pkeyFromSeed key then .error (.of .key)
      else if !hashMldsaInstance key.publicArea then .error (.of .scheme)
      else match C.evpSign key msg ctx with
        | some sig => .ok ⟨key.publicArea.type, sig⟩
        | none => .error (.of .failure)

/-- `CryptMlDsaValidateSignatureMessage`; `none` is `TPM_RC_SUCCESS`. -/
def cryptMlDsaValidateSignatureMessage (sig : TpmtSignature) (a : TpmtPublic) (msg ctx : Bytes) :
    Option RcCode :=
  match a.mldsaParameterSet? with
  | none => some .scheme
  | some set =>
      if sig.sigAlg ≠ .mldsa ∧ sig.sigAlg ≠ .hashMldsa then some .scheme
      else if sig.signature.length ≠ set.sigSize then some .signature
      else if !C.pkeyFromPub a then some .key
      else if !hashMldsaInstance a then some .scheme
      else C.evpVerify a msg ctx sig.signature

/-! ## Starting sequences -/

/-- The fields `AllocateSequenceSlot` fills, with the attribute the caller sets on top. -/
def sequenceObject (a : ObjectAttributes) (auth : Tpm2bAuth) (state : SeqState σ) : HashObject σ where
  attributes := { a with occupied := true, temporary := true }
  type := typeNull
  nameAlg := none
  objectAttributes := { noDA := true }
  auth
  state

/-- The fields `PqcSequenceAllocate` fills. -/
def pqcObject (auth : Tpm2bAuth) (q : PqcSeqState) : HashObject σ where
  attributes := { occupied := true, pqcSeq := true }
  type := typeNull
  nameAlg := none
  objectAttributes := {}
  auth
  state := .pqc q

/-- `ObjectAllocateSlot` for a sequence; the slot's hierarchy is `TPM_RH_NULL`. -/
def startSequence (s : TpmState σ) (x : HashObject σ) : Outcome σ :=
  match s.findEmptyObjectSlot with
  | none => (.error (.of .objectMemory), s)
  | some i => (.ok (.handle (slotHandle i)), s.setSlot i (.sequence x .null))

def hashSequence (auth : Tpm2bAuth) (h : HashAlg) : HashObject σ :=
  sequenceObject { hashSeq := true } auth (.hash [C.hashStart h, C.blank, C.blank, C.blank] rfl)

def eventSequence (auth : Tpm2bAuth) : HashObject σ :=
  sequenceObject { eventSeq := true } auth (.hash (hashSelector.all.map C.hashStart) rfl)

/-- `TPM2_HashSequenceStart`; without an algorithm it starts an event sequence. -/
def hashSequenceStart (auth : Tpm2bAuth) (hashAlg : Option HashAlg) (s : TpmState σ) : Outcome σ :=
  match hashAlg with
  | none => startSequence s (eventSequence C auth)
  | some h => startSequence s (hashSequence C auth h)

/-- `TPM2_MAC_Start`. -/
def macStart (handle : TpmHandle) (auth : Tpm2bAuth) (inScheme : Nat) (s : TpmState σ) : Outcome σ :=
  match s.handleToObject handle with
  | .ok (some i) =>
      match s.slots i with
      | .object key =>
          match C.macStart key inScheme with
          | .error e => (.error e, s)
          | .ok state =>
              if key.publicArea.objectAttributes.restricted then (.error (.at .attributes 0x100), s)
              else if !key.publicArea.objectAttributes.sign then (.error (.at .key 0x100), s)
              else startSequence s (sequenceObject { hmacSeq := true } auth (.hmac state .empty))
      -- a sequence has no type that can do a MAC
      | .sequence _ _ | .vacant => (.error (.at .type 0x100), s)
  | .ok none => (.error .failureMode, s)
  | .error e => (.error e, s)

/-- `get_signing_key`. -/
def getSigningKey (s : TpmState σ) (keyHandle : TpmHandle) : Except Fault (Object × MldsaParameterSet) :=
  match s.handleToObject keyHandle with
  | .error e => .error e
  | .ok none => .error (.at .handle 0x100)
  | .ok (some i) =>
      match s.slots i with
      | .object key =>
          if !key.publicArea.objectAttributes.sign then .error (.at .key 0x100)
          else match key.publicArea.mldsaParameterSet? with
            | some set => .ok (key, set)
            | none => .error (.at .scheme 0x100)
      | .sequence q _ =>
          if !q.objectAttributes.sign then .error (.at .key 0x100) else .error (.at .scheme 0x100)
      | .vacant => .error .failureMode

/-- `TPM2_SignSequenceStart`. -/
def signSequenceStart (keyHandle : TpmHandle) (auth : Tpm2bAuth) (context : Tpm2b 255) (s : TpmState σ) :
    Outcome σ :=
  match getSigningKey s keyHandle with
  | .error e => (.error e, s)
  | .ok (key, paramSet) =>
      startSequence s (pqcObject auth
        { isSign := true, keyHandle, keyType := UInt16.ofNat (publicSelector.algId key.publicArea.type)
          paramSet, hint := .empty, context, buffer := [] })

/-- `TPM2_VerifySequenceStart`. -/
def verifySequenceStart (keyHandle : TpmHandle) (auth : Tpm2bAuth) (hint : Tpm2b 256)
    (context : Tpm2b 255) (s : TpmState σ) : Outcome σ :=
  match getSigningKey s keyHandle with
  | .error e => (.error e, s)
  | .ok (key, paramSet) =>
      if hint.size ≠ 0 then (.error (.at .value 0x240), s)
      else startSequence s (pqcObject auth
        { isSign := false, keyHandle, keyType := UInt16.ofNat (publicSelector.algId key.publicArea.type)
          paramSet, hint, context, buffer := [] })

/-! ## Updating sequences -/

/-- `PqcSequenceFromHandle`. -/
def pqcSequenceFromHandle (s : TpmState σ) (handle : TpmHandle) :
    Option (SlotIndex × HashObject σ × PqcSeqState) :=
  if handle.getType = TpmHandle.htTransient then
    (slotOf handle).bind fun i =>
      match s.slots i with
      | .sequence x _ =>
          match x.state with
          | .pqc q => if x.attributes.pqcSeq then some (i, x, q) else none
          | _ => none
      | _ => none
  else none

/-- `PqcSequenceUpdate`. -/
def pqcSequenceUpdate (q : PqcSeqState) (data : Bytes) : Except Fault PqcSeqState :=
  if q.isSign then .error (.of .oneShotSignature)
  else if data.length = 0 then .ok q
  else if maxPqcSeqBuffer < q.buffer.length + data.length then .error (.of .size)
  else .ok { q with buffer := q.buffer ++ data }

/-- `CryptDigestUpdate2B` on the hash states of a sequence. -/
def SeqState.updateHash (state : SeqState σ) (data : Bytes) : SeqState σ :=
  match state with
  | .hash [h0, h1, h2, h3] _ => .hash [C.update h0 data, h1, h2, h3] rfl
  | x => x

def SeqState.updateEvent (state : SeqState σ) (data : Bytes) : SeqState σ :=
  match state with
  | .hash states count => .hash (states.map fun h => C.update h data) (by rw [List.length_map, count])
  | x => x

def SeqState.updateHmac (state : SeqState σ) (data : Bytes) : SeqState σ :=
  match state with
  | .hmac h key => .hmac (C.update h data) key
  | x => x

/-- The block of `TPM2_SequenceUpdate` for hash, HMAC and event sequences. -/
def hashUpdate (x : HashObject σ) (data : Bytes) : HashObject σ :=
  if x.attributes.eventSeq then { x with state := x.state.updateEvent C data }
  else if x.attributes.hashSeq then
    { x with
      state := x.state.updateHash C data
      attributes :=
        if x.attributes.firstBlock then x.attributes
        else { x.attributes with
          firstBlock := true, ticketSafe := x.attributes.ticketSafe || ticketIsSafe data } }
  else if x.attributes.hmacSeq then { x with state := x.state.updateHmac C data }
  else x

/-- `TPM2_SequenceUpdate`. -/
def sequenceUpdate (sequenceHandle : TpmHandle) (buffer : Tpm2b 1024) (s : TpmState σ) : Outcome σ :=
  match pqcSequenceFromHandle s sequenceHandle with
  | some (i, x, q) =>
      match pqcSequenceUpdate q buffer.buffer with
      | .error e => (.error e, s)
      | .ok q' => (.ok .done, s.setSlot i (.sequence { x with state := .pqc q' } (s.slots i).hierarchy))
  | none =>
      match s.handleToObject sequenceHandle with
      | .ok (some i) =>
          match s.slots i with
          | .sequence x h => (.ok .done, s.setSlot i (.sequence (hashUpdate C x buffer.buffer) h))
          | .object _ | .vacant => (.error (.at .mode 0x140), s)
      | .ok none => (.error .failureMode, s)
      | .error e => (.error e, s)

/-! ## Completing sequences -/

/-- Marked to be freed on the way out of the command. -/
def HashObject.evicted (x : HashObject σ) : HashObject σ :=
  { x with attributes := { x.attributes with evict := true } }

/-- The result of `TPM2_SequenceComplete` for a hash sequence. -/
def completeHash (s : TpmState σ) (x : HashObject σ) (buffer : Bytes) (hierarchy : Hierarchy) : Response :=
  let ticketSafe := x.attributes.ticketSafe || (!x.attributes.firstBlock && ticketIsSafe buffer)
  match x.state with
  | .hash (h0 :: _) _ =>
      let result := C.finish (C.update h0 buffer)
      .digest result
        (if hierarchy = .null ∨ ticketSafe = false then ⟨.null, []⟩
          else ticketComputeHashCheck C s hierarchy (C.hashAlg h0) result)
  | _ => .digest [] ⟨.null, []⟩

def completeHmac (x : HashObject σ) (buffer : Bytes) : Response :=
  match x.state with
  | .hmac h _ => .digest (C.finish (C.update h buffer)) ⟨.null, []⟩
  | _ => .digest [] ⟨.null, []⟩

/-- `TPM2_SequenceComplete`. -/
def sequenceComplete (sequenceHandle : TpmHandle) (buffer : Tpm2b 1024) (hierarchy : Hierarchy)
    (s : TpmState σ) : Outcome σ :=
  match s.handleToObject sequenceHandle with
  | .ok (some i) =>
      match s.slots i with
      | .sequence x h =>
          if x.attributes.hashSeq then
            (.ok (completeHash C s x buffer.buffer hierarchy), s.setSlot i (.sequence x.evicted h))
          else if x.attributes.hmacSeq then
            (.ok (completeHmac C x buffer.buffer), s.setSlot i (.sequence x.evicted h))
          else (.error (.at .mode 0x100), s)
      | .object _ | .vacant => (.error (.at .mode 0x100), s)
  | .ok none => (.error .failureMode, s)
  | .error e => (.error e, s)

def completeEvent (x : HashObject σ) (buffer : Bytes) : Response :=
  match x.state with
  | .hash states _ => .digests (states.map fun h => C.finish (C.update h buffer))
  | _ => .digests []

/-- `TPM2_EventSequenceComplete`; `pcrCheck` is what the PCR say to an extend. -/
def eventSequenceComplete (pcrCheck : Except Fault Unit) (sequenceHandle : TpmHandle)
    (buffer : Tpm2b 1024) (s : TpmState σ) : Outcome σ :=
  match s.handleToObject sequenceHandle with
  | .ok (some i) =>
      match s.slots i with
      | .sequence x h =>
          if !x.attributes.eventSeq then (.error (.at .mode 0x200), s)
          else match pcrCheck with
            | .error e => (.error e, s)
            | .ok _ => (.ok (completeEvent C x buffer.buffer), s.setSlot i (.sequence x.evicted h))
      | .object _ | .vacant => (.error (.at .mode 0x200), s)
  | .ok none => (.error .failureMode, s)
  | .error e => (.error e, s)

/-- `HandleToObject(keyHandle)` in the two commands below, as an object. -/
def keyObject (s : TpmState σ) (keyHandle : TpmHandle) : Except Fault (Option (Slot σ)) :=
  match s.handleToObject keyHandle with
  | .ok (some i) => .ok (some (s.slots i))
  | .ok none => .ok none
  | .error e => .error e

/-- `TPM2_SignSequenceComplete`. The sequence is gone however the command ends, once it is known to
be a sign sequence. -/
def signSequenceComplete (sequenceHandle keyHandle : TpmHandle) (buffer : Tpm2b 1024) (s : TpmState σ) :
    Outcome σ :=
  match pqcSequenceFromHandle s sequenceHandle with
  | none => (.error (.at .handle 0x100), s)
  | some (i, _, q) =>
      if !q.isSign then (.error (.at .mode 0x100), s)
      else if keyHandle ≠ q.keyHandle then (.error (.at .handle 0x200), s.flushObject i)
      else if q.buffer.length ≠ 0 then (.error (.of .oneShotSignature), s.flushObject i)
      else match keyObject s keyHandle with
        | .error e => (.error e, s)
        | .ok none => (.error (.at .handle 0x200), s.flushObject i)
        | .ok (some (.object key)) =>
            match cryptMlDsaSignMessage C key buffer.buffer q.context.buffer with
            | .ok sig => (.ok (.signature sig), s.flushObject i)
            | .error e => (.error e, s.flushObject i)
        -- a sequence's type is none of the two ML-DSA types
        | .ok (some _) => (.error (.of .scheme), s.flushObject i)

/-- `TPM2_VerifySequenceComplete`. -/
def verifySequenceComplete (sequenceHandle keyHandle : TpmHandle) (signature : TpmtSignature)
    (s : TpmState σ) : Outcome σ :=
  match pqcSequenceFromHandle s sequenceHandle with
  | none => (.error (.at .handle 0x100), s)
  | some (i, _, q) =>
      if q.isSign then (.error (.at .mode 0x100), s)
      else if keyHandle ≠ q.keyHandle then (.error (.at .handle 0x200), s.flushObject i)
      else match keyObject s keyHandle with
        | .error e => (.error e, s)
        | .ok none => (.error (.at .handle 0x200), s.flushObject i)
        | .ok (some (.object key)) =>
            match cryptMlDsaValidateSignatureMessage C signature key.publicArea q.buffer q.context.buffer with
            | some c => (.error (.at c 0x140), s.flushObject i)
            | none => (.ok (.verified (ticketMessageVerified C s key)), s.flushObject i)
        | .ok (some _) => (.error (.at .scheme 0x140), s.flushObject i)

end
end PqcTpm
