import PqcTpm.Object

/-!
# Sequence objects and the `ANY_OBJECT` blob

`HASH_OBJECT` with its hash, HMAC and PQC states, and the blob that
`TPM2_ContextSave` and `NvObjectToBuffer` write for whatever a slot holds.
-/
namespace PqcTpm
open ByteCodec

/-- The crypto library's hash states with their writer and reader (`HASH_STATE_Marshal`,
`HASH_STATE_Unmarshal`). -/
structure HashStateCodec (σ : Type) where
  marshal : σ → Bytes
  unmarshal : Unmarshal σ
  reads : ∀ s, Reads unmarshal (marshal s) s

/-- `PQC_SEQ_STATE`; `bufferUsed` is the length of `buffer`. -/
structure PqcSeqState where
  isSign : Bool
  keyHandle : TpmHandle
  keyType : UInt16
  paramSet : MldsaParameterSet
  hint : Tpm2b 256
  context : Tpm2b 255
  buffer : Bytes
  deriving DecidableEq

/-- `MAX_PQC_SEQ_BUFFER`. -/
def maxPqcSeqBuffer : Nat := 4096

namespace PqcSeqState

def marshal (s : PqcSeqState) : Bytes :=
  be 1 s.isSign.toNat ++ (writeUint32 s.keyHandle ++ (be 2 s.keyType.toNat ++ (be 2 s.paramSet.id ++
    (s.hint.marshal ++ (s.context.marshal ++ (be 4 s.buffer.length ++ s.buffer))))))

def unmarshal : Unmarshal PqcSeqState := do
  let isSign ← Reader.word 1 (.of .insufficient)
  let keyHandle ← readUint32
  let keyType ← readUint16
  let paramSet ← MldsaParameterSet.unmarshal
  let hint ← Tpm2b.unmarshal 256
  let context ← Tpm2b.unmarshal 255
  let bufferUsed ← Reader.word 4 (.of .insufficient)
  Reader.check (decide (bufferUsed ≤ maxPqcSeqBuffer)) (.of .size)
  let buffer ← Reader.take bufferUsed (.of .insufficient)
  pure { isSign := decide (isSign ≠ 0), keyHandle, keyType := UInt16.ofNat keyType, paramSet, hint,
         context, buffer }

theorem reads {s : PqcSeqState} (hs : s.buffer.length ≤ maxPqcSeqBuffer) :
    Reads unmarshal s.marshal s := by
  have hlt : s.buffer.length < 256 ^ 4 := Nat.lt_of_le_of_lt hs (by decide)
  refine Reads.bind (Reads.word _ (w := 1) (n := s.isSign.toNat) (by cases s.isSign <;> decide)) ?_
  refine (reads_uint32 s.keyHandle).bind ?_
  refine (reads_uint16 (UInt16.toNat_lt s.keyType)).bind ?_
  refine s.paramSet.reads.bind ?_
  refine (Tpm2b.reads (by decide) s.hint).bind ?_
  refine (Tpm2b.reads (by decide) s.context).bind ?_
  refine (Reads.word _ hlt).bind ?_
  refine (Reads.check (decide_eq_true hs)).bind_nil ?_
  refine (Reads.take s.buffer _).bind_last ?_
  have hsign : decide (s.isSign.toNat ≠ 0) = s.isSign := by cases s.isSign <;> rfl
  rw [hsign, UInt16.ofNat_toNat]
  exact Reads.pure s

end PqcSeqState

/-- The `state` union of `HASH_OBJECT`; `stale` stands for octets no reader has filled. -/
inductive SeqState (σ : Type)
  | hash (states : List σ) (count : states.length = 4)
  | hmac (state : σ) (hmacKey : Tpm2b 128)
  | pqc (s : PqcSeqState)
  | stale

/-- `HASH_OBJECT`. -/
structure HashObject (σ : Type) where
  attributes : ObjectAttributes
  type : UInt16
  nameAlg : Option HashAlg
  objectAttributes : TpmaObject
  auth : Tpm2bAuth
  state : SeqState σ

section
variable {σ : Type} (hs : HashStateCodec σ)

namespace SeqState

def marshal : SeqState σ → Bytes
  | .hash states _ => be 2 4 ++ states.flatMap hs.marshal
  | .hmac state key => hs.marshal state ++ key.marshal
  | .pqc s => s.marshal
  | .stale => []

/-- Which reader runs is decided by the attributes, in this order. -/
def unmarshal (version : Nat) (a : ObjectAttributes) : Unmarshal (SeqState σ) :=
  if a.hashSeq || (a.eventSeq && decide (3 ≤ version)) then do
    let arraySize ← readUint16
    Reader.check (decide (arraySize = 4)) (.of .size)
    let states ← Reader.many hs.unmarshal 4
    if h : states.length = 4 then pure (.hash states h) else Reader.fail .failureMode
  else if a.hmacSeq then do
    let state ← hs.unmarshal
    let key ← Tpm2b.unmarshal 128
    pure (.hmac state key)
  else if a.pqcSeq then .pqc <$> PqcSeqState.unmarshal
  else pure .stale

/-- The state agrees with the attributes, and a PQC buffer is not overfull. -/
def Fits (a : ObjectAttributes) : SeqState σ → Prop
  | .hash _ _ => a.hashSeq = true ∨ a.eventSeq = true
  | .hmac _ _ => a.hmacSeq = true ∧ a.hashSeq = false ∧ a.eventSeq = false
  | .pqc s => (a.pqcSeq = true ∧ a.hmacSeq = false ∧ a.hashSeq = false ∧ a.eventSeq = false) ∧
      s.buffer.length ≤ maxPqcSeqBuffer
  | .stale => False

theorem reads {version : Nat} (hv : 3 ≤ version) {a : ObjectAttributes} {s : SeqState σ}
    (h : s.Fits a) : Reads (unmarshal hs version a) (s.marshal hs) s := by
  cases s with
  | hash states count =>
      have hsel : (a.hashSeq || (a.eventSeq && decide (3 ≤ version))) = true := by
        rcases h with h | h <;> simp [h, hv]
      rw [unmarshal, if_pos hsel]
      refine (reads_uint16 (n := 4) (by decide)).bind ?_
      refine (Reads.check rfl).bind_nil ?_
      have hm := Reads.many (p := hs.unmarshal) hs.marshal fun s (_ : s ∈ states) => hs.reads s
      rw [count] at hm
      refine hm.bind_last ?_
      rw [dif_pos count]
      exact Reads.pure _
  | hmac state key =>
      obtain ⟨h1, h2, h3⟩ := h
      simp only [unmarshal, h1, h2, h3, Bool.false_and, Bool.or_self, Bool.false_eq_true, if_false, if_true]
      refine (hs.reads state).bind ?_
      exact (Tpm2b.reads (by decide) key).bind_last (Reads.pure _)
  | pqc s =>
      obtain ⟨⟨h1, h2, h3, h4⟩, hlen⟩ := h
      simp only [unmarshal, h1, h2, h3, h4, Bool.false_and, Bool.or_self, Bool.false_eq_true, if_false,
        if_true]
      exact (PqcSeqState.reads hlen).map _
  | stale => exact absurd h id

end SeqState

namespace HashObject

/-- `HASH_OBJECT_Marshal`. -/
def marshal (o : HashObject σ) : Bytes :=
  nvHeaderMarshal 3 0xb874fe38 1 ++ (be 2 o.type.toNat ++ (be 2 (hashSelector.algIdOrNull o.nameAlg) ++
    (o.objectAttributes.marshal ++ (o.auth.marshal ++ (o.state.marshal hs ++ futureVersionsMarshal)))))

/-- `TPMI_ALG_PUBLIC_Unmarshal` leaves `type₀` in place of a type it does not know; the caller
drops the `TPM_RC_TYPE` that comes with it. -/
def typeRead (type₀ : UInt16) (n : Nat) : UInt16 :=
  if publicSelector.all.any (fun t => publicSelector.algId t == n) then UInt16.ofNat n else type₀

/-- `HASH_OBJECT_Unmarshal` into a slot whose type field holds `type₀`. -/
def unmarshal (p : RuntimeProfile) (type₀ : UInt16) (a : ObjectAttributes) : Unmarshal (HashObject σ) := do
  let version ← nvHeaderUnmarshal 3 0xb874fe38
  let type ← readUint16
  let nameAlg ← HashAlg.unmarshalNull p true
  let objectAttributes ← TpmaObject.unmarshal
  let auth ← Tpm2b.unmarshal 64
  let state ← SeqState.unmarshal hs version a
  futureVersionsRead version
  pure { attributes := a, type := typeRead type₀ type, nameAlg, objectAttributes, auth, state }

theorem reads {p : RuntimeProfile} (type₀ : UInt16) {o : HashObject σ}
    (hn : o.nameAlg.all (HashAlg.enabled p) = true) (hf : o.state.Fits o.attributes) :
    Reads (unmarshal hs p type₀ o.attributes) (o.marshal hs)
      { o with type := typeRead type₀ o.type.toNat } := by
  refine (reads_nvHeader (by decide) (by decide) (by decide) (by decide)).bind ?_
  refine (reads_uint16 (UInt16.toNat_lt o.type)).bind ?_
  refine (HashAlg.readsNull (Bool.true_or _) hn).bind ?_
  refine o.objectAttributes.reads.bind ?_
  refine (Tpm2b.reads (by decide) o.auth).bind ?_
  refine (SeqState.reads hs (by decide) hf).bind ?_
  exact (reads_futureVersions (by decide)).bind_last (Reads.pure _)

theorem unmarshal_attributes {p : RuntimeProfile} {type₀ : UInt16} {a : ObjectAttributes}
    {bs rest : Bytes} {o : HashObject σ} (h : unmarshal hs p type₀ a bs = .ok (o, rest)) :
    o.attributes = a := by
  unfold unmarshal at h
  obtain ⟨_, _, -, h⟩ := Reader.bind_eq_ok h
  obtain ⟨_, _, -, h⟩ := Reader.bind_eq_ok h
  obtain ⟨_, _, -, h⟩ := Reader.bind_eq_ok h
  obtain ⟨_, _, -, h⟩ := Reader.bind_eq_ok h
  obtain ⟨_, _, -, h⟩ := Reader.bind_eq_ok h
  obtain ⟨_, _, -, h⟩ := Reader.bind_eq_ok h
  obtain ⟨_, _, -, h⟩ := Reader.bind_eq_ok h
  cases h
  rfl

end HashObject

/-- What a slot holds, as its attributes say. -/
inductive AnyObject (σ : Type)
  | object (o : Object)
  | sequence (s : HashObject σ)
  | vacant (attributes : ObjectAttributes)

/-- The octets a reader may leave in place: those of the slot it fills. -/
structure Residue where
  type : UInt16 := 0
  privateExponent : PrivateExponent := .zero

namespace AnyObject

def attributes : AnyObject σ → ObjectAttributes
  | .object o => o.attributes
  | .sequence s => s.attributes
  | .vacant a => a

/-- The attributes say which structure the slot holds. -/
def Tagged : AnyObject σ → Prop
  | .object o => o.attributes.occupied = true ∧ o.attributes.isSequence = false
  | .sequence s => s.attributes.occupied = true ∧ s.attributes.isSequence = true
  | .vacant a => a.occupied = false

/-- `ANY_OBJECT_Marshal`. -/
def marshal (level : Nat) (x : AnyObject σ) : Bytes :=
  nvHeaderMarshal 2 0xfe9a3974 1 ++ (be 4 x.attributes.toWord ++
    ((match x with
      | .object o => o.marshal level
      | .sequence s => s.marshal hs
      | .vacant _ => []) ++ futureVersionsMarshal))

/-- `ANY_OBJECT_Unmarshal` into a slot with residue `r`. -/
def unmarshal (p : RuntimeProfile) (r : Residue) : Unmarshal (AnyObject σ) := do
  let version ← nvHeaderUnmarshal 2 0xfe9a3974
  let word ← Reader.word 4 (.of .insufficient)
  let a := ObjectAttributes.ofWord word
  let x ←
    if a.occupied then
      if a.isSequence then .sequence <$> HashObject.unmarshal hs p r.type a
      else .object <$> Object.unmarshal p r.privateExponent a
    else pure (.vacant a)
  futureVersionsRead version
  pure x

theorem reads_object {p : RuntimeProfile} {level : Nat} (r : Residue) {o : Object}
    (ht : (AnyObject.object o : AnyObject σ).Tagged) (he : o.publicArea.enabled p = true) :
    Reads (unmarshal hs p r) (marshal hs level (.object o))
      (.object (o.restored level r.privateExponent)) := by
  refine (reads_nvHeader (by decide) (by decide) (by decide) (by decide)).bind ?_
  refine (Reads.word _ o.attributes.toWord_lt).bind ?_
  simp only [ObjectAttributes.ofWord_toWord, ht.1, ht.2, if_true, Bool.false_eq_true, if_false]
  refine Reads.bind ((Object.reads r.privateExponent he).map _) ?_
  exact (reads_futureVersions (by decide)).bind_last (Reads.pure _)

theorem reads_sequence {p : RuntimeProfile} {level : Nat} (r : Residue) {s : HashObject σ}
    (ht : (AnyObject.sequence s).Tagged) (hn : s.nameAlg.all (HashAlg.enabled p) = true)
    (hf : s.state.Fits s.attributes) :
    Reads (unmarshal hs p r) (marshal hs level (.sequence s))
      (.sequence { s with type := HashObject.typeRead r.type s.type.toNat }) := by
  refine (reads_nvHeader (by decide) (by decide) (by decide) (by decide)).bind ?_
  refine (Reads.word _ s.attributes.toWord_lt).bind ?_
  simp only [ObjectAttributes.ofWord_toWord, ht.1, ht.2, if_true]
  refine Reads.bind ((HashObject.reads hs r.type hn hf).map _) ?_
  exact (reads_futureVersions (by decide)).bind_last (Reads.pure _)

/-- What is read has the kind and the attributes that the word behind the header says. -/
theorem unmarshal_ok {p : RuntimeProfile} {r : Residue} {bs rest : Bytes} {x : AnyObject σ}
    (h : unmarshal hs p r bs = .ok (x, rest)) :
    x.Tagged ∧ ∃ version word mid mid', nvHeaderUnmarshal 2 0xfe9a3974 bs = .ok (version, mid) ∧
      Reader.word 4 (Fault.of .insufficient) mid = .ok (word, mid') ∧
      x.attributes = ObjectAttributes.ofWord word := by
  unfold unmarshal at h
  obtain ⟨version, mid, hv, h⟩ := Reader.bind_eq_ok h
  obtain ⟨word, mid', hw, h⟩ := Reader.bind_eq_ok h
  suffices hx : x.Tagged ∧ x.attributes = ObjectAttributes.ofWord word from
    ⟨hx.1, version, word, mid, mid', hv, hw, hx.2⟩
  dsimp only at h
  split at h
  · rename_i hocc
    split at h
    · rename_i hseq
      obtain ⟨y, _, hy, h⟩ := Reader.bind_eq_ok h
      obtain ⟨s, hs, rfl⟩ := Reader.map_eq_ok hy
      obtain ⟨_, _, -, h⟩ := Reader.bind_eq_ok h
      cases h
      have ha := HashObject.unmarshal_attributes _ hs
      exact ⟨⟨by rw [ha]; exact hocc, by rw [ha]; exact hseq⟩, ha⟩
    · rename_i hseq
      obtain ⟨y, _, hy, h⟩ := Reader.bind_eq_ok h
      obtain ⟨o, ho, rfl⟩ := Reader.map_eq_ok hy
      obtain ⟨_, _, -, h⟩ := Reader.bind_eq_ok h
      cases h
      have ha := Object.unmarshal_attributes ho
      exact ⟨⟨by rw [ha]; exact hocc, by rw [ha]; exact Bool.not_eq_true _ ▸ hseq⟩, ha⟩
  · rename_i hocc
    obtain ⟨y, _, hy, h⟩ := Reader.bind_eq_ok h
    cases hy
    obtain ⟨_, _, -, h⟩ := Reader.bind_eq_ok h
    cases h
    exact ⟨Bool.eq_false_of_not_eq_true hocc, rfl⟩

theorem unmarshal_marshal_attributes {p : RuntimeProfile} {r : Residue} {level : Nat} {x y : AnyObject σ}
    {rest : Bytes} (h : unmarshal hs p r (marshal hs level x) = .ok (y, rest)) :
    y.attributes = x.attributes := by
  obtain ⟨-, version, word, mid, mid', hv, hw, ha⟩ := unmarshal_ok hs h
  have hheader : Reads (nvHeaderUnmarshal 2 0xfe9a3974) (nvHeaderMarshal 2 0xfe9a3974 1) 2 :=
    reads_nvHeader (by decide) (by decide) (by decide) (by decide)
  unfold marshal at hv
  rw [hheader] at hv
  cases hv
  rw [Reads.word (Fault.of .insufficient) x.attributes.toWord_lt] at hw
  cases hw
  rw [ha, ObjectAttributes.ofWord_toWord]

end AnyObject

end

end PqcTpm
