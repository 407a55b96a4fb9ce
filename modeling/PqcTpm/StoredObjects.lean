import PqcTpm.Protection
import PqcTpm.SequenceMarks

/-!
# Persistent objects and their two formats

`TPM2_EvictControl` writes an object with `NvObjectToBuffer`, and the next command that
names the persistent handle reads it with `NvObjectFromBuffer`. The octets are an
`ANY_OBJECT` blob or a plain `RSA3072_OBJECT` (`BackwardsCompatibilityObject.c`) and do
not say which.
-/
namespace PqcTpm
open ByteCodec Transition

/-! ## `RSA3072_OBJECT` -/

/-- `MemoryCopy2B` into a buffer of `dSize` octets. -/
def memoryCopy2b {n : Nat} (dSize : Nat) (source : Tpm2b n) : Except Fault (Tpm2b dSize) :=
  if h : source.buffer.length ≤ dSize then .ok ⟨source.buffer, h⟩ else .error .failureMode

theorem memoryCopy2b_self {n : Nat} (source : Tpm2b n) : memoryCopy2b n source = .ok source :=
  dif_pos source.size_le

/-- `RSA3072_TPMU_PUBLIC_ID`. The types that came later have no member. -/
def Rsa3072PublicId : ObjectType → Type
  | .keyedhash | .symcipher => Tpm2b 64
  | .rsa => Tpm2b 384
  | .ecc => Tpm2b 80 × Tpm2b 80
  | .mldsa | .hashMldsa | .mlkem => Unit

/-- `RSA3072_TPMT_SENSITIVE`; all members of its union are read and written through `any`. -/
structure Rsa3072Sensitive where
  sensitiveType : Option ObjectType
  authValue : Tpm2bAuth
  seedValue : Tpm2bDigest
  any : Tpm2b 960
  any_le : ∀ t, sensitiveType = some t → any.buffer.length ≤ sensitiveSize t
  public_only : sensitiveType = none → authValue = .empty ∧ seedValue = .empty ∧ any = .empty

/-- `RSA3072_OBJECT` behind its first field. -/
structure Rsa3072Object where
  type : ObjectType
  nameAlg : Option HashAlg
  objectAttributes : TpmaObject
  authPolicy : Tpm2bDigest
  parameters : PublicParms type
  unique : Rsa3072PublicId type
  sensitive : Rsa3072Sensitive
  /-- Set for RSA keys; what else was on the stack is not read back. -/
  privateExponent : PrivateExponent
  qualifiedName : Tpm2bName
  evictHandle : TpmHandle
  name : Tpm2bName
  seedCompatLevel : SeedCompatLevel

/-- The `switch` of `OBJECT_To_RSA3072_OBJECT` on the unique field. -/
def uniqueToRsa3072 : (t : ObjectType) → PublicId t → Except Fault (Rsa3072PublicId t)
  | .keyedhash, u => memoryCopy2b 64 (u : Tpm2b 64)
  | .symcipher, u => memoryCopy2b 64 (u : Tpm2b 64)
  | .rsa, u => memoryCopy2b 384 (u : Tpm2b 384)
  | .ecc, u => do
      let x ← memoryCopy2b 80 u.1
      let y ← memoryCopy2b 80 u.2
      pure (x, y)
  | .mldsa, _ | .hashMldsa, _ | .mlkem, _ => .ok ()

/-- The `switch` of `RSA3072_OBJECT_To_OBJECT`; a slot was cleared when it was allocated. The buffers
of an `OBJECT` are at least as long. -/
def uniqueOfRsa3072 : (t : ObjectType) → Rsa3072PublicId t → PublicId t
  | .keyedhash, u | .symcipher, u => (u : Tpm2b 64)
  | .rsa, u => (u : Tpm2b 384)
  | .ecc, u => (u : Tpm2b 80 × Tpm2b 80)
  | .mldsa, _ | .hashMldsa, _ => (Tpm2b.empty : Tpm2b 2592)
  | .mlkem, _ => (Tpm2b.empty : Tpm2b 1568)

def sensitiveToRsa3072 (s : TpmtSensitive) : Except Fault Rsa3072Sensitive :=
  match h : s.sensitive with
  | none =>
      .ok ⟨none, s.authValue, s.seedValue, .empty, nofun,
        fun _ => ⟨(s.public_only h).1, (s.public_only h).2, rfl⟩⟩
  | some c =>
      if hle : c.2.buffer.length ≤ 960 then
        .ok ⟨some c.1, s.authValue, s.seedValue, ⟨c.2.buffer, hle⟩,
          fun _ ht => by cases ht; exact c.2.size_le, nofun⟩
      else .error .failureMode

def sensitiveOfRsa3072 (s : Rsa3072Sensitive) : TpmtSensitive :=
  match h : s.sensitiveType with
  | none => ⟨s.authValue, s.seedValue, none, fun _ => ⟨(s.public_only h).1, (s.public_only h).2.1⟩⟩
  | some t => ⟨s.authValue, s.seedValue, some ⟨t, ⟨s.any.buffer, s.any_le t h⟩⟩, nofun⟩

/-- `OBJECT_To_RSA3072_OBJECT`. -/
def objectToRsa3072Object (o : Object) : Except Fault Rsa3072Object := do
  let unique ← uniqueToRsa3072 o.publicArea.type o.publicArea.unique
  let sensitive ← sensitiveToRsa3072 o.sensitive
  pure
    { type := o.publicArea.type, nameAlg := o.publicArea.nameAlg
      objectAttributes := o.publicArea.objectAttributes, authPolicy := o.publicArea.authPolicy
      parameters := o.publicArea.parameters, unique, sensitive
      privateExponent := o.privateExponent, qualifiedName := o.qualifiedName
      evictHandle := o.evictHandle, name := o.name, seedCompatLevel := o.seedCompatLevel }

/-- `RSA3072_OBJECT_To_OBJECT`. -/
def rsa3072ObjectToObject (a : ObjectAttributes) (r : Rsa3072Object) : Object where
  attributes := a
  publicArea :=
    { type := r.type, nameAlg := r.nameAlg, objectAttributes := r.objectAttributes
      authPolicy := r.authPolicy, parameters := r.parameters, unique := uniqueOfRsa3072 r.type r.unique }
  sensitive := sensitiveOfRsa3072 r.sensitive
  privateExponent := if r.type = .rsa then r.privateExponent else .zero
  qualifiedName := r.qualifiedName
  evictHandle := r.evictHandle
  name := r.name
  seedCompatLevel := r.seedCompatLevel
  hierarchy := a.hierarchy

/-- How the compiler lays out `RSA3072_OBJECT` behind its first field: copying the octets out and in
again gives the structure back. -/
structure Rsa3072Layout where
  write : Rsa3072Object → Bytes
  write_length : ∀ r, (write r).length = 2596
  read : Bytes → Rsa3072Object
  read_write : ∀ r, read (write r) = r

/-! ## Writing and reading -/

/-- `MAX_MARSHALLED_OBJECT_SIZE`. -/
def maxMarshalledObjectSize : Nat := 4848

section
variable {σ : Type} (hs : HashStateCodec σ) (S : Rsa3072Layout)

/-- `OBJECT_To_Buffer_As_RSA3072_OBJECT`. -/
def objectToBuffer (o : Object) : Except Fault Bytes := do
  let r ← objectToRsa3072Object o
  pure (le 4 o.attributes.toWord ++ S.write r)

/-- `RSA3072_OBJECT_Buffer_To_OBJECT`. -/
def rsa3072BufferToObject (buffer : Bytes) : Except Fault Object :=
  if buffer.length ≠ 2600 then .error (.of .size)
  else .ok (rsa3072ObjectToObject (.ofWord (fromLe (buffer.take 4))) (S.read (buffer.drop 4)))

/-- `NvObjectToBuffer` of what a slot holds, with its assertions. The type of a sequence is
none that the `switch` knows. -/
def storeObject (level : Nat) : Slot σ → Except Fault Bytes
  | .object o =>
      if marshalAnyObject level o.publicArea then
        let blob := AnyObject.marshal hs level (.object o)
        if blob.length ≤ maxMarshalledObjectSize then .ok blob else .error .failureMode
      else objectToBuffer S o
  | .sequence _ _ | .vacant => .error .failureMode

/-- `NvReadObject` and `NvObjectFromBuffer` into a cleared slot, with their assertions. -/
def fetchObject (p : RuntimeProfile) (record : Bytes) : Except Fault (Slot σ) :=
  if maxMarshalledObjectSize < record.length then .error .failureMode
  else match AnyObject.unmarshal hs p {} record with
    | .ok (x, []) => .ok (Slot.ofAnyObject x)
    | .ok (_, _ :: _) => .error .failureMode
    | .error (.rc _) =>
        match rsa3072BufferToObject S record with
        | .ok o => .ok (.object o)
        | .error _ => .error .failureMode
    | .error f => .error f

end

/-! ## Nothing is lost on the way -/

theorem marshalAnyObject_false {level : Nat} {a : TpmtPublic} (h : marshalAnyObject level a = false) :
    a.type = .rsa ∨ a.type = .ecc ∨ a.type = .keyedhash ∨ a.type = .symcipher := by
  obtain ⟨type, nameAlg, x, policy, q, u⟩ := a
  cases type with
  | rsa => exact .inl rfl
  | ecc => exact .inr (.inl rfl)
  | keyedhash => exact .inr (.inr (.inl rfl))
  | symcipher => exact .inr (.inr (.inr rfl))
  | mldsa => cases h
  | hashMldsa => cases h
  | mlkem => cases h

theorem sensitiveSize_le (t : ObjectType) : sensitiveSize t ≤ 960 := by
  cases t <;> decide

theorem uniqueToRsa3072_ok (t : ObjectType) (u : PublicId t) : ∃ v, uniqueToRsa3072 t u = .ok v := by
  cases t with
  | keyedhash => exact ⟨u, memoryCopy2b_self _⟩
  | symcipher => exact ⟨u, memoryCopy2b_self _⟩
  | rsa => exact ⟨u, memoryCopy2b_self _⟩
  | ecc =>
      refine ⟨u, ?_⟩
      simp only [uniqueToRsa3072, memoryCopy2b_self]
      rfl
  | mldsa => exact ⟨(), rfl⟩
  | hashMldsa => exact ⟨(), rfl⟩
  | mlkem => exact ⟨(), rfl⟩

theorem uniqueToRsa3072_back {t : ObjectType} {u : PublicId t} {v : Rsa3072PublicId t}
    (ht : t = .rsa ∨ t = .ecc ∨ t = .keyedhash ∨ t = .symcipher) (h : uniqueToRsa3072 t u = .ok v) :
    uniqueOfRsa3072 t v = u := by
  rcases ht with rfl | rfl | rfl | rfl
  · exact (Except.ok.inj ((memoryCopy2b_self (u : Tpm2b 384)).symm.trans h)).symm
  · simp only [uniqueToRsa3072, memoryCopy2b_self] at h
    exact (Except.ok.inj h).symm
  · exact (Except.ok.inj ((memoryCopy2b_self (u : Tpm2b 64)).symm.trans h)).symm
  · exact (Except.ok.inj ((memoryCopy2b_self (u : Tpm2b 64)).symm.trans h)).symm

/-- No sensitive area is longer than what `RSA3072_OBJECT` has for it. -/
theorem sensitiveToRsa3072_back (s : TpmtSensitive) :
    ∃ r, sensitiveToRsa3072 s = .ok r ∧ sensitiveOfRsa3072 r = s := by
  obtain ⟨auth, seed, c, hpub⟩ := s
  cases c with
  | none => exact ⟨_, rfl, rfl⟩
  | some c =>
      have hle : c.2.buffer.length ≤ 960 := le_trans c.2.size_le (sensitiveSize_le c.1)
      exact ⟨_, dif_pos hle, rfl⟩

/-- What comes back from an `RSA3072_OBJECT`: the hierarchy is taken from the attributes, and only RSA
keys bring their private exponent. -/
def Object.fromRsa3072 (o : Object) : Object :=
  { o with
    privateExponent := if o.publicArea.type = .rsa then o.privateExponent else .zero
    hierarchy := o.attributes.hierarchy }

theorem objectToRsa3072Object_ok (o : Object) :
    ∃ r, objectToRsa3072Object o = .ok r ∧
      ((o.publicArea.type = .rsa ∨ o.publicArea.type = .ecc ∨ o.publicArea.type = .keyedhash ∨
        o.publicArea.type = .symcipher) → rsa3072ObjectToObject o.attributes r = o.fromRsa3072) := by
  obtain ⟨u, hu⟩ := uniqueToRsa3072_ok o.publicArea.type o.publicArea.unique
  obtain ⟨s, hs, hback⟩ := sensitiveToRsa3072_back o.sensitive
  refine ⟨_, by rw [objectToRsa3072Object, hu, hs]; rfl, ?_⟩
  intro ht
  simp only [rsa3072ObjectToObject, uniqueToRsa3072_back ht hu, hback]
  rfl

section
variable {σ : Type} {hs : HashStateCodec σ} {S : Rsa3072Layout}

theorem objectToBuffer_ok (o : Object) : ∃ r, objectToRsa3072Object o = .ok r ∧
    objectToBuffer S o = .ok (le 4 o.attributes.toWord ++ S.write r) := by
  obtain ⟨r, hr, -⟩ := objectToRsa3072Object_ok o
  exact ⟨r, hr, by rw [objectToBuffer, hr]; rfl⟩

theorem objectToBuffer_length {o : Object} {record : Bytes} (h : objectToBuffer S o = .ok record) :
    record.length = 2600 := by
  obtain ⟨r, -, hbuf⟩ := objectToBuffer_ok (S := S) o
  cases hbuf.symm.trans h
  rw [List.length_append, le_length, S.write_length]

theorem rsa3072BufferToObject_objectToBuffer {o : Object} {record : Bytes}
    (ht : o.publicArea.type = .rsa ∨ o.publicArea.type = .ecc ∨ o.publicArea.type = .keyedhash ∨
      o.publicArea.type = .symcipher)
    (h : objectToBuffer S o = .ok record) : rsa3072BufferToObject S record = .ok o.fromRsa3072 := by
  have hlen := objectToBuffer_length h
  obtain ⟨r, hr, hback⟩ := objectToRsa3072Object_ok o
  obtain ⟨r', hr', hbuf⟩ := objectToBuffer_ok (S := S) o
  cases hr.symm.trans hr'
  cases hbuf.symm.trans h
  have htake : (le 4 o.attributes.toWord ++ S.write r).take 4 = le 4 o.attributes.toWord :=
    List.take_left' (le_length _ _)
  have hdrop : (le 4 o.attributes.toWord ++ S.write r).drop 4 = S.write r :=
    List.drop_left' (le_length _ _)
  rw [rsa3072BufferToObject, if_neg (not_not.mpr hlen), htake, hdrop, fromLe_le o.attributes.toWord_lt,
    ObjectAttributes.ofWord_toWord, S.read_write, hback ht]

/-- Octets 2 to 5 of a plain object begin with the upper half of its attribute word. They are no magic
number, whoever reads them. -/
theorem unmarshal_objectToBuffer (hs : HashStateCodec σ) (p : RuntimeProfile) (r : Residue) {o : Object} {record : Bytes}
    (ho : Storable o) (h : objectToBuffer S o = .ok record) :
    AnyObject.unmarshal hs p r record = .error (.of .badTag) := by
  have hlen := objectToBuffer_length h
  obtain ⟨raw, -, hbuf⟩ := objectToBuffer_ok (S := S) o
  cases hbuf.symm.trans h
  have hmagic := rsa3072_magic ⟨fun _ => S.write raw, fun _ => S.write_length raw, fun _ => o⟩ ho
  have hbad : nvHeaderUnmarshal 2 0xfe9a3974 (le 4 o.attributes.toWord ++ S.write raw) =
      .error (.of .badTag) :=
    nvHeader_badTag (by omega) hmagic
  unfold AnyObject.unmarshal
  rw [Reader.bind_apply, hbad]

end

/-! ## The size of a blob -/

theorem Tpm2b.marshal_length_le {max : Nat} (b : Tpm2b max) : b.marshal.length ≤ 2 + max := by
  have hle := b.size_le
  rw [Tpm2b.marshal, List.length_append, be_length]
  omega

@[simp] theorem HashAlg.marshal_length (h : HashAlg) : h.marshal.length = 2 := be_length _ _

theorem TpmtSymDefObject.marshal_length_le (d : TpmtSymDefObject) : (TpmtSymDefObject.marshal d).length ≤ 6 := by
  cases d <;> simp [TpmtSymDefObject.marshal]

theorem TpmtKeyedhashScheme.marshal_length_le (s : TpmtKeyedhashScheme) : s.marshal.length ≤ 6 := by
  cases s <;> simp [TpmtKeyedhashScheme.marshal]

theorem TpmtKdfScheme.marshal_length_le (s : TpmtKdfScheme) : (TpmtKdfScheme.marshal s).length ≤ 4 := by
  cases s <;> simp [TpmtKdfScheme.marshal]

theorem TpmtRsaScheme.marshal_length_le (s : TpmtRsaScheme) : s.marshal.length ≤ 4 := by
  cases s <;> simp [TpmtRsaScheme.marshal, TpmtRsaScheme.hashAlg]

theorem TpmtEccScheme.marshal_length_le (s : TpmtEccScheme) : s.marshal.length ≤ 6 := by
  cases s <;> simp [TpmtEccScheme.marshal, TpmtEccScheme.details]

theorem PublicParms.marshal_length_le (t : ObjectType) (q : PublicParms t) :
    (PublicParms.marshal t q).length ≤ 18 := by
  cases t with
  | keyedhash => exact le_trans (TpmtKeyedhashScheme.marshal_length_le q) (by decide)
  | symcipher => exact le_trans (TpmtSymDefObject.marshal_length_le (some q)) (by decide)
  | rsa =>
      have hsym := TpmtSymDefObject.marshal_length_le (RsaParms.symmetric q)
      have hscheme := TpmtRsaScheme.marshal_length_le (RsaParms.scheme q)
      simp only [PublicParms.marshal, RsaParms.marshal, writeUint32, List.length_append, be_length]
      omega
  | ecc =>
      have hsym := TpmtSymDefObject.marshal_length_le (EccParms.symmetric q)
      have hscheme := TpmtEccScheme.marshal_length_le (EccParms.scheme q)
      have hkdf := TpmtKdfScheme.marshal_length_le (EccParms.kdf q)
      simp only [PublicParms.marshal, EccParms.marshal, List.length_append, be_length]
      omega
  | mldsa => simp [PublicParms.marshal, MldsaParms.marshal]
  | hashMldsa => simp [PublicParms.marshal, HashMldsaParms.marshal]
  | mlkem =>
      have hsym := TpmtSymDefObject.marshal_length_le (MlkemParms.symmetric q)
      simp only [PublicParms.marshal, MlkemParms.marshal, List.length_append, be_length]
      omega

/-- The buffers of the unique fields with their size fields. -/
def uniqueSize : ObjectType → Nat
  | .keyedhash | .symcipher => 66
  | .rsa => 386
  | .ecc => 164
  | .mldsa | .hashMldsa => 2594
  | .mlkem => 1570

theorem PublicId.marshal_length_le (t : ObjectType) (u : PublicId t) :
    (PublicId.marshal t u).length ≤ uniqueSize t := by
  cases t with
  | keyedhash => exact Tpm2b.marshal_length_le (u : Tpm2b 64)
  | symcipher => exact Tpm2b.marshal_length_le (u : Tpm2b 64)
  | rsa => exact Tpm2b.marshal_length_le (u : Tpm2b 384)
  | ecc =>
      have hx := Tpm2b.marshal_length_le (u : Tpm2b 80 × Tpm2b 80).1
      have hy := Tpm2b.marshal_length_le (u : Tpm2b 80 × Tpm2b 80).2
      simp only [PublicId.marshal, uniqueSize, List.length_append]
      omega
  | mldsa => exact Tpm2b.marshal_length_le (u : Tpm2b 2592)
  | hashMldsa => exact Tpm2b.marshal_length_le (u : Tpm2b 2592)
  | mlkem => exact Tpm2b.marshal_length_le (u : Tpm2b 1568)

/-- The sensitive area is that of the object's type, if there is one (`CryptValidateKeys`). -/
def Object.SensitiveAgrees (o : Object) : Prop := ∀ c, o.sensitive.sensitive = some c → c.1 = o.publicArea.type

theorem TpmtSensitive.marshal_length_le (s : TpmtSensitive) {n : Nat}
    (h : ∀ c, s.sensitive = some c → sensitiveSize c.1 ≤ n) : s.marshal.length ≤ 136 + n := by
  have hauth := Tpm2b.marshal_length_le s.authValue
  have hseed := Tpm2b.marshal_length_le s.seedValue
  simp only [TpmtSensitive.marshal, List.length_append, be_length]
  cases hc : s.sensitive with
  | none =>
      simp only [Option.elim_none, List.length_nil]
      omega
  | some c =>
      have hlen := Tpm2b.marshal_length_le c.2
      have hn := h c hc
      simp only [Option.elim_some]
      omega

theorem PrivateExponent.marshal_length_le (e : PrivateExponent) : e.marshal.length ≤ 863 := by
  have hh := nvHeaderMarshal_length 2 0x854eab2 1
  have h1 := e.Q.marshal_length
  have h2 := e.dP.marshal_length
  have h3 := e.dQ.marshal_length
  have h4 := e.qInv.marshal_length
  have hf : futureVersionsMarshal.length = 3 := by decide
  simp only [PrivateExponent.marshal, List.length_append, hf]
  omega

@[simp] theorem blockSkipMarshal_length (b : Bool) (block : Bytes) :
    (blockSkipMarshal b block).length = 3 + block.length := by
  rw [blockSkipMarshal, List.length_append, List.length_append, be_length, be_length]
  omega

/-- `MAX_MARSHALLED_OBJECT_SIZE` is enough for every object. -/
theorem AnyObject.marshal_length_le {σ : Type} (hs : HashStateCodec σ) (level : Nat) {o : Object}
    (h : o.SensitiveAgrees) : (AnyObject.marshal hs level (.object o)).length ≤ maxMarshalledObjectSize := by
  have hparms := PublicParms.marshal_length_le o.publicArea.type o.publicArea.parameters
  have hunique := PublicId.marshal_length_le o.publicArea.type o.publicArea.unique
  have hpolicy := Tpm2b.marshal_length_le o.publicArea.authPolicy
  have hname := Tpm2b.marshal_length_le o.name
  have hqualified := Tpm2b.marshal_length_le o.qualifiedName
  have hexponent := PrivateExponent.marshal_length_le o.privateExponent
  have hsensitive := TpmtSensitive.marshal_length_le o.sensitive fun c hc => le_of_eq (congrArg sensitiveSize (h c hc))
  have hboth : uniqueSize o.publicArea.type + sensitiveSize o.publicArea.type ≤ 2626 := by
    cases o.publicArea.type <;> decide
  have hf : futureVersionsMarshal.length = 3 := by decide
  have hheader := nvHeaderMarshal_length 2 0xfe9a3974 1
  have hheader' := nvHeaderMarshal_length (Object.blobVersion level) 0x75be73af (Object.blobVersion level)
  have hskip : (if Object.hasPrivateExponent (Object.blobVersion level) o.sensitive then
      o.privateExponent.marshal else []).length ≤ 863 := by
    split
    · exact hexponent
    · exact Nat.zero_le _
  have htail : (if 4 ≤ Object.blobVersion level then writeUint32 o.hierarchy.handle else []).length ≤ 4 := by
    split
    · exact le_of_eq (be_length _ _)
    · exact Nat.zero_le _
  simp only [AnyObject.marshal, Object.marshal, TpmtPublic.marshal, TpmaObject.marshal, writeUint32, hf,
    List.length_append, be_length, blockSkipMarshal_length] at htail ⊢
  unfold maxMarshalledObjectSize
  omega

/-! ## What can be in a slot -/

/-- What `NvAddEvictObject` sets for the time of the write. -/
def Slot.persistent {σ : Type} (handle : TpmHandle) : Slot σ → Slot σ
  | .object o => .object (o.evicted handle)
  | .sequence s h => .sequence { s with attributes.evict := true } h
  | .vacant => .vacant

/-- `NvGetEvictObject` marks what it has read. -/
def Slot.markEvict {σ : Type} : Slot σ → Slot σ
  | .object o => .object { o with attributes.evict := true }
  | .sequence s h => .sequence { s with attributes.evict := true } h
  | .vacant => .vacant

/-- An object that `TPM2_CreatePrimary`, `TPM2_CreateLoaded`, `TPM2_Load` or `TPM2_LoadExternal` hands to
`ObjectSetLoadedAttributes`: its public area was read under the profile, the sensitive area goes with
it, and `CryptRsaLoadPrivateExponent` has filled in the exponent of an RSA key and of nothing else. -/
structure Object.Checked (p : RuntimeProfile) (o : Object) : Prop where
  enabled : o.publicArea.enabled p = true
  sensitive : o.SensitiveAgrees
  exponent : o.sensitive.sensitiveType ≠ TpmAlg.rsa → o.privateExponent = .zero
  fresh : ∃ external publicOnly privateExp,
    o.attributes = { occupied := true, external, publicOnly, privateExp }

section
variable {σ : Type} (P : Platform σ) (C : SeqCrypto σ) (S : Rsa3072Layout)

/-- What the commands, saved contexts, a saved state and the NV memory can put into a slot. -/
inductive Resident : Slot σ → Prop
  | loaded {parent : ParentRef} {o : Object}
      (computeQualifiedName : ParentRef → Option HashAlg → Tpm2bName → Tpm2bName) (level : SeedCompatLevel)
      (hparent : ∀ q, parent = .object q → Resident (.object q)) (ho : o.Checked P.profile) :
      Resident (.object (objectSetLoadedAttributes computeQualifiedName parent level o))
  | sequence {s : HashObject σ} (hs : Fresh C s) : Resident (.sequence s .null)
  | pqcSequence (auth : Tpm2bAuth) (q : PqcSeqState) : Resident (.sequence (pqcObject auth q) .null)
  | updated {s : HashObject σ} {h : Hierarchy} (hs : Resident (.sequence s h)) (state : SeqState σ) :
      Resident (.sequence { s with state } h)
  | restored {x : Slot σ} {y : AnyObject σ} {rest : Bytes} (hx : Resident x)
      (h : AnyObject.unmarshal P.hs P.profile {}
        (AnyObject.marshal P.hs P.profile.stateFormatLevel x.toAnyObject) = .ok (y, rest)) :
      Resident (Slot.ofAnyObject y)
  | fetched {x y : Slot σ} {record : Bytes} (handle : TpmHandle) (hx : Resident x)
      (hstore : storeObject P.hs S P.profile.stateFormatLevel (x.persistent handle) = .ok record)
      (hfetch : fetchObject P.hs S P.profile record = .ok y) : Resident y.markEvict

end

/-- The facts about an object in a slot that its two formats rely on. -/
structure Object.Admitted (p : RuntimeProfile) (o : Object) : Prop where
  storable : Storable o
  enabled : o.publicArea.enabled p = true
  sensitive : o.SensitiveAgrees
  exponent : o.sensitive.sensitiveType ≠ TpmAlg.rsa → o.privateExponent = .zero
  hierarchy : o.hierarchy = o.attributes.hierarchy

namespace Object.Admitted
variable {p : RuntimeProfile} {o : Object}

theorem evicted (h : o.Admitted p) (handle : TpmHandle) : (o.evicted handle).Admitted p :=
  ⟨⟨h.storable.occupied, h.storable.not_sequence, h.storable.reserved⟩, h.enabled, h.sensitive, h.exponent,
    h.hierarchy⟩

theorem marked (h : o.Admitted p) : Object.Admitted p { o with attributes.evict := true } :=
  ⟨⟨h.storable.occupied, h.storable.not_sequence, h.storable.reserved⟩, h.enabled, h.sensitive, h.exponent,
    h.hierarchy⟩

theorem restored_eq (h : o.Admitted p) (level : Nat) : o.restored level .zero = o := by
  have hexponent : (if hasPrivateExponent (blobVersion level) o.sensitive then o.privateExponent else .zero) =
      o.privateExponent := by
    split
    · rfl
    · rename_i hhas
      refine (h.exponent fun hrsa => hhas ?_).symm
      simp [hasPrivateExponent, hrsa]
  have hhierarchy : (if 4 ≤ blobVersion level then o.hierarchy else o.attributes.hierarchy) = o.hierarchy := by
    rw [h.hierarchy, ite_self]
  rw [Object.restored, hexponent, hhierarchy]

theorem sensitiveType_ne (h : o.Admitted p) (ht : o.publicArea.type ≠ .rsa) :
    o.sensitive.sensitiveType ≠ TpmAlg.rsa := by
  unfold TpmtSensitive.sensitiveType
  cases hc : o.sensitive.sensitive with
  | none => decide
  | some c =>
      have hne : c.1 ≠ .rsa := by
        rw [h.sensitive c hc]
        exact ht
      exact fun halg => hne (publicSelector.inj _ _ halg)

/-- So does a plain `RSA3072_OBJECT`. -/
theorem fromRsa3072_eq (h : o.Admitted p) : o.fromRsa3072 = o := by
  have hexponent : (if o.publicArea.type = .rsa then o.privateExponent else .zero) = o.privateExponent := by
    split
    · rfl
    · rename_i ht
      exact (h.exponent (h.sensitiveType_ne ht)).symm
  rw [Object.fromRsa3072, hexponent, ← h.hierarchy]

end Object.Admitted

/-- What holds of every slot: an object is admitted, a sequence is marked as one. -/
def Slot.Admitted {σ : Type} (p : RuntimeProfile) : Slot σ → Prop
  | .vacant => False
  | .object o => o.Admitted p
  | .sequence s _ => (AnyObject.sequence s).Tagged

/-! ## Objects as they are loaded -/

theorem parentAttributes_hierarchy (a : ObjectAttributes) (q : TpmtPublic) :
    (parentAttributes a q).hierarchy = a.hierarchy := by
  unfold parentAttributes
  split
  · split <;> rfl
  · rfl

theorem parentAttributes_isSequence (a : ObjectAttributes) (q : TpmtPublic) :
    (parentAttributes a q).isSequence = a.isSequence := by
  unfold parentAttributes
  split
  · split <;> rfl
  · rfl

theorem parentAttributes_reserved (a : ObjectAttributes) (q : TpmtPublic) :
    (parentAttributes a q).reserved = a.reserved := by
  unfold parentAttributes
  split
  · split <;> rfl
  · rfl

/-- `ObjectSetLoadedAttributes` sets the hierarchy twice, as a handle and as attributes, and the two
agree. -/
theorem objectSetLoadedAttributes_admitted {p : RuntimeProfile} {parent : ParentRef} {o : Object}
    (computeQualifiedName : ParentRef → Option HashAlg → Tpm2bName → Tpm2bName) (level : SeedCompatLevel)
    (hparent : ∀ q, parent = .object q → q.Admitted p) (ho : o.Checked p) :
    (objectSetLoadedAttributes computeQualifiedName parent level o).Admitted p := by
  obtain ⟨external, publicOnly, privateExp, hfresh⟩ := ho.fresh
  refine ⟨⟨rfl, ?_, ?_⟩, ho.enabled, ho.sensitive, ho.exponent, ?_⟩
  · refine (parentAttributes_isSequence _ _).trans ?_
    rw [hfresh]
    cases parent with
    | seed h => cases h <;> rfl
    | object q => rfl
  · refine (parentAttributes_reserved _ _).trans ?_
    rw [hfresh]
    cases parent with
    | seed h => cases h <;> rfl
    | object q => rfl
  · refine Eq.trans ?_ (parentAttributes_hierarchy _ _).symm
    rw [hfresh]
    cases parent with
    | seed h => cases h <;> rfl
    | object q => exact (hparent q rfl).hierarchy

section
variable {σ : Type} {P : Platform σ} {C : SeqCrypto σ} {S : Rsa3072Layout}

/-- An admitted object comes back from either format, and a plain one is not taken for a blob. -/
theorem Object.Admitted.comes_back (hs : HashStateCodec σ) {p : RuntimeProfile} {o : Object}
    (h : o.Admitted p) (level : Nat) :
    ∃ record, storeObject hs S level (.object o) = .ok record ∧
      fetchObject hs S p record = .ok (.object o) ∧
      (marshalAnyObject level o.publicArea = false →
        objectToBuffer S o = .ok record ∧ rsa3072BufferToObject S record = .ok o ∧
          ∀ r, AnyObject.unmarshal hs p r record = .error (.of .badTag)) := by
  cases hany : marshalAnyObject level o.publicArea with
  | true =>
      have hlen := AnyObject.marshal_length_le hs level h.sensitive
      have hread : Reads (AnyObject.unmarshal hs p {}) (AnyObject.marshal hs level (.object o))
          (.object (o.restored level .zero)) :=
        AnyObject.reads_object hs {} ⟨h.storable.occupied, h.storable.not_sequence⟩ h.enabled
      refine ⟨AnyObject.marshal hs level (.object o), ?_, ?_, nofun⟩
      · simp only [storeObject, hany, if_true, if_pos hlen]
      · rw [fetchObject, if_neg (not_lt.mpr hlen), hread.all, h.restored_eq]
        rfl
  | false =>
      obtain ⟨raw, -, hbuf⟩ := objectToBuffer_ok (S := S) o
      have hlen := objectToBuffer_length hbuf
      have hback := rsa3072BufferToObject_objectToBuffer (marshalAnyObject_false hany) hbuf
      rw [h.fromRsa3072_eq] at hback
      have hblob := fun r => unmarshal_objectToBuffer hs p r h.storable hbuf
      refine ⟨_, ?_, ?_, fun _ => ⟨hbuf, hback, hblob⟩⟩
      · simp only [storeObject, hany, Bool.false_eq_true, if_false, hbuf]
      · have hmax : ¬ maxMarshalledObjectSize < (le 4 o.attributes.toWord ++ S.write raw).length := by
          rw [hlen]
          decide
        rw [fetchObject, if_neg hmax, hblob {}]
        simp only [Fault.of, hback]

theorem Slot.Admitted.restored {p : RuntimeProfile} {hs : HashStateCodec σ} {level : Nat} {x : Slot σ}
    {y : AnyObject σ} {rest : Bytes} (hx : x.Admitted p)
    (h : AnyObject.unmarshal hs p {} (AnyObject.marshal hs level x.toAnyObject) = .ok (y, rest)) :
    (Slot.ofAnyObject y).Admitted p := by
  have hattr := AnyObject.unmarshal_marshal_attributes hs h
  have htag := (AnyObject.unmarshal_ok hs h).1
  cases x with
  | vacant => exact hx.elim
  | object o =>
      have hread : Reads (AnyObject.unmarshal hs p {}) (AnyObject.marshal hs level (.object o))
          (.object (o.restored level .zero)) :=
        AnyObject.reads_object hs {} ⟨hx.storable.occupied, hx.storable.not_sequence⟩ hx.enabled
      cases hread.all.symm.trans h
      rw [hx.restored_eq]
      exact hx
  | sequence s hierarchy =>
      cases y with
      | object o =>
          have hseq := htag.2
          rw [show o.attributes = s.attributes from hattr, hx.2] at hseq
          cases hseq
      | sequence t => exact htag
      | vacant a =>
          have hocc : a.occupied = false := htag
          rw [show a = s.attributes from hattr, hx.1] at hocc
          cases hocc

theorem Slot.Admitted.fetched {x y : Slot σ} {record : Bytes} {handle : TpmHandle} {level : Nat}
    {hs : HashStateCodec σ} {p : RuntimeProfile} (hx : x.Admitted p)
    (hstore : storeObject hs S level (x.persistent handle) = .ok record)
    (hfetch : fetchObject hs S p record = .ok y) : y.markEvict.Admitted p := by
  cases x with
  | vacant => cases hstore
  | sequence s h => cases hstore
  | object o =>
      obtain ⟨record', hstore', hfetch', -⟩ :=
        Object.Admitted.comes_back (S := S) hs (hx.evicted handle) level
      cases hstore'.symm.trans hstore
      cases hfetch'.symm.trans hfetch
      exact (hx.evicted handle).marked

theorem Fresh.tagged {s : HashObject σ} (h : Fresh C s) : (AnyObject.sequence s).Tagged := by
  cases h with
  | hash auth alg => exact ⟨rfl, rfl⟩
  | event auth => exact ⟨rfl, rfl⟩
  | hmac auth state => exact ⟨rfl, rfl⟩

/-- The induction over everything that can put something into a slot. -/
theorem Resident.admitted {x : Slot σ} (h : Resident P C S x) : x.Admitted P.profile := by
  induction h with
  | loaded computeQualifiedName level _ ho ih =>
      exact objectSetLoadedAttributes_admitted computeQualifiedName level ih ho
  | sequence hs => exact hs.tagged
  | pqcSequence auth q => exact ⟨rfl, rfl⟩
  | updated _ state ih => exact ih
  | restored _ h ih => exact ih.restored h
  | fetched handle _ hstore hfetch ih => exact ih.fetched hstore hfetch

end

/-! ## The record that `TPM2_EvictControl` writes -/

/-- What the slot machine has in place of `S`: the same octets and the same reader. -/
def Rsa3072Layout.toRawLayout (S : Rsa3072Layout) : RawLayout where
  write o :=
    match objectToRsa3072Object o with
    | .ok r => S.write r
    | .error _ => List.replicate 2596 0
  write_length o := by
    split
    · exact S.write_length _
    · exact List.length_replicate
  read buffer := rsa3072ObjectToObject {} (S.read buffer)

section
variable {σ : Type} {P : Platform σ} {C : SeqCrypto σ} {S : Rsa3072Layout}

theorem storeObject_eq {hs : HashStateCodec σ} {level : Nat} {o : Object} {record : Bytes}
    (h : storeObject hs S level (.object o) = .ok record) :
    nvObjectToBuffer hs S.toRawLayout level o = record := by
  unfold storeObject at h
  unfold nvObjectToBuffer
  cases hany : marshalAnyObject level o.publicArea with
  | true =>
      simp only [hany, if_true] at h ⊢
      split at h
      · exact Except.ok.inj h
      · cases h
  | false =>
      simp only [hany, Bool.false_eq_true, if_false] at h ⊢
      obtain ⟨r, hr, hbuf⟩ := objectToBuffer_ok (S := S) o
      cases hbuf.symm.trans h
      simp only [objectToBufferAsRsa3072, Rsa3072Layout.toRawLayout, hr]

theorem fetchObject_eq {hs : HashStateCodec σ} {p : RuntimeProfile} {record : Bytes} {o : Object}
    (h : fetchObject hs S p record = .ok (.object o)) :
    nvReadObject hs S.toRawLayout p {} record = .ok (.object o) := by
  have hlen : ¬ maxMarshalledObjectSize < record.length := by
    intro hlong
    rw [fetchObject, if_pos hlong] at h
    cases h
  rw [fetchObject, if_neg hlen] at h
  cases hread : AnyObject.unmarshal hs p {} record with
  | ok y =>
      obtain ⟨x, rest⟩ := y
      rw [hread] at h
      cases rest with
      | cons b rest => cases h
      | nil =>
          cases x with
          | object o' =>
              cases h
              simp only [nvReadObject, hread]
          | sequence s => cases h
          | vacant a => cases h
  | error e =>
      rw [hread] at h
      cases e with
      | rc rc =>
          by_cases hsize : record.length = 2600
          · simp only [rsa3072BufferToObject, ne_eq, hsize, not_true, if_false] at h
            cases h
            simp only [nvReadObject, hread, hsize, if_true]
            rfl
          · simp only [rsa3072BufferToObject, ne_eq, hsize, not_false_eq_true, if_true] at h
            cases h
      | _ => cases h

theorem findEvict_nvAdd {s : TpmState σ} {nv : NvState} {handle : TpmHandle} {record : Bytes}
    (hfree : nvFindHandle s.nv handle = none) (h : nvAdd s.nv (.evict handle record) = .ok nv) :
    TpmState.findEvict { s with nv } handle = some record := by
  obtain ⟨-, rfl⟩ := nvAdd_ok h
  have hold : s.findEvict handle = none := by
    unfold TpmState.findEvict
    rw [List.findSome?_eq_none_iff]
    intro e he
    have hne := List.findIdx?_eq_none_iff.mp hfree e he
    cases e with
    | index i data => rfl
    | evict h record => exact if_neg fun heq => beq_eq_false_iff_ne.mp hne heq
  unfold TpmState.findEvict at hold ⊢
  simp only [List.findSome?_append, hold, List.findSome?_cons, if_true, Option.none_or]

variable (P S) in
/-- `TPM2_EvictControl` of slot `i` writes `record`, if there is room, and `record` brings back what was
written. A plain one is whole, and `ANY_OBJECT_Unmarshal` refuses it whatever the slot held before. -/
structure PersistedAs (s : TpmState σ) (i : SlotIndex) (auth persistentHandle : TpmHandle) (record : Bytes) :
    Prop where
  written : evictControl P auth (slotHandle i) persistentHandle s =
    if nvTestSpace s.nv (record.length + 4) false false then
      match nvAdd s.nv (.evict persistentHandle record) with
      | .error e => (.error e, s)
      | .ok nv => (.ok .done, { s with nv })
    else (.error (.of .nvSpace), s)
  stored : storeObject P.hs S P.profile.stateFormatLevel ((s.slots i).persistent persistentHandle) = .ok record
  fetched : fetchObject P.hs S P.profile record = .ok ((s.slots i).persistent persistentHandle)
  loaded : ∀ o nv, s.slots i = .object o → nvAdd s.nv (.evict persistentHandle record) = .ok nv →
    TpmState.nvGetEvictObject P { s with nv } persistentHandle = .ok (o.evicted persistentHandle)
  plain : ∀ o, s.slots i = .object o → marshalAnyObject P.profile.stateFormatLevel o.publicArea = false →
    objectToBuffer S (o.evicted persistentHandle) = .ok record ∧
      rsa3072BufferToObject S record = .ok (o.evicted persistentHandle) ∧
      ∀ r, AnyObject.unmarshal P.hs P.profile r record = .error (.of .badTag)

/-- What `TPM2_EvictControl` finds in order comes back from NV, but for the sequences of the PQC
signature commands: they are not marked temporary. -/
theorem evictControl_comes_back_iff (hP : P.layout = S.toRawLayout) {s : TpmState σ} {i : SlotIndex}
    (hx : Resident P C S (s.slots i)) {auth persistentHandle : TpmHandle}
    (hchecks : evictControlChecks auth persistentHandle (s.slots i) = .ok ())
    (hevict : (s.slots i).attributes.evict = false) (hfree : nvFindHandle s.nv persistentHandle = none) :
    (∃ record, PersistedAs P S s i auth persistentHandle record) ↔
      (s.slots i).attributes.isSequence = false := by
  have hadmitted := hx.admitted
  constructor
  · rintro ⟨record, hrecord⟩
    have hstored := hrecord.stored
    cases hslot : s.slots i with
    | vacant => rfl
    | object o =>
        rw [hslot] at hadmitted
        exact hadmitted.storable.not_sequence
    | sequence q h =>
        rw [hslot] at hstored
        cases hstored
  · intro hseq
    cases hslot : s.slots i with
    | vacant =>
        rw [hslot] at hadmitted
        exact hadmitted.elim
    | sequence q h =>
        rw [hslot] at hadmitted hseq
        exact absurd (hseq.symm.trans hadmitted.2) (by decide)
    | object o =>
        rw [hslot] at hadmitted hchecks hevict
        obtain ⟨record, hstore, hfetch, hplain⟩ :=
          (hadmitted.evicted persistentHandle).comes_back (S := S) P.hs P.profile.stateFormatLevel
        refine ⟨record, ?_, ?_, ?_, ?_, ?_⟩
        · have hi : s.handleToObject (slotHandle i) = .ok (some i) :=
            handleToObject_slotHandle (by rw [hslot]; rfl)
          have hne : ¬ o.attributes.evict = true := by
            rw [show o.attributes.evict = false from hevict]
            decide
          have hrecord : nvObjectToBuffer P.hs P.layout P.profile.stateFormatLevel (o.evicted persistentHandle) =
              record := by
            rw [hP]
            exact storeObject_eq hstore
          simp only [evictControl, hi, hslot, hchecks, evictControlUpdate, Slot.attributes, if_neg hne, hfree,
            nvAddEvictObject, hrecord]
          by_cases hspace : nvTestSpace s.nv (record.length + 4) false false = true
          · cases nvAdd s.nv (.evict persistentHandle record) with
            | error e => simp only [hspace, if_true]
            | ok nv => simp only [hspace, if_true]
          · simp only [hspace, Bool.false_eq_true, if_false]
        · rw [hslot]
          exact hstore
        · rw [hslot]
          exact hfetch
        · intro o' nv ho' hadd
          cases hslot.symm.trans ho'
          have hread : nvReadObject P.hs P.layout P.profile {} record =
              .ok (.object (o.evicted persistentHandle)) := by
            rw [hP]
            exact fetchObject_eq hfetch
          simp only [TpmState.nvGetEvictObject, findEvict_nvAdd hfree hadd, hread]
          rfl
        · intro o' ho' hany
          cases hslot.symm.trans ho'
          exact hplain hany

end

/-! ## A layout, a sealed object and a signature sequence -/

theorem uniqueToRsa3072_of (t : ObjectType) (v : Rsa3072PublicId t) :
    uniqueToRsa3072 t (uniqueOfRsa3072 t v) = .ok v := by
  cases t with
  | keyedhash => exact memoryCopy2b_self _
  | symcipher => exact memoryCopy2b_self _
  | rsa => exact memoryCopy2b_self _
  | ecc =>
      simp only [uniqueToRsa3072, uniqueOfRsa3072, memoryCopy2b_self]
      rfl
  | mldsa | hashMldsa | mlkem => rfl

theorem sensitiveToRsa3072_of (s : Rsa3072Sensitive) : sensitiveToRsa3072 (sensitiveOfRsa3072 s) = .ok s := by
  obtain ⟨t, auth, seed, any, hle, hpub⟩ := s
  cases t with
  | some t => exact dif_pos any.size_le
  | none =>
      obtain ⟨rfl, rfl, rfl⟩ := hpub rfl
      rfl

theorem keySizeCheckEnabled_default (algId keySize curve : Nat) :
    (RuntimeProfile.default 7).keySizeCheckEnabled algId keySize curve = true := by
  have hlevel : ∀ k ∈ RuntimeProfile.keySizes algId, k.2 ≤ 7 := by
    intro k hk
    unfold RuntimeProfile.keySizes at hk
    split_ifs at hk <;> revert hk <;> revert k <;> decide
  cases hfind : (RuntimeProfile.keySizes algId).find? (fun k => k.1 == keySize) with
  | none => simp [RuntimeProfile.keySizeCheckEnabled, RuntimeProfile.checkEnabled, RuntimeProfile.default, hfind]
  | some k =>
      have hk := hlevel k (List.mem_of_find?_eq_some hfind)
      simp [RuntimeProfile.keySizeCheckEnabled, RuntimeProfile.checkEnabled, RuntimeProfile.default, hfind, hk]

theorem checkEnabled_default (algId : Nat) : (RuntimeProfile.default 7).checkEnabled algId = true := rfl

theorem HashAlg.all_enabled_default (h : Option HashAlg) : h.all (HashAlg.enabled (.default 7)) = true := by
  cases h <;> rfl

theorem TpmtSymDefObject.enabled_default (d : TpmtSymDefObject) :
    TpmtSymDefObject.enabled (.default 7) d = true := by
  simp [TpmtSymDefObject.enabled, checkEnabled_default, keySizeCheckEnabled_default]

theorem PublicParms.enabled_default (t : ObjectType) (q : PublicParms t) :
    PublicParms.enabled (.default 7) t q = true := by
  cases t with
  | keyedhash =>
      change TpmtKeyedhashScheme.enabled _ q = true
      cases q <;> rfl
  | symcipher => exact TpmtSymDefObject.enabled_default (some q)
  | rsa =>
      simp [PublicParms.enabled, RsaParms.enabled, TpmtRsaScheme.enabled, TpmtSymDefObject.enabled_default,
        checkEnabled_default, keySizeCheckEnabled_default, HashAlg.all_enabled_default]
  | ecc =>
      have hcurve : (EccParms.curveID q).enabled (.default 7) = true := by
        cases EccParms.curveID q <;> decide
      have hkdf : TpmtKdfScheme.enabled (.default 7) (EccParms.kdf q) = true := by
        cases EccParms.kdf q <;> rfl
      simp [PublicParms.enabled, EccParms.enabled, TpmtEccScheme.enabled, hcurve, hkdf,
        TpmtSymDefObject.enabled_default, checkEnabled_default, HashAlg.all_enabled_default]
  | mldsa => rfl
  | hashMldsa => rfl
  | mlkem => exact TpmtSymDefObject.enabled_default _

/-- The fields one after the other. -/
def fieldsWrite (r : Rsa3072Object) : Bytes :=
  (rsa3072ObjectToObject {} r).publicArea.marshal ++ ((rsa3072ObjectToObject {} r).sensitive.marshal ++
    (r.privateExponent.marshal ++ (r.qualifiedName.marshal ++ (writeUint32 r.evictHandle ++
      (r.name.marshal ++ be 1 r.seedCompatLevel.code)))))

def fieldsRead : Unmarshal Object := do
  let publicArea ← TpmtPublic.unmarshal (.default 7) true
  let sensitive ← TpmtSensitive.unmarshal
  let privateExponent ← PrivateExponent.unmarshal
  let qualifiedName ← Tpm2b.unmarshal 68
  let evictHandle ← readUint32
  let name ← Tpm2b.unmarshal 68
  let seedCompatLevel ← SeedCompatLevel.unmarshal
  pure { attributes := {}, publicArea, sensitive, privateExponent, qualifiedName, evictHandle, name,
         seedCompatLevel, hierarchy := .null }

theorem fields_reads (r : Rsa3072Object) :
    Reads fieldsRead (fieldsWrite r)
      { rsa3072ObjectToObject {} r with privateExponent := r.privateExponent } := by
  have henabled : (rsa3072ObjectToObject {} r).publicArea.enabled (.default 7) = true := by
    simp [TpmtPublic.enabled, PublicParms.enabled_default, HashAlg.all_enabled_default]
  refine (TpmtPublic.reads (Bool.true_or _) henabled).bind ?_
  refine (rsa3072ObjectToObject {} r).sensitive.reads.bind ?_
  refine r.privateExponent.reads.bind ?_
  refine (Tpm2b.reads (by decide) r.qualifiedName).bind ?_
  refine (reads_uint32 r.evictHandle).bind ?_
  refine (Tpm2b.reads (by decide) r.name).bind ?_
  exact r.seedCompatLevel.reads.bind_last (Reads.pure _)

theorem uniqueOfRsa3072_length_le (t : ObjectType) (v : Rsa3072PublicId t) :
    (PublicId.marshal t (uniqueOfRsa3072 t v)).length ≤ 386 := by
  have hle := PublicId.marshal_length_le t (uniqueOfRsa3072 t v)
  cases t with
  | keyedhash | symcipher | rsa | ecc => exact le_trans hle (by decide)
  | mldsa | hashMldsa | mlkem => exact (by decide : 2 ≤ 386)

theorem fieldsWrite_length (r : Rsa3072Object) : (fieldsWrite r).length ≤ 2596 := by
  have hparms := PublicParms.marshal_length_le r.type r.parameters
  have hunique := uniqueOfRsa3072_length_le r.type r.unique
  have hpolicy := Tpm2b.marshal_length_le r.authPolicy
  have hname := Tpm2b.marshal_length_le r.name
  have hqualified := Tpm2b.marshal_length_le r.qualifiedName
  have hexponent := PrivateExponent.marshal_length_le r.privateExponent
  have hsensitive := TpmtSensitive.marshal_length_le (sensitiveOfRsa3072 r.sensitive)
    fun c _ => sensitiveSize_le c.1
  simp only [fieldsWrite, rsa3072ObjectToObject, TpmtPublic.marshal, TpmaObject.marshal, writeUint32,
    List.length_append, be_length]
  omega

theorem objectToRsa3072Object_of (r : Rsa3072Object) :
    objectToRsa3072Object { rsa3072ObjectToObject {} r with privateExponent := r.privateExponent } =
      .ok r := by
  simp only [objectToRsa3072Object, rsa3072ObjectToObject, uniqueToRsa3072_of, sensitiveToRsa3072_of]
  rfl

/-- An `RSA3072_OBJECT` with nothing in it. -/
def emptyRsa3072 : Rsa3072Object where
  type := .keyedhash
  nameAlg := none
  objectAttributes := {}
  authPolicy := .empty
  parameters := TpmtKeyedhashScheme.null
  unique := (Tpm2b.empty : Tpm2b 64)
  sensitive := ⟨none, .empty, .empty, .empty, nofun, fun _ => ⟨rfl, rfl, rfl⟩⟩
  privateExponent := .zero
  qualifiedName := .empty
  evictHandle := 0
  name := .empty
  seedCompatLevel := .original

/-- A layout without the gaps of the compiler's. -/
def packedLayout : Rsa3072Layout where
  write r := fieldsWrite r ++ List.replicate (2596 - (fieldsWrite r).length) 0
  write_length r := by
    have hle := fieldsWrite_length r
    rw [List.length_append, List.length_replicate]
    omega
  read buffer :=
    match fieldsRead buffer with
    | .ok (o, _) =>
        match objectToRsa3072Object o with
        | .ok r => r
        | .error _ => emptyRsa3072
    | .error _ => emptyRsa3072
  read_write r := by
    simp only [fields_reads r (List.replicate (2596 - (fieldsWrite r).length) 0), objectToRsa3072Object_of]

/-- A TPM with the oldest state format. -/
def levelOnePlatform : Platform Unit := ⟨unitHashStates, packedLayout.toRawLayout, .default 1⟩

/-- A sealed object before `ObjectSetLoadedAttributes`. -/
def freshSealedObject : Object := { ownerSealedObject with attributes := { occupied := true } }

theorem freshSealedObject_checked : freshSealedObject.Checked levelOnePlatform.profile := by
  refine ⟨rfl, ?_, fun _ => rfl, false, false, false, rfl⟩
  rintro c hc
  cases hc
  rfl

/-- As a primary object of the owner. -/
def primarySealedObject : Object :=
  objectSetLoadedAttributes (fun _ _ name => name) (.seed .owner) .original freshSealedObject

theorem primarySealedObject_resident :
    Resident levelOnePlatform toyCrypto packedLayout (.object primarySealedObject) := by
  have hparent : ∀ q, ParentRef.seed .owner = .object q →
      Resident levelOnePlatform toyCrypto packedLayout (.object q) := by
    intro q hq
    cases hq
  exact Resident.loaded (fun _ _ name => name) .original hparent freshSealedObject_checked

/-- It is stored as a plain object and comes back. -/
theorem primarySealedObject_comes_back :
    ∃ record, PersistedAs levelOnePlatform packedLayout
      (({} : TpmState Unit).setSlot 0 (.object primarySealedObject)) 0 TpmHandle.rhOwner 0x81000000 record :=
  (evictControl_comes_back_iff rfl (C := toyCrypto) primarySealedObject_resident rfl rfl rfl).mpr rfl

/-- A key is loaded and a signature sequence started on it. -/
def signStarted : TpmState Unit :=
  run (step levelOnePlatform toyCrypto) {}
    [.command ⟨.load (mldsaKey .empty false), []⟩,
     .command ⟨.signSequenceStart .empty .empty, [slotHandle 0]⟩]

/-- `TPM2_EvictControl` finds the sequence in order, and `NvObjectToBuffer` asserts. -/
theorem signSequence_not_stored :
    (∃ q, signStarted.slots 1 = .sequence (pqcObject .empty q) .null) ∧
      Resident levelOnePlatform toyCrypto packedLayout (signStarted.slots 1) ∧
      evictControlChecks TpmHandle.rhOwner 0x81000000 (signStarted.slots 1) = .ok () ∧
      nvFindHandle signStarted.nv 0x81000000 = none ∧
      (¬ ∃ record, PersistedAs levelOnePlatform packedLayout signStarted 1 TpmHandle.rhOwner 0x81000000 record) ∧
      (step levelOnePlatform toyCrypto signStarted
        (.command ⟨.evictControl 0x81000000, [TpmHandle.rhOwner, slotHandle 1]⟩)).inFailureMode = true := by
  have hslot : ∃ q, signStarted.slots 1 = .sequence (pqcObject .empty q) .null := ⟨_, rfl⟩
  refine ⟨hslot, ?_, rfl, rfl, ?_, rfl⟩
  · obtain ⟨q, hq⟩ := hslot
    rw [hq]
    exact .pqcSequence .empty q
  · rintro ⟨record, hrecord⟩
    obtain ⟨q, hq⟩ := hslot
    have hstored := hrecord.stored
    rw [hq] at hstored
    cases hstored

end PqcTpm
