import PqcTpm.NvBlob

/-!
# Objects and sequence objects

`OBJECT`, `HASH_OBJECT` and the blob that carries either of them (`ANY_OBJECT` in
`NVMarshal.c`). The states of hash and HMAC sequences belong to the crypto library;
they enter as a type `σ` with its writer and reader.
-/
namespace PqcTpm
open ByteCodec

/-- `ObjectIsSequence`. -/
def ObjectAttributes.isSequence (a : ObjectAttributes) : Bool :=
  a.hmacSeq || a.hashSeq || a.eventSeq || a.pqcSeq

/-- `ObjectGetHierarchyFromAttributes`. -/
def ObjectAttributes.hierarchy (a : ObjectAttributes) : Hierarchy :=
  if a.spsHierarchy then .owner
  else if a.epsHierarchy then .endorsement
  else if a.ppsHierarchy then .platform
  else .null

/-! ## Sensitive areas -/

/-- The buffer sizes of `TPMU_SENSITIVE_COMPOSITE`. -/
def sensitiveSize : ObjectType → Nat
  | .rsa => 960
  | .ecc => 80
  | .keyedhash => 128
  | .symcipher => 32
  | .mldsa | .hashMldsa => 32
  | .mlkem => 64

/-- `TPMT_SENSITIVE`. Without a sensitive part (`sensitiveType = TPM_ALG_ERROR`) the other
fields are empty. -/
structure TpmtSensitive where
  authValue : Tpm2bAuth
  seedValue : Tpm2bDigest
  sensitive : Option ((t : ObjectType) × Tpm2b (sensitiveSize t))
  public_only : sensitive = none → authValue = .empty ∧ seedValue = .empty

namespace TpmtSensitive

def sensitiveType (s : TpmtSensitive) : Nat :=
  match s.sensitive with
  | none => TpmAlg.error
  | some c => publicSelector.algId c.1

/-- `NV_TPMT_SENSITIVE_Marshal`. -/
def marshal (s : TpmtSensitive) : Bytes :=
  be 2 s.sensitiveType ++ (s.authValue.marshal ++ (s.seedValue.marshal ++
    s.sensitive.elim [] fun c => c.2.marshal))

/-- `NV_TPMT_SENSITIVE_Unmarshal`; its `default` branch asserts. -/
def unmarshal : Unmarshal TpmtSensitive := do
  let type ← readUint16
  let authValue ← Tpm2b.unmarshal 64
  let seedValue ← Tpm2b.unmarshal 64
  match publicSelector.all.find? (fun t => publicSelector.algId t == type) with
  | some t => do
      let c ← Tpm2b.unmarshal (sensitiveSize t)
      pure ⟨authValue, seedValue, some ⟨t, c⟩, nofun⟩
  | none =>
      if h : authValue = .empty ∧ seedValue = .empty ∧ type = TpmAlg.error then
        pure ⟨authValue, seedValue, none, fun _ => ⟨h.1, h.2.1⟩⟩
      else Reader.fail .failureMode

theorem reads (s : TpmtSensitive) : Reads unmarshal s.marshal s := by
  obtain ⟨auth, seed, c, hpub⟩ := s
  have hauth := Tpm2b.reads (by decide) auth
  have hseed := Tpm2b.reads (by decide) seed
  cases c with
  | none =>
      refine (reads_uint16 (n := TpmAlg.error) (by decide)).bind ?_
      refine hauth.bind ?_
      refine hseed.bind ?_
      have hnone : publicSelector.all.find? (fun t => publicSelector.algId t == TpmAlg.error) = none := by
        decide
      simp only [hnone]
      rw [dif_pos ⟨(hpub rfl).1, (hpub rfl).2, trivial⟩]
      exact Reads.pure _
  | some c =>
      refine (reads_uint16 (publicSelector.lt c.1)).bind ?_
      refine hauth.bind ?_
      refine hseed.bind ?_
      have hsome : publicSelector.all.find? (fun t => publicSelector.algId t == publicSelector.algId c.1) =
          some c.1 := by
        cases c.1 <;> decide
      simp only [hsome]
      have hsize : sensitiveSize c.1 < 256 ^ 2 := by cases c.1 <;> decide
      exact (Tpm2b.reads hsize c.2).bind_last (Reads.pure _)

end TpmtSensitive

/-- `SEED_COMPAT_LEVEL`. -/
inductive SeedCompatLevel
  | original | rsaPrimeAdjustFix
  deriving DecidableEq, Repr

namespace SeedCompatLevel

def code : SeedCompatLevel → Nat
  | .original => 0
  | .rsaPrimeAdjustFix => 1

def unmarshal : Unmarshal SeedCompatLevel :=
  Reader.enum 1 code [.original, .rsaPrimeAdjustFix] (.of .insufficient) (.of .badVersion)

theorem reads (l : SeedCompatLevel) : Reads unmarshal (be 1 l.code) l := by
  have hinj : ∀ b ∈ [original, rsaPrimeAdjustFix], b.code = l.code → b = l := by
    cases l <;> decide
  exact Reads.enum _ _ (by cases l <;> decide) (by cases l <;> decide) hinj

end SeedCompatLevel

namespace Hierarchy

/-- `TPMI_RH_HIERARCHY_Unmarshal` with `allowNull`. -/
def unmarshal : Unmarshal Hierarchy :=
  Reader.enum 4 (fun h => h.handle.toNat) all (.of .insufficient) (.of .value)

theorem reads (h : Hierarchy) : Reads unmarshal (writeUint32 h.handle) h := by
  have hinj : ∀ b ∈ all, b.handle.toNat = h.handle.toNat → b = h := by
    cases h <;> decide
  exact Reads.enum _ _ (by cases h <;> decide) (UInt32.toNat_lt h.handle) hinj

end Hierarchy

/-! ## Objects -/

/-- `OBJECT`. -/
structure Object where
  attributes : ObjectAttributes
  publicArea : TpmtPublic
  sensitive : TpmtSensitive
  privateExponent : PrivateExponent
  qualifiedName : Tpm2bName
  evictHandle : TpmHandle
  name : Tpm2bName
  seedCompatLevel : SeedCompatLevel
  hierarchy : Hierarchy

namespace Object

/-- The `switch` on `stateFormatLevel` in `OBJECT_Marshal`; its `case 0` asserts. -/
def blobVersion (level : Nat) : Nat := if level ≤ 5 then 3 else 4

/-- Since version 4 the private exponent is there for RSA keys only. -/
def hasPrivateExponent (version : Nat) (s : TpmtSensitive) : Bool :=
  !(decide (4 ≤ version) && decide (s.sensitiveType ≠ TpmAlg.rsa))

/-- `OBJECT_Marshal`; the attributes are written by its caller. -/
def marshal (level : Nat) (o : Object) : Bytes :=
  let version := blobVersion level
  let has := hasPrivateExponent version o.sensitive
  nvHeaderMarshal version 0x75be73af version ++ (o.publicArea.marshal ++ (o.sensitive.marshal ++
    (blockSkipMarshal has (if has then o.privateExponent.marshal else []) ++
    (o.qualifiedName.marshal ++ (writeUint32 o.evictHandle ++ (o.name.marshal ++
    blockSkipMarshal true (be 1 o.seedCompatLevel.code ++
      blockSkipMarshal true (if 4 ≤ version then writeUint32 o.hierarchy.handle else []))))))))

/-- The fields behind `name`, which versions 3 and 4 added in nested blocks. -/
def unmarshalTail (version : Nat) (a : ObjectAttributes) : Unmarshal (SeedCompatLevel × Hierarchy) :=
  if 2 ≤ version then do
    let skip ← blockSkipRead (decide (3 ≤ version))
    if skip then pure (.original, a.hierarchy)
    else do
      let seedCompatLevel ← SeedCompatLevel.unmarshal
      let skip ← blockSkipRead (decide (4 ≤ version))
      if skip then pure (seedCompatLevel, a.hierarchy)
      else do
        let hierarchy ← Hierarchy.unmarshal
        pure (seedCompatLevel, hierarchy)
  else pure (.original, a.hierarchy)

/-- `OBJECT_Unmarshal` into a slot that holds `e₀` as private exponent. -/
def unmarshal (p : RuntimeProfile) (e₀ : PrivateExponent) (a : ObjectAttributes) : Unmarshal Object := do
  let version ← nvHeaderUnmarshal 4 0x75be73af
  let publicArea ← TpmtPublic.unmarshal p true
  let sensitive ← TpmtSensitive.unmarshal
  let skip ← blockSkipRead (hasPrivateExponent version sensitive)
  let privateExponent ← if skip then pure e₀ else PrivateExponent.unmarshal
  let qualifiedName ← Tpm2b.unmarshal 68
  let evictHandle ← readUint32
  let name ← Tpm2b.unmarshal 68
  let tail ← unmarshalTail version a
  pure { attributes := a, publicArea, sensitive, privateExponent, qualifiedName, evictHandle, name,
         seedCompatLevel := tail.1, hierarchy := tail.2 }

/-- What comes back from a blob of this level: before version 4 the hierarchy is taken from the
attributes, and since version 4 only RSA keys bring their private exponent. -/
def restored (level : Nat) (e₀ : PrivateExponent) (o : Object) : Object :=
  { o with
    privateExponent :=
      if hasPrivateExponent (blobVersion level) o.sensitive then o.privateExponent else e₀
    hierarchy := if 4 ≤ blobVersion level then o.hierarchy else o.attributes.hierarchy }

theorem blobVersion_cases (level : Nat) : blobVersion level = 3 ∨ blobVersion level = 4 := by
  unfold blobVersion
  split
  · exact Or.inl rfl
  · exact Or.inr rfl

theorem reads_tail (level : Nat) (o : Object) :
    Reads (unmarshalTail (blobVersion level) o.attributes)
      (blockSkipMarshal true (be 1 o.seedCompatLevel.code ++
        blockSkipMarshal true (if 4 ≤ blobVersion level then writeUint32 o.hierarchy.handle else [])))
      (o.seedCompatLevel, if 4 ≤ blobVersion level then o.hierarchy else o.attributes.hierarchy) := by
  rcases blobVersion_cases level with hv | hv
  · rw [hv]
    refine reads_blockEnter_last (by simp [blockSkipMarshal]) ?_
    refine o.seedCompatLevel.reads.bind ?_
    exact (reads_blockSkip (by simp) (by simp)).bind_last (Reads.pure _)
  · rw [hv]
    refine reads_blockEnter_last (by simp [blockSkipMarshal, writeUint32]) ?_
    refine o.seedCompatLevel.reads.bind ?_
    refine reads_blockEnter_last (by simp [writeUint32]) ?_
    exact o.hierarchy.reads.bind_last (Reads.pure _)

theorem unmarshal_attributes {p : RuntimeProfile} {e₀ : PrivateExponent} {a : ObjectAttributes}
    {bs rest : Bytes} {o : Object} (h : unmarshal p e₀ a bs = .ok (o, rest)) : o.attributes = a := by
  unfold unmarshal at h
  obtain ⟨_, _, -, h⟩ := Reader.bind_eq_ok h
  obtain ⟨_, _, -, h⟩ := Reader.bind_eq_ok h
  obtain ⟨_, _, -, h⟩ := Reader.bind_eq_ok h
  obtain ⟨_, _, -, h⟩ := Reader.bind_eq_ok h
  -- both ways to a private exponent go on in the same way
  dsimp only at h
  split at h <;>
  · obtain ⟨_, _, -, h⟩ := Reader.bind_eq_ok h
    obtain ⟨_, _, -, h⟩ := Reader.bind_eq_ok h
    obtain ⟨_, _, -, h⟩ := Reader.bind_eq_ok h
    obtain ⟨_, _, -, h⟩ := Reader.bind_eq_ok h
    obtain ⟨_, _, -, h⟩ := Reader.bind_eq_ok h
    cases h
    rfl

theorem reads {p : RuntimeProfile} {level : Nat} (e₀ : PrivateExponent) {o : Object}
    (he : o.publicArea.enabled p = true) :
    Reads (unmarshal p e₀ o.attributes) (o.marshal level) (o.restored level e₀) := by
  have hv : blobVersion level ≤ 4 := by
    rcases blobVersion_cases level with h | h <;> omega
  have hlen := o.privateExponent.marshal_length
  refine (reads_nvHeader (by omega) (by decide) hv (by decide)).bind ?_
  refine (TpmtPublic.reads (Bool.true_or _) he).bind ?_
  refine o.sensitive.reads.bind ?_
  have hrest : ∀ e, Reads (do
      let qualifiedName ← Tpm2b.unmarshal 68
      let evictHandle ← readUint32
      let name ← Tpm2b.unmarshal 68
      let tail ← unmarshalTail (blobVersion level) o.attributes
      pure { attributes := o.attributes, publicArea := o.publicArea, sensitive := o.sensitive,
             privateExponent := e, qualifiedName, evictHandle, name, seedCompatLevel := tail.1,
             hierarchy := tail.2 })
      (o.qualifiedName.marshal ++ (writeUint32 o.evictHandle ++ (o.name.marshal ++
        blockSkipMarshal true (be 1 o.seedCompatLevel.code ++
          blockSkipMarshal true (if 4 ≤ blobVersion level then writeUint32 o.hierarchy.handle else [])))))
      { o with
        privateExponent := e
        hierarchy := if 4 ≤ blobVersion level then o.hierarchy else o.attributes.hierarchy } := by
    intro e
    refine (Tpm2b.reads (by decide) o.qualifiedName).bind ?_
    refine (reads_uint32 o.evictHandle).bind ?_
    refine (Tpm2b.reads (by decide) o.name).bind ?_
    exact (reads_tail level o).bind_last (Reads.pure _)
  cases hhas : hasPrivateExponent (blobVersion level) o.sensitive with
  | false =>
      simp only [restored, hhas, Bool.false_eq_true, if_false]
      exact (reads_blockSkip (by decide) (fun _ => rfl)).bind (hrest e₀)
  | true =>
      simp only [restored, hhas, if_true]
      exact reads_blockEnter hlen (o.privateExponent.reads.bind (hrest _))

end Object

end PqcTpm
