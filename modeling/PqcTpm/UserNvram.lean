import Mathlib.Algebra.Order.BigOperators.Group.List
import Mathlib.Algebra.Order.Group.Nat
import PqcTpm.OrderlyRam
import PqcTpm.StoredObjects

/-!
# The user NV area in a saved state

`USER_NVRAM_Marshal` and `USER_NVRAM_Unmarshal` of `NVMarshal.c`. The area is saved entry by entry; the reader
makes the entries again, and before it takes a persistent object it looks for room for an `OBJECT`, whatever the
object takes up when it is written.
-/
namespace PqcTpm
open ByteCodec Transition

/-- `NV_USER_DYNAMIC_END - NV_USER_DYNAMIC`. -/
def nvUserSize : Nat := 171200

/-- `sizeof(OBJECT)`. -/
def objectSize : Nat := 4816

/-! ## Indices on the wire -/

namespace NvPublic

/-- `TPMS_NV_PUBLIC_Marshal`. -/
def marshal (a : NvPublic) : Bytes :=
  writeUint32 a.nvIndex ++ (a.nameAlg.marshal ++ (writeUint32 a.attributes ++
    (a.authPolicy.marshal ++ be 2 a.dataSize)))

/-- `TPMS_NV_PUBLIC_Unmarshal`, with `TPMI_RH_NV_INDEX_Unmarshal` for legacy indices only. -/
def unmarshal (p : RuntimeProfile) : Unmarshal NvPublic := do
  let nvIndex ← readUint32
  Reader.check (TpmHandle.getType nvIndex == TpmHandle.htNvIndex) (.of .value)
  let nameAlg ← HashAlg.unmarshal p
  let attributes ← readUint32
  Reader.check (validTpmaNv attributes) (.of .reservedBits)
  let authPolicy ← Tpm2b.unmarshal 64
  let dataSize ← readUint16
  Reader.check (decide (dataSize ≤ 8192)) (.of .size)
  pure { nvIndex, nameAlg, attributes, authPolicy, dataSize }

/-- What the reader accepts. -/
structure Readable (p : RuntimeProfile) (a : NvPublic) : Prop where
  nvIndex : TpmHandle.getType a.nvIndex = TpmHandle.htNvIndex
  nameAlg : a.nameAlg.enabled p = true
  attributes : validTpmaNv a.attributes = true
  dataSize : a.dataSize ≤ 8192

theorem reads {p : RuntimeProfile} {a : NvPublic} (h : a.Readable p) : Reads (unmarshal p) a.marshal a := by
  refine (reads_uint32 a.nvIndex).bind ?_
  refine (Reads.check (beq_iff_eq.mpr h.nvIndex)).bind_nil ?_
  refine (HashAlg.reads h.nameAlg).bind ?_
  refine (reads_uint32 a.attributes).bind ?_
  refine (Reads.check h.attributes).bind_nil ?_
  refine (Tpm2b.reads (by decide) a.authPolicy).bind ?_
  refine (reads_uint16 (Nat.lt_of_le_of_lt h.dataSize (by decide))).bind_last ?_
  exact (Reads.check (decide_eq_true h.dataSize)).bind_nil (Reads.pure a)

end NvPublic

namespace NvIndex

/-- `NV_INDEX_Marshal`. -/
def marshal (i : NvIndex) : Bytes :=
  nvHeaderMarshal 2 0x2547265A 1 ++ (i.publicArea.marshal ++ (i.authValue.marshal ++ futureVersionsMarshal))

/-- `NV_INDEX_Unmarshal`. -/
def unmarshal (p : RuntimeProfile) : Unmarshal NvIndex := do
  let version ← nvHeaderUnmarshal 2 0x2547265A
  let publicArea ← NvPublic.unmarshal p
  let authValue ← Tpm2b.unmarshal 64
  futureVersionsRead version
  pure { publicArea, authValue }

theorem reads {p : RuntimeProfile} {i : NvIndex} (h : i.publicArea.Readable p) : Reads (unmarshal p) i.marshal i := by
  refine (reads_nvHeader (by decide) (by decide) (by decide) (by decide)).bind ?_
  refine (NvPublic.reads h).bind ?_
  refine (Tpm2b.reads (by decide) i.authValue).bind ?_
  exact (reads_futureVersions (by decide)).bind_last (Reads.pure i)

end NvIndex

theorem NvEntry.entrySize_ge (e : NvEntry) : 8 ≤ e.entrySize := by
  cases e <;> simp only [NvEntry.entrySize] <;> omega

/-! ## The writer -/

section
variable {σ : Type} (P : Platform σ) (S : Rsa3072Layout)

/-- One round of the loop of `USER_NVRAM_Marshal`; an object is read from the area first. -/
def userNvramEntryMarshal : NvEntry → Except Fault Bytes
  | .index i data =>
      .ok (be 4 (NvEntry.index i data).entrySize ++ (writeUint32 i.publicArea.nvIndex ++
        (i.marshal ++ (be 4 data.length ++ data))))
  | .evict handle record => do
      let obj ← fetchObject P.hs S P.profile record
      pure (be 4 (NvEntry.evict handle record).entrySize ++ (writeUint32 handle ++
        AnyObject.marshal P.hs P.profile.stateFormatLevel obj.toAnyObject))

/-- `USER_NVRAM_Marshal` on the entries and the counter in the terminator. `NvRead` asserts that what it reads
ends before the last octet of the memory. -/
def userNvramMarshal (entries : List NvEntry) (maxCount : UInt64) : Except Fault Bytes := do
  let blobs ← entries.mapM (userNvramEntryMarshal P S)
  if nvUserSize ≤ (entries.map NvEntry.entrySize).sum + 4 + 8 then .error .failureMode
  else pure (nvHeaderMarshal 2 0x094F22C3 1 ++ (be 8 nvUserSize ++ (blobs.flatten ++ (be 4 0 ++
    (be 8 maxCount.toNat ++ futureVersionsMarshal)))))

/-! ## The reader -/

/-- An entry in the area, with the link before it. -/
structure LinkedEntry where
  link : Nat
  entry : NvEntry
  deriving DecidableEq

/-- One round of the loop of `USER_NVRAM_Unmarshal` behind the size of the entry, at offset `o` of the area. -/
def userNvramEntryUnmarshal (o entrysize : Nat) : Unmarshal LinkedEntry := do
  let handle ← readUint32
  if TpmHandle.getType handle = TpmHandle.htNvIndex then do
    Reader.check (decide (o + 4 + 148 ≤ nvUserSize)) (.of .size)
    let nvi ← NvIndex.unmarshal P.profile
    let datasize ← Reader.word 4 (.of .insufficient)
    Reader.check (decide (datasize ≤ 0x10100)) (.of .size)
    Reader.check (decide (o + 4 + 148 + datasize ≤ nvUserSize)) (.of .size)
    let data ← Reader.take datasize (.of .insufficient)
    -- the link is put right where there are data
    pure ⟨if datasize = 0 then entrysize else 4 + 148 + datasize, .index nvi data⟩
  else if TpmHandle.getType handle = TpmHandle.htPersistent then do
    Reader.check (decide (o + 4 + 4 + objectSize ≤ nvUserSize)) (.of .size)
    let obj ← fun bs =>
      match AnyObject.unmarshal P.hs P.profile {} bs with
      | .ok x => .ok x
      | .error _ => .error .failureMode
    match storeObject P.hs S P.profile.stateFormatLevel (Slot.ofAnyObject obj) with
    | .ok record => pure ⟨4 + 4 + record.length, .evict handle record⟩
    | .error e => Reader.fail e
  else Reader.fail (.of .handle)

/-- The loop of `USER_NVRAM_Unmarshal`: the entries, and the offset where the list ends. -/
def userNvramEntriesUnmarshal : Nat → Nat → Unmarshal (List LinkedEntry × Nat)
  | 0, _ => Reader.fail (.of .size)
  | rounds + 1, o => do
      Reader.check (decide (o + 4 ≤ nvUserSize)) (.of .size)
      let entrysize ← Reader.word 4 (.of .insufficient)
      if entrysize = 0 then pure ([], o)
      else do
        let x ← userNvramEntryUnmarshal P S o entrysize
        let (xs, last) ← userNvramEntriesUnmarshal rounds (o + x.entry.entrySize)
        pure (x :: xs, last)

/-- `USER_NVRAM_Unmarshal`; no more rounds can be made than there are four octets in the area. -/
def userNvramUnmarshal : Unmarshal (List LinkedEntry × UInt64) := do
  let version ← nvHeaderUnmarshal 2 0x094F22C3
  let _ ← Reader.word 8 (.of .insufficient)
  let (entries, last) ← userNvramEntriesUnmarshal P S (nvUserSize / 4) 0
  Reader.check (decide (last + 4 + 8 ≤ nvUserSize)) (.of .size)
  let maxCount ← Reader.word 8 (.of .insufficient)
  futureVersionsRead version
  pure (entries, UInt64.ofNat maxCount)

/-! ## What there are rounds for -/

/-- Every entry takes up eight octets at least, so rounds beyond the area are never made. -/
theorem userNvramEntriesUnmarshal_rounds {m n o : Nat} (hm : nvUserSize < o + 4 + 8 * m)
    (hn : nvUserSize < o + 4 + 8 * n) :
    userNvramEntriesUnmarshal P S m o = userNvramEntriesUnmarshal P S n o := by
  induction m generalizing n o with
  | zero =>
      cases n with
      | zero => rfl
      | succ n =>
          have hfull : ¬ o + 4 ≤ nvUserSize := by omega
          funext bs
          simp only [userNvramEntriesUnmarshal, decide_eq_false hfull, Reader.check, Bool.false_eq_true, if_false,
            Reader.fail_apply]
          rfl
  | succ m ih =>
      cases n with
      | zero =>
          have hfull : ¬ o + 4 ≤ nvUserSize := by omega
          funext bs
          simp only [userNvramEntriesUnmarshal, decide_eq_false hfull, Reader.check, Bool.false_eq_true, if_false,
            Reader.fail_apply]
          rfl
      | succ n =>
          have hlater : ∀ x : LinkedEntry, userNvramEntriesUnmarshal P S m (o + x.entry.entrySize) =
              userNvramEntriesUnmarshal P S n (o + x.entry.entrySize) := by
            intro x
            have hsize := x.entry.entrySize_ge
            exact ih (by omega) (by omega)
          simp only [userNvramEntriesUnmarshal, hlater]

end

/-! ## Lists that the TPM makes -/

section
variable {σ : Type} (P : Platform σ) (C : SeqCrypto σ) (S : Rsa3072Layout)

/-- What `NVDynamic.c` does to the list. The public area of an index has been read from a command, and what
is made persistent has been in a slot. -/
inductive UserStep : NvState → NvState → Prop
  | defineIndex {s s' : NvState} {i : NvIndex} {data : Bytes} (hi : i.publicArea.Readable P.profile)
      (h : nvDefineIndex s i data = .ok s') : UserStep s s'
  | addEvict {s s' : NvState} {o : Object} {handle : TpmHandle} (ho : Resident P C S (.object o))
      (htype : handle.getType = TpmHandle.htPersistent)
      (h : nvAddEvictObject P.hs S.toRawLayout P.profile.stateFormatLevel s handle o = .ok s') : UserStep s s'
  | deleteIndex {s s' : NvState} {k : Nat} {i : NvIndex} {data : Bytes} (hk : s.user[k]? = some (.index i data))
      (h : nvDeleteIndex s k i data = .ok s') : UserStep s s'
  | delete {s s' : NvState} {k : Nat} (h : nvDelete s k = .ok s') : UserStep s s'
  | flush {s s' : NvState} {hierarchy : Hierarchy} (h : nvFlushHierarchy hierarchy s = .ok s') : UserStep s s'
  /-- `NvWriteIndexAttributes`, `NvWriteIndexAuth` and `NvWriteIndexData`. -/
  | writeIndex {s : NvState} {k : Nat} {i i' : NvIndex} {data data' : Bytes}
      (hk : s.user[k]? = some (.index i data)) (hi : i'.publicArea.Readable P.profile)
      (hlen : data'.length = data.length) : UserStep s { s with user := s.user.set k (.index i' data') }
  | elsewhere {s s' : NvState} (h : s'.user = s.user) : UserStep s s'

/-- What a TPM without entries gets to. -/
def UserReachable : NvState → Prop := Transition.Reachable (fun s => s.user = []) (UserStep P C S)

/-- What the reader needs of an entry, room apart. -/
def NvEntry.Sound : NvEntry → Prop
  | .index i data => i.publicArea.Readable P.profile ∧ data.length ≤ 8192
  | .evict handle record => handle.getType = TpmHandle.htPersistent ∧
      ∃ o, Object.Admitted P.profile o ∧ storeObject P.hs S P.profile.stateFormatLevel (.object o) = .ok record

/-- The entries are in order, and the list ends inside the area. -/
structure UserList (s : NvState) : Prop where
  room : (s.user.map NvEntry.entrySize).sum + 12 ≤ nvUserSize
  sound : ∀ e ∈ s.user, e.Sound P S

end

section
variable {σ : Type} {P : Platform σ} {C : SeqCrypto σ} {S : Rsa3072Layout}

theorem nvTestSpace_room {s : NvState} {size : Nat} {isIndex isCounter : Bool}
    (h : nvTestSpace s size isIndex isCounter = true) :
    (s.user.map NvEntry.entrySize).sum + (4 + size) + 12 ≤ nvUserSize := by
  have hle := of_decide_eq_true h
  unfold NvState.freeBytes at hle
  unfold nvUserSize
  omega

namespace UserList
variable {s s' : NvState}

theorem sublist (h : UserList P S s) (hsub : s'.user.Sublist s.user) : UserList P S s' where
  room := by
    have hsum := List.Sublist.sum_le_sum (hsub.map NvEntry.entrySize) fun n _ => Nat.zero_le n
    have hroom := h.room
    omega
  sound e he := h.sound e (hsub.subset he)

theorem append (h : UserList P S s) {e : NvEntry}
    (hroom : (s.user.map NvEntry.entrySize).sum + e.entrySize + 12 ≤ nvUserSize) (he : e.Sound P S) (huser : s'.user = s.user ++ [e]) : UserList P S s' where
  room := by
    rw [huser, List.map_append, List.sum_append, List.map_singleton, List.sum_singleton]
    exact hroom
  sound e' he' := by
    rw [huser] at he'
    rcases List.mem_append.mp he' with hold | hnew
    · exact h.sound e' hold
    · rw [List.mem_singleton.mp hnew]
      exact he

theorem addEvict {o : Object} {handle : TpmHandle} (h : UserList P S s) (ho : Resident P C S (.object o))
    (htype : handle.getType = TpmHandle.htPersistent)
    (hadd : nvAddEvictObject P.hs S.toRawLayout P.profile.stateFormatLevel s handle o = .ok s') : UserList P S s' := by
  have hadmitted : Object.Admitted P.profile (o.evicted handle) := ho.admitted.evicted handle
  obtain ⟨record, hstore, -⟩ := hadmitted.comes_back (S := S) P.hs P.profile.stateFormatLevel
  simp only [nvAddEvictObject, storeObject_eq hstore] at hadd
  split at hadd
  · rename_i hspace
    obtain ⟨-, rfl⟩ := nvAdd_ok hadd
    have hroom := nvTestSpace_room hspace
    refine h.append (e := .evict handle record) ?_ ⟨htype, o.evicted handle, hadmitted, hstore⟩ rfl
    simp only [NvEntry.entrySize]
    omega
  · cases hadd

theorem defineIndex {i : NvIndex} {data : Bytes} (h : UserList P S s) (hi : i.publicArea.Readable P.profile)
    (hadd : nvDefineIndex s i data = .ok s') : UserList P S s' := by
  have hspace : nvTestSpace s (148 + i.nvDataSize) true i.isCounter = true := by
    by_contra hno
    have hdenied := Bool.eq_false_iff.mpr hno
    simp only [nvDefineIndex, hdenied, Bool.not_false, if_true] at hadd
    cases hadd
  have hroom := nvTestSpace_room hspace
  have hdata : i.nvDataSize ≤ 8192 := by
    have hsize := hi.dataSize
    unfold NvIndex.nvDataSize
    split <;> omega
  have hlen : (data.take i.nvDataSize).length ≤ i.nvDataSize := List.length_take_le _ _
  obtain rfl := nvDefineIndex_ok hadd
  refine h.append (e := .index i (data.take i.nvDataSize)) ?_ ⟨hi, Nat.le_trans hlen hdata⟩ rfl
  simp only [NvEntry.entrySize]
  omega

theorem writeIndex {k : Nat} {i i' : NvIndex} {data data' : Bytes} (h : UserList P S s)
    (hk : s.user[k]? = some (.index i data)) (hi : i'.publicArea.Readable P.profile)
    (hlen : data'.length = data.length) : UserList P S { s with user := s.user.set k (.index i' data') } where
  room := by
    have hsize : (s.user.set k (.index i' data')).map NvEntry.entrySize = s.user.map NvEntry.entrySize := by
      have hsame : (NvEntry.index i' data').entrySize = (NvEntry.index i data).entrySize := by
        simp only [NvEntry.entrySize, hlen]
      rw [List.map_set, hsame]
      apply List.ext_getElem?
      intro j
      rw [List.getElem?_set]
      split
      · rename_i hkj
        subst hkj
        obtain ⟨hlt, hget⟩ := List.getElem?_eq_some_iff.mp hk
        simp only [List.length_map, hlt, if_true, List.getElem?_map, hk, Option.map_some]
      · rfl
    rw [hsize]
    exact h.room
  sound e he := by
    rcases List.mem_or_eq_of_mem_set he with hold | rfl
    · exact h.sound e hold
    · have hdata := (h.sound _ (List.mem_of_getElem? hk)).2
      exact ⟨hi, by omega⟩

theorem step (h : UserList P S s) (hs : UserStep P C S s s') : UserList P S s' := by
  cases hs with
  | defineIndex hi hadd => exact h.defineIndex hi hadd
  | addEvict ho htype hadd => exact h.addEvict ho htype hadd
  | deleteIndex hk hdel =>
      obtain ⟨-, -, huser, -⟩ := nvDeleteIndex_ok hdel
      refine h.sublist ?_
      rw [huser]
      exact List.eraseIdx_sublist _ _
  | delete hdel =>
      obtain ⟨-, rfl⟩ := nvDelete_ok hdel
      exact h.sublist (List.eraseIdx_sublist _ _)
  | flush hflush =>
      refine h.sublist ?_
      rw [nvFlushHierarchy_user hflush]
      exact List.filter_sublist
  | writeIndex hk hi hlen => exact h.writeIndex hk hi hlen
  | elsewhere heq =>
      refine h.sublist ?_
      rw [heq]

theorem of_reachable (h : UserReachable P C S s) : UserList P S s := by
  refine Transition.Reachable.invariant (I := UserList P S) ?_ (fun _ _ hs hstep => hs.step hstep) h
  intro s hempty
  refine ⟨?_, ?_⟩
  · rw [hempty]
    decide
  · rw [hempty]
    intro e he
    cases he

end UserList

/-! ## One entry -/

/-- Where an object begins there is still room for an `OBJECT`. -/
def NvEntry.HasRoom (o : Nat) (e : NvEntry) : Prop := e.isEvict = true → o + 8 + objectSize ≤ nvUserSize

theorem userNvramEntryMarshal_index {i : NvIndex} {data : Bytes} (h : (NvEntry.index i data).Sound P S) {o : Nat}
    (hroom : o + (NvEntry.index i data).entrySize ≤ nvUserSize) :
    ∃ blob, userNvramEntryMarshal P S (.index i data) = .ok (be 4 (NvEntry.index i data).entrySize ++ blob) ∧
      Reads (userNvramEntryUnmarshal P S o (NvEntry.index i data).entrySize) blob
        ⟨(NvEntry.index i data).entrySize, .index i data⟩ := by
  refine ⟨_, rfl, ?_⟩
  have hdata : data.length ≤ 8192 := h.2
  have hall : o + 4 + 148 + data.length ≤ nvUserSize := by
    simp only [NvEntry.entrySize] at hroom
    omega
  have hlink : (if data.length = 0 then 4 + 148 + data.length else 4 + 148 + data.length) = 4 + 148 + data.length :=
    ite_self _
  refine (reads_uint32 i.publicArea.nvIndex).bind ?_
  rw [if_pos h.1.nvIndex]
  refine (Reads.check (decide_eq_true (by omega))).bind_nil ?_
  refine (NvIndex.reads h.1).bind ?_
  refine (Reads.word _ (Nat.lt_of_le_of_lt hdata (by decide))).bind ?_
  refine (Reads.check (decide_eq_true (by omega))).bind_nil ?_
  refine (Reads.check (decide_eq_true hall)).bind_nil ?_
  refine (Reads.take data _).bind_last ?_
  simp only [NvEntry.entrySize, hlink]
  exact Reads.pure _

/-- The object is made from its record, written as `ANY_OBJECT`, read again, and gives the same record. -/
theorem userNvramEntryMarshal_evict {handle : TpmHandle} {record : Bytes}
    (h : (NvEntry.evict handle record).Sound P S) (o : Nat) :
    ∃ blob, userNvramEntryMarshal P S (.evict handle record) =
        .ok (be 4 (NvEntry.evict handle record).entrySize ++ blob) ∧
      ((NvEntry.evict handle record).HasRoom o →
        Reads (userNvramEntryUnmarshal P S o (NvEntry.evict handle record).entrySize) blob
          ⟨(NvEntry.evict handle record).entrySize, .evict handle record⟩) ∧
      (¬ (NvEntry.evict handle record).HasRoom o → ∀ n rest,
        userNvramEntryUnmarshal P S o n (blob ++ rest) = .error (.of .size)) := by
  obtain ⟨htype, obj, hobj, hstore⟩ := h
  obtain ⟨record', hstore', hfetch, -⟩ := hobj.comes_back (S := S) P.hs P.profile.stateFormatLevel
  cases hstore.symm.trans hstore'
  have hnot : ¬ handle.getType = TpmHandle.htNvIndex := by
    rw [htype]
    decide
  refine ⟨writeUint32 handle ++ AnyObject.marshal P.hs P.profile.stateFormatLevel (.object obj), ?_, ?_, ?_⟩
  · simp only [userNvramEntryMarshal, hfetch]
    rfl
  · intro hroom
    refine (reads_uint32 handle).bind ?_
    rw [if_neg hnot, if_pos htype]
    have hfits : o + 4 + 4 + objectSize ≤ nvUserSize := by
      have hspace := hroom rfl
      omega
    refine (Reads.check (decide_eq_true hfits)).bind_nil ?_
    have hread : Reads (AnyObject.unmarshal P.hs P.profile {})
        (AnyObject.marshal P.hs P.profile.stateFormatLevel (.object obj)) (.object obj) := by
      have hmarshalled : Reads (AnyObject.unmarshal P.hs P.profile {})
          (AnyObject.marshal P.hs P.profile.stateFormatLevel (.object obj))
          (.object (obj.restored P.profile.stateFormatLevel _)) :=
        AnyObject.reads_object P.hs {} ⟨hobj.storable.occupied, hobj.storable.not_sequence⟩ hobj.enabled
      rwa [hobj.restored_eq] at hmarshalled
    refine Reads.bind_last (a := .object obj) (fun rest => ?_) ?_
    · simp only [hread rest]
    · intro rest
      simp only [Slot.ofAnyObject, hstore]
      rfl
  · intro hroom n rest
    have hfull : ¬ o + 4 + 4 + objectSize ≤ nvUserSize := by
      intro hle
      refine hroom fun _ => ?_
      omega
    rw [userNvramEntryUnmarshal, List.append_assoc, Reader.bind_apply, reads_uint32 handle]
    simp only [if_neg hnot, if_pos htype, decide_eq_false hfull, Reader.check, Bool.false_eq_true, if_false]
    exact Reader.bind_error rfl

/-! ## The whole list -/

/-- Room for an `OBJECT` at every persistent object of a list that begins at `o`. -/
def ObjectsHaveRoom : Nat → List NvEntry → Prop
  | _, [] => True
  | o, e :: es => e.HasRoom o ∧ ObjectsHaveRoom (o + e.entrySize) es

def linked (es : List NvEntry) : List LinkedEntry := es.map fun e => ⟨e.entrySize, e⟩

theorem userNvramEntryMarshal_sound {e : NvEntry} (h : e.Sound P S) {o : Nat} (hroom : o + e.entrySize ≤ nvUserSize) :
    ∃ blob, userNvramEntryMarshal P S e = .ok (be 4 e.entrySize ++ blob) ∧
      (e.HasRoom o → Reads (userNvramEntryUnmarshal P S o e.entrySize) blob ⟨e.entrySize, e⟩) ∧
      (¬ e.HasRoom o → ∀ n rest, userNvramEntryUnmarshal P S o n (blob ++ rest) = .error (.of .size)) := by
  cases e with
  | index i data =>
      obtain ⟨blob, hblob, hreads⟩ := userNvramEntryMarshal_index h hroom
      refine ⟨blob, hblob, fun _ => hreads, fun hno => absurd ?_ hno⟩
      intro hevict
      cases hevict
  | evict handle record => exact userNvramEntryMarshal_evict h o

/-- The induction over the list. The offset grows with the entries that have been read. -/
theorem userNvramEntries_marshal {es : List NvEntry} (hsound : ∀ e ∈ es, e.Sound P S) {o rounds : Nat}
    (hroom : o + (es.map NvEntry.entrySize).sum + 12 ≤ nvUserSize) (hrounds : es.length < rounds) :
    ∃ blobs, es.mapM (userNvramEntryMarshal P S) = .ok blobs ∧
      (ObjectsHaveRoom o es → Reads (userNvramEntriesUnmarshal P S rounds o) (blobs.flatten ++ be 4 0)
        (linked es, o + (es.map NvEntry.entrySize).sum)) ∧
      (¬ ObjectsHaveRoom o es → ∀ rest,
        userNvramEntriesUnmarshal P S rounds o (blobs.flatten ++ rest) = .error (.of .size)) := by
  induction es generalizing o rounds with
  | nil =>
      obtain ⟨rounds, rfl⟩ := Nat.exists_eq_add_one_of_ne_zero (Nat.ne_of_gt hrounds)
      refine ⟨[], rfl, fun _ => ?_, fun hno => absurd trivial hno⟩
      rw [List.map_nil, List.sum_nil] at hroom
      refine (Reads.check (decide_eq_true (by omega))).bind_nil ?_
      refine (Reads.word _ (by decide)).bind_last ?_
      rw [if_pos rfl]
      exact Reads.pure _
  | cons e es ih =>
      obtain ⟨rounds, rfl⟩ := Nat.exists_eq_add_one_of_ne_zero (Nat.ne_of_gt (Nat.zero_lt_of_lt hrounds))
      rw [List.map_cons, List.sum_cons] at hroom
      have hsize := e.entrySize_ge
      have hword : e.entrySize < 256 ^ 4 := by
        have harea : nvUserSize < 256 ^ 4 := by decide
        omega
      obtain ⟨blob, hblob, hreads, hrefuses⟩ :=
        userNvramEntryMarshal_sound (hsound e List.mem_cons_self) (o := o) (by omega)
      obtain ⟨blobs, hblobs, hlater, hlaterRefuses⟩ :=
        ih (fun e' he' => hsound e' (List.mem_cons_of_mem _ he')) (o := o + e.entrySize)
          (by omega) (Nat.lt_of_succ_lt_succ hrounds)
      have hsum : o + ((e :: es).map NvEntry.entrySize).sum = o + e.entrySize + (es.map NvEntry.entrySize).sum := by
        rw [List.map_cons, List.sum_cons, Nat.add_assoc]
      have hfirst : Reads (Reader.check (decide (o + 4 ≤ nvUserSize)) (.of .size) : Unmarshal Unit) [] () :=
        Reads.check (decide_eq_true (by omega))
      have hlink : Reads (Reader.word 4 (.of .insufficient) : Unmarshal Nat) (be 4 e.entrySize) e.entrySize :=
        Reads.word _ hword
      refine ⟨(be 4 e.entrySize ++ blob) :: blobs, ?_, ?_, ?_⟩
      · rw [List.mapM_cons, hblob, hblobs]
        rfl
      · rintro ⟨hhere, hthere⟩
        rw [List.flatten_cons, List.append_assoc, List.append_assoc, hsum]
        refine hfirst.bind_nil (hlink.bind ?_)
        rw [if_neg (by omega)]
        refine (hreads hhere).bind ?_
        exact (hlater hthere).bind_last (Reads.pure _)
      · intro hno rest
        rw [List.flatten_cons, List.append_assoc, List.append_assoc, userNvramEntriesUnmarshal, Reader.bind_apply,
          show (be 4 e.entrySize ++ (blob ++ (blobs.flatten ++ rest))) =
            [] ++ (be 4 e.entrySize ++ (blob ++ (blobs.flatten ++ rest))) from rfl, hfirst]
        dsimp only
        rw [Reader.bind_apply, hlink]
        dsimp only
        rw [if_neg (by omega)]
        by_cases hhere : e.HasRoom o
        · rw [Reader.bind_apply, hreads hhere]
          exact Reader.bind_error (hlaterRefuses (fun hthere => hno ⟨hhere, hthere⟩) rest)
        · exact Reader.bind_error (hrefuses hhere _ _)

theorem entries_lt_rounds {es : List NvEntry} (h : (es.map NvEntry.entrySize).sum + 12 ≤ nvUserSize) :
    es.length < nvUserSize / 4 := by
  have hmany : 8 * es.length ≤ (es.map NvEntry.entrySize).sum := by
    induction es with
    | nil => exact Nat.le_refl 0
    | cons e es ih =>
        rw [List.map_cons, List.sum_cons] at h ⊢
        have hsize := e.entrySize_ge
        have hrest := ih (by omega)
        rw [List.length_cons]
        omega
  unfold nvUserSize at h ⊢
  omega

/-- What is read from a saved list is the list, its links and the counter, if every persistent object has room
for an `OBJECT`; otherwise the saved list is refused. -/
theorem userNvramUnmarshal_marshal {s : NvState} (h : UserReachable P C S s)
    (hroom : (s.user.map NvEntry.entrySize).sum + 12 ≠ nvUserSize) (maxCount : UInt64) :
    ∃ blob, userNvramMarshal P S s.user maxCount = .ok blob ∧
      (ObjectsHaveRoom 0 s.user → userNvramUnmarshal P S blob = .ok ((linked s.user, maxCount), [])) ∧
      (¬ ObjectsHaveRoom 0 s.user → userNvramUnmarshal P S blob = .error (.of .size)) := by
  have hlist := UserList.of_reachable h
  have hinside := hlist.room
  obtain ⟨blobs, hblobs, hreads, hrefuses⟩ :=
    userNvramEntries_marshal hlist.sound (o := 0) (by omega) (entries_lt_rounds hinside)
  refine ⟨nvHeaderMarshal 2 0x094F22C3 1 ++ (be 8 nvUserSize ++ (blobs.flatten ++ (be 4 0 ++
    (be 8 maxCount.toNat ++ futureVersionsMarshal)))), ?_, ?_, ?_⟩
  · rw [userNvramMarshal, hblobs]
    exact if_neg (by omega)
  · intro hall
    refine Reads.all (p := userNvramUnmarshal P S) ?_
    refine (reads_nvHeader (by decide) (by decide) (by decide) (by decide)).bind ?_
    refine (Reads.word _ (by decide)).bind ?_
    rw [← List.append_assoc blobs.flatten]
    refine (hreads hall).bind ?_
    refine (Reads.check (decide_eq_true (by omega))).bind_nil ?_
    refine (Reads.word _ maxCount.toNat_lt).bind ?_
    refine (reads_futureVersions (by decide)).bind_last ?_
    rw [UInt64.ofNat_toNat]
    exact Reads.pure _
  · intro hno
    rw [userNvramUnmarshal, Reader.bind_apply, reads_nvHeader (by decide) (by decide) (by decide) (by decide)]
    dsimp only
    rw [Reader.bind_apply, Reads.word _ (by decide)]
    exact Reader.bind_error (hrefuses hno _)

theorem objectsHaveRoom_append {xs ys : List NvEntry} {o : Nat} :
    ObjectsHaveRoom o (xs ++ ys) ↔
      ObjectsHaveRoom o xs ∧ ObjectsHaveRoom (o + (xs.map NvEntry.entrySize).sum) ys := by
  induction xs generalizing o with
  | nil => exact ⟨fun h => ⟨trivial, h⟩, And.right⟩
  | cons x xs ih =>
      rw [List.cons_append, List.map_cons, List.sum_cons, ← Nat.add_assoc]
      exact (and_congr_right fun _ => ih).trans and_assoc.symm

end

/-! ## A crowded area -/

def levelSevenPlatform : Platform Unit := ⟨unitHashStates, packedLayout.toRawLayout, .default 7⟩

theorem primarySealedObject_resident_seven :
    Resident levelSevenPlatform toyCrypto packedLayout (.object primarySealedObject) := by
  have hparent : ∀ q, ParentRef.seed .owner = .object q →
      Resident levelSevenPlatform toyCrypto packedLayout (.object q) := by
    intro q hq
    cases hq
  refine Resident.loaded (fun _ _ name => name) .original hparent ⟨rfl, ?_, fun _ => rfl, false, false, false, rfl⟩
  rintro c hc
  cases hc
  rfl

/-- A small object at the `n`-th persistent handle. -/
def sealedEntry (n : Nat) : NvEntry :=
  .evict (0x81000000 + UInt32.ofNat n)
    (nvObjectToBuffer unitHashStates packedLayout.toRawLayout 7
      (primarySealedObject.evicted (0x81000000 + UInt32.ofNat n)))

/-- An index as large as they come. -/
def largeIndex (n : Nat) : NvIndex where
  publicArea :=
    { nvIndex := 0x01000000 + UInt32.ofNat n
      nameAlg := .sha256
      attributes := 0x00040004
      authPolicy := .empty
      dataSize := 8192 }
  authValue := .empty

def indexEntry (n : Nat) : NvEntry := .index (largeIndex n) (List.replicate 8192 0)

def crowded (objects indices : Nat) : NvState where
  user := (List.range objects).map sealedEntry ++ (List.range indices).map indexEntry

theorem sealedEntry_size (n : Nat) : (sealedEntry n).entrySize = 75 := rfl

theorem indexEntry_size (n : Nat) : (indexEntry n).entrySize = 8344 := by
  rw [indexEntry, NvEntry.entrySize, List.length_replicate]

theorem crowded_used (objects indices : Nat) :
    ((crowded objects indices).user.map NvEntry.entrySize).sum = 75 * objects + 8344 * indices := by
  have hobjects : NvEntry.entrySize ∘ sealedEntry = fun _ => 75 := funext sealedEntry_size
  have hindices : NvEntry.entrySize ∘ indexEntry = fun _ => 8344 := funext indexEntry_size
  rw [crowded, List.map_append, List.map_map, List.map_map, hobjects, hindices, List.sum_append, List.map_const',
    List.map_const', List.sum_replicate_nat, List.sum_replicate_nat, List.length_range, List.length_range]
  omega

theorem crowded_evicts (objects indices : Nat) : (crowded objects indices).user.countP NvEntry.isEvict = objects := by
  have hobjects : NvEntry.isEvict ∘ sealedEntry = fun _ => true := rfl
  have hindices : NvEntry.isEvict ∘ indexEntry = fun _ => false := rfl
  rw [crowded, List.countP_append, List.countP_map, List.countP_map, hobjects, hindices, List.countP_true,
    List.countP_false, List.length_range]
  rfl

theorem crowded_counters (objects indices : Nat) : (crowded objects indices).user.countP NvEntry.isCounter = 0 := by
  have hobjects : NvEntry.isCounter ∘ sealedEntry = fun _ => false := rfl
  have hattributes : ((0x00040004 : UInt32).toNat / 16 % 16 == 1) = false := by decide
  have hindices : NvEntry.isCounter ∘ indexEntry = fun _ => false := funext fun _ => hattributes
  rw [crowded, List.countP_append, List.countP_map, List.countP_map, hobjects, hindices, List.countP_false]
  rfl

/-- Room for one more object in an area with `objects` and `indices`. -/
theorem crowded_addEvict {objects indices : Nat} (n : Nat) (h : 75 * objects + 8344 * indices ≤ 169829) :
    nvAddEvictObject unitHashStates packedLayout.toRawLayout 7 (crowded objects indices)
        (0x81000000 + UInt32.ofNat n) primarySealedObject =
      .ok { user := (crowded objects indices).user ++ [sealedEntry n] } := by
  have hspace : nvTestSpace (crowded objects indices) (67 + 4) false false = true := by
    simp only [nvTestSpace, NvState.freeBytes, crowded_used, crowded_counters, Bool.false_eq_true, if_false,
      Bool.not_false, Bool.true_or, if_true]
    exact decide_eq_true (by omega)
  unfold nvAddEvictObject
  exact if_pos hspace

theorem crowded_objects {n : Nat} (hn : n ≤ 7) : UserReachable levelSevenPlatform toyCrypto packedLayout (crowded n 0) := by
  induction n with
  | zero => exact .init rfl
  | succ n ih =>
      refine .step (ih (by omega)) ?_
      have htype : ∀ n < 7, TpmHandle.getType (0x81000000 + UInt32.ofNat n) = TpmHandle.htPersistent := by decide
      refine .addEvict primarySealedObject_resident_seven (htype n (by omega)) ?_
      have hadd := @crowded_addEvict n 0 n (by omega)
      simp only [crowded, List.range_zero, List.map_nil, List.append_nil, List.range_succ, List.map_append,
        List.map_singleton] at hadd ⊢
      exact hadd

theorem largeIndex_readable {n : Nat} (hn : n < 20) : (largeIndex n).publicArea.Readable (.default 7) := by
  have htype : ∀ n < 20, TpmHandle.getType (0x01000000 + UInt32.ofNat n) = TpmHandle.htNvIndex := by decide
  have hattributes : validTpmaNv 0x00040004 = true := by decide
  exact ⟨htype n hn, rfl, hattributes, Nat.le_refl _⟩

theorem crowded_defineIndex {n : Nat} (hn : n < 20) :
    nvDefineIndex (crowded 7 n) (largeIndex n) (List.replicate 8192 0) =
      .ok { user := (crowded 7 n).user ++ [indexEntry n] } := by
  have hcounter : (largeIndex n).isCounter = false := by
    have hattributes : ((0x00040004 : UInt32).toNat / 16 % 16 == 1) = false := by decide
    exact hattributes
  have horderly : (largeIndex n).orderly = false := by
    have hattributes : (0x00040004 : UInt32).toNat.testBit 26 = false := by decide
    exact hattributes
  have hsize : (largeIndex n).nvDataSize = 8192 := by
    rw [NvIndex.nvDataSize, horderly]
    rfl
  have hspace : nvTestSpace (crowded 7 n) (148 + 8192) true false = true := by
    simp only [nvTestSpace, NvState.freeBytes, crowded_used, crowded_counters, crowded_evicts, Bool.not_true,
      Bool.not_false, Bool.or_true, if_true]
    exact decide_eq_true (by omega)
  have htake : (List.replicate 8192 (0 : UInt8)).take 8192 = List.replicate 8192 0 :=
    List.take_of_length_le (Nat.le_of_eq List.length_replicate)
  simp only [nvDefineIndex, hsize, hcounter, hspace, horderly, htake, Bool.not_true, Bool.false_eq_true, if_false,
    Bool.false_and]
  rfl

theorem crowded_indices {n : Nat} (hn : n ≤ 20) :
    UserReachable levelSevenPlatform toyCrypto packedLayout (crowded 7 n) := by
  induction n with
  | zero => exact crowded_objects (Nat.le_refl 7)
  | succ n ih =>
      refine .step (ih (by omega)) ?_
      refine .defineIndex (i := largeIndex n) (largeIndex_readable (by omega))
        (?_ : nvDefineIndex _ _ (List.replicate 8192 0) = _)
      have hdefined : nvDefineIndex (crowded 7 n) (largeIndex n) (List.replicate 8192 0) =
          .ok { user := (crowded 7 n).user ++ [indexEntry n] } := crowded_defineIndex (by omega)
      simp only [crowded, List.range_succ, List.map_append, List.map_singleton, ← List.append_assoc] at hdefined ⊢
      exact hdefined

/-- One more object, beyond the offset where an `OBJECT` would fit. -/
def overcrowded : NvState where
  user := (crowded 7 20).user ++ [sealedEntry 7]

theorem overcrowded_reachable : UserReachable levelSevenPlatform toyCrypto packedLayout overcrowded := by
  have htype : TpmHandle.getType (0x81000000 + UInt32.ofNat 7) = TpmHandle.htPersistent := by decide
  exact .step (crowded_indices (Nat.le_refl 20))
    (.addEvict primarySealedObject_resident_seven htype (crowded_addEvict 7 (by decide)))

/-- The TPM takes the last object, and a state saved then is refused. -/
theorem overcrowded_refused :
    ∃ blob, userNvramMarshal levelSevenPlatform packedLayout overcrowded.user 0 = .ok blob ∧
      userNvramUnmarshal levelSevenPlatform packedLayout blob = .error (.of .size) := by
  have hused : (overcrowded.user.map NvEntry.entrySize).sum = 75 * 7 + 8344 * 20 + 75 := by
    rw [overcrowded, List.map_append, List.sum_append, crowded_used]
    rfl
  have hroom : (overcrowded.user.map NvEntry.entrySize).sum + 12 ≠ nvUserSize := by
    rw [hused]
    decide
  obtain ⟨blob, hblob, -, hrefused⟩ := userNvramUnmarshal_marshal overcrowded_reachable hroom 0
  refine ⟨blob, hblob, hrefused fun hall => ?_⟩
  have hlast := (objectsHaveRoom_append.mp hall).2.1 rfl
  rw [crowded_used] at hlast
  exact absurd hlast (by decide)

end PqcTpm
