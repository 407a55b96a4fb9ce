import PqcTpm.Lib.KeyedList
import PqcTpm.NvDynamic

/-!
# What flushing a hierarchy deletes

The user NV area as a transition system: objects are made persistent at any state
format level, indices are defined, written and deleted, hierarchies are flushed.
Every reachable area is well formed, and on well-formed areas the deletion of a
hierarchy is exact precisely when no object of that hierarchy lies in the area as
an `ANY_OBJECT` blob: the peeked word of such a blob is its header.
-/
namespace PqcTpm
open ByteCodec

section
variable {σ : Type} (hs : HashStateCodec σ) (L : RawLayout)

/-! ## The two formats and the peeked word -/

/-- The record begins with the header of an `ANY_OBJECT` blob. -/
def hasAnyObjectHeader (record : Bytes) : Bool := record.take 8 == nvHeaderMarshal 2 0xfe9a3974 1

/-- An object as `TPM2_EvictControl` finds it in a slot. -/
structure Storable (o : Object) : Prop where
  occupied : o.attributes.occupied = true
  not_sequence : o.attributes.isSequence = false
  reserved : o.attributes.reserved = 0

theorem anyObject_header (level : Nat) (x : AnyObject σ) :
    hasAnyObjectHeader (x.marshal hs level) = true := by
  have hlen : (nvHeaderMarshal 2 0xfe9a3974 1).length = 8 := by decide
  unfold hasAnyObjectHeader AnyObject.marshal
  rw [List.take_append_of_le_length (by omega), List.take_of_length_le (by omega)]
  exact beq_self_eq_true _

/-- The peeked word of a blob is made of its version and magic number, and selects nothing. -/
theorem peek_anyObject {record : Bytes} (hr : hasAnyObjectHeader record = true) (h : Hierarchy) :
    (peekAttributes record).inHierarchy h = false := by
  have htake : record.take 4 = [0x00, 0x02, 0xfe, 0x9a] := by
    have h8 : record.take 8 = nvHeaderMarshal 2 0xfe9a3974 1 := eq_of_beq hr
    have h4 := congrArg (List.take 4) h8
    rw [List.take_take] at h4
    exact h4
  rw [peekAttributes, htake]
  cases h <;> decide

theorem Storable.toWord_lt {o : Object} (ho : Storable o) : o.attributes.toWord < 2 ^ 19 := by
  have hf : ofBits o.attributes.flags < 2 ^ 19 := ofBits_lt o.attributes.flags
  have hr : o.attributes.reserved.toNat = 0 := by rw [ho.reserved]; rfl
  unfold ObjectAttributes.toWord
  omega

theorem peek_rsa3072 (o : Object) :
    peekAttributes (objectToBufferAsRsa3072 L o) = o.attributes := by
  have htake : (objectToBufferAsRsa3072 L o).take 4 = le 4 o.attributes.toWord := by
    rw [objectToBufferAsRsa3072, List.take_append_of_le_length (by simp), List.take_of_length_le (by simp)]
  rw [peekAttributes, htake, fromLe_le o.attributes.toWord_lt, ObjectAttributes.ofWord_toWord]

/-- Octets 2 to 5 of a plain object begin with the upper half of its attribute word, which is
small; they are no magic number. -/
theorem rsa3072_magic {o : Object} (ho : Storable o) :
    fromBe (((objectToBufferAsRsa3072 L o).drop 2).take 4) ≠ 0xfe9a3974 := by
  have hw := ho.toWord_lt
  obtain ⟨t0, t1, rest, ht⟩ : ∃ t0 t1 rest, L.write o = t0 :: t1 :: rest := by
    have hlen := L.write_length o
    match L.write o, hlen with
    | t0 :: t1 :: rest, _ => exact ⟨t0, t1, rest, rfl⟩
  have hb2 : (UInt8.ofNat (o.attributes.toWord / 256 ^ 2)).toNat = o.attributes.toWord / 256 ^ 2 % 256 :=
    UInt8.toNat_ofNat'
  have hb3 : (UInt8.ofNat (o.attributes.toWord / 256 ^ 3)).toNat = o.attributes.toWord / 256 ^ 3 % 256 :=
    UInt8.toNat_ofNat'
  have h0 := UInt8.toNat_lt t0
  have h1 := UInt8.toNat_lt t1
  simp only [objectToBufferAsRsa3072, ht, le, be, List.reverse_cons, List.reverse_nil, List.nil_append,
    List.cons_append, List.drop_succ_cons, List.drop_zero, List.take_succ_cons, List.take_zero,
    fromBe, List.foldl_cons, List.foldl_nil, hb2, hb3]
  omega

theorem nvReadObject_rsa3072 (p : RuntimeProfile) (r : Residue) {o : Object} (ho : Storable o) :
    ∃ x, nvReadObject hs L p r (objectToBufferAsRsa3072 L o) = .ok x ∧ x.attributes = o.attributes := by
  have hlen : (objectToBufferAsRsa3072 L o).length = 2600 := by
    rw [objectToBufferAsRsa3072, List.length_append, le_length, L.write_length]
  have hread : AnyObject.unmarshal hs p r (objectToBufferAsRsa3072 L o) = .error (.of .badTag) := by
    unfold AnyObject.unmarshal
    rw [Reader.bind_apply, nvHeader_badTag (by omega) (rsa3072_magic L ho)]
  refine ⟨.object (rsa3072ToObject L (objectToBufferAsRsa3072 L o)), ?_, peek_rsa3072 L o⟩
  unfold nvReadObject
  rw [hread]
  exact if_pos hlen

/-! ## Well-formed areas -/

/-- Records come from `NvObjectToBuffer`, handles are used once, and the RAM copy holds the data
of the orderly indices and nothing else. -/
structure NvState.WellFormed (s : NvState) : Prop where
  index_type : ∀ {i data}, .index i data ∈ s.user → i.publicArea.nvIndex.getType = TpmHandle.htNvIndex
  evict_type : ∀ {handle record}, .evict handle record ∈ s.user →
    handle.getType = TpmHandle.htPersistent
  stored : ∀ {handle record}, .evict handle record ∈ s.user →
    ∃ level o, Storable o ∧ record = nvObjectToBuffer hs L level o
  handles : (s.user.map NvEntry.handle).Nodup
  counter_size : ∀ {i data}, .index i data ∈ s.user → i.isCounter = true → 8 ≤ i.publicArea.dataSize
  orderly_ram : ∀ {i data}, .index i data ∈ s.user → i.orderly = true →
    ∃ r, s.ramGetIndex i.publicArea.nvIndex = some r ∧ r.data.length = i.publicArea.dataSize
  ram_index : ∀ {r}, r ∈ s.ram →
    ∃ i data, .index i data ∈ s.user ∧ i.orderly = true ∧ i.publicArea.nvIndex = r.handle
  ram_handles : (s.ram.map RamEntry.handle).Nodup

variable {hs L}

/-- `s'` is `s` without the `k`-th entry `e` and without the RAM data that `e` owns. -/
structure Deletes (s s' : NvState) (k : Nat) (e : NvEntry) : Prop where
  found : s.user[k]? = some e
  user : s'.user = s.user.eraseIdx k
  ram : s'.ram =
    match e with
    | .index i _ => if i.orderly then s.ram.eraseP fun r => r.handle == i.publicArea.nvIndex else s.ram
    | .evict _ _ => s.ram

theorem Deletes.ramGetIndex {s s' : NvState} {k : Nat} {e : NvEntry} (hd : Deletes s s' k e)
    {handle : TpmHandle} (hne : handle ≠ e.handle) : s'.ramGetIndex handle = s.ramGetIndex handle := by
  unfold NvState.ramGetIndex
  rw [hd.ram]
  cases e with
  | evict _ _ => rfl
  | index i data =>
      simp only
      split
      · refine KeyedList.find?_eraseP (fun r hr => ?_) s.ram
        rw [eq_of_beq hr]
        exact beq_eq_false_iff_ne.2 hne.symm
      · rfl

theorem Deletes.mem {s s' : NvState} {k : Nat} {e : NvEntry} (hd : Deletes s s' k e) {e' : NvEntry}
    (he : e' ∈ s'.user) : e' ∈ s.user :=
  List.mem_of_mem_eraseIdx (hd.user ▸ he)

theorem NvState.WellFormed.delete {s s' : NvState} {k : Nat} {e : NvEntry} (hw : s.WellFormed hs L)
    (hd : Deletes s s' k e) : s'.WellFormed hs L := by
  have hne : ∀ {e'}, e' ∈ s'.user → e'.handle ≠ e.handle := fun he =>
    KeyedList.ne_of_mem_eraseIdx hw.handles hd.found (hd.user ▸ he)
  have hram : ∀ {r}, r ∈ s'.ram → r ∈ s.ram ∧ (∀ i data, e = .index i data → i.orderly = true →
      r.handle ≠ i.publicArea.nvIndex) := by
    intro r hr
    rw [hd.ram] at hr
    cases e with
    | evict _ _ => exact ⟨hr, nofun⟩
    | index i data =>
        simp only at hr
        split at hr
        · refine ⟨List.mem_of_mem_eraseP hr, ?_⟩
          rintro _ _ ⟨rfl, rfl⟩ -
          exact KeyedList.ne_of_mem_eraseP hw.ram_handles hr
        · refine ⟨hr, ?_⟩
          rintro _ _ ⟨rfl, rfl⟩ ho
          exact absurd ho ‹_›
  refine
    { index_type := fun h => hw.index_type (hd.mem h)
      evict_type := fun h => hw.evict_type (hd.mem h)
      stored := fun h => hw.stored (hd.mem h)
      handles := ?_
      counter_size := fun h => hw.counter_size (hd.mem h)
      orderly_ram := ?_
      ram_index := ?_
      ram_handles := ?_ }
  · rw [hd.user]
    exact hw.handles.sublist ((List.eraseIdx_sublist s.user k).map _)
  · intro i data hi ho
    have hget : s'.ramGetIndex i.publicArea.nvIndex = s.ramGetIndex i.publicArea.nvIndex :=
      hd.ramGetIndex (hne hi)
    rw [hget]
    exact hw.orderly_ram (hd.mem hi) ho
  · intro r hr
    obtain ⟨hmem, hown⟩ := hram hr
    obtain ⟨i, data, hi, ho, hh⟩ := hw.ram_index hmem
    refine ⟨i, data, ?_, ho, hh⟩
    rw [hd.user]
    refine KeyedList.mem_eraseIdx_of_ne hd.found hi ?_
    rintro rfl
    exact hown i data rfl ho hh.symm
  · refine hw.ram_handles.sublist (List.Sublist.map _ ?_)
    rw [hd.ram]
    cases e with
    | evict _ _ => exact List.Sublist.refl _
    | index i data =>
        simp only
        split
        · exact List.eraseP_sublist
        · exact List.Sublist.refl _

theorem flushEntry_deletes {h : Hierarchy} {s s' : NvState} {k : Nat} {e : NvEntry}
    (hk : s.user[k]? = some e) (hf : flushEntry h s k e = .ok (some s')) :
    Deletes s s' k e ∧ s.nvStatus = none ∧ s'.nvStatus = none := by
  rcases flushEntry_ok hf with ⟨-, ho⟩ | ⟨i, data, t, rfl, -, ho, hd⟩ | ⟨handle, record, t, rfl, -, ho, hd⟩
  · cases ho
  · cases ho
    obtain ⟨h1, h2, h3, h4⟩ := nvDeleteIndex_ok hd
    exact ⟨⟨hk, h3, h4⟩, h1, h2⟩
  · cases ho
    obtain ⟨h1, rfl⟩ := nvDelete_ok hd
    exact ⟨⟨hk, rfl, rfl⟩, h1, h1⟩

theorem NvState.WellFormed.flush {h : Hierarchy} {s s' : NvState} (hw : s.WellFormed hs L)
    (hf : nvFlushHierarchy h s = .ok s') : s'.WellFormed hs L :=
  (flushScan h).scan_invariant (fun hw hk hb => hw.delete (flushEntry_deletes hk hb).1) hw hf

/-! ## When the flush succeeds -/

theorem nvDelete_available {s : NvState} (hst : s.nvStatus = none) (k : Nat) :
    nvDelete s k = .ok { s with user := s.user.eraseIdx k } := by
  unfold nvDelete
  rw [hst]

/-- With NV available, no assertion on the way to deleting an index can fail. -/
theorem NvState.WellFormed.deleteIndex {s : NvState} {k : Nat} {i : NvIndex} {data : Bytes}
    (hw : s.WellFormed hs L) (hst : s.nvStatus = none) (hi : .index i data ∈ s.user) :
    ∃ s', nvDeleteIndex s k i data = .ok s' := by
  obtain ⟨t, ht⟩ : ∃ t, retireCounter s i data = .ok t := by
    unfold retireCounter
    split
    · rename_i hc
      have hsize := hw.counter_size hi (Bool.and_eq_true_iff.1 hc).1
      suffices hv : ∃ v, nvGetUint64Data s i data = .ok v by
        obtain ⟨v, hv⟩ := hv
        rw [hv]
        exact ⟨_, rfl⟩
      unfold nvGetUint64Data
      cases ho : i.orderly with
      | true =>
          obtain ⟨r, hr, hlen⟩ := hw.orderly_ram hi ho
          simp only [hr, if_true, hlen, hsize, Except.ok.injEq, exists_eq']
      | false => simp only [Bool.false_eq_true, if_false, hsize, if_true, Except.ok.injEq, exists_eq']
    · exact ⟨s, rfl⟩
  obtain ⟨huser, hram, hstatus⟩ := retireCounter_ok ht
  unfold nvDeleteIndex
  rw [ht]
  simp only [bind, Except.bind, nvDelete_available (hstatus.trans hst)]
  split
  · rename_i ho
    obtain ⟨r, hr, -⟩ := hw.orderly_ram hi ho
    unfold nvDeleteRam NvState.ramGetIndex
    unfold NvState.ramGetIndex at hr
    rw [hram, hr]
    exact ⟨_, rfl⟩
  · exact ⟨_, rfl⟩

theorem flushEntry_total {h : Hierarchy} {s : NvState} {k : Nat} {e : NvEntry} (hw : s.WellFormed hs L)
    (hst : s.nvStatus = none ∨ flushes h e = false) (hk : s.user[k]? = some e) :
    ∃ o, flushEntry h s k e = .ok o := by
  have hmem : e ∈ s.user := List.mem_of_getElem? hk
  unfold flushEntry
  cases e with
  | index i data =>
      simp only [NvEntry.handle, hw.index_type hmem, if_true]
      split
      · exact ⟨_, rfl⟩
      · split
        · exact ⟨_, rfl⟩
        · rename_i h1 h2
          have hst' : s.nvStatus = none := hst.resolve_right (by simp_all [flushes])
          obtain ⟨s', hs'⟩ := hw.deleteIndex hst' hmem
          rw [hs']
          exact ⟨_, rfl⟩
  | evict handle record =>
      have hne : TpmHandle.htPersistent ≠ TpmHandle.htNvIndex := by decide
      simp only [NvEntry.handle, hw.evict_type hmem, hne, if_false, if_true]
      split
      · rename_i hp
        have hst' : s.nvStatus = none := hst.resolve_right (by simp [flushes, hp])
        rw [nvDelete_available hst']
        exact ⟨_, rfl⟩
      · exact ⟨_, rfl⟩

theorem nvFlushHierarchy_total {h : Hierarchy} {s : NvState} (hw : s.WellFormed hs L)
    (hst : s.nvStatus = none ∨ ∀ e ∈ s.user, flushes h e = false) :
    ∃ s', nvFlushHierarchy h s = .ok s' := by
  refine (flushScan h).scan_total
    (I := fun t => t.WellFormed hs L ∧ (t.nvStatus = none ∨ ∀ e ∈ t.user, flushes h e = false))
    ?_ ?_ ⟨hw, hst⟩
  · intro s k e s' hI hk hb
    obtain ⟨hd, -, hst'⟩ := flushEntry_deletes hk hb
    exact ⟨hI.1.delete hd, Or.inl hst'⟩
  · intro s k e hI hk
    exact flushEntry_total hI.1 (hI.2.imp_right fun hall => hall e (List.mem_of_getElem? hk)) hk

theorem nvFlushHierarchy_unavailable {h : Hierarchy} {s s' : NvState} (hst : s.nvStatus ≠ none)
    (hf : nvFlushHierarchy h s = .ok s') : ∀ e ∈ s.user, flushes h e = false := by
  have hsame : s' = s := by
    refine (flushScan h).scan_invariant (I := fun t => t = s) ?_ rfl hf
    rintro _ k e t rfl hk hb
    exact absurd (flushEntry_deletes hk hb).2.1 hst
  have huser := nvFlushHierarchy_user hf
  rw [hsame] at huser
  intro e he
  have hkeep := List.filter_eq_self.1 huser.symm e he
  simpa only [Bool.not_eq_true'] using hkeep

/-! ## Reachable areas -/

variable (hs L) in
/-- What the commands do to the user NV area. `addEvict` and `defineIndex` come with the checks
of `TPM2_EvictControl` and `TPM2_NV_DefineSpace`; writing an index keeps its size and those of
its attributes that `TPM2_NV_Write` and its siblings do not touch. -/
inductive NvStep : NvState → NvState → Prop
  | addEvict {s s' : NvState} (level : Nat) {o : Object} {handle : TpmHandle} (ho : Storable o)
      (htype : handle.getType = TpmHandle.htPersistent) (hfree : handle ∉ s.user.map NvEntry.handle)
      (h : nvAddEvictObject hs L level s handle o = .ok s') : NvStep s s'
  | deleteEvict {s s' : NvState} {k : Nat} {handle : TpmHandle} {record : Bytes}
      (hk : s.user[k]? = some (.evict handle record)) (h : nvDelete s k = .ok s') : NvStep s s'
  | defineIndex {s s' : NvState} {i : NvIndex} {data : Bytes}
      (htype : i.publicArea.nvIndex.getType = TpmHandle.htNvIndex)
      (hcounter : i.isCounter = true → i.publicArea.dataSize = 8)
      (hfree : i.publicArea.nvIndex ∉ s.user.map NvEntry.handle)
      (h : nvDefineIndex s i data = .ok s') : NvStep s s'
  | deleteIndex {s s' : NvState} {k : Nat} {i : NvIndex} {data : Bytes}
      (hk : s.user[k]? = some (.index i data)) (h : nvDeleteIndex s k i data = .ok s') : NvStep s s'
  | writeIndex {s : NvState} {k : Nat} {i i' : NvIndex} {data data' : Bytes}
      (hk : s.user[k]? = some (.index i data)) (hhandle : i'.publicArea.nvIndex = i.publicArea.nvIndex)
      (hsize : i'.publicArea.dataSize = i.publicArea.dataSize) (horderly : i'.orderly = i.orderly)
      (hcounter : i'.isCounter = i.isCounter) (hcreate : i'.platformCreate = i.platformCreate) :
      NvStep s { s with user := s.user.set k (.index i' data') }
  | writeRam {s : NvState} {k : Nat} {r : RamEntry} {attributes : UInt32} {data : Bytes}
      (hk : s.ram[k]? = some r) (hlen : data.length = r.data.length) :
      NvStep s { s with ram := s.ram.set k ⟨r.handle, attributes, data⟩ }
  | flush {s s' : NvState} {h : Hierarchy} (hf : nvFlushHierarchy h s = .ok s') : NvStep s s'
  | status {s : NvState} (nvStatus : Option TpmRc) : NvStep s { s with nvStatus }

variable (hs L) in
/-- Areas that a TPM with an empty user NV area can get to. -/
def NvReachable : NvState → Prop :=
  Transition.Reachable (fun s => s.user = [] ∧ s.ram = []) (NvStep hs L)

theorem nvAdd_ok {s s' : NvState} {e : NvEntry} (h : nvAdd s e = .ok s') :
    s.nvStatus = none ∧ s' = { s with user := s.user ++ [e] } := by
  unfold nvAdd at h
  split at h
  · cases h
  · exact ⟨‹_›, (Except.ok.inj h).symm⟩

theorem NvState.WellFormed.addEvict {level : Nat} {s s' : NvState} {o : Object} {handle : TpmHandle}
    (hw : s.WellFormed hs L) (ho : Storable o) (htype : handle.getType = TpmHandle.htPersistent)
    (hfree : handle ∉ s.user.map NvEntry.handle)
    (h : nvAddEvictObject hs L level s handle o = .ok s') : s'.WellFormed hs L := by
  unfold nvAddEvictObject at h
  simp only at h
  split at h
  · obtain ⟨-, rfl⟩ := nvAdd_ok h
    have hindex : ∀ {i data record}, NvEntry.index i data ∈ s.user ++ [.evict handle record] →
        .index i data ∈ s.user := by
      intro i data record hi
      simpa using hi
    refine
      { index_type := fun hi => hw.index_type (hindex hi)
        evict_type := ?_
        stored := ?_
        handles := ?_
        counter_size := fun hi => hw.counter_size (hindex hi)
        orderly_ram := fun hi => hw.orderly_ram (hindex hi)
        ram_index := ?_
        ram_handles := hw.ram_handles }
    · intro handle' record he
      rcases List.mem_append.1 he with he | he
      · exact hw.evict_type he
      · cases List.mem_singleton.1 he
        exact htype
    · intro handle' record he
      rcases List.mem_append.1 he with he | he
      · exact hw.stored he
      · cases List.mem_singleton.1 he
        exact ⟨level, o.evicted handle, ⟨ho.occupied, ho.not_sequence, ho.reserved⟩, rfl⟩
    · rw [List.map_append, List.nodup_append]
      refine ⟨hw.handles, List.nodup_singleton _, ?_⟩
      rintro a ha b hb rfl
      exact hfree ((List.mem_singleton.1 hb : a = handle) ▸ ha)
    · intro r hr
      obtain ⟨i, data, hi, hio⟩ := hw.ram_index hr
      exact ⟨i, data, List.mem_append_left _ hi, hio⟩
  · cases h

/-- The RAM entry a new orderly index gets, if any. -/
def newRam (i : NvIndex) : List RamEntry :=
  if i.orderly then
    [⟨i.publicArea.nvIndex, i.publicArea.attributes, List.replicate i.publicArea.dataSize 0⟩]
  else []

theorem nvDefineIndex_ok {s s' : NvState} {i : NvIndex} {data : Bytes}
    (h : nvDefineIndex s i data = .ok s') :
    s' = { s with user := s.user ++ [.index i (data.take i.nvDataSize)], ram := s.ram ++ newRam i } := by
  unfold nvDefineIndex at h
  split at h
  · cases h
  · split at h
    · cases h
    · obtain ⟨t, ht, h⟩ := Transition.bind_eq_ok h
      obtain ⟨-, rfl⟩ := nvAdd_ok ht
      unfold newRam
      split at h
      · rename_i ho
        cases h
        rw [if_pos ho]
      · rename_i ho
        cases h
        rw [if_neg ho, List.append_nil]

theorem NvState.WellFormed.defineIndex {s s' : NvState} {i : NvIndex} {data : Bytes}
    (hw : s.WellFormed hs L) (htype : i.publicArea.nvIndex.getType = TpmHandle.htNvIndex)
    (hcounter : i.isCounter = true → i.publicArea.dataSize = 8)
    (hfree : i.publicArea.nvIndex ∉ s.user.map NvEntry.handle)
    (h : nvDefineIndex s i data = .ok s') : s'.WellFormed hs L := by
  obtain rfl := nvDefineIndex_ok h
  generalize data.take i.nvDataSize = data'
  have hmem : ∀ {e}, e ∈ s.user ++ [NvEntry.index i data'] → e ∈ s.user ∨ e = .index i data' := by
    intro e he
    simpa using he
  -- no RAM data can be waiting for the new handle
  have hfresh : ∀ r ∈ s.ram, r.handle ≠ i.publicArea.nvIndex := by
    intro r hr heq
    obtain ⟨j, dj, hj, -, hh⟩ := hw.ram_index hr
    exact hfree (List.mem_map.2 ⟨_, hj, hh.trans heq⟩)
  have hnone : s.ram.find? (fun r => r.handle == i.publicArea.nvIndex) = none :=
    List.find?_eq_none.2 fun r hr => by simpa using hfresh r hr
  refine
    { index_type := ?_
      evict_type := ?_
      stored := ?_
      handles := ?_
      counter_size := ?_
      orderly_ram := ?_
      ram_index := ?_
      ram_handles := ?_ }
  · intro j dj hj
    rcases hmem hj with hj | hj
    · exact hw.index_type hj
    · cases hj
      exact htype
  · intro handle record he
    rcases hmem he with he | he
    · exact hw.evict_type he
    · cases he
  · intro handle record he
    rcases hmem he with he | he
    · exact hw.stored he
    · cases he
  · rw [List.map_append, List.nodup_append]
    refine ⟨hw.handles, List.nodup_singleton _, ?_⟩
    rintro a ha b hb rfl
    exact hfree ((List.mem_singleton.1 hb : a = i.publicArea.nvIndex) ▸ ha)
  · intro j dj hj hc
    rcases hmem hj with hj | hj
    · exact hw.counter_size hj hc
    · cases hj
      exact Nat.le_of_eq (hcounter hc).symm
  · intro j dj hj ho
    unfold NvState.ramGetIndex
    rcases hmem hj with hj | hj
    · obtain ⟨r, hr, hlen⟩ := hw.orderly_ram hj ho
      unfold NvState.ramGetIndex at hr
      exact ⟨r, by simp only [List.find?_append, hr, Option.some_or], hlen⟩
    · cases hj
      refine ⟨⟨i.publicArea.nvIndex, i.publicArea.attributes, List.replicate i.publicArea.dataSize 0⟩, ?_,
        List.length_replicate⟩
      simp only [List.find?_append, hnone, newRam, ho, if_true, Option.none_or, List.find?_cons,
        beq_self_eq_true]
  · intro r hr
    rcases List.mem_append.1 hr with hr | hr
    · obtain ⟨j, dj, hj, hjo⟩ := hw.ram_index hr
      exact ⟨j, dj, List.mem_append_left _ hj, hjo⟩
    · unfold newRam at hr
      split at hr
      · rename_i ho
        refine ⟨i, data', List.mem_append_right _ (List.mem_singleton.2 rfl), ho, ?_⟩
        rw [List.mem_singleton.1 hr]
      · cases hr
  · rw [List.map_append, List.nodup_append]
    refine ⟨hw.ram_handles, ?_, ?_⟩
    · unfold newRam
      split <;> simp
    · rintro a ha b hb rfl
      obtain ⟨r, hr, rfl⟩ := List.mem_map.1 ha
      obtain ⟨r', hr', heq⟩ := List.mem_map.1 hb
      unfold newRam at hr'
      split at hr'
      · rw [List.mem_singleton.1 hr'] at heq
        exact hfresh r hr heq.symm
      · cases hr'

theorem NvState.WellFormed.writeIndex {s : NvState} {k : Nat} {i i' : NvIndex} {data data' : Bytes}
    (hw : s.WellFormed hs L) (hk : s.user[k]? = some (.index i data))
    (hhandle : i'.publicArea.nvIndex = i.publicArea.nvIndex)
    (hsize : i'.publicArea.dataSize = i.publicArea.dataSize) (horderly : i'.orderly = i.orderly)
    (hcounter : i'.isCounter = i.isCounter) :
    ({ s with user := s.user.set k (.index i' data') } : NvState).WellFormed hs L := by
  have hold : .index i data ∈ s.user := List.mem_of_getElem? hk
  have hmem : ∀ {e}, e ∈ s.user.set k (.index i' data') → e ∈ s.user ∨ e = .index i' data' :=
    fun he => List.mem_or_eq_of_mem_set he
  refine
    { index_type := ?_
      evict_type := ?_
      stored := ?_
      handles := ?_
      counter_size := ?_
      orderly_ram := ?_
      ram_index := ?_
      ram_handles := hw.ram_handles }
  · intro j dj hj
    rcases hmem hj with hj | hj
    · exact hw.index_type hj
    · cases hj
      rw [hhandle]
      exact hw.index_type hold
  · intro handle record he
    rcases hmem he with he | he
    · exact hw.evict_type he
    · cases he
  · intro handle record he
    rcases hmem he with he | he
    · exact hw.stored he
    · cases he
  · rw [KeyedList.map_set hk hhandle]
    exact hw.handles
  · intro j dj hj hc
    rcases hmem hj with hj | hj
    · exact hw.counter_size hj hc
    · cases hj
      rw [hsize]
      exact hw.counter_size hold (hcounter ▸ hc)
  · intro j dj hj ho
    rcases hmem hj with hj | hj
    · exact hw.orderly_ram hj ho
    · cases hj
      rw [hhandle, hsize]
      exact hw.orderly_ram hold (horderly ▸ ho)
  · intro r hr
    obtain ⟨j, dj, hj, hjo, hjh⟩ := hw.ram_index hr
    by_cases heq : NvEntry.index j dj = .index i data
    · cases heq
      have hlt := (List.getElem?_eq_some_iff.1 hk).1
      exact ⟨i', data', List.mem_set hlt _, horderly.trans hjo, hhandle.trans hjh⟩
    · exact ⟨j, dj, KeyedList.mem_set_of_ne hk hj heq, hjo, hjh⟩

theorem NvState.WellFormed.writeRam {s : NvState} {k : Nat} {r : RamEntry} {attributes : UInt32}
    {data : Bytes} (hw : s.WellFormed hs L) (hk : s.ram[k]? = some r)
    (hlen : data.length = r.data.length) :
    ({ s with ram := s.ram.set k ⟨r.handle, attributes, data⟩ } : NvState).WellFormed hs L := by
  have hsame : RamEntry.handle ⟨r.handle, attributes, data⟩ = r.handle := rfl
  refine
    { index_type := hw.index_type
      evict_type := hw.evict_type
      stored := hw.stored
      handles := hw.handles
      counter_size := hw.counter_size
      orderly_ram := ?_
      ram_index := ?_
      ram_handles := ?_ }
  · intro i di hi ho
    obtain ⟨x, hx, hxlen⟩ := hw.orderly_ram hi ho
    have hset : ∃ y, (s.ram.set k ⟨r.handle, attributes, data⟩).find?
        (fun y => y.handle == i.publicArea.nvIndex) = some y ∧
          (y = x ∨ y = ⟨r.handle, attributes, data⟩ ∧ x = r) := KeyedList.find?_set hk hsame hx
    obtain ⟨y, hy, rfl | ⟨rfl, rfl⟩⟩ := hset
    · exact ⟨y, hy, hxlen⟩
    · exact ⟨_, hy, hlen.trans hxlen⟩
  · intro x hx
    rcases List.mem_or_eq_of_mem_set hx with hx | rfl
    · exact hw.ram_index hx
    · exact hw.ram_index (r := r) (List.mem_of_getElem? hk)
  · rw [KeyedList.map_set hk hsame]
    exact hw.ram_handles

/-- Every reachable area is well formed. -/
theorem NvReachable.wellFormed {s : NvState} (h : NvReachable hs L s) : s.WellFormed hs L := by
  refine Transition.Reachable.invariant ?_ ?_ h
  · rintro s ⟨hu, hr⟩
    constructor <;> simp [hu, hr]
  · intro s s' hw hstep
    cases hstep with
    | addEvict level ho htype hfree h => exact hw.addEvict ho htype hfree h
    | deleteEvict hk h =>
        obtain ⟨-, rfl⟩ := nvDelete_ok h
        exact hw.delete ⟨hk, rfl, rfl⟩
    | defineIndex htype hcounter hfree h => exact hw.defineIndex htype hcounter hfree h
    | deleteIndex hk h =>
        obtain ⟨-, -, hu, hr⟩ := nvDeleteIndex_ok h
        exact hw.delete ⟨hk, hu, hr⟩
    | writeIndex hk hhandle hsize horderly hcounter _ =>
        exact hw.writeIndex hk hhandle hsize horderly hcounter
    | writeRam hk hlen => exact hw.writeRam hk hlen
    | flush hf => exact hw.flush hf
    | status nvStatus =>
        exact
          { index_type := hw.index_type, evict_type := hw.evict_type, stored := hw.stored
            handles := hw.handles, counter_size := hw.counter_size, orderly_ram := hw.orderly_ram
            ram_index := hw.ram_index, ram_handles := hw.ram_handles }

/-! ## Exactness -/

variable (hs L) in
/-- What flushing `h` is to do: every object that `NvReadObject` decodes as one of `h` is gone, for
the owner so is every index not created by the platform, and everything else is still there with
its contents, the RAM data of orderly indices included. -/
structure FlushedExactly (p : RuntimeProfile) (r : Residue) (h : Hierarchy) (s s' : NvState) :
    Prop where
  objects : ∀ {handle record}, .evict handle record ∈ s'.user →
    ∀ {x}, nvReadObject hs L p r record = .ok x → x.attributes.inHierarchy h = false
  indices : h = .owner → ∀ {i data}, .index i data ∈ s'.user → i.platformCreate = true
  kept_objects : ∀ {handle record}, .evict handle record ∈ s.user →
    (∀ {x}, nvReadObject hs L p r record = .ok x → x.attributes.inHierarchy h = false) →
    .evict handle record ∈ s'.user
  kept_indices : ∀ {i data}, .index i data ∈ s.user → (h = .owner → i.platformCreate = true) →
    .index i data ∈ s'.user ∧ s'.ramGetIndex i.publicArea.nvIndex = s.ramGetIndex i.publicArea.nvIndex

/-- An entry that the flush does not select keeps its RAM data. -/
theorem nvFlushHierarchy_ram {h : Hierarchy} {s s' : NvState} (hw : s.WellFormed hs L)
    (hf : nvFlushHierarchy h s = .ok s') {e : NvEntry} (he : e ∈ s.user) (hkeep : flushes h e = false) :
    s'.ramGetIndex e.handle = s.ramGetIndex e.handle := by
  refine ((flushScan h).scan_invariant
    (I := fun t => t.WellFormed hs L ∧ e ∈ t.user ∧ t.ramGetIndex e.handle = s.ramGetIndex e.handle)
    ?_ ⟨hw, he, rfl⟩ hf).2.2
  intro t k e' t' hI hk hb
  have hdel := (flushEntry_deletes hk hb).1
  have hflush : flushes h e' = true := by
    rcases flushEntry_ok hb with ⟨-, ho⟩ | ⟨_, _, _, -, hfl, -, -⟩ | ⟨_, _, _, -, hfl, -, -⟩
    · cases ho
    · exact hfl
    · exact hfl
  have hne : e ≠ e' := by
    rintro rfl
    rw [hkeep] at hflush
    cases hflush
  have hmem : e ∈ t'.user := hdel.user ▸ KeyedList.mem_eraseIdx_of_ne hk hI.2.1 hne
  refine ⟨hI.1.delete hdel, hmem, ?_⟩
  rw [hdel.ramGetIndex (KeyedList.ne_of_mem_eraseIdx hI.1.handles hk (hdel.user ▸ hmem))]
  exact hI.2.2

theorem NvState.WellFormed.record_cases {s : NvState} (hw : s.WellFormed hs L) (p : RuntimeProfile)
    (r : Residue) {handle : TpmHandle} {record : Bytes} (he : .evict handle record ∈ s.user) :
    (hasAnyObjectHeader record = true ∧ ∀ h, (peekAttributes record).inHierarchy h = false) ∨
      ∃ x, nvReadObject hs L p r record = .ok x ∧ x.attributes = peekAttributes record := by
  obtain ⟨level, o, ho, rfl⟩ := hw.stored he
  unfold nvObjectToBuffer
  split
  · have hh := anyObject_header hs level (.object o)
    exact Or.inl ⟨hh, peek_anyObject hh⟩
  · obtain ⟨x, hx, ha⟩ := nvReadObject_rsa3072 hs L p r ho
    exact Or.inr ⟨x, hx, ha.trans (peek_rsa3072 L o).symm⟩

/-- Without blobs of hierarchy `h` in the area, a successful flush is exact. -/
theorem flushedExactly_of_no_blob {p : RuntimeProfile} {r : Residue} {h : Hierarchy} {s s' : NvState}
    (hw : s.WellFormed hs L) (hh : h ≠ .null) (hf : nvFlushHierarchy h s = .ok s')
    (hblob : ∀ {handle record}, .evict handle record ∈ s.user → hasAnyObjectHeader record = true →
      ∀ {x}, nvReadObject hs L p r record = .ok x → x.attributes.inHierarchy h = false) :
    FlushedExactly hs L p r h s s' := by
  have huser := nvFlushHierarchy_user hf
  have hmem : ∀ {e}, e ∈ s'.user ↔ e ∈ s.user ∧ flushes h e = false := by
    intro e
    rw [huser, List.mem_filter, Bool.not_eq_true']
  refine ⟨?_, ?_, ?_, ?_⟩
  · intro handle record he x hx
    obtain ⟨he, hkeep⟩ := hmem.1 he
    rcases hw.record_cases p r he with ⟨hany, -⟩ | ⟨y, hy, hattr⟩
    · exact hblob he hany hx
    · rw [hy] at hx
      cases hx
      rw [hattr]
      exact hkeep
  · rintro rfl i data hi
    have hkeep := (hmem.1 hi).2
    simpa [flushes] using hkeep
  · intro handle record he hx
    refine hmem.2 ⟨he, ?_⟩
    rcases hw.record_cases p r he with ⟨-, hpeek⟩ | ⟨y, hy, hattr⟩
    · exact hpeek h
    · have hbit := hx hy
      rwa [hattr] at hbit
  · intro i data hi hcreate
    have hkeep : flushes h (.index i data) = false := by
      cases h with
      | owner => simp [flushes, hcreate rfl]
      | endorsement => simp [flushes]
      | platform => simp [flushes]
      | null => exact absurd rfl hh
    exact ⟨hmem.2 ⟨hi, hkeep⟩, nvFlushHierarchy_ram hw hf hi hkeep⟩

/-- The flush of a hierarchy (of the owner, of endorsement or of the platform) deletes exactly what
belongs to it if and only if no object of that hierarchy is stored as an `ANY_OBJECT` blob, or
else nothing is promised because NV is not available and the flush has something to delete. -/
theorem nvFlushHierarchy_exact_iff {p : RuntimeProfile} {r : Residue} {h : Hierarchy} {s : NvState}
    (hs_reach : NvReachable hs L s) (hh : h ≠ .null) :
    (∀ s', nvFlushHierarchy h s = .ok s' → FlushedExactly hs L p r h s s') ↔
      (s.nvStatus ≠ none ∧ ∃ e ∈ s.user, flushes h e = true) ∨
      ∀ handle record, .evict handle record ∈ s.user → hasAnyObjectHeader record = true →
        ∀ x, nvReadObject hs L p r record = .ok x → x.attributes.inHierarchy h = false := by
  have hw := hs_reach.wellFormed
  constructor
  · intro hexact
    by_cases hst : s.nvStatus = none ∨ ∀ e ∈ s.user, flushes h e = false
    · obtain ⟨s', hf⟩ := nvFlushHierarchy_total hw hst
      refine Or.inr fun handle record he hany x hx => ?_
      have hkept : .evict handle record ∈ s'.user := by
        rw [nvFlushHierarchy_user hf, List.mem_filter]
        exact ⟨he, by rw [flushes, peek_anyObject hany h, Bool.not_false]⟩
      exact (hexact s' hf).objects hkept hx
    · obtain ⟨hst, hall⟩ := not_or.1 hst
      push Not at hall
      obtain ⟨e, he, hne⟩ := hall
      exact Or.inl ⟨hst, e, he, Bool.eq_true_of_not_eq_false hne⟩
  · rintro (⟨hst, e, he, hflush⟩ | hblob) s' hf
    · have hnone := nvFlushHierarchy_unavailable hst hf e he
      rw [hflush] at hnone
      cases hnone
    · exact flushedExactly_of_no_blob hw hh hf fun he hany _ hx => hblob _ _ he hany _ hx

end

/-! ## An owner's key that survives `TPM2_Clear` -/

/-- A codec for a TPM without hash sequences. -/
def noHashStates : HashStateCodec Empty where
  marshal s := nomatch s
  unmarshal := Reader.fail (.of .badParameter)
  reads s := nomatch s

/-- A sealed data object of the storage hierarchy. -/
def ownerSealedObject : Object where
  attributes := { spsHierarchy := true, occupied := true }
  publicArea :=
    { type := .keyedhash
      nameAlg := some .sha256
      objectAttributes := { fixedTPM := true, fixedParent := true, userWithAuth := true }
      authPolicy := .empty
      parameters := TpmtKeyedhashScheme.null
      unique := (Tpm2b.empty : Tpm2bDigest) }
  sensitive :=
    { authValue := .empty
      seedValue := .empty
      sensitive := some ⟨.keyedhash, .empty⟩
      public_only := nofun }
  privateExponent := .zero
  qualifiedName := .empty
  evictHandle := 0
  name := .empty
  seedCompatLevel := .original
  hierarchy := .owner

def zeroLayout : RawLayout where
  write _ := List.replicate 2596 0
  write_length _ := List.length_replicate
  read _ := ownerSealedObject

theorem ownerSealedObject_storable : Storable ownerSealedObject := ⟨rfl, rfl, rfl⟩

/-- The area after `TPM2_EvictControl` of the sealed object at state format level 7. -/
def areaWithSealedObject : NvState :=
  { user := [.evict 0x81000001
      (nvObjectToBuffer noHashStates zeroLayout 7 (ownerSealedObject.evicted 0x81000001))] }

theorem areaWithSealedObject_reachable : NvReachable noHashStates zeroLayout areaWithSealedObject := by
  refine .step (.init (s := {}) ⟨rfl, rfl⟩) ?_
  have htype : TpmHandle.getType 0x81000001 = TpmHandle.htPersistent := by decide
  refine .addEvict 7 ownerSealedObject_storable htype (by simp) ?_
  unfold nvAddEvictObject
  exact if_pos (by decide)

theorem nvReadObject_blob (p : RuntimeProfile) (level : Nat) (r : Residue) (o : Object)
    (hblob : marshalAnyObject level o.publicArea = true) (ht : (AnyObject.object o : AnyObject Empty).Tagged)
    (he : o.publicArea.enabled p = true) :
    ∃ x, nvReadObject noHashStates zeroLayout p r (nvObjectToBuffer noHashStates zeroLayout level o) = .ok x ∧
      x.attributes = o.attributes := by
  refine ⟨.object (o.restored level r.privateExponent), ?_, rfl⟩
  rw [nvObjectToBuffer, if_pos hblob, nvReadObject, (AnyObject.reads_object noHashStates r ht he).all]

/-- The flush succeeds and the owner's object is still there. -/
theorem nvFlushHierarchy_keeps_blob :
    NvReachable noHashStates zeroLayout areaWithSealedObject ∧
      ∃ s', nvFlushHierarchy .owner areaWithSealedObject = .ok s' ∧
        ¬ FlushedExactly noHashStates zeroLayout (.default 7) {} .owner areaWithSealedObject s' := by
  have hw := areaWithSealedObject_reachable.wellFormed
  obtain ⟨s', hf⟩ := nvFlushHierarchy_total (h := .owner) hw (Or.inl rfl)
  refine ⟨areaWithSealedObject_reachable, s', hf, fun hexact => ?_⟩
  have hheader := anyObject_header noHashStates 7 (.object (ownerSealedObject.evicted 0x81000001))
  have hkept : NvEntry.evict 0x81000001
      (nvObjectToBuffer noHashStates zeroLayout 7 (ownerSealedObject.evicted 0x81000001)) ∈ s'.user := by
    rw [nvFlushHierarchy_user hf, List.mem_filter]
    refine ⟨List.mem_singleton.2 rfl, ?_⟩
    rw [flushes, Bool.not_eq_true']
    exact peek_anyObject hheader .owner
  obtain ⟨x, hx, hattr⟩ := nvReadObject_blob (.default 7) 7 {} (ownerSealedObject.evicted 0x81000001) rfl ⟨rfl, rfl⟩ rfl
  have howner := hexact.objects hkept hx
  rw [hattr] at howner
  cases howner

/-! ## A flush that leaves the other hierarchies alone -/

def endorsementSealedObject : Object :=
  { ownerSealedObject with attributes := { epsHierarchy := true, occupied := true }, hierarchy := .endorsement }

/-- An index of two octets, of the owner or of the platform. -/
def twoOctetIndex (nvIndex : TpmHandle) (attributes : UInt32) : NvIndex where
  publicArea := { nvIndex, nameAlg := .sha256, attributes, authPolicy := .empty, dataSize := 2 }
  authValue := .empty

def ownerIndex : NvIndex := twoOctetIndex 0x01000001 0x00040004
def platformIndex : NvIndex := twoOctetIndex 0x01400001 0x40040004

/-- An index of the owner, one of the platform, and an object of the endorsement hierarchy. -/
def mixedArea : NvState where
  user :=
    [.index ownerIndex [0, 0], .index platformIndex [0, 0],
      .evict 0x81010001 (nvObjectToBuffer noHashStates zeroLayout 7 (endorsementSealedObject.evicted 0x81010001))]

theorem mixedArea_reachable : NvReachable noHashStates zeroLayout mixedArea := by
  have hindex {s s' : NvState} (i : NvIndex) (hs : NvReachable noHashStates zeroLayout s)
      (htype : i.publicArea.nvIndex.getType = TpmHandle.htNvIndex) (hordinary : i.isCounter = false)
      (hfree : i.publicArea.nvIndex ∉ s.user.map NvEntry.handle) (h : nvDefineIndex s i [0, 0] = .ok s') :
      NvReachable noHashStates zeroLayout s' :=
    .step hs (.defineIndex htype (fun hc => absurd (hordinary.symm.trans hc) Bool.false_ne_true) hfree h)
  have howner : NvReachable noHashStates zeroLayout { user := [.index ownerIndex [0, 0]] } :=
    hindex ownerIndex (.init (s := {}) ⟨rfl, rfl⟩) (by decide) rfl (by simp) rfl
  have hplatform : NvReachable noHashStates zeroLayout
      { user := [.index ownerIndex [0, 0], .index platformIndex [0, 0]] } :=
    hindex platformIndex howner (by decide) rfl (by decide) rfl
  have hstorable : Storable endorsementSealedObject := ⟨rfl, rfl, rfl⟩
  have htype : TpmHandle.getType 0x81010001 = TpmHandle.htPersistent := by decide
  refine .step hplatform (.addEvict 7 hstorable htype (by decide) ?_)
  unfold nvAddEvictObject
  exact if_pos (by decide)

/-- The flush of the owner deletes the owner's index and leaves the rest. -/
theorem nvFlushHierarchy_exact_owner :
    ∃ s', nvFlushHierarchy .owner mixedArea = .ok s' ∧ s'.user = mixedArea.user.drop 1 ∧
      FlushedExactly noHashStates zeroLayout (.default 7) {} .owner mixedArea s' := by
  obtain ⟨s', hf⟩ := nvFlushHierarchy_total (h := .owner) mixedArea_reachable.wellFormed (Or.inl rfl)
  refine ⟨s', hf, ?_, ?_⟩
  · rw [nvFlushHierarchy_user hf]
    rfl
  refine (nvFlushHierarchy_exact_iff mixedArea_reachable (by decide)).2 (Or.inr ?_) s' hf
  intro handle record he _ x hx
  obtain ⟨rfl, rfl⟩ : handle = 0x81010001 ∧ record = _ := by simpa [mixedArea] using he
  obtain ⟨y, hy, hattr⟩ := nvReadObject_blob (.default 7) 7 {} (endorsementSealedObject.evicted 0x81010001) rfl ⟨rfl, rfl⟩ rfl
  rw [hy] at hx
  cases hx
  rw [hattr]
  rfl

end PqcTpm
