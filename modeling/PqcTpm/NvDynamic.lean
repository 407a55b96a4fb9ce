import PqcTpm.Lib.RestartScan
import PqcTpm.Lib.Transition
import PqcTpm.AnyObject

/-!
# The user NV area

`NVDynamic.c`: the list of NV Indices and persistent objects, the two formats a
persistent object is stored in, and the deletion of a hierarchy. The list is kept
as a list of entries and the octets of each persistent object are kept as octets,
since `NvFlushHierarchy` looks at them without decoding them.
-/
namespace PqcTpm
open ByteCodec

/-! ## Entries -/

/-- `TPMS_NV_PUBLIC`. -/
structure NvPublic where
  nvIndex : TpmHandle
  nameAlg : HashAlg
  attributes : UInt32
  authPolicy : Tpm2bDigest
  dataSize : Nat
  deriving DecidableEq

/-- `NV_INDEX`. -/
structure NvIndex where
  publicArea : NvPublic
  authValue : Tpm2bAuth
  deriving DecidableEq

namespace NvIndex

def isAttribute (i : NvIndex) (bit : Nat) : Bool := i.publicArea.attributes.toNat.testBit bit

def orderly (i : NvIndex) : Bool := i.isAttribute 26
def written (i : NvIndex) : Bool := i.isAttribute 29
def platformCreate (i : NvIndex) : Bool := i.isAttribute 30

/-- `IsNvCounterIndex`: the `TPM_NT` field is 1. -/
def isCounter (i : NvIndex) : Bool := i.publicArea.attributes.toNat / 16 % 16 == 1

end NvIndex

/-- An entry of the list: an index with the data kept behind it, or a persistent object. -/
inductive NvEntry
  | index (i : NvIndex) (data : Bytes)
  | evict (handle : TpmHandle) (record : Bytes)
  deriving DecidableEq

def NvEntry.handle : NvEntry → TpmHandle
  | .index i _ => i.publicArea.nvIndex
  | .evict handle _ => handle

/-- An entry of `s_indexOrderlyRam`. -/
structure RamEntry where
  handle : TpmHandle
  attributes : UInt32
  data : Bytes
  deriving DecidableEq

/-- The user NV area, the RAM copy of the orderly data, `s_maxCounter` and `g_NvStatus`
(`none` when NV is available). -/
structure NvState where
  user : List NvEntry := []
  ram : List RamEntry := []
  maxCounter : Nat := 0
  nvStatus : Option TpmRc := none

/-! ## Persistent objects in their two formats -/

/-- How the compiler lays out `RSA3072_OBJECT` behind its first field. -/
structure RawLayout where
  write : Object → Bytes
  write_length : ∀ o, (write o).length = 2596
  read : Bytes → Object

section
variable {σ : Type} (hs : HashStateCodec σ) (L : RawLayout)

/-- `OBJECT_To_Buffer_As_RSA3072_OBJECT`: the attribute word comes first, in machine order. -/
def objectToBufferAsRsa3072 (o : Object) : Bytes := le 4 o.attributes.toWord ++ L.write o

/-- `RSA3072_OBJECT_To_OBJECT`. -/
def rsa3072ToObject (buf : Bytes) : Object :=
  let a := ObjectAttributes.ofWord (fromLe (buf.take 4))
  { L.read (buf.drop 4) with attributes := a, hierarchy := a.hierarchy }

/-- The `switch` of `NvObjectToBuffer`: which objects are written as `ANY_OBJECT`. -/
def marshalAnyObject (level : Nat) (a : TpmtPublic) : Bool :=
  match a with
  | { type := .rsa, parameters := q, .. } => decide (2 ≤ level) || decide (3072 < RsaParms.keyBits q)
  | { type := .ecc, .. } | { type := .keyedhash, .. } | { type := .symcipher, .. } => decide (2 ≤ level)
  | { type := .mldsa, .. } | { type := .hashMldsa, .. } | { type := .mlkem, .. } => true

/-- `NvObjectToBuffer`. -/
def nvObjectToBuffer (level : Nat) (o : Object) : Bytes :=
  if marshalAnyObject level o.publicArea then AnyObject.marshal hs level (.object o)
  else objectToBufferAsRsa3072 L o

/-- `NvReadObject` with `NvObjectFromBuffer`: first as `ANY_OBJECT`, which has to use up the whole
record, else as a plain `RSA3072_OBJECT`. -/
def nvReadObject (p : RuntimeProfile) (r : Residue) (record : Bytes) : Except Fault (AnyObject σ) :=
  match AnyObject.unmarshal hs p r record with
  | .ok (x, []) => .ok x
  | .ok (_, _ :: _) => .error .failureMode
  | .error (.rc _) =>
      if record.length = 2600 then .ok (.object (rsa3072ToObject L record)) else .error .failureMode
  | .error f => .error f

end

/-! ## Adding entries -/

/-- What an entry takes up: the link, the handle, and the rest of `NV_INDEX` or the record. -/
def NvEntry.entrySize : NvEntry → Nat
  | .index _ data => 4 + 148 + data.length
  | .evict _ record => 8 + record.length

def NvEntry.isCounter : NvEntry → Bool
  | .index i _ => i.isCounter
  | .evict _ _ => false

def NvEntry.isEvict : NvEntry → Bool
  | .index _ _ => false
  | .evict _ _ => true

/-- `NvGetFreeBytes` between `NV_USER_DYNAMIC` and `NV_MEMORY_SIZE`. -/
def NvState.freeBytes (s : NvState) : Nat := 176832 - (5632 + (s.user.map NvEntry.entrySize).sum)

/-- `NvTestSpace`; the subtractions reserve room for 7 persistent objects and 8 counters. -/
def nvTestSpace (s : NvState) (size : Nat) (isIndex isCounter : Bool) : Bool :=
  let forEvict := if isIndex then (7 - s.user.countP NvEntry.isEvict) * 4824 else 0
  let forCounter := if !isIndex || !isCounter then (8 - s.user.countP NvEntry.isCounter) * 160 else 0
  decide (size + (4 + 12 + forEvict + forCounter) ≤ s.freeBytes)

/-- `NvAdd`, with `entry` as it lies in memory afterwards. -/
def nvAdd (s : NvState) (entry : NvEntry) : Except Fault NvState :=
  match s.nvStatus with
  | some rc => .error (.rc rc)
  | none => .ok { s with user := s.user ++ [entry] }

/-- What `NvAddEvictObject` sets for the time of the write. -/
def Object.evicted (o : Object) (evictHandle : TpmHandle) : Object :=
  { o with attributes.evict := true, evictHandle }

/-- `NvAddEvictObject` with `NvWriteObject`. -/
def nvAddEvictObject {σ : Type} (hs : HashStateCodec σ) (L : RawLayout) (level : Nat) (s : NvState)
    (evictHandle : TpmHandle) (o : Object) : Except Fault NvState :=
  let record := nvObjectToBuffer hs L level (o.evicted evictHandle)
  if nvTestSpace s (record.length + 4) false false then nvAdd s (.evict evictHandle record)
  else .error (.of .nvSpace)

/-- `NvRamTestSpaceIndex`. -/
def nvRamTestSpaceIndex (s : NvState) (size : Nat) : Bool :=
  decide (12 + size ≤ 512 - (s.ram.map fun r => 12 + r.data.length).sum)

/-- Data of orderly indices takes no room in NV. -/
def NvIndex.nvDataSize (i : NvIndex) : Nat := if i.orderly then 0 else i.publicArea.dataSize

/-- `NvDefineIndex`; `data` is what the memory behind the new entry happens to hold. -/
def nvDefineIndex (s : NvState) (i : NvIndex) (data : Bytes) : Except Fault NvState :=
  if !nvTestSpace s (148 + i.nvDataSize) true i.isCounter then .error (.of .nvSpace)
  else if i.orderly && !nvRamTestSpaceIndex s i.publicArea.dataSize then .error (.of .nvSpace)
  else do
    let s ← nvAdd s (.index i (data.take i.nvDataSize))
    if i.orderly then
      pure { s with ram := s.ram ++ [⟨i.publicArea.nvIndex, i.publicArea.attributes,
        List.replicate i.publicArea.dataSize 0⟩] }
    else pure s

/-! ## Deleting entries -/

/-- `NvDelete` of the `k`-th entry. -/
def nvDelete (s : NvState) (k : Nat) : Except Fault NvState :=
  match s.nvStatus with
  | some rc => .error (.rc rc)
  | none => .ok { s with user := s.user.eraseIdx k }

/-- `NvRamGetIndex`. -/
def NvState.ramGetIndex (s : NvState) (handle : TpmHandle) : Option RamEntry :=
  s.ram.find? fun r => r.handle == handle

/-- `NvGetUINT64Data` of an index that has been written. -/
def nvGetUint64Data (s : NvState) (i : NvIndex) (data : Bytes) : Except Fault Nat :=
  if i.orderly then
    match s.ramGetIndex i.publicArea.nvIndex with
    | some r => if 8 ≤ r.data.length then .ok (fromBe (r.data.take 8)) else .error .failureMode
    | none => .error .failureMode
  else if 8 ≤ i.publicArea.dataSize then .ok (fromBe (data.take 8)) else .error .failureMode

/-- `NvDeleteRAM`. -/
def nvDeleteRam (s : NvState) (handle : TpmHandle) : Except Fault NvState :=
  if (s.ramGetIndex handle).isSome then
    .ok { s with ram := s.ram.eraseP fun r => r.handle == handle }
  else .error .failureMode

/-- A counter that goes away leaves its value in `s_maxCounter` (`NvUpdateMaxCount`). -/
def retireCounter (s : NvState) (i : NvIndex) (data : Bytes) : Except Fault NvState :=
  if i.isCounter && i.written then do
    let count ← nvGetUint64Data s i data
    pure { s with maxCounter := max s.maxCounter count }
  else pure s

/-- `NvDeleteIndex` of the `k`-th entry, which holds `i` and `data`. -/
def nvDeleteIndex (s : NvState) (k : Nat) (i : NvIndex) (data : Bytes) : Except Fault NvState := do
  let s ← retireCounter s i data
  let s ← nvDelete s k
  if i.orderly then nvDeleteRam s i.publicArea.nvIndex else pure s

/-! ## `NvFlushHierarchy` -/

/-- The attribute bit of a hierarchy. -/
def ObjectAttributes.inHierarchy (a : ObjectAttributes) : Hierarchy → Bool
  | .platform => a.ppsHierarchy
  | .owner => a.spsHierarchy
  | .endorsement => a.epsHierarchy
  | .null => false

/-- The four octets `NvFlushHierarchy` reads at `offsetof(OBJECT, attributes)`. -/
def peekAttributes (record : Bytes) : ObjectAttributes := .ofWord (fromLe (record.take 4))

/-- The loop body: `none` to go on, or the state after a deletion. -/
def flushEntry (h : Hierarchy) (s : NvState) (k : Nat) (e : NvEntry) : Except Fault (Option NvState) :=
  if e.handle.getType = TpmHandle.htNvIndex then
    match e with
    | .index i data =>
        if h = .endorsement ∨ h = .platform then .ok none
        else if i.platformCreate then .ok none
        else some <$> nvDeleteIndex s k i data
    | .evict _ _ => .error .failureMode
  else if e.handle.getType = TpmHandle.htPersistent then
    match e with
    | .evict _ record =>
        if (peekAttributes record).inHierarchy h then some <$> nvDelete s k else .ok none
    | .index _ _ => .error .failureMode
  else .error .failureMode

/-- A deletion takes exactly the entry at `k` out of the list. -/
theorem nvDelete_ok {s s' : NvState} {k : Nat} (h : nvDelete s k = .ok s') :
    s.nvStatus = none ∧ s' = { s with user := s.user.eraseIdx k } := by
  unfold nvDelete at h
  split at h
  · cases h
  · exact ⟨‹_›, (Except.ok.inj h).symm⟩

theorem nvDeleteRam_ok {s s' : NvState} {handle : TpmHandle} (h : nvDeleteRam s handle = .ok s') :
    s' = { s with ram := s.ram.eraseP fun r => r.handle == handle } := by
  unfold nvDeleteRam at h
  split at h
  · exact (Except.ok.inj h).symm
  · cases h

theorem retireCounter_ok {s s' : NvState} {i : NvIndex} {data : Bytes}
    (h : retireCounter s i data = .ok s') :
    s'.user = s.user ∧ s'.ram = s.ram ∧ s'.nvStatus = s.nvStatus := by
  unfold retireCounter at h
  split at h
  · obtain ⟨count, -, h⟩ := Transition.bind_eq_ok h
    cases h
    exact ⟨rfl, rfl, rfl⟩
  · cases h
    exact ⟨rfl, rfl, rfl⟩

/-- `NvDeleteIndex` takes its entry out of the list and, for an orderly index, the entry of the
same handle out of the RAM copy. -/
theorem nvDeleteIndex_ok {s s' : NvState} {k : Nat} {i : NvIndex} {data : Bytes}
    (h : nvDeleteIndex s k i data = .ok s') :
    s.nvStatus = none ∧ s'.nvStatus = none ∧ s'.user = s.user.eraseIdx k ∧
      s'.ram = if i.orderly then s.ram.eraseP fun r => r.handle == i.publicArea.nvIndex else s.ram := by
  unfold nvDeleteIndex at h
  obtain ⟨t, ht, h⟩ := Transition.bind_eq_ok h
  obtain ⟨huser, hram, hstatus⟩ := retireCounter_ok ht
  obtain ⟨u, hu, h⟩ := Transition.bind_eq_ok h
  obtain ⟨hst, rfl⟩ := nvDelete_ok hu
  rw [← hstatus, ← huser, ← hram]
  split at h
  · obtain rfl := nvDeleteRam_ok h
    exact ⟨hst, hst, rfl, (if_pos ‹_›).symm⟩
  · cases h
    exact ⟨hst, hst, rfl, (if_neg ‹_›).symm⟩

/-- Which entries the loop body deletes: it trusts the octets it peeks at. -/
def flushes (h : Hierarchy) : NvEntry → Bool
  | .index i _ => !decide (h = .endorsement ∨ h = .platform) && !i.platformCreate
  | .evict _ record => (peekAttributes record).inHierarchy h

/-- Everything a round of the loop can do without failing. -/
theorem flushEntry_ok {h : Hierarchy} {s : NvState} {k : Nat} {e : NvEntry} {o : Option NvState}
    (hf : flushEntry h s k e = .ok o) :
    (flushes h e = false ∧ o = none) ∨
    (∃ i data s', e = .index i data ∧ flushes h e = true ∧ o = some s' ∧
      nvDeleteIndex s k i data = .ok s') ∨
    (∃ handle record s', e = .evict handle record ∧ flushes h e = true ∧ o = some s' ∧
      nvDelete s k = .ok s') := by
  unfold flushEntry at hf
  cases e with
  | index i data =>
      simp only at hf
      split at hf
      · split at hf
        · exact Or.inl ⟨by simp [flushes, *], (Except.ok.inj hf).symm⟩
        · split at hf
          · exact Or.inl ⟨by simp [flushes, *], (Except.ok.inj hf).symm⟩
          · obtain ⟨s', hs', rfl⟩ := Transition.map_eq_ok hf
            exact Or.inr (Or.inl ⟨i, data, s', rfl, by simp_all [flushes], rfl, hs'⟩)
      · split at hf <;> cases hf
  | evict handle record =>
      simp only at hf
      split at hf
      · cases hf
      · split at hf
        · split at hf
          · obtain ⟨s', hs', rfl⟩ := Transition.map_eq_ok hf
            exact Or.inr (Or.inr ⟨handle, record, s', rfl, by simpa [flushes], rfl, hs'⟩)
          · exact Or.inl ⟨Bool.eq_false_of_not_eq_true ‹_›, (Except.ok.inj hf).symm⟩
        · cases hf

theorem flushEntry_erase {h : Hierarchy} {s s' : NvState} {k : Nat} {e : NvEntry}
    (hf : flushEntry h s k e = .ok (some s')) : s'.user = s.user.eraseIdx k := by
  rcases flushEntry_ok hf with ⟨-, ho⟩ | ⟨i, data, t, -, -, ho, hd⟩ | ⟨handle, record, t, -, -, ho, hd⟩
  · cases ho
  · cases ho
    exact (nvDeleteIndex_ok hd).2.2.1
  · cases ho
    rw [(nvDelete_ok hd).2]

/-- The `while` loop of `NvFlushHierarchy`. -/
def flushScan (h : Hierarchy) : RestartScan NvState NvEntry Fault where
  entries := NvState.user
  body := flushEntry h
  erase := flushEntry_erase

/-- `NvFlushHierarchy`. -/
def nvFlushHierarchy (h : Hierarchy) (s : NvState) : Except Fault NvState := (flushScan h).scan s

theorem nvFlushHierarchy_user {h : Hierarchy} {s s' : NvState} (hf : nvFlushHierarchy h s = .ok s') :
    s'.user = s.user.filter fun e => !flushes h e := by
  refine RestartScan.scan_entries (flushScan h) (d := flushes h) ?_ ?_ hf
  · intro s k e t hb
    rcases flushEntry_ok hb with ⟨-, ho⟩ | ⟨_, _, _, -, hd, -, -⟩ | ⟨_, _, _, -, hd, -, -⟩
    · cases ho
    · exact hd
    · exact hd
  · intro s k e hb
    rcases flushEntry_ok hb with ⟨hd, -⟩ | ⟨_, _, _, -, -, ho, -⟩ | ⟨_, _, _, -, -, ho, -⟩
    · exact hd
    · cases ho
    · cases ho

end PqcTpm
