import PqcTpm.NvLifecycle
import PqcTpm.OrderlyRam

/-!
# The octets of the user NV area

`NvNext`, `NvAdd`, `NvDelete` and the writers of `NVDynamic.c` on the memory that `NVMem.c` keeps. The list of
entries that the rest of NV works on is what the octets from `NV_USER_DYNAMIC` on stand for.
-/
namespace PqcTpm
open ByteCodec ByteMemory Transition

/-! ## The memory -/

def nvUserDynamic : Nat := 5632

/-- `NV_MEMORY_SIZE`, which `s_evictNvEnd` is set to. -/
def nvMemorySize : Nat := 176832

/-- NV memory with what else `NVDynamic.c` looks at. -/
structure NvMemory where
  octets : Memory
  maxCounter : Nat := 0
  nvStatus : Option TpmRc := none

/-- `NV_ENTRY_HEADER`. -/
structure NvEntryHeader where
  size : Nat
  handle : TpmHandle
  deriving DecidableEq

namespace NvMemory

section
variable (M : NvMemory)

/-- `NvRead`; its assertion excludes the last octet of the memory. -/
def read (a n : Nat) : Except Fault Bytes :=
  if a + n < nvMemorySize then .ok (load M.octets a n) else .error .failureMode

/-- `NvWrite`. -/
def write (a : Nat) (bs : Bytes) : NvMemory :=
  if a + bs.length ≤ nvMemorySize then { M with octets := store M.octets a bs } else M

/-- `NvNext`: the header at the iterator, which goes on by its size. -/
def next (iter : Nat) : Except Fault (Option NvEntryHeader) := do
  let header ← M.read iter 8
  let size := fromLe (header.take 4)
  pure (if size = 0 then none else some ⟨size, UInt32.ofNat (fromLe (header.drop 4))⟩)

/-- `NvNext` until there is no entry left: where the entries begin, and where the list ends. Every entry takes
at least an octet. -/
def walk : Except Fault (List Nat × Nat) :=
  ByteMemory.walk (fun iter => (·.map NvEntryHeader.size) <$> M.next iter) nvMemorySize nvUserDynamic

/-- `NvGetEnd`. -/
def getEnd : Except Fault Nat := (·.2) <$> M.walk

/-- The handle of the entry that begins at `a`. -/
def handleAt (a : Nat) : TpmHandle := UInt32.ofNat (fromLe (load M.octets (a + 4) 4))

/-- The attributes of the index that begins at `a`, as `NvReadNvIndexAttributes` finds them. -/
def attributesAt (a : Nat) : UInt32 := UInt32.ofNat (fromLe (load M.octets (a + 4 + 8) 4))

/-- `NvFindHandle`: the address of the handle. -/
def findHandle (handle : TpmHandle) : Except Fault (Option Nat) :=
  (fun found => (found.1.find? fun a => M.handleAt a == handle).map (· + 4)) <$> M.walk

/-- `NvCapGetPersistentNumber`. -/
def persistentNumber : Except Fault Nat :=
  (fun found => found.1.countP fun a => (M.handleAt a).getType == TpmHandle.htPersistent) <$> M.walk

/-- `NvCapGetCounterNumber`. -/
def counterNumber : Except Fault Nat :=
  (fun found => found.1.countP fun a =>
    (M.handleAt a).getType == TpmHandle.htNvIndex && (M.attributesAt a).toNat / 16 % 16 == 1) <$> M.walk

/-- `NvTestSpace`. -/
def testSpace (size : Nat) (isIndex isCounter : Bool) : Except Fault Bool := do
  let remainBytes := nvMemorySize - (← M.getEnd)
  let persistentNum ← M.persistentNumber
  let counterNum ← M.counterNumber
  let reserved := 4 + 12 + (if isIndex then (7 - persistentNum) * 4824 else 0) +
    (if !isIndex || !isCounter then (8 - counterNum) * 160 else 0)
  pure (decide (reserved < remainBytes ∧ size ≤ remainBytes ∧ size + reserved ≤ remainBytes))

/-- `NvWriteNvListEnd`. -/
def writeListEnd (last : Nat) : Except Fault NvMemory :=
  if last + 12 ≤ nvMemorySize then .ok (M.write last (le 4 0 ++ le 8 M.maxCounter)) else .error .failureMode

/-- `NvAdd`; for an index there is no handle apart from the one in `entity`, and `totalSize` counts the data. -/
def add (totalSize : Nat) (handle : Option TpmHandle) (entity : Bytes) : Except Fault NvMemory :=
  match M.nvStatus with
  | some rc => .error (.rc rc)
  | none => do
      let newAddr ← M.getEnd
      let (M, nextAddr) :=
        match handle with
        | some handle => (M.write (newAddr + 4) (le 4 handle.toNat), newAddr + 4 + 4)
        | none => (M, newAddr + 4)
      let M := M.write nextAddr entity
      let nextAddr := nextAddr + totalSize
      let M := M.write newAddr (le 4 (nextAddr - newAddr))
      M.writeListEnd nextAddr

/-- `_plat__NvMemoryMove` to a lower address. -/
def moveDown (src dst n : Nat) : NvMemory :=
  { M with octets := fillZero (move M.octets src dst n) (dst + n) (src - dst) }

/-- `_plat__NvMemoryClear`. -/
def memoryClear (a n : Nat) : NvMemory := M.write a (List.replicate n 0xff)

/-- The move in `NvDelete`, with its assertion. -/
def closeGap (entryRef nextAddr endRef : Nat) : Except Fault NvMemory :=
  if nextAddr < endRef then
    if entryRef < nextAddr then .ok (M.moveDown nextAddr entryRef (endRef - nextAddr)) else .error .failureMode
  else .ok M

/-- `NvDelete` of the entry whose handle lies at `entityRef`. -/
def delete (entityRef : Nat) : Except Fault NvMemory := do
  let entryRef := entityRef - 4
  let endRef ← M.getEnd
  match M.nvStatus with
  | some rc => .error (.rc rc)
  | none => do
      let entrySize := fromLe (← M.read entryRef 4)
      let nextAddr := entryRef + entrySize
      let M ← M.closeGap entryRef nextAddr endRef
      let M ← M.writeListEnd (endRef - entrySize)
      pure (M.memoryClear (endRef - entrySize + 12) entrySize)

/-- `NvConditionallyWrite`. -/
def conditionallyWrite (a : Nat) (bs : Bytes) : Except Fault NvMemory :=
  if nvMemorySize < a + bs.length then .error .failureMode
  else if load M.octets a bs.length = bs then .ok M
  else match M.nvStatus with
    | some rc => .error (.rc rc)
    | none => .ok (M.write a bs)

/-- The data size of the index that begins at `a`. -/
def dataSizeAt (a : Nat) : Nat := fromLe (load M.octets (a + 4 + 78) 2)

/-- `NvGetMaxCount`. -/
def getMaxCount : Except Fault Nat := do
  let last ← M.getEnd
  fromLe <$> M.read (last + 4) 8

/-- The entry that begins at `a`, as `NvReadNvIndexInfo` and `NvReadObject` take it from the memory. -/
def entryAt (a : Nat) : Option NvEntry :=
  let size := fromLe (load M.octets a 4)
  if (M.handleAt a).getType = TpmHandle.htNvIndex then do
    let nameAlg ← hashSelector.all.find? fun h => hashSelector.algId h == fromLe (load M.octets (a + 8) 2)
    let authPolicy := load M.octets (a + 18) (fromLe (load M.octets (a + 16) 2))
    let authValue := load M.octets (a + 86) (fromLe (load M.octets (a + 84) 2))
    pure (.index ⟨⟨M.handleAt a, nameAlg, M.attributesAt a, .ofBytes authPolicy, M.dataSizeAt a⟩, .ofBytes authValue⟩
      (load M.octets (a + 152) (size - 152)))
  else some (.evict (M.handleAt a) (load M.octets (a + 8) (size - 8)))

/-- All entries, in the order in which `NvNext` comes by them. -/
def entries : Except Fault (List (Option NvEntry)) := (fun found => found.1.map M.entryAt) <$> M.walk

/-! ### The writers -/

/-- `NvDefineIndex`, as far as this area is concerned. -/
def defineIndex (i : NvIndex) (octets : Bytes) : Except Fault NvMemory := do
  if ← M.testSpace (148 + i.nvDataSize) true i.isCounter then M.add (148 + i.nvDataSize) none octets
  else .error (.of .nvSpace)

/-- `NvWriteObject`. -/
def writeObject (evictHandle : TpmHandle) (record : Bytes) : Except Fault NvMemory := do
  if ← M.testSpace (record.length + 4) false false then M.add record.length (some evictHandle) record
  else .error (.of .nvSpace)

/-- `NvWriteNvIndexAttributes`. -/
def writeNvIndexAttributes (locator : Nat) (attributes : UInt32) : Except Fault NvMemory :=
  M.conditionallyWrite (locator + 8) (le 4 attributes.toNat)

/-- `NvWriteIndexAuth`. -/
def writeIndexAuth (locator : Nat) (auth : Tpm2bAuth) : Except Fault NvMemory :=
  M.conditionallyWrite (locator + 80) (le 2 auth.buffer.length ++ auth.buffer)

/-- `NvWriteIndexData` of an index whose data is not in RAM. -/
def writeIndexData (locator : Nat) (offset : Nat) (new : Bytes) : Except Fault NvMemory := do
  let attributes := M.attributesAt (locator - 4)
  let dataSize := M.dataSizeAt (locator - 4)
  if dataSize < offset + new.length then .error .failureMode
  else do
    let M ←
      if attributes.toNat.testBit 29 then pure M
      else do
        let M ← M.writeNvIndexAttributes locator (TpmaNv.set attributes 29)
        pure (if attributes.toNat / 16 % 16 = 0 ∧ new.length < dataSize then M.memoryClear (locator + 148) dataSize else M)
    M.conditionallyWrite (locator + 148 + offset) new

end

end NvMemory

/-! ## What the octets stand for -/

/-- `NV_INDEX` as it lies in memory, with what the compiler leaves between the fields and what lies in the
buffers behind their contents. -/
structure StoredIndex where
  index : NvIndex
  gap : Bytes
  policyRest : Bytes
  authRest : Bytes
  gap_length : gap.length = 2
  policyRest_length : index.publicArea.authPolicy.buffer.length + policyRest.length = 64
  authRest_length : index.authValue.buffer.length + authRest.length = 66

namespace StoredIndex

/-- The fields before the attributes. -/
def front (x : StoredIndex) : Bytes :=
  le 4 x.index.publicArea.nvIndex.toNat ++ (le 2 (hashSelector.algId x.index.publicArea.nameAlg) ++ x.gap)

/-- The fields between the attributes and `authValue`. -/
def middle (x : StoredIndex) : Bytes :=
  le 2 x.index.publicArea.authPolicy.buffer.length ++ (x.index.publicArea.authPolicy.buffer ++ (x.policyRest ++
    le 2 x.index.publicArea.dataSize))

def octets (x : StoredIndex) : Bytes :=
  x.front ++ (le 4 x.index.publicArea.attributes.toNat ++ (x.middle ++
    (le 2 x.index.authValue.buffer.length ++ (x.index.authValue.buffer ++ x.authRest))))

@[simp] theorem front_length (x : StoredIndex) : x.front.length = 8 := by
  simp [front, x.gap_length]

@[simp] theorem middle_length (x : StoredIndex) : x.middle.length = 68 := by
  have hrest := x.policyRest_length
  simp only [middle, List.length_append, le_length]
  omega

@[simp] theorem octets_length (x : StoredIndex) : x.octets.length = 148 := by
  have hrest := x.authRest_length
  simp only [octets, List.length_append, le_length, front_length, middle_length]
  omega

end StoredIndex

/-- An entry with all its octets. -/
inductive RawEntry
  | index (x : StoredIndex) (data : Bytes)
  | evict (handle : TpmHandle) (record : Bytes)

namespace RawEntry

def entry : RawEntry → NvEntry
  | .index x data => .index x.index data
  | .evict handle record => .evict handle record

def size (r : RawEntry) : Nat := r.entry.entrySize

/-- What lies behind the link. -/
def body : RawEntry → Bytes
  | .index x data => x.octets ++ data
  | .evict handle record => le 4 handle.toNat ++ record

def octets (r : RawEntry) : Bytes := le 4 r.size ++ r.body

theorem size_ge (r : RawEntry) : 8 ≤ r.size := by
  cases r <;> simp only [size, entry, NvEntry.entrySize] <;> omega

@[simp] theorem octets_length (r : RawEntry) : r.octets.length = r.size := by
  cases r <;> simp only [octets, body, size, entry, NvEntry.entrySize, List.length_append, le_length,
    StoredIndex.octets_length] <;> omega

theorem body_handle (r : RawEntry) : ∃ rest, r.body = le 4 r.entry.handle.toNat ++ rest := by
  cases r with
  | index x data =>
      simp only [body, StoredIndex.octets, StoredIndex.front, List.append_assoc]
      exact ⟨_, rfl⟩
  | evict handle record => exact ⟨record, rfl⟩

end RawEntry

theorem raw_length (es : List RawEntry) : (es.flatMap RawEntry.octets).length = (es.map RawEntry.size).sum := by
  simp [List.length_flatMap]

theorem raw_length_le (es : List RawEntry) : 8 * es.length ≤ (es.map RawEntry.size).sum := by
  induction es with
  | nil => exact Nat.le_refl 0
  | cons r es ih =>
      have hsize := r.size_ge
      rw [List.length_cons, List.map_cons, List.sum_cons]
      omega

namespace NvMemory

theorem next_eq {M : NvMemory} {a : Nat} (hroom : a + 8 < nvMemorySize) :
    M.next a = .ok (if fromLe (load M.octets a 4) = 0 then none
      else some ⟨fromLe (load M.octets a 4), M.handleAt a⟩) := by
  have hread : M.read a 8 = .ok (load M.octets a 4 ++ load M.octets (a + 4) 4) := by
    rw [NvMemory.read, if_pos hroom, ← load_add]
  have htake : (load M.octets a 4 ++ load M.octets (a + 4) 4).take 4 = load M.octets a 4 :=
    List.take_left' (load_length _ _ _)
  have hdrop : (load M.octets a 4 ++ load M.octets (a + 4) 4).drop 4 = load M.octets (a + 4) 4 :=
    List.drop_left' (load_length _ _ _)
  rw [NvMemory.next, hread]
  change (Except.ok (if fromLe ((load M.octets a 4 ++ load M.octets (a + 4) 4).take 4) = 0 then none
    else some ⟨fromLe ((load M.octets a 4 ++ load M.octets (a + 4) 4).take 4),
      UInt32.ofNat (fromLe ((load M.octets a 4 ++ load M.octets (a + 4) 4).drop 4))⟩) :
    Except Fault (Option NvEntryHeader)) = _
  rw [htake, hdrop]
  rfl

/-- The entries lie one behind the other, and behind them the terminator with the counter. -/
structure Represents (M : NvMemory) (es : List RawEntry) (saved : Nat) : Prop where
  holds : Holds M.octets nvUserDynamic (es.flatMap RawEntry.octets ++ (le 4 0 ++ le 8 saved))
  fits : nvUserDynamic + (es.map RawEntry.size).sum + 12 ≤ nvMemorySize

/-- Where the list ends. -/
def endOf (es : List RawEntry) : Nat := nvUserDynamic + (es.map RawEntry.size).sum

namespace Represents
variable {M : NvMemory} {es : List RawEntry} {saved : Nat}

theorem entry {xs ys : List RawEntry} {r : RawEntry} (h : Represents M (xs ++ r :: ys) saved) :
    Holds M.octets (endOf xs) (r.octets ++ (ys.flatMap RawEntry.octets ++ (le 4 0 ++ le 8 saved))) := by
  have hholds := h.holds
  rw [List.flatMap_append, List.flatMap_cons, List.append_assoc, List.append_assoc] at hholds
  have hright := hholds.right
  rwa [raw_length] at hright

theorem entry_fits {xs ys : List RawEntry} {r : RawEntry} (h : Represents M (xs ++ r :: ys) saved) :
    endOf xs + r.size + (ys.map RawEntry.size).sum + 12 ≤ nvMemorySize := by
  have hfits := h.fits
  rw [List.map_append, List.map_cons, List.sum_append, List.sum_cons] at hfits
  unfold endOf
  omega

theorem terminator (h : Represents M es saved) : Holds M.octets (endOf es) (le 4 0 ++ le 8 saved) := by
  have hright := h.holds.right
  rwa [raw_length] at hright

theorem header {xs ys : List RawEntry} {r : RawEntry} (h : Represents M (xs ++ r :: ys) saved) :
    fromLe (load M.octets (endOf xs) 4) = r.size ∧ M.handleAt (endOf xs) = r.entry.handle := by
  have hfits := h.entry_fits
  have hlt : r.size < 256 ^ 4 := by
    have hmemory : nvMemorySize < 256 ^ 4 := by decide
    omega
  obtain ⟨rest, hbody⟩ := r.body_handle
  have hentry := h.entry
  rw [RawEntry.octets, hbody, List.append_assoc, List.append_assoc] at hentry
  have hhandle := hentry.right
  rw [le_length] at hhandle
  refine ⟨Holds.word hentry hlt, ?_⟩
  rw [handleAt, Holds.word hhandle (UInt32.toNat_lt _), UInt32.ofNat_toNat]

theorem next_entry {xs ys : List RawEntry} {r : RawEntry} (h : Represents M (xs ++ r :: ys) saved) :
    M.next (endOf xs) = .ok (some ⟨r.size, r.entry.handle⟩) := by
  have hfits := h.entry_fits
  have hsize := r.size_ge
  obtain ⟨hlink, hhandle⟩ := h.header
  rw [next_eq (by omega), hlink, hhandle, if_neg (by omega)]

theorem next_end (h : Represents M es saved) : M.next (endOf es) = .ok none := by
  have hfits : endOf es + 12 ≤ nvMemorySize := h.fits
  have hlink : fromLe (load M.octets (endOf es) 4) = 0 := Holds.word h.terminator (by decide)
  rw [next_eq (by omega), hlink, if_pos rfl]

theorem linked_from {xs ys : List RawEntry} (h : Represents M (xs ++ ys) saved) :
    Linked (fun iter => (·.map NvEntryHeader.size) <$> M.next iter) RawEntry.size (endOf xs) ys := by
  induction ys generalizing xs with
  | nil =>
      rw [List.append_nil] at h
      rw [Linked, h.next_end]
      rfl
  | cons r ys ih =>
      refine ⟨?_, ?_⟩
      · change (·.map NvEntryHeader.size) <$> M.next (endOf xs) = _
        rw [h.next_entry]
        rfl
      · have happ : Represents M ((xs ++ [r]) ++ ys) saved := by rwa [List.append_assoc]
        have hrest := ih happ
        rwa [endOf, List.map_append, List.sum_append, List.map_singleton, List.sum_singleton, ← Nat.add_assoc]
          at hrest

/-- `NvNext` visits every entry once, and ends. -/
theorem walk_eq (h : Represents M es saved) :
    M.walk = .ok (starts RawEntry.size nvUserDynamic es, endOf es) := by
  have happ : Represents M ([] ++ es) saved := h
  have hfuel : es.length < nvMemorySize := by
    have hlen := raw_length_le es
    have hfits := h.fits
    have hstart : 0 < nvUserDynamic := by decide
    omega
  exact walk_of_linked happ.linked_from hfuel

theorem getEnd_eq (h : Represents M es saved) : M.getEnd = .ok (endOf es) := by
  rw [getEnd, h.walk_eq]
  rfl

/-! ### Searching and counting -/

theorem find_eq {xs ys : List RawEntry} {r : RawEntry} (h : Represents M (xs ++ r :: ys) saved)
    (hfirst : ∀ x ∈ xs, x.entry.handle ≠ r.entry.handle) :
    M.findHandle r.entry.handle = .ok (some (endOf xs + 4)) := by
  have hfind := starts_find RawEntry.size nvUserDynamic xs r ys (fun a => M.handleAt a == r.entry.handle)
    (fun x => x.entry.handle == r.entry.handle) ?_ (fun x hx => beq_false_of_ne (hfirst x hx)) (beq_self_eq_true _)
  · rw [findHandle, h.walk_eq]
    change Except.ok (Option.map _ (List.find? _ _)) = _
    rw [hfind]
    rfl
  · intro zs e zs' hsplit
    rw [hsplit] at h
    exact congrArg (· == r.entry.handle) h.header.2

theorem find_none (h : Represents M es saved) {handle : TpmHandle} (hno : ∀ e ∈ es, e.entry.handle ≠ handle) :
    M.findHandle handle = .ok none := by
  have hmap := starts_map RawEntry.size nvUserDynamic es (fun a => M.handleAt a == handle)
    (fun e => e.entry.handle == handle) fun xs r ys hsplit => by
      subst hsplit
      exact congrArg (· == handle) h.header.2
  have hfind : (starts RawEntry.size nvUserDynamic es).find? (fun a => M.handleAt a == handle) = none := by
    rw [List.find?_eq_none]
    intro a ha hhandle
    have hmem : true ∈ (starts RawEntry.size nvUserDynamic es).map fun a => M.handleAt a == handle :=
      List.mem_map.mpr ⟨a, ha, hhandle⟩
    rw [hmap] at hmem
    obtain ⟨e, he, heq⟩ := List.mem_map.mp hmem
    exact hno e he (beq_iff_eq.mp heq)
  rw [findHandle, h.walk_eq]
  change Except.ok (Option.map _ (List.find? _ _)) = _
  rw [hfind]
  rfl

theorem countP_starts {f : Nat → Bool} {g : RawEntry → Bool}
    (hfg : ∀ xs r ys, es = xs ++ r :: ys → f (endOf xs) = g r) :
    (starts RawEntry.size nvUserDynamic es).countP f = es.countP g := by
  have hmap := starts_map RawEntry.size nvUserDynamic es f g hfg
  have hcount := congrArg (List.countP id) hmap
  rw [List.countP_map, List.countP_map] at hcount
  exact hcount

theorem index_octets {xs ys : List RawEntry} {x : StoredIndex} {data : Bytes}
    (h : Represents M (xs ++ .index x data :: ys) saved) :
    Holds M.octets (endOf xs + 4) (x.octets ++ (data ++ (ys.flatMap RawEntry.octets ++ (le 4 0 ++ le 8 saved)))) := by
  have hentry := h.entry
  rw [RawEntry.octets, RawEntry.body, List.append_assoc, List.append_assoc] at hentry
  have hright := hentry.right
  rwa [le_length] at hright

theorem attributes_word {xs ys : List RawEntry} {x : StoredIndex} {data : Bytes}
    (h : Represents M (xs ++ .index x data :: ys) saved) :
    fromLe (load M.octets (endOf xs + 4 + 8) 4) = x.index.publicArea.attributes.toNat := by
  have hoctets := h.index_octets
  rw [StoredIndex.octets, List.append_assoc] at hoctets
  have hright := hoctets.right
  rw [StoredIndex.front_length, List.append_assoc] at hright
  exact Holds.word hright (UInt32.toNat_lt _)

theorem attributes_eq {xs ys : List RawEntry} {x : StoredIndex} {data : Bytes}
    (h : Represents M (xs ++ .index x data :: ys) saved) :
    M.attributesAt (endOf xs) = x.index.publicArea.attributes := by
  rw [attributesAt, h.attributes_word, UInt32.ofNat_toNat]

theorem dataSize_eq {xs ys : List RawEntry} {x : StoredIndex} {data : Bytes}
    (h : Represents M (xs ++ .index x data :: ys) saved) (hsize : x.index.publicArea.dataSize < 2 ^ 16) :
    M.dataSizeAt (endOf xs) = x.index.publicArea.dataSize := by
  have hoctets := h.index_octets
  rw [StoredIndex.octets, StoredIndex.middle, List.append_assoc] at hoctets
  have hright := hoctets.right
  rw [StoredIndex.front_length, List.append_assoc] at hright
  have hmiddle := hright.right
  simp only [List.append_assoc] at hmiddle
  have hrest := hmiddle.right.right.right
  have hpolicy := x.policyRest_length
  simp only [le_length] at hrest
  rw [show endOf xs + 4 + 8 + 4 + 2 + x.index.publicArea.authPolicy.buffer.length + x.policyRest.length =
    endOf xs + 4 + 78 by omega] at hrest
  rw [dataSizeAt, Holds.word hrest hsize]

/-- The fields that are octets, and the data. -/
theorem fields_eq {xs ys : List RawEntry} {x : StoredIndex} {data : Bytes}
    (h : Represents M (xs ++ .index x data :: ys) saved) :
    fromLe (load M.octets (endOf xs + 8) 2) = hashSelector.algId x.index.publicArea.nameAlg ∧
      load M.octets (endOf xs + 18) (fromLe (load M.octets (endOf xs + 16) 2)) = x.index.publicArea.authPolicy.buffer ∧
      load M.octets (endOf xs + 86) (fromLe (load M.octets (endOf xs + 84) 2)) = x.index.authValue.buffer ∧
      load M.octets (endOf xs + 152) data.length = data := by
  have hpolicy := x.policyRest_length
  have hauth := x.authRest_length
  have hall := h.index_octets
  have hdata : Holds M.octets (endOf xs + 152) data := by
    simpa only [x.octets_length, Nat.add_assoc, Nat.reduceAdd] using hall.right.left
  have hoctets := hall.left
  rw [StoredIndex.octets] at hoctets
  have hname : Holds M.octets (endOf xs + 8) (le 2 (hashSelector.algId x.index.publicArea.nameAlg) ++ x.gap) := by
    simpa only [le_length, Nat.add_assoc, Nat.reduceAdd] using Holds.right hoctets.left
  have hmiddle : Holds M.octets (endOf xs + 16) (x.middle ++
      (le 2 x.index.authValue.buffer.length ++ (x.index.authValue.buffer ++ x.authRest))) := by
    simpa only [StoredIndex.front_length, le_length, Nat.add_assoc, Nat.reduceAdd] using hoctets.right.right
  have hlast : Holds M.octets (endOf xs + 84)
      (le 2 x.index.authValue.buffer.length ++ (x.index.authValue.buffer ++ x.authRest)) := by
    simpa only [StoredIndex.middle_length, Nat.add_assoc, Nat.reduceAdd] using hmiddle.right
  have hfirst := hmiddle.left
  rw [StoredIndex.middle] at hfirst
  have hfirst' : Holds M.octets (endOf xs + 18) x.index.publicArea.authPolicy.buffer := by
    simpa only [le_length, Nat.add_assoc, Nat.reduceAdd] using hfirst.right.left
  have hlast' : Holds M.octets (endOf xs + 86) x.index.authValue.buffer := by
    simpa only [le_length, Nat.add_assoc, Nat.reduceAdd] using hlast.right.left
  refine ⟨Holds.word hname (hashSelector.lt _), ?_, ?_, hdata⟩
  · rw [Holds.word hfirst (by omega)]
    exact hfirst'
  · rw [Holds.word hlast (by omega)]
    exact hlast'

/-! ### Counting -/

/-- The handles say which kind of entry it is, and an index has as much data behind it as it takes. -/
structure Sound (r : RawEntry) : Prop where
  type : r.entry.handle.getType = if r.entry.isEvict then TpmHandle.htPersistent else TpmHandle.htNvIndex
  data : ∀ x data, r = .index x data → data.length = x.index.nvDataSize ∧ x.index.publicArea.dataSize < 2 ^ 16

theorem Sound.isPersistent {r : RawEntry} (hr : Sound r) :
    (r.entry.handle.getType == TpmHandle.htPersistent) = r.entry.isEvict := by
  rw [hr.type]
  cases r.entry.isEvict <;> rfl

theorem Sound.isIndex {r : RawEntry} (hr : Sound r) :
    (r.entry.handle.getType == TpmHandle.htNvIndex) = !r.entry.isEvict := by
  rw [hr.type]
  cases r.entry.isEvict <;> rfl

/-- An entry is read back. -/
theorem entryAt_eq {xs ys : List RawEntry} {r : RawEntry} (h : Represents M (xs ++ r :: ys) saved) (hr : Sound r) :
    M.entryAt (endOf xs) = some r.entry := by
  obtain ⟨hlink, hhandle⟩ := h.header
  have htype := hr.type
  rw [entryAt, hlink, hhandle]
  cases r with
  | index x data =>
      obtain ⟨hname, hpolicy, hauth, hdata⟩ := h.fields_eq
      have hfind : (hashSelector.all.find? fun k => hashSelector.algId k == hashSelector.algId x.index.publicArea.nameAlg) =
          some x.index.publicArea.nameAlg := by
        cases x.index.publicArea.nameAlg <;> rfl
      have hsize : (RawEntry.index x data).size - 152 = data.length := Nat.add_sub_cancel_left _ _
      rw [hname, hpolicy, hauth, h.attributes_eq, h.dataSize_eq (hr.data x data rfl).2, hfind, hsize, hdata]
      refine (if_pos htype).trans ?_
      change some (NvEntry.index ⟨⟨_, _, _, Tpm2b.ofBytes _, _⟩, Tpm2b.ofBytes _⟩ data) = _
      rw [Tpm2b.ofBytes_buffer, Tpm2b.ofBytes_buffer]
      rfl
  | evict handle record =>
      have hentry := h.entry.left
      rw [RawEntry.octets] at hentry
      have hbody := hentry.right
      rw [RawEntry.body] at hbody
      have hrecord : Holds M.octets (endOf xs + 8) record := by
        simpa only [le_length, Nat.add_assoc, Nat.reduceAdd] using hbody.right
      have hsize : (RawEntry.evict handle record).size - 8 = record.length := Nat.add_sub_cancel_left _ _
      have hne : (RawEntry.evict handle record).entry.handle.getType ≠ TpmHandle.htNvIndex := by
        rw [htype]
        exact show TpmHandle.htPersistent ≠ TpmHandle.htNvIndex by decide
      refine (if_neg hne).trans ?_
      rw [hsize, hrecord]
      rfl

theorem entries_eq (h : Represents M es saved) (hsound : ∀ r ∈ es, Sound r) :
    M.entries = .ok (es.map fun r => some r.entry) := by
  rw [entries, h.walk_eq]
  refine congrArg Except.ok (starts_map RawEntry.size nvUserDynamic es M.entryAt (fun r => some r.entry) ?_)
  rintro xs r ys rfl
  exact h.entryAt_eq (hsound r (List.mem_append_right _ List.mem_cons_self))

theorem persistentNumber_eq (h : Represents M es saved) (hsound : ∀ r ∈ es, Sound r) :
    M.persistentNumber = .ok ((es.map RawEntry.entry).countP NvEntry.isEvict) := by
  rw [persistentNumber, h.walk_eq, List.countP_map]
  change Except.ok (List.countP _ (starts RawEntry.size nvUserDynamic es)) = _
  rw [countP_starts (g := NvEntry.isEvict ∘ RawEntry.entry)]
  rintro xs r ys rfl
  rw [h.header.2]
  exact (hsound r (List.mem_append_right _ List.mem_cons_self)).isPersistent

theorem counterNumber_eq (h : Represents M es saved) (hsound : ∀ r ∈ es, Sound r) :
    M.counterNumber = .ok ((es.map RawEntry.entry).countP NvEntry.isCounter) := by
  rw [counterNumber, h.walk_eq, List.countP_map]
  change Except.ok (List.countP _ (starts RawEntry.size nvUserDynamic es)) = _
  rw [countP_starts (g := NvEntry.isCounter ∘ RawEntry.entry)]
  rintro xs r ys rfl
  rw [h.header.2, (hsound r (List.mem_append_right _ List.mem_cons_self)).isIndex]
  cases r with
  | index x data =>
      rw [h.attributes_eq]
      rfl
  | evict handle record => rfl

/-- `NvTestSpace` finds the room that the list has. -/
theorem testSpace_eq (h : Represents M es saved) (hsound : ∀ r ∈ es, Sound r) {s : NvState}
    (hs : s.user = es.map RawEntry.entry) {size : Nat} (hpos : 0 < size) (isIndex isCounter : Bool) :
    M.testSpace size isIndex isCounter = .ok (nvTestSpace s size isIndex isCounter) := by
  have hend : nvUserDynamic + (s.user.map NvEntry.entrySize).sum = endOf es := by
    rw [hs, List.map_map]
    rfl
  have hfits : endOf es + 12 ≤ nvMemorySize := h.fits
  have hfree : s.freeBytes = nvMemorySize - endOf es := by
    rw [← hend]
    rfl
  rw [testSpace, h.getEnd_eq, h.persistentNumber_eq hsound, h.counterNumber_eq hsound, ← hs]
  change Except.ok (decide _) = Except.ok (decide _)
  rw [hfree]
  congr 2
  exact propext ⟨fun hroom => by omega, fun hroom => by omega⟩

end Represents

/-! ### Changing the list -/

section Writing
variable {M M' : NvMemory} {es : List RawEntry} {saved : Nat}

theorem write_of_fits {a : Nat} {bs : Bytes} (hfits : a + bs.length ≤ nvMemorySize) :
    M.write a bs = { M with octets := store M.octets a bs } := if_pos hfits

theorem writeListEnd_of_fits {last : Nat} (hfits : last + 12 ≤ nvMemorySize) :
    M.writeListEnd last = .ok { M with octets := store M.octets last (le 4 0 ++ le 8 M.maxCounter) } := by
  rw [writeListEnd, if_pos hfits, write_of_fits (by simpa using hfits)]

theorem represents_append {r : RawEntry} {saved' : Nat} (h : Represents M es saved)
    (hkept : ∀ i, i < endOf es → M'.octets i = M.octets i) (hentry : Holds M'.octets (endOf es) r.octets)
    (hend : Holds M'.octets (endOf es + r.size) (le 4 0 ++ le 8 saved'))
    (hroom : endOf es + r.size + 12 ≤ nvMemorySize) : Represents M' (es ++ [r]) saved' := by
  have hfront : Holds M'.octets nvUserDynamic (es.flatMap RawEntry.octets) := by
    apply h.holds.left.congr
    intro i _ hi
    rw [raw_length] at hi
    exact hkept i hi
  refine ⟨?_, ?_⟩
  · rw [List.flatMap_append, List.flatMap_singleton, List.append_assoc]
    refine Holds.append_iff.mpr ⟨hfront, ?_⟩
    rw [raw_length]
    refine Holds.append_iff.mpr ⟨hentry, ?_⟩
    rw [r.octets_length]
    exact hend
  · have hsum : ((es ++ [r]).map RawEntry.size).sum = (es.map RawEntry.size).sum + r.size := by simp
    unfold endOf at hroom
    omega

/-- What is left alone beside the octets. -/
structure SameStatus (M M' : NvMemory) : Prop where
  maxCounter : M'.maxCounter = M.maxCounter
  nvStatus : M'.nvStatus = M.nvStatus

theorem store_before (m : Memory) {a i : Nat} (bs : Bytes) (hi : i < a) : store m a bs i = m i :=
  if_neg (by omega)

/-- `NvAdd` of an index; the data behind it is what the memory holds. -/
theorem add_index (h : Represents M es saved) (hnv : M.nvStatus = none) (x : StoredIndex) {n : Nat}
    (hroom : endOf es + (152 + n) + 12 ≤ nvMemorySize) :
    ∃ M', M.add (148 + n) none x.octets = .ok M' ∧
      Represents M' (es ++ [.index x (load M.octets (endOf es + 152) n)]) M.maxCounter ∧ SameStatus M M' := by
  generalize hr : RawEntry.index x (load M.octets (endOf es + 152) n) = r
  have hsize : r.size = 152 + n := by
    rw [← hr, RawEntry.size, RawEntry.entry, NvEntry.entrySize, load_length]
  have hoctets : r.octets = le 4 (152 + n) ++ (x.octets ++ load M.octets (endOf es + 152) n) := by
    rw [RawEntry.octets, hsize, ← hr, RawEntry.body]
  rw [add, hnv]
  dsimp only
  rw [h.getEnd_eq]
  dsimp only [bind, Except.bind]
  rw [write_of_fits (by simp; omega), write_of_fits (by simp; omega), writeListEnd_of_fits (by omega)]
  rw [show endOf es + 4 + (148 + n) - endOf es = 152 + n by omega,
    show endOf es + 4 + (148 + n) = endOf es + (152 + n) by omega]
  refine ⟨_, rfl, represents_append h ?_ ?_ ?_ (by omega), ⟨rfl, rfl⟩⟩
  · intro i hi
    dsimp only
    rw [store_before _ _ (by omega), store_before _ _ hi, store_before _ _ (by omega)]
  · have hbehind : Holds M.octets (endOf es + 4 + x.octets.length) (load M.octets (endOf es + 152) n) := by
      rw [x.octets_length, Holds, load_length]
    have hbody : Holds (store M.octets (endOf es + 4) x.octets) (endOf es + 4)
        (x.octets ++ load M.octets (endOf es + 152) n) :=
      Holds.append_iff.mpr ⟨Holds.store_self _ _ _, hbehind.store_disjoint (.inr (Nat.le_refl _))⟩
    rw [hoctets]
    apply Holds.store_disjoint _ (.inl (by simp; omega))
    exact Holds.append_iff.mpr ⟨Holds.store_self _ _ _,
      by simpa using hbody.store_disjoint (.inr (by simp))⟩
  · rw [hsize]
    exact Holds.store_self _ _ _

/-- `NvAdd` of a persistent object, with its handle. -/
theorem add_evict (h : Represents M es saved) (hnv : M.nvStatus = none) (handle : TpmHandle) (record : Bytes)
    (hroom : endOf es + (8 + record.length) + 12 ≤ nvMemorySize) :
    ∃ M', M.add record.length (some handle) record = .ok M' ∧
      Represents M' (es ++ [.evict handle record]) M.maxCounter ∧ SameStatus M M' := by
  generalize hr : RawEntry.evict handle record = r
  have hsize : r.size = 8 + record.length := by rw [← hr, RawEntry.size, RawEntry.entry, NvEntry.entrySize]
  have hoctets : r.octets = le 4 (8 + record.length) ++ (le 4 handle.toNat ++ record) := by
    rw [RawEntry.octets, hsize, ← hr, RawEntry.body]
  rw [add, hnv]
  dsimp only
  rw [h.getEnd_eq]
  dsimp only [bind, Except.bind]
  rw [write_of_fits (by simp; omega), write_of_fits (by omega), write_of_fits (by simp; omega),
    writeListEnd_of_fits (by omega)]
  rw [show endOf es + 4 + 4 + record.length - endOf es = 8 + record.length by omega,
    show endOf es + 4 + 4 + record.length = endOf es + (8 + record.length) by omega]
  refine ⟨_, rfl, represents_append h ?_ ?_ ?_ (by omega), ⟨rfl, rfl⟩⟩
  · intro i hi
    dsimp only
    rw [store_before _ _ (by omega), store_before _ _ hi, store_before _ _ (by omega), store_before _ _ (by omega)]
  · have hbody := (Holds.store_self M.octets (endOf es + 4) (le 4 handle.toNat)).append record
    rw [le_length] at hbody
    rw [hoctets]
    apply Holds.store_disjoint _ (.inl (by simp; omega))
    exact Holds.append_iff.mpr ⟨Holds.store_self _ _ _, by simpa using hbody.store_disjoint (.inr (by simp))⟩
  · rw [hsize]
    exact Holds.store_self _ _ _

/-- `NvDelete` takes an entry out, and what lies behind it moves up. -/
theorem delete_entry {xs ys : List RawEntry} {r : RawEntry} (h : Represents M (xs ++ r :: ys) saved)
    (hnv : M.nvStatus = none) :
    ∃ M', M.delete (endOf xs + 4) = .ok M' ∧ Represents M' (xs ++ ys) M.maxCounter ∧ SameStatus M M' := by
  have hfits := h.entry_fits
  have hsize := r.size_ge
  have hend : endOf (xs ++ r :: ys) = endOf xs + r.size + (ys.map RawEntry.size).sum := by
    simp [endOf, Nat.add_assoc]
  have hend' : endOf (xs ++ ys) = endOf xs + (ys.map RawEntry.size).sum := by
    simp [endOf, Nat.add_assoc]
  have hlength : nvUserDynamic + ((xs ++ ys).flatMap RawEntry.octets).length = endOf (xs ++ ys) := by
    rw [raw_length]
    rfl
  -- the entries, once what lies behind is moved; if there is nothing it is the memory as it was
  have hmoved : Holds (move M.octets (endOf xs + r.size) (endOf xs) (ys.map RawEntry.size).sum) nvUserDynamic
      ((xs ++ ys).flatMap RawEntry.octets) := by
    have hholds := h.holds.left
    rw [List.flatMap_append, List.flatMap_cons] at hholds
    have hremoved := hholds.remove
    rw [raw_length, raw_length, r.octets_length, ← List.flatMap_append] at hremoved
    exact hremoved
  have hread : M.read (endOf xs) 4 = .ok (load M.octets (endOf xs) 4) := if_pos (by omega)
  rw [delete, h.getEnd_eq]
  dsimp only [bind, Except.bind]
  rw [hnv]
  dsimp only
  rw [Nat.add_sub_cancel, hread]
  dsimp only
  rw [h.header.1, hend]
  have hafter : ∃ octets : Memory, M.closeGap (endOf xs) (endOf xs + r.size)
        (endOf xs + r.size + (ys.map RawEntry.size).sum) = .ok { M with octets } ∧
      Holds octets nvUserDynamic ((xs ++ ys).flatMap RawEntry.octets) := by
    rw [closeGap]
    by_cases hlast : (ys.map RawEntry.size).sum = 0
    · rw [if_neg (by omega)]
      rw [hlast, move, load, store_nil] at hmoved
      exact ⟨M.octets, rfl, hmoved⟩
    · rw [if_pos (by omega), if_pos (by omega), Nat.add_sub_cancel_left]
      exact ⟨_, rfl, hmoved.store_disjoint (.inl (by omega))⟩
  obtain ⟨octets, hclose, hfront⟩ := hafter
  rw [hclose]
  dsimp only
  rw [show endOf xs + r.size + (ys.map RawEntry.size).sum - r.size = endOf (xs ++ ys) by omega,
    writeListEnd_of_fits (by omega)]
  dsimp only [pure, Except.pure, memoryClear]
  rw [write_of_fits (by simp; omega)]
  refine ⟨_, rfl, ⟨?_, ?_⟩, ⟨rfl, rfl⟩⟩
  · apply Holds.store_disjoint _ (.inl (by simp only [List.length_append, le_length]; omega))
    refine Holds.append_iff.mpr ⟨hfront.store_disjoint (.inl (by omega)), ?_⟩
    rw [hlength]
    exact Holds.store_self _ _ _
  · change endOf (xs ++ ys) + 12 ≤ nvMemorySize
    omega

/-! ### Changing an entry -/

theorem overwrite {xs ys : List RawEntry} {r r' : RawEntry} {front old new back : Bytes}
    (h : Represents M (xs ++ r :: ys) saved) (hr : r.octets = front ++ (old ++ back))
    (hr' : r'.octets = front ++ (new ++ back)) (hlen : new.length = old.length)
    (hM : M'.octets = store M.octets (endOf xs + front.length) new) : Represents M' (xs ++ r' :: ys) saved := by
  have hsize : r'.size = r.size := by
    rw [← r'.octets_length, ← r.octets_length, hr, hr']
    simp only [List.length_append, hlen]
  have hsum : ((xs ++ r' :: ys).map RawEntry.size).sum = ((xs ++ r :: ys).map RawEntry.size).sum := by
    simp [hsize]
  refine ⟨?_, ?_⟩
  · have hholds := h.holds
    rw [List.flatMap_append, List.flatMap_cons, hr] at hholds
    simp only [List.append_assoc] at hholds
    rw [← List.append_assoc (xs.flatMap RawEntry.octets)] at hholds
    have hreplaced := hholds.replace hlen
    rw [List.length_append, raw_length, ← Nat.add_assoc] at hreplaced
    rw [hM, endOf, List.flatMap_append, List.flatMap_cons, hr']
    simpa only [List.append_assoc] using hreplaced
  · rw [hsum]
    exact h.fits

theorem part_fits {xs ys : List RawEntry} {r : RawEntry} {front old back : Bytes}
    (h : Represents M (xs ++ r :: ys) saved) (hr : r.octets = front ++ (old ++ back)) :
    endOf xs + front.length + old.length ≤ nvMemorySize := by
  have hfits := h.entry_fits
  have hlen := r.octets_length
  rw [hr] at hlen
  simp only [List.length_append] at hlen
  omega

/-- `NvConditionallyWrite` of a part of an entry. -/
theorem conditionallyWrite_entry {xs ys : List RawEntry} {r r' : RawEntry} {front old new back : Bytes}
    (h : Represents M (xs ++ r :: ys) saved) (hnv : M.nvStatus = none) (hr : r.octets = front ++ (old ++ back))
    (hr' : r'.octets = front ++ (new ++ back)) (hlen : new.length = old.length) :
    ∃ M', M.conditionallyWrite (endOf xs + front.length) new = .ok M' ∧ Represents M' (xs ++ r' :: ys) saved ∧
      SameStatus M M' := by
  have hfits := part_fits h hr
  rw [conditionallyWrite, if_neg (by omega)]
  by_cases hsame : load M.octets (endOf xs + front.length) new.length = new
  · rw [if_pos hsame]
    exact ⟨M, rfl, overwrite h hr hr' hlen (store_load hsame).symm, ⟨rfl, rfl⟩⟩
  · rw [if_neg hsame, hnv]
    dsimp only
    rw [write_of_fits (by omega)]
    exact ⟨_, rfl, overwrite h hr hr' hlen rfl, ⟨rfl, rfl⟩⟩

theorem conditionallyWrite_unavailable {a : Nat} {bs : Bytes} {rc : TpmRc} (hnv : M.nvStatus = some rc)
    (hfits : a + bs.length ≤ nvMemorySize) :
    M.conditionallyWrite a bs = if load M.octets a bs.length = bs then .ok M else .error (.rc rc) := by
  rw [conditionallyWrite, if_neg (by omega), hnv]

end Writing

end NvMemory

/-! ## Runs -/

namespace StoredIndex

def withAttributes (x : StoredIndex) (attributes : UInt32) : StoredIndex :=
  { x with index := x.index.withAttributes attributes }

theorem auth_rest (x : StoredIndex) (auth : Tpm2bAuth) :
    auth.buffer.length + ((x.index.authValue.buffer ++ x.authRest).drop auth.buffer.length).length = 66 := by
  have hrest := x.authRest_length
  have hsize := auth.size_le
  rw [List.length_drop, List.length_append]
  omega

/-- Octets of the old value stay behind the new one. -/
def withAuth (x : StoredIndex) (auth : Tpm2bAuth) : StoredIndex :=
  { x with
    index := { x.index with authValue := auth }
    authRest := (x.index.authValue.buffer ++ x.authRest).drop auth.buffer.length
    authRest_length := x.auth_rest auth }

end StoredIndex

/-- What is done to the list. An index or an object comes with the type that the handle has been checked for. -/
inductive NvMemoryEvent
  | defineIndex (x : StoredIndex) (type : x.index.publicArea.nvIndex.getType = TpmHandle.htNvIndex)
      (size : x.index.publicArea.dataSize < 2 ^ 16)
  | writeObject (handle : TpmHandle) (record : Bytes) (type : handle.getType = TpmHandle.htPersistent)
  | delete (handle : TpmHandle)
  | writeAttributes (handle : TpmHandle) (attributes : UInt32)
  | writeAuth (handle : TpmHandle) (auth : Tpm2bAuth)
  | writeData (handle : TpmHandle) (offset : Nat) (new : Bytes)
  | updateMaxCount (count : UInt64)
  | status (nvStatus : Option TpmRc)

namespace NvMemory

/-- `NvManufacture`, on a memory that holds anything. -/
def manufactured (octets : Memory) : NvMemory :=
  { octets := store octets nvUserDynamic (le 4 0 ++ le 8 0) }

/-- What is refused with a response code changes nothing. -/
def orKeep (M : NvMemory) : Except Fault NvMemory → Except Fault NvMemory
  | .error (.rc _) => .ok M
  | r => r

/-- A change of an index that is there. -/
def atIndex (M : NvMemory) (handle : TpmHandle) (f : Nat → Except Fault NvMemory) : Except Fault NvMemory := do
  if handle.getType = TpmHandle.htNvIndex then
    match ← M.findHandle handle with
    | some locator => M.orKeep (f locator)
    | none => pure M
  else pure M

/-- An event, with what the callers check. -/
def step (M : NvMemory) : NvMemoryEvent → Except Fault NvMemory
  | .defineIndex x _ _ => do
      match ← M.findHandle x.index.publicArea.nvIndex with
      | some _ => pure M
      | none => M.orKeep (M.defineIndex x.index x.octets)
  | .writeObject handle record _ => do
      match ← M.findHandle handle with
      | some _ => pure M
      | none => M.orKeep (M.writeObject handle record)
  | .delete handle => do
      match ← M.findHandle handle with
      | some locator => M.orKeep (M.delete locator)
      | none => pure M
  | .writeAttributes handle attributes =>
      M.atIndex handle fun locator =>
        -- no caller changes where the data is
        if attributes.toNat.testBit 26 = (M.attributesAt (locator - 4)).toNat.testBit 26 then
          M.writeNvIndexAttributes locator attributes
        else .ok M
  | .writeAuth handle auth => M.atIndex handle fun locator => M.writeIndexAuth locator auth
  | .writeData handle offset new =>
      M.atIndex handle fun locator =>
        if (M.attributesAt (locator - 4)).toNat.testBit 26 = true ∨ M.dataSizeAt (locator - 4) < offset + new.length then .ok M
        else M.writeIndexData locator offset new
  | .updateMaxCount count => .ok { M with maxCounter := max M.maxCounter count.toNat }
  | .status nvStatus => .ok { M with nvStatus }

def run (M : NvMemory) (events : List NvMemoryEvent) : Except Fault NvMemory := events.foldlM step M

end NvMemory

/-- A change of the index with a handle, on one entry. -/
def NvEntry.changed (h : TpmHandle) (f : NvIndex → Bytes → NvIndex × Bytes) : NvEntry → NvEntry
  | .index i data => if i.publicArea.nvIndex = h then .index (f i data).1 (f i data).2 else .index i data
  | .evict handle record => .evict handle record

theorem NvEntry.changed_of_ne {h : TpmHandle} {f : NvIndex → Bytes → NvIndex × Bytes} {e : NvEntry} (he : e.handle ≠ h) :
    e.changed h f = e := by
  cases e with
  | index i data => exact if_neg he
  | evict handle record => rfl

namespace NvDevice

theorem mapIndex_user (d : NvDevice) (h : TpmHandle) (f : NvIndex → Bytes → NvIndex × Bytes) :
    d.mapIndex h f = { d with nv := { d.nv with user := d.nv.user.map (NvEntry.changed h f) } } := by
  have huser : (d.mapIndex h f).nv.user = d.nv.user.map (NvEntry.changed h f) := by
    refine List.map_congr_left fun e _ => ?_
    cases e <;> rfl
  rw [← huser]
  rfl

/-- What `NvWriteIndexData` does to an index and its data. -/
def written (offset : Nat) (new : Bytes) (i : NvIndex) (data : Bytes) : NvIndex × Bytes :=
  if i.orderly = true ∨ i.publicArea.dataSize < offset + new.length then (i, data)
  else if i.written then (i, splice data offset new)
  else
    (i.withAttributes (TpmaNv.set i.publicArea.attributes 29),
      splice (if i.isOrdinary ∧ new.length < i.publicArea.dataSize then List.replicate data.length 0xff else data)
        offset new)

/-- A change that needs NV. -/
def ifAvailable (d : NvDevice) (d' : NvDevice) : NvDevice := if d.nv.nvStatus = none then d' else d

/-- The same events on the list; `residue` is what the memory behind it holds. -/
def listStep (d : NvDevice) (residue : Bytes) : NvMemoryEvent → NvDevice
  | .defineIndex x _ _ =>
      if d.nv.user.any fun e => e.handle == x.index.publicArea.nvIndex then d
      else if nvTestSpace d.nv (148 + x.index.nvDataSize) true x.index.isCounter then
        match nvAdd d.nv (.index x.index residue) with
        | .ok nv => { d with nv }.writeListEnd
        | .error _ => d
      else d
  | .writeObject handle record _ =>
      if d.nv.user.any fun e => e.handle == handle then d
      else if nvTestSpace d.nv (record.length + 4) false false then
        match nvAdd d.nv (.evict handle record) with
        | .ok nv => { d with nv }.writeListEnd
        | .error _ => d
      else d
  | .delete handle =>
      if d.nv.user.any fun e => e.handle == handle then
        match nvDelete d.nv (d.nv.user.findIdx fun e => e.handle == handle) with
        | .ok nv => { d with nv }.writeListEnd
        | .error _ => d
      else d
  | .writeAttributes handle attributes =>
      d.ifAvailable (d.mapIndex handle fun i data =>
        (if attributes.toNat.testBit 26 = i.orderly then i.withAttributes attributes else i, data))
  | .writeAuth handle auth => d.ifAvailable (d.mapIndex handle fun i data => ({ i with authValue := auth }, data))
  | .writeData handle offset new =>
      d.ifAvailable (d.mapIndex handle (written offset new))
  | .updateMaxCount count => { d with nv := { d.nv with maxCounter := max d.nv.maxCounter count.toNat } }
  | .status nvStatus => { d with nv := { d.nv with nvStatus } }

/-- Events on the list, each with what the memory behind it holds at that time. -/
def listRun (d : NvDevice) (events : List NvMemoryEvent) (residues : List Bytes) : NvDevice :=
  (events.zip residues).foldl (fun d p => d.listStep p.2 p.1) d

end NvDevice

namespace NvMemory

/-- The octets stand for the list. -/
structure StandsFor (M : NvMemory) (es : List RawEntry) (d : NvDevice) : Prop where
  represents : Represents M es d.savedMaxCounter
  user : d.nv.user = es.map RawEntry.entry
  sound : ∀ r ∈ es, Represents.Sound r
  nodup : (es.map fun r => r.entry.handle).Nodup
  maxCounter : M.maxCounter = d.nv.maxCounter
  nvStatus : M.nvStatus = d.nv.nvStatus
  counters : d.nv.maxCounter < 2 ^ 64 ∧ d.savedMaxCounter < 2 ^ 64

namespace StandsFor
variable {M M' : NvMemory} {es : List RawEntry} {d : NvDevice}

theorem manufactured (octets : Memory) : StandsFor (.manufactured octets) [] {} := by
  refine ⟨⟨Holds.store_self _ _ _, by decide⟩, rfl, fun r hr => ?_, List.nodup_nil, rfl, rfl, by decide, by decide⟩
  cases hr

/-- A handle is looked up: there is one entry of it, or none. -/
theorem lookup (h : StandsFor M es d) (handle : TpmHandle) :
    (∃ xs r ys, es = xs ++ r :: ys ∧ r.entry.handle = handle ∧ (∀ x ∈ xs, x.entry.handle ≠ handle) ∧
        (∀ y ∈ ys, y.entry.handle ≠ handle) ∧ M.findHandle handle = .ok (some (endOf xs + 4)) ∧
        (d.nv.user.any fun e => e.handle == handle) = true) ∨
      ((∀ r ∈ es, r.entry.handle ≠ handle) ∧ M.findHandle handle = .ok none ∧
        (d.nv.user.any fun e => e.handle == handle) = false) := by
  by_cases hmem : ∃ r ∈ es, r.entry.handle = handle
  · obtain ⟨r, hr, rfl⟩ := hmem
    obtain ⟨xs, ys, rfl⟩ := List.append_of_mem hr
    have hnodup := h.nodup
    rw [List.map_append, List.map_cons, List.nodup_append'] at hnodup
    obtain ⟨_, htail, hdisjoint⟩ := hnodup
    have hxs : ∀ x ∈ xs, x.entry.handle ≠ r.entry.handle := fun x hx heq =>
      hdisjoint (List.mem_map_of_mem hx) (heq ▸ List.mem_cons_self)
    have hys : ∀ y ∈ ys, y.entry.handle ≠ r.entry.handle := fun y hy heq =>
      (List.nodup_cons.mp htail).1 (heq ▸ List.mem_map_of_mem hy)
    refine .inl ⟨xs, r, ys, rfl, rfl, hxs, hys, h.represents.find_eq hxs, ?_⟩
    rw [h.user]
    simp
  · push Not at hmem
    refine .inr ⟨hmem, h.represents.find_none hmem, ?_⟩
    rw [h.user, List.any_eq_false]
    intro e he
    obtain ⟨r, hr, rfl⟩ := List.mem_map.mp he
    simpa using hmem r hr

theorem add (h : StandsFor M es d) {r : RawEntry} (hM : Represents M' (es ++ [r]) M.maxCounter)
    (hsame : SameStatus M M') (hnew : ∀ x ∈ es, x.entry.handle ≠ r.entry.handle) (hr : Represents.Sound r) :
    StandsFor M' (es ++ [r]) { d with nv := { d.nv with user := d.nv.user ++ [r.entry] } }.writeListEnd := by
  rw [h.maxCounter] at hM
  refine ⟨hM, ?_, ?_, ?_, hsame.maxCounter.trans h.maxCounter, hsame.nvStatus.trans h.nvStatus, h.counters.1,
    h.counters.1⟩
  · change d.nv.user ++ [r.entry] = _
    rw [h.user, List.map_append, List.map_singleton]
  · intro x hx
    rw [List.mem_append, List.mem_singleton] at hx
    obtain hx | rfl := hx
    · exact h.sound x hx
    · exact hr
  · rw [List.map_append, List.map_singleton, List.nodup_append']
    refine ⟨h.nodup, List.nodup_singleton _, fun handle hmem hhandle => ?_⟩
    rw [List.mem_singleton] at hhandle
    obtain ⟨x, hx, rfl⟩ := List.mem_map.mp hmem
    exact hnew x hx hhandle

theorem remove {xs ys : List RawEntry} {r : RawEntry} (h : StandsFor M (xs ++ r :: ys) d)
    (hM : Represents M' (xs ++ ys) M.maxCounter) (hsame : SameStatus M M')
    (hxs : ∀ x ∈ xs, x.entry.handle ≠ r.entry.handle) :
    StandsFor M' (xs ++ ys) { d with nv := { d.nv with
      user := d.nv.user.eraseIdx (d.nv.user.findIdx fun e : NvEntry => e.handle == r.entry.handle) } }.writeListEnd := by
  have hidx : (d.nv.user.findIdx fun e : NvEntry => e.handle == r.entry.handle) = (xs.map RawEntry.entry).length := by
    rw [h.user, List.map_append, List.map_cons, List.findIdx_append, List.findIdx_cons]
    have hall : (xs.map RawEntry.entry).findIdx (fun e : NvEntry => e.handle == r.entry.handle) = (xs.map RawEntry.entry).length := by
      apply List.findIdx_eq_length.mpr
      intro e he
      obtain ⟨x, hx, rfl⟩ := List.mem_map.mp he
      exact beq_false_of_ne (hxs x hx)
    rw [hall]
    simp
  rw [h.maxCounter] at hM
  refine ⟨hM, ?_, fun x hx => h.sound x ?_, ?_, hsame.maxCounter.trans h.maxCounter,
    hsame.nvStatus.trans h.nvStatus, h.counters.1, h.counters.1⟩
  · change d.nv.user.eraseIdx _ = _
    rw [hidx, h.user, List.map_append, List.map_cons, List.eraseIdx_append_of_length_le (Nat.le_refl _), Nat.sub_self,
      List.map_append]
    rfl
  · rw [List.mem_append] at hx ⊢
    exact hx.imp_right (List.mem_cons_of_mem r)
  · have hsub : (xs ++ ys).Sublist (xs ++ r :: ys) := (List.sublist_cons_self r ys).append_left xs
    exact h.nodup.sublist (hsub.map _)

theorem change {xs ys : List RawEntry} {r r' : RawEntry} {d' : NvDevice} (h : StandsFor M (xs ++ r :: ys) d)
    (hM : Represents M' (xs ++ r' :: ys) d.savedMaxCounter) (hsame : SameStatus M M')
    (hhandle : r'.entry.handle = r.entry.handle) (hr : Represents.Sound r')
    (hd : d' = { d with nv := { d.nv with user := (xs ++ r' :: ys).map RawEntry.entry } }) :
    StandsFor M' (xs ++ r' :: ys) d' := by
  subst hd
  refine ⟨hM, rfl, fun x hx => ?_, ?_, hsame.maxCounter.trans h.maxCounter, hsame.nvStatus.trans h.nvStatus,
    h.counters⟩
  · rw [List.mem_append, List.mem_cons] at hx
    obtain hx | rfl | hx := hx
    · exact h.sound x (List.mem_append_left _ hx)
    · exact hr
    · exact h.sound x (List.mem_append_right _ (List.mem_cons_of_mem _ hx))
  · have hnodup := h.nodup
    rw [List.map_append, List.map_cons] at hnodup ⊢
    rw [hhandle]
    exact hnodup

theorem mapIndex_eq {xs ys : List RawEntry} {x : StoredIndex} {data : Bytes}
    (h : StandsFor M (xs ++ .index x data :: ys) d) {f : NvIndex → Bytes → NvIndex × Bytes} {x' : StoredIndex}
    {data' : Bytes} (hf : f x.index data = (x'.index, data'))
    (hxs : ∀ y ∈ xs, y.entry.handle ≠ x.index.publicArea.nvIndex)
    (hys : ∀ y ∈ ys, y.entry.handle ≠ x.index.publicArea.nvIndex) :
    d.mapIndex x.index.publicArea.nvIndex f =
      { d with nv := { d.nv with user := (xs ++ .index x' data' :: ys).map RawEntry.entry } } := by
  have hkeep : ∀ zs : List RawEntry, (∀ z ∈ zs, z.entry.handle ≠ x.index.publicArea.nvIndex) →
      (zs.map RawEntry.entry).map (NvEntry.changed x.index.publicArea.nvIndex f) = zs.map RawEntry.entry := by
    intro zs hzs
    rw [List.map_map]
    exact List.map_congr_left fun z hz => NvEntry.changed_of_ne (hzs z hz)
  have hchanged : (RawEntry.index x data).entry.changed x.index.publicArea.nvIndex f = (RawEntry.index x' data').entry := by
    change (if _ then NvEntry.index (f x.index data).1 (f x.index data).2 else _) = _
    rw [if_pos rfl, hf]
    rfl
  rw [NvDevice.mapIndex_user, h.user, List.map_append, List.map_cons, List.map_append, List.map_cons, hkeep xs hxs,
    hkeep ys hys, hchanged, List.map_append, List.map_cons]

/-! ### Steps -/

theorem nvAdd_available {s : NvState} (hnv : s.nvStatus = none) (e : NvEntry) :
    nvAdd s e = .ok { s with user := s.user ++ [e] } := by
  cases s
  cases hnv
  rfl

theorem nvDelete_available {s : NvState} (hnv : s.nvStatus = none) (k : Nat) :
    nvDelete s k = .ok { s with user := s.user.eraseIdx k } := by
  cases s
  cases hnv
  rfl

theorem test_eq (h : StandsFor M es d) {size : Nat} (hpos : 0 < size) (isIndex isCounter : Bool) :
    M.testSpace size isIndex isCounter = .ok (nvTestSpace d.nv size isIndex isCounter) :=
  h.represents.testSpace_eq h.sound h.user hpos isIndex isCounter

theorem freeBytes_eq (h : StandsFor M es d) : d.nv.freeBytes = nvMemorySize - endOf es := by
  have hend : nvUserDynamic + (d.nv.user.map NvEntry.entrySize).sum = endOf es := by
    rw [h.user, List.map_map]
    rfl
  rw [← hend]
  rfl

/-- What `NvTestSpace` has found room for fits before the end of the memory, with its link and the terminator. -/
theorem room (h : StandsFor M es d) {size : Nat} {isIndex isCounter : Bool}
    (htest : nvTestSpace d.nv size isIndex isCounter = true) : endOf es + (4 + size) + 12 ≤ nvMemorySize := by
  have hfits : endOf es + 12 ≤ nvMemorySize := h.represents.fits
  have hroom := of_decide_eq_true htest
  rw [h.freeBytes_eq] at hroom
  omega

/-- The event succeeds on the octets, and they go on standing for the list. -/
def Follows (M : NvMemory) (d : NvDevice) (event : NvMemoryEvent) : Prop :=
  ∃ M' residue es', M.step event = .ok M' ∧ StandsFor M' es' (d.listStep residue event)

theorem defineIndex (h : StandsFor M es d) (x : StoredIndex)
    (type : x.index.publicArea.nvIndex.getType = TpmHandle.htNvIndex) (size : x.index.publicArea.dataSize < 2 ^ 16) :
    Follows M d (.defineIndex x type size) := by
  rw [Follows, NvMemory.step]
  simp only [NvDevice.listStep]
  obtain ⟨xs, r, ys, -, -, -, -, hfind, hany⟩ | ⟨hnew, hfind, hany⟩ := h.lookup x.index.publicArea.nvIndex
  · rw [hfind, hany]
    exact ⟨M, [], es, rfl, h⟩
  · rw [hfind, hany]
    dsimp only [bind, Except.bind]
    rw [NvMemory.defineIndex, h.test_eq (by omega)]
    cases htest : nvTestSpace d.nv (148 + x.index.nvDataSize) true x.index.isCounter with
    | false => exact ⟨M, [], es, rfl, h⟩
    | true =>
        cases hnv : d.nv.nvStatus with
        | some rc =>
            have hadd : M.add (148 + x.index.nvDataSize) none x.octets = .error (.rc rc) := by
              rw [NvMemory.add, h.nvStatus, hnv]
            refine ⟨M, [], es, ?_, ?_⟩
            · dsimp only [bind, Except.bind]
              rw [if_pos rfl, hadd]
              rfl
            · rw [if_neg Bool.false_ne_true, if_pos rfl, nvAdd, hnv]
              exact h
        | none =>
            have hroom := h.room htest
            obtain ⟨M', hadd, hM, hsame⟩ := add_index h.represents (h.nvStatus.trans hnv) x
              (n := x.index.nvDataSize) (by omega)
            refine ⟨M', load M.octets (endOf es + 152) x.index.nvDataSize,
              es ++ [.index x (load M.octets (endOf es + 152) x.index.nvDataSize)], ?_, ?_⟩
            · dsimp only [bind, Except.bind]
              rw [if_pos rfl, hadd]
              rfl
            · rw [if_neg Bool.false_ne_true, if_pos rfl, nvAdd_available hnv]
              refine h.add hM hsame hnew ⟨type, ?_⟩
              rintro _ _ ⟨⟩
              exact ⟨load_length _ _ _, size⟩

theorem writeObject (h : StandsFor M es d) (handle : TpmHandle) (record : Bytes)
    (type : handle.getType = TpmHandle.htPersistent) : Follows M d (.writeObject handle record type) := by
  rw [Follows, NvMemory.step]
  simp only [NvDevice.listStep]
  obtain ⟨xs, r, ys, -, -, -, -, hfind, hany⟩ | ⟨hnew, hfind, hany⟩ := h.lookup handle
  · rw [hfind, hany]
    exact ⟨M, [], es, rfl, h⟩
  · rw [hfind, hany]
    dsimp only [bind, Except.bind]
    rw [NvMemory.writeObject, h.test_eq (by omega)]
    cases htest : nvTestSpace d.nv (record.length + 4) false false with
    | false => exact ⟨M, [], es, rfl, h⟩
    | true =>
        cases hnv : d.nv.nvStatus with
        | some rc =>
            have hadd : M.add record.length (some handle) record = .error (.rc rc) := by
              rw [NvMemory.add, h.nvStatus, hnv]
            refine ⟨M, [], es, ?_, ?_⟩
            · dsimp only [bind, Except.bind]
              rw [if_pos rfl, hadd]
              rfl
            · rw [if_neg Bool.false_ne_true, if_pos rfl, nvAdd, hnv]
              exact h
        | none =>
            have hroom := h.room htest
            obtain ⟨M', hadd, hM, hsame⟩ := add_evict h.represents (h.nvStatus.trans hnv) handle record (by omega)
            refine ⟨M', [], es ++ [.evict handle record], ?_, ?_⟩
            · dsimp only [bind, Except.bind]
              rw [if_pos rfl, hadd]
              rfl
            · rw [if_neg Bool.false_ne_true, if_pos rfl, nvAdd_available hnv]
              exact h.add hM hsame hnew ⟨type, fun _ _ heq => by cases heq⟩

theorem delete (h : StandsFor M es d) (handle : TpmHandle) : Follows M d (.delete handle) := by
  rw [Follows, NvMemory.step]
  simp only [NvDevice.listStep]
  obtain ⟨xs, r, ys, rfl, rfl, hxs, -, hfind, hany⟩ | ⟨-, hfind, hany⟩ := h.lookup handle
  · rw [hfind, hany, if_pos rfl]
    dsimp only [bind, Except.bind]
    cases hnv : d.nv.nvStatus with
    | some rc =>
        have hdelete : M.delete (endOf xs + 4) = .error (.rc rc) := by
          rw [NvMemory.delete, h.represents.getEnd_eq]
          dsimp only [bind, Except.bind]
          rw [h.nvStatus, hnv]
        refine ⟨M, [], xs ++ r :: ys, ?_, ?_⟩
        · rw [hdelete]
          rfl
        · rw [nvDelete, hnv]
          exact h
    | none =>
        obtain ⟨M', hdelete, hM, hsame⟩ := delete_entry h.represents (h.nvStatus.trans hnv)
        refine ⟨M', [], xs ++ ys, ?_, ?_⟩
        · rw [hdelete]
          rfl
        · rw [nvDelete_available hnv]
          exact h.remove hM hsame hxs
  · rw [hfind, hany, if_neg Bool.false_ne_true]
    exact ⟨M, [], es, rfl, h⟩

/-! ### The writers -/

/-- An index is looked up for a change. -/
theorem atIndex (h : StandsFor M es d) (handle : TpmHandle) (f : Nat → Except Fault NvMemory) :
    (∃ xs x data ys, es = xs ++ .index x data :: ys ∧ x.index.publicArea.nvIndex = handle ∧
        (∀ y ∈ xs, y.entry.handle ≠ handle) ∧ (∀ y ∈ ys, y.entry.handle ≠ handle) ∧
        M.atIndex handle f = M.orKeep (f (endOf xs + 4))) ∨
      ((∀ x data, .index x data ∈ es → x.index.publicArea.nvIndex ≠ handle) ∧ M.atIndex handle f = .ok M) := by
  by_cases htype : handle.getType = TpmHandle.htNvIndex
  · obtain ⟨xs, r, ys, rfl, rfl, hxs, hys, hfind, -⟩ | ⟨hnew, hfind, -⟩ := h.lookup handle
    · cases r with
      | index x data =>
          refine .inl ⟨xs, x, data, ys, rfl, rfl, hxs, hys, ?_⟩
          rw [NvMemory.atIndex, if_pos htype, hfind]
          rfl
      | evict other record =>
          have hpersistent := (h.sound _ (List.mem_append_right _ List.mem_cons_self)).type
          rw [htype] at hpersistent
          exact absurd hpersistent (show TpmHandle.htNvIndex ≠ TpmHandle.htPersistent by decide)
    · refine .inr ⟨fun x data hx => hnew _ hx, ?_⟩
      rw [NvMemory.atIndex, if_pos htype, hfind]
      rfl
  · refine .inr ⟨fun x data hx heq => htype ?_, ?_⟩
    · rw [← heq]
      exact (h.sound _ hx).type
    · rw [NvMemory.atIndex, if_neg htype]
      rfl

theorem mapIndex_none (h : StandsFor M es d) {handle : TpmHandle} (f : NvIndex → Bytes → NvIndex × Bytes)
    (hno : ∀ x data, .index x data ∈ es → x.index.publicArea.nvIndex ≠ handle) : d.mapIndex handle f = d := by
  have hmap : d.nv.user.map (NvEntry.changed handle f) = d.nv.user := by
    rw [h.user, List.map_map]
    refine List.map_congr_left fun r hr => ?_
    cases r with
    | index x data => exact NvEntry.changed_of_ne (hno x data hr)
    | evict other record => rfl
  rw [NvDevice.mapIndex_user, hmap]

theorem mapIndex_same {xs ys : List RawEntry} {x : StoredIndex} {data : Bytes}
    (h : StandsFor M (xs ++ .index x data :: ys) d) {f : NvIndex → Bytes → NvIndex × Bytes}
    (hf : f x.index data = (x.index, data)) (hxs : ∀ y ∈ xs, y.entry.handle ≠ x.index.publicArea.nvIndex)
    (hys : ∀ y ∈ ys, y.entry.handle ≠ x.index.publicArea.nvIndex) : d.mapIndex x.index.publicArea.nvIndex f = d := by
  rw [h.mapIndex_eq hf hxs hys, ← h.user]

theorem ifAvailable_self (d : NvDevice) : d.ifAvailable d = d := by
  rw [NvDevice.ifAvailable, ite_self]

theorem ifAvailable_some {d' : NvDevice} {rc : TpmRc} (hnv : d.nv.nvStatus = some rc) : d.ifAvailable d' = d := by
  rw [NvDevice.ifAvailable, if_neg]
  rw [hnv]
  exact Option.some_ne_none rc

/-- A part of an index is written conditionally. -/
theorem written {xs ys : List RawEntry} {x x' : StoredIndex} {data data' front old new back : Bytes} {a : Nat}
    (h : StandsFor M (xs ++ .index x data :: ys) d) {f : NvIndex → Bytes → NvIndex × Bytes}
    (hxs : ∀ y ∈ xs, y.entry.handle ≠ x.index.publicArea.nvIndex)
    (hys : ∀ y ∈ ys, y.entry.handle ≠ x.index.publicArea.nvIndex)
    (hr : (RawEntry.index x data).octets = front ++ (old ++ back))
    (hr' : (RawEntry.index x' data').octets = front ++ (new ++ back)) (hlen : new.length = old.length)
    (ha : a = endOf xs + front.length) (hf : f x.index data = (x'.index, data'))
    (hhandle : x'.index.publicArea.nvIndex = x.index.publicArea.nvIndex)
    (hsound : Represents.Sound (.index x' data')) :
    ∃ M' es', M.orKeep (M.conditionallyWrite a new) = .ok M' ∧
      StandsFor M' es' (d.ifAvailable (d.mapIndex x.index.publicArea.nvIndex f)) := by
  subst ha
  cases hnv : d.nv.nvStatus with
  | none =>
      obtain ⟨M', hwrite, hM, hsame⟩ := conditionallyWrite_entry h.represents (h.nvStatus.trans hnv) hr hr' hlen
      rw [hwrite, NvDevice.ifAvailable, if_pos hnv]
      exact ⟨M', _, rfl, h.change hM hsame hhandle hsound (h.mapIndex_eq hf hxs hys)⟩
  | some rc =>
      have hfits := part_fits h.represents hr
      rw [conditionallyWrite_unavailable (h.nvStatus.trans hnv) (by omega), ifAvailable_some hnv]
      refine ⟨M, _, ?_, h⟩
      split <;> rfl

theorem octets_attributes (x : StoredIndex) (data : Bytes) (attributes : UInt32) :
    (RawEntry.index (x.withAttributes attributes) data).octets =
      (le 4 (RawEntry.index x data).size ++ x.front) ++ (le 4 attributes.toNat ++ (x.middle ++
        (le 2 x.index.authValue.buffer.length ++ (x.index.authValue.buffer ++ (x.authRest ++ data))))) := by
  simp only [RawEntry.octets, RawEntry.body, StoredIndex.octets, List.append_assoc]
  rfl

theorem octets_auth (x : StoredIndex) (data : Bytes) (auth : Tpm2bAuth) :
    (RawEntry.index (x.withAuth auth) data).octets =
      (le 4 (RawEntry.index x data).size ++ (x.front ++ (le 4 x.index.publicArea.attributes.toNat ++ x.middle))) ++
        ((le 2 auth.buffer.length ++ auth.buffer) ++
          ((x.index.authValue.buffer ++ x.authRest).drop auth.buffer.length ++ data)) := by
  simp only [RawEntry.octets, RawEntry.body, StoredIndex.octets, List.append_assoc]
  rfl

theorem octets_old_auth (x : StoredIndex) (data : Bytes) (n : Nat) :
    (RawEntry.index x data).octets =
      (le 4 (RawEntry.index x data).size ++ (x.front ++ (le 4 x.index.publicArea.attributes.toNat ++ x.middle))) ++
        ((le 2 x.index.authValue.buffer.length ++ (x.index.authValue.buffer ++ x.authRest).take n) ++
          ((x.index.authValue.buffer ++ x.authRest).drop n ++ data)) := by
  simp only [RawEntry.octets, RawEntry.body, StoredIndex.octets, List.append_assoc]
  rw [← List.append_assoc (List.take _ _), List.take_append_drop, List.append_assoc]

theorem octets_data (x : StoredIndex) {data new : Bytes} {offset : Nat} (hfits : offset + new.length ≤ data.length) :
    (RawEntry.index x (splice data offset new)).octets =
      (le 4 (RawEntry.index x data).size ++ (x.octets ++ data.take offset)) ++
        (new ++ data.drop (offset + new.length)) := by
  have hsame : (splice data offset new).length = data.length := by
    simp only [splice, List.length_append, List.length_take, List.length_drop]
    omega
  have hsize : (RawEntry.index x (splice data offset new)).size = (RawEntry.index x data).size :=
    congrArg (4 + 148 + ·) hsame
  rw [RawEntry.octets, hsize, RawEntry.body, splice]
  simp only [List.append_assoc]

theorem octets_old_data (x : StoredIndex) (data : Bytes) (offset n : Nat) :
    (RawEntry.index x data).octets =
      (le 4 (RawEntry.index x data).size ++ (x.octets ++ data.take offset)) ++
        ((data.drop offset).take n ++ data.drop (offset + n)) := by
  rw [RawEntry.octets, RawEntry.body]
  simp only [List.append_assoc]
  rw [← List.drop_drop, List.take_append_drop, List.take_append_drop]

theorem writeAttributes (h : StandsFor M es d) (handle : TpmHandle) (attributes : UInt32) :
    Follows M d (.writeAttributes handle attributes) := by
  rw [Follows, NvMemory.step]
  simp only [NvDevice.listStep]
  obtain ⟨xs, x, data, ys, rfl, rfl, hxs, hys, hat⟩ | ⟨hno, hat⟩ := h.atIndex handle fun locator =>
      if attributes.toNat.testBit 26 = (M.attributesAt (locator - 4)).toNat.testBit 26 then
        M.writeNvIndexAttributes locator attributes
      else .ok M
  · rw [hat, Nat.add_sub_cancel, h.represents.attributes_eq]
    have hold := h.sound _ (List.mem_append_right _ List.mem_cons_self)
    by_cases hsame : attributes.toNat.testBit 26 = x.index.publicArea.attributes.toNat.testBit 26
    · rw [if_pos hsame]
      have hsound : Represents.Sound (.index (x.withAttributes attributes) data) := by
        refine ⟨hold.type, ?_⟩
        rintro _ _ ⟨⟩
        obtain ⟨hdata, hsize⟩ := hold.data x data rfl
        refine ⟨?_, hsize⟩
        have horderly : (x.withAttributes attributes).index.orderly = x.index.orderly := hsame
        rw [hdata, NvIndex.nvDataSize, NvIndex.nvDataSize, horderly]
        rfl
      obtain ⟨M', es', hwrite, hstands⟩ := h.written hxs hys (octets_attributes x data x.index.publicArea.attributes)
        (octets_attributes x data attributes) (by simp) (a := endOf xs + 4 + 8) (by simp [Nat.add_assoc])
        (f := fun i data => (if attributes.toNat.testBit 26 = i.orderly then i.withAttributes attributes else i, data))
        (Prod.ext (if_pos hsame) rfl) rfl hsound
      exact ⟨M', [], es', hwrite, hstands⟩
    · have hstay := h.mapIndex_same
        (f := fun i data => (if attributes.toNat.testBit 26 = i.orderly then i.withAttributes attributes else i, data))
        (Prod.ext (if_neg hsame) rfl) hxs hys
      rw [if_neg hsame, hstay, ifAvailable_self]
      exact ⟨M, [], _, rfl, h⟩
  · rw [hat, h.mapIndex_none _ hno, ifAvailable_self]
    exact ⟨M, [], es, rfl, h⟩

theorem writeAuth (h : StandsFor M es d) (handle : TpmHandle) (auth : Tpm2bAuth) :
    Follows M d (.writeAuth handle auth) := by
  rw [Follows, NvMemory.step]
  simp only [NvDevice.listStep]
  obtain ⟨xs, x, data, ys, rfl, rfl, hxs, hys, hat⟩ | ⟨hno, hat⟩ := h.atIndex handle fun locator =>
      M.writeIndexAuth locator auth
  · rw [hat]
    have hold := h.sound _ (List.mem_append_right _ List.mem_cons_self)
    have hsound : Represents.Sound (.index (x.withAuth auth) data) := by
      refine ⟨hold.type, ?_⟩
      rintro _ _ ⟨⟩
      exact hold.data x data rfl
    have hlen : (le 2 auth.buffer.length ++ auth.buffer).length =
        (le 2 x.index.authValue.buffer.length ++ (x.index.authValue.buffer ++ x.authRest).take auth.buffer.length).length := by
      have hrest := x.authRest_length
      have hsize := auth.size_le
      simp only [List.length_append, le_length, List.length_take]
      omega
    obtain ⟨M', es', hwrite, hstands⟩ := h.written hxs hys (octets_old_auth x data auth.buffer.length)
      (octets_auth x data auth) hlen (a := endOf xs + 4 + 80) (by simp [Nat.add_assoc])
      (f := fun i data => ({ i with authValue := auth }, data)) rfl rfl hsound
    exact ⟨M', [], es', hwrite, hstands⟩
  · rw [hat, h.mapIndex_none _ hno, ifAvailable_self]
    exact ⟨M, [], es, rfl, h⟩

theorem cleared {xs ys : List RawEntry} {x : StoredIndex} {data : Bytes} {saved : Nat}
    (h : Represents M (xs ++ .index x data :: ys) saved) :
    ∃ M', M.memoryClear (endOf xs + 4 + 148) data.length = M' ∧
      Represents M' (xs ++ .index x (List.replicate data.length 0xff) :: ys) saved ∧ SameStatus M M' := by
  have hr : (RawEntry.index x data).octets = (le 4 (RawEntry.index x data).size ++ x.octets) ++ (data ++ []) := by
    rw [RawEntry.octets, RawEntry.body, List.append_nil, List.append_assoc]
  have hsize : (RawEntry.index x (List.replicate data.length 0xff)).size = (RawEntry.index x data).size :=
    congrArg (4 + 148 + ·) List.length_replicate
  have hr' : (RawEntry.index x (List.replicate data.length 0xff)).octets =
      (le 4 (RawEntry.index x data).size ++ x.octets) ++ (List.replicate data.length 0xff ++ []) := by
    rw [RawEntry.octets, hsize, RawEntry.body, List.append_nil, List.append_assoc]
  have hfits := part_fits h hr
  rw [List.length_append, le_length, x.octets_length, ← Nat.add_assoc] at hfits
  have hfront : endOf xs + 4 + 148 = endOf xs + (le 4 (RawEntry.index x data).size ++ x.octets).length := by
    rw [List.length_append, le_length, x.octets_length, Nat.add_assoc]
  rw [memoryClear, write_of_fits (by rw [List.length_replicate]; exact hfits)]
  refine ⟨_, rfl, overwrite h hr hr' List.length_replicate ?_, ⟨rfl, rfl⟩⟩
  rw [hfront]

theorem conditionallyWrite_data {xs ys : List RawEntry} {x : StoredIndex} {data new : Bytes} {offset saved : Nat}
    (h : Represents M (xs ++ .index x data :: ys) saved) (hnv : M.nvStatus = none)
    (hfits : offset + new.length ≤ data.length) :
    ∃ M', M.conditionallyWrite (endOf xs + 4 + 148 + offset) new = .ok M' ∧
      Represents M' (xs ++ .index x (splice data offset new) :: ys) saved ∧ SameStatus M M' := by
  have hfront : endOf xs + 4 + 148 + offset =
      endOf xs + (le 4 (RawEntry.index x data).size ++ (x.octets ++ data.take offset)).length := by
    simp only [List.length_append, le_length, x.octets_length, List.length_take]
    omega
  rw [hfront]
  refine conditionallyWrite_entry h hnv (octets_old_data x data offset new.length) (octets_data x hfits) ?_
  rw [List.length_take, List.length_drop]
  omega

/-- `NvWriteIndexData` when NV is available. -/
theorem writeIndexData_entry {xs ys : List RawEntry} {x : StoredIndex} {data new : Bytes} {offset : Nat}
    (h : StandsFor M (xs ++ .index x data :: ys) d) (hnv : M.nvStatus = none)
    (horderly : x.index.orderly = false) (hfits : offset + new.length ≤ x.index.publicArea.dataSize) :
    ∃ M' x' data', M.writeIndexData (endOf xs + 4) offset new = .ok M' ∧
      Represents M' (xs ++ .index x' data' :: ys) d.savedMaxCounter ∧ SameStatus M M' ∧
      NvDevice.written offset new x.index data = (x'.index, data') ∧ Represents.Sound (.index x' data') ∧
      x'.index.publicArea.nvIndex = x.index.publicArea.nvIndex := by
  have hold := h.sound _ (List.mem_append_right _ List.mem_cons_self)
  obtain ⟨hdata, hsize⟩ := hold.data x data rfl
  have hlen : data.length = x.index.publicArea.dataSize := by
    rw [hdata, NvIndex.nvDataSize, horderly]
    rfl
  have hlist : NvDevice.written offset new x.index data = if x.index.written then (x.index, splice data offset new)
      else (x.index.withAttributes (TpmaNv.set x.index.publicArea.attributes 29),
        splice (if x.index.isOrdinary ∧ new.length < x.index.publicArea.dataSize then List.replicate data.length 0xff else data)
          offset new) := by
    refine if_neg fun hboth => ?_
    obtain hboth | hboth := hboth
    · rw [horderly] at hboth
      exact Bool.false_ne_true hboth
    · omega
  have hdrop : ¬ x.index.publicArea.dataSize < offset + new.length := by omega
  have hroom : offset + new.length ≤ data.length := by omega
  rw [NvMemory.writeIndexData]
  dsimp only
  rw [Nat.add_sub_cancel, h.represents.attributes_eq, h.represents.dataSize_eq hsize, if_neg hdrop, hlist]
  cases hwritten : x.index.written with
  | true =>
      have hbit : x.index.publicArea.attributes.toNat.testBit 29 = true := hwritten
      obtain ⟨M', hwrite, hM, hsame⟩ := conditionallyWrite_data h.represents hnv hroom
      rw [hbit]
      refine ⟨M', x, splice data offset new, hwrite, hM, hsame, rfl, ⟨hold.type, ?_⟩, rfl⟩
      rintro _ _ ⟨⟩
      exact ⟨(length_splice hroom).trans hdata, hsize⟩
  | false =>
      have hbit : x.index.publicArea.attributes.toNat.testBit 29 = false := hwritten
      generalize hset : TpmaNv.set x.index.publicArea.attributes 29 = attributes
      have hkept : (x.withAttributes attributes).index.orderly = x.index.orderly := by
        change attributes.toNat.testBit 26 = x.index.publicArea.attributes.toNat.testBit 26
        rw [← hset, TpmaNv.testBit_set _ _ _ (by decide)]
        exact Bool.or_false _
      obtain ⟨M₁, hattributes, hM₁, hsame₁⟩ := conditionallyWrite_entry h.represents hnv
        (octets_attributes x data x.index.publicArea.attributes) (octets_attributes x data attributes) (by simp)
      rw [List.length_append, le_length, StoredIndex.front_length, ← Nat.add_assoc] at hattributes
      -- the data before the write, cleared or not
      obtain ⟨M₂, data', hcleared, hM₂, hsame₂, hdata', hlen'⟩ : ∃ M₂ data',
          (if x.index.publicArea.attributes.toNat / 16 % 16 = 0 ∧ new.length < x.index.publicArea.dataSize then
            M₁.memoryClear (endOf xs + 4 + 148) x.index.publicArea.dataSize else M₁) = M₂ ∧
          Represents M₂ (xs ++ .index (x.withAttributes attributes) data' :: ys) d.savedMaxCounter ∧ SameStatus M₁ M₂ ∧
          (if x.index.isOrdinary ∧ new.length < x.index.publicArea.dataSize then List.replicate data.length 0xff else data) =
            data' ∧ data'.length = data.length := by
        by_cases hblank : x.index.publicArea.attributes.toNat / 16 % 16 = 0 ∧ new.length < x.index.publicArea.dataSize
        · obtain ⟨M₂, hclear, hM₂, hsame₂⟩ := cleared hM₁
          rw [hlen] at hclear
          rw [if_pos hblank]
          exact ⟨M₂, _, hclear, hM₂, hsame₂, if_pos ⟨beq_iff_eq.mpr hblank.1, hblank.2⟩, List.length_replicate⟩
        · rw [if_neg hblank]
          refine ⟨M₁, data, rfl, hM₁, ⟨rfl, rfl⟩, if_neg fun hboth => hblank ⟨beq_iff_eq.mp hboth.1, hboth.2⟩, rfl⟩
      obtain ⟨M', hwrite, hM, hsame⟩ := conditionallyWrite_data hM₂
        (hsame₂.nvStatus.trans (hsame₁.nvStatus.trans hnv)) (hroom.trans_eq hlen'.symm)
      refine ⟨M', x.withAttributes attributes, splice data' offset new, ?_, hM,
        ⟨hsame.maxCounter.trans (hsame₂.maxCounter.trans hsame₁.maxCounter),
          hsame.nvStatus.trans (hsame₂.nvStatus.trans hsame₁.nvStatus)⟩, ?_, ⟨hold.type, ?_⟩, rfl⟩
      · rw [hbit, writeNvIndexAttributes, hattributes]
        change (if _ then M₁.memoryClear (endOf xs + 4 + 148) x.index.publicArea.dataSize else M₁).conditionallyWrite _ new = _
        rw [hcleared, hwrite]
      · rw [hdata']
        rfl
      · rintro _ _ ⟨⟩
        rw [length_splice (hroom.trans_eq hlen'.symm), hlen', hdata, NvIndex.nvDataSize, NvIndex.nvDataSize, hkept]
        exact ⟨rfl, hsize⟩

/-- When NV is not available nothing of it is written. -/
theorem writeIndexData_unavailable {xs ys : List RawEntry} {x : StoredIndex} {data new : Bytes} {offset : Nat} {rc : TpmRc}
    (h : StandsFor M (xs ++ .index x data :: ys) d) (hnv : M.nvStatus = some rc)
    (horderly : x.index.orderly = false) (hfits : offset + new.length ≤ x.index.publicArea.dataSize) :
    M.orKeep (M.writeIndexData (endOf xs + 4) offset new) = .ok M := by
  have hold := h.sound _ (List.mem_append_right _ List.mem_cons_self)
  obtain ⟨hdata, hsize⟩ := hold.data x data rfl
  have hlen : data.length = x.index.publicArea.dataSize := by
    rw [hdata, NvIndex.nvDataSize, horderly]
    rfl
  have hends := h.represents.entry_fits
  have hentry : (RawEntry.index x data).size = 152 + data.length := rfl
  have hdrop : ¬ x.index.publicArea.dataSize < offset + new.length := by omega
  rw [NvMemory.writeIndexData]
  dsimp only
  rw [Nat.add_sub_cancel, h.represents.attributes_eq, h.represents.dataSize_eq hsize, if_neg hdrop]
  cases hbit : x.index.publicArea.attributes.toNat.testBit 29 with
  | true =>
      rw [if_pos rfl]
      change M.orKeep (M.conditionallyWrite (endOf xs + 4 + 148 + offset) new) = _
      rw [conditionallyWrite_unavailable hnv (by omega)]
      split <;> rfl
  | false =>
      -- the attributes are others, so that they would have to be written
      have hload := h.represents.attributes_word
      have hother : load M.octets (endOf xs + 4 + 8) (le 4 (TpmaNv.set x.index.publicArea.attributes 29).toNat).length ≠
          le 4 (TpmaNv.set x.index.publicArea.attributes 29).toNat := by
        intro heq
        rw [le_length] at heq
        rw [heq, fromLe_le (UInt32.toNat_lt _)] at hload
        have hset := TpmaNv.testBit_set x.index.publicArea.attributes 29 29 (by decide)
        rw [hload, hbit] at hset
        exact Bool.false_ne_true (hset.trans rfl)
      rw [if_neg Bool.false_ne_true, writeNvIndexAttributes, conditionallyWrite_unavailable hnv (by simp; omega),
        if_neg hother]
      rfl

theorem writeData (h : StandsFor M es d) (handle : TpmHandle) (offset : Nat) (new : Bytes) :
    Follows M d (.writeData handle offset new) := by
  rw [Follows, NvMemory.step]
  simp only [NvDevice.listStep]
  obtain ⟨xs, x, data, ys, rfl, rfl, hxs, hys, hat⟩ | ⟨hno, hat⟩ := h.atIndex handle fun locator =>
      if (M.attributesAt (locator - 4)).toNat.testBit 26 = true ∨ M.dataSizeAt (locator - 4) < offset + new.length then .ok M
      else M.writeIndexData locator offset new
  · have hold := h.sound _ (List.mem_append_right _ List.mem_cons_self)
    obtain ⟨hdata, hsize⟩ := hold.data x data rfl
    rw [hat, Nat.add_sub_cancel, h.represents.attributes_eq, h.represents.dataSize_eq hsize]
    by_cases hout : x.index.publicArea.attributes.toNat.testBit 26 = true ∨
        x.index.publicArea.dataSize < offset + new.length
    · have hstay := h.mapIndex_same (f := NvDevice.written offset new) (if_pos hout) hxs hys
      rw [if_pos hout, hstay, ifAvailable_self]
      exact ⟨M, [], _, rfl, h⟩
    · obtain ⟨horderly, hfits⟩ := not_or.mp hout
      rw [if_neg hout]
      cases hnv : d.nv.nvStatus with
      | none =>
          obtain ⟨M', x', data', hwrite, hM, hsame, hf, hsound, hhandle⟩ := h.writeIndexData_entry
            (h.nvStatus.trans hnv) (Bool.eq_false_of_not_eq_true horderly) (Nat.le_of_not_lt hfits)
          rw [hwrite, NvDevice.ifAvailable, if_pos hnv]
          exact ⟨M', [], _, rfl, h.change hM hsame hhandle hsound (h.mapIndex_eq hf hxs hys)⟩
      | some rc =>
          rw [ifAvailable_some hnv]
          exact ⟨M, [], _, h.writeIndexData_unavailable (h.nvStatus.trans hnv)
            (Bool.eq_false_of_not_eq_true horderly) (Nat.le_of_not_lt hfits), h⟩
  · rw [hat, h.mapIndex_none _ hno, ifAvailable_self]
    exact ⟨M, [], es, rfl, h⟩

theorem step (h : StandsFor M es d) (event : NvMemoryEvent) : Follows M d event := by
  cases event with
  | defineIndex x type size => exact h.defineIndex x type size
  | writeObject handle record type => exact h.writeObject handle record type
  | delete handle => exact h.delete handle
  | writeAttributes handle attributes => exact h.writeAttributes handle attributes
  | writeAuth handle auth => exact h.writeAuth handle auth
  | writeData handle offset new => exact h.writeData handle offset new
  | updateMaxCount count =>
      exact ⟨_, [], es, rfl, ⟨h.represents.holds, h.represents.fits⟩, h.user, h.sound, h.nodup,
        congrArg (max · count.toNat) h.maxCounter, h.nvStatus, Nat.max_lt.mpr ⟨h.counters.1, count.toNat_lt⟩, h.counters.2⟩
  | status nvStatus =>
      exact ⟨_, [], es, rfl, ⟨h.represents.holds, h.represents.fits⟩, h.user, h.sound, h.nodup, h.maxCounter, rfl,
        h.counters⟩

/-- A run on the octets is a run on the list, for some contents of the memory behind the list. -/
theorem run (h : StandsFor M es d) (events : List NvMemoryEvent) :
    ∃ M' residues es', M.run events = .ok M' ∧ residues.length = events.length ∧
      StandsFor M' es' (d.listRun events residues) := by
  induction events generalizing M es d with
  | nil => exact ⟨M, [], es, rfl, rfl, h⟩
  | cons event events ih =>
      obtain ⟨M₁, residue, es₁, hstep, h₁⟩ := h.step event
      obtain ⟨M', residues, es', hrun, hlen, h'⟩ := ih h₁
      refine ⟨M', residue :: residues, es', ?_, by rw [List.length_cons, List.length_cons, hlen], h'⟩
      rw [NvMemory.run, List.foldlM_cons, hstep]
      exact hrun

/-- `NvGetMaxCount` finds the counter of the last terminator, unless this ends with the memory. -/
theorem getMaxCount_eq (h : StandsFor M es d) :
    M.getMaxCount = if 12 < d.nv.freeBytes then .ok d.savedMaxCounter else .error .failureMode := by
  have hword : fromLe (load M.octets (endOf es + 4) 8) = d.savedMaxCounter := by
    have hterminator : Holds M.octets (endOf es) (le 4 0 ++ (le 8 d.savedMaxCounter ++ [])) := by
      rw [List.append_nil]
      exact h.represents.terminator
    have hright := hterminator.right
    rw [le_length] at hright
    exact Holds.word hright h.counters.2
  have hfree := h.freeBytes_eq
  rw [getMaxCount, h.represents.getEnd_eq]
  dsimp only [bind, Except.bind]
  rw [NvMemory.read]
  by_cases hroom : endOf es + 12 < nvMemorySize
  · rw [if_pos (by omega), if_pos (by omega)]
    exact congrArg Except.ok hword
  · rw [if_neg (by omega), if_neg (by omega)]
    rfl

end StandsFor

/-- However the list has been changed since the memory was made ready: the octets read back as the list that the
rest of NV works on, the room they leave is the room it sees, and the next startup finds the counter that was saved
with the last change of the list, unless the terminator ends with the memory. -/
theorem run_reads_list (octets : Memory) (events : List NvMemoryEvent) :
    ∃ M residues, (manufactured octets).run events = .ok M ∧ residues.length = events.length ∧
      M.entries = .ok ((NvDevice.listRun {} events residues).nv.user.map some) ∧
      (∀ size isIndex isCounter, 0 < size →
        M.testSpace size isIndex isCounter =
          .ok (nvTestSpace (NvDevice.listRun {} events residues).nv size isIndex isCounter)) ∧
      M.getMaxCount = if 12 < (NvDevice.listRun {} events residues).nv.freeBytes then
        .ok (NvDevice.listRun {} events residues).savedMaxCounter else .error .failureMode := by
  obtain ⟨M, residues, es, hrun, hlen, h⟩ := (StandsFor.manufactured octets).run events
  refine ⟨M, residues, hrun, hlen, ?_, fun size isIndex isCounter hpos => h.test_eq hpos isIndex isCounter,
    h.getMaxCount_eq⟩
  rw [h.represents.entries_eq h.sound, h.user, List.map_map]
  rfl

end NvMemory

/-! ## The list that NV works on -/

/-- The list after `NvDefineIndex`. -/
theorem listStep_defineIndex {d : NvDevice} {x : StoredIndex} {residue : Bytes} {nv : NvState}
    {type : x.index.publicArea.nvIndex.getType = TpmHandle.htNvIndex} {size : x.index.publicArea.dataSize < 2 ^ 16}
    (hnew : (d.nv.user.any fun e => e.handle == x.index.publicArea.nvIndex) = false)
    (hlen : residue.length = x.index.nvDataSize) (h : nvDefineIndex d.nv x.index residue = .ok nv) :
    (d.listStep residue (.defineIndex x type size)).nv.user = nv.user := by
  have huser := congrArg NvState.user (nvDefineIndex_ok h)
  rw [nvDefineIndex] at h
  rw [NvDevice.listStep, hnew, if_neg Bool.false_ne_true]
  split at h
  · cases h
  · rename_i htest
    rw [if_pos (by simpa using htest)]
    split at h
    · cases h
    · obtain ⟨t, ht, -⟩ := Transition.bind_eq_ok h
      rw [List.take_of_length_le (Nat.le_of_eq hlen)] at ht huser
      rw [ht, huser, (nvAdd_ok ht).2]
      rfl

/-- The list after `NvAddEvictObject`. -/
theorem listStep_writeObject {σ : Type} (hs : HashStateCodec σ) (L : RawLayout) (level : Nat) {d : NvDevice}
    {handle : TpmHandle} {o : Object} {nv : NvState} {type : handle.getType = TpmHandle.htPersistent}
    (hnew : (d.nv.user.any fun e => e.handle == handle) = false)
    (h : nvAddEvictObject hs L level d.nv handle o = .ok nv) (residue : Bytes) :
    d.listStep residue (.writeObject handle (nvObjectToBuffer hs L level (o.evicted handle)) type) =
      { d with nv }.writeListEnd := by
  rw [nvAddEvictObject] at h
  rw [NvDevice.listStep, hnew, if_neg Bool.false_ne_true]
  split at h
  · rename_i htest
    rw [if_pos htest, h]
  · cases h

end PqcTpm
