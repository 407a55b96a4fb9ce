import PqcTpm.Lib.PackedList
import PqcTpm.NvCommands

/-!
# The octets of the orderly data

`s_indexOrderlyRam` with `NvRamNext`, `NvAddRAM` and `NvDeleteRAM` of `NVDynamic.c`, and its blob in
`NVMarshal.c`. The list of entries that the rest of NV works on is what the octets stand for: every run
keeps the two together, and the blob brings the list back.
-/
namespace PqcTpm
open ByteCodec ByteMemory Transition

/-! ## The buffer -/

/-- `NV_RAM_HEADER`, whose size counts the header and the data. -/
structure NvRamHeader where
  size : Nat
  handle : TpmHandle
  attributes : UInt32
  deriving DecidableEq

namespace NvRamHeader

def octets (h : NvRamHeader) : Bytes := le 4 h.size ++ (le 4 h.handle.toNat ++ le 4 h.attributes.toNat)

def read (m : Memory) (a : Nat) : NvRamHeader where
  size := fromLe (load m a 4)
  handle := UInt32.ofNat (fromLe (load m (a + 4) 4))
  attributes := UInt32.ofNat (fromLe (load m (a + 8) 4))

end NvRamHeader

/-- `RAM_ORDERLY_END`, counted from the start of `s_indexOrderlyRam`. -/
def ramOrderlyEnd : Nat := 512

/-- `NvRamNext`: the header at the iterator, which goes on by its size. -/
def nvRamNext (m : Memory) (iter : Nat) : Option NvRamHeader :=
  if ramOrderlyEnd < iter + 12 then none
  else
    let header := NvRamHeader.read m iter
    if header.size = 0 then none else some header

/-- `NvRamNext` until there is no entry left. Every entry takes at least an octet. -/
def nvRamWalk (m : Memory) : List Nat × Nat :=
  Id.run (walk (M := Id) (fun iter => (nvRamNext m iter).map NvRamHeader.size) ramOrderlyEnd 0)

/-- `NvRamGetEnd`. -/
def nvRamGetEnd (m : Memory) : Nat := (nvRamWalk m).2

/-- `NvRamGetIndex`. -/
def nvRamGetIndex (m : Memory) (handle : TpmHandle) : Option Nat :=
  (nvRamWalk m).1.find? fun a => (NvRamHeader.read m a).handle == handle

/-- `NvRamTestSpaceIndex`. -/
def nvRamTestSpace (m : Memory) (size : Nat) : Bool :=
  decide (12 + size ≤ (ramOrderlyEnd + 2 ^ 32 - nvRamGetEnd m) % 2 ^ 32)

/-- `NvAddRAM`. -/
def nvAddRam (m : Memory) (index : NvPublic) : Except Fault Memory :=
  let last := nvRamGetEnd m
  let header : NvRamHeader := ⟨12 + index.dataSize, index.nvIndex, index.attributes⟩
  if last + header.size - 1 < ramOrderlyEnd then
    let m := store m last header.octets
    let m := fillZero m (last + 12) index.dataSize
    let last := last + header.size
    .ok (if last + 4 < ramOrderlyEnd then fillZero m last 4 else m)
  else .error .failureMode

/-- `NvDeleteRAM`. -/
def nvDeleteRamOctets (m : Memory) (handle : TpmHandle) : Except Fault Memory :=
  let lastUsed := nvRamGetEnd m
  match nvRamGetIndex m handle with
  | none => .error .failureMode
  | some node =>
      let size := fromLe (load m node 4)
      let next := node + size
      if lastUsed < next then .error .overrun
      else .ok (fillZero (move m next node (lastUsed - next)) (lastUsed - size) size)

/-- The entries as `NvRamNext` gives them, with the data behind each header. -/
def nvRamEntries (m : Memory) : List RamEntry :=
  (nvRamWalk m).1.map fun a =>
    let header := NvRamHeader.read m a
    ⟨header.handle, header.attributes, load m (a + 12) (header.size - 12)⟩

/-! ## The blob -/

/-- What `TPMA_NV_Unmarshal` accepts: no reserved bit is set. -/
def validTpmaNv (attributes : UInt32) : Bool := attributes &&& 0x01F00300 == 0

/-- The loop of `INDEX_ORDERLY_RAM_Marshal`. -/
def marshalRamEntries (m : Memory) : Nat → Nat → Bytes
  | 0, _ => []
  | fuel + 1, offset =>
      let header := NvRamHeader.read m offset
      be 4 header.size ++
        if header.size = 0 then []
        else writeUint32 header.handle ++ (be 4 header.attributes.toNat ++
          if ramOrderlyEnd < offset + header.size ∨ header.size < 12 then []
          else be 2 (header.size - 12) ++ (load m (offset + 12) (header.size - 12) ++
            if ramOrderlyEnd < offset + header.size + 12 then []
            else marshalRamEntries m fuel (offset + header.size)))

/-- `INDEX_ORDERLY_RAM_Marshal`. -/
def indexOrderlyRamMarshal (m : Memory) : Bytes :=
  nvHeaderMarshal 2 0x5346FEAB 1 ++
    (be 4 ramOrderlyEnd ++ (marshalRamEntries m ramOrderlyEnd 0 ++ futureVersionsMarshal))

/-- The loop of `INDEX_ORDERLY_RAM_Unmarshal`. When a read has failed the checks on the room are still made,
with the data size of the entry before. -/
def unmarshalRamEntries (sourceSize : Nat) : Nat → Nat → Nat → Memory → Unmarshal Memory
  | 0, _, _, _ => Reader.fail .failureMode
  | fuel + 1, offset, datasize₀, m =>
      if sourceSize < offset + 12 then pure (fillZero m offset (ramOrderlyEnd - offset))
      else if ramOrderlyEnd < offset + 4 then Reader.fail (.of .size)
      else do
        let noRoom (size : Nat) (e : RcCode) : Fault := if ramOrderlyEnd < offset + size then .of .size else .of e
        let size ← Reader.word 4 (noRoom 12 .insufficient)
        if size = 0 then pure (fillZero m offset 4)
        else do
          Reader.check (decide (offset + 12 ≤ ramOrderlyEnd)) (.of .size)
          let handle ← Reader.word 4 (noRoom (12 + datasize₀) .insufficient)
          let attributes ← Reader.word 4 (noRoom (12 + datasize₀) .insufficient)
          Reader.check (validTpmaNv (UInt32.ofNat attributes)) (noRoom (12 + datasize₀) .reservedBits)
          let datasize ← Reader.word 2 (noRoom (12 + datasize₀) .insufficient)
          Reader.check (decide (offset + 12 + datasize ≤ ramOrderlyEnd)) (.of .size)
          let data ← Reader.take datasize (.of .insufficient)
          let header : NvRamHeader := ⟨12 + datasize, UInt32.ofNat handle, UInt32.ofNat attributes⟩
          unmarshalRamEntries sourceSize fuel (offset + 12 + datasize) datasize
            (store (store m (offset + 12) data) offset header.octets)

/-- `INDEX_ORDERLY_RAM_Unmarshal` into a buffer. -/
def indexOrderlyRamUnmarshal (m : Memory) : Unmarshal Memory := do
  let version ← nvHeaderUnmarshal 2 0x5346FEAB
  let sourceSize ← Reader.word 4 (.of .insufficient)
  let m ← unmarshalRamEntries sourceSize (ramOrderlyEnd + 1) 0 0 m
  futureVersionsRead version
  pure m

/-! ## Runs -/

/-- The orderly indices that are defined, and the buffer. -/
structure OrderlyArea where
  indices : List NvPublic := []
  ram : Memory := fun _ => 0

inductive OrderlyEvent
  | define (index : NvPublic)
  | delete (handle : TpmHandle)
  | write (handle : TpmHandle) (offset : Nat) (data : Bytes)
  | setAttributes (handle : TpmHandle) (attributes : UInt32)

namespace OrderlyArea

def find (s : OrderlyArea) (handle : TpmHandle) : Option NvPublic := s.indices.find? fun i => i.nvIndex == handle

/-- The buffer after a write behind an entry's address, if the index is there. -/
def withEntry (s : OrderlyArea) (handle : TpmHandle) (f : Nat → Memory) : Except Fault OrderlyArea :=
  match nvRamGetIndex s.ram handle with
  | some node => .ok { s with ram := f node }
  | none => .error .failureMode

/-- An event that is refused changes nothing: an index with reserved attributes, one that is defined
already or has no room, one that is not defined, data that does not fit. -/
def step (s : OrderlyArea) : OrderlyEvent → Except Fault OrderlyArea
  | .define index =>
      if !validTpmaNv index.attributes || (s.find index.nvIndex).isSome || !nvRamTestSpace s.ram index.dataSize then .ok s
      else do
        let ram ← nvAddRam s.ram index
        pure ⟨s.indices ++ [index], ram⟩
  | .delete handle =>
      match s.find handle with
      | none => .ok s
      | some _ => do
          let ram ← nvDeleteRamOctets s.ram handle
          pure ⟨s.indices.eraseP fun i => i.nvIndex == handle, ram⟩
  | .write handle offset data =>
      match s.find handle with
      | none => .ok s
      | some index =>
          if index.dataSize < offset + data.length then .ok s
          else s.withEntry handle fun node => store s.ram (node + 12 + offset) data
  | .setAttributes handle attributes =>
      match s.find handle with
      | none => .ok s
      | some _ =>
          if !validTpmaNv attributes then .ok s
          else s.withEntry handle fun node => store s.ram (node + 8) (le 4 attributes.toNat)

def run (s : OrderlyArea) (events : List OrderlyEvent) : Except Fault OrderlyArea := events.foldlM step s

end OrderlyArea

/-! ## What the octets stand for -/

namespace RamEntry

def header (r : RamEntry) : NvRamHeader := ⟨12 + r.data.length, r.handle, r.attributes⟩

def octets (r : RamEntry) : Bytes := r.header.octets ++ r.data

def size (r : RamEntry) : Nat := 12 + r.data.length

/-- The entry of an index that has just been defined. -/
def blank (index : NvPublic) : RamEntry :=
  ⟨index.nvIndex, index.attributes, List.replicate index.dataSize 0⟩

@[simp] theorem header_length (r : RamEntry) : r.header.octets.length = 12 := by
  simp [NvRamHeader.octets]

@[simp] theorem octets_length (r : RamEntry) : r.octets.length = r.size := by
  simp [octets, size]

end RamEntry

theorem used_length (es : List RamEntry) : (es.flatMap RamEntry.octets).length = (es.map RamEntry.size).sum := by
  simp [List.length_flatMap]

/-- The buffer holds the entries one behind the other, and behind them, where a header has room, a size of zero. -/
structure Represents (m : Memory) (es : List RamEntry) : Prop where
  holds : Holds m 0 (es.flatMap RamEntry.octets)
  fits : (es.map RamEntry.size).sum ≤ ramOrderlyEnd
  marker : (es.map RamEntry.size).sum + 12 ≤ ramOrderlyEnd → Holds m (es.map RamEntry.size).sum (List.replicate 4 0)

theorem read_header {m : Memory} {a : Nat} {r : RamEntry} {rest : Bytes} (h : Holds m a (r.octets ++ rest))
    (hsize : r.size ≤ ramOrderlyEnd) : NvRamHeader.read m a = r.header := by
  have hlt : r.header.size < 256 ^ 4 := Nat.lt_of_le_of_lt hsize (by decide)
  have hheader : Holds m a r.header.octets := h.left.left
  have hhandle : Holds m (a + 4) (le 4 r.header.handle.toNat ++ le 4 r.header.attributes.toNat) := by
    simpa only [le_length] using Holds.right hheader
  have hattributes : Holds m (a + 8) (le 4 r.header.attributes.toNat ++ []) := by
    simpa only [le_length, Nat.add_assoc, List.append_nil] using Holds.right hhandle
  rw [NvRamHeader.read, Holds.word hheader hlt, Holds.word hhandle (UInt32.toNat_lt _),
    Holds.word hattributes (UInt32.toNat_lt _), UInt32.ofNat_toNat, UInt32.ofNat_toNat]

theorem read_data {m : Memory} {a : Nat} {r : RamEntry} {rest : Bytes} (h : Holds m a (r.octets ++ rest)) :
    load m (a + 12) r.data.length = r.data := by
  have hdata : Holds m (a + r.header.octets.length) r.data := h.left.right
  rwa [r.header_length] at hdata

namespace Represents
variable {m : Memory} {es : List RamEntry}

theorem entry {xs ys : List RamEntry} {r : RamEntry} (h : Represents m (xs ++ r :: ys)) :
    Holds m (xs.map RamEntry.size).sum (r.octets ++ ys.flatMap RamEntry.octets) := by
  have hholds := h.holds
  rw [List.flatMap_append, List.flatMap_cons] at hholds
  simpa only [used_length, Nat.zero_add] using hholds.right

theorem entry_fits {xs ys : List RamEntry} {r : RamEntry} (h : Represents m (xs ++ r :: ys)) :
    (xs.map RamEntry.size).sum + r.size + (ys.map RamEntry.size).sum ≤ ramOrderlyEnd := by
  have hfits := h.fits
  rw [List.map_append, List.map_cons, List.sum_append, List.sum_cons] at hfits
  omega

theorem next_entry {xs ys : List RamEntry} {r : RamEntry} (h : Represents m (xs ++ r :: ys)) :
    nvRamNext m (xs.map RamEntry.size).sum = some r.header := by
  have hfits := h.entry_fits
  have hsize : 12 ≤ r.size := Nat.le_add_right _ _
  have hread := read_header h.entry (by omega)
  have hne : ¬ (NvRamHeader.read m (xs.map RamEntry.size).sum).size = 0 := by
    rw [hread]
    exact Nat.ne_of_gt (Nat.lt_of_lt_of_le (by decide) hsize)
  rw [nvRamNext, if_neg (by omega)]
  dsimp only
  rw [if_neg hne, hread]

/-- Behind the last entry a header does not fit, or its size is zero: in neither case is anything read that an
earlier entry has left. -/
theorem next_end (h : Represents m es) : nvRamNext m (es.map RamEntry.size).sum = none := by
  by_cases hroom : ramOrderlyEnd < (es.map RamEntry.size).sum + 12
  · rw [nvRamNext, if_pos hroom]
  · have hmarker : Holds m (es.map RamEntry.size).sum (le 4 0 ++ []) := h.marker (by omega)
    rw [nvRamNext, if_neg hroom]
    dsimp only
    rw [if_pos]
    exact Holds.word hmarker (by decide)

theorem linked_from {xs ys : List RamEntry} (h : Represents m (xs ++ ys)) :
    Linked (M := Id) (fun iter => (nvRamNext m iter).map NvRamHeader.size) RamEntry.size (xs.map RamEntry.size).sum ys := by
  induction ys generalizing xs with
  | nil =>
      rw [List.append_nil] at h
      rw [Linked, h.next_end]
      rfl
  | cons r ys ih =>
      refine ⟨?_, ?_⟩
      · change (nvRamNext m _).map NvRamHeader.size = some r.size
        rw [h.next_entry]
        rfl
      · have happ : Represents m ((xs ++ [r]) ++ ys) := by rwa [List.append_assoc]
        have hrest := ih happ
        rwa [List.map_append, List.sum_append, List.map_singleton, List.sum_singleton] at hrest

theorem length_le (es : List RamEntry) : 12 * es.length ≤ (es.map RamEntry.size).sum := by
  induction es with
  | nil => exact Nat.le_refl 0
  | cons r es ih =>
      rw [List.length_cons, List.map_cons, List.sum_cons, RamEntry.size]
      omega

/-- `NvRamNext` visits the entries and nothing else. -/
theorem walk_eq (h : Represents m es) : nvRamWalk m = (starts RamEntry.size 0 es, (es.map RamEntry.size).sum) := by
  have happ : Represents m ([] ++ es) := h
  have hlinked := linked_from happ
  have hfuel : es.length < ramOrderlyEnd := by
    have hlen := length_le es
    have hfits := h.fits
    have hpos : 0 < ramOrderlyEnd := by decide
    omega
  have hwalk := walk_of_linked hlinked hfuel
  rw [List.map_nil, List.sum_nil, Nat.zero_add] at hwalk
  exact hwalk

theorem getEnd_eq (h : Represents m es) : nvRamGetEnd m = (es.map RamEntry.size).sum := by
  rw [nvRamGetEnd, h.walk_eq]

theorem entries_eq (h : Represents m es) : nvRamEntries m = es := by
  rw [nvRamEntries, h.walk_eq]
  have hmap := starts_map RamEntry.size 0 es (fun a =>
    (⟨(NvRamHeader.read m a).handle, (NvRamHeader.read m a).attributes,
      load m (a + 12) ((NvRamHeader.read m a).size - 12)⟩ : RamEntry)) (fun r => r) ?_
  · rw [List.map_id'] at hmap
    exact hmap
  · rintro xs r ys rfl
    have hfits := h.entry_fits
    rw [Nat.zero_add, read_header h.entry (by omega)]
    have hdata : r.header.size - 12 = r.data.length := Nat.add_sub_cancel_left _ _
    rw [hdata, read_data h.entry]
    rfl

theorem getIndex_eq {xs ys : List RamEntry} {r : RamEntry} (h : Represents m (xs ++ r :: ys))
    (hfirst : ∀ x ∈ xs, x.handle ≠ r.handle) :
    nvRamGetIndex m r.handle = some (xs.map RamEntry.size).sum := by
  have hfind := starts_find RamEntry.size 0 xs r ys (fun a => (NvRamHeader.read m a).handle == r.handle)
    (fun x => x.handle == r.handle) ?_ (fun x hx => beq_false_of_ne (hfirst x hx)) (beq_self_eq_true _)
  · rw [nvRamGetIndex, h.walk_eq, hfind, Nat.zero_add]
  · intro zs e zs' hsplit
    rw [hsplit] at h
    have hfits := h.entry_fits
    rw [Nat.zero_add, read_header h.entry (by omega)]
    rfl

theorem testSpace_eq (h : Represents m es) (size : Nat) :
    nvRamTestSpace m size = decide ((es.map RamEntry.size).sum + (12 + size) ≤ ramOrderlyEnd) := by
  have hfits := h.fits
  rw [nvRamTestSpace, h.getEnd_eq]
  congr 1
  simp only [ramOrderlyEnd] at hfits ⊢
  rw [show 512 + 2 ^ 32 - (es.map RamEntry.size).sum = 2 ^ 32 + (512 - (es.map RamEntry.size).sum) by omega,
    Nat.add_mod_left, Nat.mod_eq_of_lt (by omega)]
  exact propext ⟨fun hroom => by omega, fun hroom => by omega⟩

/-- The room is the one that `NvDefineIndex` sees on the list. -/
theorem testSpace_eq_index (s : NvState) (h : Represents m s.ram) (size : Nat) :
    nvRamTestSpace m size = nvRamTestSpaceIndex s size := by
  have hfits := h.fits
  rw [h.testSpace_eq, nvRamTestSpaceIndex]
  congr 1
  change _ = (12 + size ≤ 512 - (s.ram.map RamEntry.size).sum)
  simp only [ramOrderlyEnd] at hfits ⊢
  exact propext ⟨fun hroom => by omega, fun hroom => by omega⟩

/-- `NvAddRAM` puts an entry behind the others. -/
theorem add {index : NvPublic} (h : Represents m es) (hroom : nvRamTestSpace m index.dataSize = true) :
    ∃ m', nvAddRam m index = .ok m' ∧
      Represents m' (es ++ [.blank index]) := by
  generalize hr : RamEntry.blank index = r
  have hsize : r.size = 12 + index.dataSize := by simp [← hr, RamEntry.blank, RamEntry.size]
  have hheader : (⟨12 + index.dataSize, index.nvIndex, index.attributes⟩ : NvRamHeader) = r.header := by
    simp [← hr, RamEntry.blank, RamEntry.header]
  have hdata : List.replicate index.dataSize 0 = r.data := by rw [← hr, RamEntry.blank]
  rw [h.testSpace_eq, decide_eq_true_eq, ← hsize] at hroom
  have hsum : ((es ++ [r]).map RamEntry.size).sum = (es.map RamEntry.size).sum + r.size := by simp
  -- the header and the data are stored one behind the other
  have hstored : Holds (fillZero (store m (es.map RamEntry.size).sum r.header.octets)
      ((es.map RamEntry.size).sum + 12) index.dataSize) 0 ((es ++ [r]).flatMap RamEntry.octets) := by
    have happ := h.holds.append r.octets
    rw [used_length, Nat.zero_add, RamEntry.octets, ← store_append, r.header_length] at happ
    rw [fillZero, hdata, List.flatMap_append, List.flatMap_singleton, RamEntry.octets]
    exact happ
  rw [nvAddRam, h.getEnd_eq, hheader]
  dsimp only
  rw [if_pos (show (es.map RamEntry.size).sum + r.header.size - 1 < ramOrderlyEnd from by
    have hpos : 12 ≤ r.size := by omega
    change (es.map RamEntry.size).sum + r.size - 1 < ramOrderlyEnd
    omega)]
  refine ⟨_, rfl, ?_⟩
  have hlast : (es.map RamEntry.size).sum + r.header.size = ((es ++ [r]).map RamEntry.size).sum := hsum.symm
  rw [hlast]
  split
  · refine ⟨hstored.store_disjoint (.inl ?_), by omega, fun _ => Holds.store_self _ _ _⟩
    rw [used_length, Nat.zero_add]
  · exact ⟨hstored, by omega, fun hend => by omega⟩

/-- `NvDeleteRAM` takes an entry out. -/
theorem delete {xs ys : List RamEntry} {r : RamEntry} (h : Represents m (xs ++ r :: ys))
    (hfirst : ∀ x ∈ xs, x.handle ≠ r.handle) :
    ∃ m', nvDeleteRamOctets m r.handle = .ok m' ∧ Represents m' (xs ++ ys) := by
  have hfits := h.entry_fits
  have hsum : ((xs ++ r :: ys).map RamEntry.size).sum =
      (xs.map RamEntry.size).sum + r.size + (ys.map RamEntry.size).sum := by
    simp [Nat.add_assoc]
  have hsum' : ((xs ++ ys).map RamEntry.size).sum = (xs.map RamEntry.size).sum + (ys.map RamEntry.size).sum := by
    simp
  have hword : fromLe (load m (xs.map RamEntry.size).sum 4) = r.size :=
    congrArg NvRamHeader.size (read_header h.entry (by omega))
  have hmoved : Holds (move m ((xs.map RamEntry.size).sum + r.size) (xs.map RamEntry.size).sum
      (ys.map RamEntry.size).sum) 0 ((xs ++ ys).flatMap RamEntry.octets) := by
    have hholds := h.holds
    rw [List.flatMap_append, List.flatMap_cons] at hholds
    have hremoved := hholds.remove
    rw [used_length, used_length, r.octets_length, Nat.zero_add, ← List.flatMap_append] at hremoved
    exact hremoved
  rw [nvDeleteRamOctets, h.getEnd_eq, h.getIndex_eq hfirst]
  dsimp only
  rw [hword, hsum, if_neg (by omega), Nat.add_sub_cancel_left]
  have hlast : (xs.map RamEntry.size).sum + r.size + (ys.map RamEntry.size).sum - r.size =
      ((xs ++ ys).map RamEntry.size).sum := by omega
  rw [hlast]
  refine ⟨_, rfl, hmoved.store_disjoint (.inl ?_), by omega, fun _ => ?_⟩
  · rw [used_length, Nat.zero_add]
  · have hzeros : List.replicate r.size (0 : UInt8) = List.replicate 4 0 ++ List.replicate (r.size - 4) 0 := by
      rw [← List.replicate_add]
      congr 1
      have hpos : 12 ≤ r.size := Nat.le_add_right _ _
      omega
    have hcleared := Holds.store_self (move m ((xs.map RamEntry.size).sum + r.size) (xs.map RamEntry.size).sum
      (ys.map RamEntry.size).sum) ((xs ++ ys).map RamEntry.size).sum (List.replicate r.size 0)
    rw [hzeros] at hcleared
    rw [fillZero, hzeros]
    exact hcleared.left

/-- Octets of an entry are overwritten. -/
theorem overwrite {xs ys : List RamEntry} {r r' : RamEntry} {front old new back : Bytes}
    (h : Represents m (xs ++ r :: ys)) (hr : r.octets = front ++ (old ++ back))
    (hr' : r'.octets = front ++ (new ++ back)) (hlen : new.length = old.length) :
    Represents (store m ((xs.map RamEntry.size).sum + front.length) new) (xs ++ r' :: ys) := by
  have hsize : r'.size = r.size := by
    rw [← r'.octets_length, ← r.octets_length, hr, hr']
    simp only [List.length_append, hlen]
  have hinside : front.length + new.length ≤ r.size := by
    rw [← r.octets_length, hr]
    simp only [List.length_append]
    omega
  have hsum : ((xs ++ r' :: ys).map RamEntry.size).sum = ((xs ++ r :: ys).map RamEntry.size).sum := by
    simp [hsize]
  have hfits := h.entry_fits
  have htotal : ((xs ++ r :: ys).map RamEntry.size).sum =
      (xs.map RamEntry.size).sum + r.size + (ys.map RamEntry.size).sum := by
    simp [Nat.add_assoc]
  refine ⟨?_, by omega, fun hroom => ?_⟩
  · have hholds := h.holds
    rw [List.flatMap_append, List.flatMap_cons, hr] at hholds
    simp only [List.append_assoc] at hholds
    rw [← List.append_assoc (xs.flatMap RamEntry.octets)] at hholds
    have hreplaced := hholds.replace hlen
    rw [List.length_append, used_length, Nat.zero_add] at hreplaced
    rw [List.flatMap_append, List.flatMap_cons, hr']
    simpa only [List.append_assoc] using hreplaced
  · rw [hsum] at hroom ⊢
    exact (h.marker hroom).store_disjoint (.inr (by omega))

end Represents

/-! ## The list that NV works on -/

theorem nvDefineIndex_room {s s' : NvState} {i : NvIndex} {data : Bytes} (ho : i.orderly = true)
    (h : nvDefineIndex s i data = .ok s') : nvRamTestSpaceIndex s i.publicArea.dataSize = true := by
  unfold nvDefineIndex at h
  split at h
  · cases h
  · split at h
    · cases h
    · rename_i hroom
      simpa [ho] using hroom

/-- `NvDefineIndex` of an orderly index does to the octets what it does to the list. -/
theorem Represents.defineIndex {m : Memory} {s s' : NvState} {i : NvIndex} {data : Bytes} (hm : Represents m s.ram)
    (ho : i.orderly = true) (h : nvDefineIndex s i data = .ok s') :
    ∃ m', nvAddRam m i.publicArea = .ok m' ∧ Represents m' s'.ram := by
  have hroom : nvRamTestSpace m i.publicArea.dataSize = true := by
    rw [hm.testSpace_eq_index]
    exact nvDefineIndex_room ho h
  obtain ⟨m', hadd, hm'⟩ := hm.add hroom
  refine ⟨m', hadd, ?_⟩
  rw [nvDefineIndex_ok h, newRam, if_pos ho]
  exact hm'

/-- And so does `NvDeleteRAM`. -/
theorem Represents.deleteRam {m : Memory} {s s' : NvState} {handle : TpmHandle} (hm : Represents m s.ram)
    (h : nvDeleteRam s handle = .ok s') : ∃ m', nvDeleteRamOctets m handle = .ok m' ∧ Represents m' s'.ram := by
  have hfound : (s.ramGetIndex handle).isSome = true := by
    by_contra hnone
    rw [nvDeleteRam, if_neg hnone] at h
    cases h
  obtain ⟨r, hr⟩ := Option.isSome_iff_exists.mp hfound
  obtain ⟨hhandle, xs, ys, hsplit, hxs⟩ := List.find?_eq_some_iff_append.mp hr
  obtain rfl : r.handle = handle := eq_of_beq hhandle
  rw [hsplit] at hm
  obtain ⟨m', hdelete, hm'⟩ := hm.delete fun x hx => by simpa using hxs x hx
  refine ⟨m', hdelete, ?_⟩
  rw [nvDeleteRam_ok h]
  dsimp only
  rw [hsplit, List.eraseP_append_right _ (fun x hx => by simpa using hxs x hx), List.eraseP_cons_of_pos (by simp)]
  exact hm'

/-! ## Runs on the list -/

/-- The same events on the list of entries. -/
def ramListStep (es : List RamEntry) : OrderlyEvent → List RamEntry
  | .define index =>
      if !validTpmaNv index.attributes || es.any (fun r => r.handle == index.nvIndex) ||
        !nvRamTestSpaceIndex { ram := es } index.dataSize then es
      else es ++ [.blank index]
  | .delete handle => es.eraseP fun r => r.handle == handle
  | .write handle offset data =>
      es.map fun r =>
        if r.handle = handle ∧ offset + data.length ≤ r.data.length then { r with data := splice r.data offset data }
        else r
  | .setAttributes handle attributes =>
      es.map fun r => if r.handle = handle ∧ validTpmaNv attributes = true then { r with attributes } else r

/-- The octets stand for the entries, and these are the orderly indices that are defined. -/
structure Orderly (s : OrderlyArea) (es : List RamEntry) : Prop where
  represents : Represents s.ram es
  keys : es.map (fun r => (r.handle, r.data.length)) = s.indices.map fun i => (i.nvIndex, i.dataSize)
  nodup : (es.map RamEntry.handle).Nodup
  valid : ∀ r ∈ es, validTpmaNv r.attributes = true

namespace Orderly
variable {s : OrderlyArea} {es : List RamEntry}

theorem initial : Orderly {} [] := by
  refine ⟨⟨rfl, Nat.zero_le _, fun _ => rfl⟩, rfl, List.nodup_nil, fun r hr => ?_⟩
  cases hr

theorem find_none {handle : TpmHandle} (h : Orderly s es) (hfind : s.find handle = none) :
    ∀ r ∈ es, r.handle ≠ handle := by
  intro r hr hhandle
  have hmem : (r.handle, r.data.length) ∈ s.indices.map fun i => (i.nvIndex, i.dataSize) := by
    rw [← h.keys]
    exact List.mem_map_of_mem hr
  obtain ⟨i, hi, heq⟩ := List.mem_map.mp hmem
  have hnone := List.find?_eq_none.mp hfind i hi
  rw [beq_iff_eq, (Prod.mk.inj heq).1] at hnone
  exact hnone hhandle

theorem find_some {handle : TpmHandle} {index : NvPublic} (h : Orderly s es) (hfind : s.find handle = some index) :
    ∃ xs r ys is js, es = xs ++ r :: ys ∧ s.indices = is ++ index :: js ∧ r.handle = handle ∧
      index.nvIndex = handle ∧ r.data.length = index.dataSize ∧ (∀ i ∈ is, i.nvIndex ≠ handle) ∧
      xs.map (fun r => (r.handle, r.data.length)) = is.map (fun i => (i.nvIndex, i.dataSize)) ∧
      ys.map (fun r => (r.handle, r.data.length)) = js.map (fun i => (i.nvIndex, i.dataSize)) := by
  obtain ⟨hindex, is, js, hsplit, his⟩ := List.find?_eq_some_iff_append.mp hfind
  have hkeys := h.keys
  rw [hsplit, List.map_append, List.map_cons, List.map_eq_append_iff] at hkeys
  obtain ⟨xs, rest, hes, hxs, hrest⟩ := hkeys
  obtain ⟨r, ys, hr, hkey, hys⟩ := List.map_eq_cons_iff.mp hrest
  have hhandle := eq_of_beq hindex
  refine ⟨xs, r, ys, is, js, by rw [hes, hr], hsplit, (Prod.mk.inj hkey).1.trans hhandle, hhandle,
    (Prod.mk.inj hkey).2, fun i hi => ?_, hxs, hys⟩
  simpa using his i hi

theorem ne_of_split {xs ys : List RamEntry} {r : RamEntry} (h : Orderly s (xs ++ r :: ys)) :
    (∀ x ∈ xs, x.handle ≠ r.handle) ∧ ∀ y ∈ ys, y.handle ≠ r.handle := by
  have hnodup := h.nodup
  rw [List.map_append, List.map_cons, List.nodup_append'] at hnodup
  obtain ⟨_, htail, hdisjoint⟩ := hnodup
  refine ⟨fun x hx heq => ?_, fun y hy heq => ?_⟩
  · exact hdisjoint (List.mem_map_of_mem hx) (heq ▸ List.mem_cons_self)
  · exact (List.nodup_cons.mp htail).1 (heq ▸ List.mem_map_of_mem hy)

theorem map_split {xs ys : List RamEntry} {r : RamEntry} (h : Orderly s (xs ++ r :: ys)) {f : RamEntry → RamEntry}
    (hf : ∀ x, x.handle ≠ r.handle → f x = x) : (xs ++ r :: ys).map f = xs ++ f r :: ys := by
  obtain ⟨hxs, hys⟩ := h.ne_of_split
  rw [List.map_append, List.map_cons, List.map_congr_left (fun x hx => hf x (hxs x hx)),
    List.map_congr_left (fun y hy => hf y (hys y hy)), List.map_id', List.map_id']

theorem change {xs ys : List RamEntry} {r r' : RamEntry} {ram : Memory} (h : Orderly s (xs ++ r :: ys))
    (hram : Represents ram (xs ++ r' :: ys)) (hhandle : r'.handle = r.handle)
    (hlen : r'.data.length = r.data.length) (hvalid : validTpmaNv r'.attributes = true) :
    Orderly { s with ram } (xs ++ r' :: ys) := by
  refine ⟨hram, ?_, ?_, ?_⟩
  · rw [← h.keys]
    simp [hhandle, hlen]
  · have hnodup := h.nodup
    rw [List.map_append, List.map_cons] at hnodup ⊢
    rw [hhandle]
    exact hnodup
  · intro x hx
    rw [List.mem_append, List.mem_cons] at hx
    obtain hx | rfl | hx := hx
    · exact h.valid x (List.mem_append_left _ hx)
    · exact hvalid
    · exact h.valid x (List.mem_append_right _ (List.mem_cons_of_mem _ hx))

theorem isSome_find (h : Orderly s es) (handle : TpmHandle) :
    (s.find handle).isSome = es.any fun r => r.handle == handle := by
  cases hfind : s.find handle with
  | none =>
      have hne := h.find_none hfind
      symm
      rw [Option.isSome_none, List.any_eq_false]
      intro r hr
      simpa using hne r hr
  | some index =>
      obtain ⟨xs, r, ys, _, _, rfl, _, rfl, _⟩ := h.find_some hfind
      simp

theorem room (h : Orderly s es) (size : Nat) :
    nvRamTestSpace s.ram size = nvRamTestSpaceIndex { ram := es } size :=
  Represents.testSpace_eq_index { ram := es } h.represents size

theorem define (h : Orderly s es) (index : NvPublic) :
    ∃ s', s.step (.define index) = .ok s' ∧ Orderly s' (ramListStep es (.define index)) := by
  rw [OrderlyArea.step, ramListStep, h.isSome_find, h.room]
  split
  · exact ⟨s, rfl, h⟩
  · rename_i hnew
    simp only [Bool.or_eq_true, Bool.not_eq_true', not_or, Bool.not_eq_false, Bool.not_eq_true] at hnew
    obtain ⟨⟨hvalid, hfree⟩, hroom⟩ := hnew
    rw [← h.room] at hroom
    obtain ⟨ram, hadd, hram⟩ := h.represents.add hroom
    rw [hadd]
    refine ⟨_, rfl, hram, ?_, ?_, ?_⟩
    · simp [h.keys, RamEntry.blank]
    · rw [List.map_append, List.map_singleton, List.nodup_append']
      refine ⟨h.nodup, List.nodup_singleton _, ?_⟩
      intro handle hmem hhandle
      rw [List.mem_singleton] at hhandle
      obtain ⟨r, hr, rfl⟩ := List.mem_map.mp hmem
      exact List.any_eq_false.mp hfree r hr (beq_iff_eq.mpr hhandle)
    · intro r hr
      rw [List.mem_append, List.mem_singleton] at hr
      obtain hr | rfl := hr
      · exact h.valid r hr
      · exact hvalid

theorem delete (h : Orderly s es) (handle : TpmHandle) :
    ∃ s', s.step (.delete handle) = .ok s' ∧ Orderly s' (ramListStep es (.delete handle)) := by
  rw [OrderlyArea.step, ramListStep]
  cases hfind : s.find handle with
  | none =>
      have hkeep : (es.eraseP fun r => r.handle == handle) = es := by
        apply List.eraseP_of_forall_not
        intro r hr
        simpa using h.find_none hfind r hr
      rw [hkeep]
      exact ⟨s, rfl, h⟩
  | some index =>
      obtain ⟨xs, r, ys, is, js, rfl, hindices, rfl, hindex, _, his, hxs, hys⟩ := h.find_some hfind
      obtain ⟨hfirst, hlast⟩ := h.ne_of_split
      obtain ⟨ram, hdelete, hram⟩ := h.represents.delete hfirst
      have hes : ((xs ++ r :: ys).eraseP fun x => x.handle == r.handle) = xs ++ ys := by
        rw [List.eraseP_append_right _ (fun x hx => by simpa using hfirst x hx), List.eraseP_cons_of_pos (by simp)]
      have hidx : (s.indices.eraseP fun i => i.nvIndex == r.handle) = is ++ js := by
        rw [hindices, List.eraseP_append_right _ (fun i hi => by simpa using his i hi),
          List.eraseP_cons_of_pos (by simpa using hindex)]
      dsimp only
      rw [hdelete, hes, hidx]
      refine ⟨_, rfl, hram, ?_, ?_, ?_⟩
      · rw [List.map_append, List.map_append, hxs, hys]
      · have hsub : (xs ++ ys).Sublist (xs ++ r :: ys) := (List.sublist_cons_self r ys).append_left xs
        exact h.nodup.sublist (hsub.map _)
      · intro x hx
        rw [List.mem_append] at hx
        exact h.valid x (List.mem_append.mpr (hx.imp_right (List.mem_cons_of_mem r)))

theorem octets_splice {r : RamEntry} {offset : Nat} {data : Bytes} (hlen : offset + data.length ≤ r.data.length) :
    ({ r with data := splice r.data offset data } : RamEntry).octets =
      (r.header.octets ++ r.data.take offset) ++ (data ++ r.data.drop (offset + data.length)) := by
  have hsame : (splice r.data offset data).length = r.data.length := by
    simp only [splice, List.length_append, List.length_take, List.length_drop]
    omega
  rw [RamEntry.octets, RamEntry.header, hsame]
  simp only [splice, RamEntry.header, List.append_assoc]

theorem write (h : Orderly s es) (handle : TpmHandle) (offset : Nat) (data : Bytes) :
    ∃ s', s.step (.write handle offset data) = .ok s' ∧ Orderly s' (ramListStep es (.write handle offset data)) := by
  rw [OrderlyArea.step, ramListStep]
  cases hfind : s.find handle with
  | none =>
      refine ⟨s, rfl, ?_⟩
      rw [List.map_congr_left (g := id)]
      · rwa [List.map_id]
      · intro r hr
        rw [if_neg fun hboth => h.find_none hfind r hr hboth.1]
        rfl
  | some index =>
      obtain ⟨xs, r, ys, _, _, rfl, _, rfl, _, hlen, _⟩ := h.find_some hfind
      have hmap := h.map_split (f := fun x =>
        if x.handle = r.handle ∧ offset + data.length ≤ x.data.length then { x with data := splice x.data offset data }
        else x) fun x hx => if_neg fun hboth => hx hboth.1
      rw [hmap]
      dsimp only
      by_cases hroom : offset + data.length ≤ r.data.length
      · have hsame : (splice r.data offset data).length = r.data.length := by
          simp only [splice, List.length_append, List.length_take, List.length_drop]
          omega
        have hold : r.octets = (r.header.octets ++ r.data.take offset) ++
            ((r.data.drop offset).take data.length ++ r.data.drop (offset + data.length)) := by
          rw [RamEntry.octets, List.append_assoc, ← List.drop_drop, List.take_append_drop, List.take_append_drop]
        have hwritten := h.represents.overwrite hold (octets_splice hroom) (by rw [List.length_take, List.length_drop]; omega)
        rw [List.length_append, r.header_length, List.length_take, Nat.min_eq_left (by omega), ← Nat.add_assoc]
          at hwritten
        rw [if_neg (by omega), OrderlyArea.withEntry, h.represents.getIndex_eq h.ne_of_split.1,
          if_pos ⟨rfl, hroom⟩]
        have hvalid := h.valid r (List.mem_append_right _ List.mem_cons_self)
        exact ⟨_, rfl, h.change hwritten rfl hsame hvalid⟩
      · rw [if_pos (by omega), if_neg fun hboth => hroom hboth.2]
        exact ⟨s, rfl, h⟩

theorem setAttributes (h : Orderly s es) (handle : TpmHandle) (attributes : UInt32) :
    ∃ s', s.step (.setAttributes handle attributes) = .ok s' ∧
      Orderly s' (ramListStep es (.setAttributes handle attributes)) := by
  rw [OrderlyArea.step, ramListStep]
  cases hfind : s.find handle with
  | none =>
      refine ⟨s, rfl, ?_⟩
      rw [List.map_congr_left (g := id)]
      · rwa [List.map_id]
      · intro r hr
        rw [if_neg fun hboth => h.find_none hfind r hr hboth.1]
        rfl
  | some index =>
      obtain ⟨xs, r, ys, _, _, rfl, _, rfl, _⟩ := h.find_some hfind
      have hmap := h.map_split (f := fun x =>
        if x.handle = r.handle ∧ validTpmaNv attributes = true then { x with attributes } else x)
        fun x hx => if_neg fun hboth => hx hboth.1
      rw [hmap]
      dsimp only
      cases hvalid : validTpmaNv attributes with
      | false =>
          rw [Bool.not_false, if_pos rfl, if_neg fun hboth => Bool.false_ne_true hboth.2]
          exact ⟨s, rfl, h⟩
      | true =>
          have hold : r.octets = (le 4 r.header.size ++ le 4 r.handle.toNat) ++ (le 4 r.attributes.toNat ++ r.data) := by
            simp only [RamEntry.octets, NvRamHeader.octets, List.append_assoc]
            rfl
          have hnew : ({ r with attributes } : RamEntry).octets =
              (le 4 r.header.size ++ le 4 r.handle.toNat) ++ (le 4 attributes.toNat ++ r.data) := by
            simp only [RamEntry.octets, NvRamHeader.octets, List.append_assoc]
            rfl
          have hwritten := h.represents.overwrite hold hnew (by simp)
          rw [List.length_append, le_length, le_length] at hwritten
          rw [Bool.not_true, if_neg Bool.false_ne_true, if_pos ⟨rfl, rfl⟩, OrderlyArea.withEntry, h.represents.getIndex_eq h.ne_of_split.1]
          exact ⟨_, rfl, h.change hwritten rfl rfl hvalid⟩

/-- Every event succeeds on the octets, and they go on standing for the list. -/
theorem step (h : Orderly s es) (event : OrderlyEvent) :
    ∃ s', s.step event = .ok s' ∧ Orderly s' (ramListStep es event) := by
  cases event with
  | define index => exact h.define index
  | delete handle => exact h.delete handle
  | write handle offset data => exact h.write handle offset data
  | setAttributes handle attributes => exact h.setAttributes handle attributes

theorem run (h : Orderly s es) (events : List OrderlyEvent) :
    ∃ s', s.run events = .ok s' ∧ Orderly s' (Transition.run ramListStep es events) := by
  induction events generalizing s es with
  | nil => exact ⟨s, rfl, h⟩
  | cons event events ih =>
      obtain ⟨s', hstep, h'⟩ := h.step event
      obtain ⟨s'', hrun, h''⟩ := ih h'
      refine ⟨s'', ?_, h''⟩
      rw [OrderlyArea.run, List.foldlM_cons, hstep]
      exact hrun

end Orderly

/-! ## The blob and the list -/

/-- What is written for an entry. -/
def RamEntry.blob (r : RamEntry) : Bytes :=
  be 4 r.size ++ (writeUint32 r.handle ++ (be 4 r.attributes.toNat ++ (be 2 r.data.length ++ r.data)))

/-- The size of zero at the end of the blob, which is left out where no header has room. -/
def blobEnd (used : Nat) : Bytes := if ramOrderlyEnd < used + 12 then [] else be 4 0

namespace Represents
variable {m : Memory} {es : List RamEntry}

theorem marshal_from {xs ys : List RamEntry} {fuel : Nat} (h : Represents m (xs ++ ys)) (hfuel : ys.length < fuel)
    (hroom : (xs.map RamEntry.size).sum + 12 ≤ ramOrderlyEnd) :
    marshalRamEntries m fuel (xs.map RamEntry.size).sum =
      ys.flatMap RamEntry.blob ++ blobEnd ((xs ++ ys).map RamEntry.size).sum := by
  induction ys generalizing xs fuel with
  | nil =>
      obtain ⟨fuel, rfl⟩ : ∃ n, fuel = n + 1 := ⟨fuel - 1, by simp at hfuel; omega⟩
      rw [List.append_nil] at h ⊢
      have hmarker : Holds m (xs.map RamEntry.size).sum (le 4 0 ++ []) := h.marker hroom
      have hsize : (NvRamHeader.read m (xs.map RamEntry.size).sum).size = 0 := Holds.word hmarker (by decide)
      rw [marshalRamEntries, hsize, if_pos rfl, blobEnd, if_neg (by omega), List.append_nil, List.flatMap_nil,
        List.nil_append]
  | cons r ys ih =>
      obtain ⟨fuel, rfl⟩ : ∃ n, fuel = n + 1 := ⟨fuel - 1, by simp at hfuel; omega⟩
      have hfits := h.entry_fits
      have hheader := read_header h.entry (by omega)
      have hdata := read_data h.entry
      have hsize : r.header.size = r.size := rfl
      have hpos : 12 ≤ r.size := Nat.le_add_right _ _
      have hlen : r.size - 12 = r.data.length := Nat.add_sub_cancel_left _ _
      have hrest : (if ramOrderlyEnd < (xs.map RamEntry.size).sum + r.size + 12 then []
          else marshalRamEntries m fuel ((xs.map RamEntry.size).sum + r.size)) =
          ys.flatMap RamEntry.blob ++ blobEnd ((xs ++ r :: ys).map RamEntry.size).sum := by
        have hsum : ((xs ++ [r]).map RamEntry.size).sum = (xs.map RamEntry.size).sum + r.size := by simp
        split
        · rename_i hfull
          -- there is no room for another entry either
          have hys : ys = [] := by
            apply List.eq_nil_of_length_eq_zero
            have hleast := length_le ys
            omega
          subst hys
          rw [hsum, blobEnd, if_pos hfull, List.flatMap_nil, List.nil_append]
        · have happ : Represents m ((xs ++ [r]) ++ ys) := by rwa [List.append_assoc]
          have hnext := ih happ (Nat.lt_of_succ_lt_succ hfuel) (by rw [hsum]; omega)
          rw [hsum, List.append_assoc] at hnext
          exact hnext
      rw [marshalRamEntries, hheader]
      rw [hsize, hlen, hdata, if_neg (by omega), if_neg (by omega), hrest, List.flatMap_cons, RamEntry.blob]
      simp only [List.append_assoc]
      rfl

theorem marshal_eq (h : Represents m es) :
    indexOrderlyRamMarshal m = nvHeaderMarshal 2 0x5346FEAB 1 ++ (be 4 ramOrderlyEnd ++
      ((es.flatMap RamEntry.blob ++ blobEnd (es.map RamEntry.size).sum) ++ futureVersionsMarshal)) := by
  have hleast := length_le es
  have hfits := h.fits
  have happ : Represents m ([] ++ es) := h
  have hfuel : es.length < ramOrderlyEnd := by
    simp only [ramOrderlyEnd] at hfits ⊢
    omega
  have hentries := marshal_from happ hfuel (by decide)
  rw [List.map_nil, List.sum_nil, List.nil_append] at hentries
  rw [indexOrderlyRamMarshal, hentries]

end Represents

/-- The reader builds the entries up behind those it has, whatever the buffer holds before. -/
theorem unmarshal_from {xs ys : List RamEntry} {fuel datasize₀ : Nat} {m : Memory}
    (h : Holds m 0 (xs.flatMap RamEntry.octets)) (hfits : ((xs ++ ys).map RamEntry.size).sum ≤ ramOrderlyEnd)
    (hvalid : ∀ r ∈ ys, validTpmaNv r.attributes = true) (hfuel : ys.length < fuel) :
    ∃ m', Represents m' (xs ++ ys) ∧
      Reads (unmarshalRamEntries ramOrderlyEnd fuel (xs.map RamEntry.size).sum datasize₀ m)
        (ys.flatMap RamEntry.blob ++ blobEnd ((xs ++ ys).map RamEntry.size).sum) m' := by
  induction ys generalizing xs fuel datasize₀ m with
  | nil =>
      obtain ⟨fuel, rfl⟩ : ∃ n, fuel = n + 1 := ⟨fuel - 1, by simp at hfuel; omega⟩
      rw [List.append_nil] at hfits ⊢
      have hkept (n : Nat) : Holds (fillZero m (xs.map RamEntry.size).sum n) 0 (xs.flatMap RamEntry.octets) :=
        h.store_disjoint (.inl (by rw [used_length, Nat.zero_add]))
      by_cases hroom : ramOrderlyEnd < (xs.map RamEntry.size).sum + 12
      · refine ⟨_, ⟨hkept (ramOrderlyEnd - (xs.map RamEntry.size).sum), hfits, fun hend => by omega⟩, ?_⟩
        rw [unmarshalRamEntries, if_pos hroom, blobEnd, if_pos hroom]
        exact Reads.pure _
      · refine ⟨_, ⟨hkept 4, hfits, fun _ => Holds.store_self _ _ _⟩, ?_⟩
        rw [unmarshalRamEntries, if_neg hroom, if_neg (by omega), blobEnd, if_neg hroom]
        exact (Reads.word _ (by decide)).bind_last (Reads.pure _)
  | cons r ys ih =>
      obtain ⟨fuel, rfl⟩ : ∃ n, fuel = n + 1 := ⟨fuel - 1, by simp at hfuel; omega⟩
      have hsum : ((xs ++ [r]).map RamEntry.size).sum = (xs.map RamEntry.size).sum + r.size := by simp
      have htotal : ((xs ++ r :: ys).map RamEntry.size).sum =
          (xs.map RamEntry.size).sum + r.size + (ys.map RamEntry.size).sum := by simp [Nat.add_assoc]
      have hsize : r.size = 12 + r.data.length := rfl
      have hend : ramOrderlyEnd = 512 := rfl
      have hstored : Holds (store (store m ((xs.map RamEntry.size).sum + 12) r.data) (xs.map RamEntry.size).sum
          r.header.octets) 0 ((xs ++ [r]).flatMap RamEntry.octets) := by
        rw [List.flatMap_append, List.flatMap_singleton, Holds.append_iff, used_length, Nat.zero_add, RamEntry.octets,
          Holds.append_iff, r.header_length]
        refine ⟨(h.store_disjoint (.inl ?_)).store_disjoint (.inl ?_), Holds.store_self _ _ _,
          (Holds.store_self _ _ _).store_disjoint (.inr ?_)⟩
        · rw [used_length]
          omega
        · rw [used_length, Nat.zero_add]
        · rw [r.header_length]
      obtain ⟨m', hm', hreads⟩ := @ih (xs ++ [r]) fuel r.data.length _ hstored
        (by rw [List.append_assoc]; exact hfits) (fun x hx => hvalid x (List.mem_cons_of_mem r hx))
        (Nat.lt_of_succ_lt_succ hfuel)
      rw [List.append_assoc] at hm' hreads
      refine ⟨m', hm', ?_⟩
      rw [hsum, hsize, ← Nat.add_assoc] at hreads
      rw [unmarshalRamEntries, if_neg (by omega), if_neg (by omega), List.flatMap_cons, RamEntry.blob]
      simp only [List.append_assoc]
      refine (Reads.word _ (by omega)).bind ?_
      rw [if_neg (by omega)]
      refine (Reads.check (decide_eq_true (by omega))).bind_nil ?_
      refine (Reads.word _ (UInt32.toNat_lt _)).bind ?_
      refine (Reads.word _ (UInt32.toNat_lt _)).bind ?_
      rw [UInt32.ofNat_toNat, UInt32.ofNat_toNat]
      refine (Reads.check (hvalid r List.mem_cons_self)).bind_nil ?_
      refine (Reads.word _ (by omega)).bind ?_
      refine (Reads.check (decide_eq_true (by omega))).bind_nil ?_
      exact (Reads.take r.data _).bind hreads

theorem Represents.unmarshal {m : Memory} {es : List RamEntry} (h : Represents m es)
    (hvalid : ∀ r ∈ es, validTpmaNv r.attributes = true) (target : Memory) :
    ∃ m', Represents m' es ∧ Reads (indexOrderlyRamUnmarshal target) (indexOrderlyRamMarshal m) m' := by
  have hleast := length_le es
  have hfits := h.fits
  have hfuel : es.length < ramOrderlyEnd + 1 := by
    simp only [ramOrderlyEnd] at hfits ⊢
    omega
  obtain ⟨m', hm', hreads⟩ := @unmarshal_from [] es (ramOrderlyEnd + 1) 0 _ (Holds.nil target 0) hfits hvalid hfuel
  refine ⟨m', hm', ?_⟩
  rw [h.marshal_eq]
  refine (reads_nvHeader (by decide) (by decide) (by decide) (by decide)).bind ?_
  refine (Reads.word _ (by decide)).bind ?_
  exact hreads.bind ((reads_futureVersions (by decide)).bind_last (Reads.pure m'))

/-! ## The list in every run -/

/-- Every run of events from an empty area goes through. The entries lie one behind the other within the
buffer, one for each orderly index that is defined; the iterator finds exactly them, and so does it in a
buffer that their blob has been read into. -/
theorem orderly_of_run (events : List OrderlyEvent) :
    ∃ s, OrderlyArea.run {} events = .ok s ∧
      ∃ es, es = Transition.run ramListStep [] events ∧
        es.map (fun r => (r.handle, r.data.length)) = s.indices.map (fun i => (i.nvIndex, i.dataSize)) ∧
        (es.map RamEntry.handle).Nodup ∧
        Holds s.ram 0 (es.flatMap RamEntry.octets) ∧ (es.flatMap RamEntry.octets).length ≤ ramOrderlyEnd ∧
        nvRamWalk s.ram = (starts RamEntry.size 0 es, (es.flatMap RamEntry.octets).length) ∧
        nvRamEntries s.ram = es ∧
        ∀ target rest, ∃ ram, indexOrderlyRamUnmarshal target (indexOrderlyRamMarshal s.ram ++ rest) = .ok (ram, rest) ∧
          nvRamEntries ram = es := by
  obtain ⟨s, hrun, hs⟩ := Orderly.initial.run events
  refine ⟨s, hrun, _, rfl, hs.keys, hs.nodup, hs.represents.holds, ?_, ?_, hs.represents.entries_eq, ?_⟩
  · rw [used_length]
    exact hs.represents.fits
  · rw [used_length]
    exact hs.represents.walk_eq
  · intro target rest
    obtain ⟨ram, hram, hreads⟩ := hs.represents.unmarshal hs.valid target
    exact ⟨ram, hreads rest, hram.entries_eq⟩

end PqcTpm
