import Mathlib.Data.List.Nodup
import Mathlib.Data.List.Perm.Subperm
import Mathlib.Data.Nat.Size
import PqcTpm.Lib.CompactSections

/-!
# The linear NVRAM store

The state files of one TPM packed into a single file or block device: `swtpm_nvstore_linear.c` over the memory
map of `swtpm_nvstore_linear_file.c`. An access outside the map has no result here.
-/
namespace PqcTpm
open ByteCodec ByteMemory CompactSections

/-- `TPM_RESULT`, as far as the stores return it. -/
inductive TpmResult where
  | success | badParameter | fail | keyNotFound | size | encryptError | decryptError | badKeyProperty
  | badDatasize | badMode | badVersion | retry
  deriving DecidableEq

def w32 (n : Nat) : Nat := n % 2 ^ 32

theorem w32_of_lt {n : Nat} (h : n < 2 ^ 32) : w32 n = n := Nat.mod_eq_of_lt h

theorem w32_sub {a b : Nat} (hb : b ≤ a) (ha : a < 2 ^ 32) : w32 (a + 2 ^ 32 - b) = a - b := by
  rw [w32, show a + 2 ^ 32 - b = a - b + 2 ^ 32 by omega, Nat.add_mod_right, Nat.mod_eq_of_lt (by omega)]

/-! ## Rounding to a power of two -/

/-- `a |= a >> n`. -/
def smear (a n : Nat) : Nat := a ||| a >>> n

/-- `ROUND_TO_NEXT_POWER_OF_2_32`. -/
def roundToNextPowerOf2 (a : Nat) : Nat :=
  w32 (smear (smear (smear (smear (smear (w32 (a + 2 ^ 32 - 1)) 1) 2) 4) 8) 16 + 1)

/-- Every bit of `x` says whether one of the `n` bits of `a` from it on is set. -/
def Smeared (a n x : Nat) : Prop := ∀ i, x.testBit i = true ↔ ∃ j < n, a.testBit (i + j) = true

theorem smeared_one (a : Nat) : Smeared a 1 a := by
  intro i
  constructor
  · intro h
    exact ⟨0, Nat.one_pos, h⟩
  · rintro ⟨j, hj, h⟩
    obtain rfl : j = 0 := by omega
    exact h

theorem Smeared.double {a n x : Nat} (h : Smeared a n x) : Smeared a (2 * n) (smear x n) := by
  intro i
  rw [smear, Nat.testBit_or, Nat.testBit_shiftRight, Bool.or_eq_true, h i, h (n + i)]
  constructor
  · rintro (⟨j, hj, hbit⟩ | ⟨j, hj, hbit⟩)
    · exact ⟨j, by omega, hbit⟩
    · exact ⟨n + j, by omega, by rwa [← Nat.add_assoc, Nat.add_comm i n]⟩
  · rintro ⟨j, hj, hbit⟩
    by_cases hlow : j < n
    · exact .inl ⟨j, hlow, hbit⟩
    · exact .inr ⟨j - n, by omega, by rwa [show n + i + (j - n) = i + j by omega]⟩

theorem Smeared.eq {a x : Nat} (h : Smeared a 32 x) (ha : a < 2 ^ 32) : x = 2 ^ a.size - 1 := by
  apply Nat.eq_of_testBit_eq
  intro i
  rw [Nat.testBit_two_pow_sub_one, Bool.eq_iff_iff, h i, decide_eq_true_iff, Nat.lt_size]
  constructor
  · rintro ⟨j, -, hbit⟩
    calc 2 ^ i ≤ 2 ^ (i + j) := Nat.pow_le_pow_right Nat.two_pos (Nat.le_add_right i j)
      _ ≤ a := Nat.ge_two_pow_of_testBit hbit
  · intro hle
    obtain ⟨k, hk, hbit⟩ := Nat.exists_ge_and_testBit_of_ge_two_pow hle
    have hk32 : k < 32 := by
      by_contra hge
      have hpow : 2 ^ 32 ≤ 2 ^ k := Nat.pow_le_pow_right Nat.two_pos (Nat.le_of_not_lt hge)
      exact Nat.lt_irrefl _ (Nat.lt_of_lt_of_le ha (Nat.le_trans hpow (Nat.ge_two_pow_of_testBit hbit)))
    exact ⟨k - i, by omega, by rwa [Nat.add_sub_cancel' hk]⟩

theorem roundToNextPowerOf2_eq {n : Nat} (hpos : 0 < n) (hn : n < 2 ^ 32) :
    roundToNextPowerOf2 n = w32 (2 ^ (n - 1).size) := by
  have hsub : w32 (n + 2 ^ 32 - 1) = n - 1 := w32_sub hpos hn
  have hall := (((((smeared_one (n - 1)).double).double).double).double).double
  rw [roundToNextPowerOf2, hsub, hall.eq (by omega), Nat.sub_add_cancel Nat.one_le_two_pow]

/-- The least power of two that is not below `n`. -/
theorem roundToNextPowerOf2_spec {n k : Nat} (hpos : 0 < n) (hn : n ≤ 2 ^ k) (hk : k < 32) :
    n ≤ roundToNextPowerOf2 n ∧ roundToNextPowerOf2 n ≤ 2 ^ k ∧ roundToNextPowerOf2 n < 2 * n := by
  have hk32 : 2 ^ k < 2 ^ 32 := Nat.pow_lt_pow_right Nat.one_lt_two hk
  have hsize : (n - 1).size ≤ k := Nat.size_le.mpr (by omega)
  have hle : 2 ^ (n - 1).size ≤ 2 ^ k := Nat.pow_le_pow_right Nat.two_pos hsize
  rw [roundToNextPowerOf2_eq hpos (by omega), w32_of_lt (by omega)]
  have hself := Nat.lt_size_self (n - 1)
  refine ⟨by omega, hle, ?_⟩
  cases hs : (n - 1).size with
  | zero => omega
  | succ s =>
      have hlow : 2 ^ s ≤ n - 1 := Nat.lt_size.mp (by omega)
      rw [Nat.pow_succ]
      omega

/-! ## The header -/

/-- `struct nvram_linear_hdr_file`; a file without an offset is not allocated. -/
structure FileEntry where
  offset : Nat
  dataLength : Nat
  sectionLength : Nat
  deriving DecidableEq

namespace LinearHeader

/-- `SWTPM_NVSTORE_LINEAR_MAGIC`. -/
def magic : Nat := 0x737774706d6c696e

/-- `SWTPM_NVSTORE_LINEAR_MAX_STATES`. -/
def maxStates : Nat := 15

/-- `sizeof(struct nvram_linear_hdr)`. -/
def headerSize : Nat := 192

def fileAt (i : Nat) : Nat := 12 + 12 * i

variable (m : Memory) (i : Nat)

def hdrsize : Nat := fromLe (load m 10 2)

def file : FileEntry where
  offset := fromLe (load m (fileAt i) 4)
  dataLength := fromLe (load m (fileAt i + 4) 4)
  sectionLength := fromLe (load m (fileAt i + 8) 4)

def setOffset (offset : Nat) : Memory := store m (fileAt i) (le 4 offset)

def setDataLength (dataLength : Nat) : Memory := store m (fileAt i + 4) (le 4 dataLength)

def setFile (e : FileEntry) : Memory := store m (fileAt i) (le 4 e.offset ++ le 4 e.dataLength ++ le 4 e.sectionLength)

end LinearHeader

open LinearHeader

/-- The backend's state: what the file or device holds, its size and whether it is a regular file
(`mmap_state`), and the length that the store goes by (`state.length`). -/
structure LinearStore where
  octets : Memory
  size : Nat
  canTruncate : Bool
  mapped : Bool
  length : Nat

/-- What the host says to `ftruncate` from one size to another, and to each of the `msync` calls. -/
structure LinearHost where
  truncate : Nat → Nat → Bool
  resizeSync : Bool
  headerSync : Bool
  dataSync : Bool

/-- A file that is to grow does; if it did not, the map would be gone. -/
def LinearHost.Grows (host : LinearHost) : Prop := ∀ a b, a < b → host.truncate a b = true

/-- What is behind the end of the file reads as zero when the file grows again. -/
def clip (m : Memory) (n : Nat) : Memory := fun i => if i < n then m i else 0

namespace LinearStore

/-- `SWTPM_NVRAM_LinearFile_Mmap`. -/
def mmap (host : LinearHost) (s : LinearStore) : TpmResult × LinearStore :=
  if headerSize ≤ s.size then (.success, { s with mapped := true })
  else if s.canTruncate ∧ host.truncate s.size headerSize then
    (.success, { s with octets := clip s.octets s.size, size := headerSize, mapped := true })
  else (.fail, { s with mapped := false })

/-- `SWTPM_NVRAM_LinearFile_Resize`; the map is given up before the file is truncated. -/
def fileResize (host : LinearHost) (s : LinearStore) (requested : Nat) : TpmResult × LinearStore :=
  if s.canTruncate then
    if !host.resizeSync then (.fail, s)
    else if host.truncate s.size requested then
      mmap host { s with octets := clip s.octets (min s.size requested), size := requested }
    else if s.size < requested then (.fail, { s with mapped := false })
    else mmap host s
  else if s.size < requested then (.size, s)
  else (.success, s)

/-- `SWTPM_NVRAM_Linear_SafeResize`. -/
def safeResize (host : LinearHost) (s : LinearStore) (newSize : Nat) : TpmResult × LinearStore :=
  let (rc, s) := s.fileResize host newSize
  if rc ≠ .success then (rc, s)
  else
    let s := { s with length := s.size }
    if s.length < newSize then (.size, s) else (.success, s)

/-- `SWTPM_NVRAM_Linear_GetFileNr`. -/
def getFileNr (name : String) : Option Nat :=
  if name = "permall" then some 0
  else if name = "volatilestate" then some 1
  else if name = "savestate" then some 2
  else none

/-- One turn of the search for the end of the last file. -/
def laterEnd (m : Memory) (newOffset i : Nat) : Nat :=
  let file := file m i
  if file.offset = 0 then newOffset
  else
    let curEnd := w32 (file.offset + file.sectionLength)
    if newOffset < curEnd then curEnd else newOffset

/-- `SWTPM_NVRAM_Linear_AllocFile`. -/
def allocFile (host : LinearHost) (s : LinearStore) (fileNr size : Nat) : TpmResult × LinearStore :=
  let sectionSize := roundToNextPowerOf2 size
  let newOffset := (List.range maxStates).foldl (laterEnd s.octets) (hdrsize s.octets)
  let (rc, s) := s.safeResize host (w32 (newOffset + sectionSize))
  if rc ≠ .success then (rc, s)
  else (rc, { s with octets := setFile s.octets fileNr ⟨newOffset, size, sectionSize⟩ })

/-- What the loop of `SWTPM_NVRAM_Linear_RemoveFile` keeps. -/
structure Compaction where
  octets : Memory
  nextOffset : Nat
  stateEnd : Nat

/-- One turn of it: a file behind the one removed gets its new offset. -/
def shiftFile (oldFile : FileEntry) (c : Compaction) (i : Nat) : Compaction :=
  let file := file c.octets i
  if file.offset = 0 then c
  else if oldFile.offset < file.offset then
    let curEnd := w32 (file.offset + file.sectionLength)
    { octets := setOffset c.octets i (w32 (file.offset + 2 ^ 32 - oldFile.sectionLength))
      nextOffset := if file.offset < c.nextOffset then file.offset else c.nextOffset
      stateEnd := if c.stateEnd < curEnd then curEnd else c.stateEnd }
  else c

/-- The range lies in the map. -/
def reaches (s : LinearStore) (a n : Nat) : Bool := s.mapped && decide (a + n ≤ s.size)

/-- The `memmove` that closes the gap. -/
def compact (s : LinearStore) (oldFile : FileEntry) (c : Compaction) : Option LinearStore :=
  let n := w32 (c.stateEnd + 2 ^ 32 - c.nextOffset)
  if c.nextOffset = 0xffffffff then some { s with octets := c.octets }
  else if s.reaches c.nextOffset n && s.reaches oldFile.offset n then
    some { s with octets := move c.octets c.nextOffset oldFile.offset n }
  else none

/-- `SWTPM_NVRAM_Linear_RemoveFile`. -/
def removeFile (host : LinearHost) (s : LinearStore) (fileNr : Nat) (resize : Bool) :
    Option (TpmResult × LinearStore) :=
  let oldFile := file s.octets fileNr
  if oldFile.offset = 0 then some (.success, s)
  else do
    let c := (List.range maxStates).foldl (shiftFile oldFile)
      ⟨setFile s.octets fileNr ⟨0, 0, 0⟩, 0xffffffff, 0⟩
    let s ← s.compact oldFile c
    if resize then
      let newLen := w32 (s.length + 2 ^ 32 - oldFile.sectionLength)
      let (rc, s) := s.safeResize host newLen
      pure (rc, if rc = .success then { s with length := newLen } else s)
    else pure (.success, s)

/-- `SWTPM_NVRAM_Prepare_Linear` at the start of a process, with `SWTPM_NVRAM_LinearFile_Open`. A file of another
format is taken over, without regard to what the flush says. -/
def prepare (host : LinearHost) (s : LinearStore) : TpmResult × LinearStore :=
  let (rc, s) := s.mmap host
  if rc ≠ .success then (rc, s)
  else
    let s := { s with length := s.size }
    if fromLe (load s.octets 0 8) ≠ magic then
      let octets := store (store s.octets 0 (le 8 magic ++ [1])) 10 (le 2 headerSize)
      (.success, { s with octets := store octets 12 (List.replicate 180 0) })
    else if 1 < fromLe (load s.octets 8 1) then (.fail, s)
    else (.success, s)

/-- `SWTPM_NVRAM_LoadData_Linear`. -/
def loadData (s : LinearStore) (name : String) : Option (Except TpmResult Bytes) :=
  match getFileNr name with
  | none => some (.error .fail)
  | some fileNr =>
      let file := file s.octets fileNr
      if !s.mapped then none
      else if file.offset = 0 then some (.error .retry)
      else if s.length < w32 (file.offset + file.dataLength) then some (.error .fail)
      else if s.reaches file.offset file.dataLength then some (.ok (load s.octets file.offset file.dataLength))
      else none

/-- The first half of `SWTPM_NVRAM_StoreData_Linear`: a section that is large enough. -/
def makeRoom (host : LinearHost) (s : LinearStore) (fileNr length : Nat) : Option (TpmResult × LinearStore) :=
  let file := file s.octets fileNr
  if file.offset = 0 then some (s.allocFile host fileNr length)
  else if file.sectionLength < length then do
    let (rc, s) ← s.removeFile host fileNr false
    pure (if rc ≠ .success then (rc, s) else s.allocFile host fileNr length)
  else some (.success, s)

/-- What its flushes say. -/
def flushed (host : LinearHost) (full header : Bool) : TpmResult :=
  if (full || !header || host.headerSync) && host.dataSync then .success else .fail

/-- `SWTPM_NVRAM_StoreData_Linear`. -/
def storeData (host : LinearHost) (s : LinearStore) (name : String) (filedata : Bytes) :
    Option (TpmResult × LinearStore) :=
  match getFileNr name with
  | none => some (.fail, s)
  | some fileNr =>
      let old := file s.octets fileNr
      if !s.mapped then none
      else do
        let (rc, s) ← s.makeRoom host fileNr filedata.length
        if rc ≠ .success then pure (rc, s)
        else
          let file := file s.octets fileNr
          let changed := decide (filedata.length ≠ file.dataLength)
          let octets := if changed then setDataLength s.octets fileNr filedata.length else s.octets
          if s.reaches file.offset filedata.length then
            pure (flushed host (old.offset ≠ 0 ∧ old.sectionLength < filedata.length) (old.offset = 0 || changed),
              { s with octets := store octets file.offset filedata })
          else none

/-- `SWTPM_NVRAM_DeleteName_Linear`. -/
def deleteName (host : LinearHost) (s : LinearStore) (name : String) : Option (TpmResult × LinearStore) :=
  match getFileNr name with
  | none => some (.fail, s)
  | some fileNr =>
      if !s.mapped then none
      else do
        let (rc, s) ← s.removeFile host fileNr true
        pure (if rc ≠ .success then rc else if host.dataSync then .success else .fail, s)

/-- `SWTPM_NVRAM_CheckState_Linear`. -/
def checkState (s : LinearStore) (name : String) : Option (Except TpmResult Nat) :=
  match getFileNr name with
  | none => some (.error .fail)
  | some fileNr =>
      let file := file s.octets fileNr
      if !s.mapped then none
      else if file.offset = 0 then some (.error .retry)
      else some (.ok file.dataLength)

end LinearStore

/-! ## Header fields -/

namespace LinearHeader
variable {m m' : Memory} {i j a : Nat} {bs : Bytes}

theorem word_of_holds {n : Nat} (h : Holds m a (le 4 n)) (hn : n < 2 ^ 32) : fromLe (load m a 4) = n := by
  have hword : load m a (le 4 n).length = le 4 n := h
  rw [le_length] at hword
  rw [hword, fromLe_le hn]

theorem fileAt_bounds (hi : i < maxStates) : 12 ≤ fileAt i ∧ fileAt i + 12 ≤ headerSize := by
  simp only [fileAt, maxStates, headerSize] at *
  omega

theorem fileAt_disjoint (hne : i ≠ j) : fileAt i + 12 ≤ fileAt j ∨ fileAt j + 12 ≤ fileAt i := by
  simp only [fileAt]
  omega

theorem file_of_holds {e : FileEntry}
    (h : Holds m (fileAt i) (le 4 e.offset ++ le 4 e.dataLength ++ le 4 e.sectionLength))
    (ho : e.offset < 2 ^ 32) (hd : e.dataLength < 2 ^ 32) (hs : e.sectionLength < 2 ^ 32) : file m i = e := by
  obtain ⟨hleft, hsection⟩ := Holds.append_iff.mp h
  obtain ⟨hoffset, hdata⟩ := Holds.append_iff.mp hleft
  rw [List.length_append, le_length, le_length] at hsection
  rw [le_length] at hdata
  rw [file, word_of_holds hoffset ho, word_of_holds hdata hd, word_of_holds hsection hs]

theorem file_congr (h : ∀ k, fileAt i ≤ k → k < fileAt i + 12 → m' k = m k) : file m' i = file m i := by
  rw [file, file, load_congr fun k hlo hhi => h k (by omega) (by omega),
    load_congr fun k hlo hhi => h k (by omega) (by omega), load_congr fun k hlo hhi => h k (by omega) (by omega)]

theorem file_store_disjoint (h : fileAt i + 12 ≤ a ∨ a + bs.length ≤ fileAt i) : file (store m a bs) i = file m i := by
  apply file_congr
  intro k hlo hhi
  rw [store, if_neg (by omega)]

theorem file_setFile_self {e : FileEntry} (ho : e.offset < 2 ^ 32) (hd : e.dataLength < 2 ^ 32)
    (hs : e.sectionLength < 2 ^ 32) : file (setFile m i e) i = e :=
  file_of_holds (Holds.store_self _ _ _) ho hd hs

theorem file_setFile_of_ne {e : FileEntry} (hne : i ≠ j) : file (setFile m j e) i = file m i := by
  apply file_store_disjoint
  simp only [List.length_append, le_length]
  exact fileAt_disjoint hne

theorem file_setOffset_self {offset : Nat} (ho : offset < 2 ^ 32) :
    file (setOffset m i offset) i = { file m i with offset } := by
  have hword := word_of_holds (Holds.store_self m (fileAt i) (le 4 offset)) ho
  rw [file, setOffset, hword, load_store_disjoint (.inr (by rw [le_length])),
    load_store_disjoint (.inr (by rw [le_length]; omega))]
  rfl

theorem file_setOffset_of_ne {offset : Nat} (hne : i ≠ j) : file (setOffset m j offset) i = file m i := by
  apply file_store_disjoint
  rw [le_length]
  have hd := fileAt_disjoint hne
  omega

theorem file_setDataLength_self {dataLength : Nat} (hd : dataLength < 2 ^ 32) :
    file (setDataLength m i dataLength) i = { file m i with dataLength } := by
  have hword := word_of_holds (Holds.store_self m (fileAt i + 4) (le 4 dataLength)) hd
  rw [file, setDataLength, hword, load_store_disjoint (.inl (Nat.le_refl _)),
    load_store_disjoint (.inr (by rw [le_length]))]
  rfl

theorem file_setDataLength_of_ne {dataLength : Nat} (hne : i ≠ j) :
    file (setDataLength m j dataLength) i = file m i := by
  apply file_store_disjoint
  rw [le_length]
  have hd := fileAt_disjoint hne
  omega

/-- What a process that starts later recognises. -/
structure Formatted (m : Memory) : Prop where
  magic : fromLe (load m 0 8) = magic
  version : fromLe (load m 8 1) ≤ 1
  hdrsize : hdrsize m = headerSize

theorem Formatted.congr (h : Formatted m) (hm : ∀ k < 12, m' k = m k) : Formatted m' where
  magic := by
    rw [load_congr fun k _ hhi => hm k (by omega)]
    exact h.magic
  version := by
    rw [load_congr fun k _ hhi => hm k (by omega)]
    exact h.version
  hdrsize := by
    rw [LinearHeader.hdrsize, load_congr fun k _ hhi => hm k (by omega)]
    exact h.hdrsize

end LinearHeader

/-! ## The sections -/

/-- What a file holds. -/
def fileBytes (m : Memory) (i : Nat) : Option Bytes :=
  if (file m i).offset = 0 then none else some (load m (file m i).offset (file m i).dataLength)

/-- The sections of the files in `order` follow the header without a hole; there is no other file. -/
structure Laid (m : Memory) (order : List Nat) : Prop where
  formatted : Formatted m
  nodup : order.Nodup
  known : ∀ i ∈ order, i < 3
  allocated : ∀ i < maxStates, (file m i).offset ≠ 0 ↔ i ∈ order
  packed : Packed (fun i => (file m i).offset) (fun i => (file m i).sectionLength) headerSize order
  positive : ∀ i ∈ order, 0 < (file m i).sectionLength
  small : ∀ i ∈ order, (file m i).sectionLength ≤ 2 ^ 30
  data : ∀ i ∈ order, (file m i).dataLength ≤ (file m i).sectionLength

/-- Where the last section ends. -/
def filesEnd (m : Memory) (order : List Nat) : Nat := endOf (fun i => (file m i).sectionLength) headerSize order

theorem headerSize_le_filesEnd (m : Memory) (order : List Nat) : headerSize ≤ filesEnd m order := le_endOf

namespace Laid
variable {m m' : Memory} {order xs ys : List Nat} {i f : Nat}

theorem length_le (h : Laid m order) : order.length ≤ 3 := by
  have hsub : order ⊆ List.range 3 := fun i hi => List.mem_range.mpr (h.known i hi)
  have hle := (List.subperm_of_subset h.nodup hsub).length_le
  rwa [List.length_range] at hle

theorem length_le_of_not_mem (h : Laid m order) (hf : f < 3) (hnot : f ∉ order) : order.length ≤ 2 := by
  have hsub : f :: order ⊆ List.range 3 := by
    intro i hi
    rcases List.mem_cons.mp hi with rfl | hi
    · exact List.mem_range.mpr hf
    · exact List.mem_range.mpr (h.known i hi)
  have hle := (List.subperm_of_subset (List.nodup_cons.mpr ⟨hnot, h.nodup⟩) hsub).length_le
  rw [List.length_cons, List.length_range] at hle
  exact Nat.le_of_succ_le_succ hle

theorem filesEnd_le (h : Laid m order) : filesEnd m order ≤ headerSize + order.length * 2 ^ 30 := endOf_le h.small

theorem filesEnd_lt (h : Laid m order) : filesEnd m order < 2 ^ 32 - 1 := by
  have hlen := h.length_le
  have hend := h.filesEnd_le
  have hmul : order.length * 2 ^ 30 ≤ 3 * 2 ^ 30 := Nat.mul_le_mul_right _ hlen
  simp only [headerSize] at hend
  omega

theorem bounds (h : Laid m order) (hi : i ∈ order) : headerSize ≤ (file m i).offset ∧
    (file m i).offset + (file m i).sectionLength ≤ filesEnd m order := h.packed.bounds hi

theorem lt_maxStates (h : Laid m order) (hi : i ∈ order) : i < maxStates :=
  Nat.lt_trans (h.known i hi) (by simp [maxStates])

theorem fileBytes_of_mem (h : Laid m order) (hi : i ∈ order) :
    fileBytes m i = some (load m (file m i).offset (file m i).dataLength) :=
  if_neg ((h.allocated i (h.lt_maxStates hi)).mpr hi)

theorem fileBytes_of_not_mem (h : Laid m order) (hlt : i < maxStates) (hi : i ∉ order) : fileBytes m i = none :=
  if_pos (not_not.mp fun hne => hi ((h.allocated i hlt).mp hne))

theorem file_of_agree (hm : ∀ k < filesEnd m order, m' k = m k) (hi : i < maxStates) : file m' i = file m i := by
  apply file_congr
  intro k _ hhi
  have hend := headerSize_le_filesEnd m order
  have hat := (fileAt_bounds hi).2
  exact hm k (by omega)

/-- The layout is read off what lies before the end of the last section. -/
theorem of_agree (h : Laid m order) (hm : ∀ k < filesEnd m order, m' k = m k) : Laid m' order := by
  have hfile : ∀ i ∈ order, file m' i = file m i := fun i hi => file_of_agree hm (h.lt_maxStates hi)
  have hend := headerSize_le_filesEnd m order
  refine ⟨h.formatted.congr ?_, h.nodup, h.known, ?_, h.packed.congr ?_ ?_, ?_, ?_, ?_⟩
  · intro k hk
    exact hm k (by simp only [headerSize] at hend; omega)
  · intro i hi
    rw [file_of_agree hm hi]
    exact h.allocated i hi
  · intro i hi
    rw [hfile i hi]
  · intro i hi
    rw [hfile i hi]
  · intro i hi
    rw [hfile i hi]
    exact h.positive i hi
  · intro i hi
    rw [hfile i hi]
    exact h.small i hi
  · intro i hi
    rw [hfile i hi]
    exact h.data i hi

theorem fileBytes_of_agree (h : Laid m order) (hm : ∀ k < filesEnd m order, m' k = m k) (hi : i < maxStates) :
    fileBytes m' i = fileBytes m i := by
  by_cases hmem : i ∈ order
  · have hb := h.bounds hmem
    have hd := h.data i hmem
    rw [(h.of_agree hm).fileBytes_of_mem hmem, h.fileBytes_of_mem hmem, file_of_agree hm hi]
    congr 1
    apply load_congr
    intro k _ hhi
    exact hm k (by omega)
  · rw [(h.of_agree hm).fileBytes_of_not_mem hi hmem, h.fileBytes_of_not_mem hi hmem]

theorem filesEnd_of_agree (h : Laid m order) (hm : ∀ k < filesEnd m order, m' k = m k) :
    filesEnd m' order = filesEnd m order := by
  apply endOf_congr
  intro i hi
  rw [file_of_agree hm (h.lt_maxStates hi)]

/-! ### Allocation -/

theorem laterEnd_bounds (h : Laid m order) (hi : i < maxStates) {acc : Nat} (hacc : acc ≤ filesEnd m order) :
    acc ≤ LinearStore.laterEnd m acc i ∧ LinearStore.laterEnd m acc i ≤ filesEnd m order ∧
      (i ∈ order → (file m i).offset + (file m i).sectionLength ≤ LinearStore.laterEnd m acc i) := by
  rw [LinearStore.laterEnd]
  by_cases hmem : i ∈ order
  · have hb := h.bounds hmem
    have hend := h.filesEnd_lt
    rw [if_neg ((h.allocated i hi).mpr hmem), w32_of_lt (by omega)]
    dsimp only
    split <;> omega
  · have hoff : (file m i).offset = 0 := not_not.mp fun hne => hmem ((h.allocated i hi).mp hne)
    rw [if_pos hoff]
    exact ⟨Nat.le_refl _, hacc, fun hi => absurd hi hmem⟩

theorem foldl_laterEnd (h : Laid m order) (is : List Nat) (his : ∀ i ∈ is, i < maxStates) (acc : Nat)
    (hacc : acc ≤ filesEnd m order) :
    acc ≤ is.foldl (LinearStore.laterEnd m) acc ∧ is.foldl (LinearStore.laterEnd m) acc ≤ filesEnd m order ∧
      ∀ i ∈ is, i ∈ order → (file m i).offset + (file m i).sectionLength ≤ is.foldl (LinearStore.laterEnd m) acc := by
  induction is generalizing acc with
  | nil => exact ⟨Nat.le_refl _, hacc, fun i hi => absurd hi List.not_mem_nil⟩
  | cons i is ih =>
      obtain ⟨hge, hle, hmem⟩ := h.laterEnd_bounds (his i List.mem_cons_self) hacc
      obtain ⟨hge', hle', hmem'⟩ := ih (fun j hj => his j (List.mem_cons_of_mem i hj)) _ hle
      rw [List.foldl_cons]
      refine ⟨Nat.le_trans hge hge', hle', ?_⟩
      intro j hj hjo
      rcases List.mem_cons.mp hj with rfl | hj
      · exact Nat.le_trans (hmem hjo) hge'
      · exact hmem' j hj hjo

theorem foldl_laterEnd_eq (h : Laid m order) :
    (List.range maxStates).foldl (LinearStore.laterEnd m) (hdrsize m) = filesEnd m order := by
  obtain ⟨hge, hle, hmem⟩ := h.foldl_laterEnd (List.range maxStates)
    (fun i hi => List.mem_range.mp hi) (hdrsize m) (by rw [h.formatted.hdrsize]; exact headerSize_le_filesEnd m order)
  apply Nat.le_antisymm hle
  by_cases hnil : order = []
  · subst hnil
    rw [h.formatted.hdrsize] at hge ⊢
    exact hge
  · obtain ⟨i, hi, hlast⟩ := exists_endOf h.packed hnil
    calc filesEnd m order = (file m i).offset + (file m i).sectionLength := hlast.symm
      _ ≤ _ := hmem i (List.mem_range.mpr (h.lt_maxStates hi)) hi

/-- A file is added behind the last section. -/
theorem alloc (h : Laid m order) (hf : f < 3) (hnot : f ∉ order) (size : Nat) {sectionSize : Nat} (hpos : 0 < sectionSize)
    (hsmall : sectionSize ≤ 2 ^ 30) (hsize : size ≤ sectionSize) :
    Laid (setFile m f ⟨filesEnd m order, size, sectionSize⟩) (order ++ [f]) ∧
      file (setFile m f ⟨filesEnd m order, size, sectionSize⟩) f = ⟨filesEnd m order, size, sectionSize⟩ := by
  have hend := h.filesEnd_lt
  have hself := file_setFile_self (m := m) (i := f) (e := ⟨filesEnd m order, size, sectionSize⟩) (by simp only; omega)
    (by simp only; omega) (by simp only; omega)
  have hother : ∀ i ∈ order, file (setFile m f ⟨filesEnd m order, size, sectionSize⟩) i = file m i := fun i hi =>
    file_setFile_of_ne fun heq => hnot (heq ▸ hi)
  generalize hm : setFile m f ⟨filesEnd m order, size, sectionSize⟩ = m' at *
  have hcases : ∀ (P : Nat → Prop), (∀ i ∈ order, P i) → P f → ∀ i ∈ order ++ [f], P i := by
    intro P ho hpf i hi
    rcases List.mem_append.mp hi with hi | hi
    · exact ho i hi
    · obtain rfl := List.mem_singleton.mp hi
      exact hpf
  refine ⟨⟨?_, ?_, ?_, ?_, ?_, ?_, ?_, ?_⟩, hself⟩
  · apply h.formatted.congr
    intro k hk
    have hat := (fileAt_bounds (i := f) (by simp only [maxStates]; omega)).1
    rw [← hm, setFile, store, if_neg (by omega)]
  · exact List.nodup_append.mpr ⟨h.nodup, List.nodup_singleton f, fun a ha b hb hab =>
      hnot (List.mem_singleton.mp hb ▸ hab ▸ ha)⟩
  · exact hcases _ h.known hf
  · intro i hi
    by_cases heq : i = f
    · subst heq
      have hhead := headerSize_le_filesEnd m order
      simp only [hself, List.mem_append, List.mem_singleton, or_true, iff_true]
      simp only [headerSize] at hhead
      omega
    · rw [← hm, file_setFile_of_ne heq, h.allocated i hi, List.mem_append, List.mem_singleton]
      exact ⟨.inl, fun hor => hor.resolve_right heq⟩
  · apply Packed.snoc
    · exact h.packed.congr (fun i hi => by rw [hother i hi]) fun i hi => by rw [hother i hi]
    · rw [hself]
      exact (endOf_congr fun i hi => by rw [hother i hi]).symm
  · exact hcases _ (fun i hi => by rw [hother i hi]; exact h.positive i hi) (by rw [hself]; exact hpos)
  · exact hcases _ (fun i hi => by rw [hother i hi]; exact h.small i hi) (by rw [hself]; exact hsmall)
  · exact hcases _ (fun i hi => by rw [hother i hi]; exact h.data i hi) (by rw [hself]; exact hsize)

end Laid

/-! ### Removal -/

/-- What the loop has done after these files. -/
structure Shifted (old : FileEntry) (is : List Nat) (c c' : LinearStore.Compaction) : Prop where
  outside : ∀ k, k < 12 ∨ headerSize ≤ k → c'.octets k = c.octets k
  moved : ∀ j ∈ is, old.offset < (file c.octets j).offset →
    file c'.octets j = { file c.octets j with offset := (file c.octets j).offset - old.sectionLength }
  kept : ∀ j, (j ∈ is → ¬old.offset < (file c.octets j).offset) → file c'.octets j = file c.octets j
  next_le : c'.nextOffset ≤ c.nextOffset
  next_le_file : ∀ j ∈ is, old.offset < (file c.octets j).offset → c'.nextOffset ≤ (file c.octets j).offset
  next_eq : c'.nextOffset = c.nextOffset ∨
    ∃ j ∈ is, old.offset < (file c.octets j).offset ∧ c'.nextOffset = (file c.octets j).offset
  le_end : c.stateEnd ≤ c'.stateEnd
  file_le_end : ∀ j ∈ is, old.offset < (file c.octets j).offset →
    (file c.octets j).offset + (file c.octets j).sectionLength ≤ c'.stateEnd
  end_eq : c'.stateEnd = c.stateEnd ∨ ∃ j ∈ is, old.offset < (file c.octets j).offset ∧
    c'.stateEnd = (file c.octets j).offset + (file c.octets j).sectionLength

namespace Shifted
variable {old : FileEntry} {is : List Nat} {i : Nat} {c c₁ c₂ : LinearStore.Compaction}

theorem nil : Shifted old [] c c where
  outside _ _ := rfl
  moved _ hj := absurd hj List.not_mem_nil
  kept _ _ := rfl
  next_le := Nat.le_refl _
  next_le_file _ hj := absurd hj List.not_mem_nil
  next_eq := .inl rfl
  le_end := Nat.le_refl _
  file_le_end _ hj := absurd hj List.not_mem_nil
  end_eq := .inl rfl

/-- A file behind the one removed. -/
theorem cons_moved (hi : i < maxStates) (hlt : old.offset < (file c.octets i).offset)
    (hsec : old.sectionLength ≤ (file c.octets i).offset)
    (hend : (file c.octets i).offset + (file c.octets i).sectionLength < 2 ^ 32) (hnot : i ∉ is)
    (h : Shifted old is (LinearStore.shiftFile old c i) c₂) : Shifted old (i :: is) c c₂ := by
  have hstep : LinearStore.shiftFile old c i =
      { octets := setOffset c.octets i ((file c.octets i).offset - old.sectionLength)
        nextOffset := if (file c.octets i).offset < c.nextOffset then (file c.octets i).offset else c.nextOffset
        stateEnd := if c.stateEnd < (file c.octets i).offset + (file c.octets i).sectionLength then
          (file c.octets i).offset + (file c.octets i).sectionLength else c.stateEnd } := by
    rw [LinearStore.shiftFile]
    dsimp only
    rw [if_neg (by omega), if_pos hlt, w32_of_lt hend, w32_sub hsec (by omega)]
  have hself : file (setOffset c.octets i ((file c.octets i).offset - old.sectionLength)) i =
      { file c.octets i with offset := (file c.octets i).offset - old.sectionLength } :=
    file_setOffset_self (by omega)
  have hother : ∀ j ∈ is, file (setOffset c.octets i ((file c.octets i).offset - old.sectionLength)) j =
      file c.octets j := fun j hj => file_setOffset_of_ne fun heq => hnot (heq ▸ hj)
  have hafter : file c₂.octets i =
      { file c.octets i with offset := (file c.octets i).offset - old.sectionLength } := by
    rw [h.kept i fun hj => absurd hj hnot, hstep]
    exact hself
  rw [hstep] at h
  have hnext := h.next_le
  have hle := h.le_end
  dsimp only at hnext hle
  refine ⟨?_, ?_, ?_, ?_, ?_, ?_, ?_, ?_, ?_⟩
  · intro k hk
    have hat := fileAt_bounds hi
    rw [h.outside k hk]
    dsimp only
    rw [setOffset, store, if_neg (by rw [le_length]; omega)]
  · intro j hj hltj
    rcases List.mem_cons.mp hj with rfl | hj
    · exact hafter
    · have hmoved := h.moved j hj
      rw [hother j hj] at hmoved
      exact hmoved hltj
  · intro j hkept
    have hne : j ≠ i := by
      rintro rfl
      exact hkept List.mem_cons_self hlt
    have hrest := h.kept j
    rw [file_setOffset_of_ne hne] at hrest
    exact hrest fun hj => hkept (List.mem_cons_of_mem i hj)
  · split at hnext <;> omega
  · intro j hj hltj
    rcases List.mem_cons.mp hj with rfl | hj
    · split at hnext <;> omega
    · have hfile := h.next_le_file j hj
      rw [hother j hj] at hfile
      exact hfile hltj
  · rcases h.next_eq with heq | ⟨j, hj, hltj, heq⟩
    · dsimp only at heq
      split at heq
      · exact .inr ⟨i, List.mem_cons_self, hlt, heq⟩
      · exact .inl heq
    · rw [hother j hj] at hltj heq
      exact .inr ⟨j, List.mem_cons_of_mem i hj, hltj, heq⟩
  · split at hle <;> omega
  · intro j hj hltj
    rcases List.mem_cons.mp hj with rfl | hj
    · split at hle <;> omega
    · have hfile := h.file_le_end j hj
      rw [hother j hj] at hfile
      exact hfile hltj
  · rcases h.end_eq with heq | ⟨j, hj, hltj, heq⟩
    · dsimp only at heq
      split at heq
      · exact .inr ⟨i, List.mem_cons_self, hlt, heq⟩
      · exact .inl heq
    · rw [hother j hj] at hltj heq
      exact .inr ⟨j, List.mem_cons_of_mem i hj, hltj, heq⟩

/-- Any other. -/
theorem cons_kept (hle : ¬old.offset < (file c.octets i).offset)
    (h : Shifted old is (LinearStore.shiftFile old c i) c₂) : Shifted old (i :: is) c c₂ := by
  have hstep : LinearStore.shiftFile old c i = c := by
    rw [LinearStore.shiftFile]
    dsimp only
    rw [if_neg hle, ite_self]
  rw [hstep] at h
  have hmem : ∀ j ∈ i :: is, old.offset < (file c.octets j).offset → j ∈ is := by
    intro j hj hlt
    rcases List.mem_cons.mp hj with rfl | hj
    · exact absurd hlt hle
    · exact hj
  refine ⟨h.outside, ?_, ?_, h.next_le, ?_, ?_, h.le_end, ?_, ?_⟩
  · intro j hj hlt
    exact h.moved j (hmem j hj hlt) hlt
  · intro j hkept
    exact h.kept j fun hj => hkept (List.mem_cons_of_mem i hj)
  · intro j hj hlt
    exact h.next_le_file j (hmem j hj hlt) hlt
  · exact h.next_eq.imp_right fun ⟨j, hj, hrest⟩ => ⟨j, List.mem_cons_of_mem i hj, hrest⟩
  · intro j hj hlt
    exact h.file_le_end j (hmem j hj hlt) hlt
  · exact h.end_eq.imp_right fun ⟨j, hj, hrest⟩ => ⟨j, List.mem_cons_of_mem i hj, hrest⟩

theorem foldl (his : ∀ i ∈ is, i < maxStates) (hnd : is.Nodup)
    (hb : ∀ i ∈ is, old.offset < (file c.octets i).offset → old.sectionLength ≤ (file c.octets i).offset ∧
      (file c.octets i).offset + (file c.octets i).sectionLength < 2 ^ 32) :
    Shifted old is c (is.foldl (LinearStore.shiftFile old) c) := by
  induction is generalizing c with
  | nil => exact nil
  | cons i is ih =>
      obtain ⟨hnot, hnd⟩ := List.nodup_cons.mp hnd
      rw [List.foldl_cons]
      by_cases hlt : old.offset < (file c.octets i).offset
      · obtain ⟨hsec, hend⟩ := hb i List.mem_cons_self hlt
        apply cons_moved (his i List.mem_cons_self) hlt hsec hend hnot
        apply ih (fun j hj => his j (List.mem_cons_of_mem i hj)) hnd
        intro j hj
        have hstep : file (LinearStore.shiftFile old c i).octets j = file c.octets j := by
          rw [LinearStore.shiftFile]
          dsimp only
          rw [if_neg (by omega), if_pos hlt]
          exact file_setOffset_of_ne fun heq => hnot (heq ▸ hj)
        rw [hstep]
        exact hb j (List.mem_cons_of_mem i hj)
      · apply cons_kept hlt
        apply ih (fun j hj => his j (List.mem_cons_of_mem i hj)) hnd
        have hstep : LinearStore.shiftFile old c i = c := by
          rw [LinearStore.shiftFile]
          dsimp only
          rw [if_neg hlt, ite_self]
        rw [hstep]
        intro j hj
        exact hb j (List.mem_cons_of_mem i hj)

end Shifted

/-- The loop's result for the file `f` of the layout. -/
def compaction (m : Memory) (f : Nat) : LinearStore.Compaction :=
  (List.range maxStates).foldl (LinearStore.shiftFile (file m f)) ⟨setFile m f ⟨0, 0, 0⟩, 0xffffffff, 0⟩

namespace Laid
variable {m m' : Memory} {xs ys : List Nat} {i f : Nat}

theorem file_zeroed (i f : Nat) : file (setFile m f ⟨0, 0, 0⟩) i = if i = f then ⟨0, 0, 0⟩ else file m i := by
  by_cases heq : i = f
  · subst heq
    rw [if_pos rfl, file_setFile_self (by simp) (by simp) (by simp)]
  · rw [if_neg heq, file_setFile_of_ne heq]

/-- What lies behind the removed file is what gets a new offset. -/
theorem behind_iff (h : Laid m (xs ++ f :: ys)) (hi : i < maxStates) :
    (file m f).offset < (file (setFile m f ⟨0, 0, 0⟩) i).offset ↔ i ∈ ys := by
  have hnd := h.nodup
  rw [List.nodup_append, List.nodup_cons] at hnd
  rw [file_zeroed]
  by_cases heq : i = f
  · subst heq
    rw [if_pos rfl]
    exact iff_of_false (Nat.not_lt_zero _) hnd.2.1.1
  · rw [if_neg heq]
    constructor
    · intro hlt
      have hmem := (h.allocated i hi).mp (by omega)
      rcases List.mem_append.mp hmem with hx | hy
      · have hbefore := h.packed.before hx
        omega
      · exact (List.mem_cons.mp hy).resolve_left heq
    · intro hy
      have hbehind := h.packed.behind hy
      have hpos := h.positive f (List.mem_append_right xs List.mem_cons_self)
      omega

theorem shifted (h : Laid m (xs ++ f :: ys)) : Shifted (file m f) (List.range maxStates)
    ⟨setFile m f ⟨0, 0, 0⟩, 0xffffffff, 0⟩ (compaction m f) := by
  apply Shifted.foldl
  · intro i hi
    exact List.mem_range.mp hi
  · exact List.nodup_range
  · intro i hi hlt
    have hy := (h.behind_iff (List.mem_range.mp hi)).mp hlt
    have hmem : i ∈ xs ++ f :: ys := List.mem_append_right xs (List.mem_cons_of_mem f hy)
    have hbehind := h.packed.behind hy
    have hb := h.bounds hmem
    have hend := h.filesEnd_lt
    have hne : i ≠ f := by
      rintro rfl
      have hnd := h.nodup
      rw [List.nodup_append, List.nodup_cons] at hnd
      exact hnd.2.1.1 hy
    dsimp only
    rw [file_zeroed, if_neg hne]
    omega

theorem compaction_file (h : Laid m (xs ++ f :: ys)) (hi : i < maxStates) : file (compaction m f).octets i =
    if i = f then ⟨0, 0, 0⟩ else if i ∈ ys then
      { file m i with offset := (file m i).offset - (file m f).sectionLength } else file m i := by
  have hzero := file_zeroed (m := m) i f
  by_cases hy : i ∈ ys
  · have hne : i ≠ f := by
      rintro rfl
      have hnd := h.nodup
      rw [List.nodup_append, List.nodup_cons] at hnd
      exact hnd.2.1.1 hy
    rw [if_neg hne] at hzero ⊢
    rw [if_pos hy, h.shifted.moved i (List.mem_range.mpr hi) ((h.behind_iff hi).mpr hy), hzero]
  · rw [h.shifted.kept i fun _ hlt => hy ((h.behind_iff hi).mp hlt), hzero, if_neg hy]

theorem compaction_outside (h : Laid m (xs ++ f :: ys)) {k : Nat} (hk : k < 12 ∨ headerSize ≤ k) :
    (compaction m f).octets k = m k := by
  have hat := fileAt_bounds (h.lt_maxStates (List.mem_append_right xs List.mem_cons_self))
  rw [h.shifted.outside k hk]
  dsimp only
  rw [setFile, store, if_neg (by simp only [List.length_append, le_length]; omega)]

theorem compaction_last (h : Laid m (xs ++ [f])) : (compaction m f).nextOffset = 0xffffffff := by
  rcases h.shifted.next_eq with heq | ⟨j, hj, hlt, -⟩
  · exact heq
  · exact absurd ((h.behind_iff (List.mem_range.mp hj)).mp hlt) List.not_mem_nil

/-- The range to move is all that lies behind the removed file. -/
theorem compaction_range {y : Nat} (h : Laid m (xs ++ f :: y :: ys)) :
    (compaction m f).nextOffset = (file m f).offset + (file m f).sectionLength ∧
      (compaction m f).stateEnd = filesEnd m (xs ++ f :: y :: ys) := by
  have hend := h.filesEnd_lt
  have hsub : ∀ j ∈ y :: ys, j ∈ xs ++ f :: y :: ys := fun j hj =>
    List.mem_append_right xs (List.mem_cons_of_mem f hj)
  have hlt : ∀ j ∈ y :: ys, j < maxStates := fun j hj => h.lt_maxStates (hsub j hj)
  have hother : ∀ j ∈ y :: ys, file (setFile m f ⟨0, 0, 0⟩) j = file m j := by
    intro j hj
    apply file_setFile_of_ne
    rintro rfl
    have hnd := h.nodup
    rw [List.nodup_append, List.nodup_cons] at hnd
    exact hnd.2.1.1 hj
  have hfile : ∀ j ∈ List.range maxStates, (file m f).offset < (file (setFile m f ⟨0, 0, 0⟩) j).offset →
      j ∈ y :: ys := fun j hj => (h.behind_iff (List.mem_range.mp hj)).mp
  have hfirst : (file m y).offset = (file m f).offset + (file m f).sectionLength := h.packed.middle.2.2.1
  constructor
  · have hle := h.shifted.next_le_file y (List.mem_range.mpr (hlt y List.mem_cons_self))
      ((h.behind_iff (hlt y List.mem_cons_self)).mpr List.mem_cons_self)
    dsimp only at hle
    rw [hother y List.mem_cons_self] at hle
    have hy := (h.bounds (hsub y List.mem_cons_self)).2
    rcases h.shifted.next_eq with heq | ⟨j, hj, hltj, heq⟩
    · dsimp only at heq
      omega
    · have hmem := hfile j hj hltj
      dsimp only at heq
      rw [hother j hmem] at heq
      have hbehind := h.packed.behind hmem
      omega
  · obtain ⟨j, hj, hlast⟩ := exists_endOf h.packed.middle.2.2 (List.cons_ne_nil y ys)
    have hge := h.shifted.file_le_end j (List.mem_range.mpr (hlt j hj)) ((h.behind_iff (hlt j hj)).mpr hj)
    dsimp only at hge
    rw [hother j hj, hlast] at hge
    have hfilesEnd : filesEnd m (xs ++ f :: y :: ys) = endOf (fun i => (file m i).sectionLength)
        ((file m f).offset + (file m f).sectionLength) (y :: ys) := by
      rw [filesEnd, endOf_append, endOf_cons, ← h.packed.middle.2.1]
    rw [← hfilesEnd] at hge
    apply Nat.le_antisymm _ hge
    rcases h.shifted.end_eq with heq | ⟨j, hj, hltj, heq⟩
    · rw [heq]
      exact Nat.zero_le _
    · have hmem := hfile j hj hltj
      dsimp only at heq
      rw [hother j hmem] at heq
      rw [heq]
      exact (h.bounds (hsub j hmem)).2

/-- The layout without the file, once the range has been moved. -/
theorem removed (h : Laid m (xs ++ f :: ys)) (hhead : ∀ k < headerSize, m' k = (compaction m f).octets k) :
    Laid m' (xs ++ ys) ∧ filesEnd m' (xs ++ ys) + (file m f).sectionLength = filesEnd m (xs ++ f :: ys) := by
  have hnd := h.nodup
  rw [List.nodup_append, List.nodup_cons] at hnd
  obtain ⟨hndx, ⟨hfy, hndy⟩, hdisj⟩ := hnd
  have hfx : f ∉ xs := fun hf => hdisj f hf f List.mem_cons_self rfl
  have hsub : ∀ i ∈ xs ++ ys, i ∈ xs ++ f :: ys := by
    intro i hi
    rcases List.mem_append.mp hi with hx | hy
    · exact List.mem_append_left _ hx
    · exact List.mem_append_right _ (List.mem_cons_of_mem f hy)
  have hfile : ∀ i < maxStates, file m' i = if i = f then ⟨0, 0, 0⟩ else if i ∈ ys then
      { file m i with offset := (file m i).offset - (file m f).sectionLength } else file m i := by
    intro i hi
    rw [← h.compaction_file hi]
    apply file_congr
    intro k _ hhi
    exact hhead k (Nat.lt_of_lt_of_le hhi (fileAt_bounds hi).2)
  have hx : ∀ i ∈ xs, file m' i = file m i := by
    intro i hi
    have hiy : i ∉ ys := fun hy => hdisj i hi i (List.mem_cons_of_mem f hy) rfl
    rw [hfile i (h.lt_maxStates (hsub i (List.mem_append_left ys hi))), if_neg (ne_of_mem_of_not_mem hi hfx),
      if_neg hiy]
  have hy : ∀ i ∈ ys,
      file m' i = { file m i with offset := (file m i).offset - (file m f).sectionLength } := by
    intro i hi
    rw [hfile i (h.lt_maxStates (hsub i (List.mem_append_right xs hi))), if_neg (ne_of_mem_of_not_mem hi hfy),
      if_pos hi]
  have hrest : ∀ i ∈ xs ++ ys, (file m' i).sectionLength = (file m i).sectionLength ∧
      (file m' i).dataLength = (file m i).dataLength := by
    intro i hi
    rcases List.mem_append.mp hi with hi | hi
    · rw [hx i hi]
      exact ⟨rfl, rfl⟩
    · rw [hy i hi]
      exact ⟨rfl, rfl⟩
  refine ⟨⟨?_, ?_, ?_, ?_, ?_, ?_, ?_, ?_⟩, endOf_remove fun i hi => (hrest i hi).1⟩
  · apply h.formatted.congr
    intro k hk
    rw [hhead k (by simp only [headerSize]; omega), h.compaction_outside (.inl hk)]
  · exact List.nodup_append.mpr ⟨hndx, hndy, fun a ha b hb => hdisj a ha b (List.mem_cons_of_mem f hb)⟩
  · intro i hi
    exact h.known i (hsub i hi)
  · intro i hi
    have hall := h.allocated i hi
    rw [List.mem_append, List.mem_cons] at hall
    rw [hfile i hi, List.mem_append]
    by_cases heq : i = f
    · subst heq
      rw [if_pos rfl]
      exact iff_of_false (fun hne => hne rfl) fun hor => hor.elim hfx hfy
    · by_cases hiy : i ∈ ys
      · have hbehind := h.packed.behind hiy
        have hhd := (h.bounds (List.mem_append_right xs List.mem_cons_self)).1
        rw [if_neg heq, if_pos hiy]
        refine iff_of_true ?_ (.inr hiy)
        dsimp only
        simp only [headerSize] at hhd
        omega
      · rw [if_neg heq, if_neg hiy, hall]
        exact ⟨fun hor => hor.imp_right fun hor => hor.resolve_left heq, fun hor => hor.imp_right .inr⟩
  · apply h.packed.remove
    · intro i hi
      rw [hx i hi]
    · intro i hi
      have hbehind := h.packed.behind hi
      rw [hy i hi]
      dsimp only
      omega
    · intro i hi
      exact (hrest i hi).1
  · intro i hi
    rw [(hrest i hi).1]
    exact h.positive i (hsub i hi)
  · intro i hi
    rw [(hrest i hi).1]
    exact h.small i (hsub i hi)
  · intro i hi
    rw [(hrest i hi).1, (hrest i hi).2]
    exact h.data i (hsub i hi)

/-- Closing the gap moves what the files behind it hold along with their offsets. -/
theorem removed_bytes (h : Laid m (xs ++ f :: ys)) (hhead : ∀ k < headerSize, m' k = (compaction m f).octets k)
    (hbefore : ∀ k, headerSize ≤ k → k < (file m f).offset → m' k = m k)
    (hbehind : ∀ i ∈ ys, load m' ((file m i).offset - (file m f).sectionLength) (file m i).dataLength =
      load m (file m i).offset (file m i).dataLength) (hi : i < maxStates) :
    fileBytes m' i = if i = f then none else fileBytes m i := by
  obtain ⟨hlaid, -⟩ := h.removed hhead
  have hnd := h.nodup
  rw [List.nodup_append, List.nodup_cons] at hnd
  obtain ⟨-, ⟨hfy, -⟩, hdisj⟩ := hnd
  have hfx : f ∉ xs := fun hf => hdisj f hf f List.mem_cons_self rfl
  have hfile : file m' i = file (compaction m f).octets i := by
    apply file_congr
    intro k _ hhi
    exact hhead k (Nat.lt_of_lt_of_le hhi (fileAt_bounds hi).2)
  rw [h.compaction_file hi] at hfile
  by_cases heq : i = f
  · subst heq
    rw [if_pos rfl]
    exact hlaid.fileBytes_of_not_mem hi fun hmem => (List.mem_append.mp hmem).elim hfx hfy
  · rw [if_neg heq] at hfile ⊢
    by_cases hy : i ∈ ys
    · rw [if_pos hy] at hfile
      rw [hlaid.fileBytes_of_mem (List.mem_append_right xs hy),
        h.fileBytes_of_mem (List.mem_append_right xs (List.mem_cons_of_mem f hy)), hfile]
      exact congrArg some (hbehind i hy)
    · rw [if_neg hy] at hfile
      by_cases hx : i ∈ xs
      · have hmem : i ∈ xs ++ f :: ys := List.mem_append_left _ hx
        have hb := h.bounds hmem
        have hd := h.data i hmem
        have hend := h.packed.before hx
        rw [hlaid.fileBytes_of_mem (List.mem_append_left ys hx), h.fileBytes_of_mem hmem, hfile]
        congr 1
        apply load_congr
        intro k hlo hhi
        exact hbefore k (by omega) (by omega)
      · have hno : i ∉ xs ++ f :: ys := fun hmem =>
          (List.mem_append.mp hmem).elim hx fun hmem => (List.mem_cons.mp hmem).elim heq hy
        rw [hlaid.fileBytes_of_not_mem hi fun hmem => (List.mem_append.mp hmem).elim hx hy,
          h.fileBytes_of_not_mem hi hno]

end Laid

namespace Laid
variable {m : Memory} {order : List Nat} {f i : Nat}

/-- New contents for a file whose section is large enough. -/
theorem write (h : Laid m order) (hf : f ∈ order) {bs : Bytes} (hlen : bs.length ≤ (file m f).sectionLength)
    {m₁ : Memory} (hself : file m₁ f = { file m f with dataLength := bs.length })
    (hother : ∀ i, i ≠ f → file m₁ i = file m i) (hout : ∀ k, k < 12 ∨ headerSize ≤ k → m₁ k = m k) :
    Laid (store m₁ (file m f).offset bs) order ∧
      filesEnd (store m₁ (file m f).offset bs) order = filesEnd m order ∧
      ∀ i < maxStates, fileBytes (store m₁ (file m f).offset bs) i = if i = f then some bs else fileBytes m i := by
  have hb := h.bounds hf
  have hfile : ∀ i < maxStates, file (store m₁ (file m f).offset bs) i =
      if i = f then { file m f with dataLength := bs.length } else file m i := by
    intro i hi
    have hat := (fileAt_bounds hi).2
    rw [file_store_disjoint (.inl (by omega))]
    by_cases heq : i = f
    · rw [if_pos heq, heq, hself]
    · rw [if_neg heq, hother i heq]
  have hsame : ∀ i < maxStates, (file (store m₁ (file m f).offset bs) i).offset = (file m i).offset ∧
      (file (store m₁ (file m f).offset bs) i).sectionLength = (file m i).sectionLength := by
    intro i hi
    rw [hfile i hi]
    split
    · rename_i heq
      rw [heq]
      exact ⟨rfl, rfl⟩
    · exact ⟨rfl, rfl⟩
  have hlaid : Laid (store m₁ (file m f).offset bs) order := by
    refine ⟨h.formatted.congr ?_, h.nodup, h.known, ?_, h.packed.congr ?_ ?_, ?_, ?_, ?_⟩
    · intro k hk
      rw [store, if_neg (by simp only [headerSize] at hb; omega), hout k (.inl hk)]
    · intro i hi
      rw [(hsame i hi).1]
      exact h.allocated i hi
    · intro i hi
      exact (hsame i (h.lt_maxStates hi)).1
    · intro i hi
      exact (hsame i (h.lt_maxStates hi)).2
    · intro i hi
      rw [(hsame i (h.lt_maxStates hi)).2]
      exact h.positive i hi
    · intro i hi
      rw [(hsame i (h.lt_maxStates hi)).2]
      exact h.small i hi
    · intro i hi
      rw [hfile i (h.lt_maxStates hi)]
      split
      · exact hlen
      · exact h.data i hi
  refine ⟨hlaid, endOf_congr fun i hi => (hsame i (h.lt_maxStates hi)).2, ?_⟩
  intro i hi
  by_cases heq : i = f
  · subst heq
    rw [hlaid.fileBytes_of_mem hf, hfile i hi, if_pos rfl, if_pos rfl]
    exact congrArg some (load_store_same _ _ _)
  · rw [if_neg heq]
    by_cases hmem : i ∈ order
    · have hbi := h.bounds hmem
      have hd := h.data i hmem
      have hdisj := h.packed.disjoint hmem hf heq
      rw [hlaid.fileBytes_of_mem hmem, h.fileBytes_of_mem hmem, hfile i hi, if_neg heq]
      congr 1
      rw [load_store_disjoint (by omega)]
      apply load_congr
      intro k hlo _
      exact hout k (.inr (by omega))
    · rw [hlaid.fileBytes_of_not_mem hi hmem, h.fileBytes_of_not_mem hi hmem]

end Laid

end PqcTpm
