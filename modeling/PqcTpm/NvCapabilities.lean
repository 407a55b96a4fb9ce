import PqcTpm.Lib.BoundedSort
import PqcTpm.NvDynamic

/-!
# Lists of NV handles

`NvCapGetPersistent` and `NvCapGetIndex` of `NVDynamic.c`, which `TPM2_GetCapability` asks for the persistent
objects and the NV Indices.
-/
namespace PqcTpm
open BoundedSort

/-- Handles are ordered as numbers. -/
@[reducible] def TpmHandle.linearOrder : LinearOrder TpmHandle where
  le_refl := UInt32.le_refl
  le_trans _ _ _ := UInt32.le_trans
  le_antisymm _ _ := UInt32.le_antisymm
  le_total := UInt32.le_total
  lt_iff_le_not_ge a b := by
    rw [UInt32.lt_iff_toNat_lt, UInt32.le_iff_toNat_le, UInt32.le_iff_toNat_le]
    omega
  toDecidableLE := inferInstance
  toDecidableEq := inferInstance
  toDecidableLT := inferInstance

attribute [local instance] TpmHandle.linearOrder

/-- `MAX_CAP_HANDLES`. -/
def maxCapHandles : Nat := 254

/-- `TPML_HANDLE`; what stands behind `count` is left over. -/
structure TpmlHandle where
  count : Nat
  handle : Nat → TpmHandle

def TpmlHandle.toList (l : TpmlHandle) : List TpmHandle := (List.range l.count).map l.handle

section
variable (handle : Nat → TpmHandle) (entityHandle : TpmHandle)

/-- The search in `InsertSort`, with `n` handles left: the first larger one. -/
def findSlot (i : Nat) : Nat → Nat
  | 0 => i
  | n + 1 => if handle i > entityHandle then i else findSlot (i + 1) n

/-- The handles from `i` on move up, the last one first. -/
def shiftUp (i : Nat) : Nat → (Nat → TpmHandle) → Nat → TpmHandle
  | 0, handle => handle
  | j + 1, handle => if j + 1 > i then shiftUp i j (Function.update handle (j + 1) (handle j)) else handle

end

/-- `InsertSort`. -/
def insertSort (handleList : TpmlHandle) (count : Nat) (entityHandle : TpmHandle) : TpmlHandle :=
  if count = 0 then handleList
  else if handleList.count = 0 then ⟨1, Function.update handleList.handle 0 entityHandle⟩
  else
    let originalCount := handleList.count
    let newCount := if originalCount < count then originalCount + 1 else originalCount
    let i := findSlot handleList.handle entityHandle 0 originalCount
    let handle := if i < originalCount then shiftUp i (newCount - 1) handleList.handle else handleList.handle
    ⟨newCount, if i < originalCount ∨ newCount > originalCount then Function.update handle i entityHandle else handle⟩

/-- The loop of the two queries over the entries that `NvNextByType` finds. -/
def nvCapLoop (handle : TpmHandle) (count : Nat) : List TpmHandle → TpmlHandle × Bool → TpmlHandle × Bool
  | [], r => r
  | entityHandle :: rest, (handleList, more) =>
      if entityHandle < handle then nvCapLoop handle count rest (handleList, more)
      else
        nvCapLoop handle count rest
          (insertSort handleList count entityHandle, if handleList.count = count then true else more)

/-- The handles of one type, in the order of the list (`NvNextByType`). -/
def nvHandles (type : UInt8) (user : List NvEntry) : List TpmHandle :=
  (user.map NvEntry.handle).filter fun h => h.getType == type

/-- The two queries are the same but for the type. `handleList` is the output as it was before. -/
def nvCapGet (type : UInt8) (user : List NvEntry) (handle : TpmHandle) (count : Nat) (handleList : TpmlHandle) :
    Except Fault (TpmlHandle × Bool) :=
  if handle.getType ≠ type then .error .failureMode
  else
    let count := if count > maxCapHandles then maxCapHandles else count
    .ok (nvCapLoop handle count (nvHandles type user) (⟨0, handleList.handle⟩, false))

/-- `NvCapGetPersistent`. -/
def nvCapGetPersistent := nvCapGet TpmHandle.htPersistent

/-- `NvCapGetIndex`. -/
def nvCapGetIndex := nvCapGet TpmHandle.htNvIndex

/-! ## Inserting a handle -/

theorem findSlot_le {handle : Nat → TpmHandle} {e : TpmHandle} {i n : Nat} : findSlot handle e i n ≤ i + n := by
  induction n generalizing i with
  | zero => exact Nat.le_refl i
  | succ n ih =>
      rw [findSlot]
      split
      · omega
      · have h := ih (i := i + 1)
        omega

/-- The handles from `i` on, up to the bound. -/
theorem shiftUp_apply {handle : Nat → TpmHandle} {i n k : Nat} :
    shiftUp i n handle k = if i < k ∧ k ≤ n then handle (k - 1) else handle k := by
  induction n generalizing handle with
  | zero =>
      rw [shiftUp, if_neg (by omega)]
  | succ j ih =>
      rw [shiftUp]
      split
      · rename_i hj
        rw [ih]
        by_cases hk : k = j + 1
        · subst hk
          rw [if_neg (by omega), if_pos ⟨hj, Nat.le_refl _⟩, Function.update_self, Nat.add_sub_cancel]
        · by_cases hik : i < k ∧ k ≤ j
          · rw [if_pos hik, if_pos ⟨hik.1, by omega⟩, Function.update_of_ne (by omega)]
          · rw [if_neg hik, if_neg (by omega), Function.update_of_ne hk]
      · rw [if_neg (by omega)]

theorem findSlot_succ {handle : Nat → TpmHandle} {e : TpmHandle} {i n : Nat} :
    findSlot handle e (i + 1) n = findSlot (fun k => handle (k + 1)) e i n + 1 := by
  induction n generalizing i with
  | zero => rfl
  | succ n ih =>
      rw [findSlot, findSlot]
      split
      · rfl
      · exact ih

theorem orderedInsert_map_range (handle : Nat → TpmHandle) (e : TpmHandle) (n : Nat) :
    ((List.range n).map handle).orderedInsert (· < ·) e = (List.range (n + 1)).map fun k =>
      if k < findSlot handle e 0 n then handle k else if k = findSlot handle e 0 n then e else handle (k - 1) := by
  induction n generalizing handle with
  | zero => rfl
  | succ n ih =>
      rw [List.range_succ_eq_map, List.map_cons, List.map_map, List.orderedInsert_cons, findSlot]
      split
      · rw [List.range_succ_eq_map, List.range_succ_eq_map, List.map_cons, List.map_map, List.map_cons, List.map_map]
        rfl
      · have htail := ih fun k => handle (k + 1)
        rw [findSlot_succ, List.range_succ_eq_map (n := n + 1), List.map_cons, List.map_map, if_pos (Nat.succ_pos _)]
        refine congrArg _ (htail.trans (List.map_congr_left fun k _ => ?_))
        simp only [Function.comp, Nat.succ_eq_add_one, Nat.add_lt_add_iff_right, Nat.add_right_cancel_iff,
          Nat.add_sub_cancel]
        by_cases hlt : k < findSlot (fun k => handle (k + 1)) e 0 n
        · rw [if_pos hlt, if_pos hlt]
        · by_cases heq : k = findSlot (fun k => handle (k + 1)) e 0 n
          · rw [if_neg hlt, if_neg hlt, if_pos heq, if_pos heq]
          · rw [if_neg hlt, if_neg hlt, if_neg heq, if_neg heq, Nat.sub_add_cancel (by omega)]

/-- The array after `InsertSort` holds the bounded insertion. -/
theorem insertSort_toList {l : TpmlHandle} {count : Nat} (hle : l.count ≤ count) (e : TpmHandle) :
    (insertSort l count e).toList = insertBounded count l.toList e := by
  unfold insertSort insertBounded
  by_cases hcount : count = 0
  · have hempty : l.count = 0 := by omega
    rw [if_pos hcount, hcount, List.take_zero, TpmlHandle.toList, hempty]
    rfl
  by_cases hempty : l.count = 0
  · rw [if_neg hcount, if_pos hempty, TpmlHandle.toList, TpmlHandle.toList, hempty, List.range_zero, List.map_nil,
      List.orderedInsert_nil, List.take_of_length_le (show [e].length ≤ count by rw [List.length_singleton]; omega)]
    rfl
  have hslot : findSlot l.handle e 0 l.count ≤ 0 + l.count := findSlot_le
  have hnew : (if l.count < count then l.count + 1 else l.count) = min count (l.count + 1) := by
    split
    · omega
    · omega
  rw [if_neg hcount, if_neg hempty, TpmlHandle.toList, TpmlHandle.toList, orderedInsert_map_range, ← List.map_take,
    List.take_range]
  dsimp only
  rw [hnew]
  apply List.map_congr_left
  intro k hk
  have hk := List.mem_range.mp hk
  by_cases hin : findSlot l.handle e 0 l.count < l.count
  · rw [if_pos (.inl hin), if_pos hin]
    by_cases heq : k = findSlot l.handle e 0 l.count
    · rw [if_neg (by omega), if_pos heq, heq, Function.update_self]
    · rw [Function.update_of_ne heq, shiftUp_apply, if_neg heq]
      by_cases hlt : k < findSlot l.handle e 0 l.count
      · rw [if_neg (by omega), if_pos hlt]
      · rw [if_pos (by omega), if_neg hlt]
  · rw [if_neg hin]
    by_cases heq : k = findSlot l.handle e 0 l.count
    · rw [if_pos (.inr (by omega)), if_neg (by omega), if_pos heq, heq, Function.update_self]
    · rw [if_pos (show k < _ by omega)]
      split
      · rw [Function.update_of_ne heq]
      · rfl

theorem insertSort_count_le {l : TpmlHandle} {count : Nat} (hle : l.count ≤ count) (e : TpmHandle) :
    (insertSort l count e).count ≤ count := by
  unfold insertSort
  split
  · exact hle
  · split
    · rename_i hcount _
      change 1 ≤ count
      omega
    · dsimp only
      split
      · omega
      · exact hle

/-! ## The queries -/

/-- The handles that have been looked at so far, the smallest of them on the list. -/
theorem nvCapLoop_spec {handle : TpmHandle} {count : Nat} {rest : List TpmHandle} {l : TpmlHandle} {more : Bool}
    {seen : List TpmHandle} (hcount : l.count ≤ count) (hlist : l.toList = seen.foldl (insertBounded count) [])
    (hmore : more = decide (count < seen.length)) :
    (nvCapLoop handle count rest (l, more)).1.toList =
        (rest.filter fun h => decide (handle ≤ h)).foldl (insertBounded count) (seen.foldl (insertBounded count) []) ∧
      (nvCapLoop handle count rest (l, more)).2 =
        decide (count < (seen ++ rest.filter fun h => decide (handle ≤ h)).length) := by
  induction rest generalizing l more seen with
  | nil =>
      rw [List.filter_nil, List.append_nil]
      exact ⟨hlist, hmore⟩
  | cons e rest ih =>
      rw [nvCapLoop, List.filter_cons]
      by_cases hlt : e < handle
      · have hout : ¬decide (handle ≤ e) = true := by
          rw [decide_eq_true_eq]
          exact not_le.mpr hlt
        rw [if_pos hlt, if_neg hout]
        exact ih hcount hlist hmore
      · have hlength : l.count = min count seen.length := by
          have h := congrArg List.length hlist
          rw [foldl_insertBounded_nil, List.length_take, (ascending_spec seen).1.length_eq, TpmlHandle.toList,
            List.length_map, List.length_range] at h
          exact h
        have hlist' : (insertSort l count e).toList = (seen ++ [e]).foldl (insertBounded count) [] := by
          rw [insertSort_toList hcount, hlist, List.foldl_append]
          rfl
        have hmore' : (if l.count = count then true else more) = decide (count < (seen ++ [e]).length) := by
          rw [hmore, List.length_append, List.length_singleton]
          split
          · exact (decide_eq_true (by omega)).symm
          · exact decide_eq_decide.mpr (by omega)
        have hnext := ih (insertSort_count_le hcount e) hlist' hmore'
        have hin : decide (handle ≤ e) = true := decide_eq_true (not_lt.mp hlt)
        rw [if_neg hlt, if_pos hin, List.foldl_cons]
        rw [List.foldl_append, List.append_assoc] at hnext
        exact hnext

/-- The handles of one type that are not below the start. -/
def handlesFrom (type : UInt8) (user : List NvEntry) (handle : TpmHandle) : List TpmHandle :=
  (nvHandles type user).filter fun h => decide (handle ≤ h)

/-- A query lists the entities of one type: it gives the smallest handles from the start on, and a caller who
goes on from behind the last one gets every handle once. -/
structure ListsHandles (type : UInt8) (user : List NvEntry)
    (query : TpmHandle → Nat → Except Fault (TpmlHandle × Bool)) : Prop where
  page : ∀ handle count, handle.getType = type → ∃ l more, query handle count = .ok (l, more) ∧
    IsPage (min count maxCapHandles) (handlesFrom type user handle) l.toList more
  enumerates : ∀ handle count, handle.getType = type → 0 < count →
    ∃ read, Enumerates (fun start page more => ∃ l, query start count = .ok (l, more) ∧ l.toList = page) (· + 1)
      handle read ∧ read.Pairwise (· < ·) ∧ ∀ h, h ∈ read ↔ h ∈ nvHandles type user ∧ handle ≤ h

section
variable {type : UInt8} {user : List NvEntry} (hdistinct : (user.map NvEntry.handle).Nodup) (handleList : TpmlHandle)

include hdistinct in
theorem nvCapGet_page (handle : TpmHandle) (count : Nat) (htype : handle.getType = type) :
    ∃ l more, nvCapGet type user handle count handleList = .ok (l, more) ∧
      IsPage (min count maxCapHandles) (handlesFrom type user handle) l.toList more := by
  have hnodup : (handlesFrom type user handle).Nodup := (hdistinct.filter _).filter _
  have hmin : (if count > maxCapHandles then maxCapHandles else count) = min count maxCapHandles := by
    split
    · omega
    · omega
  obtain ⟨hlist, hmore⟩ := @nvCapLoop_spec handle (min count maxCapHandles) (nvHandles type user) ⟨0, handleList.handle⟩
    false [] (Nat.zero_le _) rfl rfl
  refine ⟨(nvCapLoop handle (min count maxCapHandles) (nvHandles type user) (⟨0, handleList.handle⟩, false)).1,
    (nvCapLoop handle (min count maxCapHandles) (nvHandles type user) (⟨0, handleList.handle⟩, false)).2, ?_, ?_⟩
  · rw [nvCapGet, if_neg (fun h => h htype), hmin]
  · rw [hlist, hmore, List.foldl_nil, List.nil_append, foldl_insertBounded_nil]
    exact isPage_ascending hnodup _

theorem getType_eq_iff {h : TpmHandle} {type : UInt8} : h.getType = type ↔ h.toNat / 2 ^ 24 = type.toNat := by
  have hlt := h.toNat_lt
  have htype : h.getType.toNat = h.toNat / 2 ^ 24 := by
    rw [TpmHandle.getType, UInt32.toNat_toUInt8, UInt32.toNat_shiftRight, Nat.shiftRight_eq_div_pow]
    change h.toNat / 2 ^ 24 % 256 = _
    omega
  rw [← UInt8.toNat_inj, htype]

theorem next_handle {l b : TpmHandle} (hl : l.getType = type) (hb : b.getType = type) (hlt : l < b) :
    (l + 1).getType = type ∧ ∀ c : TpmHandle, l + 1 ≤ c ↔ l < c := by
  have hbound := b.toNat_lt
  have hlt' := UInt32.lt_iff_toNat_lt.mp hlt
  have hnext : (l + 1).toNat = l.toNat + 1 := by
    rw [UInt32.toNat_add]
    change (l.toNat + 1) % 2 ^ 32 = _
    omega
  rw [getType_eq_iff] at hl hb ⊢
  refine ⟨by omega, fun c => ?_⟩
  rw [UInt32.le_iff_toNat_le, UInt32.lt_iff_toNat_lt]
  omega

include hdistinct in
theorem nvCapGet_lists : ListsHandles type user fun handle count => nvCapGet type user handle count handleList := by
  refine ⟨nvCapGet_page hdistinct handleList, fun handle count htype hcount => ?_⟩
  have hpositive : 0 < min count maxCapHandles := lt_min hcount (by decide)
  have hoftype : ∀ h ∈ nvHandles type user, h.getType = type := by
    intro h hh
    exact eq_of_beq (List.mem_filter.mp hh).2
  refine exists_enumerates (P := fun h => h.getType = type) hpositive (fun start hstart => ?_) ?_ handle htype
  · obtain ⟨l, more, hquery, hpage⟩ := nvCapGet_page hdistinct handleList start count hstart
    exact ⟨l.toList, more, ⟨l, hquery, rfl⟩, hpage⟩
  · intro l hl b hb hlt
    obtain ⟨hvalid, hnext⟩ := next_handle (hoftype l hl) (hoftype b hb) hlt
    exact ⟨hvalid, fun c _ => hnext c⟩

end

/-- Persistent objects and NV Indices are listed, whatever the order in NV. -/
theorem nvCapGetPersistent_index_list (user : List NvEntry) (hdistinct : (user.map NvEntry.handle).Nodup)
    (handleList : TpmlHandle) :
    ListsHandles TpmHandle.htPersistent user (fun handle count => nvCapGetPersistent user handle count handleList) ∧
      ListsHandles TpmHandle.htNvIndex user (fun handle count => nvCapGetIndex user handle count handleList) :=
  ⟨nvCapGet_lists hdistinct handleList, nvCapGet_lists hdistinct handleList⟩

/-- Three persistent objects, out of order. -/
def threeObjects : List NvEntry := [.evict 0x81000002 [], .evict 0x81000000 [], .evict 0x81000001 []]

theorem threeObjects_listed :
    (threeObjects.map NvEntry.handle).Nodup ∧
      ListsHandles TpmHandle.htPersistent threeObjects
        (fun handle count => nvCapGetPersistent threeObjects handle count ⟨0, fun _ => 0⟩) ∧
      ∃ l, nvCapGetPersistent threeObjects 0x81000000 2 ⟨0, fun _ => 0⟩ = .ok (l, true) ∧
        l.toList = [0x81000000, 0x81000001] := by
  have hdistinct : (threeObjects.map NvEntry.handle).Nodup := by decide
  exact ⟨hdistinct, (nvCapGetPersistent_index_list threeObjects hdistinct _).1, _, rfl, rfl⟩

end PqcTpm
