import PqcTpm.NvCommands

/-!
# One index at a time

An index lies in up to three places: the list in NV, the orderly data in RAM, and the saved
copy of that. A cell is what these hold under one handle. Every command acts on the cells by
a function of its own, and a sound area has cells whose places agree.
-/
namespace PqcTpm
open ByteCodec Transition

/-! ## Attribute words -/

namespace TpmaNv

/-- The attributes that stay as they are defined: all but `WRITELOCKED`, `READLOCKED` and `WRITTEN`. -/
def kind (a : UInt32) : UInt32 := a &&& 0xCFFFF7FF

theorem or_and_mask {a b m : UInt32} (h : b &&& m = 0) : (a ||| b) &&& m = a &&& m := by
  have hb : b.toNat &&& m.toNat = 0 := by
    rw [← UInt32.toNat_and, h]
    rfl
  apply UInt32.toNat.inj
  rw [UInt32.toNat_and, UInt32.toNat_or, Nat.and_or_distrib_right, hb, Nat.or_zero, UInt32.toNat_and]

theorem kind_set {a : UInt32} {bit : Nat} (h : UInt32.ofNat (2 ^ bit) &&& 0xCFFFF7FF = 0) :
    kind (set a bit) = kind a :=
  or_and_mask h

theorem kind_clear {a : UInt32} {bit : Nat} (h : ~~~UInt32.ofNat (2 ^ bit) &&& 0xCFFFF7FF = 0xCFFFF7FF) :
    kind (clear a bit) = kind a := by
  unfold kind clear
  rw [UInt32.and_assoc, h]

theorem testBit_kind (a : UInt32) {bit : Nat} (h : (0xCFFFF7FF : Nat).testBit bit = true) :
    (kind a).toNat.testBit bit = a.toNat.testBit bit := by
  unfold kind
  rw [UInt32.toNat_and, Nat.testBit_and]
  have hmask : (0xCFFFF7FF : UInt32).toNat = 0xCFFFF7FF := rfl
  rw [hmask, h, Bool.and_true]

theorem testBit_of_kind {a b : UInt32} (h : kind a = kind b) {bit : Nat}
    (hbit : (0xCFFFF7FF : Nat).testBit bit = true) : a.toNat.testBit bit = b.toNat.testBit bit := by
  rw [← testBit_kind a hbit, h, testBit_kind b hbit]

theorem nt_of_kind {a b : UInt32} (h : kind a = kind b) : a.toNat / 16 % 16 = b.toNat / 16 % 16 := by
  refine Nat.eq_of_testBit_eq fun j => ?_
  have h16 : (16 : Nat) = 2 ^ 4 := rfl
  rw [h16, Nat.testBit_mod_two_pow, Nat.testBit_mod_two_pow, Nat.testBit_div_two_pow, Nat.testBit_div_two_pow]
  by_cases hj : j < 4
  · have hbit : (0xCFFFF7FF : Nat).testBit (j + 4) = true := by
      interval_cases j <;> rfl
    rw [testBit_of_kind h hbit]
  · simp [hj]

theorem testBit_set (a : UInt32) (bit j : Nat) (hbit : bit < 32) :
    (set a bit).toNat.testBit j = (a.toNat.testBit j || decide (bit = j)) := by
  unfold set
  have hof : (UInt32.ofNat (2 ^ bit)).toNat = 2 ^ bit := by
    rw [UInt32.toNat_ofNat', Nat.mod_eq_of_lt (Nat.pow_lt_pow_right (by decide) hbit)]
  rw [UInt32.toNat_or, Nat.testBit_or, hof, Nat.testBit_two_pow]

end TpmaNv

/-! ## Cells -/

/-- What NV, RAM and the saved copy hold of an index. -/
structure Cell where
  index : NvIndex
  data : Bytes
  ram : Option RamEntry
  saved : Option RamEntry

def findRam (ram : List RamEntry) (h : TpmHandle) : Option RamEntry := ram.find? fun r => r.handle == h

namespace NvDevice

def cell (d : NvDevice) (h : TpmHandle) : Option Cell :=
  (d.nv.findIndex h).map fun p => ⟨p.1, p.2, findRam d.nv.ram h, findRam d.savedRam h⟩

end NvDevice

namespace Cell

/-- The attributes as `NvGetIndexInfo` finds them. -/
def attributes (c : Cell) : UInt32 :=
  match c.index.orderly, c.ram with
  | true, some r => r.attributes
  | _, _ => c.index.publicArea.attributes

/-- The octets that a read sees. -/
def octets (c : Cell) : Bytes :=
  match c.index.orderly, c.ram with
  | true, some r => r.data
  | _, _ => c.data

/-- The index as `NvGetIndexInfo` gives it. -/
def info (c : Cell) : NvIndex := c.index.withAttributes c.attributes

/-- A copy in RAM goes with the index. -/
structure Copy (i : NvIndex) (r : RamEntry) : Prop where
  kind : TpmaNv.kind r.attributes = TpmaNv.kind i.publicArea.attributes
  length : r.data.length = i.publicArea.dataSize

/-- The places agree, and the index is one that `TPM2_NV_DefineSpace` lets through. -/
structure Sound (c : Cell) : Prop where
  orderly : c.index.orderly = true → (∃ r, c.ram = some r ∧ Copy c.index r) ∧ ∃ r, c.saved = some r ∧ Copy c.index r
  inNv : c.index.orderly = false → c.ram = none ∧ c.saved = none
  length : c.data.length = c.index.nvDataSize
  counter : c.index.isCounter = true → c.index.publicArea.dataSize = 8
  pin : c.index.isPin = true → c.index.publicArea.dataSize = 8 ∧ c.index.isAttribute 2 = false
  pinFail : c.index.isPinFail = true → c.index.isAttribute 25 = true

end Cell

/-- No handle is used twice, and only indices have copies. -/
structure NvDevice.Lists (d : NvDevice) : Prop where
  handles : (d.nv.user.map NvEntry.handle).Nodup
  ramHandles : (d.nv.ram.map RamEntry.handle).Nodup
  savedHandles : (d.savedRam.map RamEntry.handle).Nodup
  absent : ∀ h, d.cell h = none → findRam d.nv.ram h = none ∧ findRam d.savedRam h = none

/-- An area whose cells are sound. -/
structure NvDevice.Sound (d : NvDevice) : Prop extends NvDevice.Lists d where
  cells : ∀ h c, d.cell h = some c → c.Sound

/-! ## The commands on cells -/

def NvEntry.asIndex : NvEntry → Option (NvIndex × Bytes)
  | .index i data => some (i, data)
  | .evict _ _ => none

theorem NvState.findIndex_eq (nv : NvState) (h : TpmHandle) :
    nv.findIndex h = (nv.user.find? fun e => e.handle == h).bind NvEntry.asIndex := by
  unfold NvState.findIndex
  cases nv.user.find? fun e => e.handle == h with
  | none => rfl
  | some e => cases e <;> rfl

theorem NvState.find?_of_findIndex {nv : NvState} {h : TpmHandle} {i : NvIndex} {data : Bytes}
    (hi : nv.findIndex h = some (i, data)) :
    (nv.user.find? fun e => e.handle == h) = some (.index i data) ∧ i.publicArea.nvIndex = h := by
  rw [findIndex_eq] at hi
  obtain ⟨e, he, hx⟩ := Option.bind_eq_some_iff.1 hi
  have hhandle := List.find?_some he
  cases e with
  | evict _ _ => cases hx
  | index j data' =>
      cases hx
      exact ⟨he, eq_of_beq hhandle⟩

theorem NvState.findIndex_map {nv nv' : NvState} {g : NvEntry → NvEntry} (hg : ∀ e, (g e).handle = e.handle)
    (hu : nv'.user = nv.user.map g) (h : TpmHandle) :
    nv'.findIndex h = (nv.user.find? fun e => e.handle == h).bind fun e => (g e).asIndex := by
  rw [findIndex_eq, hu, KeyedList.find?_map_key hg]
  cases nv.user.find? fun e => e.handle == h <;> rfl

theorem NvState.findIndex_mapIndex {nv nv' : NvState} {f : NvIndex → Bytes → NvIndex × Bytes}
    (hf : ∀ i data, (f i data).1.publicArea.nvIndex = i.publicArea.nvIndex)
    (hu : nv'.user = nv.user.map fun e =>
      match e with
      | .index i data => .index (f i data).1 (f i data).2
      | .evict _ _ => e) (h : TpmHandle) :
    nv'.findIndex h = (nv.findIndex h).map fun p => f p.1 p.2 := by
  rw [findIndex_map (g := fun e => match e with
    | .index i data => .index (f i data).1 (f i data).2
    | .evict _ _ => e) ?_ hu h, findIndex_eq]
  · cases nv.user.find? fun e => e.handle == h with
    | none => rfl
    | some e => cases e <;> rfl
  · intro e
    cases e with
    | evict _ _ => rfl
    | index i data => exact hf i data

/-- A change of the index with a handle. -/
def only (h : TpmHandle) (f : NvIndex → Bytes → NvIndex × Bytes) (i : NvIndex) (data : Bytes) : NvIndex × Bytes :=
  if i.publicArea.nvIndex = h then f i data else (i, data)

namespace NvDevice
variable {d : NvDevice} {h h' : TpmHandle}

theorem cell_mapIndex {f : NvIndex → Bytes → NvIndex × Bytes}
    (hf : ∀ i data, (f i data).1.publicArea.nvIndex = i.publicArea.nvIndex) :
    (d.mapIndex h f).cell h' =
      if h' = h then (d.cell h').map fun c => { c with index := (f c.index c.data).1, data := (f c.index c.data).2 }
      else d.cell h' := by
  have hfind : (d.mapIndex h f).nv.findIndex h' = (d.nv.findIndex h').map fun p => only h f p.1 p.2 := by
    refine NvState.findIndex_mapIndex (fun i data => ?_) ?_ h'
    · unfold only
      split
      · exact hf i data
      · rfl
    · refine List.map_congr_left fun e _ => ?_
      cases e with
      | evict _ _ => rfl
      | index i data =>
          unfold only
          dsimp only
          split
          · rfl
          · rfl
  unfold cell
  rw [hfind]
  cases hi : d.nv.findIndex h' with
  | none => simp
  | some p =>
      have hhandle := (NvState.find?_of_findIndex hi).2
      by_cases hh : h' = h
      · subst hh
        simp only [Option.map_some, only, hhandle, if_true]
        rfl
      · simp only [Option.map_some, only, hhandle, if_neg hh]
        rfl

theorem findRam_map {ram : List RamEntry} {g : RamEntry → RamEntry} (hg : ∀ r, (g r).handle = r.handle)
    (h : TpmHandle) : findRam (ram.map g) h = (findRam ram h).map g :=
  KeyedList.find?_map_key hg ram h

theorem findRam_handle {ram : List RamEntry} {r : RamEntry} (hr : findRam ram h = some r) : r.handle = h := by
  have hhandle := List.find?_some hr
  exact eq_of_beq hhandle

theorem cell_mapRam {f : RamEntry → RamEntry} (hf : ∀ r, (f r).handle = r.handle) :
    (d.mapRam h f).cell h' =
      if h' = h then (d.cell h').map fun c => { c with ram := c.ram.map f } else d.cell h' := by
  have hram : findRam (d.mapRam h f).nv.ram h' = if h' = h then (findRam d.nv.ram h').map f else findRam d.nv.ram h' := by
    have hmap : findRam (d.mapRam h f).nv.ram h' =
        (findRam d.nv.ram h').map fun r => if r.handle = h then f r else r := by
      refine findRam_map (fun r => ?_) h'
      split
      · exact hf r
      · rfl
    rw [hmap]
    cases hr : findRam d.nv.ram h' with
    | none => simp
    | some r =>
        simp only [Option.map_some, findRam_handle hr]
        split
        · rfl
        · rfl
  unfold cell
  rw [hram]
  have hindex : (d.mapRam h f).nv.findIndex h' = d.nv.findIndex h' := rfl
  rw [hindex]
  cases d.nv.findIndex h' with
  | none => simp
  | some p =>
      by_cases hh : h' = h
      · simp only [hh, if_true]
        rfl
      · simp only [if_neg hh]
        rfl

@[simp] theorem cell_saveRam : d.saveRam.cell h' = (d.cell h').map fun c => { c with saved := c.ram } := by
  unfold cell
  cases hi : d.nv.findIndex h' with
  | none =>
      have hsame : d.saveRam.nv.findIndex h' = none := hi
      rw [hsame]
      rfl
  | some p =>
      have hsame : d.saveRam.nv.findIndex h' = some p := hi
      rw [hsame]
      rfl

@[simp] theorem cell_writeListEnd : d.writeListEnd.cell h' = d.cell h' := rfl

theorem cell_mapAttributes {f g : UInt32 → UInt32} :
    (d.mapAttributes f g).cell h' =
      (d.cell h').map fun c =>
        { c with
          index := if c.index.orderly then c.index else c.index.withAttributes (f c.index.publicArea.attributes)
          ram := c.ram.map fun r => { r with attributes := g r.attributes } } := by
  have hfind : (d.mapAttributes f g).nv.findIndex h' = (d.nv.findIndex h').map fun p =>
      (if p.1.orderly then p.1 else p.1.withAttributes (f p.1.publicArea.attributes), p.2) := by
    refine NvState.findIndex_mapIndex
      (f := fun i data => (if i.orderly then i else i.withAttributes (f i.publicArea.attributes), data))
      (fun i data => ?_) ?_ h'
    · dsimp only
      split
      · rfl
      · rfl
    · refine List.map_congr_left fun e _ => ?_
      cases e with
      | evict _ _ => rfl
      | index i data =>
          dsimp only
          split
          · rfl
          · rfl
  have hram : findRam (d.mapAttributes f g).nv.ram h' =
      (findRam d.nv.ram h').map fun r => { r with attributes := g r.attributes } :=
    findRam_map (g := fun r => { r with attributes := g r.attributes }) (fun _ => rfl) h'
  unfold cell
  rw [hfind, hram]
  cases d.nv.findIndex h' with
  | none => rfl
  | some p => rfl

theorem cell_none_iff : d.cell h = none ↔ d.nv.findIndex h = none := by
  unfold cell
  rw [Option.map_eq_none_iff]

/-- The cell of an index that has just been defined, before anything is saved. -/
def newCell (i : NvIndex) (data : Bytes) : Cell := ⟨i, data, (newRam i).head?, none⟩

theorem findRam_append (ram : List RamEntry) (i : NvIndex) (h' : TpmHandle) :
    findRam (ram ++ newRam i) h' =
      (findRam ram h').or (if h' = i.publicArea.nvIndex then (newRam i).head? else none) := by
  unfold findRam
  rw [List.find?_append]
  congr 1
  unfold newRam
  cases i.orderly with
  | false => simp
  | true =>
      by_cases hh : h' = i.publicArea.nvIndex
      · simp [hh]
      · simp [hh, Ne.symm hh]

theorem findIndex_append {nv nv' : NvState} {e : NvEntry} (hu : nv'.user = nv.user ++ [e])
    (hfree : ∀ e' ∈ nv.user, e'.handle ≠ e.handle) (h' : TpmHandle) :
    nv'.findIndex h' = if h' = e.handle then e.asIndex else nv.findIndex h' := by
  rw [NvState.findIndex_eq, NvState.findIndex_eq, hu, List.find?_append]
  by_cases hh : h' = e.handle
  · subst hh
    have hnone : (nv.user.find? fun e' => e'.handle == e.handle) = none := by
      rw [List.find?_eq_none]
      intro e' he'
      simpa using hfree e' he'
    rw [hnone, if_pos rfl]
    simp
  · rw [if_neg hh]
    have hlast : ([e].find? fun e' => e'.handle == h') = none := by simp [Ne.symm hh]
    rw [hlast, Option.or_none]

theorem cell_define {i : NvIndex} {data : Bytes} (hs : d.Lists)
    (hfree : ∀ e ∈ d.nv.user, e.handle ≠ i.publicArea.nvIndex) :
    ({ d with nv := { d.nv with user := d.nv.user ++ [.index i data], ram := d.nv.ram ++ newRam i } } : NvDevice).cell h' =
      if h' = i.publicArea.nvIndex then some (newCell i data) else d.cell h' := by
  unfold cell
  have hfind : ({ d.nv with user := d.nv.user ++ [.index i data], ram := d.nv.ram ++ newRam i } : NvState).findIndex h' =
      if h' = i.publicArea.nvIndex then some (i, data) else d.nv.findIndex h' :=
    findIndex_append (e := .index i data) rfl hfree h'
  dsimp only
  rw [hfind, findRam_append]
  by_cases hh : h' = i.publicArea.nvIndex
  · subst hh
    have hnone : d.nv.findIndex i.publicArea.nvIndex = none := by
      rw [NvState.findIndex_eq, List.find?_eq_none.2]
      · rfl
      · intro e he
        simpa using hfree e he
    obtain ⟨hram, hsaved⟩ := hs.absent _ (cell_none_iff.2 hnone)
    rw [if_pos rfl, if_pos rfl, if_pos rfl, hram, hsaved]
    rfl
  · rw [if_neg hh, if_neg hh, if_neg hh, Option.or_none]

/-- A search by handle after the `k`-th entry is gone. -/
theorem findIndex_eraseIdx {nv nv' : NvState} (hnd : (nv.user.map NvEntry.handle).Nodup) {k : Nat} {e : NvEntry}
    (hk : nv.user[k]? = some e) (hu : nv'.user = nv.user.eraseIdx k) (h' : TpmHandle) :
    nv'.findIndex h' = if h' = e.handle then none else nv.findIndex h' := by
  rw [NvState.findIndex_eq, NvState.findIndex_eq, hu]
  by_cases hh : h' = e.handle
  · subst hh
    rw [KeyedList.find?_eraseIdx_self hnd hk, if_pos rfl]
    rfl
  · rw [KeyedList.find?_eraseIdx_of_ne hk (Ne.symm hh), if_neg hh]

theorem findRam_eraseP {ram : List RamEntry} (hnd : (ram.map RamEntry.handle).Nodup) (h h' : TpmHandle) :
    findRam (ram.eraseP fun r => r.handle == h) h' = if h' = h then none else findRam ram h' := by
  unfold findRam
  by_cases hh : h' = h
  · subst hh
    rw [KeyedList.find?_eraseP_self hnd, if_pos rfl]
  · rw [if_neg hh]
    refine KeyedList.find?_eraseP (fun r hr => ?_) ram
    rw [eq_of_beq hr]
    exact beq_false_of_ne (Ne.symm hh)

/-- An entry that is found lies where `findIdx` says. -/
theorem getElem?_findIdx {l : List NvEntry} {e : NvEntry} (he : (l.find? fun e => e.handle == h) = some e) :
    l[l.findIdx fun e => e.handle == h]? = some e := by
  induction l with
  | nil => cases he
  | cons x l ih =>
      rw [List.find?_cons] at he
      rw [List.findIdx_cons]
      cases hx : x.handle == h with
      | true =>
          rw [hx] at he
          simpa using he
      | false =>
          rw [hx] at he
          simpa using ih he

theorem cell_delete {nv' : NvState} {e : NvEntry} {h : TpmHandle} (hs : d.Lists)
    (he : (d.nv.user.find? fun e => e.handle == h) = some e) {k : Nat} (hk : d.nv.user[k]? = some e)
    (hu : nv'.user = d.nv.user.eraseIdx k)
    (hr : nv'.ram = d.nv.ram ∨ nv'.ram = d.nv.ram.eraseP fun r => r.handle == h) :
    ({ d with nv := nv' } : NvDevice).cell h' = if h' = h then none else d.cell h' := by
  have hhandle : e.handle = h := by
    have := List.find?_some he
    exact eq_of_beq this
  unfold cell
  dsimp only
  rw [findIndex_eraseIdx hs.handles hk hu, hhandle]
  by_cases hh : h' = h
  · rw [if_pos hh, if_pos hh]
    rfl
  · rw [if_neg hh, if_neg hh]
    have hram : findRam nv'.ram h' = findRam d.nv.ram h' := by
      rcases hr with hr | hr
      · rw [hr]
      · rw [hr, findRam_eraseP hs.ramHandles, if_neg hh]
    rw [hram]

end NvDevice

/-! ## Changes that keep an area sound -/

namespace NvIndex
variable {i : NvIndex} {a : UInt32}

theorem isAttribute_withAttributes (ha : TpmaNv.kind a = TpmaNv.kind i.publicArea.attributes) {bit : Nat}
    (hbit : (0xCFFFF7FF : Nat).testBit bit = true) : (i.withAttributes a).isAttribute bit = i.isAttribute bit :=
  TpmaNv.testBit_of_kind ha hbit

theorem nt_withAttributes (ha : TpmaNv.kind a = TpmaNv.kind i.publicArea.attributes) :
    (i.withAttributes a).nt = i.nt :=
  TpmaNv.nt_of_kind ha

theorem orderly_withAttributes (ha : TpmaNv.kind a = TpmaNv.kind i.publicArea.attributes) :
    (i.withAttributes a).orderly = i.orderly :=
  isAttribute_withAttributes ha (by decide)

theorem isCounter_eq (i : NvIndex) : i.isCounter = (i.nt == 1) := rfl

theorem isCounter_withAttributes (ha : TpmaNv.kind a = TpmaNv.kind i.publicArea.attributes) :
    (i.withAttributes a).isCounter = i.isCounter := by
  rw [isCounter_eq, isCounter_eq, nt_withAttributes ha]

theorem isPinFail_withAttributes (ha : TpmaNv.kind a = TpmaNv.kind i.publicArea.attributes) :
    (i.withAttributes a).isPinFail = i.isPinFail := by
  unfold isPinFail
  rw [nt_withAttributes ha]

theorem isPin_withAttributes (ha : TpmaNv.kind a = TpmaNv.kind i.publicArea.attributes) :
    (i.withAttributes a).isPin = i.isPin := by
  unfold isPin isPinPass
  rw [isPinFail_withAttributes ha, nt_withAttributes ha]

end NvIndex

namespace Cell
variable {c : Cell}

/-- Attributes of the same kind, for the index in NV. -/
theorem Sound.withAttributes (hc : c.Sound) {a : UInt32} (ha : TpmaNv.kind a = TpmaNv.kind c.index.publicArea.attributes) :
    ({ c with index := c.index.withAttributes a } : Cell).Sound where
  orderly ho := by
    obtain ⟨⟨r, hr, hcopy⟩, r', hr', hcopy'⟩ := hc.orderly ((NvIndex.orderly_withAttributes ha).symm.trans ho)
    exact ⟨⟨r, hr, hcopy.kind.trans ha.symm, hcopy.length⟩, r', hr', hcopy'.kind.trans ha.symm, hcopy'.length⟩
  inNv ho := hc.inNv ((NvIndex.orderly_withAttributes ha).symm.trans ho)
  length := by
    have horderly := NvIndex.orderly_withAttributes (i := c.index) ha
    unfold NvIndex.nvDataSize
    dsimp only
    rw [horderly]
    exact hc.length
  counter hn := hc.counter ((NvIndex.isCounter_withAttributes ha).symm.trans hn)
  pin hn := by
    have hattribute : (c.index.withAttributes a).isAttribute 2 = c.index.isAttribute 2 :=
      NvIndex.isAttribute_withAttributes ha (by decide)
    obtain ⟨hsize, hauth⟩ := hc.pin ((NvIndex.isPin_withAttributes ha).symm.trans hn)
    exact ⟨hsize, hattribute.trans hauth⟩
  pinFail hn := by
    have hattribute : (c.index.withAttributes a).isAttribute 25 = c.index.isAttribute 25 :=
      NvIndex.isAttribute_withAttributes ha (by decide)
    exact hattribute.trans (hc.pinFail ((NvIndex.isPinFail_withAttributes ha).symm.trans hn))

theorem Sound.withData (hc : c.Sound) {data : Bytes} (hd : data.length = c.data.length) :
    ({ c with data } : Cell).Sound :=
  ⟨hc.orderly, hc.inNv, hd.trans hc.length, hc.counter, hc.pin, hc.pinFail⟩

theorem Sound.withAuth (hc : c.Sound) (authValue : Tpm2bAuth) :
    ({ c with index := { c.index with authValue } } : Cell).Sound where
  orderly ho := by
    obtain ⟨⟨r, hr, hcopy⟩, r', hr', hcopy'⟩ := hc.orderly ho
    exact ⟨⟨r, hr, hcopy.kind, hcopy.length⟩, r', hr', hcopy'.kind, hcopy'.length⟩
  inNv := hc.inNv
  length := hc.length
  counter := hc.counter
  pin := hc.pin
  pinFail := hc.pinFail

theorem Sound.mapRam (hc : c.Sound) {f : RamEntry → RamEntry}
    (hkind : ∀ r, c.ram = some r → TpmaNv.kind (f r).attributes = TpmaNv.kind r.attributes)
    (hlength : ∀ r, c.ram = some r → (f r).data.length = r.data.length) :
    ({ c with ram := c.ram.map f } : Cell).Sound where
  orderly ho := by
    obtain ⟨⟨r, hr, hcopy⟩, hsaved⟩ := hc.orderly ho
    refine ⟨⟨f r, ?_, (hkind r hr).trans hcopy.kind, (hlength r hr).trans hcopy.length⟩, hsaved⟩
    simp only [hr, Option.map_some]
  inNv ho := by
    obtain ⟨hram, hsaved⟩ := hc.inNv ho
    refine ⟨?_, hsaved⟩
    simp only [hram, Option.map_none]
  length := hc.length
  counter := hc.counter
  pin := hc.pin
  pinFail := hc.pinFail

theorem Sound.save (hc : c.Sound) : ({ c with saved := c.ram } : Cell).Sound where
  orderly ho := ⟨(hc.orderly ho).1, (hc.orderly ho).1⟩
  inNv ho := ⟨(hc.inNv ho).1, (hc.inNv ho).1⟩
  length := hc.length
  counter := hc.counter
  pin := hc.pin
  pinFail := hc.pinFail

theorem Sound.restore (hc : c.Sound) : ({ c with ram := c.saved } : Cell).Sound where
  orderly ho := ⟨(hc.orderly ho).2, (hc.orderly ho).2⟩
  inNv ho := ⟨(hc.inNv ho).2, (hc.inNv ho).2⟩
  length := hc.length
  counter := hc.counter
  pin := hc.pin
  pinFail := hc.pinFail

end Cell

namespace NvDevice
variable {d : NvDevice} {h : TpmHandle}

theorem findRam_none_of_handles {l l' : List RamEntry} (hl : l.map RamEntry.handle = l'.map RamEntry.handle)
    (hnone : findRam l' h = none) : findRam l h = none := by
  unfold findRam at hnone ⊢
  rw [List.find?_eq_none] at hnone ⊢
  intro r hr hbeq
  have hmem : r.handle ∈ l'.map RamEntry.handle := hl ▸ List.mem_map_of_mem hr
  obtain ⟨r', hr', heq'⟩ := List.mem_map.1 hmem
  exact hnone r' hr' (heq' ▸ hbeq)

theorem Lists.rewrite {d' : NvDevice} (hs : d.Lists)
    (huser : d'.nv.user.map NvEntry.handle = d.nv.user.map NvEntry.handle)
    (hram : d'.nv.ram.map RamEntry.handle = d.nv.ram.map RamEntry.handle ∨
      d'.nv.ram.map RamEntry.handle = d.savedRam.map RamEntry.handle)
    (hsaved : d'.savedRam.map RamEntry.handle = d.savedRam.map RamEntry.handle ∨
      d'.savedRam.map RamEntry.handle = d.nv.ram.map RamEntry.handle)
    (hnone : ∀ h, d'.cell h = none → d.cell h = none) : d'.Lists := by
  refine ⟨huser ▸ hs.handles, ?_, ?_, fun h hh => ⟨?_, ?_⟩⟩
  · rcases hram with heq | heq
    · exact heq ▸ hs.ramHandles
    · exact heq ▸ hs.savedHandles
  · rcases hsaved with heq | heq
    · exact heq ▸ hs.savedHandles
    · exact heq ▸ hs.ramHandles
  · rcases hram with heq | heq
    · exact findRam_none_of_handles heq (hs.absent h (hnone h hh)).1
    · exact findRam_none_of_handles heq (hs.absent h (hnone h hh)).2
  · rcases hsaved with heq | heq
    · exact findRam_none_of_handles heq (hs.absent h (hnone h hh)).2
    · exact findRam_none_of_handles heq (hs.absent h (hnone h hh)).1

end NvDevice

end PqcTpm
