import PqcTpm.NvCells

/-!
# What the NV commands do

Seven things can come of a command: nothing that a read sees, a write, a count, a new index, a
deleted one, a cleared hierarchy, or a start. Each command is shown to do one of them, so an
invariant is proved over the seven and not over the commands.
-/
namespace PqcTpm
open ByteCodec Transition

/-! ## What a command can do to the cells -/

/-- Two copies that differ in locks at most. -/
structure SameContents (r r' : RamEntry) : Prop where
  data : r'.data = r.data
  kind : TpmaNv.kind r'.attributes = TpmaNv.kind r.attributes
  written : r'.attributes.toNat.testBit 29 = r.attributes.toNat.testBit 29

theorem SameContents.refl (r : RamEntry) : SameContents r r := ⟨rfl, rfl, rfl⟩

namespace Cell

/-- No octet that can be read is different, and the saved copy is the old one or a new one. -/
structure Quiet (c c' : Cell) : Prop where
  kind : TpmaNv.kind c'.index.publicArea.attributes = TpmaNv.kind c.index.publicArea.attributes
  written : c'.index.written = c.index.written
  size : c'.index.publicArea.dataSize = c.index.publicArea.dataSize
  data : c'.data = c.data
  ram : Option.Rel SameContents c.ram c'.ram
  saved : Option.Rel SameContents c.saved c'.saved ∨ Option.Rel SameContents c.ram c'.saved

theorem rel_refl : ∀ r : Option RamEntry, Option.Rel SameContents r r
  | none => .none
  | some r => .some (.refl r)

theorem Quiet.refl (c : Cell) : Quiet c c := ⟨rfl, rfl, rfl, rfl, rel_refl c.ram, .inl (rel_refl c.saved)⟩

theorem Quiet.save (c : Cell) : Quiet c { c with saved := c.ram } :=
  ⟨rfl, rfl, rfl, rfl, rel_refl c.ram, .inr (rel_refl c.ram)⟩

theorem rel_copy {i i' : NvIndex} (hkind : TpmaNv.kind i'.publicArea.attributes = TpmaNv.kind i.publicArea.attributes)
    (hsize : i'.publicArea.dataSize = i.publicArea.dataSize) {x x' : Option RamEntry}
    (hx : ∃ r, x = some r ∧ Copy i r) (hrel : Option.Rel SameContents x x') : ∃ r, x' = some r ∧ Copy i' r := by
  obtain ⟨r, rfl, hcopy⟩ := hx
  cases hrel with
  | some hsame =>
      refine ⟨_, rfl, ?_, ?_⟩
      · rw [hsame.kind, hcopy.kind, hkind]
      · rw [hsame.data, hcopy.length, hsize]

theorem rel_none {x x' : Option RamEntry} (hx : x = none) (hrel : Option.Rel SameContents x x') : x' = none := by
  subst hx
  cases hrel
  rfl

theorem Quiet.sound {c c' : Cell} (hq : Quiet c c') (hc : c.Sound) : c'.Sound where
  orderly ho := by
    obtain ⟨hram, hsaved⟩ := hc.orderly ((TpmaNv.testBit_of_kind hq.kind (by decide)).symm.trans ho)
    refine ⟨rel_copy hq.kind hq.size hram hq.ram, ?_⟩
    rcases hq.saved with hrel | hrel
    · exact rel_copy hq.kind hq.size hsaved hrel
    · exact rel_copy hq.kind hq.size hram hrel
  inNv ho := by
    obtain ⟨hram, hsaved⟩ := hc.inNv ((TpmaNv.testBit_of_kind hq.kind (by decide)).symm.trans ho)
    refine ⟨rel_none hram hq.ram, ?_⟩
    rcases hq.saved with hrel | hrel
    · exact rel_none hsaved hrel
    · exact rel_none hram hrel
  length := by
    have horderly : c'.index.orderly = c.index.orderly := TpmaNv.testBit_of_kind hq.kind (by decide)
    rw [hq.data, hc.length, NvIndex.nvDataSize, NvIndex.nvDataSize, horderly, hq.size]
  counter hn := by
    have hnt : c'.index.nt = c.index.nt := TpmaNv.nt_of_kind hq.kind
    rw [NvIndex.isCounter_eq, hnt] at hn
    rw [hq.size]
    exact hc.counter hn
  pin hn := by
    have hnt : c'.index.nt = c.index.nt := TpmaNv.nt_of_kind hq.kind
    rw [NvIndex.isPin, NvIndex.isPinFail, NvIndex.isPinPass, hnt] at hn
    rw [hq.size]
    exact ⟨(hc.pin hn).1, (TpmaNv.testBit_of_kind hq.kind (by decide)).trans (hc.pin hn).2⟩
  pinFail hn := by
    have hnt : c'.index.nt = c.index.nt := TpmaNv.nt_of_kind hq.kind
    rw [NvIndex.isPinFail, hnt] at hn
    exact (TpmaNv.testBit_of_kind hq.kind (by decide)).trans (hc.pinFail hn)

/-- The cell after `NvWriteIndexData`. -/
def write (c : Cell) (offset : Nat) (new : Bytes) (save : Bool) : Cell :=
  let attributes := TpmaNv.set c.attributes 29
  if c.index.orderly then
    let blank := !c.info.written && c.info.isOrdinary
    let ram := c.ram.map fun r =>
      { r with
        attributes := if c.info.written then r.attributes else attributes
        data := splice (if blank then List.replicate r.data.length 0 else r.data) offset new }
    { c with ram, saved := if save then ram else c.saved }
  else
    let blank := !c.info.written && (c.info.isOrdinary && decide (new.length < c.info.publicArea.dataSize))
    { c with
      index := if c.info.written then c.index else c.index.withAttributes attributes
      data := splice (if blank then List.replicate c.data.length 0 else c.data) offset new }

/-- The cell after `NvEntityStartup`. -/
def start (startup : StartupKind) (orderly : Bool) (c : Cell) : Cell :=
  let c := { c with ram := c.saved }
  match startup with
  | .resume => c
  | .reset | .restart =>
      let f := NvDevice.setStartupAttributes startup
      { c with
        index := if c.index.orderly then c.index else c.index.withAttributes (f c.index.publicArea.attributes)
        ram := c.ram.map fun r =>
          let r := { r with attributes := f r.attributes }
          if orderly then r else NvDevice.fillCounter r }

end Cell

/-- The cells other than one are quiet. -/
def QuietBut (d d' : NvDevice) (p : TpmHandle → Prop) : Prop :=
  ∀ h, ¬ p h → (d.cell h = none ∧ d'.cell h = none) ∨
    ∃ c c', d.cell h = some c ∧ d'.cell h = some c' ∧ c.Quiet c'

/-- The saved copies of all cells are new. -/
def SavedAll (d' : NvDevice) : Prop := ∀ h c', d'.cell h = some c' → Option.Rel SameContents c'.ram c'.saved

/-- The counter that new counters start from never falls; the end marker takes it over or stays. -/
structure MaxKept (d d' : NvDevice) : Prop where
  le : d.nv.maxCounter ≤ d'.nv.maxCounter
  saved : d'.savedMaxCounter = d.savedMaxCounter ∨ d'.savedMaxCounter = d'.nv.maxCounter

theorem MaxKept.refl (d : NvDevice) : MaxKept d d := ⟨Nat.le_refl _, .inl rfl⟩

theorem MaxKept.of_eq {d d' : NvDevice} (hmax : d'.nv.maxCounter = d.nv.maxCounter)
    (hsaved : d'.savedMaxCounter = d.savedMaxCounter) : MaxKept d d' :=
  ⟨Nat.le_of_eq hmax.symm, .inl hsaved⟩

/-- Everything that a command can do. -/
inductive NvEffect (d : NvDevice) : NvCommand → NvDevice → Prop
  | quiet {cmd : NvCommand} {d' : NvDevice} (hq : QuietBut d d' fun _ => False) (hmax : MaxKept d d')
      (horderly : d'.orderly = true → d.orderly = true ∨ SavedAll d') : NvEffect d cmd d'
  | wrote {cmd : NvCommand} {d' : NvDevice} {h : TpmHandle} {c : Cell} {offset : Nat} {new : Bytes}
      (hcell : d.cell h = some c) (hlen : offset + new.length ≤ c.index.publicArea.dataSize)
      (hcmd : (∃ auth, cmd = .nvWrite auth h offset new ∧ c.index.isCounter = false) ∨
        (c.index.isBits = true ∨ c.index.isExtend = true))
      (hcell' : d'.cell h = some (c.write offset new false)) (hq : QuietBut d d' fun h' => h' = h)
      (hmax : MaxKept d d') (horderly : d'.orderly = (d.orderly && !c.index.orderly)) : NvEffect d cmd d'
  | counted {d' : NvDevice} {auth h : TpmHandle} {c : Cell} {count : Nat}
      (hcell : d.cell h = some c) (hcounter : c.index.isCounter = true)
      (hcount : count = if c.info.written then fromBe (c.octets.take 8) else d.nv.maxCounter)
      (hcell' : d'.cell h = some (c.write 0 (be 8 ((count + 1) % 2 ^ 64))
        (!c.info.written || (count + 1) % 2 ^ 64 % 256 == 0)))
      (hq : QuietBut d d' fun h' => h' = h) (hmax : MaxKept d d')
      (horderly : d'.orderly = (d.orderly && !c.index.orderly)) : NvEffect d (.nvIncrement auth h) d'
  | defined {d' : NvDevice} {auth : TpmHandle} {authValue : Tpm2bAuth} {publicInfo : NvPublic} {residue : Bytes}
      {c : Cell} (hfree : d.cell publicInfo.nvIndex = none) (hcell : d'.cell publicInfo.nvIndex = some c)
      (hsound : c.Sound) (hunwritten : c.info.written = false) (hsaved : c.saved = c.ram)
      (hq : QuietBut d d' fun h' => h' = publicInfo.nvIndex) (hmax : MaxKept d d') (horderly : d'.orderly = d.orderly) :
      NvEffect d (.nvDefineSpace auth authValue publicInfo residue) d'
  | deleted {cmd : NvCommand} {d' : NvDevice} {h : TpmHandle} {c : Cell} (hcell : d.cell h = some c)
      (hcmd : (∃ auth, cmd = .nvUndefineSpace auth h) ∨ cmd = .nvUndefineSpaceSpecial h)
      (hcell' : d'.cell h = none)
      (hcount : c.index.isCounter = true → c.info.written = true → fromBe (c.octets.take 8) ≤ d'.nv.maxCounter)
      (hq : QuietBut d d' fun h' => h' = h) (hmax : MaxKept d d') (hend : d'.savedMaxCounter = d'.nv.maxCounter)
      (horderly : d'.orderly = d.orderly) : NvEffect d cmd d'
  | cleared {d' : NvDevice} {disableClear : Bool} {p : TpmHandle → Prop}
      (hcells : ∀ h, p h → ∃ c, d.cell h = some c ∧ d'.cell h = none ∧ c.index.platformCreate = false ∧
        (c.index.isCounter = true → c.index.orderly = false → c.info.written = true →
          fromBe (c.octets.take 8) ≤ d'.nv.maxCounter))
      (hq : QuietBut d d' p) (hmax : MaxKept d d')
      (hend : (∃ h, p h) → d'.savedMaxCounter = d'.nv.maxCounter) (horderly : d'.orderly = false) :
      NvEffect d (.clear disableClear) d'
  | started {d' : NvDevice} {toState : Bool} (kind : StartupKind)
      (hkind : kind ≠ .reset → d.orderly = true)
      (hcells : ∀ h, d'.cell h = (d.cell h).map (Cell.start kind d.orderly))
      (hmax : d'.nv.maxCounter = d.savedMaxCounter) (hend : d'.savedMaxCounter = d.savedMaxCounter)
      (horderly : d'.orderly = false) : NvEffect d (.startup toState) d'

/-! ## Reading an index -/

namespace Cell
variable {c : Cell}

theorem Sound.kind_attributes (hc : c.Sound) :
    TpmaNv.kind c.attributes = TpmaNv.kind c.index.publicArea.attributes := by
  unfold attributes
  cases ho : c.index.orderly with
  | false => rfl
  | true =>
      obtain ⟨⟨r, hr, hcopy⟩, -⟩ := hc.orderly ho
      rw [hr]
      exact hcopy.kind

theorem Sound.info_orderly (hc : c.Sound) : c.info.orderly = c.index.orderly :=
  NvIndex.orderly_withAttributes hc.kind_attributes

theorem Sound.info_isCounter (hc : c.Sound) : c.info.isCounter = c.index.isCounter :=
  NvIndex.isCounter_withAttributes hc.kind_attributes

theorem Sound.info_nt (hc : c.Sound) : c.info.nt = c.index.nt :=
  NvIndex.nt_withAttributes hc.kind_attributes

end Cell

namespace NvDevice
variable {d : NvDevice} {h h' : TpmHandle} {c : Cell}

theorem cell_eq_some (hc : d.cell h = some c) :
    d.nv.findIndex h = some (c.index, c.data) ∧ c.ram = findRam d.nv.ram h ∧ c.saved = findRam d.savedRam h ∧
      c.index.publicArea.nvIndex = h := by
  unfold cell at hc
  obtain ⟨p, hp, rfl⟩ := Option.map_eq_some_iff.1 hc
  exact ⟨hp, rfl, rfl, (NvState.find?_of_findIndex hp).2⟩

theorem index_eq_ok {i : NvIndex} {data : Bytes} (hi : d.index h = .ok (i, data)) :
    ∃ c, d.cell h = some c ∧ i = c.info ∧ data = c.data := by
  unfold index at hi
  obtain ⟨j, hj, hi⟩ := bind_eq_ok hi
  unfold NvState.indexInfo NvState.getIndexInfo at hj
  cases hfind : d.nv.findIndex h with
  | none =>
      rw [hfind] at hj
      cases hj
  | some p =>
      rw [hfind] at hi hj
      cases hi
      refine ⟨⟨p.1, p.2, findRam d.nv.ram h, findRam d.savedRam h⟩, ?_, ?_, rfl⟩
      · unfold cell
        rw [hfind]
        rfl
      · dsimp only at hj
        unfold Cell.info Cell.attributes
        dsimp only
        cases ho : p.1.orderly with
        | false =>
            rw [ho] at hj
            cases hj
            rfl
        | true =>
            rw [ho] at hj
            unfold NvState.ramGetIndex at hj
            unfold findRam
            cases hr : d.nv.ram.find? fun r => r.handle == h with
            | none =>
                rw [hr] at hj
                cases hj
            | some r =>
                rw [hr] at hj
                cases hj
                rfl

theorem nvGetUint64Data_cell (hs : c.Sound) (hc : d.cell h = some c) {v : Nat}
    (hv : nvGetUint64Data d.nv c.info c.data = .ok v) : v = fromBe (c.octets.take 8) := by
  obtain ⟨-, hram, -, hhandle⟩ := cell_eq_some hc
  unfold nvGetUint64Data at hv
  rw [hs.info_orderly] at hv
  unfold Cell.octets
  cases ho : c.index.orderly with
  | false =>
      rw [ho] at hv
      simp only [Bool.false_eq_true, if_false] at hv
      split at hv
      · cases hv
        rfl
      · cases hv
  | true =>
      obtain ⟨⟨r, hr, -⟩, -⟩ := hs.orderly ho
      have hget : d.nv.ramGetIndex c.info.publicArea.nvIndex = some r := by
        have hh : c.info.publicArea.nvIndex = h := hhandle
        rw [hh]
        exact hram.symm.trans hr
      rw [ho, hget] at hv
      simp only [if_true] at hv
      split at hv
      · cases hv
        rw [hr]
      · cases hv

/-! ## Writing an index -/

/-- What a successful write leaves. -/
structure Written (d d' : NvDevice) (h : TpmHandle) (c : Cell) (offset : Nat) (new : Bytes) (save : Bool) : Prop where
  lists : d'.Lists
  cell : d'.cell h = some (c.write offset new save)
  quiet : QuietBut d d' fun h' => h' = h
  maxCounter : d'.nv.maxCounter = d.nv.maxCounter
  savedMaxCounter : d'.savedMaxCounter = d.savedMaxCounter
  orderly : d'.orderly = (d.orderly && !c.index.orderly)

theorem quietBut_of_eq {d' : NvDevice} {p : TpmHandle → Prop} (hcell : ∀ h, ¬ p h → d'.cell h = d.cell h) :
    QuietBut d d' p := by
  intro h hp
  cases hc : d.cell h with
  | none => exact .inl ⟨rfl, (hcell h hp).trans hc⟩
  | some c => exact .inr ⟨c, c, rfl, (hcell h hp).trans hc, .refl c⟩

theorem quietBut_saveRam {d' : NvDevice} {p : TpmHandle → Prop} (hq : QuietBut d d' p) : QuietBut d d'.saveRam p := by
  intro h hp
  rcases hq h hp with ⟨hnone, hnone'⟩ | ⟨c, c', hc, hc', hquiet⟩
  · refine .inl ⟨hnone, ?_⟩
    rw [cell_saveRam, hnone']
    rfl
  · refine .inr ⟨c, { c' with saved := c'.ram }, hc, ?_, ?_⟩
    · rw [cell_saveRam, hc']
      rfl
    · exact ⟨hquiet.kind, hquiet.written, hquiet.size, hquiet.data, hquiet.ram, .inr hquiet.ram⟩

theorem Lists.mapRam (hs : d.Lists) {f : RamEntry → RamEntry} (hf : ∀ r, (f r).handle = r.handle) :
    (d.mapRam h f).Lists := by
  refine hs.rewrite rfl (.inl ?_) (.inl rfl) fun h' hnone => ?_
  · unfold NvDevice.mapRam
    rw [List.map_map]
    refine List.map_congr_left fun r _ => ?_
    simp only [Function.comp_apply]
    split
    · exact hf r
    · rfl
  · rw [cell_none_iff] at hnone ⊢
    exact hnone

theorem Lists.mapIndex (hs : d.Lists) {f : NvIndex → Bytes → NvIndex × Bytes}
    (hf : ∀ i data, (f i data).1.publicArea.nvIndex = i.publicArea.nvIndex) : (d.mapIndex h f).Lists := by
  refine hs.rewrite ?_ (.inl rfl) (.inl rfl) fun h' hnone => ?_
  · unfold NvDevice.mapIndex
    rw [List.map_map]
    refine List.map_congr_left fun e _ => ?_
    cases e with
    | evict _ _ => rfl
    | index i data =>
        simp only [Function.comp_apply]
        split
        · exact hf i data
        · rfl
  · rw [cell_mapIndex hf] at hnone
    split at hnone
    · exact Option.map_eq_none_iff.1 hnone
    · exact hnone

theorem Lists.saveRam (hs : d.Lists) : d.saveRam.Lists := by
  refine hs.rewrite rfl (.inl rfl) (.inr rfl) fun h' hnone => ?_
  rw [cell_saveRam] at hnone
  exact Option.map_eq_none_iff.1 hnone

theorem Lists.flags (hs : d.Lists) (orderly : Bool) (shutdownType : ShutdownType) (savedMaxCounter : Nat)
    (phEnableNv : Bool) (maxCounter : Nat) (nvStatus : Option TpmRc) :
    ({ d with
      orderly := orderly, shutdownType := shutdownType, savedMaxCounter := savedMaxCounter, phEnableNv := phEnableNv
      nv := { d.nv with maxCounter := maxCounter, nvStatus := nvStatus } } : NvDevice).Lists :=
  ⟨hs.handles, hs.ramHandles, hs.savedHandles, hs.absent⟩

/-- The copy in RAM after a write to it. -/
def writeRam (c : Cell) (offset : Nat) (new : Bytes) (r : RamEntry) : RamEntry :=
  { r with
    attributes := if c.info.written then r.attributes else TpmaNv.set c.attributes 29
    data := splice (if !c.info.written && c.info.isOrdinary then List.replicate r.data.length 0 else r.data) offset new }

theorem written_ram (hs : d.Sound) (hc : d.cell h = some c) (ho : c.index.orderly = true) (offset : Nat) (new : Bytes)
    (save : Bool) :
    Written d
      { (if save = true then (d.mapRam h (writeRam c offset new)).saveRam else d.mapRam h (writeRam c offset new)) with
        orderly := false } h c offset new save := by
  have hlists : (d.mapRam h (writeRam c offset new)).Lists := hs.toLists.mapRam fun _ => rfl
  have hcell : (d.mapRam h (writeRam c offset new)).cell h = some { c with ram := c.ram.map (writeRam c offset new) } := by
    rw [cell_mapRam (f := writeRam c offset new) fun _ => rfl, if_pos rfl, hc]
    rfl
  have hother : ∀ h', ¬ h' = h → (d.mapRam h (writeRam c offset new)).cell h' = d.cell h' := by
    intro h' hne
    rw [cell_mapRam (f := writeRam c offset new) fun _ => rfl, if_neg hne]
  have horderly : false = (d.orderly && !c.index.orderly) := by simp [ho]
  cases save with
  | false =>
      refine ⟨hlists.flags false _ _ _ _ _, ?_, quietBut_of_eq hother, rfl, rfl, horderly⟩
      refine Eq.trans hcell ?_
      unfold Cell.write
      simp only [ho, if_true, Bool.false_eq_true, if_false]
      rfl
  | true =>
      have hquiet : QuietBut d (d.mapRam h (writeRam c offset new)).saveRam fun h' => h' = h := quietBut_saveRam (quietBut_of_eq hother)
      have hsaved : (d.mapRam h (writeRam c offset new)).saveRam.cell h = some (c.write offset new true) := by
        rw [cell_saveRam, hcell]
        unfold Cell.write
        simp only [ho, if_true]
        rfl
      exact ⟨hlists.saveRam.flags false _ _ _ _ _, hsaved, hquiet, rfl, rfl, horderly⟩

theorem writeIndexData_cases (hs : d.Sound) (hc : d.cell h = some c) (offset : Nat) (new : Bytes) :
    ((d.writeIndexData c.info c.data offset new).2 = d ∧ ∃ e, (d.writeIndexData c.info c.data offset new).1 = .error e) ∨
    ((d.writeIndexData c.info c.data offset new).1 = .ok () ∧ offset + new.length ≤ c.index.publicArea.dataSize ∧
      Written d (d.writeIndexData c.info c.data offset new).2 h c offset new (!c.info.written && c.index.isCounter)) := by
  have hsound := hs.cells h c hc
  obtain ⟨-, -, -, hhandle⟩ := cell_eq_some hc
  have hinfo : c.info.publicArea.nvIndex = h := hhandle
  unfold writeIndexData
  dsimp only
  split
  · exact .inl ⟨rfl, _, rfl⟩
  · rename_i hlen
    have hlen' : offset + new.length ≤ c.index.publicArea.dataSize := Nat.le_of_not_lt hlen
    rw [hsound.info_orderly, hsound.info_isCounter, hinfo]
    split
    · rename_i ho
      exact .inr ⟨rfl, hlen', written_ram hs hc ho offset new _⟩
    · rename_i ho
      split
      · rename_i hwritten
        split
        · rename_i hsame
          refine .inr ⟨rfl, hlen', hs.toLists, ?_, quietBut_of_eq fun _ _ => rfl, rfl, rfl, ?_⟩
          · rw [hc]
            unfold Cell.write
            simp [ho, hwritten, hsame]
          · simp [ho]
        · split
          · exact .inl ⟨rfl, _, rfl⟩
          · refine .inr ⟨rfl, hlen', hs.toLists.mapIndex fun _ _ => rfl, ?_, ?_, rfl, rfl, ?_⟩
            · rw [cell_mapIndex fun _ _ => rfl, if_pos rfl, hc]
              unfold Cell.write
              simp [ho, hwritten]
            · refine quietBut_of_eq fun h' hne => ?_
              rw [cell_mapIndex fun _ _ => rfl, if_neg hne]
            · simp [ho, NvDevice.mapIndex]
      · rename_i hwritten
        split
        · exact .inl ⟨rfl, _, rfl⟩
        · refine .inr ⟨rfl, hlen', hs.toLists.mapIndex fun _ _ => rfl, ?_, ?_, rfl, rfl, ?_⟩
          · rw [cell_mapIndex fun _ _ => rfl, if_pos rfl, hc]
            unfold Cell.write
            have hattributes : c.info.publicArea.attributes = c.attributes := rfl
            simp [ho, hwritten, hattributes]
          · refine quietBut_of_eq fun h' hne => ?_
            rw [cell_mapIndex fun _ _ => rfl, if_neg hne]
          · simp [ho, NvDevice.mapIndex]

/-! ## The effect of each command -/

theorem unchanged (cmd : NvCommand) : NvEffect d cmd d :=
  .quiet (quietBut_of_eq fun _ _ => rfl) (.refl d) .inl

/-- The effect together with what it leaves of the lists. -/
def Does (d : NvDevice) (cmd : NvCommand) (d' : NvDevice) : Prop := NvEffect d cmd d' ∧ d'.Lists

theorem does_nothing (hs : d.Sound) (cmd : NvCommand) : Does d cmd d := ⟨unchanged cmd, hs.toLists⟩

theorem Written.does {d' : NvDevice} {cmd : NvCommand} {offset : Nat} {new : Bytes} {save : Bool}
    (hw : Written d d' h c offset new save) (hcell : d.cell h = some c) (hsave : save = false)
    (hlen : offset + new.length ≤ c.index.publicArea.dataSize)
    (hcmd : (∃ auth, cmd = .nvWrite auth h offset new ∧ c.index.isCounter = false) ∨
      (c.index.isBits = true ∨ c.index.isExtend = true)) : Does d cmd d' := by
  subst hsave
  exact ⟨.wrote hcell hlen hcmd hw.cell hw.quiet (.of_eq hw.maxCounter hw.savedMaxCounter) hw.orderly, hw.lists⟩

theorem nvWrite_does (hs : d.Sound) (auth : TpmHandle) (offset : Nat) (data : Bytes) :
    Does d (.nvWrite auth h offset data) (d.nvWrite auth h offset data).2 := by
  unfold nvWrite
  split
  · exact does_nothing hs _
  · rename_i i old hi
    obtain ⟨c, hc, rfl, rfl⟩ := index_eq_ok hi
    dsimp only
    split
    · exact does_nothing hs _
    · rename_i hchecks
      obtain ⟨_, -, hchecks⟩ := bind_eq_ok hchecks
      obtain ⟨_, htype, -⟩ := bind_eq_ok hchecks
      have hsound := hs.cells h c hc
      have hcounter : c.index.isCounter = false := by
        have := demand_eq_ok htype
        rw [hsound.info_isCounter] at this
        cases hn : c.index.isCounter with
        | false => rfl
        | true => simp [hn] at this
      rcases writeIndexData_cases hs hc offset data with ⟨hsame, -⟩ | ⟨-, hlen, hw⟩
      · rw [hsame]
        exact does_nothing hs _
      · refine hw.does hc ?_ hlen (.inl ⟨auth, rfl, hcounter⟩)
        rw [hcounter, Bool.and_false]

theorem nvSetBits_does (hs : d.Sound) (auth : TpmHandle) (bits : Nat) :
    Does d (.nvSetBits auth h bits) (d.nvSetBits auth h bits).2 := by
  unfold nvSetBits
  split
  · exact does_nothing hs _
  · rename_i i old hi
    obtain ⟨c, hc, rfl, rfl⟩ := index_eq_ok hi
    dsimp only
    split
    · exact does_nothing hs _
    · rename_i value hchecks
      obtain ⟨_, -, hchecks⟩ := bind_eq_ok hchecks
      obtain ⟨_, htype, -⟩ := bind_eq_ok hchecks
      have hbits : c.index.isBits = true := by
        have := demand_eq_ok htype
        rwa [NvIndex.isBits, (hs.cells h c hc).info_nt] at this
      have hcounter : c.index.isCounter = false := by
        rw [NvIndex.isBits, beq_iff_eq] at hbits
        rw [NvIndex.isCounter_eq, hbits]
        rfl
      rcases writeIndexData_cases hs hc 0 (be 8 (value ||| bits % 2 ^ 64)) with ⟨hsame, -⟩ | ⟨-, hlen, hw⟩
      · rw [hsame]
        exact does_nothing hs _
      · refine hw.does hc ?_ hlen (.inr (.inl hbits))
        rw [hcounter, Bool.and_false]

theorem nvExtend_does (hs : d.Sound) (H : PolicyHash) (auth : TpmHandle) (data : Bytes) :
    Does d (.nvExtend auth h data) (d.nvExtend H auth h data).2 := by
  unfold nvExtend
  split
  · exact does_nothing hs _
  · rename_i i old hi
    obtain ⟨c, hc, rfl, rfl⟩ := index_eq_ok hi
    dsimp only
    split
    · exact does_nothing hs _
    · rename_i digest hchecks
      obtain ⟨_, -, hchecks⟩ := bind_eq_ok hchecks
      obtain ⟨_, htype, -⟩ := bind_eq_ok hchecks
      have hextend : c.index.isExtend = true := by
        have := demand_eq_ok htype
        rwa [NvIndex.isExtend, (hs.cells h c hc).info_nt] at this
      have hcounter : c.index.isCounter = false := by
        rw [NvIndex.isExtend, beq_iff_eq] at hextend
        rw [NvIndex.isCounter_eq, hextend]
        rfl
      rcases writeIndexData_cases hs hc 0 (H.hash c.info.publicArea.nameAlg (digest ++ data)) with
        ⟨hsame, -⟩ | ⟨-, hlen, hw⟩
      · rw [hsame]
        exact does_nothing hs _
      · refine hw.does hc ?_ hlen (.inr (.inr hextend))
        rw [hcounter, Bool.and_false]

theorem write_inNv (ho : c.index.orderly = false) (offset : Nat) (new : Bytes) (a b : Bool) :
    c.write offset new a = c.write offset new b := by
  unfold Cell.write
  simp [ho]

theorem write_saved (ho : c.index.orderly = true) (offset : Nat) (new : Bytes) (save : Bool) :
    { c.write offset new save with saved := (c.write offset new save).ram } = c.write offset new true := by
  unfold Cell.write
  simp [ho]

/-- What a successful increment leaves. -/
structure Counted (d d' : NvDevice) (h : TpmHandle) (c : Cell) (count : Nat) : Prop where
  before : d.cell h = some c
  counter : c.index.isCounter = true
  start : count = if c.info.written then fromBe (c.octets.take 8) else d.nv.maxCounter
  after : d'.cell h = some (c.write 0 (be 8 ((count + 1) % 2 ^ 64)) (!c.info.written || (count + 1) % 2 ^ 64 % 256 == 0))
  quiet : QuietBut d d' fun h' => h' = h
  maxCounter : d'.nv.maxCounter = d.nv.maxCounter
  savedMaxCounter : d'.savedMaxCounter = d.savedMaxCounter
  orderly : d'.orderly = (d.orderly && !c.index.orderly)
  lists : d'.Lists

theorem Written.counted {d' : NvDevice} {count : Nat} (hc : d.cell h = some c) (hcounter : c.index.isCounter = true)
    (hcount : count = if c.info.written then fromBe (c.octets.take 8) else d.nv.maxCounter)
    (hw : Written d d' h c 0 (be 8 ((count + 1) % 2 ^ 64)) (!c.info.written)) :
    Counted d (if c.index.orderly && (count + 1) % 2 ^ 64 % 256 == 0 then d'.saveRam else d') h c count := by
  cases ho : c.index.orderly with
  | false =>
      rw [Bool.false_and, if_neg Bool.false_ne_true]
      refine ⟨hc, hcounter, hcount, ?_, hw.quiet, hw.maxCounter, hw.savedMaxCounter, hw.orderly, hw.lists⟩
      rw [hw.cell, write_inNv ho]
  | true =>
      rw [Bool.true_and]
      cases hroll : (count + 1) % 2 ^ 64 % 256 == 0 with
      | false =>
          rw [if_neg Bool.false_ne_true]
          refine ⟨hc, hcounter, hcount, ?_, hw.quiet, hw.maxCounter, hw.savedMaxCounter, hw.orderly, hw.lists⟩
          rw [hw.cell, hroll, Bool.or_false]
      | true =>
          rw [if_pos rfl]
          refine ⟨hc, hcounter, hcount, ?_, quietBut_saveRam hw.quiet, hw.maxCounter, hw.savedMaxCounter, hw.orderly,
            hw.lists.saveRam⟩
          rw [cell_saveRam, hw.cell, Option.map_some, write_saved ho, hroll, Bool.or_true]

theorem nvIncrement_cases (hs : d.Sound) (auth : TpmHandle) :
    ((d.nvIncrement auth h).2 = d ∧ ∃ e, (d.nvIncrement auth h).1 = .error e) ∨
      ∃ c count, Counted d (d.nvIncrement auth h).2 h c count := by
  unfold nvIncrement
  split
  · exact .inl ⟨rfl, _, rfl⟩
  · rename_i i old hi
    obtain ⟨c, hc, rfl, rfl⟩ := index_eq_ok hi
    dsimp only
    split
    · exact .inl ⟨rfl, _, rfl⟩
    · rename_i count hchecks
      obtain ⟨_, -, hchecks⟩ := bind_eq_ok hchecks
      obtain ⟨_, htype, hvalue⟩ := bind_eq_ok hchecks
      have hsound := hs.cells h c hc
      have hcounter : c.index.isCounter = true := by
        rw [← hsound.info_isCounter]
        exact demand_eq_ok htype
      have hcount : count = if c.info.written then fromBe (c.octets.take 8) else d.nv.maxCounter := by
        unfold countValue at hvalue
        split at hvalue
        · rename_i hw
          rw [if_pos hw]
          exact nvGetUint64Data_cell hsound hc hvalue
        · rename_i hw
          rw [if_neg hw]
          cases hvalue
          rfl
      rw [hsound.info_orderly]
      split
      · rename_i e d' hout
        rcases writeIndexData_cases hs hc 0 (be 8 ((count + 1) % 2 ^ 64)) with ⟨hsame, -⟩ | ⟨hok, -, -⟩
        · rw [hout] at hsame
          exact .inl ⟨hsame, e, rfl⟩
        · rw [hout] at hok
          cases hok
      · rename_i d' hout
        rcases writeIndexData_cases hs hc 0 (be 8 ((count + 1) % 2 ^ 64)) with ⟨-, e, herr⟩ | ⟨-, -, hw⟩
        · rw [hout] at herr
          cases herr
        · rw [hout, hcounter, Bool.and_true] at hw
          exact .inr ⟨c, count, hw.counted hc hcounter hcount⟩

theorem nvIncrement_does (hs : d.Sound) (auth : TpmHandle) :
    Does d (.nvIncrement auth h) (d.nvIncrement auth h).2 := by
  rcases nvIncrement_cases hs auth with ⟨hsame, -⟩ | ⟨c, count, hcounted⟩
  · rw [hsame]
    exact does_nothing hs _
  · have hmax : MaxKept d (d.nvIncrement auth h).2 := .of_eq hcounted.maxCounter hcounted.savedMaxCounter
    exact ⟨.counted hcounted.before hcounted.counter hcounted.start hcounted.after hcounted.quiet hmax hcounted.orderly,
      hcounted.lists⟩

theorem does_quiet {d' : NvDevice} {cmd : NvCommand} (hq : QuietBut d d' fun _ => False)
    (hmax : d'.nv.maxCounter = d.nv.maxCounter) (hend : d'.savedMaxCounter = d.savedMaxCounter)
    (horderly : d'.orderly = d.orderly) (hlists : d'.Lists) : Does d cmd d' :=
  ⟨.quiet hq (.of_eq hmax hend) fun ho => .inl (horderly ▸ ho), hlists⟩

theorem quietBut_of_map {d' : NvDevice} {f : TpmHandle → Cell → Cell} (hmap : ∀ h, d'.cell h = (d.cell h).map (f h))
    (hquiet : ∀ h c, d.cell h = some c → c.Quiet (f h c)) : QuietBut d d' fun _ => False := by
  intro h _
  cases hc : d.cell h with
  | none =>
      refine .inl ⟨rfl, ?_⟩
      rw [hmap, hc]
      rfl
  | some c =>
      refine .inr ⟨c, f h c, rfl, ?_, hquiet h c hc⟩
      rw [hmap, hc]
      rfl

end NvDevice

/-! ### Locks -/

/-- A change of attributes that leaves the kind and `WRITTEN`. -/
structure TpmaNv.Locks (a b : UInt32) : Prop where
  kind : TpmaNv.kind b = TpmaNv.kind a
  written : b.toNat.testBit 29 = a.toNat.testBit 29

theorem TpmaNv.locks_refl (a : UInt32) : Locks a a := ⟨rfl, rfl⟩

theorem TpmaNv.locks_write (a : UInt32) : Locks a (set a 11) := by
  refine ⟨kind_set (by decide), ?_⟩
  rw [testBit_set a 11 29 (by decide)]
  exact Bool.or_false _

theorem TpmaNv.locks_read (a : UInt32) : Locks a (set a 28) := by
  refine ⟨kind_set (by decide), ?_⟩
  rw [testBit_set a 28 29 (by decide)]
  exact Bool.or_false _

theorem TpmaNv.locks_globally (a : UInt32) : Locks a (NvDevice.lockGlobally a) := by
  unfold NvDevice.lockGlobally
  split
  · exact locks_write a
  · exact locks_refl a

namespace Cell
variable {c : Cell}

theorem rel_map {f : RamEntry → RamEntry} (x : Option RamEntry) (hf : ∀ r, x = some r → SameContents r (f r)) :
    Option.Rel SameContents x (x.map f) := by
  cases x with
  | none => exact .none
  | some r => exact .some (hf r rfl)

theorem quiet_locks {a : UInt32} {f : RamEntry → RamEntry} (ha : TpmaNv.Locks c.index.publicArea.attributes a)
    (hf : ∀ r, c.ram = some r → SameContents r (f r)) :
    c.Quiet { c with index := c.index.withAttributes a, ram := c.ram.map f } :=
  ⟨ha.kind, ha.written, rfl, rfl, rel_map c.ram hf, .inl (rel_refl c.saved)⟩

end Cell

namespace NvDevice
variable {d : NvDevice} {h : TpmHandle} {c : Cell}

theorem writeIndexAttributes_does (hs : d.Sound) (hc : d.cell h = some c) (cmd : NvCommand) {a : UInt32}
    (ha : TpmaNv.Locks c.attributes a) : Does d cmd (d.writeIndexAttributes c.info a).2 := by
  have hsound := hs.cells h c hc
  obtain ⟨-, -, -, hhandle⟩ := cell_eq_some hc
  have hinfo : c.info.publicArea.nvIndex = h := hhandle
  unfold writeIndexAttributes
  dsimp only
  rw [hsound.info_orderly, hinfo]
  split
  · rename_i ho
    refine does_quiet ?_ rfl rfl rfl (hs.toLists.mapRam fun _ => rfl)
    refine quietBut_of_map (f := fun h' c => if h' = h then { c with ram := c.ram.map fun r => { r with attributes := a } } else c)
      (fun h' => ?_) fun h' c' hc' => ?_
    · rw [cell_mapRam (f := fun r => { r with attributes := a }) fun _ => rfl]
      split
      · rfl
      · simp
    · split
      · rename_i hh
        subst hh
        rw [hc] at hc'
        cases hc'
        refine Cell.quiet_locks (TpmaNv.locks_refl _) fun r hr => ?_
        have hattributes : c.attributes = r.attributes := by
          unfold Cell.attributes
          rw [ho, hr]
        rw [hattributes] at ha
        exact ⟨rfl, ha.kind, ha.written⟩
      · exact .refl c'
  · rename_i ho
    split
    · exact does_nothing hs cmd
    · split
      · exact does_nothing hs cmd
      · refine does_quiet ?_ rfl rfl rfl (hs.toLists.mapIndex fun _ _ => rfl)
        refine quietBut_of_map (f := fun h' c => if h' = h then { c with index := c.index.withAttributes a } else c)
          (fun h' => ?_) fun h' c' hc' => ?_
        · rw [cell_mapIndex fun _ _ => rfl]
          split
          · rfl
          · simp
        · split
          · rename_i hh
            subst hh
            rw [hc] at hc'
            cases hc'
            have hattributes : c.attributes = c.index.publicArea.attributes := by
              unfold Cell.attributes
              simp [ho]
            rw [hattributes] at ha
            exact ⟨ha.kind, ha.written, rfl, rfl, Cell.rel_refl c.ram, .inl (Cell.rel_refl c.saved)⟩
          · exact .refl c'

theorem nvWriteLock_does (hs : d.Sound) (auth : TpmHandle) :
    Does d (.nvWriteLock auth h) (d.nvWriteLock auth h).2 := by
  unfold nvWriteLock
  split
  · exact does_nothing hs _
  · rename_i i old hi
    obtain ⟨c, hc, rfl, rfl⟩ := index_eq_ok hi
    split
    · exact does_nothing hs _
    · split
      · exact writeIndexAttributes_does hs hc _ (TpmaNv.locks_write c.attributes)
      · exact does_nothing hs _

theorem nvReadLock_does (hs : d.Sound) (auth : TpmHandle) :
    Does d (.nvReadLock auth h) (d.nvReadLock auth h).2 := by
  unfold nvReadLock
  split
  · exact does_nothing hs _
  · rename_i i old hi
    obtain ⟨c, hc, rfl, rfl⟩ := index_eq_ok hi
    split
    · exact does_nothing hs _
    · exact does_nothing hs _
    · split
      · exact writeIndexAttributes_does hs hc _ (TpmaNv.locks_read c.attributes)
      · exact does_nothing hs _

theorem Lists.mapAttributes (hs : d.Lists) (f g : UInt32 → UInt32) : (d.mapAttributes f g).Lists := by
  refine hs.rewrite ?_ (.inl ?_) (.inl rfl) fun h' hnone => ?_
  · unfold NvDevice.mapAttributes
    rw [List.map_map]
    refine List.map_congr_left fun e _ => ?_
    cases e with
    | evict _ _ => rfl
    | index i data =>
        simp only [Function.comp_apply]
        split
        · rfl
        · rfl
  · unfold NvDevice.mapAttributes
    rw [List.map_map]
    rfl
  · rw [cell_mapAttributes] at hnone
    exact Option.map_eq_none_iff.1 hnone

theorem mapAttributes_does (hs : d.Sound) (cmd : NvCommand) {f g : UInt32 → UInt32} (hf : ∀ a, TpmaNv.Locks a (f a))
    (hg : ∀ a, TpmaNv.Locks a (g a)) : Does d cmd (d.mapAttributes f g) := by
  refine does_quiet (quietBut_of_map (fun h => cell_mapAttributes) fun h c _ => ?_) rfl rfl rfl (hs.toLists.mapAttributes f g)
  have hram : ∀ r, c.ram = some r → SameContents r { r with attributes := g r.attributes } :=
    fun r _ => ⟨rfl, (hg r.attributes).kind, (hg r.attributes).written⟩
  cases c.index.orderly with
  | true => exact Cell.quiet_locks (TpmaNv.locks_refl _) hram
  | false => exact Cell.quiet_locks (hf _) hram

theorem nvGlobalWriteLock_does (hs : d.Sound) : Does d .nvGlobalWriteLock d.nvGlobalWriteLock.2 := by
  unfold nvGlobalWriteLock
  split
  · exact mapAttributes_does hs _ TpmaNv.locks_globally TpmaNv.locks_globally
  · dsimp only
    split
    · exact does_nothing hs _
    · exact mapAttributes_does hs _ TpmaNv.locks_refl TpmaNv.locks_globally

theorem nvChangeAuth_does (hs : d.Sound) (newAuth : Tpm2bAuth) :
    Does d (.nvChangeAuth h newAuth) (d.nvChangeAuth h newAuth).2 := by
  unfold nvChangeAuth
  split
  · exact does_nothing hs _
  · dsimp only
    split
    · exact does_nothing hs _
    · split
      · exact does_nothing hs _
      · split
        · exact does_nothing hs _
        · refine does_quiet ?_ rfl rfl rfl (hs.toLists.mapIndex fun _ _ => rfl)
          refine quietBut_of_map
            (f := fun h' c => if h' = h then { c with index := { c.index with authValue := removeTrailingZeros newAuth } } else c)
            (fun h' => ?_) fun h' c' hc' => ?_
          · rw [cell_mapIndex fun _ _ => rfl]
            split
            · rfl
            · simp
          · split
            · exact ⟨rfl, rfl, rfl, rfl, Cell.rel_refl _, .inl (Cell.rel_refl _)⟩
            · exact .refl c'

/-! ### Defining -/

/-- What the checks leave of the indices that can be defined. -/
theorem nvDefineSpaceChecks_ok {authHandle : TpmHandle} {auth : Tpm2bAuth} {i : NvIndex} {phEnableNv : Bool}
    (hok : nvDefineSpaceChecks authHandle auth i phEnableNv = .ok ()) :
    (i.isCounter = true → i.publicArea.dataSize = 8) ∧
    (i.isPin = true → i.publicArea.dataSize = 8 ∧ i.isAttribute 2 = false) ∧
    (i.isPinFail = true → i.isAttribute 25 = true) ∧ i.written = false := by
  unfold nvDefineSpaceChecks at hok
  obtain ⟨_, -, hok⟩ := bind_eq_ok hok
  obtain ⟨_, -, hok⟩ := bind_eq_ok hok
  obtain ⟨_, -, hok⟩ := bind_eq_ok hok
  obtain ⟨_, -, hok⟩ := bind_eq_ok hok
  obtain ⟨_, -, hok⟩ := bind_eq_ok hok
  obtain ⟨_, hsize, hok⟩ := bind_eq_ok hok
  obtain ⟨_, -, hok⟩ := bind_eq_ok hok
  obtain ⟨_, hfail, hok⟩ := bind_eq_ok hok
  obtain ⟨_, hpin, hok⟩ := bind_eq_ok hok
  obtain ⟨_, hwritten, -⟩ := bind_eq_ok hok
  have hsize := demand_eq_ok hsize
  have hfail := demand_eq_ok hfail
  have hpin := demand_eq_ok hpin
  have hwritten := demand_eq_ok hwritten
  -- an index that is neither ordinary nor extended has eight octets
  have height : i.nt ≠ 0 → i.nt ≠ 4 → i.publicArea.dataSize = 8 := by
    intro hordinary hextend
    simpa [NvIndex.isOrdinary, NvIndex.isExtend, hordinary, hextend] using hsize
  refine ⟨fun hn => ?_, fun hn => ⟨?_, ?_⟩, fun hn => ?_, ?_⟩
  · rw [NvIndex.isCounter_eq, beq_iff_eq] at hn
    exact height (by omega) (by omega)
  · have hnt : i.nt = 8 ∨ i.nt = 9 := by
      simpa [NvIndex.isPin, NvIndex.isPinFail, NvIndex.isPinPass] using hn
    exact height (by omega) (by omega)
  · rw [hn] at hpin
    simp only [Bool.true_and, Bool.not_eq_true', Bool.or_eq_false_iff] at hpin
    exact hpin.1.1
  · simpa [hn] using hfail
  · simp only [Bool.not_eq_true', Bool.or_eq_false_iff] at hwritten
    exact hwritten.1.1

theorem newRam_head? (i : NvIndex) :
    (newRam i).head? =
      if i.orderly then some ⟨i.publicArea.nvIndex, i.publicArea.attributes, List.replicate i.publicArea.dataSize 0⟩
      else none := by
  unfold newRam
  split <;> rfl

theorem newCell_info (i : NvIndex) (data : Bytes) (saved : Option RamEntry) :
    ({ newCell i data with saved } : Cell).info = i := by
  have hattributes : ({ newCell i data with saved } : Cell).attributes = i.publicArea.attributes := by
    unfold Cell.attributes newCell
    dsimp only
    rw [newRam_head?]
    cases i.orderly <;> rfl
  unfold Cell.info
  rw [hattributes]
  rfl

theorem newCell_sound {i : NvIndex} {data : Bytes} (hlen : data.length = i.nvDataSize)
    (hcounter : i.isCounter = true → i.publicArea.dataSize = 8)
    (hpin : i.isPin = true → i.publicArea.dataSize = 8 ∧ i.isAttribute 2 = false)
    (hfail : i.isPinFail = true → i.isAttribute 25 = true) :
    ({ newCell i data with saved := (newRam i).head? } : Cell).Sound where
  orderly ho := by
    have hcopy : ∃ r, (newRam i).head? = some r ∧ Cell.Copy i r := by
      refine ⟨⟨i.publicArea.nvIndex, i.publicArea.attributes, List.replicate i.publicArea.dataSize 0⟩, ?_, rfl, ?_⟩
      · have hyes : i.orderly = true := ho
        rw [newRam_head?, if_pos hyes]
      · exact List.length_replicate
    exact ⟨hcopy, hcopy⟩
  inNv ho := by
    have hnone : (newRam i).head? = none := by
      have hno : i.orderly = false := ho
      rw [newRam_head?, hno]
      rfl
    exact ⟨hnone, hnone⟩
  length := hlen
  counter := hcounter
  pin := hpin
  pinFail := hfail

theorem findRam_eq_none {ram : List RamEntry} : findRam ram h = none ↔ h ∉ ram.map RamEntry.handle := by
  unfold findRam
  rw [List.find?_eq_none]
  constructor
  · intro hnone hmem
    obtain ⟨r, hr, rfl⟩ := List.mem_map.1 hmem
    exact hnone r hr (by simp)
  · intro hmem r hr hbeq
    exact hmem (List.mem_map.2 ⟨r, hr, eq_of_beq hbeq⟩)

theorem nodup_newRam {ram : List RamEntry} {i : NvIndex} (hnd : (ram.map RamEntry.handle).Nodup)
    (hfree : findRam ram i.publicArea.nvIndex = none) : ((ram ++ newRam i).map RamEntry.handle).Nodup := by
  rw [List.map_append, List.nodup_append]
  refine ⟨hnd, ?_, ?_⟩
  · unfold newRam
    split
    · exact List.nodup_singleton _
    · exact List.nodup_nil
  · rintro a ha b hb rfl
    unfold newRam at hb
    split at hb
    · have heq : a = i.publicArea.nvIndex := List.mem_singleton.1 hb
      exact findRam_eq_none.1 hfree (heq ▸ ha)
    · cases hb

theorem nodup_append_entry {l : List NvEntry} {e : NvEntry} (hnd : (l.map NvEntry.handle).Nodup)
    (hfree : ∀ e' ∈ l, e'.handle ≠ e.handle) : ((l ++ [e]).map NvEntry.handle).Nodup := by
  rw [List.map_append, List.nodup_append]
  refine ⟨hnd, List.nodup_singleton _, ?_⟩
  rintro a ha b hb rfl
  obtain ⟨e', he', rfl⟩ := List.mem_map.1 ha
  exact hfree e' he' (List.mem_singleton.1 hb)

theorem nvDefineSpace_does (hs : d.Sound) (auth : TpmHandle) (authValue : Tpm2bAuth) (publicInfo : NvPublic)
    (residue : Bytes) :
    Does d (.nvDefineSpace auth authValue publicInfo residue) (d.nvDefineSpace auth authValue publicInfo residue).2 := by
  unfold nvDefineSpace
  dsimp only
  split
  · exact does_nothing hs _
  · rename_i hchecks
    obtain ⟨hcounter, hpin, hfail, hunwritten⟩ := nvDefineSpaceChecks_ok hchecks
    split
    · exact does_nothing hs _
    · rename_i hany
      have hfree : ∀ e ∈ d.nv.user, e.handle ≠ publicInfo.nvIndex := by
        intro e he heq
        exact hany (List.any_eq_true.2 ⟨e, he, by simp [heq]⟩)
      split
      · exact does_nothing hs _
      · rename_i nv hdefine
        obtain rfl := nvDefineIndex_ok hdefine
        generalize hi : (⟨publicInfo, removeTrailingZeros authValue⟩ : NvIndex) = i at *
        have hindex : publicInfo = i.publicArea := by rw [← hi]
        subst hindex
        have hlen : ((residue ++ List.replicate i.publicArea.dataSize 0).take i.nvDataSize).length = i.nvDataSize := by
          rw [List.length_take, List.length_append, List.length_replicate, Nat.min_eq_left]
          unfold NvIndex.nvDataSize
          split <;> omega
        generalize hdata : (residue ++ List.replicate i.publicArea.dataSize 0).take i.nvDataSize = data at hlen ⊢
        have hcell : ∀ h', ({ d with nv := { d.nv with
            user := d.nv.user ++ [.index i data], ram := d.nv.ram ++ newRam i } } : NvDevice).cell h' =
              if h' = i.publicArea.nvIndex then some (newCell i data) else d.cell h' :=
          fun h' => cell_define hs.toLists hfree
        have hnone : d.cell i.publicArea.nvIndex = none := by
          rw [cell_none_iff, NvState.findIndex_eq, List.find?_eq_none.2]
          · rfl
          · intro e he
            simpa using hfree e he
        obtain ⟨hram, hsaved⟩ := hs.toLists.absent _ hnone
        have hnodup := nodup_append_entry (e := .index i data) hs.toLists.handles hfree
        have hramNodup := nodup_newRam hs.toLists.ramHandles hram
        have hother : ∀ h', ¬ h' = i.publicArea.nvIndex → ({ d with nv := { d.nv with
            user := d.nv.user ++ [.index i data], ram := d.nv.ram ++ newRam i } } : NvDevice).cell h' = d.cell h' := by
          intro h' hne
          rw [hcell h', if_neg hne]
        have habsent : ∀ h', ({ d with nv := { d.nv with
            user := d.nv.user ++ [.index i data], ram := d.nv.ram ++ newRam i } } : NvDevice).cell h' = none →
            findRam (d.nv.ram ++ newRam i) h' = none ∧ findRam d.savedRam h' = none := by
          intro h' hnone'
          rw [hcell h'] at hnone'
          split at hnone'
          · cases hnone'
          · rename_i hne
            rw [findRam_append, if_neg hne, Option.or_none]
            exact hs.toLists.absent h' hnone'
        have hmax : MaxKept d ({ d with nv := { d.nv with
            user := d.nv.user ++ [.index i data], ram := d.nv.ram ++ newRam i } } : NvDevice).writeListEnd :=
          ⟨Nat.le_refl _, .inr rfl⟩
        have hsound := newCell_sound hlen hcounter hpin hfail
        have hinfo : ({ newCell i data with saved := (newRam i).head? } : Cell).info.written = false := by
          rw [newCell_info]
          exact hunwritten
        cases ho : i.orderly with
        | true =>
            rw [if_pos rfl]
            refine ⟨.defined hnone ?_ hsound hinfo rfl ?_ ⟨hmax.le, hmax.saved⟩ rfl, ?_⟩
            · rw [cell_saveRam, cell_writeListEnd, hcell, if_pos rfl]
              rfl
            · exact quietBut_saveRam (quietBut_of_eq hother)
            · refine ⟨hnodup, hramNodup, hramNodup, fun h' hnone' => ?_⟩
              rw [cell_saveRam, Option.map_eq_none_iff] at hnone'
              exact ⟨(habsent h' hnone').1, (habsent h' hnone').1⟩
        | false =>
            rw [if_neg Bool.false_ne_true]
            refine ⟨.defined hnone ?_ hsound hinfo rfl ?_ hmax rfl, hnodup, hramNodup, hs.toLists.savedHandles, habsent⟩
            · rw [cell_writeListEnd, hcell, if_pos rfl, newRam_head?, ho]
              rfl
            · exact quietBut_of_eq hother

end NvDevice
end PqcTpm
