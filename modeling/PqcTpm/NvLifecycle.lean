import PqcTpm.NvEffects

/-!
# Deleting, clearing and starting

The commands that take indices away and those that end and begin a period of use. With them
every command has been shown to do one of the seven things, and an area stays sound, and saved
while it is orderly, whatever the command.
-/
namespace PqcTpm
open ByteCodec Transition

namespace NvDevice
variable {d : NvDevice} {h : TpmHandle} {c : Cell}

/-! ### Deleting -/

theorem retireCounter_max {s s' : NvState} {i : NvIndex} {data : Bytes} (hr : retireCounter s i data = .ok s') :
    s.maxCounter ≤ s'.maxCounter ∧
      (i.isCounter = true → i.written = true → ∃ v, nvGetUint64Data s i data = .ok v ∧ v ≤ s'.maxCounter) := by
  unfold retireCounter at hr
  split at hr
  · obtain ⟨v, hv, hr⟩ := bind_eq_ok hr
    cases hr
    exact ⟨Nat.le_max_left _ _, fun _ _ => ⟨v, hv, Nat.le_max_right _ _⟩⟩
  · rename_i hno
    cases hr
    refine ⟨Nat.le_refl _, fun hcounter hwritten => ?_⟩
    rw [hcounter, hwritten] at hno
    exact absurd rfl hno

theorem nvDeleteIndex_max {s s' : NvState} {k : Nat} {i : NvIndex} {data : Bytes}
    (hd : nvDeleteIndex s k i data = .ok s') :
    s.maxCounter ≤ s'.maxCounter ∧
      (i.isCounter = true → i.written = true → ∃ v, nvGetUint64Data s i data = .ok v ∧ v ≤ s'.maxCounter) := by
  unfold nvDeleteIndex at hd
  obtain ⟨t, ht, hd⟩ := bind_eq_ok hd
  obtain ⟨u, hu, hd⟩ := bind_eq_ok hd
  have hmax := retireCounter_max ht
  obtain ⟨-, rfl⟩ := nvDelete_ok hu
  split at hd
  · obtain rfl := nvDeleteRam_ok hd
    exact hmax
  · cases hd
    exact hmax

theorem nodup_eraseP {ram : List RamEntry} (hnd : (ram.map RamEntry.handle).Nodup) (p : RamEntry → Bool) :
    ((ram.eraseP p).map RamEntry.handle).Nodup :=
  hnd.sublist ((List.eraseP_sublist).map _)

theorem nodup_eraseIdx {l : List NvEntry} (hnd : (l.map NvEntry.handle).Nodup) (k : Nat) :
    ((l.eraseIdx k).map NvEntry.handle).Nodup :=
  hnd.sublist ((List.eraseIdx_sublist l k).map _)

theorem deleteIndex_does (hs : d.Sound) (hc : d.cell h = some c) {cmd : NvCommand}
    (hcmd : (∃ auth, cmd = .nvUndefineSpace auth h) ∨ cmd = .nvUndefineSpaceSpecial h) :
    Does d cmd (d.deleteIndex c.info c.data).2 := by
  have hsound := hs.cells h c hc
  obtain ⟨hfind, hram, hsaved, hhandle⟩ := cell_eq_some hc
  have hinfo : c.info.publicArea.nvIndex = h := hhandle
  unfold deleteIndex
  split
  · exact does_nothing hs _
  · rename_i retired hretired
    obtain ⟨huser, hsameRam, -⟩ := retireCounter_ok hretired
    obtain ⟨hle, -⟩ := retireCounter_max hretired
    split
    · have hcells : ∀ h', ({ d with nv := retired } : NvDevice).cell h' = d.cell h' := by
        intro h'
        unfold cell
        dsimp only
        rw [NvState.findIndex_eq, NvState.findIndex_eq, huser, hsameRam]
      refine ⟨.quiet (quietBut_of_eq fun h' _ => hcells h') ⟨hle, .inl rfl⟩ .inl, ?_, ?_, hs.toLists.savedHandles, ?_⟩
      · rw [huser]
        exact hs.toLists.handles
      · rw [hsameRam]
        exact hs.toLists.ramHandles
      · intro h' hnone
        rw [hcells] at hnone
        rw [hsameRam]
        exact hs.toLists.absent h' hnone
    · rename_i nv hdelete
      obtain ⟨-, -, huser', hram'⟩ := nvDeleteIndex_ok hdelete
      obtain ⟨hle', hvalue⟩ := nvDeleteIndex_max hdelete
      rw [hinfo] at huser' hram'
      rw [hsound.info_orderly] at hram' ⊢
      dsimp only
      obtain ⟨hentry, -⟩ := NvState.find?_of_findIndex hfind
      have hgone : ∀ h', ({ d with nv } : NvDevice).cell h' = if h' = h then none else d.cell h' := by
        intro h'
        refine cell_delete hs.toLists hentry (getElem?_findIdx hentry) huser' ?_
        cases ho : c.index.orderly with
        | true =>
            rw [ho, if_pos rfl] at hram'
            exact .inr hram'
        | false =>
            rw [ho, if_neg Bool.false_ne_true] at hram'
            exact .inl hram'
      have hother : ∀ h', ¬ h' = h → ({ d with nv } : NvDevice).cell h' = d.cell h' := by
        intro h' hne
        rw [hgone, if_neg hne]
      have hself : ({ d with nv } : NvDevice).cell h = none := by rw [hgone, if_pos rfl]
      have hcount : c.index.isCounter = true → c.info.written = true → fromBe (c.octets.take 8) ≤ nv.maxCounter := by
        intro hcounter hwritten
        obtain ⟨v, hv, hvle⟩ := hvalue (hsound.info_isCounter.trans hcounter) hwritten
        exact nvGetUint64Data_cell hsound hc hv ▸ hvle
      have hnodup : (nv.user.map NvEntry.handle).Nodup := huser' ▸ nodup_eraseIdx hs.toLists.handles _
      cases ho : c.index.orderly with
      | true =>
          rw [ho, if_pos rfl] at hram'
          have hramNodup : (nv.ram.map RamEntry.handle).Nodup := hram' ▸ nodup_eraseP hs.toLists.ramHandles _
          rw [if_pos rfl]
          refine ⟨.deleted hc hcmd ?_ hcount ?_ ⟨hle', .inr rfl⟩ rfl rfl, hnodup, hramNodup, hramNodup, ?_⟩
          · rw [cell_saveRam, cell_writeListEnd, hself]
            rfl
          · exact quietBut_saveRam (quietBut_of_eq hother)
          · intro h' hnone
            rw [cell_saveRam, Option.map_eq_none_iff, cell_writeListEnd, hgone] at hnone
            have hnone' : findRam nv.ram h' = none := by
              rw [hram', findRam_eraseP hs.toLists.ramHandles]
              split at hnone
              · rename_i hh
                exact if_pos hh
              · rename_i hh
                rw [if_neg hh]
                exact (hs.toLists.absent h' hnone).1
            exact ⟨hnone', hnone'⟩
      | false =>
          rw [ho, if_neg Bool.false_ne_true] at hram'
          rw [if_neg Bool.false_ne_true]
          have hramNodup : (nv.ram.map RamEntry.handle).Nodup := hram' ▸ hs.toLists.ramHandles
          refine ⟨.deleted hc hcmd hself hcount (quietBut_of_eq hother) ⟨hle', .inr rfl⟩ rfl rfl, hnodup, hramNodup,
            hs.toLists.savedHandles, ?_⟩
          intro h' hnone
          rw [cell_writeListEnd, hgone] at hnone
          have hgoal : findRam d.nv.ram h' = none ∧ findRam d.savedRam h' = none := by
            split at hnone
            · rename_i hh
              rw [hh, ← hram, ← hsaved]
              exact hsound.inNv ho
            · exact hs.toLists.absent h' hnone
          exact hram' ▸ hgoal

theorem nvUndefineSpace_does (hs : d.Sound) (auth : TpmHandle) :
    Does d (.nvUndefineSpace auth h) (d.nvUndefineSpace auth h).2 := by
  unfold nvUndefineSpace
  split
  · exact does_nothing hs _
  · rename_i i old hi
    obtain ⟨c, hc, rfl, rfl⟩ := index_eq_ok hi
    split
    · exact does_nothing hs _
    · split
      · exact does_nothing hs _
      · exact deleteIndex_does hs hc (.inl ⟨auth, rfl⟩)

theorem nvUndefineSpaceSpecial_does (hs : d.Sound) :
    Does d (.nvUndefineSpaceSpecial h) (d.nvUndefineSpaceSpecial h).2 := by
  unfold nvUndefineSpaceSpecial
  split
  · exact does_nothing hs _
  · rename_i i old hi
    obtain ⟨c, hc, rfl, rfl⟩ := index_eq_ok hi
    split
    · exact deleteIndex_does hs hc (.inr rfl)
    · exact does_nothing hs _

/-! ### `TPM2_Clear` -/

/-- An area from which the indices with the handles `p` have been deleted, perhaps with persistent objects. -/
structure Flushed (d : NvDevice) (p : TpmHandle → Prop) (s : NvState) : Prop where
  user : s.user.Sublist d.nv.user
  ram : s.ram.Sublist d.nv.ram
  gone : ∀ h, p h → s.findIndex h = none ∧ findRam s.ram h = none
  kept : ∀ h, ¬ p h → s.findIndex h = d.nv.findIndex h ∧ findRam s.ram h = findRam d.nv.ram h
  cells : ∀ h, p h → ∃ c, d.cell h = some c ∧ c.index.platformCreate = false ∧
    (c.index.isCounter = true → c.index.orderly = false → c.info.written = true →
      fromBe (c.octets.take 8) ≤ s.maxCounter)
  max : d.nv.maxCounter ≤ s.maxCounter

theorem Flushed.refl (d : NvDevice) : Flushed d (fun _ => False) d.nv :=
  ⟨.refl _, .refl _, fun _ hp => hp.elim, fun _ _ => ⟨rfl, rfl⟩, fun _ hp => hp.elim, Nat.le_refl _⟩

theorem find?_of_getElem? {l : List NvEntry} (hnd : (l.map NvEntry.handle).Nodup) {k : Nat} {e : NvEntry}
    (hk : l[k]? = some e) : (l.find? fun e' => e'.handle == e.handle) = some e := by
  cases hfind : l.find? fun e' => e'.handle == e.handle with
  | none =>
      rw [List.find?_eq_none] at hfind
      exact absurd (hfind e (List.mem_of_getElem? hk)) (by simp)
  | some e' =>
      have hhandle : e'.handle = e.handle := by
        have := List.find?_some hfind
        exact eq_of_beq this
      rw [List.inj_on_of_nodup_map hnd (List.mem_of_find?_eq_some hfind) (List.mem_of_getElem? hk) hhandle]

theorem Flushed.deleteIndex {p : TpmHandle → Prop} {s s' : NvState} (hs : d.Sound) (hf : Flushed d p s) {k : Nat}
    {i : NvIndex} {data : Bytes} (hk : s.user[k]? = some (.index i data)) (hplatform : i.platformCreate = false)
    (hd : nvDeleteIndex s k i data = .ok s') : Flushed d (fun h => p h ∨ h = i.publicArea.nvIndex) s' := by
  have hnodup : (s.user.map NvEntry.handle).Nodup := hs.toLists.handles.sublist (hf.user.map _)
  have hramNodup : (s.ram.map RamEntry.handle).Nodup := hs.toLists.ramHandles.sublist (hf.ram.map _)
  obtain ⟨-, -, huser, hram⟩ := nvDeleteIndex_ok hd
  obtain ⟨hle, hvalue⟩ := nvDeleteIndex_max hd
  have hfind : s.findIndex i.publicArea.nvIndex = some (i, data) := by
    have hfound : (s.user.find? fun e' => e'.handle == i.publicArea.nvIndex) = some (.index i data) :=
      find?_of_getElem? hnodup hk
    rw [NvState.findIndex_eq, hfound]
    rfl
  have hnp : ¬ p i.publicArea.nvIndex := by
    intro hp
    rw [(hf.gone _ hp).1] at hfind
    cases hfind
  have hcell : d.cell i.publicArea.nvIndex =
      some ⟨i, data, findRam d.nv.ram i.publicArea.nvIndex, findRam d.savedRam i.publicArea.nvIndex⟩ := by
    unfold cell
    rw [← (hf.kept _ hnp).1, hfind]
    rfl
  have hsound := hs.cells _ _ hcell
  have hindex : ∀ h', s'.findIndex h' = if h' = i.publicArea.nvIndex then none else s.findIndex h' :=
    findIndex_eraseIdx hnodup hk huser
  -- an index that is not orderly has nothing in RAM
  have hramAt : ∀ h', findRam s'.ram h' = if h' = i.publicArea.nvIndex then none else findRam s.ram h' := by
    intro h'
    cases ho : i.orderly with
    | true =>
        rw [ho, if_pos rfl] at hram
        rw [hram, findRam_eraseP hramNodup]
    | false =>
        rw [ho, if_neg Bool.false_ne_true] at hram
        rw [hram]
        split
        · rename_i hh
          rw [hh, (hf.kept _ hnp).2]
          exact (hsound.inNv ho).1
        · rfl
  refine ⟨?_, ?_, ?_, ?_, ?_, Nat.le_trans hf.max hle⟩
  · rw [huser]
    exact (List.eraseIdx_sublist _ _).trans hf.user
  · rw [hram]
    split
    · exact List.eraseP_sublist.trans hf.ram
    · exact hf.ram
  · intro h' hp'
    rw [hindex, hramAt]
    by_cases hh : h' = i.publicArea.nvIndex
    · rw [if_pos hh, if_pos hh]
      exact ⟨rfl, rfl⟩
    · rw [if_neg hh, if_neg hh]
      exact hf.gone h' (hp'.resolve_right hh)
  · intro h' hp'
    rw [not_or] at hp'
    rw [hindex, hramAt, if_neg hp'.2, if_neg hp'.2]
    exact hf.kept h' hp'.1
  · rintro h' (hp' | rfl)
    · obtain ⟨c, hc, hplat, hcount⟩ := hf.cells h' hp'
      exact ⟨c, hc, hplat, fun h1 h2 h3 => Nat.le_trans (hcount h1 h2 h3) hle⟩
    · refine ⟨_, hcell, hplatform, fun hcounter ho hwritten => ?_⟩
      unfold Cell.info Cell.attributes at hwritten
      unfold Cell.octets
      dsimp only at ho hwritten ⊢
      rw [ho] at hwritten ⊢
      obtain ⟨v, hv, hvle⟩ := hvalue hcounter hwritten
      unfold nvGetUint64Data at hv
      rw [ho, if_neg Bool.false_ne_true] at hv
      split at hv
      · cases hv
        exact hvle
      · cases hv

theorem Flushed.deleteEvict {p : TpmHandle → Prop} {s s' : NvState} (hs : d.Sound) (hf : Flushed d p s) {k : Nat}
    {handle : TpmHandle} {record : Bytes} (hk : s.user[k]? = some (.evict handle record))
    (hd : nvDelete s k = .ok s') : Flushed d p s' := by
  have hnodup : (s.user.map NvEntry.handle).Nodup := hs.toLists.handles.sublist (hf.user.map _)
  obtain ⟨-, rfl⟩ := nvDelete_ok hd
  have hindex : ∀ h', ({ s with user := s.user.eraseIdx k } : NvState).findIndex h' = s.findIndex h' := by
    intro h'
    rw [findIndex_eraseIdx hnodup hk rfl]
    split
    · rename_i hh
      have hfound := find?_of_getElem? hnodup hk
      rw [NvState.findIndex_eq, hh, hfound]
      rfl
    · rfl
  refine ⟨(List.eraseIdx_sublist _ _).trans hf.user, hf.ram, ?_, ?_, hf.cells, hf.max⟩
  · intro h' hp
    rw [hindex]
    exact hf.gone h' hp
  · intro h' hp
    rw [hindex]
    exact hf.kept h' hp

theorem Flushed.flushHierarchy (hs : d.Sound) {hierarchy : Hierarchy} {s s' : NvState}
    (hf : ∃ p, Flushed d p s) (hflush : nvFlushHierarchy hierarchy s = .ok s') : ∃ p, Flushed d p s' := by
  refine (flushScan hierarchy).scan_invariant (I := fun s => ∃ p, Flushed d p s) ?_ hf hflush
  rintro s k e t ⟨p, hp⟩ hk hb
  rcases flushEntry_ok hb with ⟨-, ho⟩ | ⟨i, data, t', rfl, hdel, ho, hd⟩ | ⟨handle, record, t', rfl, -, ho, hd⟩
  · cases ho
  · cases ho
    have hplatform : i.platformCreate = false := by
      unfold flushes at hdel
      simp only [Bool.and_eq_true, Bool.not_eq_true'] at hdel
      exact hdel.2
    exact ⟨_, hp.deleteIndex hs hk hplatform hd⟩
  · cases ho
    exact ⟨p, hp.deleteEvict hs hk hd⟩

theorem Flushed.cell_kept {p : TpmHandle → Prop} {s : NvState} (hf : Flushed d p s) {h : TpmHandle} (hp : ¬ p h) :
    ({ d with nv := s, orderly := false } : NvDevice).cell h = d.cell h := by
  unfold cell
  dsimp only
  rw [(hf.kept h hp).1, (hf.kept h hp).2]

theorem Flushed.cell_gone {p : TpmHandle → Prop} {s : NvState} (hf : Flushed d p s) {h : TpmHandle} (hp : p h) :
    ({ d with nv := s, orderly := false } : NvDevice).cell h = none := by
  rw [cell_none_iff]
  exact (hf.gone h hp).1

/-- The end marker and the saved copies, which are written when something has been deleted. -/
def afterFlush (d : NvDevice) (s : NvState) (listEnd save : Bool) : NvDevice :=
  let after : NvDevice := { d with nv := s, orderly := false }
  let after := if listEnd then after.writeListEnd else after
  if save then after.saveRam else after

theorem afterFlush_cell {s : NvState} {listEnd save : Bool} :
    (afterFlush d s listEnd save).cell h =
      if save then (({ d with nv := s, orderly := false } : NvDevice).cell h).map fun c => { c with saved := c.ram }
      else ({ d with nv := s, orderly := false } : NvDevice).cell h := by
  unfold afterFlush
  cases save with
  | false => cases listEnd <;> rfl
  | true =>
      simp only [if_true, cell_saveRam]
      cases listEnd <;> rfl

theorem Flushed.does {p : TpmHandle → Prop} {s : NvState} (hs : d.Sound) (hf : Flushed d p s) (disableClear : Bool)
    (listEnd save : Bool) (hend : listEnd = false → s.user = d.nv.user) (hsave : save = false → s.ram = d.nv.ram) :
    Does d (.clear disableClear) (afterFlush d s listEnd save) := by
  have hnodup : (s.user.map NvEntry.handle).Nodup := hs.toLists.handles.sublist (hf.user.map _)
  have hramNodup : (s.ram.map RamEntry.handle).Nodup := hs.toLists.ramHandles.sublist (hf.ram.map _)
  have hnv : (afterFlush d s listEnd save).nv = s := by
    unfold afterFlush
    cases listEnd <;> cases save <;> rfl
  have hmaxSaved : (afterFlush d s listEnd save).savedMaxCounter = if listEnd then s.maxCounter else d.savedMaxCounter := by
    unfold afterFlush
    cases listEnd <;> cases save <;> rfl
  have hsavedRam : (afterFlush d s listEnd save).savedRam = if save then s.ram else d.savedRam := by
    unfold afterFlush
    cases listEnd <;> cases save <;> rfl
  have horderly : (afterFlush d s listEnd save).orderly = false := by
    unfold afterFlush
    cases listEnd <;> cases save <;> rfl
  have hgone : ∀ h, p h → (afterFlush d s listEnd save).cell h = none := by
    intro h hp
    rw [afterFlush_cell, hf.cell_gone hp]
    cases save <;> rfl
  have hquiet : QuietBut d (afterFlush d s listEnd save) p := by
    have hraw : QuietBut d { d with nv := s, orderly := false } p := quietBut_of_eq fun h hp => hf.cell_kept hp
    intro h hp
    rw [afterFlush_cell]
    cases save with
    | false => exact hraw h hp
    | true =>
        have hsaved := quietBut_saveRam hraw h hp
        rw [cell_saveRam] at hsaved
        exact hsaved
  refine ⟨.cleared (p := p) ?_ hquiet ⟨?_, ?_⟩ ?_ horderly, ?_, ?_, ?_, ?_⟩
  · intro h hp
    obtain ⟨c, hc, hplatform, hcount⟩ := hf.cells h hp
    refine ⟨c, hc, hgone h hp, hplatform, ?_⟩
    rw [hnv]
    exact hcount
  · rw [hnv]
    exact hf.max
  · rw [hmaxSaved, hnv]
    cases listEnd
    · exact .inl rfl
    · exact .inr rfl
  · rintro ⟨h, hp⟩
    rw [hmaxSaved, hnv]
    cases hl : listEnd with
    | true => rfl
    | false =>
        -- with an index gone the list is another one
        obtain ⟨c, hc, -⟩ := hf.cells h hp
        have hnone := (hf.gone h hp).1
        rw [NvState.findIndex_eq, hend hl, ← NvState.findIndex_eq, ← cell_none_iff, hc] at hnone
        cases hnone
  · rw [hnv]
    exact hnodup
  · rw [hnv]
    exact hramNodup
  · rw [hsavedRam]
    cases save
    · exact hs.toLists.savedHandles
    · exact hramNodup
  · intro h hnone
    rw [hnv, hsavedRam]
    rw [afterFlush_cell] at hnone
    have hraw : ({ d with nv := s, orderly := false } : NvDevice).cell h = none := by
      cases save with
      | false => exact hnone
      | true => exact Option.map_eq_none_iff.1 hnone
    by_cases hp : p h
    · refine ⟨(hf.gone h hp).2, ?_⟩
      cases hsv : save with
      | true => exact (hf.gone h hp).2
      | false =>
          -- nothing was in RAM, so the index was not orderly
          obtain ⟨c, hc, -⟩ := hf.cells h hp
          obtain ⟨-, hram, hsaved, -⟩ := cell_eq_some hc
          have hnoRam : c.ram = none := by
            rw [hram, ← hsave hsv]
            exact (hf.gone h hp).2
          have hsound := hs.cells h c hc
          have ho : c.index.orderly = false := by
            cases ho : c.index.orderly with
            | false => rfl
            | true =>
                obtain ⟨⟨r, hr, -⟩, -⟩ := hsound.orderly ho
                rw [hnoRam] at hr
                cases hr
          rw [if_neg Bool.false_ne_true, ← hsaved]
          exact (hsound.inNv ho).2
    · rw [hf.cell_kept hp] at hraw
      obtain ⟨hram, hsaved⟩ := hs.toLists.absent h hraw
      rw [(hf.kept h hp).2]
      refine ⟨hram, ?_⟩
      cases save with
      | true => exact (hf.kept h hp).2.trans hram
      | false => exact hsaved

theorem clear_does (hs : d.Sound) (disableClear : Bool) : Does d (.clear disableClear) (d.clear disableClear).2 := by
  unfold clear
  split
  · exact does_nothing hs _
  · split
    · exact does_nothing hs _
    · split
      · exact does_nothing hs _
      · rename_i nv hflush
        obtain ⟨mid, howner, hendorsement⟩ := bind_eq_ok hflush
        obtain ⟨p, hp⟩ := Flushed.flushHierarchy hs (Flushed.flushHierarchy hs ⟨_, .refl d⟩ howner) hendorsement
        have hdoes := hp.does hs disableClear (!decide (nv.user.length = d.nv.user.length))
          (!decide (nv.ram.length = d.nv.ram.length)) (fun hl => hp.user.eq_of_length (by simpa using hl))
          fun hl => hp.ram.eq_of_length (by simpa using hl)
        unfold afterFlush at hdoes
        simpa using hdoes

/-! ### Shutdown, startup and persistent objects -/

theorem shutdown_does (hs : d.Sound) (shutdownType : ShutdownType) :
    Does d (.shutdown shutdownType) (d.shutdown shutdownType).2 := by
  unfold shutdown
  split
  · exact does_nothing hs _
  · have hquiet : QuietBut d d.saveRam fun _ => False := quietBut_saveRam (quietBut_of_eq fun _ _ => rfl)
    refine ⟨.quiet hquiet ⟨Nat.le_refl _, .inl rfl⟩ fun _ => .inr ?_, hs.toLists.saveRam.flags true shutdownType _ _ _ _⟩
    intro h c' hc'
    have hsaved : d.saveRam.cell h = some c' := hc'
    rw [cell_saveRam] at hsaved
    obtain ⟨c, -, rfl⟩ := Option.map_eq_some_iff.1 hsaved
    exact Cell.rel_refl c.ram

/-- The part of `NvEntityStartup` that takes the saved copies. -/
def restored (d : NvDevice) : NvDevice := { d with nv := { d.nv with ram := d.savedRam, maxCounter := d.savedMaxCounter } }

theorem restored_cell : d.restored.cell h = (d.cell h).map fun c => { c with ram := c.saved } := by
  unfold cell
  have hsame : d.restored.nv.findIndex h = d.nv.findIndex h := rfl
  rw [hsame]
  cases d.nv.findIndex h <;> rfl

theorem Lists.restored (hs : d.Lists) : d.restored.Lists := by
  refine hs.rewrite rfl (.inr rfl) (.inl rfl) fun h' hnone => ?_
  rw [restored_cell] at hnone
  exact Option.map_eq_none_iff.1 hnone

theorem mapFill_cell : ({ d with nv := { d.nv with ram := d.nv.ram.map fillCounter } } : NvDevice).cell h =
    (d.cell h).map fun c => { c with ram := c.ram.map fillCounter } := by
  have hhandle : ∀ r, (fillCounter r).handle = r.handle := by
    intro r
    unfold fillCounter
    split <;> rfl
  unfold cell
  dsimp only
  rw [findRam_map hhandle]
  have hsame : ({ d.nv with ram := d.nv.ram.map fillCounter } : NvState).findIndex h = d.nv.findIndex h := rfl
  rw [hsame]
  cases d.nv.findIndex h <;> rfl

theorem Lists.mapFill (hs : d.Lists) : ({ d with nv := { d.nv with ram := d.nv.ram.map fillCounter } } : NvDevice).Lists := by
  refine hs.rewrite rfl (.inl ?_) (.inl rfl) fun h' hnone => ?_
  · rw [List.map_map]
    refine List.map_congr_left fun r _ => ?_
    simp only [Function.comp_apply]
    unfold fillCounter
    split <;> rfl
  · rw [mapFill_cell] at hnone
    exact Option.map_eq_none_iff.1 hnone

theorem nvEntityStartup_cell (startup : StartupKind) :
    (d.nvEntityStartup startup).cell h = (d.cell h).map (Cell.start startup d.orderly) := by
  have hstart : ∀ f : UInt32 → UInt32,
      (if d.orderly then d.restored.mapAttributes f f
        else { d.restored.mapAttributes f f with
          nv := { (d.restored.mapAttributes f f).nv with ram := (d.restored.mapAttributes f f).nv.ram.map fillCounter } }).cell h =
      (d.cell h).map fun c =>
        { c with
          index := if c.index.orderly then c.index else c.index.withAttributes (f c.index.publicArea.attributes)
          ram := c.saved.map fun r =>
            let r := { r with attributes := f r.attributes }
            if d.orderly then r else fillCounter r } := by
    intro f
    cases d.orderly with
    | true =>
        rw [if_pos rfl, cell_mapAttributes, restored_cell]
        cases d.cell h <;> rfl
    | false =>
        rw [if_neg Bool.false_ne_true, mapFill_cell, cell_mapAttributes, restored_cell]
        cases d.cell h with
        | none => rfl
        | some c =>
            simp only [Option.map_some, Option.map_map]
            rfl
  cases startup with
  | resume => exact restored_cell
  | reset => exact hstart (setStartupAttributes .reset)
  | restart => exact hstart (setStartupAttributes .restart)

theorem Lists.nvEntityStartup (hs : d.Lists) (startup : StartupKind) : (d.nvEntityStartup startup).Lists := by
  have hstart : ∀ f : UInt32 → UInt32,
      (if d.orderly then d.restored.mapAttributes f f
        else { d.restored.mapAttributes f f with
          nv := { (d.restored.mapAttributes f f).nv with
            ram := (d.restored.mapAttributes f f).nv.ram.map fillCounter } }).Lists := by
    intro f
    have hmapped := hs.restored.mapAttributes f f
    split
    · exact hmapped
    · exact hmapped.mapFill
  cases startup with
  | resume => exact hs.restored
  | reset => exact hstart (setStartupAttributes .reset)
  | restart => exact hstart (setStartupAttributes .restart)

theorem nvEntityStartup_max (startup : StartupKind) :
    (d.nvEntityStartup startup).nv.maxCounter = d.savedMaxCounter ∧
      (d.nvEntityStartup startup).savedMaxCounter = d.savedMaxCounter := by
  unfold nvEntityStartup
  cases startup with
  | resume => exact ⟨rfl, rfl⟩
  | reset =>
      dsimp only
      split <;> exact ⟨rfl, rfl⟩
  | restart =>
      dsimp only
      split <;> exact ⟨rfl, rfl⟩

theorem startup_does (hs : d.Sound) (toState : Bool) : Does d (.startup toState) (d.startup toState).2 := by
  unfold startup
  split
  · exact does_nothing hs _
  · dsimp only
    split
    · exact does_nothing hs _
    · rename_i hallowed
      refine ⟨.started (if toState then .resume else if d.orderly && d.shutdownType == .state then .restart else .reset)
        ?_ (fun h => nvEntityStartup_cell _) (nvEntityStartup_max _).1 (nvEntityStartup_max _).2 rfl,
        (hs.toLists.nvEntityStartup _).flags false _ _ _ _ _⟩
      intro hkind
      by_contra hdisorderly
      simp only [Bool.not_eq_true] at hdisorderly
      rw [hdisorderly] at hkind hallowed
      cases toState with
      | true => exact hallowed rfl
      | false => exact hkind rfl

theorem cell_addEvict {handle : TpmHandle} (h : TpmHandle) (record : Bytes) (hfree : ∀ e ∈ d.nv.user, e.handle ≠ handle) :
    ({ d with nv := { d.nv with user := d.nv.user ++ [.evict handle record] } } : NvDevice).cell h = d.cell h := by
  unfold cell
  dsimp only
  have hfind : ({ d.nv with user := d.nv.user ++ [.evict handle record] } : NvState).findIndex h =
      if h = handle then none else d.nv.findIndex h :=
    findIndex_append (e := .evict handle record) rfl hfree h
  rw [hfind]
  split
  · rename_i hh
    rw [NvState.findIndex_eq d.nv, hh, List.find?_eq_none.2]
    · rfl
    · intro e he hbeq
      exact hfree e he (eq_of_beq hbeq)
  · rfl

theorem cell_deleteEvict (h' : TpmHandle) (hs : d.Lists) {e : NvEntry}
    (hfound : (d.nv.user.find? fun e => e.handle == h) = some e) (hevict : e.isEvict = true) :
    ({ d with nv := { d.nv with
        user := d.nv.user.eraseIdx (d.nv.user.findIdx fun e => e.handle == h) } } : NvDevice).cell h' = d.cell h' := by
  have hhandle : e.handle = h := by
    have := List.find?_some hfound
    exact eq_of_beq this
  unfold cell
  dsimp only
  rw [findIndex_eraseIdx hs.handles (getElem?_findIdx hfound) rfl h', hhandle]
  split
  · rename_i hh
    rw [NvState.findIndex_eq d.nv, hh, hfound]
    cases e with
    | index _ _ => cases hevict
    | evict _ _ => rfl
  · rfl

theorem addEvict_does {σ : Type} (hs : d.Sound) (codec : HashStateCodec σ) (L : RawLayout) (level : Nat)
    (handle : TpmHandle) (o : Object) (cmd : NvCommand) : Does d cmd (d.addEvict codec L level handle o).2 := by
  unfold addEvict
  split
  · exact does_nothing hs _
  · rename_i hany
    have hfree : ∀ e ∈ d.nv.user, e.handle ≠ handle := by
      intro e he heq
      exact hany (List.any_eq_true.2 ⟨e, he, by simp [heq]⟩)
    split
    · exact does_nothing hs _
    · rename_i nv hadd
      unfold nvAddEvictObject at hadd
      dsimp only at hadd
      split at hadd
      · obtain ⟨-, rfl⟩ := nvAdd_ok hadd
        generalize nvObjectToBuffer codec L level (o.evicted handle) = record
        have hcells := fun h => cell_addEvict h record hfree
        refine ⟨.quiet (quietBut_of_eq fun h _ => hcells h) ⟨Nat.le_refl _, .inr rfl⟩ .inl,
          nodup_append_entry hs.toLists.handles hfree, hs.toLists.ramHandles, hs.toLists.savedHandles, ?_⟩
        intro h hnone
        exact hs.toLists.absent h ((hcells h).symm.trans hnone)
      · cases hadd

theorem deleteEvict_does (hs : d.Sound) (handle : TpmHandle) (cmd : NvCommand) :
    Does d cmd (d.deleteEvict handle).2 := by
  unfold deleteEvict
  split
  · rename_i hany
    split
    · exact does_nothing hs _
    · rename_i nv hdelete
      obtain ⟨-, rfl⟩ := nvDelete_ok hdelete
      obtain ⟨e, he, hevict⟩ := List.any_eq_true.1 hany
      rw [Bool.and_eq_true, beq_iff_eq] at hevict
      obtain ⟨k, hk⟩ := List.mem_iff_getElem?.1 he
      have hfound := find?_of_getElem? hs.toLists.handles hk
      rw [hevict.1] at hfound
      have hcells := fun h' => cell_deleteEvict h' hs.toLists hfound hevict.2
      refine ⟨.quiet (quietBut_of_eq fun h _ => hcells h) ⟨Nat.le_refl _, .inr rfl⟩ .inl,
        nodup_eraseIdx hs.toLists.handles _, hs.toLists.ramHandles, hs.toLists.savedHandles, ?_⟩
      intro h hnone
      exact hs.toLists.absent h ((hcells h).symm.trans hnone)
  · exact does_nothing hs _

/-- Every command does one of the seven things. -/
theorem act_does {σ : Type} (hs : d.Sound) (codec : HashStateCodec σ) (L : RawLayout) (H : PolicyHash)
    (cmd : NvCommand) : Does d cmd (cmd.act codec L H d).2 := by
  cases cmd with
  | nvDefineSpace auth authValue publicInfo residue => exact nvDefineSpace_does hs auth authValue publicInfo residue
  | nvUndefineSpace auth h => exact nvUndefineSpace_does hs auth
  | nvUndefineSpaceSpecial h => exact nvUndefineSpaceSpecial_does hs
  | clear disableClear => exact clear_does hs disableClear
  | nvWrite auth h offset data => exact nvWrite_does hs auth offset data
  | nvIncrement auth h => exact nvIncrement_does hs auth
  | nvSetBits auth h bits => exact nvSetBits_does hs auth bits
  | nvExtend auth h data => exact nvExtend_does hs H auth data
  | nvWriteLock auth h => exact nvWriteLock_does hs auth
  | nvReadLock auth h => exact nvReadLock_does hs auth
  | nvGlobalWriteLock => exact nvGlobalWriteLock_does hs
  | nvChangeAuth h newAuth => exact nvChangeAuth_does hs newAuth
  | addEvict level handle o _ _ => exact addEvict_does hs codec L level handle o _
  | deleteEvict handle => exact deleteEvict_does hs handle _
  | shutdown shutdownType => exact shutdown_does hs shutdownType
  | startup toState => exact startup_does hs toState
  | status nvStatus =>
      exact does_quiet (quietBut_of_eq fun _ _ => rfl) rfl rfl rfl (hs.toLists.flags _ _ _ _ _ nvStatus)
  | phEnableNv state =>
      exact does_quiet (quietBut_of_eq fun _ _ => rfl) rfl rfl rfl (hs.toLists.flags _ _ _ state _ _)

end NvDevice

/-! ## What every command keeps -/

theorem length_splice {old new : Bytes} {offset : Nat} (hlen : offset + new.length ≤ old.length) :
    (splice old offset new).length = old.length := by
  unfold splice
  simp only [List.length_append, List.length_take, List.length_drop]
  omega

namespace Cell
variable {c : Cell}

theorem Sound.octets_length (hc : c.Sound) : c.octets.length = c.index.publicArea.dataSize := by
  unfold octets
  cases ho : c.index.orderly with
  | true =>
      obtain ⟨⟨r, hr, hcopy⟩, -⟩ := hc.orderly ho
      rw [hr]
      exact hcopy.length
  | false =>
      have hlength := hc.length
      unfold NvIndex.nvDataSize at hlength
      rw [ho] at hlength
      exact hlength

theorem kind_written (a : UInt32) : TpmaNv.kind (TpmaNv.set a 29) = TpmaNv.kind a := TpmaNv.kind_set (by decide)

theorem Sound.write (hc : c.Sound) {offset : Nat} {new : Bytes} (save : Bool)
    (hlen : offset + new.length ≤ c.index.publicArea.dataSize) : (c.write offset new save).Sound := by
  unfold Cell.write
  cases ho : c.index.orderly with
  | true =>
      rw [if_pos rfl]
      have hattributes : ∀ r, c.ram = some r → c.attributes = r.attributes := by
        intro r hr
        unfold attributes
        rw [ho, hr]
      have hram := hc.mapRam (f := NvDevice.writeRam c offset new) (fun r hr => ?_) (fun r hr => ?_)
      · cases save with
        | false => exact hram
        | true => exact hram.save
      · unfold NvDevice.writeRam
        dsimp only
        split
        · rfl
        · rw [kind_written, hattributes r hr]
      · obtain ⟨⟨r', hr', hcopy⟩, -⟩ := hc.orderly ho
        rw [hr] at hr'
        cases hr'
        unfold NvDevice.writeRam
        dsimp only
        rw [length_splice]
        · split
          · exact List.length_replicate
          · rfl
        · split
          · rw [List.length_replicate, hcopy.length]
            exact hlen
          · rw [hcopy.length]
            exact hlen
  | false =>
      rw [if_neg Bool.false_ne_true]
      have hattributes : c.attributes = c.index.publicArea.attributes := by
        unfold attributes
        rw [ho]
      have hsize : c.data.length = c.index.publicArea.dataSize := by
        have hlength := hc.length
        unfold NvIndex.nvDataSize at hlength
        rw [ho] at hlength
        exact hlength
      have hdata : ∀ old : Bytes, old.length = c.data.length → (splice old offset new).length = c.data.length := by
        intro old hold
        rw [length_splice, hold]
        rw [hold, hsize]
        exact hlen
      have hindex : (if c.info.written then c.index else c.index.withAttributes (TpmaNv.set c.attributes 29)) =
          c.index.withAttributes (if c.info.written then c.index.publicArea.attributes else TpmaNv.set c.attributes 29) := by
        split <;> rfl
      dsimp only
      rw [hindex]
      refine Sound.withData (hc.withAttributes ?_) (hdata _ ?_)
      · split
        · rfl
        · rw [kind_written, hattributes]
      · split
        · exact List.length_replicate
        · rfl

theorem kind_startup (startup : StartupKind) (a : UInt32) :
    TpmaNv.kind (NvDevice.setStartupAttributes startup a) = TpmaNv.kind a := by
  have hread : TpmaNv.kind (TpmaNv.clear a 28) = TpmaNv.kind a := TpmaNv.kind_clear (by decide)
  have hwritten : ∀ b, TpmaNv.kind (TpmaNv.clear b 29) = TpmaNv.kind b := fun b => TpmaNv.kind_clear (by decide)
  have hwrite : ∀ b, TpmaNv.kind (TpmaNv.clear b 11) = TpmaNv.kind b := fun b => TpmaNv.kind_clear (by decide)
  unfold NvDevice.setStartupAttributes
  dsimp only
  split <;> split <;> simp only [hread, hwritten, hwrite]

theorem length_fillCounter {r : RamEntry} (hlen : r.attributes.toNat / 16 % 16 = 1 → 8 ≤ r.data.length) :
    (NvDevice.fillCounter r).data.length = r.data.length := by
  unfold NvDevice.fillCounter
  split
  · rename_i hnt
    have := hlen hnt
    simp only [List.length_append, be_length, List.length_drop]
    omega
  · rfl

theorem attributes_fillCounter (r : RamEntry) : (NvDevice.fillCounter r).attributes = r.attributes := by
  unfold NvDevice.fillCounter
  split <;> rfl

theorem Sound.start (hc : c.Sound) (startup : StartupKind) (orderly : Bool) : (c.start startup orderly).Sound := by
  have hstart : ∀ f : UInt32 → UInt32, (∀ a, TpmaNv.kind (f a) = TpmaNv.kind a) →
      ({ c with
        index := if c.index.orderly then c.index else c.index.withAttributes (f c.index.publicArea.attributes)
        ram := c.saved.map fun r =>
          let r := { r with attributes := f r.attributes }
          if orderly then r else NvDevice.fillCounter r } : Cell).Sound := by
    intro f hf
    have hindex : (if c.index.orderly then c.index else c.index.withAttributes (f c.index.publicArea.attributes)) =
        c.index.withAttributes (if c.index.orderly then c.index.publicArea.attributes else f c.index.publicArea.attributes) := by
      split <;> rfl
    rw [hindex]
    refine Sound.withAttributes (c := { c with ram := c.saved.map fun r => _ }) ?_ ?_
    · refine hc.restore.mapRam (fun r _ => ?_) fun r hr => ?_
      · split
        · exact hf r.attributes
        · rw [attributes_fillCounter]
          exact hf r.attributes
      · split
        · rfl
        · refine length_fillCounter fun hnt => ?_
          dsimp only at hnt ⊢
          have ho : c.index.orderly = true := by
            cases ho : c.index.orderly with
            | true => rfl
            | false =>
                have hr' : c.saved = some r := hr
                rw [(hc.inNv ho).2] at hr'
                cases hr'
          obtain ⟨-, r', hr', hcopy⟩ := hc.orderly ho
          have hr'' : c.saved = some r := hr
          rw [hr''] at hr'
          cases hr'
          have hcounter : c.index.isCounter = true := by
            rw [NvIndex.isCounter_eq, beq_iff_eq]
            exact (TpmaNv.nt_of_kind ((hf r.attributes).trans hcopy.kind)).symm.trans hnt
          rw [hcopy.length, hc.counter hcounter]
    · dsimp only
      split
      · rfl
      · exact hf _
  cases startup with
  | resume => exact hc.restore
  | reset => exact hstart _ (kind_startup .reset)
  | restart => exact hstart _ (kind_startup .restart)

end Cell

namespace NvDevice
variable {d d' : NvDevice} {h : TpmHandle} {c : Cell}

theorem quietBut_sound {p : TpmHandle → Prop} (hs : d.Sound) (hq : QuietBut d d' p) {h : TpmHandle} {c' : Cell}
    (hp : ¬ p h) (hc' : d'.cell h = some c') : c'.Sound := by
  rcases hq h hp with ⟨-, hnone⟩ | ⟨c, c'', hc, hc'', hquiet⟩
  · rw [hnone] at hc'
    cases hc'
  · rw [hc''] at hc'
    cases hc'
    exact hquiet.sound (hs.cells h c hc)

theorem effect_sound {cmd : NvCommand} (hs : d.Sound) (he : NvEffect d cmd d') (h : TpmHandle) (c' : Cell)
    (hc' : d'.cell h = some c') : c'.Sound := by
  cases he with
  | quiet hq _ _ => exact quietBut_sound hs hq id hc'
  | @wrote _ _ h₀ c _ _ hcell hlen _ hcell' hq _ _ =>
      by_cases hh : h = h₀
      · subst hh
        rw [hcell'] at hc'
        cases hc'
        exact (hs.cells h c hcell).write false hlen
      · exact quietBut_sound hs hq hh hc'
  | @counted _ _ h₀ c count hcell hcounter _ hcell' hq _ _ =>
      by_cases hh : h = h₀
      · subst hh
        rw [hcell'] at hc'
        cases hc'
        refine (hs.cells h c hcell).write _ ?_
        rw [be_length, (hs.cells h c hcell).counter hcounter]
      · exact quietBut_sound hs hq hh hc'
  | @defined _ _ _ publicInfo _ c _ hcell hsound _ _ hq _ _ =>
      by_cases hh : h = publicInfo.nvIndex
      · subst hh
        rw [hcell] at hc'
        cases hc'
        exact hsound
      · exact quietBut_sound hs hq hh hc'
  | @deleted _ _ h₀ c _ _ hcell' _ hq _ _ _ =>
      by_cases hh : h = h₀
      · subst hh
        rw [hcell'] at hc'
        cases hc'
      · exact quietBut_sound hs hq hh hc'
  | @cleared _ _ p hcells hq _ _ _ =>
      by_cases hp : p h
      · obtain ⟨c, -, hnone, -⟩ := hcells h hp
        rw [hnone] at hc'
        cases hc'
      · exact quietBut_sound hs hq hp hc'
  | started kind _ hcells _ _ _ =>
      rw [hcells] at hc'
      obtain ⟨c, hc, rfl⟩ := Option.map_eq_some_iff.1 hc'
      exact (hs.cells h c hc).start kind d.orderly

theorem act_sound {σ : Type} (hs : d.Sound) (codec : HashStateCodec σ) (L : RawLayout) (H : PolicyHash)
    (cmd : NvCommand) : (cmd.act codec L H d).2.Sound := by
  obtain ⟨heffect, hlists⟩ := act_does hs codec L H cmd
  exact ⟨hlists, fun h c hc => effect_sound hs heffect h c hc⟩

/-- An orderly area has its orderly data saved. -/
def Synced (d : NvDevice) : Prop := d.orderly = true → SavedAll d

end NvDevice

theorem SameContents.symm {r r' : RamEntry} (hs : SameContents r r') : SameContents r' r :=
  ⟨hs.data.symm, hs.kind.symm, hs.written.symm⟩

theorem SameContents.trans {r r' r'' : RamEntry} (hs : SameContents r r') (hs' : SameContents r' r'') :
    SameContents r r'' :=
  ⟨hs'.data.trans hs.data, hs'.kind.trans hs.kind, hs'.written.trans hs.written⟩

theorem rel_symm {x y : Option RamEntry} (hxy : Option.Rel SameContents x y) : Option.Rel SameContents y x := by
  cases hxy with
  | none => exact .none
  | some hs => exact .some hs.symm

theorem rel_trans {x y z : Option RamEntry} (hxy : Option.Rel SameContents x y) (hyz : Option.Rel SameContents y z) :
    Option.Rel SameContents x z := by
  cases hxy with
  | none => exact hyz
  | some hs =>
      cases hyz with
      | some hs' => exact .some (hs.trans hs')

theorem Cell.Quiet.synced {c c' : Cell} (hq : c.Quiet c') (hc : Option.Rel SameContents c.ram c.saved) :
    Option.Rel SameContents c'.ram c'.saved := by
  rcases hq.saved with hsaved | hsaved
  · exact rel_trans (rel_symm hq.ram) (rel_trans hc hsaved)
  · exact rel_trans (rel_symm hq.ram) hsaved

namespace NvDevice
variable {d d' : NvDevice} {h : TpmHandle} {c : Cell}

theorem quietBut_synced {p : TpmHandle → Prop} (hs : SavedAll d) (hq : QuietBut d d' p) {h : TpmHandle} {c' : Cell}
    (hp : ¬ p h) (hc' : d'.cell h = some c') : Option.Rel SameContents c'.ram c'.saved := by
  rcases hq h hp with ⟨-, hnone⟩ | ⟨c, c'', hc, hc'', hquiet⟩
  · rw [hnone] at hc'
    cases hc'
  · rw [hc''] at hc'
    cases hc'
    exact hquiet.synced (hs h c hc)

theorem synced_inNv {c' : Cell} (hs : c'.Sound) (ho : c'.index.orderly = false) :
    Option.Rel SameContents c'.ram c'.saved := by
  obtain ⟨hram, hsaved⟩ := hs.inNv ho
  rw [hram, hsaved]
  exact .none

theorem orderly_write (offset : Nat) (new : Bytes) (save : Bool) (hs : c.Sound) :
    (c.write offset new save).index.orderly = c.index.orderly := by
  unfold Cell.write
  split
  · rfl
  · dsimp only
    split
    · rfl
    · refine NvIndex.orderly_withAttributes ?_
      rw [Cell.kind_written]
      exact hs.kind_attributes

theorem effect_synced {cmd : NvCommand} (hs : d.Sound) (hsync : d.Synced) (he : NvEffect d cmd d') : d'.Synced := by
  have hsound := effect_sound hs he
  intro ho' h c' hc'
  -- an index that was written while the area stays orderly is one that lies in NV
  have hwritten : ∀ {h₀ : TpmHandle} {c : Cell} {offset : Nat} {new : Bytes} {save : Bool}, d.cell h₀ = some c →
      d'.cell h₀ = some (c.write offset new save) → QuietBut d d' (fun h' => h' = h₀) →
      d'.orderly = (d.orderly && !c.index.orderly) → Option.Rel SameContents c'.ram c'.saved := by
    intro h₀ c offset new save hcell hcell' hq horderly
    rw [ho'] at horderly
    simp only [Bool.true_eq, Bool.and_eq_true, Bool.not_eq_true'] at horderly
    by_cases hh : h = h₀
    · subst hh
      refine synced_inNv (hsound h c' hc') ?_
      rw [hcell'] at hc'
      cases hc'
      rw [orderly_write _ _ _ (hs.cells h c hcell)]
      exact horderly.2
    · exact quietBut_synced (hsync horderly.1) hq hh hc'
  cases he with
  | quiet hq _ horderly =>
      rcases horderly ho' with ho | hall
      · exact quietBut_synced (hsync ho) hq id hc'
      · exact hall h c' hc'
  | wrote hcell _ _ hcell' hq _ horderly => exact hwritten hcell hcell' hq horderly
  | counted hcell _ _ hcell' hq _ horderly => exact hwritten hcell hcell' hq horderly
  | @defined _ _ _ publicInfo _ c _ hcell _ _ hsaved hq _ horderly =>
      by_cases hh : h = publicInfo.nvIndex
      · subst hh
        rw [hcell] at hc'
        cases hc'
        rw [hsaved]
        exact Cell.rel_refl _
      · exact quietBut_synced (hsync (horderly ▸ ho')) hq hh hc'
  | @deleted _ _ h₀ c _ _ hcell' _ hq _ _ horderly =>
      by_cases hh : h = h₀
      · subst hh
        rw [hcell'] at hc'
        cases hc'
      · exact quietBut_synced (hsync (horderly ▸ ho')) hq hh hc'
  | cleared _ _ _ _ horderly =>
      rw [horderly] at ho'
      cases ho'
  | started _ _ _ _ _ horderly =>
      rw [horderly] at ho'
      cases ho'

/-- An area in which nothing is defined. -/
def Empty (d : NvDevice) : Prop := d.nv.user = [] ∧ d.nv.ram = [] ∧ d.savedRam = []

theorem Empty.cell (he : d.Empty) (h : TpmHandle) : d.cell h = none := by
  rw [cell_none_iff, NvState.findIndex_eq, he.1]
  rfl

theorem Empty.sound (he : d.Empty) : d.Sound := by
  refine ⟨⟨?_, ?_, ?_, fun h _ => ⟨?_, ?_⟩⟩, fun h c hc => ?_⟩
  · rw [he.1]
    exact List.nodup_nil
  · rw [he.2.1]
    exact List.nodup_nil
  · rw [he.2.2]
    exact List.nodup_nil
  · rw [he.2.1]
    rfl
  · rw [he.2.2]
    rfl
  · rw [he.cell] at hc
    cases hc

theorem Empty.synced (he : d.Empty) : d.Synced := by
  intro _ h c hc
  rw [he.cell] at hc
  cases hc

/-- The NV of a TPM that was made empty and has run any commands is sound. -/
theorem sound_of_reachable {τ : Type} {codec : HashStateCodec τ} {L : RawLayout} {d : NvDevice}
    (h : Reachable Empty (fun d d' => ∃ cmd : NvCommand, d' = (cmd.act codec L H d).2) d) : d.Sound := by
  refine h.invariant (fun d hd => hd.sound) ?_
  rintro d _ hd ⟨cmd, rfl⟩
  exact act_sound hd codec L H cmd

end NvDevice
end PqcTpm
