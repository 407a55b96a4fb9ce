import PqcTpm.NvCounters

/-!
# Locked indices

A lock is a bit of the attributes, which lie in NV or in RAM. Commands only ever set attributes; a
start rewrites them and gives an orderly index those that were saved.
-/
namespace PqcTpm
open ByteCodec Transition

namespace TpmaNv

/-- What is set in `a` is set in `b`. -/
def Grows (a b : UInt32) : Prop := ∀ bit, a.toNat.testBit bit = true → b.toNat.testBit bit = true

theorem Grows.refl (a : UInt32) : Grows a a := fun _ => id

theorem grows_set (a : UInt32) {bit : Nat} (hbit : bit < 32) : Grows a (set a bit) := by
  intro j hj
  rw [testBit_set a bit j hbit, hj, Bool.true_or]

theorem grows_globally (a : UInt32) : Grows a (NvDevice.lockGlobally a) := by
  unfold NvDevice.lockGlobally
  split
  · exact grows_set a (by decide)
  · exact .refl a

end TpmaNv

/-! ## Attributes are only set -/

/-- What a command that is no start leaves of an index. -/
structure Cell.Grown (c c' : Cell) : Prop where
  kind : TpmaNv.kind c'.index.publicArea.attributes = TpmaNv.kind c.index.publicArea.attributes
  attributes : TpmaNv.Grows c.attributes c'.attributes
  saved : c'.saved = c.saved ∨ c'.saved = c'.ram

namespace Cell

theorem Grown.refl (c : Cell) : c.Grown c := ⟨rfl, .refl _, .inl rfl⟩

/-- `TPM2_NV_DefineSpace` lets no index have both `CLEAR_STCLEAR` and `WRITEDEFINE`. -/
def Definable (c : Cell) : Prop := ¬ (c.index.isAttribute 27 = true ∧ c.index.isAttribute 13 = true)

theorem definable_of_kind {c c' : Cell}
    (hkind : TpmaNv.kind c'.index.publicArea.attributes = TpmaNv.kind c.index.publicArea.attributes)
    (hc : c.Definable) : c'.Definable := by
  rintro ⟨hclear, hdefine⟩
  refine hc ⟨?_, ?_⟩
  · exact (TpmaNv.testBit_of_kind hkind (by decide)).symm.trans hclear
  · exact (TpmaNv.testBit_of_kind hkind (by decide)).symm.trans hdefine

theorem grown_of {c c' : Cell}
    (hkind : TpmaNv.kind c'.index.publicArea.attributes = TpmaNv.kind c.index.publicArea.attributes)
    (hindex : TpmaNv.Grows c.index.publicArea.attributes c'.index.publicArea.attributes)
    {f : RamEntry → RamEntry} (hram : c'.ram = c.ram.map f)
    (hf : ∀ r, c.index.orderly = true → c.ram = some r → TpmaNv.Grows r.attributes (f r).attributes)
    (hsaved : c'.saved = c.saved) : c.Grown c' := by
  refine ⟨hkind, ?_, .inl hsaved⟩
  have horderly : c'.index.orderly = c.index.orderly := TpmaNv.testBit_of_kind hkind (by decide)
  unfold attributes
  rw [horderly, hram]
  cases ho : c.index.orderly with
  | false => exact hindex
  | true =>
      cases hr : c.ram with
      | none => exact hindex
      | some r => exact hf r ho hr

end Cell

/-- Every index of `d'` has grown out of the one in `d`, or is new. -/
def NvDevice.Grown (d d' : NvDevice) : Prop :=
  ∀ h c', d'.cell h = some c' → (∃ c, d.cell h = some c ∧ c.Grown c') ∨ (d.cell h = none ∧ c'.Definable)

namespace NvDevice
variable {d d' : NvDevice} {h : TpmHandle} {c : Cell}

theorem grown_of_eq (hcell : ∀ h c', d'.cell h = some c' → d.cell h = some c') : d.Grown d' :=
  fun h c' hc' => .inl ⟨c', hcell h c' hc', .refl c'⟩

theorem grown_refl (d : NvDevice) : d.Grown d := grown_of_eq fun _ _ => id

theorem Grown.saveRam (hg : d.Grown d') : d.Grown d'.saveRam := by
  intro h c' hc'
  rw [cell_saveRam] at hc'
  obtain ⟨c₁, hc₁, rfl⟩ := Option.map_eq_some_iff.1 hc'
  rcases hg h c₁ hc₁ with ⟨c, hc, hgrown⟩ | ⟨hnone, hnew⟩
  · exact .inl ⟨c, hc, hgrown.kind, hgrown.attributes, .inr rfl⟩
  · exact .inr ⟨hnone, hnew⟩

theorem grown_of_map {f : TpmHandle → Cell → Cell} (hmap : ∀ h, d'.cell h = (d.cell h).map (f h))
    (hgrown : ∀ h c, d.cell h = some c → c.Grown (f h c)) : d.Grown d' := by
  intro h c' hc'
  rw [hmap] at hc'
  obtain ⟨c, hc, rfl⟩ := Option.map_eq_some_iff.1 hc'
  exact .inl ⟨c, hc, hgrown h c hc⟩

theorem grown_mapRam {f : RamEntry → RamEntry} (hf : ∀ r, (f r).handle = r.handle)
    (hgrows : ∀ c r, d.cell h = some c → c.index.orderly = true → c.ram = some r →
      TpmaNv.Grows r.attributes (f r).attributes) : d.Grown (d.mapRam h f) := by
  refine grown_of_map (f := fun h' c => if h' = h then { c with ram := c.ram.map f } else c) (fun h' => ?_)
    fun h' c hc => ?_
  · rw [cell_mapRam hf]
    split
    · rfl
    · simp
  · split
    · rename_i hh
      subst hh
      exact Cell.grown_of rfl (.refl _) rfl (fun r ho hr => hgrows c r hc ho hr) rfl
    · exact .refl c

theorem grown_mapIndex {f : NvIndex → Bytes → NvIndex × Bytes}
    (hf : ∀ i data, (f i data).1.publicArea.nvIndex = i.publicArea.nvIndex)
    (hgrows : ∀ c, d.cell h = some c →
      TpmaNv.kind (f c.index c.data).1.publicArea.attributes = TpmaNv.kind c.index.publicArea.attributes ∧
        TpmaNv.Grows c.index.publicArea.attributes (f c.index c.data).1.publicArea.attributes) :
    d.Grown (d.mapIndex h f) := by
  refine grown_of_map
    (f := fun h' c => if h' = h then { c with index := (f c.index c.data).1, data := (f c.index c.data).2 } else c)
    (fun h' => ?_) fun h' c hc => ?_
  · rw [cell_mapIndex hf]
    split
    · rfl
    · simp
  · split
    · rename_i hh
      subst hh
      obtain ⟨hkind, hg⟩ := hgrows c hc
      exact Cell.grown_of (f := id) hkind hg (Option.map_id' (x := c.ram)).symm (fun r _ _ => .refl _) rfl
    · exact .refl c

theorem grown_mapAttributes {f g : UInt32 → UInt32}
    (hf : ∀ a, TpmaNv.kind (f a) = TpmaNv.kind a ∧ TpmaNv.Grows a (f a)) (hg : ∀ a, TpmaNv.Grows a (g a)) :
    d.Grown (d.mapAttributes f g) := by
  refine grown_of_map (fun h => cell_mapAttributes) fun h c _ => ?_
  refine Cell.grown_of ?_ ?_ rfl (fun r _ _ => hg r.attributes) rfl
  · dsimp only
    split
    · rfl
    · exact (hf _).1
  · dsimp only
    split
    · exact .refl _
    · exact (hf _).2

/-! ### The commands -/

theorem attributes_eq_ram {r : RamEntry} (ho : c.index.orderly = true) (hr : c.ram = some r) :
    c.attributes = r.attributes := by
  unfold Cell.attributes
  rw [ho, hr]

theorem attributes_inNv (ho : c.index.orderly = false) : c.attributes = c.index.publicArea.attributes := by
  unfold Cell.attributes
  rw [ho]

theorem writeIndexData_grown (hs : d.Sound) (hc : d.cell h = some c) (offset : Nat) (new : Bytes) :
    d.Grown (d.writeIndexData c.info c.data offset new).2 := by
  have hsound := hs.cells h c hc
  obtain ⟨-, -, -, hhandle⟩ := cell_eq_some hc
  have hinfo : c.info.publicArea.nvIndex = h := hhandle
  have hset : c.info.publicArea.attributes = c.attributes := rfl
  unfold writeIndexData
  dsimp only
  rw [hsound.info_orderly, hinfo, hset]
  split
  · exact grown_refl d
  · split
    · rename_i ho
      have hram : d.Grown (d.mapRam h (writeRam c offset new)) := by
        refine grown_mapRam (fun _ => rfl) fun c₀ r hc₀ _ hr => ?_
        rw [hc] at hc₀
        cases hc₀
        unfold writeRam
        dsimp only
        split
        · exact .refl _
        · rw [attributes_eq_ram ho hr]
          exact TpmaNv.grows_set _ (by decide)
      cases hsave : !c.info.written && c.info.isCounter with
      | true =>
          rw [if_pos rfl]
          exact hram.saveRam
      | false =>
          rw [if_neg Bool.false_ne_true]
          exact hram
    · rename_i ho
      split
      · split
        · exact grown_refl d
        · split
          · exact grown_refl d
          · exact grown_mapIndex (fun _ _ => rfl) fun _ _ => ⟨rfl, .refl _⟩
      · split
        · exact grown_refl d
        · refine grown_mapIndex (fun _ _ => rfl) fun c₀ hc₀ => ?_
          rw [hc] at hc₀
          cases hc₀
          rw [attributes_inNv (eq_false_of_ne_true ho)]
          exact ⟨Cell.kind_written _, TpmaNv.grows_set _ (by decide)⟩

theorem writeIndexAttributes_grown (hs : d.Sound) (hc : d.cell h = some c) {bit : Nat} (hbit : bit < 32)
    (hkind : ∀ a, TpmaNv.kind (TpmaNv.set a bit) = TpmaNv.kind a) :
    d.Grown (d.writeIndexAttributes c.info (TpmaNv.set c.info.publicArea.attributes bit)).2 := by
  have hsound := hs.cells h c hc
  obtain ⟨-, -, -, hhandle⟩ := cell_eq_some hc
  have hinfo : c.info.publicArea.nvIndex = h := hhandle
  have hset : c.info.publicArea.attributes = c.attributes := rfl
  unfold writeIndexAttributes
  dsimp only
  rw [hsound.info_orderly, hinfo, hset]
  split
  · rename_i ho
    refine grown_mapRam (fun _ => rfl) fun c₀ r hc₀ _ hr => ?_
    rw [hc] at hc₀
    cases hc₀
    rw [attributes_eq_ram ho hr]
    exact TpmaNv.grows_set _ hbit
  · rename_i ho
    split
    · exact grown_refl d
    · split
      · exact grown_refl d
      · refine grown_mapIndex (fun _ _ => rfl) fun c₀ hc₀ => ?_
        rw [hc] at hc₀
        cases hc₀
        rw [attributes_inNv (eq_false_of_ne_true ho)]
        exact ⟨hkind _, TpmaNv.grows_set _ hbit⟩

/-- The kind of a start that succeeds. -/
def startupKind (toState : Bool) (d : NvDevice) : StartupKind :=
  if toState then .resume else if d.orderly && d.shutdownType == .state then .restart else .reset

/-- The octets of the index with a handle. -/
def contents (h : TpmHandle) (d : NvDevice) : Except Fault Bytes := do
  let (i, data) ← d.index h
  d.octets i data

end NvDevice

/-- The index that a command writes. -/
def NvCommand.target : NvCommand → Option TpmHandle
  | .nvWrite _ h _ _ | .nvIncrement _ h | .nvSetBits _ h _ | .nvExtend _ h _ => some h
  | _ => none

namespace NvDevice
variable {σ : Type} {codec : HashStateCodec σ} {L : RawLayout} {H : PolicyHash} {d d' : NvDevice} {h : TpmHandle}
  {c : Cell} {cmd : NvCommand}

theorem unlocked_of_checks {auth nvIndex : TpmHandle} {i : NvIndex} {u : Unit}
    (hchecks : nvWriteAccessChecks auth nvIndex i = .ok u) : i.isAttribute 11 = false := by
  unfold nvWriteAccessChecks at hchecks
  obtain ⟨_, hlock, -⟩ := bind_eq_ok hchecks
  simpa using demand_eq_ok hlock

/-- A command that writes is refused, or `NvWriteIndexData` of an index without a lock, perhaps saved after that. -/
def WritesUnlocked (d : NvDevice) (h : TpmHandle) (out : NvOutcome) : Prop :=
  (out.2 = d ∧ ∃ e, out.1 = .error e) ∨
    ∃ c offset new, d.cell h = some c ∧ c.info.isAttribute 11 = false ∧
      (out.2 = (d.writeIndexData c.info c.data offset new).2 ∨
        out.2 = (d.writeIndexData c.info c.data offset new).2.saveRam)

theorem act_writes (cmd : NvCommand) (ht : cmd.target = some h) : WritesUnlocked d h (cmd.act codec L H d) := by
  cases cmd with
  | nvWrite auth h₀ offset data =>
      obtain rfl : h₀ = h := Option.some.inj ht
      change WritesUnlocked d h₀ (d.nvWrite auth h₀ offset data)
      unfold nvWrite
      split
      · exact .inl ⟨rfl, _, rfl⟩
      · rename_i i old hi
        obtain ⟨c, hc, rfl, rfl⟩ := index_eq_ok hi
        dsimp only
        split
        · exact .inl ⟨rfl, _, rfl⟩
        · rename_i hchecks
          obtain ⟨_, haccess, -⟩ := bind_eq_ok hchecks
          exact .inr ⟨c, offset, data, hc, unlocked_of_checks haccess, .inl rfl⟩
  | nvSetBits auth h₀ bits =>
      obtain rfl : h₀ = h := Option.some.inj ht
      change WritesUnlocked d h₀ (d.nvSetBits auth h₀ bits)
      unfold nvSetBits
      split
      · exact .inl ⟨rfl, _, rfl⟩
      · rename_i i old hi
        obtain ⟨c, hc, rfl, rfl⟩ := index_eq_ok hi
        dsimp only
        split
        · exact .inl ⟨rfl, _, rfl⟩
        · rename_i value hchecks
          obtain ⟨_, haccess, -⟩ := bind_eq_ok hchecks
          exact .inr ⟨c, 0, be 8 (value ||| bits % 2 ^ 64), hc, unlocked_of_checks haccess, .inl rfl⟩
  | nvExtend auth h₀ data =>
      obtain rfl : h₀ = h := Option.some.inj ht
      change WritesUnlocked d h₀ (d.nvExtend H auth h₀ data)
      unfold nvExtend
      split
      · exact .inl ⟨rfl, _, rfl⟩
      · rename_i i old hi
        obtain ⟨c, hc, rfl, rfl⟩ := index_eq_ok hi
        dsimp only
        split
        · exact .inl ⟨rfl, _, rfl⟩
        · rename_i digest hchecks
          obtain ⟨_, haccess, -⟩ := bind_eq_ok hchecks
          exact .inr ⟨c, 0, H.hash c.info.publicArea.nameAlg (digest ++ data), hc, unlocked_of_checks haccess, .inl rfl⟩
  | nvIncrement auth h₀ =>
      obtain rfl : h₀ = h := Option.some.inj ht
      change WritesUnlocked d h₀ (d.nvIncrement auth h₀)
      unfold nvIncrement
      split
      · exact .inl ⟨rfl, _, rfl⟩
      · rename_i i old hi
        obtain ⟨c, hc, rfl, rfl⟩ := index_eq_ok hi
        dsimp only
        split
        · exact .inl ⟨rfl, _, rfl⟩
        · rename_i count hchecks
          obtain ⟨_, haccess, -⟩ := bind_eq_ok hchecks
          have hunlocked := unlocked_of_checks haccess
          split
          · rename_i e d' hout
            refine .inr ⟨c, 0, be 8 ((count + 1) % 2 ^ 64), hc, hunlocked, .inl ?_⟩
            rw [hout]
          · rename_i d' hout
            refine .inr ⟨c, 0, be 8 ((count + 1) % 2 ^ 64), hc, hunlocked, ?_⟩
            rw [hout]
            cases c.info.orderly && (count + 1) % 2 ^ 64 % 256 == 0 with
            | true => exact .inr rfl
            | false => exact .inl rfl
  | nvDefineSpace | nvUndefineSpace | nvUndefineSpaceSpecial | clear | nvWriteLock | nvReadLock | nvGlobalWriteLock
  | nvChangeAuth | addEvict | deleteEvict | shutdown | startup | status | phEnableNv => cases ht

theorem WritesUnlocked.grown (hs : d.Sound) {out : NvOutcome} (hw : WritesUnlocked d h out) : d.Grown out.2 := by
  rcases hw with ⟨hsame, -⟩ | ⟨c, offset, new, hc, -, hout | hout⟩
  · exact hsame ▸ grown_refl d
  · exact hout ▸ writeIndexData_grown hs hc offset new
  · exact hout ▸ (writeIndexData_grown hs hc offset new).saveRam

theorem WritesUnlocked.quiet (hs : d.Sound) {out : NvOutcome} (hw : WritesUnlocked d h out) :
    (out.2 = d ∧ ∃ e, out.1 = .error e) ∨
      (∃ c, d.cell h = some c ∧ c.info.isAttribute 11 = false) ∧ QuietBut d out.2 fun h' => h' = h := by
  rcases hw with hsame | ⟨c, offset, new, hc, hunlocked, hout⟩
  · exact .inl hsame
  · refine .inr ⟨⟨c, hc, hunlocked⟩, ?_⟩
    have hquiet : QuietBut d (d.writeIndexData c.info c.data offset new).2 fun h' => h' = h := by
      rcases writeIndexData_cases hs hc offset new with ⟨hsame, -⟩ | ⟨-, -, hwritten⟩
      · rw [hsame]
        exact quietBut_of_eq fun _ _ => rfl
      · exact hwritten.quiet
    rcases hout with hout | hout
    · exact hout ▸ hquiet
    · exact hout ▸ quietBut_saveRam hquiet

/-! ### Commands that do not write -/

theorem nvDefineSpaceChecks_definable {authHandle : TpmHandle} {auth : Tpm2bAuth} {i : NvIndex} {phEnableNv : Bool}
    {u : Unit} (hok : nvDefineSpaceChecks authHandle auth i phEnableNv = .ok u) :
    ¬ (i.isAttribute 27 = true ∧ i.isAttribute 13 = true) := by
  unfold nvDefineSpaceChecks at hok
  iterate 12 obtain ⟨_, -, hok⟩ := bind_eq_ok hok
  obtain ⟨_, hboth, -⟩ := bind_eq_ok hok
  rintro ⟨hclear, hdefine⟩
  have := demand_eq_ok hboth
  rw [hclear, hdefine] at this
  cases this

theorem nvDefineSpace_grown (hs : d.Sound) (auth : TpmHandle) (authValue : Tpm2bAuth) (publicInfo : NvPublic)
    (residue : Bytes) : d.Grown (d.nvDefineSpace auth authValue publicInfo residue).2 := by
  unfold nvDefineSpace
  dsimp only
  split
  · exact grown_refl d
  · rename_i hchecks
    split
    · exact grown_refl d
    · rename_i hany
      have hfree : ∀ e ∈ d.nv.user, e.handle ≠ publicInfo.nvIndex := by
        intro e he heq
        exact hany (List.any_eq_true.2 ⟨e, he, by simp [heq]⟩)
      split
      · exact grown_refl d
      · rename_i nv hdefine
        obtain rfl := nvDefineIndex_ok hdefine
        generalize hi : (⟨publicInfo, removeTrailingZeros authValue⟩ : NvIndex) = i at *
        have hindex : publicInfo = i.publicArea := by rw [← hi]
        subst hindex
        generalize (residue ++ List.replicate i.publicArea.dataSize 0).take i.nvDataSize = data
        have hdefined : d.Grown { d with nv := { d.nv with
            user := d.nv.user ++ [.index i data], ram := d.nv.ram ++ newRam i } } := by
          intro h c' hc'
          rw [cell_define hs.toLists hfree] at hc'
          split at hc'
          · rename_i hh
            cases hc'
            refine .inr ⟨?_, nvDefineSpaceChecks_definable hchecks⟩
            rw [cell_none_iff, NvState.findIndex_eq, List.find?_eq_none.2]
            · rfl
            · intro e he
              simpa [hh] using hfree e he
          · exact .inl ⟨c', hc', .refl c'⟩
        have hend : d.Grown ({ d with nv := { d.nv with
            user := d.nv.user ++ [.index i data], ram := d.nv.ram ++ newRam i } } : NvDevice).writeListEnd := hdefined
        split
        · exact hend.saveRam
        · exact hend

theorem deleteIndex_grown (hs : d.Sound) (hc : d.cell h = some c) : d.Grown (d.deleteIndex c.info c.data).2 := by
  obtain ⟨hfind, -, -, hhandle⟩ := cell_eq_some hc
  have hinfo : c.info.publicArea.nvIndex = h := hhandle
  unfold deleteIndex
  split
  · exact grown_refl d
  · rename_i retired hretired
    obtain ⟨huser, hram, -⟩ := retireCounter_ok hretired
    split
    · refine grown_of_eq fun h' c' hc' => ?_
      unfold cell at hc' ⊢
      dsimp only at hc'
      rw [NvState.findIndex_eq, huser, hram] at hc'
      rw [NvState.findIndex_eq]
      exact hc'
    · rename_i nv hdelete
      obtain ⟨-, -, huser', hram'⟩ := nvDeleteIndex_ok hdelete
      rw [hinfo] at huser' hram'
      obtain ⟨hentry, -⟩ := NvState.find?_of_findIndex hfind
      have hdeleted : d.Grown { d with nv } := by
        refine grown_of_eq fun h' c' hc' => ?_
        rw [cell_delete hs.toLists hentry (getElem?_findIdx hentry) huser'] at hc'
        · split at hc'
          · cases hc'
          · exact hc'
        · split at hram'
          · exact .inr hram'
          · exact .inl hram'
      have hend : d.Grown ({ d with nv } : NvDevice).writeListEnd := hdeleted
      dsimp only
      split
      · exact hend.saveRam
      · exact hend

theorem clear_grown (hs : d.Sound) (disableClear : Bool) : d.Grown (d.clear disableClear).2 := by
  unfold clear
  split
  · exact grown_refl d
  · split
    · exact grown_refl d
    · split
      · exact grown_refl d
      · rename_i nv hflush
        obtain ⟨mid, howner, hendorsement⟩ := bind_eq_ok hflush
        obtain ⟨p, hp⟩ := Flushed.flushHierarchy hs (Flushed.flushHierarchy hs ⟨_, .refl d⟩ howner) hendorsement
        have hflushed : d.Grown { d with nv, orderly := false } := by
          refine grown_of_eq fun h c' hc' => ?_
          by_cases hgone : p h
          · rw [hp.cell_gone hgone] at hc'
            cases hc'
          · rwa [hp.cell_kept hgone] at hc'
        have hend : d.Grown (if nv.user.length = d.nv.user.length then { d with nv, orderly := false }
            else ({ d with nv, orderly := false } : NvDevice).writeListEnd) := by
          split
          · exact hflushed
          · exact hflushed
        dsimp only
        split
        · exact hend
        · exact hend.saveRam

theorem nvWriteLock_grown (hs : d.Sound) (auth : TpmHandle) : d.Grown (d.nvWriteLock auth h).2 := by
  unfold nvWriteLock
  split
  · exact grown_refl d
  · rename_i i old hi
    obtain ⟨c, hc, rfl, rfl⟩ := index_eq_ok hi
    split
    · exact grown_refl d
    · split
      · exact writeIndexAttributes_grown hs hc (by decide) fun a => (TpmaNv.locks_write a).kind
      · exact grown_refl d

theorem nvReadLock_grown (hs : d.Sound) (auth : TpmHandle) : d.Grown (d.nvReadLock auth h).2 := by
  unfold nvReadLock
  split
  · exact grown_refl d
  · rename_i i old hi
    obtain ⟨c, hc, rfl, rfl⟩ := index_eq_ok hi
    split
    · exact grown_refl d
    · exact grown_refl d
    · split
      · exact writeIndexAttributes_grown hs hc (by decide) fun a => (TpmaNv.locks_read a).kind
      · exact grown_refl d

theorem nvGlobalWriteLock_grown (d : NvDevice) : d.Grown d.nvGlobalWriteLock.2 := by
  unfold nvGlobalWriteLock
  split
  · exact grown_mapAttributes (fun a => ⟨(TpmaNv.locks_globally a).kind, TpmaNv.grows_globally a⟩) TpmaNv.grows_globally
  · dsimp only
    split
    · exact grown_refl d
    · exact grown_mapAttributes (fun a => ⟨rfl, .refl a⟩) TpmaNv.grows_globally

theorem nvChangeAuth_grown (newAuth : Tpm2bAuth) : d.Grown (d.nvChangeAuth h newAuth).2 := by
  unfold nvChangeAuth
  split
  · exact grown_refl d
  · dsimp only
    split
    · exact grown_refl d
    · split
      · exact grown_refl d
      · split
        · exact grown_refl d
        · exact grown_mapIndex (fun _ _ => rfl) fun _ _ => ⟨rfl, .refl _⟩

theorem addEvict_grown (level : Nat) (handle : TpmHandle) (o : Object) : d.Grown (d.addEvict codec L level handle o).2 := by
  unfold addEvict
  split
  · exact grown_refl d
  · rename_i hany
    have hfree : ∀ e ∈ d.nv.user, e.handle ≠ handle := by
      intro e he heq
      exact hany (List.any_eq_true.2 ⟨e, he, by simp [heq]⟩)
    split
    · exact grown_refl d
    · rename_i nv hadd
      unfold nvAddEvictObject at hadd
      dsimp only at hadd
      split at hadd
      · obtain ⟨-, rfl⟩ := nvAdd_ok hadd
        exact grown_of_eq fun h c' hc' => (cell_addEvict h _ hfree).symm.trans hc'
      · cases hadd

theorem deleteEvict_grown (hs : d.Sound) (handle : TpmHandle) : d.Grown (d.deleteEvict handle).2 := by
  unfold deleteEvict
  split
  · rename_i hany
    split
    · exact grown_refl d
    · rename_i nv hdelete
      obtain ⟨-, rfl⟩ := nvDelete_ok hdelete
      obtain ⟨e, he, hevict⟩ := List.any_eq_true.1 hany
      rw [Bool.and_eq_true, beq_iff_eq] at hevict
      obtain ⟨k, hk⟩ := List.mem_iff_getElem?.1 he
      have hfound := find?_of_getElem? hs.toLists.handles hk
      rw [hevict.1] at hfound
      exact grown_of_eq fun h c' hc' => (cell_deleteEvict h hs.toLists hfound hevict.2).symm.trans hc'
  · exact grown_refl d

/-- Every command but `TPM2_Startup` only sets attributes. -/
theorem act_grown (hs : d.Sound) (hstart : ∀ toState, cmd ≠ .startup toState) :
    d.Grown (cmd.act codec L H d).2 := by
  cases cmd with
  | nvDefineSpace auth authValue publicInfo residue => exact nvDefineSpace_grown hs auth authValue publicInfo residue
  | nvUndefineSpace auth h =>
      change d.Grown (d.nvUndefineSpace auth h).2
      unfold nvUndefineSpace
      split
      · exact grown_refl d
      · rename_i i old hi
        obtain ⟨c, hc, rfl, rfl⟩ := index_eq_ok hi
        split
        · exact grown_refl d
        · split
          · exact grown_refl d
          · exact deleteIndex_grown hs hc
  | nvUndefineSpaceSpecial h =>
      change d.Grown (d.nvUndefineSpaceSpecial h).2
      unfold nvUndefineSpaceSpecial
      split
      · exact grown_refl d
      · rename_i i old hi
        obtain ⟨c, hc, rfl, rfl⟩ := index_eq_ok hi
        split
        · exact deleteIndex_grown hs hc
        · exact grown_refl d
  | clear disableClear => exact clear_grown hs disableClear
  | nvWrite auth h offset data => exact (act_writes (.nvWrite auth h offset data) rfl).grown hs
  | nvIncrement auth h => exact (act_writes (.nvIncrement auth h) rfl).grown hs
  | nvSetBits auth h bits => exact (act_writes (.nvSetBits auth h bits) rfl).grown hs
  | nvExtend auth h data => exact (act_writes (.nvExtend auth h data) rfl).grown hs
  | nvWriteLock auth h => exact nvWriteLock_grown hs auth
  | nvReadLock auth h => exact nvReadLock_grown hs auth
  | nvGlobalWriteLock => exact nvGlobalWriteLock_grown d
  | nvChangeAuth h newAuth => exact nvChangeAuth_grown newAuth
  | addEvict level handle o _ _ => exact addEvict_grown level handle o
  | deleteEvict handle => exact deleteEvict_grown hs handle
  | shutdown shutdownType =>
      change d.Grown (d.shutdown shutdownType).2
      unfold shutdown
      split
      · exact grown_refl d
      · have hsaved : d.Grown d.saveRam := (grown_refl d).saveRam
        exact hsaved
  | startup toState => exact absurd rfl (hstart toState)
  | status nvStatus => exact grown_of_eq fun _ _ => id
  | phEnableNv state => exact grown_of_eq fun _ _ => id

/-! ### A start -/

theorem startup_cases (toState : Bool) :
    ((d.startup toState).2 = d ∧ ∃ e, (d.startup toState).1 = .error e) ∨
      ((d.startup toState).1 = .ok () ∧
        ∀ h, (d.startup toState).2.cell h = (d.cell h).map (Cell.start (d.startupKind toState) d.orderly)) := by
  unfold startup
  split
  · exact .inl ⟨rfl, _, rfl⟩
  · dsimp only
    split
    · exact .inl ⟨rfl, _, rfl⟩
    · exact .inr ⟨rfl, fun h => nvEntityStartup_cell _⟩

/-- No index that can be defined is both cleared at a start and kept locked over it. -/
theorem definable_of_reachable
    (h : Reachable Empty (fun d d' => ∃ cmd : NvCommand, d' = (cmd.act codec L H d).2) d) :
    ∀ h c, d.cell h = some c → c.Definable := by
  suffices hboth : d.Sound ∧ ∀ h c, d.cell h = some c → c.Definable from hboth.2
  refine h.invariant (I := fun d => d.Sound ∧ ∀ h c, d.cell h = some c → c.Definable) (fun d hd => ?_) ?_
  · refine ⟨hd.sound, fun h c hc => ?_⟩
    rw [hd.cell] at hc
    cases hc
  · rintro d _ ⟨hs, hdefinable⟩ ⟨cmd, rfl⟩
    refine ⟨act_sound hs codec L H cmd, fun h c' hc' => ?_⟩
    by_cases hstart : ∀ toState, cmd ≠ .startup toState
    · rcases act_grown hs hstart h c' hc' with ⟨c, hc, hgrown⟩ | ⟨-, hnew⟩
      · exact Cell.definable_of_kind hgrown.kind (hdefinable h c hc)
      · exact hnew
    · simp only [not_forall, ne_eq, not_not] at hstart
      obtain ⟨toState, rfl⟩ := hstart
      rcases startup_cases (d := d) toState with ⟨hsame, -⟩ | ⟨-, hcells⟩
      · have hc : (d.startup toState).2.cell h = some c' := hc'
        rw [hsame] at hc
        exact hdefinable h c' hc
      · have hc : (d.startup toState).2.cell h = some c' := hc'
        rw [hcells] at hc
        obtain ⟨c, hbefore, rfl⟩ := Option.map_eq_some_iff.1 hc
        exact Cell.definable_of_kind (Cell.start_kind _ _) (hdefinable h c hbefore)

end NvDevice

/-! ## A lock over a run -/

inductive NvLock
  | write | read
  deriving DecidableEq

/-- `TPMA_NV_WRITELOCKED` and `TPMA_NV_READLOCKED`. -/
def NvLock.bit : NvLock → Nat
  | .write => 11
  | .read => 28

/-- The commands that lock an index. -/
def NvCommand.Locks (h : TpmHandle) (i : NvIndex) (lock : NvLock) : NvCommand → Prop
  | .nvWriteLock _ h' => h' = h ∧ lock = .write
  | .nvGlobalWriteLock => i.isAttribute 15 = true ∧ lock = .write
  | .nvReadLock _ h' => h' = h ∧ lock = .read
  | _ => False

/-- The locks that a start is to leave: a lock is durable when it was put, for writing, on an index that was written
and has `WRITEDEFINE`. -/
abbrev LockRule := Bool → NvDevice → NvIndex → StartupKind → Prop

section
variable {σ : Type} (codec : HashStateCodec σ) (L : RawLayout) (H : PolicyHash)

/-- A run in which the index with handle `h` is locked and then stays defined, through starts as long as `rule` leaves
the lock. -/
inductive Held (rule : LockRule) (h : TpmHandle) (lock : NvLock) : Bool → NvDevice → Prop
  | locked {d d' : NvDevice} {cmd : NvCommand} {i : NvIndex} {data : Bytes}
      (hrun : Reachable NvDevice.Empty (fun d d' => ∃ cmd : NvCommand, d' = (cmd.act codec L H d).2) d)
      (hi : d.index h = .ok (i, data)) (hcmd : cmd.Locks h i lock) (hact : cmd.act codec L H d = (.ok (), d')) :
      Held rule h lock (lock == .write && i.written && i.isAttribute 13) d'
  | step {durable : Bool} {d d' : NvDevice} {cmd : NvCommand} {result : Except Fault Unit}
      (hheld : Held rule h lock durable d) (hstart : ∀ toState, cmd ≠ .startup toState)
      (hact : cmd.act codec L H d = (result, d')) (hdefined : d'.cell h ≠ none) : Held rule h lock durable d'
  | start {durable : Bool} {d d' : NvDevice} {toState : Bool} {i : NvIndex} {data : Bytes}
      (hheld : Held rule h lock durable d) (hi : d.index h = .ok (i, data)) (hact : d.startup toState = (.ok (), d'))
      (hrule : rule durable d i (d.startupKind toState)) : Held rule h lock durable d'

end

/-! ### The attributes under a lock -/

/-- The lock is set, and one that is durable with what makes it so. -/
def Locked (lock : NvLock) (durable : Bool) (a : UInt32) : Prop :=
  a.toNat.testBit lock.bit = true ∧
    (durable = true → lock = .write ∧ a.toNat.testBit 13 = true ∧ a.toNat.testBit 29 = true)

theorem Locked.grows {lock : NvLock} {durable : Bool} {a b : UInt32} (h : Locked lock durable a)
    (hg : TpmaNv.Grows a b) : Locked lock durable b := by
  refine ⟨hg _ h.1, fun hd => ?_⟩
  obtain ⟨hlock, hdefine, hwritten⟩ := h.2 hd
  exact ⟨hlock, hg _ hdefine, hg _ hwritten⟩

theorem Locked.of_copy {lock : NvLock} {durable : Bool} {a b : UInt32} (h : Locked lock durable a)
    (hkind : TpmaNv.kind b = TpmaNv.kind a) (hbit : b.toNat.testBit lock.bit = true)
    (hwritten : durable = true → b.toNat.testBit 29 = true) : Locked lock durable b := by
  refine ⟨hbit, fun hd => ?_⟩
  obtain ⟨hlock, hdefine, -⟩ := h.2 hd
  exact ⟨hlock, (TpmaNv.testBit_of_kind hkind (by decide)).trans hdefine, hwritten hd⟩

namespace NvDevice
variable {σ : Type} {codec : HashStateCodec σ} {L : RawLayout} {H : PolicyHash} {d d' : NvDevice} {h : TpmHandle}
  {c : Cell} {cmd : NvCommand} {lock : NvLock}

theorem testBit_set_self (a : UInt32) {bit : Nat} (hbit : bit < 32) : (TpmaNv.set a bit).toNat.testBit bit = true := by
  rw [TpmaNv.testBit_set a bit bit hbit]
  simp

theorem demand_eq_error {b : Bool} {e e' : Fault} (hdemand : demand b e = .error e') : e' = e := by
  cases b with
  | true => cases hdemand
  | false => exact (Except.error.inj hdemand).symm

theorem locked_of_access {auth nvIndex : TpmHandle} {i : NvIndex} {e : Fault}
    (hchecks : nvWriteAccessChecks auth nvIndex i = .error e) (hne : e ≠ .of .nvAuthorization) :
    i.isAttribute 11 = true := by
  cases hlocked : i.isAttribute 11 with
  | true => rfl
  | false =>
      unfold nvWriteAccessChecks at hchecks
      rw [hlocked] at hchecks
      exact absurd (demand_eq_error hchecks) hne

theorem readLocked_of_access {auth nvIndex : TpmHandle} {i : NvIndex} {n : Nat}
    (hchecks : nvReadAccessChecks auth nvIndex i = .error (.rc ⟨.nvLocked, n⟩)) : i.isAttribute 28 = true := by
  cases hlocked : i.isAttribute 28 with
  | true => rfl
  | false =>
      unfold nvReadAccessChecks at hchecks
      rw [hlocked] at hchecks
      cases hauth : (if auth = TpmHandle.rhOwner then i.isAttribute 17
        else if auth = TpmHandle.rhPlatform then i.isAttribute 16 else auth == nvIndex) with
      | false =>
          rw [hauth] at hchecks
          cases hchecks
      | true =>
          rw [hauth] at hchecks
          cases demand_eq_error hchecks

theorem attributes_withRam {r : RamEntry} {f : RamEntry → RamEntry} (ho : c.index.orderly = true) (hr : c.ram = some r) :
    ({ c with ram := c.ram.map f } : Cell).attributes = (f r).attributes := by
  refine attributes_eq_ram ho ?_
  simp only [hr, Option.map_some]

theorem attributes_withIndex (i : NvIndex) (data : Bytes) (saved : Option RamEntry) :
    (⟨i, data, none, saved⟩ : Cell).attributes = i.publicArea.attributes := by
  unfold Cell.attributes
  split
  · rename_i hnone
    cases hnone
  · rfl

theorem writeIndexAttributes_sets (hs : d.Sound) (hc : d.cell h = some c) (bit : Nat) (hbit : bit < 32)
    (hok : (d.writeIndexAttributes c.info (TpmaNv.set c.info.publicArea.attributes bit)).1 = .ok ()) :
    ∃ c', (d.writeIndexAttributes c.info (TpmaNv.set c.info.publicArea.attributes bit)).2.cell h = some c' ∧
      c'.attributes.toNat.testBit bit = true := by
  have hsound := hs.cells h c hc
  obtain ⟨-, -, -, hhandle⟩ := cell_eq_some hc
  have hinfo : c.info.publicArea.nvIndex = h := hhandle
  have hset : c.info.publicArea.attributes = c.attributes := rfl
  unfold writeIndexAttributes at hok ⊢
  dsimp only at hok ⊢
  rw [hsound.info_orderly, hinfo, hset] at hok ⊢
  cases ho : c.index.orderly with
  | true =>
      obtain ⟨⟨r, hr, -⟩, -⟩ := hsound.orderly ho
      have hcell : (d.mapRam h fun r => { r with attributes := TpmaNv.set c.attributes bit }).cell h =
          some { c with ram := c.ram.map fun r => { r with attributes := TpmaNv.set c.attributes bit } } := by
        rw [cell_mapRam (f := fun r => { r with attributes := TpmaNv.set c.attributes bit }) fun _ => rfl, if_pos rfl, hc]
        rfl
      rw [if_pos rfl]
      refine ⟨_, hcell, ?_⟩
      rw [attributes_withRam ho hr]
      exact testBit_set_self _ hbit
  | false =>
      rw [ho, if_neg Bool.false_ne_true] at hok
      rw [if_neg Bool.false_ne_true]
      split at hok
      · rename_i hsame
        rw [if_pos hsame]
        refine ⟨c, hc, ?_⟩
        rw [← hsame]
        exact testBit_set_self _ hbit
      · rename_i hsame
        rw [if_neg hsame]
        split at hok
        · cases hok
        · refine ⟨{ c with index := c.index.withAttributes (TpmaNv.set c.attributes bit), ram := none }, ?_, ?_⟩
          · rw [cell_mapIndex fun _ _ => rfl, if_pos rfl, hc, ← (hsound.inNv ho).1]
            rfl
          · rw [attributes_withIndex]
            exact testBit_set_self _ hbit

theorem testBit_lockGlobally {a : UInt32} (hglobal : a.toNat.testBit 15 = true) :
    (lockGlobally a).toNat.testBit 11 = true := by
  unfold lockGlobally
  rw [if_pos hglobal]
  exact testBit_set_self a (by decide)

theorem mapAttributes_sets (hs : d.Sound) (hc : d.cell h = some c) {f : UInt32 → UInt32}
    (hf : c.index.orderly = false → (f c.index.publicArea.attributes).toNat.testBit 11 = true)
    (hglobal : c.info.isAttribute 15 = true) :
    ∃ c', (d.mapAttributes f lockGlobally).cell h = some c' ∧ c'.attributes.toNat.testBit 11 = true := by
  have hsound := hs.cells h c hc
  rw [cell_mapAttributes, hc]
  refine ⟨_, rfl, ?_⟩
  cases ho : c.index.orderly with
  | true =>
      obtain ⟨⟨r, hr, -⟩, -⟩ := hsound.orderly ho
      have hglobal' : r.attributes.toNat.testBit 15 = true := by
        rw [← attributes_eq_ram ho hr]
        exact hglobal
      dsimp only
      rw [ho, if_pos rfl, attributes_withRam ho hr]
      exact testBit_lockGlobally hglobal'
  | false =>
      dsimp only
      rw [ho, if_neg Bool.false_ne_true, (hsound.inNv ho).1, Option.map_none, attributes_withIndex]
      exact hf ho

theorem nvGlobalWriteLock_sets (hs : d.Sound) (hc : d.cell h = some c) (hglobal : c.info.isAttribute 15 = true)
    (hok : d.nvGlobalWriteLock.1 = .ok ()) :
    ∃ c', d.nvGlobalWriteLock.2.cell h = some c' ∧ c'.attributes.toNat.testBit 11 = true := by
  have hindex : c.index.orderly = false → c.index.publicArea.attributes.toNat.testBit 15 = true := by
    intro ho
    rw [← attributes_inNv ho]
    exact hglobal
  unfold nvGlobalWriteLock at hok ⊢
  split
  · exact mapAttributes_sets hs hc (fun ho => testBit_lockGlobally (hindex ho)) hglobal
  · rename_i rc hstatus
    rw [hstatus] at hok
    dsimp only at hok ⊢
    split at hok
    · cases hok
    · rename_i hchanges
      rw [if_neg hchanges]
      refine mapAttributes_sets hs hc (fun ho => ?_) hglobal
      -- an index in NV that had still to be locked would have been a change
      have hmem : NvEntry.index c.index c.data ∈ d.nv.user :=
        List.mem_of_find?_eq_some (NvState.find?_of_findIndex (cell_eq_some hc).1).1
      have hsame : lockGlobally c.index.publicArea.attributes = c.index.publicArea.attributes := by
        by_contra hne
        exact hchanges (List.any_eq_true.2 ⟨_, hmem, by simp [ho, hne]⟩)
      have hbit := testBit_lockGlobally (hindex ho)
      rw [hsame] at hbit
      exact hbit

theorem act_locks (hs : d.Sound) (hc : d.cell h = some c) (hcmd : cmd.Locks h c.info lock)
    (hact : cmd.act codec L H d = (.ok (), d')) :
    ∃ c', d'.cell h = some c' ∧ c'.attributes.toNat.testBit lock.bit = true := by
  have hindex := index_of_cell hs hc
  cases cmd with
  | nvWriteLock auth h₀ =>
      obtain ⟨rfl, rfl⟩ := hcmd
      have hlock : d.nvWriteLock auth h₀ = (.ok (), d') := hact
      unfold nvWriteLock at hlock
      rw [hindex] at hlock
      dsimp only at hlock
      split at hlock
      · rename_i e hchecks
        split at hlock
        · cases hlock
        · rename_i hne
          cases hlock
          have hbit := locked_of_access hchecks hne
          exact ⟨c, hc, hbit⟩
      · split at hlock
        · obtain ⟨c', hc', hbit⟩ := writeIndexAttributes_sets hs hc 11 (by decide) (congrArg Prod.fst hlock)
          rw [hlock] at hc'
          exact ⟨c', hc', hbit⟩
        · cases hlock
  | nvGlobalWriteLock =>
      obtain ⟨hglobal, rfl⟩ := hcmd
      have hlock : d.nvGlobalWriteLock = (.ok (), d') := hact
      obtain ⟨c', hc', hbit⟩ := nvGlobalWriteLock_sets hs hc hglobal (congrArg Prod.fst hlock)
      rw [hlock] at hc'
      exact ⟨c', hc', hbit⟩
  | nvReadLock auth h₀ =>
      obtain ⟨rfl, rfl⟩ := hcmd
      have hlock : d.nvReadLock auth h₀ = (.ok (), d') := hact
      unfold nvReadLock at hlock
      rw [hindex] at hlock
      dsimp only at hlock
      split at hlock
      · cases hlock
      · rename_i hchecks
        cases hlock
        have hbit := readLocked_of_access hchecks
        exact ⟨c, hc, hbit⟩
      · split at hlock
        · obtain ⟨c', hc', hbit⟩ := writeIndexAttributes_sets hs hc 28 (by decide) (congrArg Prod.fst hlock)
          rw [hlock] at hc'
          exact ⟨c', hc', hbit⟩
        · cases hlock
  | nvDefineSpace | nvUndefineSpace | nvUndefineSpaceSpecial | clear | nvWrite | nvIncrement | nvSetBits | nvExtend
  | nvChangeAuth | addEvict | deleteEvict | shutdown | startup | status | phEnableNv => exact hcmd.elim

end NvDevice

/-! ### What a start leaves -/

/-- The copy in NV of what lies in RAM has the lock, and is written where the lock is durable. -/
def NvDevice.SavedLock (d : NvDevice) (h : TpmHandle) (lock : NvLock) (durable : Bool) : Prop :=
  ∃ saved, findRam d.savedRam h = some saved ∧ saved.attributes.toNat.testBit lock.bit = true ∧
    (durable = true → saved.attributes.toNat.testBit 29 = true)

/-- The locks that `NvSetStartupAttributes` leaves, and the loss of power: NV has the lock of an orderly index, and
WRITTEN stays with a durable lock. -/
def keptLocks (h : TpmHandle) (lock : NvLock) : LockRule := fun durable d i kind =>
  (i.orderly = true → d.SavedLock h lock durable) ∧
    match kind with
    | .resume => True
    | .restart => durable = true
    | .reset => durable = true ∧ (i.orderly = true → i.isCounter = true)

theorem Locked.startup {lock : NvLock} {kind : StartupKind} {a : UInt32} (h : Locked lock true a)
    (hclear : a.toNat.testBit 27 = false) (hreset : kind = .reset → a.toNat.testBit 26 = true → a.toNat / 16 % 16 = 1) :
    Locked lock true (NvDevice.setStartupAttributes kind a) := by
  obtain ⟨hlocked, hdurable⟩ := h
  obtain ⟨rfl, hdefine, hwritten⟩ := hdurable rfl
  have hbit : ∀ j, j < 32 → 28 ≠ j → (TpmaNv.clear a 28).toNat.testBit j = a.toNat.testBit j :=
    fun j hj hne => Cell.testBit_clear a (by decide) hj hne
  have hnt : (TpmaNv.clear a 28).toNat / 16 % 16 = a.toNat / 16 % 16 := TpmaNv.nt_of_kind (TpmaNv.kind_clear (by decide))
  have hsame : NvDevice.setStartupAttributes kind a = TpmaNv.clear a 28 := by
    unfold NvDevice.setStartupAttributes
    dsimp only
    rw [hnt, hbit 27 (by decide) (by decide), hbit 26 (by decide) (by decide), hclear]
    have hno : ¬ (a.toNat / 16 % 16 ≠ 1 ∧ (false = true ∨ (a.toNat.testBit 26 = true ∧ kind = .reset))) := by
      rintro ⟨hne, h | ⟨horderly, hkind⟩⟩
      · cases h
      · exact hne (hreset hkind horderly)
    rw [if_neg hno, hbit 29 (by decide) (by decide), hbit 13 (by decide) (by decide), hwritten, hdefine]
    exact if_neg (by simp)
  rw [hsame]
  refine ⟨(hbit 11 (by decide) (by decide)).trans hlocked, fun _ => ⟨rfl, ?_, ?_⟩⟩
  · exact (hbit 13 (by decide) (by decide)).trans hdefine
  · exact (hbit 29 (by decide) (by decide)).trans hwritten

namespace Cell
variable {c : Cell} {lock : NvLock} {durable : Bool} {kind : StartupKind}

/-- The attributes that a start goes from. -/
theorem start_attributes (kind : StartupKind) (hs : c.Sound) (orderly : Bool) :
    ∃ a, TpmaNv.kind a = TpmaNv.kind c.index.publicArea.attributes ∧
      (c.index.orderly = false → a = c.attributes) ∧
      (c.index.orderly = true → ∃ s, c.saved = some s ∧ s.attributes = a) ∧
      (c.start kind orderly).attributes =
        match kind with
        | .resume => a
        | .reset | .restart => NvDevice.setStartupAttributes kind a := by
  cases ho : c.index.orderly with
  | false =>
      refine ⟨c.attributes, hs.kind_attributes, fun _ => rfl, fun h => (nomatch h), ?_⟩
      have ho' : (c.start kind orderly).index.orderly = false := (start_orderly kind orderly).trans ho
      rw [NvDevice.attributes_inNv ho', NvDevice.attributes_inNv ho]
      unfold Cell.start
      cases kind with
      | resume => rfl
      | reset | restart =>
          dsimp only
          rw [ho]
          rfl
  | true =>
      obtain ⟨-, s, hsaved, hcopy⟩ := hs.orderly ho
      refine ⟨s.attributes, hcopy.kind, fun h => (nomatch h), fun _ => ⟨s, hsaved, rfl⟩, ?_⟩
      have ho' : (c.start kind orderly).index.orderly = true := (start_orderly kind orderly).trans ho
      have hram : (c.start kind orderly).ram = some (startRam kind orderly s) := by
        rw [start_ram, hsaved]
        rfl
      rw [NvDevice.attributes_eq_ram ho' hram]
      unfold startRam
      cases kind with
      | resume => rfl
      | reset | restart =>
          dsimp only
          split
          · rfl
          · rw [attributes_fillCounter]

theorem start_locked {d : NvDevice} {h : TpmHandle} (hs : c.Sound) (hdefinable : c.Definable) (hc : d.cell h = some c)
    (hlocked : Locked lock durable c.attributes) (hrule : keptLocks h lock durable d c.info kind) (orderly : Bool) :
    Locked lock durable (c.start kind orderly).attributes := by
  obtain ⟨a, hkind, hinNv, hinRam, hattributes⟩ := start_attributes kind hs orderly
  obtain ⟨hsavedRule, hkept⟩ := hrule
  rw [hs.info_orderly] at hsavedRule
  obtain ⟨-, -, hcopies, -⟩ := NvDevice.cell_eq_some hc
  have hbefore : Locked lock durable a := by
    cases ho : c.index.orderly with
    | false => exact hinNv ho ▸ hlocked
    | true =>
        obtain ⟨s, hsaved, rfl⟩ := hinRam ho
        obtain ⟨s', hsaved', hbit, hwritten⟩ := hsavedRule ho
        obtain rfl := Option.some.inj ((hcopies.symm.trans hsaved).symm.trans hsaved').symm
        exact hlocked.of_copy (hkind.trans hs.kind_attributes.symm) hbit hwritten
  -- a durable lock is on an index that no start clears, but for a reset of an orderly one
  have hdurable : durable = true → (kind = .reset → c.index.orderly = true → c.index.isCounter = true) →
      Locked lock durable (NvDevice.setStartupAttributes kind a) := by
    rintro rfl hreset
    have hbit : ∀ bit, (0xCFFFF7FF : Nat).testBit bit = true → a.toNat.testBit bit = c.index.isAttribute bit :=
      fun bit hbit => TpmaNv.testBit_of_kind hkind hbit
    refine hbefore.startup ?_ fun hr horderly => ?_
    · rw [hbit 27 (by decide)]
      refine eq_false_of_ne_true fun hclear => hdefinable ⟨hclear, ?_⟩
      rw [← hbit 13 (by decide)]
      exact (hbefore.2 rfl).2.1
    · rw [hbit 26 (by decide)] at horderly
      have hcounter := hreset hr horderly
      rw [NvIndex.isCounter_eq, beq_iff_eq] at hcounter
      exact (TpmaNv.nt_of_kind hkind).trans hcounter
  rw [hattributes]
  cases kind with
  | resume => exact hbefore
  | restart => exact hdurable hkept fun hr => (nomatch hr)
  | reset =>
      refine hdurable hkept.1 fun _ ho => ?_
      rw [← hs.info_isCounter]
      exact hkept.2 (hs.info_orderly.trans ho)

end Cell

/-! ## What a lock is worth -/

/-- A write lock that holds lets no command change the octets, a read lock lets none be read. -/
def LockHolds {σ : Type} (codec : HashStateCodec σ) (L : RawLayout) (H : PolicyHash) (h : TpmHandle) (d : NvDevice) :
    NvLock → Prop
  | .write => ∀ cmd : NvCommand, cmd.target ≠ none → (cmd.act codec L H d).1 = .ok () →
      (cmd.act codec L H d).2.contents h = d.contents h
  | .read => (∀ auth i data, d.index h = .ok (i, data) → nvReadAccessChecks auth h i = .error (.of .nvLocked)) ∧
      ∀ auth size offset octets, d.nvRead auth h size offset ≠ .ok octets

section
variable {σ : Type} {codec : HashStateCodec σ} {L : RawLayout} {H : PolicyHash} {d : NvDevice} {h : TpmHandle}
  {lock : NvLock} {durable : Bool}

theorem NvDevice.contents_of_cell {c : Cell} (hs : d.Sound) (hc : d.cell h = some c) : d.contents h = .ok c.octets := by
  unfold contents
  rw [index_of_cell hs hc]
  exact octets_of_cell hs hc

theorem Held.reached {rule : LockRule} (hheld : Held codec L H rule h lock durable d) :
    Reachable NvDevice.Empty (fun d d' => ∃ cmd : NvCommand, d' = (cmd.act codec L H d).2) d := by
  induction hheld with
  | @locked _ _ cmd _ _ hrun _ _ hact =>
      refine hrun.step ⟨cmd, ?_⟩
      rw [hact]
  | @step _ _ _ cmd _ _ _ hact _ ih =>
      refine ih.step ⟨cmd, ?_⟩
      rw [hact]
  | @start _ _ d' toState _ _ _ _ hact _ ih =>
      refine ih.step ⟨.startup toState, ?_⟩
      have hout : (NvCommand.startup toState).act codec L H _ = (.ok (), d') := hact
      rw [hout]

/-- The lock stays set over the run. -/
theorem Held.locked_attributes (hheld : Held codec L H (keptLocks h lock) h lock durable d) :
    ∃ c, d.cell h = some c ∧ Locked lock durable c.attributes := by
  induction hheld with
  | @locked d d' cmd i data hrun hi hcmd hact =>
      have hs := NvDevice.sound_of_reachable hrun
      obtain ⟨c, hc, rfl, rfl⟩ := NvDevice.index_eq_ok hi
      obtain ⟨c', hc', hbit⟩ := NvDevice.act_locks hs hc hcmd hact
      have hstart : ∀ toState, cmd ≠ .startup toState := by
        rintro toState rfl
        exact hcmd
      have hgrown : d.Grown (cmd.act codec L H d).2 := NvDevice.act_grown hs hstart
      rw [hact] at hgrown
      rcases hgrown h c' hc' with ⟨c₀, hc₀, hgrown⟩ | ⟨hnone, -⟩
      · rw [hc] at hc₀
        cases hc₀
        refine ⟨c', hc', hbit, fun hd => ?_⟩
        simp only [Bool.and_eq_true, beq_iff_eq] at hd
        exact ⟨hd.1.1, hgrown.attributes 13 hd.2, hgrown.attributes 29 hd.1.2⟩
      · rw [hc] at hnone
        cases hnone
  | @step durable d d' cmd result hheld hstart hact hdefined ih =>
      obtain ⟨c, hc, hlocked⟩ := ih
      have hgrown : d.Grown (cmd.act codec L H d).2 :=
        NvDevice.act_grown (NvDevice.sound_of_reachable hheld.reached) hstart
      rw [hact] at hgrown
      obtain ⟨c', hc'⟩ := Option.ne_none_iff_exists'.1 hdefined
      rcases hgrown h c' hc' with ⟨c₀, hc₀, hgrown⟩ | ⟨hnone, -⟩
      · rw [hc] at hc₀
        cases hc₀
        exact ⟨c', hc', hlocked.grows hgrown.attributes⟩
      · rw [hc] at hnone
        cases hnone
  | @start durable d d' toState i data hheld hi hact hrule ih =>
      obtain ⟨c, hc, hlocked⟩ := ih
      have hs := NvDevice.sound_of_reachable hheld.reached
      obtain ⟨c₀, hc₀, rfl, rfl⟩ := NvDevice.index_eq_ok hi
      rw [hc] at hc₀
      cases hc₀
      rcases NvDevice.startup_cases (d := d) toState with ⟨-, e, herror⟩ | ⟨-, hcells⟩
      · rw [hact] at herror
        cases herror
      · rw [hact] at hcells
        refine ⟨_, (hcells h).trans (congrArg _ hc), ?_⟩
        exact Cell.start_locked (hs.cells h c hc) (NvDevice.definable_of_reachable hheld.reached h c hc) hc hlocked
          hrule d.orderly

/-- A shutdown that succeeds saves the lock of an orderly index. -/
theorem Held.saved_of_shutdown (hheld : Held codec L H (keptLocks h lock) h lock durable d) {shutdownType : ShutdownType}
    {d' : NvDevice} (hact : d.shutdown shutdownType = (.ok (), d')) {i : NvIndex} {data : Bytes}
    (hi : d.index h = .ok (i, data)) (ho : i.orderly = true) : d'.SavedLock h lock durable := by
  obtain ⟨c, hc, hbit, hdurable⟩ := hheld.locked_attributes
  have hs := NvDevice.sound_of_reachable hheld.reached
  obtain ⟨c₀, hc₀, rfl, rfl⟩ := NvDevice.index_eq_ok hi
  rw [hc] at hc₀
  cases hc₀
  rw [(hs.cells h c hc).info_orderly] at ho
  obtain ⟨⟨ram, hram, -⟩, -⟩ := (hs.cells h c hc).orderly ho
  have hsame := NvDevice.attributes_eq_ram ho hram
  rw [hsame] at hbit hdurable
  obtain ⟨-, hfound, -, -⟩ := NvDevice.cell_eq_some hc
  refine ⟨ram, ?_, hbit, fun hd => (hdurable hd).2.2⟩
  unfold NvDevice.shutdown at hact
  split at hact
  · cases hact
  · cases hact
    exact hfound.symm.trans hram

/-- A lock holds until the index is undefined, or the start that takes it back. -/
theorem lock_holds (hheld : Held codec L H (keptLocks h lock) h lock durable d) : LockHolds codec L H h d lock := by
  have hs := NvDevice.sound_of_reachable hheld.reached
  obtain ⟨c, hc, hbit, -⟩ := hheld.locked_attributes
  cases lock with
  | write =>
      intro cmd htarget hok
      obtain ⟨h₀, ht⟩ := Option.ne_none_iff_exists'.1 htarget
      have hs' := NvDevice.act_sound hs codec L H cmd
      have hwrites : NvDevice.WritesUnlocked d h₀ (cmd.act codec L H d) := NvDevice.act_writes cmd ht
      rcases hwrites.quiet hs with ⟨-, e, herror⟩ | ⟨⟨c₀, hc₀, hunlocked⟩, hquiet⟩
      · rw [herror] at hok
        cases hok
      · have hne : h ≠ h₀ := by
          rintro rfl
          rw [hc] at hc₀
          cases hc₀
          have hbit' : c.info.isAttribute 11 = true := hbit
          rw [hunlocked] at hbit'
          cases hbit'
        rcases hquiet h hne with ⟨hnone, -⟩ | ⟨c₁, c', hc₁, hc', hq⟩
        · rw [hc] at hnone
          cases hnone
        · rw [NvDevice.contents_of_cell hs' hc', NvDevice.contents_of_cell hs hc₁, (hq.same (hs.cells h c₁ hc₁)).2]
  | read =>
      have haccess : ∀ auth i data, d.index h = .ok (i, data) →
          nvReadAccessChecks auth h i = .error (.of .nvLocked) := by
        intro auth i data hi
        rw [NvDevice.index_of_cell hs hc] at hi
        cases hi
        have hbit' : c.info.isAttribute 28 = true := hbit
        unfold nvReadAccessChecks
        rw [hbit']
        rfl
      refine ⟨haccess, fun auth size offset octets hread => ?_⟩
      unfold NvDevice.nvRead at hread
      obtain ⟨p, hp, hread⟩ := bind_eq_ok hread
      obtain ⟨_, hchecks, -⟩ := bind_eq_ok hread
      rw [haccess auth p.1 p.2 hp] at hchecks
      cases hchecks

end

/-! ### A lock that a reset takes back -/

/-- A durable lock that is left by every start, another one by a resume. -/
def promisedLocks : LockRule := fun durable _ _ kind => kind = .resume ∨ durable = true

def lockedHandle : TpmHandle := 0x01000003

/-- An index with `WRITEDEFINE` that the owner reads and writes. -/
def lockedIndex (orderly : Bool) : NvPublic where
  nvIndex := lockedHandle
  nameAlg := .sha256
  attributes := if orderly then 0x04022002 else 0x00022002
  authPolicy := .ofBytes []
  dataSize := 1

abbrev lockStep (d : NvDevice) (cmd : NvCommand) : NvOutcome := cmd.act noHashStates zeroLayout zeroHash d

def lockRun (cmds : List NvCommand) : NvDevice := run (fun d cmd => (lockStep d cmd).2) {} cmds

abbrev LockHeld (rule : LockRule) : NvDevice → Prop :=
  Held noHashStates zeroLayout zeroHash rule lockedHandle .write true

def writtenIndex (orderly : Bool) : List NvCommand :=
  [.nvDefineSpace .rhOwner (.ofBytes []) (lockedIndex orderly) [], .nvWrite .rhOwner lockedHandle 0 [1]]

def lockedRun (orderly : Bool) : NvDevice := lockRun (writtenIndex orderly ++ [.nvWriteLock .rhOwner lockedHandle])

/-- The index is written and locked, and the TPM shut down. -/
def shutDown (orderly : Bool) (shutdownType : ShutdownType) : NvDevice := ((lockedRun orderly).shutdown shutdownType).2

theorem lockedRun_held {rule : LockRule} (orderly : Bool) : LockHeld rule (lockedRun orderly) := by
  have hrun : Reachable NvDevice.Empty (fun d d' => ∃ cmd, d' = (lockStep d cmd).2) (lockRun (writtenIndex orderly)) :=
    Reachable.of_run ⟨rfl, rfl, rfl⟩ _
  have hlocks (i : NvIndex) : NvCommand.Locks lockedHandle i .write (.nvWriteLock .rhOwner lockedHandle) := ⟨rfl, rfl⟩
  cases orderly with
  | true => exact .locked hrun rfl (hlocks _) rfl
  | false => exact .locked hrun rfl (hlocks _) rfl

theorem shutDown_held {rule : LockRule} (orderly : Bool) (shutdownType : ShutdownType) :
    LockHeld rule (shutDown orderly shutdownType) := by
  have hno : ∀ toState, NvCommand.shutdown shutdownType ≠ .startup toState := fun _ h => (nomatch h)
  refine (lockedRun_held orderly).step hno rfl ?_
  cases orderly <;> cases shutdownType <;> exact Option.isSome_iff_ne_none.1 rfl

/-- An orderly index that is no counter is not written after a reset, and its lock is gone. -/
theorem orderly_lock_lost :
    ∃ d, LockHeld promisedLocks d ∧ ¬ LockHolds noHashStates zeroLayout zeroHash lockedHandle d .write := by
  have hheld : LockHeld promisedLocks ((shutDown true .clear).startup false).2 :=
    (shutDown_held true .clear).start rfl (show NvDevice.startup false _ = _ from rfl) (.inr rfl)
  refine ⟨_, hheld, fun hholds => ?_⟩
  have hsame := hholds (.nvWrite .rhOwner lockedHandle 0 [2]) (by decide) rfl
  exact absurd hsame (by decide)

/-- The lock of an ordinary index holds after a reset, and the one of an orderly index after a resume. -/
theorem saved_locks_hold :
    LockHolds noHashStates zeroLayout zeroHash lockedHandle ((shutDown false .clear).startup false).2 .write ∧
      LockHolds noHashStates zeroLayout zeroHash lockedHandle ((shutDown true .state).startup true).2 .write := by
  refine ⟨lock_holds ((shutDown_held false .clear).start rfl (show NvDevice.startup false _ = _ from rfl) ⟨?_, rfl, ?_⟩),
    lock_holds ((shutDown_held true .state).start rfl (show NvDevice.startup true _ = _ from rfl) ⟨fun _ => ?_, trivial⟩)⟩
  · exact fun h => absurd h (by decide)
  · exact fun h => absurd h (by decide)
  · exact (lockedRun_held true).saved_of_shutdown (show NvDevice.shutdown .state (lockedRun true) = _ from rfl) rfl rfl

end PqcTpm
