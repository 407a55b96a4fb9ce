import PqcTpm.NvValues

/-!
# NV counters

A counter index starts above every counter that has been deleted and never falls. For a
counter in NV this is plain. An orderly counter counts in RAM, and what is saved of it may lag
behind by its low octet; a start that was not orderly makes up for that. `s_maxCounter` stands
for the deleted counters, and `NvFlushHierarchy` takes the value of an orderly counter over
only when the copy of the attributes in NV says that it has been written, which it never does.
-/
namespace PqcTpm
open ByteCodec Transition

/-! ## The low octet -/

theorem or_255 (n : Nat) : n ||| 255 = n / 256 * 256 + 255 := by
  have hdiv : (n ||| 255) / 256 = n / 256 := by
    have h256 : (256 : Nat) = 2 ^ 8 := rfl
    rw [h256, ← Nat.shiftRight_eq_div_pow, ← Nat.shiftRight_eq_div_pow, Nat.shiftRight_or_distrib]
    exact Nat.or_zero _
  have hmod : (n ||| 255) % 256 = 255 := by
    have h256 : (256 : Nat) = 2 ^ 8 := rfl
    rw [h256, Nat.or_mod_two_pow]
    refine Nat.eq_of_testBit_eq fun j => ?_
    rw [Nat.testBit_or, Nat.testBit_mod_two_pow, Nat.testBit_mod_two_pow]
    have hbits : Nat.testBit 255 j = decide (j < 8) := Nat.testBit_two_pow_sub_one 8 j
    rw [hbits]
    by_cases hj : j < 8 <;> simp [hj]
  have hvalue := Nat.div_add_mod' (n ||| 255) 256
  rw [hdiv, hmod] at hvalue
  exact hvalue.symm

theorem le_or_255 (n : Nat) : n ≤ n ||| 255 := by
  rw [or_255]
  omega

theorem succ_le_or_255 {n m : Nat} (hle : n ≤ m ||| 255) (hroll : (n + 1) % 256 ≠ 0) : n + 1 ≤ m ||| 255 := by
  rw [or_255] at hle ⊢
  omega

theorem or_255_lt {n : Nat} (hn : n < 2 ^ 64) : n ||| 255 < 2 ^ 64 :=
  Nat.or_lt_two_pow hn (by decide)

/-! ## Counting and reading -/

namespace NvDevice

/-- The value of a counter that has been written, as `NvGetUINT64Data` gives it. -/
def HasCount (d : NvDevice) (h : TpmHandle) (v : Nat) : Prop :=
  ∃ i data, d.index h = .ok (i, data) ∧ i.isCounter = true ∧ i.written = true ∧ nvGetUint64Data d.nv i data = .ok v

/-- A counter that `TPM2_NV_Read` gives the value of, to someone. -/
def ReadsCount (d : NvDevice) (h : TpmHandle) (v : Nat) : Prop :=
  (∃ i data, d.index h = .ok (i, data) ∧ i.isCounter = true) ∧
    ∃ authHandle octets, d.nvRead authHandle h 8 0 = .ok octets ∧ fromBe octets = v

/-- A counter that no increment has reached. -/
def NeverCounted (d : NvDevice) (h : TpmHandle) : Prop :=
  ∃ i data, d.index h = .ok (i, data) ∧ i.isCounter = true ∧ i.written = false

end NvDevice

namespace NvCommand

/-- No counter goes over the end of 64 bits. -/
def NoOverflow (d : NvDevice) : NvCommand → Prop
  | .nvIncrement _ h => ∀ i data v, d.index h = .ok (i, data) → d.countValue i data = .ok v → v + 1 < 2 ^ 64
  | _ => True

/-- `TPM2_Clear` finds no orderly counter of the owner above `s_maxCounter`. -/
def ClearsNoOrderlyCount (d : NvDevice) : NvCommand → Prop
  | .clear disableClear => d.nv.nvStatus = none → disableClear = false →
      ∀ h i data v, d.index h = .ok (i, data) → i.isCounter = true → i.orderly = true → i.platformCreate = false →
        i.written = true → nvGetUint64Data d.nv i data = .ok v → v ≤ d.nv.maxCounter
  | _ => True

end NvCommand

/-- A device with what could be read from its counters: from those that are defined, since they are, and from
those that have been deleted. -/
structure CounterRun where
  device : NvDevice
  seen : TpmHandle → Nat → Prop
  retired : Nat → Prop

namespace CounterRun

/-- A device that has only just been made. -/
def Fresh (s : CounterRun) : Prop := s.device.Empty ∧ (∀ h v, ¬ s.seen h v) ∧ ∀ v, ¬ s.retired v

section
variable {σ : Type} (codec : HashStateCodec σ) (L : RawLayout) (H : PolicyHash)

def step (s : CounterRun) (cmd : NvCommand) : CounterRun :=
  let d := (cmd.act codec L H s.device).2
  { device := d
    seen := fun h v => ((d.nv.findIndex h).isSome = true ∧ s.seen h v) ∨ d.ReadsCount h v
    retired := fun v => s.retired v ∨ ∃ h, d.nv.findIndex h = none ∧ s.seen h v }

/-- Counters do not fall, and a new one starts above every one that has been deleted. -/
structure Forward (s : CounterRun) : Prop where
  monotone : ∀ h v w, s.seen h v → s.device.ReadsCount h w → v ≤ w
  fresh : ∀ authHandle h v w, NvCommand.NoOverflow s.device (.nvIncrement authHandle h) → s.device.NeverCounted h →
    (s.device.nvIncrement authHandle h).1 = .ok () → (s.device.nvIncrement authHandle h).2.HasCount h w →
    s.retired v → v < w

end
end CounterRun

/-! ## Counters as cells -/

namespace Cell
variable {c c' : Cell}

/-- What is saved of an orderly counter lags behind by its low octet at most. -/
def Guarded (c : Cell) : Prop :=
  c.index.isCounter = true → ∀ r s, c.ram = some r → c.saved = some s → r.attributes.toNat.testBit 29 = true →
    s.attributes.toNat.testBit 29 = true ∧ fromBe (r.data.take 8) ≤ fromBe (s.data.take 8) ||| 255

structure Advances (c c' : Cell) : Prop where
  counter : c'.index.isCounter = c.index.isCounter
  written : c.info.written = true → c'.info.written = true
  count : c.info.written = true → c.count ≤ c'.count

theorem Quiet.advances (hs : c.Sound) (hq : c.Quiet c') : c.Advances c' := by
  obtain ⟨hwritten, hoctets⟩ := hq.same hs
  refine ⟨hq.isCounter, fun hw => hwritten.trans hw, fun _ => ?_⟩
  unfold count
  rw [hoctets]

theorem Quiet.guarded (hg : c.Guarded) (hq : c.Quiet c') : c'.Guarded := by
  intro hcounter r' s' hr' hs' hw'
  have hram := hq.ram
  rw [hr'] at hram
  cases hr : c.ram with
  | none =>
      rw [hr] at hram
      cases hram
  | some r =>
      rw [hr] at hram
      cases hram with
      | some hsame =>
          rcases hq.saved with hsaved | hsaved
          · rw [hs'] at hsaved
            cases hs : c.saved with
            | none =>
                rw [hs] at hsaved
                cases hsaved
            | some s =>
                rw [hs] at hsaved
                cases hsaved with
                | some hsame' =>
                    rw [hsame.written] at hw'
                    rw [hsame.data, hsame'.data, hsame'.written]
                    exact hg (hq.isCounter.symm.trans hcounter) r s hr hs hw'
          · rw [hs', hr] at hsaved
            cases hsaved with
            | some hsame' =>
                rw [hsame.written] at hw'
                rw [hsame.data, hsame'.data, hsame'.written]
                exact ⟨hw', le_or_255 _⟩

/-! ### One increment -/

/-- The first count and the one that rolls over are saved; any other stays below what the saved value stands for. -/
theorem write_guarded (hs : c.Sound) (hg : c.Guarded) {n : Nat} (hn : n + 1 < 2 ^ 64) {save : Bool}
    (hcount : c.info.written = true → n = c.count) (hsave : save = (!c.info.written || (n + 1) % 256 == 0)) :
    (c.write 0 (be 8 (n + 1)) save).Guarded := by
  intro hcounter r' s' hr' hs' hw'
  rw [isCounter_write hs] at hcounter
  cases ho : c.index.orderly with
  | false =>
      have hnone : (c.write 0 (be 8 (n + 1)) save).ram = none := by
        unfold Cell.write
        rw [ho, if_neg Bool.false_ne_true]
        exact (hs.inNv ho).1
      rw [hnone] at hr'
      cases hr'
  | true =>
      obtain ⟨⟨r, hr, -⟩, s, hsaved, -⟩ := hs.orderly ho
      have ho' : (c.write 0 (be 8 (n + 1)) save).index.orderly = true :=
        (NvDevice.orderly_write 0 (be 8 (n + 1)) save hs).trans ho
      have hvalue := (write_count hs hn save).2
      rw [count_ram ho' hr'] at hvalue
      cases hsv : save with
      | true =>
          have hsame : s' = r' := by
            have hboth : (c.write 0 (be 8 (n + 1)) save).saved = (c.write 0 (be 8 (n + 1)) save).ram := by
              unfold Cell.write
              rw [ho, if_pos rfl, hsv]
              rfl
            rw [hs', hr'] at hboth
            exact Option.some.inj hboth
          rw [hsame]
          exact ⟨hw', le_or_255 _⟩
      | false =>
          have hkept : s' = s := by
            have hold : (c.write 0 (be 8 (n + 1)) save).saved = c.saved := by
              unfold Cell.write
              rw [ho, if_pos rfl, hsv]
              rfl
            rw [hs', hsaved] at hold
            exact Option.some.inj hold
          rw [hsv] at hsave
          have hboth : c.info.written = true ∧ (n + 1) % 256 ≠ 0 := by
            have hor := hsave.symm
            rw [Bool.or_eq_false_iff] at hor
            exact ⟨by simpa using hor.1, by simpa using hor.2⟩
          have hwritten : r.attributes.toNat.testBit 29 = true := (info_written_ram ho hr).symm.trans hboth.1
          obtain ⟨hsw, hle⟩ := hg hcounter r s hr hsaved hwritten
          rw [hkept, hvalue]
          refine ⟨hsw, succ_le_or_255 ?_ hboth.2⟩
          rw [hcount hboth.1, count_ram ho hr]
          exact hle

/-! ### A start -/

/-- A start does not take `WRITTEN` from a counter. -/
theorem written_startup (startup : StartupKind) {a : UInt32} (ha : a.toNat / 16 % 16 = 1) :
    (NvDevice.setStartupAttributes startup a).toNat.testBit 29 = a.toNat.testBit 29 := by
  have hread : (TpmaNv.clear a 28).toNat.testBit 29 = a.toNat.testBit 29 := testBit_clear a (by decide) (by decide) (by decide)
  have hnt : (TpmaNv.clear a 28).toNat / 16 % 16 = 1 :=
    (TpmaNv.nt_of_kind (TpmaNv.kind_clear (by decide))).trans ha
  have hkept : ¬ ((TpmaNv.clear a 28).toNat / 16 % 16 ≠ 1 ∧ ((TpmaNv.clear a 28).toNat.testBit 27 = true ∨
      (TpmaNv.clear a 28).toNat.testBit 26 = true ∧ startup = .reset)) := fun hclear => hclear.1 hnt
  unfold NvDevice.setStartupAttributes
  dsimp only
  rw [if_neg hkept]
  split
  · rw [testBit_clear _ (by decide) (by decide) (by decide)]
    exact hread
  · exact hread

theorem fillCounter_count {r : RamEntry} (hnt : r.attributes.toNat / 16 % 16 = 1) :
    fromBe ((NvDevice.fillCounter r).data.take 8) = fromBe (r.data.take 8) ||| 255 := by
  unfold NvDevice.fillCounter
  rw [if_pos hnt]
  dsimp only
  rw [List.take_left' (be_length 8 _), fromBe_be]
  exact or_255_lt (fromBe_take_lt r.data)

theorem startRam_spec {s : RamEntry} (hnt : s.attributes.toNat / 16 % 16 = 1) (startup : StartupKind) {orderly : Bool}
    (hresume : startup ≠ .reset → orderly = true) :
    (startRam startup orderly s).attributes.toNat.testBit 29 = s.attributes.toNat.testBit 29 ∧
      fromBe ((startRam startup orderly s).data.take 8) =
        if orderly then fromBe (s.data.take 8) else fromBe (s.data.take 8) ||| 255 := by
  have hmapped : ∀ k, (NvDevice.setStartupAttributes k s.attributes).toNat / 16 % 16 = 1 := fun k =>
    (TpmaNv.nt_of_kind (kind_startup k s.attributes)).trans hnt
  have hstart : ∀ k, (if orderly then ({ s with attributes := NvDevice.setStartupAttributes k s.attributes } : RamEntry)
      else NvDevice.fillCounter { s with attributes := NvDevice.setStartupAttributes k s.attributes }).attributes.toNat.testBit 29 =
        s.attributes.toNat.testBit 29 ∧
      fromBe ((if orderly then ({ s with attributes := NvDevice.setStartupAttributes k s.attributes } : RamEntry)
        else NvDevice.fillCounter { s with attributes := NvDevice.setStartupAttributes k s.attributes }).data.take 8) =
        if orderly then fromBe (s.data.take 8) else fromBe (s.data.take 8) ||| 255 := by
    intro k
    cases orderly with
    | true => exact ⟨written_startup k hnt, rfl⟩
    | false =>
        rw [if_neg Bool.false_ne_true, if_neg Bool.false_ne_true, attributes_fillCounter, fillCounter_count (hmapped k)]
        exact ⟨written_startup k hnt, rfl⟩
  cases startup with
  | resume =>
      rw [hresume (fun h => nomatch h)]
      exact ⟨rfl, rfl⟩
  | reset => exact hstart .reset
  | restart => exact hstart .restart

theorem Copy.nt {i : NvIndex} {r : RamEntry} (hcopy : Copy i r) (hcounter : i.isCounter = true) :
    r.attributes.toNat / 16 % 16 = 1 := by
  rw [NvIndex.isCounter_eq, beq_iff_eq] at hcounter
  exact (TpmaNv.nt_of_kind hcopy.kind).trans hcounter

theorem start_advances (hs : c.Sound) (hg : c.Guarded) (hcounter : c.index.isCounter = true) {startup : StartupKind}
    {orderly : Bool} (hresume : startup ≠ .reset → orderly = true)
    (hsync : orderly = true → Option.Rel SameContents c.ram c.saved) : c.Advances (c.start startup orderly) := by
  have hmain : c.info.written = true →
      (c.start startup orderly).info.written = true ∧ c.count ≤ (c.start startup orderly).count := by
    intro hw
    cases ho : c.index.orderly with
    | false =>
        have ho' := (start_orderly (c := c) startup orderly).trans ho
        rw [info_written_inNv ho'] at *
        rw [info_written_inNv ho] at hw
        rw [count_inNv ho, count_inNv ho', start_data]
        refine ⟨?_, Nat.le_refl _⟩
        have hnt : c.index.publicArea.attributes.toNat / 16 % 16 = 1 := by
          rw [NvIndex.isCounter_eq, beq_iff_eq] at hcounter
          exact hcounter
        cases startup with
        | resume => exact hw
        | reset =>
            unfold Cell.start
            dsimp only
            rw [ho]
            exact (written_startup .reset hnt).trans hw
        | restart =>
            unfold Cell.start
            dsimp only
            rw [ho]
            exact (written_startup .restart hnt).trans hw
    | true =>
        obtain ⟨⟨r, hr, -⟩, s, hsaved, hcopy⟩ := hs.orderly ho
        have ho' := (start_orderly (c := c) startup orderly).trans ho
        have hr' : (c.start startup orderly).ram = some (startRam startup orderly s) := by
          rw [start_ram, hsaved]
          rfl
        obtain ⟨hwritten, hvalue⟩ := startRam_spec (hcopy.nt hcounter) startup hresume
        rw [info_written_ram ho hr] at hw
        obtain ⟨hsw, hle⟩ := hg hcounter r s hr hsaved hw
        rw [info_written_ram ho' hr', count_ram ho' hr', count_ram ho hr, hwritten, hvalue]
        refine ⟨hsw, ?_⟩
        cases hord : orderly with
        | true =>
            have hrel := hsync hord
            rw [hr, hsaved] at hrel
            cases hrel with
            | some hsame =>
                rw [if_pos rfl, hsame.data]
        | false =>
            rw [if_neg Bool.false_ne_true]
            exact hle
  exact ⟨start_isCounter startup orderly, fun hw => (hmain hw).1, fun hw => (hmain hw).2⟩

theorem start_guarded (hs : c.Sound) {startup : StartupKind} {orderly : Bool}
    (hresume : startup ≠ .reset → orderly = true) : (c.start startup orderly).Guarded := by
  intro hcounter r' s hr' hsaved hw
  rw [start_isCounter] at hcounter
  rw [start_saved] at hsaved
  have ho : c.index.orderly = true := by
    cases ho : c.index.orderly with
    | true => rfl
    | false =>
        rw [(hs.inNv ho).2] at hsaved
        cases hsaved
  obtain ⟨-, s', hs', hcopy⟩ := hs.orderly ho
  rw [hsaved] at hs'
  cases hs'
  rw [start_ram, hsaved] at hr'
  cases hr'
  obtain ⟨hwritten, hvalue⟩ := startRam_spec (hcopy.nt hcounter) startup hresume
  rw [hwritten] at hw
  refine ⟨hw, ?_⟩
  rw [hvalue]
  split
  · exact le_or_255 _
  · exact Nat.le_refl _

end Cell

namespace NvDevice
variable {d d' : NvDevice} {h : TpmHandle} {c : Cell}

theorem hasCount_iff (hs : d.Sound) {v : Nat} :
    d.HasCount h v ↔ ∃ c, d.cell h = some c ∧ c.index.isCounter = true ∧ c.info.written = true ∧ c.count = v := by
  constructor
  · rintro ⟨i, data, hi, hcounter, hwritten, hv⟩
    obtain ⟨c, hc, rfl, rfl⟩ := index_eq_ok hi
    have hsound := hs.cells h c hc
    rw [hsound.info_isCounter] at hcounter
    exact ⟨c, hc, hcounter, hwritten, (nvGetUint64Data_cell hsound hc hv).symm⟩
  · rintro ⟨c, hc, hcounter, hwritten, rfl⟩
    refine ⟨c.info, c.data, index_of_cell hs hc, ?_, hwritten, count_of_cell hs hc ((hs.cells h c hc).counter hcounter)⟩
    rw [(hs.cells h c hc).info_isCounter]
    exact hcounter

theorem ReadsCount.hasCount (hs : d.Sound) {v : Nat} (hv : d.ReadsCount h v) : d.HasCount h v := by
  obtain ⟨⟨i, data, hi, hcounter⟩, authHandle, value, hread, rfl⟩ := hv
  obtain ⟨i', data', octets, hi', hwritten, hoctets, hvalue⟩ := nvRead_ok hread
  rw [hi] at hi'
  cases hi'
  obtain ⟨c, hc, rfl, rfl⟩ := index_eq_ok hi
  rw [octets_of_cell hs hc] at hoctets
  cases hoctets
  refine (hasCount_iff hs).2 ⟨c, hc, (hs.cells h c hc).info_isCounter.symm.trans hcounter, hwritten, ?_⟩
  rw [hvalue]
  rfl

/-! ## What a command does to the counters -/

/-- Every counter is as it should be, and goes on from where it was. -/
structure Onward (d d' : NvDevice) (p : TpmHandle → Prop) : Prop where
  guarded : ∀ h c', p h → d'.cell h = some c' → c'.Guarded
  advances : ∀ h c, p h → d.cell h = some c → c.index.isCounter = true →
    d'.cell h = none ∨ ∃ c', d'.cell h = some c' ∧ c.Advances c'

def AllGuarded (d : NvDevice) : Prop := ∀ h c, d.cell h = some c → c.Guarded

theorem quietBut_onward (hs : d.Sound) (hg : d.AllGuarded) {p : TpmHandle → Prop} (hq : QuietBut d d' p) :
    Onward d d' fun h => ¬ p h := by
  refine ⟨fun h c' hp hc' => ?_, fun h c hp hc hcounter => ?_⟩
  · rcases hq h hp with ⟨-, hnone⟩ | ⟨c, c'', hc, hc'', hquiet⟩
    · rw [hnone] at hc'
      cases hc'
    · rw [hc''] at hc'
      cases hc'
      exact hquiet.guarded (hg h c hc)
  · rcases hq h hp with ⟨hnone, -⟩ | ⟨c₀, c'', hc₀, hc'', hquiet⟩
    · rw [hnone] at hc
      cases hc
    · rw [hc₀] at hc
      cases hc
      exact .inr ⟨c'', hc'', hquiet.advances (hs.cells h _ hc₀)⟩

theorem onward_of_one (hs : d.Sound) (hg : d.AllGuarded) {h₀ : TpmHandle} (hq : QuietBut d d' fun h => h = h₀)
    (hone : Onward d d' fun h => h = h₀) : Onward d d' fun _ => True := by
  have hother := quietBut_onward hs hg hq
  refine ⟨fun h c' _ hc' => ?_, fun h c _ hc hcounter => ?_⟩
  · by_cases hh : h = h₀
    · exact hone.guarded h c' hh hc'
    · exact hother.guarded h c' hh hc'
  · by_cases hh : h = h₀
    · exact hone.advances h c hh hc hcounter
    · exact hother.advances h c hh hc hcounter

theorem noOverflow_count {authHandle : TpmHandle} (hs : d.Sound) (hc : d.cell h = some c)
    (hcounter : c.index.isCounter = true) (hover : NvCommand.NoOverflow d (.nvIncrement authHandle h)) :
    (if c.info.written then c.count else d.nv.maxCounter) + 1 < 2 ^ 64 := by
  refine hover c.info c.data _ (index_of_cell hs hc) ?_
  unfold countValue
  cases c.info.written with
  | true =>
      rw [if_pos rfl, if_pos rfl]
      exact count_of_cell hs hc ((hs.cells h c hc).counter hcounter)
  | false => rfl

theorem effect_onward {cmd : NvCommand} (hs : d.Sound) (hsync : d.Synced) (hg : d.AllGuarded)
    (hover : cmd.NoOverflow d) (he : NvEffect d cmd d') : Onward d d' fun _ => True := by
  cases he with
  | quiet hq _ _ =>
      have hall := quietBut_onward hs hg hq
      exact ⟨fun h c' _ => hall.guarded h c' id, fun h c _ => hall.advances h c id⟩
  | @wrote _ _ h₀ c offset new hcell _ hcmd hcell' hq _ _ =>
      have hno : c.index.isCounter = false := by
        rcases hcmd with ⟨_, -, hno⟩ | hbits | hextend
        · exact hno
        · rw [NvIndex.isBits, beq_iff_eq] at hbits
          rw [NvIndex.isCounter_eq, hbits]
          rfl
        · rw [NvIndex.isExtend, beq_iff_eq] at hextend
          rw [NvIndex.isCounter_eq, hextend]
          rfl
      refine onward_of_one hs hg hq ⟨?_, ?_⟩
      · rintro h c' rfl hc' hcounter
        rw [hcell'] at hc'
        cases hc'
        rw [Cell.isCounter_write (hs.cells h c hcell), hno] at hcounter
        cases hcounter
      · rintro h c' rfl hc' hcounter
        rw [hcell] at hc'
        cases hc'
        rw [hno] at hcounter
        cases hcounter
  | @counted _ authHandle h₀ c count hcell hcounter hcount hcell' hq _ _ =>
      have hlt := noOverflow_count hs hcell hcounter hover
      have hcount' : count = if c.info.written then c.count else d.nv.maxCounter := hcount
      rw [← hcount'] at hlt
      rw [Nat.mod_eq_of_lt hlt] at hcell'
      have hsound := hs.cells h₀ c hcell
      refine onward_of_one hs hg hq ⟨?_, ?_⟩
      · rintro h c' rfl hc'
        rw [hcell'] at hc'
        cases hc'
        refine Cell.write_guarded hsound (hg h c hcell) hlt (fun hw => ?_) rfl
        rw [hcount', if_pos hw]
      · rintro h c' rfl hc' -
        rw [hcell] at hc'
        cases hc'
        obtain ⟨hwritten, hvalue⟩ := Cell.write_count hsound hlt (!c.info.written || (count + 1) % 256 == 0)
        refine .inr ⟨_, hcell', Cell.isCounter_write hsound _ _ _, fun _ => hwritten, fun hw => ?_⟩
        rw [hvalue, hcount', if_pos hw]
        exact Nat.le_succ _
  | @defined _ _ _ publicInfo _ c hfree hcell hsound hunwritten hsaved hq _ _ =>
      refine onward_of_one hs hg hq ⟨?_, ?_⟩
      · rintro h c' rfl hc' - r s hr hs' hw
        rw [hcell] at hc'
        cases hc'
        have ho : c.index.orderly = true := by
          cases ho : c.index.orderly with
          | true => rfl
          | false =>
              rw [(hsound.inNv ho).1] at hr
              cases hr
        rw [Cell.info_written_ram ho hr, hw] at hunwritten
        cases hunwritten
      · rintro h c' rfl hc'
        rw [hfree] at hc'
        cases hc'
  | @deleted _ _ h₀ c _ _ hcell' _ hq _ _ _ =>
      refine onward_of_one hs hg hq ⟨?_, ?_⟩
      · rintro h c' rfl hc'
        rw [hcell'] at hc'
        cases hc'
      · rintro h c' rfl - -
        exact .inl hcell'
  | @cleared _ _ p hcells hq _ _ _ =>
      have hother := quietBut_onward hs hg hq
      refine ⟨fun h c' _ hc' => ?_, fun h c _ hc hcounter => ?_⟩
      · by_cases hp : p h
        · obtain ⟨c, -, hnone, -⟩ := hcells h hp
          rw [hnone] at hc'
          cases hc'
        · exact hother.guarded h c' hp hc'
      · by_cases hp : p h
        · obtain ⟨c, -, hnone, -⟩ := hcells h hp
          exact .inl hnone
        · exact hother.advances h c hp hc hcounter
  | started kind hkind hcells _ _ _ =>
      refine ⟨fun h c' _ hc' => ?_, fun h c _ hc hcounter => ?_⟩
      · rw [hcells] at hc'
        obtain ⟨c, hc, rfl⟩ := Option.map_eq_some_iff.1 hc'
        exact Cell.start_guarded (hs.cells h c hc) hkind
      · refine .inr ⟨c.start kind d.orderly, ?_, ?_⟩
        · rw [hcells, hc]
          rfl
        · exact Cell.start_advances (hs.cells h c hc) (hg h c hc) hcounter hkind fun ho => hsync ho h c hc

/-- The counters that go away leave their value in `s_maxCounter`, and in the end marker. -/
theorem effect_retires {cmd : NvCommand} (hs : d.Sound) (he : NvEffect d cmd d')
    (hclear : cmd.ClearsNoOrderlyCount d) (hopen : ∀ disableClear, cmd = .clear disableClear → d ≠ d' → d.nv.nvStatus = none ∧ disableClear = false)
    (hc : d.cell h = some c) (hcounter : c.index.isCounter = true)
    (hwritten : c.info.written = true) (hgone : d'.cell h = none) :
    c.count ≤ d'.nv.maxCounter ∧ d'.savedMaxCounter = d'.nv.maxCounter := by
  have hkept : ∀ p : TpmHandle → Prop, QuietBut d d' p → ¬ p h → False := by
    intro p hq hp
    rcases hq h hp with ⟨hnone, -⟩ | ⟨_, c', -, hc', -⟩
    · rw [hnone] at hc
      cases hc
    · rw [hgone] at hc'
      cases hc'
  cases he with
  | quiet hq _ _ => exact (hkept _ hq id).elim
  | @wrote _ _ h₀ c₀ _ _ _ _ _ hcell' hq _ _ =>
      by_cases hh : h = h₀
      · subst hh
        rw [hcell'] at hgone
        cases hgone
      · exact (hkept _ hq hh).elim
  | @counted _ _ h₀ _ _ _ _ _ hcell' hq _ _ =>
      by_cases hh : h = h₀
      · subst hh
        rw [hcell'] at hgone
        cases hgone
      · exact (hkept _ hq hh).elim
  | @defined _ _ _ publicInfo _ _ hfree _ _ _ _ hq _ _ =>
      by_cases hh : h = publicInfo.nvIndex
      · subst hh
        rw [hfree] at hc
        cases hc
      · exact (hkept _ hq hh).elim
  | @deleted _ _ h₀ c₀ hcell _ _ hcount hq _ hend _ =>
      by_cases hh : h = h₀
      · subst hh
        rw [hcell] at hc
        cases hc
        exact ⟨hcount hcounter hwritten, hend⟩
      · exact (hkept _ hq hh).elim
  | @cleared _ disableClear p hcells hq hmax hend _ =>
      by_cases hp : p h
      · obtain ⟨c₀, hc₀, -, hplatform, hcount⟩ := hcells h hp
        rw [hc₀] at hc
        cases hc
        refine ⟨?_, hend ⟨h, hp⟩⟩
        cases ho : c.index.orderly with
        | false => exact hcount hcounter ho hwritten
        | true =>
            -- nothing is taken over here; the value was below already
            have hsound := hs.cells h c hc₀
            have hne : d ≠ d' := by
              rintro rfl
              rw [hc₀] at hgone
              cases hgone
            obtain ⟨hstatus, henabled⟩ := hopen disableClear rfl hne
            have hplatform' : c.info.platformCreate = false :=
              (NvIndex.isAttribute_withAttributes hsound.kind_attributes (by decide)).trans hplatform
            refine Nat.le_trans ?_ hmax.le
            exact hclear hstatus henabled h c.info c.data c.count (index_of_cell hs hc₀)
              (hsound.info_isCounter.trans hcounter) (hsound.info_orderly.trans ho) hplatform' hwritten
              (count_of_cell hs hc₀ (hsound.counter hcounter))
      · exact (hkept _ hq hp).elim
  | started _ _ hcells _ _ _ =>
      rw [hcells, hc] at hgone
      cases hgone

/-- `TPM2_Clear` that does something is one that is let through. -/
theorem clear_open {σ : Type} {codec : HashStateCodec σ} {L : RawLayout} {H : PolicyHash} {cmd : NvCommand}
    {disableClear : Bool} (hcmd : cmd = .clear disableClear) (hne : d ≠ (cmd.act codec L H d).2) :
    d.nv.nvStatus = none ∧ disableClear = false := by
  subst hcmd
  have hact : (NvCommand.act codec L H d (.clear disableClear)).2 = (d.clear disableClear).2 := rfl
  rw [hact] at hne
  unfold clear at hne
  cases hstatus : d.nv.nvStatus with
  | some rc =>
      rw [hstatus] at hne
      exact absurd rfl hne
  | none =>
      cases disableClear with
      | false => exact ⟨rfl, rfl⟩
      | true =>
          rw [hstatus] at hne
          exact absurd rfl hne

end NvDevice

/-! ## Runs -/

namespace CounterRun
variable {σ : Type} {codec : HashStateCodec σ} {L : RawLayout} {H : PolicyHash} {s : CounterRun}

/-- What the runs keep. -/
structure Kept (s : CounterRun) : Prop where
  sound : s.device.Sound
  synced : s.device.Synced
  guarded : s.device.AllGuarded
  seen : ∀ h v, s.seen h v → ∃ c, s.device.cell h = some c ∧ c.index.isCounter = true ∧ c.info.written = true ∧ v ≤ c.count
  retired : ∀ v, s.retired v → v ≤ s.device.nv.maxCounter ∧ v ≤ s.device.savedMaxCounter

theorem Fresh.kept (hf : s.Fresh) : s.Kept := by
  refine ⟨hf.1.sound, hf.1.synced, fun h c hc => ?_, fun h v hv => ?_, fun v hv => ?_⟩
  · rw [hf.1.cell] at hc
    cases hc
  · exact absurd hv (hf.2.1 h v)
  · exact absurd hv (hf.2.2 v)

/-- `s_maxCounter` and its copy in the end marker stay above what they have been above. -/
theorem effect_max {d d' : NvDevice} {cmd : NvCommand} (he : NvEffect d cmd d') {v : Nat}
    (hv : v ≤ d.nv.maxCounter ∧ v ≤ d.savedMaxCounter) : v ≤ d'.nv.maxCounter ∧ v ≤ d'.savedMaxCounter := by
  have hkept : MaxKept d d' → v ≤ d'.nv.maxCounter ∧ v ≤ d'.savedMaxCounter := by
    intro hmax
    refine ⟨Nat.le_trans hv.1 hmax.le, ?_⟩
    rcases hmax.saved with heq | heq
    · rw [heq]
      exact hv.2
    · rw [heq]
      exact Nat.le_trans hv.1 hmax.le
  cases he with
  | quiet _ hmax _ => exact hkept hmax
  | wrote _ _ _ _ _ hmax _ => exact hkept hmax
  | counted _ _ _ _ _ hmax _ => exact hkept hmax
  | defined _ _ _ _ _ _ hmax _ => exact hkept hmax
  | deleted _ _ _ _ _ hmax _ _ => exact hkept hmax
  | cleared _ _ hmax _ _ => exact hkept hmax
  | started _ _ _ hmax hend _ =>
      rw [hmax, hend]
      exact ⟨hv.2, hv.2⟩

theorem Kept.step (hk : s.Kept) {cmd : NvCommand} (hover : cmd.NoOverflow s.device)
    (hclear : cmd.ClearsNoOrderlyCount s.device) : (step codec L H s cmd).Kept := by
  obtain ⟨heffect, -⟩ := NvDevice.act_does hk.sound codec L H cmd
  have hsound := NvDevice.act_sound hk.sound codec L H cmd
  have honward := NvDevice.effect_onward hk.sound hk.synced hk.guarded hover heffect
  refine ⟨hsound, NvDevice.effect_synced hk.sound hk.synced heffect, fun h c hc => honward.guarded h c trivial hc, ?_, ?_⟩
  · rintro h v (⟨hdefined, hold⟩ | hread)
    · obtain ⟨c, hc, hcounter, hwritten, hle⟩ := hk.seen h v hold
      rcases honward.advances h c trivial hc hcounter with hnone | ⟨c', hc', hadvances⟩
      · rw [NvDevice.cell_none_iff.1 hnone] at hdefined
        cases hdefined
      · exact ⟨c', hc', hadvances.counter.trans hcounter, hadvances.written hwritten,
          Nat.le_trans hle (hadvances.count hwritten)⟩
    · obtain ⟨c, hc, hcounter, hwritten, hcount⟩ := (NvDevice.hasCount_iff hsound).1 (hread.hasCount hsound)
      exact ⟨c, hc, hcounter, hwritten, Nat.le_of_eq hcount.symm⟩
  · rintro v (hold | ⟨h, hnone, hseen⟩)
    · exact effect_max heffect (hk.retired v hold)
    · obtain ⟨c, hc, hcounter, hwritten, hle⟩ := hk.seen h v hseen
      obtain ⟨hmax, hend⟩ := NvDevice.effect_retires hk.sound heffect hclear
        (fun disableClear hcmd hne => NvDevice.clear_open hcmd hne) hc hcounter hwritten (NvDevice.cell_none_iff.2 hnone)
      refine ⟨Nat.le_trans hle hmax, ?_⟩
      have hmarker : (CounterRun.step codec L H s cmd).device.savedMaxCounter =
          (CounterRun.step codec L H s cmd).device.nv.maxCounter := hend
      rw [hmarker]
      exact Nat.le_trans hle hmax

theorem Kept.forward (hk : s.Kept) : s.Forward := by
  refine ⟨fun h v w hseen hread => ?_, fun authHandle h v w hover hnever hok hcount hretired => ?_⟩
  · obtain ⟨c, hc, -, -, hle⟩ := hk.seen h v hseen
    obtain ⟨c', hc', -, -, hw⟩ := (NvDevice.hasCount_iff hk.sound).1 (hread.hasCount hk.sound)
    rw [hc] at hc'
    cases hc'
    exact hw ▸ hle
  · obtain ⟨i, data, hi, hcounter, hunwritten⟩ := hnever
    obtain ⟨c, hc, rfl, rfl⟩ := NvDevice.index_eq_ok hi
    have hsound := hk.sound.cells h c hc
    rcases NvDevice.nvIncrement_cases hk.sound authHandle (h := h) with ⟨-, e, herr⟩ | ⟨c', count, hcounted⟩
    · rw [hok] at herr
      cases herr
    · have hc' := hcounted.before
      rw [hc] at hc'
      cases hc'
      have hlt := NvDevice.noOverflow_count hk.sound hc hcounted.counter hover
      have hfirst := hcounted.start
      rw [hunwritten, if_neg Bool.false_ne_true] at hlt hfirst
      have hafter := hcounted.after
      rw [hfirst, Nat.mod_eq_of_lt hlt] at hafter
      have hdoes := NvDevice.nvIncrement_does hk.sound authHandle (h := h)
      have hsound' : (s.device.nvIncrement authHandle h).2.Sound :=
        ⟨hdoes.2, fun h' c' hc' => NvDevice.effect_sound hk.sound hdoes.1 h' c' hc'⟩
      obtain ⟨c'', hc'', -, -, hw⟩ := (NvDevice.hasCount_iff hsound').1 hcount
      have hvalue := (Cell.write_count hsound hlt (!c.info.written || (s.device.nv.maxCounter + 1) % 256 == 0)).2
      rw [hafter] at hc''
      cases hc''
      rw [hvalue] at hw
      rw [← hw]
      exact Nat.lt_succ_of_le (hk.retired v hretired).1

/-- Counters never repeat or fall in a run that clears no orderly counter above `s_maxCounter`. -/
theorem forward_of_run
    (hs : Reachable Fresh
      (fun s s' => ∃ cmd : NvCommand, cmd.NoOverflow s.device ∧ cmd.ClearsNoOrderlyCount s.device ∧
        s' = step codec L H s cmd) s) : s.Forward := by
  have hkept : s.Kept := by
    refine hs.invariant (fun s hf => hf.kept) ?_
    rintro s s' hk ⟨cmd, hover, hclear, rfl⟩
    exact hk.step hover hclear
  exact hkept.forward

end CounterRun

/-! ### The counter that comes back -/

def counterHandle : TpmHandle := 0x01000000

/-- An orderly counter that the owner reads and counts. -/
def orderlyCounter : NvPublic where
  nvIndex := counterHandle
  nameAlg := .sha256
  attributes := 0x04020012
  authPolicy := .ofBytes []
  dataSize := 8

def defineCounter : NvCommand := .nvDefineSpace .rhOwner (.ofBytes []) orderlyCounter []

def countUp : NvCommand := .nvIncrement .rhOwner counterHandle

def zeroHash : PolicyHash := ⟨fun alg _ => List.replicate alg.digestSize 0, zeroDigest_length⟩

/-- The counter after `n` counts, of which the first has been saved. -/
def countedDevice (n : Nat) : NvDevice where
  nv :=
    { user := [.index ⟨orderlyCounter, .ofBytes []⟩ []]
      ram := [⟨counterHandle, 0x24020012, be 8 n⟩] }
  savedRam := [⟨counterHandle, 0x24020012, be 8 1⟩]

def newDevice : NvDevice where
  nv :=
    { user := [.index ⟨orderlyCounter, .ofBytes []⟩ []]
      ram := [⟨counterHandle, 0x04020012, be 8 0⟩] }
  savedRam := [⟨counterHandle, 0x04020012, be 8 0⟩]

def counterRun (cmds : List NvCommand) : CounterRun :=
  run (CounterRun.step noHashStates zeroLayout zeroHash) ⟨{}, fun _ _ => False, fun _ => False⟩ cmds

theorem counterRun_twice : (counterRun [defineCounter, countUp, countUp]).device = countedDevice 2 := rfl

theorem noOverflow_countUp {d : NvDevice} {i : NvIndex} {data : Bytes} {n : Nat}
    (hi : d.index counterHandle = .ok (i, data)) (hn : d.countValue i data = .ok n) (hlt : n + 1 < 2 ^ 64) :
    countUp.NoOverflow d := by
  intro j data' v hj hv
  rw [hi] at hj
  cases hj
  rw [hn] at hv
  cases hv
  exact hlt

theorem noOverflow_first : countUp.NoOverflow newDevice := noOverflow_countUp rfl rfl (by decide)

theorem noOverflow_second : countUp.NoOverflow (countedDevice 1) := noOverflow_countUp rfl rfl (by decide)

theorem seen_twice : (counterRun [defineCounter, countUp, countUp]).seen counterHandle 2 :=
  .inr ⟨⟨_, _, rfl, rfl⟩, .rhOwner, be 8 2, rfl, rfl⟩

/-- The flush finds the copy of the attributes that does not say `WRITTEN`. -/
theorem flush_countedDevice : nvFlushHierarchy .owner (countedDevice 2).nv = .ok {} := by
  unfold nvFlushHierarchy RestartScan.scan
  rw [RestartScan.scanFrom_step (flushScan .owner) (e := .index ⟨orderlyCounter, .ofBytes []⟩ []) rfl]
  have hbody : (flushScan .owner).body (countedDevice 2).nv 0 (.index ⟨orderlyCounter, .ofBytes []⟩ []) = .ok (some {}) :=
    rfl
  rw [hbody]
  exact RestartScan.scanFrom_last _ rfl

theorem clear_countedDevice : ((countedDevice 2).clear false).2 = {} := by
  have hflush : (nvFlushHierarchy .owner (countedDevice 2).nv >>= nvFlushHierarchy .endorsement) = .ok {} := by
    rw [flush_countedDevice]
    exact RestartScan.scanFrom_last _ rfl
  have hstatus : (countedDevice 2).nv.nvStatus = none := rfl
  unfold NvDevice.clear
  rw [hstatus, hflush]
  rfl

theorem counterRun_cleared : (counterRun [defineCounter, countUp, countUp, .clear false]).device = {} := by
  rw [← clear_countedDevice, ← counterRun_twice]
  rfl

theorem counterRun_redefined :
    (counterRun [defineCounter, countUp, countUp, .clear false, defineCounter]).device = newDevice := by
  have hstep : (counterRun [defineCounter, countUp, countUp, .clear false, defineCounter]).device =
      (defineCounter.act noHashStates zeroLayout zeroHash
        (counterRun [defineCounter, countUp, countUp, .clear false]).device).2 := rfl
  rw [hstep, counterRun_cleared]
  rfl

/-- After two counts and `TPM2_Clear` a new counter counts from one again, though two could be read. -/
theorem counter_repeats :
    Reachable CounterRun.Fresh
        (fun s s' => ∃ cmd : NvCommand, cmd.NoOverflow s.device ∧ s' = CounterRun.step noHashStates zeroLayout zeroHash s cmd)
        (counterRun [defineCounter, countUp, countUp, .clear false, defineCounter]) ∧
      ¬ (counterRun [defineCounter, countUp, countUp, .clear false, defineCounter]).Forward := by
  constructor
  · have h₀ : Reachable CounterRun.Fresh
        (fun s s' => ∃ cmd : NvCommand, cmd.NoOverflow s.device ∧ s' = CounterRun.step noHashStates zeroLayout zeroHash s cmd)
        (counterRun []) := .init ⟨⟨rfl, rfl, rfl⟩, fun _ _ => id, fun _ => id⟩
    have h₁ := h₀.step ⟨defineCounter, trivial, rfl⟩
    have h₂ := h₁.step ⟨countUp, noOverflow_first, rfl⟩
    have h₃ := h₂.step ⟨countUp, noOverflow_second, rfl⟩
    have h₄ := h₃.step ⟨.clear false, trivial, rfl⟩
    exact h₄.step ⟨defineCounter, trivial, rfl⟩
  · intro hforward
    have hretired : (counterRun [defineCounter, countUp, countUp, .clear false, defineCounter]).retired 2 := by
      have hgone : (counterRun [defineCounter, countUp, countUp, .clear false]).device.nv.findIndex counterHandle = none := by
        rw [counterRun_cleared]
        rfl
      exact .inl (.inr ⟨counterHandle, hgone, seen_twice⟩)
    have hfresh := hforward.fresh .rhOwner counterHandle 2 1
    rw [counterRun_redefined] at hfresh
    have hlt := hfresh noOverflow_first ⟨_, _, rfl, rfl, rfl⟩ rfl ⟨_, _, rfl, rfl, rfl, rfl⟩ hretired
    exact absurd hlt (by decide)

/-- With `TPM2_NV_UndefineSpace` in its place the next counter goes on. -/
theorem forward_after_undefine :
    (counterRun [defineCounter, countUp, countUp, .nvUndefineSpace .rhOwner counterHandle, defineCounter]).Forward := by
  have h₀ : Reachable CounterRun.Fresh
      (fun s s' => ∃ cmd : NvCommand, cmd.NoOverflow s.device ∧ cmd.ClearsNoOrderlyCount s.device ∧
        s' = CounterRun.step noHashStates zeroLayout zeroHash s cmd)
      (counterRun []) := .init ⟨⟨rfl, rfl, rfl⟩, fun _ _ => id, fun _ => id⟩
  have h₁ := h₀.step ⟨defineCounter, trivial, trivial, rfl⟩
  have h₂ := h₁.step ⟨countUp, noOverflow_first, trivial, rfl⟩
  have h₃ := h₂.step ⟨countUp, noOverflow_second, trivial, rfl⟩
  have h₄ := h₃.step ⟨.nvUndefineSpace .rhOwner counterHandle, trivial, trivial, rfl⟩
  exact CounterRun.forward_of_run (h₄.step ⟨defineCounter, trivial, trivial, rfl⟩)

end PqcTpm
