import PqcTpm.DictionaryAttack
import PqcTpm.NvValues

/-!
# PIN indices

An index of type `PIN_PASS` or `PIN_FAIL` lets its authorization value be used as long as its
count is below its limit. `IsAuthValueAvailable` looks at the two, `CheckAuthSession` counts
after the comparison. A policy session goes past the first, and a count that NV does not take
is lost.
-/
namespace PqcTpm
open ByteCodec Transition

variable {σ : Type} {W : AuthWorld}

/-! ## What is asked of an authorization -/

/-- A PIN index that has been written, as `NvGetIndexInfo` gives it, with its two counters. -/
def NvState.writtenPin (nv : NvState) (h : TpmHandle) : Option (NvIndex × Pin) :=
  if h.getType = TpmHandle.htNvIndex then
    match nv.indexInfo h, nv.getUint64 h with
    | .ok i, .ok v => if i.isPin && i.written then some (i, Pin.ofUint64 v) else none
    | _, _ => none
  else none

/-- The count after a comparison: `PIN_FAIL` counts failures up to a success, `PIN_PASS` counts successes. -/
def Pin.next (pin : Pin) (i : NvIndex) (genuine : Bool) : Nat :=
  if i.isPinFail then if genuine then 0 else pin.count + 1
  else if genuine then pin.count + 1 else pin.count

namespace Evaluation

/-- Success depends on the authorization value: with a password, any HMAC, and a policy that asks for one. -/
def usesAuthValue (e : Evaluation σ) : Bool :=
  match e.session with
  | none => true
  | some x => !e.use.isPolicy || (x.attributes.isAuthValueNeeded || x.attributes.isPasswordNeeded)

/-- The comparison is made below the limit, and counted. -/
def PinCounted (e : Evaluation σ) : Prop :=
  ∀ i pin, e.before.nv.writtenPin e.handle = some (i, pin) → e.usesAuthValue = true →
    pin.count < pin.limit ∧
      e.outcome.2.nv.writtenPin e.handle = some (i, ⟨pin.next i e.use.genuine, pin.limit⟩)

/-- No policy session is used at the limit; and where the count has to change, the session is not one that
`IsSessionBindEntity` takes for bound to the index, and what holds the count can be written. -/
def PinGuarded (W : AuthWorld) (e : Evaluation σ) : Prop :=
  ∀ i pin, e.before.nv.writtenPin e.handle = some (i, pin) → e.usesAuthValue = true →
    (e.use.isPolicy = true → pin.count < pin.limit) ∧
      (pin.next i e.use.genuine ≠ pin.count →
        (e.use.isPolicy = false → ∀ x, e.session = some x → AuthState.isSessionBindEntity W e.handle x = false) ∧
          (i.orderly = true ∨ e.before.nv.nvStatus = none))

end Evaluation

/-! ## PIN indices as cells -/

namespace NvIndex

theorem isPin_iff (i : NvIndex) : i.isPin = true ↔ i.nt = 8 ∨ i.nt = 9 := by
  unfold isPin isPinFail isPinPass
  rw [Bool.or_eq_true, beq_iff_eq, beq_iff_eq]

theorem isPinFail_of_kind {i j : NvIndex} (h : TpmaNv.kind i.publicArea.attributes = TpmaNv.kind j.publicArea.attributes) :
    i.isPinFail = j.isPinFail := by
  have hnt : i.nt = j.nt := TpmaNv.nt_of_kind h
  unfold isPinFail
  rw [hnt]

theorem isPin_of_kind {i j : NvIndex} (h : TpmaNv.kind i.publicArea.attributes = TpmaNv.kind j.publicArea.attributes) :
    i.isPin = j.isPin := by
  have hnt : i.nt = j.nt := TpmaNv.nt_of_kind h
  unfold isPin isPinFail isPinPass
  rw [hnt]

end NvIndex

namespace NvDevice
variable {d d' : NvDevice} {h : TpmHandle} {c : Cell}

theorem getUint64_of_cell (hs : d.Sound) (hc : d.cell h = some c) (hsize : c.index.publicArea.dataSize = 8) :
    d.nv.getUint64 h = .ok c.count := by
  have hvalue := count_of_cell hs hc hsize
  obtain ⟨hfind, -, -, -⟩ := cell_eq_some hc
  unfold NvState.getUint64
  rw [hfind]
  dsimp only
  unfold nvGetUint64Data at hvalue ⊢
  rw [(hs.cells h c hc).info_orderly] at hvalue
  exact hvalue

theorem indexInfo_of_cell (hs : d.Sound) (hc : d.cell h = some c) : d.nv.indexInfo h = .ok c.info := by
  have hindex := index_of_cell hs hc
  unfold index at hindex
  obtain ⟨i, hi, hindex⟩ := bind_eq_ok hindex
  obtain ⟨hfind, -, -, -⟩ := cell_eq_some hc
  rw [hfind] at hindex
  cases hindex
  exact hi

theorem cell_of_indexInfo {i : NvIndex} (hi : d.nv.indexInfo h = .ok i) : ∃ c, d.cell h = some c ∧ i = c.info := by
  have hfound : ∃ p, d.nv.findIndex h = some p := by
    cases hfind : d.nv.findIndex h with
    | some p => exact ⟨p, rfl⟩
    | none =>
        unfold NvState.indexInfo NvState.getIndexInfo at hi
        rw [hfind] at hi
        cases hi
  obtain ⟨p, hp⟩ := hfound
  have hindex : d.index h = .ok (i, p.2) := by
    unfold index
    rw [hi, hp]
    rfl
  obtain ⟨c, hc, hinfo, -⟩ := index_eq_ok hindex
  exact ⟨c, hc, hinfo⟩

theorem writtenPin_iff (hs : d.Sound) {i : NvIndex} {pin : Pin} :
    d.nv.writtenPin h = some (i, pin) ↔ h.getType = TpmHandle.htNvIndex ∧
      ∃ c, d.cell h = some c ∧ i = c.info ∧ c.index.isPin = true ∧ c.info.written = true ∧ pin = Pin.ofUint64 c.count := by
  have hkind : ∀ c, d.cell h = some c → c.info.isPin = c.index.isPin := fun c hc =>
    NvIndex.isPin_of_kind (hs.cells h c hc).kind_attributes
  unfold NvState.writtenPin
  constructor
  · intro hpin
    split at hpin
    · rename_i htype
      split at hpin
      · rename_i i' v hi hv
        split at hpin
        · rename_i hboth
          cases hpin
          rw [Bool.and_eq_true] at hboth
          obtain ⟨c, hc, rfl⟩ := cell_of_indexInfo hi
          have hisPin := (hkind c hc).symm.trans hboth.1
          rw [getUint64_of_cell hs hc ((hs.cells h c hc).pin hisPin).1] at hv
          cases hv
          exact ⟨htype, c, hc, rfl, hisPin, hboth.2, rfl⟩
        · cases hpin
      · cases hpin
    · cases hpin
  · rintro ⟨htype, c, hc, rfl, hisPin, hwritten, rfl⟩
    rw [if_pos htype, indexInfo_of_cell hs hc, getUint64_of_cell hs hc ((hs.cells h c hc).pin hisPin).1]
    dsimp only
    rw [hkind c hc, hisPin, hwritten]
    rfl

/-- The area with another count. -/
def withCount (d : NvDevice) (h : TpmHandle) (v : Nat) (orderly : Bool) : NvDevice :=
  { d with nv := d.nv.writeUint64 h v, orderly := d.orderly && !orderly }

theorem writeRam_written (hwritten : c.info.written = true) (v : Nat) :
    writeRam c 0 (be 8 v) = fun r => { r with data := be 8 v ++ r.data.drop 8 } := by
  funext r
  unfold writeRam splice
  rw [hwritten, be_length]
  rfl

theorem writeUint64_written (hs : d.Sound) (hc : d.cell h = some c) (hwritten : c.info.written = true)
    (hopen : c.index.orderly = true ∨ d.nv.nvStatus = none) (v : Nat) :
    Written d (d.withCount h v c.index.orderly) h c 0 (be 8 v) false := by
  obtain ⟨hfind, -, -, -⟩ := cell_eq_some hc
  cases ho : c.index.orderly with
  | true =>
      have hw := written_ram hs hc ho 0 (be 8 v) false
      rw [if_neg Bool.false_ne_true] at hw
      have hsame : d.withCount h v true = { d.mapRam h (writeRam c 0 (be 8 v)) with orderly := false } := by
        unfold withCount NvState.writeUint64
        rw [hfind]
        dsimp only
        rw [if_pos ho, writeRam_written hwritten]
        unfold mapRam
        simp
      rw [hsame]
      exact hw
  | false =>
      have havailable : d.nv.nvStatus = none := hopen.resolve_left (by simp [ho])
      have hsplice : (fun (j : NvIndex) (data : Bytes) => (j, splice data 0 (be 8 v))) =
          fun j data => (j, be 8 v ++ data.drop 8) := by
        funext j data
        rw [splice, be_length, List.take_zero, List.nil_append, Nat.zero_add]
      have hsame : d.withCount h v false = d.mapIndex h fun j data => (j, splice data 0 (be 8 v)) := by
        unfold withCount NvState.writeUint64
        rw [hfind]
        dsimp only
        rw [if_neg (by simp [ho]), if_neg (by simp [havailable]), hsplice, Bool.not_false, Bool.and_true]
        rfl
      rw [hsame]
      refine ⟨hs.toLists.mapIndex fun _ _ => rfl, ?_, quietBut_of_eq fun h' hne => ?_, rfl, rfl, ?_⟩
      · rw [cell_mapIndex fun _ _ => rfl, if_pos rfl, hc]
        unfold Cell.write
        simp [ho, hwritten]
      · rw [cell_mapIndex fun _ _ => rfl, if_neg hne]
      · simp [ho, NvDevice.mapIndex]

theorem writeUint64_unavailable (hc : d.cell h = some c) (ho : c.index.orderly = false)
    (hstatus : d.nv.nvStatus ≠ none) (v : Nat) : d.nv.writeUint64 h v = d.nv := by
  obtain ⟨hfind, -, -, -⟩ := cell_eq_some hc
  unfold NvState.writeUint64
  rw [hfind]
  dsimp only
  rw [if_neg (by simp [ho]), if_pos (Option.isSome_iff_ne_none.2 hstatus)]

/-- What an index counts is what it counted before. -/
def PinKept (d d' : NvDevice) (h : TpmHandle) : Prop :=
  ∀ i' pin, d'.nv.writtenPin h = some (i', pin) →
    ∃ i, d.nv.writtenPin h = some (i, pin) ∧ i.isPinFail = i'.isPinFail

theorem PinKept.of_cell (hs : d.Sound) (hs' : d'.Sound)
    (hcell : ∀ c', d'.cell h = some c' → c'.index.isPin = true → c'.info.written = true →
      ∃ c, d.cell h = some c ∧ c.info.written = true ∧ c.count = c'.count ∧
        TpmaNv.kind c'.index.publicArea.attributes = TpmaNv.kind c.index.publicArea.attributes) : PinKept d d' h := by
  intro i' pin hpin
  obtain ⟨htype, c', hc', rfl, hisPin, hwritten, rfl⟩ := (writtenPin_iff hs').1 hpin
  obtain ⟨c, hc, hwritten', hcount, hkind⟩ := hcell c' hc' hisPin hwritten
  refine ⟨c.info, (writtenPin_iff hs).2 ⟨htype, c, hc, rfl, ?_, hwritten', ?_⟩, ?_⟩
  · exact (NvIndex.isPin_of_kind hkind).symm.trans hisPin
  · rw [hcount]
  · refine NvIndex.isPinFail_of_kind ?_
    have hinfo : TpmaNv.kind c.info.publicArea.attributes = TpmaNv.kind c.index.publicArea.attributes :=
      (hs.cells h c hc).kind_attributes
    have hinfo' : TpmaNv.kind c'.info.publicArea.attributes = TpmaNv.kind c'.index.publicArea.attributes :=
      (hs'.cells h c' hc').kind_attributes
    rw [hinfo, hinfo', hkind]

theorem quietBut_pinKept (hs : d.Sound) (hs' : d'.Sound) {p : TpmHandle → Prop} (hq : QuietBut d d' p) (hp : ¬ p h) :
    PinKept d d' h := by
  refine .of_cell hs hs' fun c' hc' _ hwritten => ?_
  rcases hq h hp with ⟨-, hnone⟩ | ⟨c, c'', hc, hc'', hquiet⟩
  · rw [hnone] at hc'
    cases hc'
  · rw [hc''] at hc'
    cases hc'
    obtain ⟨hsame, hoctets⟩ := hquiet.same (hs.cells h c hc)
    refine ⟨c, hc, hsame.symm.trans hwritten, ?_, hquiet.kind⟩
    unfold Cell.count
    rw [hoctets]

/-! ### A start -/

end NvDevice

namespace Cell
variable {c : Cell}

theorem testBit_clear_self (a : UInt32) {bit : Nat} (hbit : bit < 32) :
    (TpmaNv.clear a bit).toNat.testBit bit = false := by
  unfold TpmaNv.clear
  have hof : (UInt32.ofNat (2 ^ bit)).toNat = 2 ^ bit := by
    rw [UInt32.toNat_ofNat', Nat.mod_eq_of_lt (Nat.pow_lt_pow_right (by decide) hbit)]
  have hnot : (~~~UInt32.ofNat (2 ^ bit)).toNat = 2 ^ 32 - (2 ^ bit + 1) := by
    rw [UInt32.toNat_not, hof]
    have hsize : UInt32.size = 2 ^ 32 := rfl
    rw [hsize]
    omega
  rw [UInt32.toNat_and, Nat.testBit_and, hnot, Nat.testBit_two_pow_sub_succ (Nat.pow_lt_pow_right (by decide) hbit),
    Nat.testBit_two_pow]
  simp

/-- A start sets `WRITTEN` on nothing. -/
theorem written_of_startup {startup : StartupKind} {a : UInt32}
    (hw : (NvDevice.setStartupAttributes startup a).toNat.testBit 29 = true) : a.toNat.testBit 29 = true := by
  have hread : (TpmaNv.clear a 28).toNat.testBit 29 = a.toNat.testBit 29 :=
    testBit_clear a (by decide) (by decide) (by decide)
  have hwrite : ∀ b : UInt32, (TpmaNv.clear b 11).toNat.testBit 29 = b.toNat.testBit 29 := fun b =>
    testBit_clear b (by decide) (by decide) (by decide)
  have hcleared : (TpmaNv.clear (TpmaNv.clear a 28) 29).toNat.testBit 29 = false := testBit_clear_self _ (by decide)
  rw [← hread]
  unfold NvDevice.setStartupAttributes at hw
  dsimp only at hw
  split at hw
  · split at hw
    · rw [hwrite, hcleared] at hw
      cases hw
    · rw [hcleared] at hw
      cases hw
  · split at hw
    · rw [hwrite] at hw
      exact hw
    · exact hw

theorem unwritten_of_reset {a : UInt32} (hnt : a.toNat / 16 % 16 ≠ 1) (ho : a.toNat.testBit 26 = true) :
    (NvDevice.setStartupAttributes .reset a).toNat.testBit 29 = false := by
  have hwrite : ∀ b : UInt32, (TpmaNv.clear b 11).toNat.testBit 29 = b.toNat.testBit 29 := fun b =>
    testBit_clear b (by decide) (by decide) (by decide)
  have hcleared : (TpmaNv.clear (TpmaNv.clear a 28) 29).toNat.testBit 29 = false := testBit_clear_self _ (by decide)
  have hkind : TpmaNv.kind (TpmaNv.clear a 28) = TpmaNv.kind a := TpmaNv.kind_clear (by decide)
  have hcond : (TpmaNv.clear a 28).toNat / 16 % 16 ≠ 1 ∧ ((TpmaNv.clear a 28).toNat.testBit 27 = true ∨
      (TpmaNv.clear a 28).toNat.testBit 26 = true ∧ StartupKind.reset = .reset) := by
    have horderly : (TpmaNv.clear a 28).toNat.testBit 26 = a.toNat.testBit 26 := TpmaNv.testBit_of_kind hkind (by decide)
    rw [TpmaNv.nt_of_kind hkind, horderly]
    exact ⟨hnt, .inr ⟨ho, rfl⟩⟩
  unfold NvDevice.setStartupAttributes
  dsimp only
  rw [if_pos hcond]
  split
  · rw [hwrite]
    exact hcleared
  · exact hcleared

theorem start_pin (hs : c.Sound) {startup : StartupKind} {orderly : Bool} (hresume : startup ≠ .reset → orderly = true)
    (hsync : orderly = true → Option.Rel SameContents c.ram c.saved) (hpin : c.index.isPin = true)
    (hw : (c.start startup orderly).info.written = true) :
    c.info.written = true ∧ c.count = (c.start startup orderly).count := by
  have ho' := start_orderly (c := c) startup orderly
  cases ho : c.index.orderly with
  | false =>
      rw [ho] at ho'
      rw [info_written_inNv ho'] at hw
      rw [info_written_inNv ho, count_inNv ho, count_inNv ho', start_data]
      refine ⟨?_, rfl⟩
      cases startup with
      | resume => exact hw
      | reset =>
          unfold Cell.start at hw
          dsimp only at hw
          rw [ho] at hw
          exact written_of_startup hw
      | restart =>
          unfold Cell.start at hw
          dsimp only at hw
          rw [ho] at hw
          exact written_of_startup hw
  | true =>
      rw [ho] at ho'
      obtain ⟨⟨r, hr, -⟩, s, hsaved, hcopy⟩ := hs.orderly ho
      have hr' : (c.start startup orderly).ram = some (startRam startup orderly s) := by
        rw [start_ram, hsaved]
        rfl
      rw [info_written_ram ho' hr'] at hw
      rw [info_written_ram ho hr, count_ram ho hr, count_ram ho' hr']
      -- a reset takes `WRITTEN` away, and anything else follows an orderly shutdown
      have hnt : s.attributes.toNat / 16 % 16 ≠ 1 := by
        have hsame : s.attributes.toNat / 16 % 16 = c.index.nt := TpmaNv.nt_of_kind hcopy.kind
        rw [hsame]
        rcases (NvIndex.isPin_iff c.index).1 hpin with h8 | h9
        · rw [h8]
          decide
        · rw [h9]
          decide
      have hreset : startup ≠ .reset := by
        rintro rfl
        have hbit : s.attributes.toNat.testBit 26 = true :=
          (TpmaNv.testBit_of_kind hcopy.kind (by decide)).trans ho
        unfold startRam at hw
        dsimp only at hw
        have hunwritten := unwritten_of_reset hnt hbit
        split at hw
        · rw [hunwritten] at hw
          cases hw
        · rw [attributes_fillCounter, hunwritten] at hw
          cases hw
      have hord := hresume hreset
      have hrel := hsync hord
      rw [hr, hsaved] at hrel
      cases hrel with
      | some hsame =>
          cases startup with
          | resume => exact ⟨hsame.written.symm.trans hw, by rw [← hsame.data]; rfl⟩
          | reset => exact absurd rfl hreset
          | restart =>
              unfold startRam at hw ⊢
              dsimp only at hw ⊢
              rw [hord, if_pos rfl] at hw ⊢
              exact ⟨hsame.written.symm.trans (written_of_startup hw), by rw [← hsame.data]⟩

end Cell

namespace NvDevice
variable {d d' : NvDevice} {h : TpmHandle} {c : Cell}

/-- Only `TPM2_NV_Write` changes what a PIN index counts. -/
theorem effect_pinKept {cmd : NvCommand} (hs : d.Sound) (hs' : d'.Sound) (hsync : d.Synced) (he : NvEffect d cmd d') :
    (∃ auth offset new, cmd = .nvWrite auth h offset new) ∨ PinKept d d' h := by
  cases he with
  | quiet hq _ _ => exact .inr (quietBut_pinKept hs hs' hq id)
  | @wrote _ _ h₀ c offset new hcell _ hcmd hcell' hq _ _ =>
      by_cases hh : h = h₀
      · subst hh
        rcases hcmd with ⟨auth, rfl, -⟩ | hcmd
        · exact .inl ⟨auth, offset, new, rfl⟩
        · refine .inr (.of_cell hs hs' fun c' hc' hpin _ => ?_)
          rw [hcell'] at hc'
          cases hc'
          have hkind : TpmaNv.kind (c.write offset new false).index.publicArea.attributes =
              TpmaNv.kind c.index.publicArea.attributes := Cell.kind_write (hs.cells h c hcell) offset new false
          have hnt : (c.write offset new false).index.nt = c.index.nt := TpmaNv.nt_of_kind hkind
          rw [NvIndex.isPin_iff, hnt] at hpin
          rw [NvIndex.isBits, NvIndex.isExtend, beq_iff_eq, beq_iff_eq] at hcmd
          omega
      · exact .inr (quietBut_pinKept hs hs' hq hh)
  | @counted _ _ h₀ c _ hcell hcounter _ hcell' hq _ _ =>
      by_cases hh : h = h₀
      · subst hh
        refine .inr (.of_cell hs hs' fun c' hc' hpin _ => ?_)
        have hnt : c'.index.isCounter = true := by
          rw [hcell'] at hc'
          cases hc'
          rw [Cell.isCounter_write (hs.cells h c hcell)]
          exact hcounter
        rw [NvIndex.isCounter_eq, beq_iff_eq] at hnt
        rw [NvIndex.isPin_iff] at hpin
        omega
      · exact .inr (quietBut_pinKept hs hs' hq hh)
  | @defined _ _ _ publicInfo _ c _ hcell _ hunwritten _ hq _ _ =>
      by_cases hh : h = publicInfo.nvIndex
      · subst hh
        refine .inr (.of_cell hs hs' fun c' hc' _ hwritten => ?_)
        rw [hcell] at hc'
        cases hc'
        rw [hunwritten] at hwritten
        cases hwritten
      · exact .inr (quietBut_pinKept hs hs' hq hh)
  | @deleted _ _ h₀ c _ _ hcell' _ hq _ _ _ =>
      by_cases hh : h = h₀
      · subst hh
        refine .inr (.of_cell hs hs' fun c' hc' _ _ => ?_)
        rw [hcell'] at hc'
        cases hc'
      · exact .inr (quietBut_pinKept hs hs' hq hh)
  | @cleared _ _ p hcells hq _ _ _ =>
      by_cases hp : p h
      · refine .inr (.of_cell hs hs' fun c' hc' _ _ => ?_)
        obtain ⟨c, -, hnone, -⟩ := hcells h hp
        rw [hnone] at hc'
        cases hc'
      · exact .inr (quietBut_pinKept hs hs' hq hp)
  | started kind hkind hcells _ _ _ =>
      refine .inr (.of_cell hs hs' fun c' hc' hpin hwritten => ?_)
      rw [hcells] at hc'
      obtain ⟨c, hc, rfl⟩ := Option.map_eq_some_iff.1 hc'
      have hkind' := Cell.start_kind (c := c) kind d.orderly
      have hpin' : c.index.isPin = true := (NvIndex.isPin_of_kind hkind').symm.trans hpin
      obtain ⟨hw, hcount⟩ := Cell.start_pin (hs.cells h c hc) hkind (fun ho => hsync ho h c hc) hpin' hwritten
      exact ⟨c, hc, hw, hcount, hkind'⟩

theorem Written.sound {offset : Nat} {new : Bytes} {save : Bool} (hs : d.Sound) (hc : d.cell h = some c)
    (hw : Written d d' h c offset new save) (hlen : offset + new.length ≤ c.index.publicArea.dataSize) : d'.Sound := by
  refine ⟨hw.lists, fun h' c' hc' => ?_⟩
  by_cases hh : h' = h
  · subst hh
    rw [hw.cell] at hc'
    cases hc'
    exact (hs.cells h' c hc).write save hlen
  · exact quietBut_sound hs hw.quiet hh hc'

end NvDevice

namespace Cell
variable {c : Cell}

theorem write_info (hs : c.Sound) (hwritten : c.info.written = true) (offset : Nat) (new : Bytes) (save : Bool) :
    (c.write offset new save).info = c.info := by
  unfold info attributes Cell.write
  cases ho : c.index.orderly with
  | true =>
      obtain ⟨⟨r, hr, -⟩, -⟩ := hs.orderly ho
      rw [if_pos rfl, hr, hwritten]
      dsimp only
      rw [ho]
      rfl
  | false =>
      rw [if_neg Bool.false_ne_true, hwritten]
      dsimp only
      rw [if_pos rfl, ho]

end Cell

/-! ## One comparison -/

theorem Pin.ofUint64_toUint64 {count limit : Nat} (hcount : count < 2 ^ 32) (hlimit : limit < 2 ^ 32) :
    Pin.ofUint64 (Pin.toUint64 ⟨count, limit⟩) = ⟨count, limit⟩ := by
  unfold Pin.ofUint64 Pin.toUint64
  dsimp only
  rw [Nat.mod_eq_of_lt hcount, Nat.mod_eq_of_lt hlimit]
  have hdiv : (count * 2 ^ 32 + limit) / 2 ^ 32 = count := by omega
  have hmod : (count * 2 ^ 32 + limit) % 2 ^ 32 = limit := by omega
  rw [hdiv, hmod]

theorem Pin.next_lt {pin : Pin} (hbelow : pin.count < pin.limit) (hlimit : pin.limit < 2 ^ 32) (i : NvIndex)
    (genuine : Bool) : pin.next i genuine < 2 ^ 32 := by
  unfold Pin.next
  repeat' split
  all_goals omega

theorem Pin.toUint64_lt (pin : Pin) : pin.toUint64 < 2 ^ 64 := by
  unfold Pin.toUint64
  have hcount := Nat.mod_lt pin.count (y := 2 ^ 32) (by decide)
  have hlimit := Nat.mod_lt pin.limit (y := 2 ^ 32) (by decide)
  omega

namespace AuthState

/-- The NV of a state; what is saved of it is in `x`. -/
def device (s : AuthState σ) (x : NvDevice) : NvDevice :=
  { x with nv := s.nv, orderly := s.orderly && !s.clearOrderly }

theorem device_sound {s s' : AuthState σ} {x : NvDevice} (hnv : s'.nv = s.nv) (hs : (s.device x).Sound) :
    (s'.device x).Sound := by
  unfold device at *
  rw [hnv]
  exact ⟨⟨hs.handles, hs.ramHandles, hs.savedHandles, hs.absent⟩, hs.cells⟩

theorem device_synced {s s' : AuthState σ} {x : NvDevice} (hnv : s'.nv = s.nv)
    (horderly : s'.orderly = true → s.orderly = true) (hclear : s'.clearOrderly = s.clearOrderly)
    (hs : (s.device x).Synced) : (s'.device x).Synced := by
  intro ho
  have ho' : s'.orderly = true ∧ s'.clearOrderly = false := by
    unfold device at ho
    simpa using ho
  have hall : SavedAll (s.device x) := by
    refine hs ?_
    unfold device
    simp only [Bool.and_eq_true, Bool.not_eq_true']
    exact ⟨horderly ho'.1, hclear ▸ ho'.2⟩
  intro h c hc
  refine hall h c ?_
  rw [← hc]
  unfold device NvDevice.cell
  dsimp only
  rw [hnv]

theorem compareAuth_frame (handle : TpmHandle) (u : SessionUse) (s : AuthState σ) :
    (compareAuth handle u s).2.nv = s.nv ∧ (compareAuth handle u s).2.orderly = s.orderly ∧
      (compareAuth handle u s).2.clearOrderly = s.clearOrderly ∧ (compareAuth handle u s).2.sessions = s.sessions := by
  have hframe : (incrementLockout handle (authSession u s) s.toTpmState).2.nv = s.nv ∧
      (incrementLockout handle (authSession u s) s.toTpmState).2.orderly = s.orderly := by
    unfold incrementLockout
    repeat' split
    all_goals exact ⟨rfl, rfl⟩
  unfold compareAuth
  split
  · exact ⟨rfl, rfl, rfl, rfl⟩
  · exact ⟨hframe.1, hframe.2, rfl, rfl⟩

theorem incrementLockout_error (handle : TpmHandle) (session : AuthSession) (s : TpmState σ) :
    ∃ e, (incrementLockout handle session s).1 = .error e := by
  unfold incrementLockout
  repeat' split
  all_goals exact ⟨_, rfl⟩

theorem compareAuth_isOk (handle : TpmHandle) (u : SessionUse) (s : AuthState σ) :
    (compareAuth handle u s).1.isOk = u.genuine := by
  unfold compareAuth
  cases hgenuine : u.genuine with
  | true => rfl
  | false =>
      obtain ⟨e, he⟩ := incrementLockout_error handle (authSession u s) s.toTpmState
      rw [if_neg Bool.false_ne_true]
      dsimp only
      rw [he]
      rfl

theorem countPin_none {handle : TpmHandle} {success : Bool} {s s' : AuthState σ}
    (hpin : s.nv.writtenPin handle = none) (hcount : countPin handle success s = .ok s') : s' = s := by
  unfold countPin at hcount
  split at hcount
  · cases hcount
    rfl
  · rename_i htype
    split at hcount
    · cases hcount
    · rename_i i hi
      split at hcount
      · rename_i hdue
        obtain ⟨v, hv, -⟩ := map_eq_ok hcount
        have hwritten : (i.isPin && i.written) = true := by
          unfold NvIndex.isPin
          cases hw : i.written with
          | false => simp [hw] at hdue
          | true =>
              cases hf : i.isPinFail with
              | true => rfl
              | false =>
                  simp only [hf, hw, Bool.false_or, Bool.and_true, Bool.and_eq_true] at hdue
                  simp [hdue.1]
        unfold NvState.writtenPin at hpin
        rw [if_pos (not_not.1 htype), hi, hv] at hpin
        dsimp only at hpin
        rw [if_pos hwritten] at hpin
        cases hpin
      · cases hcount
        rfl

theorem countPin_some {handle : TpmHandle} {success : Bool} {s : AuthState σ} {i : NvIndex} {pin : Pin}
    (hpin : s.nv.writtenPin handle = some (i, pin)) :
    countPin handle success s = .ok
      (if i.isPinFail || success then
        { s with
          nv := s.nv.writeUint64 handle (Pin.toUint64 ⟨pin.next i success, pin.limit⟩)
          clearOrderly := s.clearOrderly || i.orderly }
      else s) := by
  unfold NvState.writtenPin at hpin
  split at hpin
  · rename_i htype
    split at hpin
    · rename_i i' v hi hv
      split at hpin
      · rename_i hboth
        cases hpin
        rw [Bool.and_eq_true] at hboth
        unfold countPin
        rw [if_neg (not_not.2 htype), hi]
        dsimp only
        rw [hv, hboth.2]
        cases hf : i.isPinFail with
        | true =>
            simp only [Bool.and_true, Bool.true_or, Bool.true_and, if_true, Pin.next, hf]
            rfl
        | false =>
            have hpass : i.isPinPass = true := by
              have hisPin := hboth.1
              unfold NvIndex.isPin at hisPin
              simpa [hf] using hisPin
            simp only [hpass, Bool.false_and, Bool.false_or, Bool.true_and, Pin.next, hf, Bool.false_eq_true, if_false]
            cases success with
            | true => rfl
            | false => rfl
      · cases hpin
    · cases hpin
  · cases hpin

theorem lockoutHandle_ok {s : TpmState σ} {handle : TpmHandle} {b : Bool} (hexempt : isDaExempted s handle = .ok b)
    (session : AuthSession) : ∃ o, lockoutHandle s handle session = .ok o := by
  cases session with
  | password =>
      unfold lockoutHandle
      rw [hexempt]
      exact ⟨_, rfl⟩
  | session isLockoutBound isDaBound includeAuth =>
      unfold lockoutHandle
      cases isDaBound with
      | true => exact ⟨_, rfl⟩
      | false =>
          cases isLockoutBound with
          | true =>
              simp only [if_true, Bool.false_eq_true, if_false, isDaExempted_lockout]
              exact ⟨_, rfl⟩
          | false =>
              simp only [Bool.false_eq_true, if_false, hexempt]
              exact ⟨_, rfl⟩

theorem writtenPin_type {nv : NvState} {h : TpmHandle} {q : NvIndex × Pin} (hpin : nv.writtenPin h = some q) :
    h.getType = TpmHandle.htNvIndex := by
  unfold NvState.writtenPin at hpin
  split at hpin
  · assumption
  · cases hpin

theorem isDaExempted_pin {s : AuthState σ} {x : NvDevice} (hs : (s.device x).Sound) {handle : TpmHandle} {q : NvIndex × Pin}
    (hpin : s.nv.writtenPin handle = some q) : ∃ b, isDaExempted s.toTpmState handle = .ok b := by
  obtain ⟨htype, c, hc, -⟩ := (@NvDevice.writtenPin_iff (s.device x) handle hs q.1 q.2).1 hpin
  obtain ⟨hfind, -, -, -⟩ := NvDevice.cell_eq_some hc
  have hentry : (s.nv.user.find? fun e => e.handle == handle) = some (.index c.index c.data) :=
    (NvState.find?_of_findIndex hfind).1
  unfold isDaExempted
  rw [if_neg (by rw [htype]; decide), if_neg (by rw [htype]; decide), if_pos htype, hentry]
  exact ⟨_, rfl⟩

end AuthState

namespace Evaluation
variable {e : Evaluation σ} {x : NvDevice}

/-- What is known of a comparison when it is made. -/
structure Gated (W : AuthWorld) (x : NvDevice) (e : Evaluation σ) : Prop where
  sound : (e.before.device x).Sound
  settled : e.Settled
  used : e.handle.getType = TpmHandle.htNvIndex → e.authUsed = AuthState.authUsed W e.handle e.use e.session
  below : e.use.isPolicy = false → ∀ i pin, e.before.nv.writtenPin e.handle = some (i, pin) → pin.count < pin.limit

theorem handle_ne_lockout (htype : e.handle.getType = TpmHandle.htNvIndex) : e.handle ≠ TpmHandle.rhLockout := by
  intro hlockout
  rw [hlockout] at htype
  exact absurd htype (by decide)

/-- The failure of a comparison on a PIN index is no failure of the TPM. -/
theorem Gated.compareAuth_ne (hg : e.Gated W x) {q : NvIndex × Pin} (hpin : e.before.nv.writtenPin e.handle = some q) :
    (AuthState.compareAuth e.handle e.use e.before).1 ≠ .error .failureMode := by
  unfold AuthState.compareAuth
  cases hgenuine : e.use.genuine with
  | true => exact nofun
  | false =>
      rw [if_neg Bool.false_ne_true]
      dsimp only
      have hstray : ¬ e.Stray := fun hstray => handle_ne_lockout (AuthState.writtenPin_type hpin) hstray.1
      obtain ⟨b, hexempt⟩ := AuthState.isDaExempted_pin hg.sound hpin
      obtain ⟨o, ho⟩ := AuthState.lockoutHandle_ok hexempt (AuthState.authSession e.use e.before)
      unfold incrementLockout
      rw [ho]
      cases o with
      | none => exact nofun
      | some h =>
          dsimp only
          split
          · rename_i hh
            subst hh
            have henabled := (hg.settled.accounted fun _ => hstray).asserted hgenuine ho
            rw [if_pos henabled]
            exact nofun
          · split
            · exact nofun
            · exact nofun

/-- The index after the comparison, when it is one that may count. -/
theorem Gated.outcome_pin (hg : e.Gated W x) {i : NvIndex} {pin : Pin}
    (hpin : e.before.nv.writtenPin e.handle = some (i, pin)) :
    e.outcome.2.nv = (if e.authUsed && (i.isPinFail || e.use.genuine) then
        e.before.nv.writeUint64 e.handle (Pin.toUint64 ⟨pin.next i e.use.genuine, pin.limit⟩) else e.before.nv) ∧
      e.outcome.2.orderly = e.before.orderly ∧
      e.outcome.2.clearOrderly = (if e.authUsed && (i.isPinFail || e.use.genuine) then e.before.clearOrderly || i.orderly
        else e.before.clearOrderly) ∧ e.outcome.2.sessions = e.before.sessions := by
  obtain ⟨hnv, horderly, hclear, hsessions⟩ := AuthState.compareAuth_frame e.handle e.use e.before
  have hok := AuthState.compareAuth_isOk e.handle e.use e.before
  have hne := hg.compareAuth_ne hpin
  unfold outcome AuthState.evaluate
  split
  · rename_i hcompare
    rw [hcompare] at hne
    exact absurd rfl hne
  · rename_i result s' _ hcompare
    rw [hcompare] at hnv horderly hclear hsessions hok
    dsimp only at hnv horderly hclear hsessions hok
    cases e.authUsed with
    | false => exact ⟨hnv, horderly, hclear, hsessions⟩
    | true =>
        rw [if_pos rfl, Bool.true_and, hok]
        have hpin' : s'.nv.writtenPin e.handle = some (i, pin) := by
          rw [hnv]
          exact hpin
        rw [AuthState.countPin_some hpin']
        dsimp only
        cases hdue : i.isPinFail || e.use.genuine with
        | true =>
            simp only [if_true, hnv, hclear]
            exact ⟨trivial, horderly, trivial, hsessions⟩
        | false => exact ⟨hnv, horderly, hclear, hsessions⟩

theorem outcome_noPin (hpin : e.before.nv.writtenPin e.handle = none) :
    e.outcome.2.nv = e.before.nv ∧ e.outcome.2.orderly = e.before.orderly ∧
      e.outcome.2.clearOrderly = e.before.clearOrderly ∧ e.outcome.2.sessions = e.before.sessions := by
  obtain ⟨hnv, horderly, hclear, hsessions⟩ := AuthState.compareAuth_frame e.handle e.use e.before
  unfold outcome AuthState.evaluate
  split
  · rename_i s' hcompare
    rw [hcompare] at hnv horderly hclear hsessions
    exact ⟨hnv, horderly, hclear, hsessions⟩
  · rename_i result s' _ hcompare
    rw [hcompare] at hnv horderly hclear hsessions
    dsimp only at hnv
    split
    · split
      · exact ⟨hnv, horderly, hclear, hsessions⟩
      · rename_i s'' hcount
        obtain rfl := AuthState.countPin_none (by rw [hnv]; exact hpin) hcount
        exact ⟨hnv, horderly, hclear, hsessions⟩
    · exact ⟨hnv, horderly, hclear, hsessions⟩

theorem Gated.authUsed_of_uses (hg : e.Gated W x) (htype : e.handle.getType = TpmHandle.htNvIndex)
    (huses : e.usesAuthValue = true)
    (hbound : e.use.isPolicy = false → ∀ y, e.session = some y → AuthState.isSessionBindEntity W e.handle y = false) :
    e.authUsed = true := by
  rw [hg.used htype]
  unfold usesAuthValue at huses
  unfold AuthState.authUsed
  cases hx : e.session with
  | none => rfl
  | some y =>
      rw [hx] at huses
      dsimp only at huses ⊢
      cases hpolicy : e.use.isPolicy with
      | true =>
          rw [hpolicy, Bool.not_true, Bool.false_or] at huses
          rw [if_pos rfl]
          exact huses
      | false =>
          rw [if_neg Bool.false_ne_true, hbound hpolicy y hx]
          rfl

theorem Gated.authUsed_of_not (hg : e.Gated W x) (htype : e.handle.getType = TpmHandle.htNvIndex)
    (huses : e.usesAuthValue = false) : e.authUsed = false := by
  rw [hg.used htype]
  unfold usesAuthValue at huses
  unfold AuthState.authUsed
  cases hx : e.session with
  | none =>
      rw [hx] at huses
      cases huses
  | some y =>
      rw [hx] at huses
      dsimp only at huses ⊢
      rw [Bool.or_eq_false_iff, Bool.not_eq_false'] at huses
      rw [if_pos huses.1]
      exact huses.2

/-- What a comparison does to the area. -/
structure Counts (x : NvDevice) (e : Evaluation σ) : Prop where
  sound : (e.outcome.2.device x).Sound
  synced : (e.before.device x).Synced → (e.outcome.2.device x).Synced
  sessions : e.outcome.2.sessions = e.before.sessions
  kept : ∀ h, h ≠ e.handle ∨ e.usesAuthValue = false ∨ e.before.nv.writtenPin e.handle = none →
    NvDevice.PinKept (e.before.device x) (e.outcome.2.device x) h
  counted : e.PinCounted

theorem pinKept_of_nv {s s' : AuthState σ} (hnv : s'.nv = s.nv) (h : TpmHandle) :
    NvDevice.PinKept (s.device x) (s'.device x) h := by
  intro i pin hpin
  refine ⟨i, ?_, rfl⟩
  have hsame : s'.nv.writtenPin h = some (i, pin) := hpin
  rw [hnv] at hsame
  exact hsame

theorem Gated.counts_of_nv (hg : e.Gated W x) (hnv : e.outcome.2.nv = e.before.nv)
    (horderly : e.outcome.2.orderly = e.before.orderly) (hclear : e.outcome.2.clearOrderly = e.before.clearOrderly)
    (hsessions : e.outcome.2.sessions = e.before.sessions) (hcounted : e.PinCounted) : e.Counts x where
  sound := AuthState.device_sound hnv hg.sound
  synced := AuthState.device_synced hnv (fun ho => horderly ▸ ho) hclear
  sessions := hsessions
  kept h _ := pinKept_of_nv hnv h
  counted := hcounted

theorem Gated.pin_limit_lt (hg : e.Gated W x) {i : NvIndex} {pin : Pin}
    (hpin : e.before.nv.writtenPin e.handle = some (i, pin)) : pin.limit < 2 ^ 32 := by
  obtain ⟨-, c, -, -, -, -, rfl⟩ := (NvDevice.writtenPin_iff hg.sound).1 hpin
  exact Nat.mod_lt _ (by decide)

/-- A comparison whose count is written. -/
theorem Gated.counts_of_write (hg : e.Gated W x) {i : NvIndex} {pin : Pin}
    (hpin : e.before.nv.writtenPin e.handle = some (i, pin)) (hbelow : pin.count < pin.limit)
    (huses : e.usesAuthValue = true)
    (hdue : (e.authUsed && (i.isPinFail || e.use.genuine)) = true)
    (hopen : i.orderly = true ∨ e.before.nv.nvStatus = none) : e.Counts x := by
  obtain ⟨hnv, horderly, hclear, hsessions⟩ := hg.outcome_pin hpin
  rw [hdue, if_pos rfl] at hnv hclear
  obtain ⟨htype, c, hc, rfl, hisPin, hwritten, hpinValue⟩ := (NvDevice.writtenPin_iff hg.sound).1 hpin
  have hsound := hg.sound.cells e.handle c hc
  rw [hsound.info_orderly] at hclear hopen
  have hw := NvDevice.writeUint64_written hg.sound hc hwritten hopen
    (Pin.toUint64 ⟨pin.next c.info e.use.genuine, pin.limit⟩)
  have hdevice : e.outcome.2.device x =
      (e.before.device x).withCount e.handle (Pin.toUint64 ⟨pin.next c.info e.use.genuine, pin.limit⟩) c.index.orderly := by
    unfold AuthState.device NvDevice.withCount
    dsimp only
    rw [hnv, horderly, hclear, Bool.not_or, Bool.and_assoc]
  rw [← hdevice] at hw
  have hsize := (hsound.pin hisPin).1
  have hsound' : (e.outcome.2.device x).Sound := hw.sound hg.sound hc (by rw [be_length, hsize])
  have hafter : e.outcome.2.nv.writtenPin e.handle = some (c.info, ⟨pin.next c.info e.use.genuine, pin.limit⟩) := by
    obtain ⟨hwritten', hcount⟩ := Cell.write_count hsound
      (Pin.toUint64_lt ⟨pin.next c.info e.use.genuine, pin.limit⟩) false
    refine (NvDevice.writtenPin_iff hsound').2 ⟨htype, _, hw.cell, ?_, ?_, hwritten', ?_⟩
    · exact (Cell.write_info hsound hwritten 0 _ false).symm
    · exact (NvIndex.isPin_of_kind (Cell.kind_write hsound 0 _ false)).trans hisPin
    · have hlimit := hg.pin_limit_lt hpin
      rw [hcount, Pin.ofUint64_toUint64 (Pin.next_lt hbelow hlimit c.info _) hlimit]
  refine ⟨hsound', fun hsync => ?_, hsessions, fun h hother => ?_, ?_⟩
  · intro ho' h c' hc'
    rw [hw.orderly] at ho'
    simp only [Bool.and_eq_true, Bool.not_eq_true'] at ho'
    by_cases hh : h = e.handle
    · subst hh
      refine NvDevice.synced_inNv (hsound'.cells _ c' hc') ?_
      rw [hw.cell] at hc'
      cases hc'
      rw [NvDevice.orderly_write _ _ _ hsound]
      exact ho'.2
    · exact NvDevice.quietBut_synced (hsync ho'.1) hw.quiet hh hc'
  · rcases hother with hne | hno | hnone
    · exact NvDevice.quietBut_pinKept hg.sound hsound' hw.quiet hne
    · rw [huses] at hno
      cases hno
    · rw [hpin] at hnone
      cases hnone
  · intro i' pin' hpin' _
    rw [hpin] at hpin'
    cases hpin'
    exact ⟨hbelow, hafter⟩

theorem Gated.counts (hg : e.Gated W x) (hguard : e.PinGuarded W) : e.Counts x := by
  cases hpin : e.before.nv.writtenPin e.handle with
  | none =>
      obtain ⟨hnv, horderly, hclear, hsessions⟩ := outcome_noPin hpin
      refine hg.counts_of_nv hnv horderly hclear hsessions fun i pin hsome => ?_
      rw [hpin] at hsome
      cases hsome
  | some q =>
      obtain ⟨i, pin⟩ := q
      obtain ⟨hnv, horderly, hclear, hsessions⟩ := hg.outcome_pin hpin
      have htype := AuthState.writtenPin_type hpin
      cases huses : e.usesAuthValue with
      | false =>
          have hunused := hg.authUsed_of_not htype huses
          rw [hunused, Bool.false_and, if_neg Bool.false_ne_true] at hnv hclear
          refine hg.counts_of_nv hnv horderly hclear hsessions fun _ _ _ huse => ?_
          rw [huses] at huse
          cases huse
      | true =>
          obtain ⟨hpolicy, hchange⟩ := hguard i pin hpin huses
          have hbelow : pin.count < pin.limit := by
            cases hp : e.use.isPolicy with
            | true => exact hpolicy hp
            | false => exact hg.below hp i pin hpin
          by_cases hopen : (e.authUsed && (i.isPinFail || e.use.genuine)) = true ∧
              (i.orderly = true ∨ e.before.nv.nvStatus = none)
          · exact hg.counts_of_write hpin hbelow huses hopen.1 hopen.2
          · -- the count stays, and nothing has been written
            have hsame : pin.next i e.use.genuine = pin.count := by
              by_contra hne
              obtain ⟨hbound, hwritable⟩ := hchange hne
              have hused := hg.authUsed_of_uses htype huses hbound
              refine hopen ⟨?_, hwritable⟩
              rw [hused, Bool.true_and]
              by_contra hno
              simp only [Bool.or_eq_true, not_or, Bool.not_eq_true] at hno
              unfold Pin.next at hne
              rw [hno.1, hno.2] at hne
              exact hne rfl
            have hstays : e.outcome.2.nv = e.before.nv ∧ e.outcome.2.clearOrderly = e.before.clearOrderly := by
              cases hdue : e.authUsed && (i.isPinFail || e.use.genuine) with
              | false =>
                  rw [hdue, if_neg Bool.false_ne_true] at hnv hclear
                  exact ⟨hnv, hclear⟩
              | true =>
                  rw [hdue, if_pos rfl] at hnv hclear
                  obtain ⟨-, c, hc, rfl, -, -, -⟩ := (NvDevice.writtenPin_iff hg.sound).1 hpin
                  rw [not_and, not_or] at hopen
                  obtain ⟨hinNv, hstatus⟩ := hopen hdue
                  rw [Bool.not_eq_true] at hinNv
                  have ho : c.index.orderly = false :=
                    (hg.sound.cells e.handle c hc).info_orderly.symm.trans hinNv
                  have hunwritten := NvDevice.writeUint64_unavailable hc ho hstatus
                    (Pin.toUint64 ⟨pin.next c.info e.use.genuine, pin.limit⟩)
                  rw [hinNv, Bool.or_false] at hclear
                  exact ⟨hnv.trans hunwritten, hclear⟩
            refine hg.counts_of_nv hstays.1 horderly hstays.2 hsessions fun i' pin' hpin' _ => ?_
            rw [hpin] at hpin'
            cases hpin'
            rw [hstays.1, hsame]
            exact ⟨hbelow, hpin⟩

end Evaluation
/-! ## A whole command -/

namespace AuthState
variable {s s' : AuthState σ} {x : NvDevice} {c : CommandRow} {role : AuthRole} {handle : TpmHandle} {u : SessionUse}
  {used : Bool}

theorem authGate_fits (h : authGate W c role handle u s = (.ok used, s')) : sessionFits W c role handle u s' = .ok () := by
  unfold authGate at h
  split at h
  · cases h
  · dsimp only at h
    split at h
    · cases h
    · split at h
      · cases h
      · rename_i hfits
        cases h
        exact hfits

theorem sessionGate_fits (h : sessionGate W c role handle u s = (.ok used, s')) (hne : handle ≠ TpmHandle.rhUnassigned) :
    sessionFits W c role handle u s' = .ok () := by
  unfold sessionGate at h
  split at h
  · split at h
    · cases h
    · exact authGate_fits h
  · split at h
    · cases h
    · split at h
      · cases h
      · split at h
        · cases h
        · exact authGate_fits h

/-- A password or an HMAC gets to the comparison below the limit only. -/
theorem sessionFits_below (hs : (s.device x).Sound) (hfits : sessionFits W c role handle u s = .ok ())
    (hpolicy : u.isPolicy = false) {i : NvIndex} {pin : Pin} (hpin : s.nv.writtenPin handle = some (i, pin)) :
    pin.count < pin.limit := by
  obtain ⟨htype, cell, hcell, rfl, hisPin, hwritten, rfl⟩ := (NvDevice.writtenPin_iff (d := s.device x) hs).1 hpin
  have hsound := hs.cells handle cell hcell
  have hinfo : s.nv.indexInfo handle = .ok cell.info := NvDevice.indexInfo_of_cell hs hcell
  have hvalue : s.nv.getUint64 handle = .ok cell.count := NvDevice.getUint64_of_cell hs hcell (hsound.pin hisPin).1
  have hinfoPin : cell.info.isPin = true := (NvIndex.isPin_of_kind hsound.kind_attributes).trans hisPin
  unfold sessionFits at hfits
  rw [hpolicy] at hfits
  dsimp only at hfits
  obtain ⟨_, -, hfits⟩ := bind_eq_ok hfits
  obtain ⟨_, -, hfits⟩ := bind_eq_ok hfits
  obtain ⟨available, havailable, hfits⟩ := bind_eq_ok hfits
  rw [demand_eq_ok hfits] at havailable
  unfold isAuthValueAvailable at havailable
  rw [if_neg (by rw [htype]; decide), if_neg (by rw [htype]; decide), if_pos htype, hinfo] at havailable
  dsimp only at havailable
  split at havailable
  · -- `AUTHWRITE` is not for PIN indices
    have hattribute : cell.info.isAttribute 2 = false :=
      (NvIndex.isAttribute_withAttributes hsound.kind_attributes (by decide)).trans (hsound.pin hisPin).2
    rw [hattribute] at havailable
    cases havailable
  · rw [hwritten, if_neg (by decide), hvalue] at havailable
    have hlt := Except.ok.inj havailable
    exact of_decide_eq_true hlt

theorem sessionGate_gatedPin (hs : (s.device x).Sound) (hconsistent : s.Consistent)
    (h : sessionGate W c role handle u s = (.ok used, s')) : (Evaluation.mk handle u used s').Gated W x := by
  have hgated := sessionGate_gated h
  have hsound : (s'.device x).Sound := device_sound hgated.passes.nv hs
  have hassigned : handle.getType = TpmHandle.htNvIndex → handle ≠ TpmHandle.rhUnassigned := by
    rintro htype rfl
    exact absurd htype (by decide)
  refine ⟨hsound, hgated.settled hconsistent, fun htype => ?_, fun hpolicy i pin hpin => ?_⟩
  · have hused := hgated.assigned (hassigned htype)
    have hsession : (Evaluation.mk handle u used s').session = (useSession u s).map (Session.including used) := hgated.session
    rw [hsession, authUsed_including]
    exact hused
  · have hne := hassigned (writtenPin_type hpin)
    exact sessionFits_below hsound (sessionGate_fits h hne) hpolicy hpin

end AuthState

/-- How often an index has been tried with an outcome. -/
def Evaluation.tries (h : TpmHandle) (genuine : Bool) (e : Evaluation σ) : Nat :=
  if e.handle = h ∧ (e.before.nv.writtenPin h).isSome = true ∧ e.usesAuthValue = true ∧ e.use.genuine = genuine then 1 else 0

def tally (es : List (Evaluation σ)) (genuine : Bool) (h : TpmHandle) : Nat := (es.map (Evaluation.tries h genuine)).sum

/-- Failures go with the count of `PIN_FAIL`, successes with that of `PIN_PASS`. -/
def PinBounded (nv : NvState) (failed succeeded : TpmHandle → Nat) : Prop :=
  ∀ h i pin, nv.writtenPin h = some (i, pin) →
    (i.isPinFail = true → failed h ≤ pin.limit * succeeded h + min pin.count pin.limit) ∧
      (i.isPinFail = false → succeeded h ≤ min pin.count pin.limit)

/-- What the loop over the sessions keeps. -/
structure AuthState.PinsKept (s : AuthState σ) (x : NvDevice) (failed succeeded : TpmHandle → Nat) : Prop where
  sound : (s.device x).Sound
  synced : (s.device x).Synced
  consistent : s.Consistent
  bounded : PinBounded s.nv failed succeeded

namespace AuthState
variable {s s' : AuthState σ} {x : NvDevice} {failed succeeded : TpmHandle → Nat}

theorem PinsKept.passes (hk : s.PinsKept x failed succeeded) (hp : Passes s s') : s'.PinsKept x failed succeeded where
  sound := device_sound hp.nv hk.sound
  synced := device_synced hp.nv hp.orderly hp.clearOrderly hk.synced
  consistent := hp.sessions.consistent hk.consistent
  bounded := by
    rw [hp.nv]
    exact hk.bounded

theorem bounded_step {limit count failed succeeded : Nat} {i : NvIndex} (genuine : Bool) (hbelow : count < limit)
    (hfail : i.isPinFail = true → failed ≤ limit * succeeded + min count limit)
    (hpass : i.isPinFail = false → succeeded ≤ min count limit) :
    (i.isPinFail = true → failed + (if genuine then 0 else 1) ≤
        limit * (succeeded + if genuine then 1 else 0) + min ((⟨count, limit⟩ : Pin).next i genuine) limit) ∧
      (i.isPinFail = false → succeeded + (if genuine then 1 else 0) ≤ min ((⟨count, limit⟩ : Pin).next i genuine) limit) := by
  unfold Pin.next
  refine ⟨fun hf => ?_, fun hf => ?_⟩
  · have hold := hfail hf
    rw [hf, if_pos rfl]
    cases genuine with
    | true =>
        simp only [if_true, Nat.add_zero, Nat.zero_min]
        rw [Nat.mul_add, Nat.mul_one]
        omega
    | false =>
        simp only [Bool.false_eq_true, if_false, Nat.add_zero]
        omega
  · have hold := hpass hf
    rw [hf, if_neg Bool.false_ne_true]
    cases genuine with
    | true =>
        simp only [if_true]
        omega
    | false =>
        simp only [Bool.false_eq_true, if_false, Nat.add_zero]
        exact hold

theorem PinsKept.evaluate {e : Evaluation σ} (hk : e.before.PinsKept x failed succeeded) (hg : e.Gated W x)
    (hguard : e.PinGuarded W) :
    e.outcome.2.PinsKept x (fun h => failed h + e.tries h false) (fun h => succeeded h + e.tries h true) := by
  have hcounts := hg.counts hguard
  refine ⟨hcounts.sound, hcounts.synced hk.synced, ?_, ?_⟩
  · intro h y hy
    rw [hcounts.sessions] at hy
    exact hk.consistent h y hy
  · intro h i pin hpin
    by_cases hkept : h ≠ e.handle ∨ e.usesAuthValue = false ∨ e.before.nv.writtenPin e.handle = none
    · obtain ⟨i₀, hold, hkind⟩ := hcounts.kept h hkept i pin hpin
      have hnone : ∀ b, e.tries h b = 0 := by
        intro b
        unfold Evaluation.tries
        refine if_neg ?_
        rintro ⟨rfl, hsome, huses, -⟩
        rcases hkept with hne | hno | hno
        · exact hne rfl
        · rw [hno] at huses
          cases huses
        · rw [hno] at hsome
          cases hsome
      dsimp only
      rw [hnone, hnone, Nat.add_zero, Nat.add_zero, ← hkind]
      exact hk.bounded h i₀ pin hold
    · rw [not_or, not_or, not_not] at hkept
      obtain ⟨rfl, huses, hsome⟩ := hkept
      rw [Bool.not_eq_false] at huses
      obtain ⟨⟨i₀, pin₀⟩, hpin₀⟩ := Option.ne_none_iff_exists'.1 hsome
      obtain ⟨hbelow, hafter⟩ := hcounts.counted i₀ pin₀ hpin₀ huses
      have hpin' : e.outcome.2.nv.writtenPin e.handle = some (i, pin) := hpin
      rw [hafter] at hpin'
      cases hpin'
      have htries : ∀ b, e.tries e.handle b = if e.use.genuine = b then 1 else 0 := by
        intro b
        unfold Evaluation.tries
        rw [hpin₀]
        simp [huses]
      obtain ⟨hfail, hpass⟩ := hk.bounded e.handle i pin₀ hpin₀
      have hstep := bounded_step e.use.genuine hbelow hfail hpass
      dsimp only
      rw [htries, htries]
      cases hgenuine : e.use.genuine with
      | true =>
          rw [hgenuine] at hstep
          exact hstep
      | false =>
          rw [hgenuine] at hstep
          exact hstep

/-- Every comparison of the loop is counted, and the loop keeps the bounds. -/
theorem PinsKept.checkSessions {c : CommandRow} {pairs : List (TpmHandle × SessionUse)} {k : Nat}
    (hk : s.PinsKept x failed succeeded) (hguard : ∀ e ∈ evaluations W c k pairs s, e.PinGuarded W) :
    (∀ e ∈ evaluations W c k pairs s, e.PinCounted) ∧
      (AuthState.checkSessions W c k pairs s).2.PinsKept x
        (fun h => failed h + tally (evaluations W c k pairs s) false h)
        (fun h => succeeded h + tally (evaluations W c k pairs s) true h) := by
  induction pairs generalizing k s failed succeeded with
  | nil =>
      refine ⟨fun e he => ?_, ?_⟩
      · rw [evaluations] at he
        cases he
      · exact hk
  | cons p rest ih =>
      obtain ⟨handle, u⟩ := p
      have hpasses := sessionGate_passes (W := W) c (c.authRole k) handle u s
      unfold evaluations at hguard ⊢
      unfold AuthState.checkSessions checkSession
      cases hgate : sessionGate W c (c.authRole k) handle u s with
      | mk result s₁ =>
          rw [hgate] at hpasses hguard
          cases result with
          | error f =>
              refine ⟨fun e he => ?_, ?_⟩
              · cases he
              · exact hk.passes hpasses
          | ok used =>
              dsimp only at hguard ⊢
              have hg := sessionGate_gatedPin hk.sound hk.consistent hgate
              have hk₁ := hk.passes hpasses
              have hfirst := hguard _ List.mem_cons_self
              have hcounts := hg.counts hfirst
              have hk₂ := PinsKept.evaluate (e := ⟨handle, u, used, s₁⟩) hk₁ hg hfirst
              unfold Evaluation.outcome at hk₂
              dsimp only at hk₂
              cases heval : AuthState.evaluate handle u used s₁ with
              | mk result s₂ =>
                  rw [heval] at hk₂ hguard
                  dsimp only at hk₂ hguard ⊢
                  cases result with
                  | error f =>
                      dsimp only
                      refine ⟨fun e he => ?_, ?_⟩
                      · rw [List.mem_singleton.1 he]
                        exact hcounts.counted
                      · unfold tally
                        simp only [List.map_cons, List.map_nil, List.sum_cons, List.sum_nil, Nat.add_zero]
                        exact hk₂
                  | ok _ =>
                      dsimp only at hguard ⊢
                      obtain ⟨hrest, hlast⟩ := ih hk₂ fun e he => hguard e (List.mem_cons_of_mem _ he)
                      refine ⟨fun e he => ?_, ?_⟩
                      · rcases List.mem_cons.1 he with rfl | he
                        · exact hcounts.counted
                        · exact hrest e he
                      · unfold tally at hlast ⊢
                        simp only [List.map_cons, List.sum_cons, ← Nat.add_assoc]
                        exact hlast

theorem PinsKept.parseSessionBuffer {c : CommandRow} {handles : List TpmHandle} {us : List SessionUse}
    (hk : s.PinsKept x failed succeeded) (hguard : ∀ e ∈ commandEvaluations W c handles us s, e.PinGuarded W) :
    (∀ e ∈ commandEvaluations W c handles us s, e.PinCounted) ∧
      (AuthState.parseSessionBuffer W c handles us s).2.PinsKept x
        (fun h => failed h + tally (commandEvaluations W c handles us s) false h)
        (fun h => succeeded h + tally (commandEvaluations W c handles us s) true h) := by
  have hnothing : (∀ e ∈ ([] : List (Evaluation σ)), e.PinCounted) ∧
      s.PinsKept x (fun h => failed h + tally ([] : List (Evaluation σ)) false h)
        (fun h => succeeded h + tally ([] : List (Evaluation σ)) true h) :=
    ⟨(fun e he => nomatch he), hk⟩
  unfold commandEvaluations at hguard ⊢
  unfold AuthState.parseSessionBuffer
  split
  · exact hnothing
  · rename_i hallowed
    rw [if_neg hallowed] at hguard
    cases hretrieve : retrieveSessionData W c s [] us with
    | error f => exact hnothing
    | ok _ =>
        rw [hretrieve] at hguard
        dsimp only at hguard ⊢
        split
        · rename_i hpresent
          rw [if_pos hpresent] at hguard
          exact hk.checkSessions hguard
        · exact hnothing

end AuthState

/-! ## Runs -/

/-- Whether a command is `TPM2_NV_Write` to an index. -/
def NvCommand.writes (h : TpmHandle) : NvCommand → Bool
  | .nvWrite _ nvIndex _ _ => nvIndex == h
  | _ => false

/-- The sessions and the NV of a TPM, with the tries of each PIN index since it was last written. -/
structure PinRun (σ : Type) where
  sessions : SessionRun σ
  device : NvDevice
  failed : TpmHandle → Nat := fun _ => 0
  succeeded : TpmHandle → Nat := fun _ => 0

inductive PinEvent (σ : Type)
  | session (e : SessionEvent σ)
  | nv (command : NvCommand)

namespace PinRun
variable {τ : Type} {codec : HashStateCodec τ} {L : RawLayout} {H : PolicyHash}

/-- The state in which a command begins. -/
def state (r : PinRun σ) : AuthState σ :=
  { r.sessions.state with
    nv := r.device.nv, orderly := r.device.orderly, phEnableNv := r.device.phEnableNv, clearOrderly := false }

variable (codec L H) in
/-- A step; NV is changed by counting and by the NV commands only. -/
def step (r : PinRun σ) : PinEvent σ → PinRun σ
  | .session (.authorize W c handles us) =>
      let s := (r.state.parseSessionBuffer W c handles us).2
      let evaluations := r.state.commandEvaluations W c handles us
      { sessions := { r.sessions with state := s }
        device := s.device r.device
        failed := fun h => r.failed h + tally evaluations false h
        succeeded := fun h => r.succeeded h + tally evaluations true h }
  | .session e =>
      let sessions := sessionStep { r.sessions with state := r.state } e
      { r with sessions, device := { r.device with orderly := r.device.orderly && sessions.state.orderly } }
  | .nv command =>
      let out := command.act codec L H r.device
      { r with
        device := out.2
        failed := fun h => if out.1.isOk && command.writes h then 0 else r.failed h
        succeeded := fun h => if out.1.isOk && command.writes h then 0 else r.succeeded h }

/-- A TPM with nothing in NV and no session. -/
def Started (r : PinRun σ) : Prop :=
  r.sessions.Started ∧ r.device.Empty ∧ (∀ h, r.failed h = 0) ∧ ∀ h, r.succeeded h = 0

/-- Since it was last written a `PIN_FAIL` index has failed at most as often as its limit for each success and
once more, and a `PIN_PASS` index has been used at most as often as its limit. -/
def Limited (r : PinRun σ) : Prop :=
  ∀ h i pin, r.device.nv.writtenPin h = some (i, pin) →
    (i.isPinFail = true → r.failed h ≤ pin.limit * (r.succeeded h + 1)) ∧
      (i.isPinPass = true → r.succeeded h ≤ pin.limit)

/-- Every authorization that a command can bring is guarded. -/
def Guarded (r : PinRun σ) : PinEvent σ → Prop
  | .session (.authorize W c handles us) => ∀ e ∈ r.state.commandEvaluations W c handles us, e.PinGuarded W
  | _ => True

structure Kept (r : PinRun σ) : Prop where
  sound : r.device.Sound
  synced : r.device.Synced
  sessions : r.sessions.Sound
  bounded : PinBounded r.device.nv r.failed r.succeeded

theorem device_state (r : PinRun σ) : r.state.device r.device = r.device := by
  unfold AuthState.device state
  simp

theorem Started.kept {r : PinRun σ} (hr : r.Started) : r.Kept := by
  obtain ⟨⟨hnone, hsaved⟩, hempty, -, -⟩ := hr
  refine ⟨hempty.sound, hempty.synced, ⟨fun handle y hy => ?_, fun p hp => ?_⟩, fun h i pin hpin => ?_⟩
  · rw [hnone] at hy
    cases hy
  · rw [hsaved] at hp
    cases hp
  · obtain ⟨-, c, hc, -⟩ := (NvDevice.writtenPin_iff hempty.sound).1 hpin
    rw [hempty.cell] at hc
    cases hc

theorem Kept.pinsKept {r : PinRun σ} (hr : r.Kept) : r.state.PinsKept r.device r.failed r.succeeded := by
  refine ⟨?_, ?_, hr.sessions.loaded, hr.bounded⟩
  · rw [device_state]
    exact hr.sound
  · rw [device_state]
    exact hr.synced

theorem Kept.authorize {r : PinRun σ} (hr : r.Kept) {c : CommandRow}
    {handles : List TpmHandle} {us : List SessionUse}
    (hguard : r.Guarded (.session (.authorize W c handles us))) :
    (step codec L H r (.session (.authorize W c handles us))).Kept := by
  obtain ⟨-, hkept⟩ := hr.pinsKept.parseSessionBuffer hguard
  exact ⟨hkept.sound, hkept.synced, ⟨hkept.consistent, hr.sessions.saved⟩, hkept.bounded⟩

theorem Kept.session {r : PinRun σ} (hr : r.Kept) (e : SessionEvent σ) :
    ({ r with
      sessions := sessionStep { r.sessions with state := r.state } e
      device := { r.device with orderly :=
        r.device.orderly && (sessionStep { r.sessions with state := r.state } e).state.orderly } } : PinRun σ).Kept := by
  have hsessions : ({ r.sessions with state := r.state } : SessionRun σ).Sound := ⟨hr.sessions.loaded, hr.sessions.saved⟩
  refine ⟨?_, fun ho => ?_, sessionStep_sound hsessions e, hr.bounded⟩
  · exact ⟨⟨hr.sound.handles, hr.sound.ramHandles, hr.sound.savedHandles, hr.sound.absent⟩, hr.sound.cells⟩
  · have ho' : r.device.orderly = true := by
      simp only [Bool.and_eq_true] at ho
      exact ho.1
    exact hr.synced ho'

theorem nvWrite_error {d : NvDevice} {auth h : TpmHandle} {offset : Nat} {data : Bytes} {e : Fault}
    (he : (d.nvWrite auth h offset data).1 = .error e) : (d.nvWrite auth h offset data).2 = d := by
  have hwrite : ∀ i old, (d.writeIndexData i old offset data).1 = .error e → (d.writeIndexData i old offset data).2 = d := by
    intro i old hw
    unfold NvDevice.writeIndexData at hw ⊢
    dsimp only at hw ⊢
    split
    · rfl
    · rename_i hlen
      rw [if_neg hlen] at hw
      split
      · rename_i ho
        rw [if_pos ho] at hw
        cases hw
      · rename_i ho
        rw [if_neg ho] at hw
        split
        · rename_i hwritten
          rw [if_pos hwritten] at hw
          split
          · rfl
          · rename_i hne
            rw [if_neg hne] at hw
            split
            · rfl
            · rename_i hstatus
              rw [hstatus] at hw
              cases hw
        · rename_i hwritten
          rw [if_neg hwritten] at hw
          split
          · rfl
          · rename_i hstatus
            rw [hstatus] at hw
            cases hw
  unfold NvDevice.nvWrite at he ⊢
  split
  · rfl
  · rename_i i old hi
    rw [hi] at he
    dsimp only at he ⊢
    split
    · rfl
    · rename_i hchecks
      rw [hchecks] at he
      exact hwrite i old he

theorem Kept.nv {r : PinRun σ} (hr : r.Kept) (command : NvCommand) :
    (step codec L H r (.nv command)).Kept := by
  obtain ⟨heffect, -⟩ := NvDevice.act_does hr.sound codec L H command
  have hsound := NvDevice.act_sound hr.sound codec L H command
  refine ⟨hsound, NvDevice.effect_synced hr.sound hr.synced heffect, hr.sessions, fun h i pin hpin => ?_⟩
  have hpin' : (command.act codec L H r.device).2.nv.writtenPin h = some (i, pin) := hpin
  unfold step
  dsimp only
  by_cases hrewritten : ((command.act codec L H r.device).1.isOk && command.writes h) = true
  · -- a write starts the tries anew
    rw [if_pos hrewritten, if_pos hrewritten]
    exact ⟨fun _ => Nat.zero_le _, fun _ => Nat.zero_le _⟩
  · rw [if_neg hrewritten, if_neg hrewritten]
    rcases NvDevice.effect_pinKept (h := h) hr.sound hsound hr.synced heffect with ⟨auth, offset, new, rfl⟩ | hkept
    · -- a write that fails changes nothing
      have herror : ∃ f, (r.device.nvWrite auth h offset new).1 = .error f := by
        cases hout : (r.device.nvWrite auth h offset new).1 with
        | error f => exact ⟨f, rfl⟩
        | ok _ =>
            refine absurd ?_ hrewritten
            have hact : ((NvCommand.nvWrite auth h offset new).act codec L H r.device).1 = .ok _ := hout
            rw [hact]
            simp [NvCommand.writes, Except.isOk, Except.toBool]
      obtain ⟨f, hf⟩ := herror
      have hsame : ((NvCommand.nvWrite auth h offset new).act codec L H r.device).2 = r.device := nvWrite_error hf
      rw [hsame] at hpin'
      exact hr.bounded h i pin hpin'
    · obtain ⟨i₀, hold, hkind⟩ := hkept i pin hpin'
      rw [← hkind]
      exact hr.bounded h i₀ pin hold

theorem Kept.limited {r : PinRun σ} (hr : r.Kept) : r.Limited := by
  intro h i pin hpin
  obtain ⟨hfail, hpass⟩ := hr.bounded h i pin hpin
  refine ⟨fun hf => ?_, fun hp => ?_⟩
  · have hle := hfail hf
    rw [Nat.mul_add, Nat.mul_one]
    omega
  · have hnot : i.isPinFail = false := by
      unfold NvIndex.isPinPass at hp
      unfold NvIndex.isPinFail
      rw [beq_iff_eq] at hp
      rw [hp]
      rfl
    have hle := hpass hnot
    omega

theorem Kept.step {r : PinRun σ} (hr : r.Kept) {e : PinEvent σ}
    (hguard : r.Guarded e) : (PinRun.step codec L H r e).Kept := by
  cases e with
  | nv command => exact hr.nv command
  | session e =>
      cases e with
      | authorize W c handles us => exact hr.authorize hguard
      | startAuthSession | policy | policyRestart | audit | respond | contextSave | contextLoad | flush | startup | other =>
          exact hr.session _

/-- In a run in which every authorization is guarded, every use of a PIN is counted and limited. -/
theorem limited_of_run {r : PinRun σ}
    (hr : Reachable Started (fun r r' => ∃ e, r.Guarded e ∧ r' = PinRun.step codec L H r e) r) :
    r.Limited ∧ ∀ W c handles us, r.Guarded (.session (.authorize W c handles us)) →
      ∀ e ∈ r.state.commandEvaluations W c handles us, e.PinCounted := by
  have hkept : r.Kept := by
    refine hr.invariant (fun r hs => hs.kept) ?_
    rintro r r' hk ⟨e, hguard, rfl⟩
    exact hk.step hguard
  refine ⟨hkept.limited, fun W c handles us hguard => ?_⟩
  exact (hkept.pinsKept.parseSessionBuffer hguard).1

end PinRun
/-! ### A policy session at the limit -/

def pinHandle : TpmHandle := 0x01000002

/-- SHA-256 of a policy of `TPM2_PolicyAuthValue`. -/
def authValuePolicy : Bytes := be 32 0x8fcd2169ab92694e0c633f1ab772842b8241bbc20288981fc7ac1eddc1fddb0e

/-- A world in which everything has that policy. -/
def pinWorld : AuthWorld :=
  { lockoutPolicyWorld with
    hash := .tabulated [(List.replicate 32 0 ++ be 4 0x16B, authValuePolicy)]
    authorized := fun c role handle =>
      { code := c.code, handleNames := [be 4 handle.toNat], parameters := [], role
        authPolicy := authValuePolicy, policyAlg := some .sha256, nvWritten := none } }

/-- A `PIN_FAIL` index that a policy may read. -/
def pinFailIndex : NvPublic where
  nvIndex := pinHandle
  nameAlg := .sha256
  attributes := 0x02080082
  authPolicy := .ofBytes authValuePolicy
  dataSize := 8

def nvReadRow : CommandRow :=
  ⟨0x14e, [.encrypt2, .handle1User], [.tpmiRhNvAuth, .tpmiRhNvIndex], [.uint16, .uint16], [.tpm2bMaxNvBuffer], 1026⟩

def pinStart : PinRun Unit := { sessions := { state := {} }, device := {} }

def pinStep : PinRun Unit → PinEvent Unit → PinRun Unit := PinRun.step noHashStates zeroLayout pinWorld.hash

/-- The index is defined and gets a count and a limit. -/
def pinEvents (count limit : Nat) : List (PinEvent Unit) :=
  [.nv (.nvDefineSpace .rhOwner (.ofBytes [1]) pinFailIndex []),
   .nv (.nvWrite .rhOwner pinHandle 0 (be 4 count ++ be 4 limit))]

/-- A policy session that needs the authorization value. -/
def policyEvents : List (PinEvent Unit) :=
  [.session (startSession .policy TpmHandle.rhNull 0x03000000),
   .session (.policy pinWorld 0x03000000 .policyAuthValue)]

theorem policy_at_limit :
    ∃ e ∈ (run pinStep pinStart (pinEvents 1 1 ++ policyEvents)).state.commandEvaluations pinWorld nvReadRow
        [pinHandle, pinHandle] [⟨0x03000000, {}, [], false⟩],
      e.usesAuthValue = true ∧
        (e.before.nv.writtenPin e.handle).map (fun q => (q.2.count, q.2.limit)) = some (1, 1) := by
  decide +kernel

/-- Every use of a PIN in every run is counted and limited. -/
def PinsCounted (σ : Type) : Prop :=
  ∀ r : PinRun σ,
    Reachable PinRun.Started
      (fun r r' => ∃ e, r' = PinRun.step noHashStates zeroLayout pinWorld.hash r e) r →
    ∀ W, ∀ c ∈ commandTable, ∀ handles us, ∀ e ∈ r.state.commandEvaluations W c handles us, e.PinCounted

theorem pins_not_counted : ¬ PinsCounted Unit := by
  intro h
  obtain ⟨e, he, huses, hpin⟩ := policy_at_limit
  have hrow : nvReadRow ∈ commandTable := by decide +kernel
  have hstart : PinRun.Started pinStart := ⟨⟨fun _ => rfl, rfl⟩, ⟨rfl, rfl, rfl⟩, fun _ => rfl, fun _ => rfl⟩
  obtain ⟨⟨i, pin⟩, hwritten, hvalues⟩ := Option.map_eq_some_iff.1 hpin
  obtain ⟨hbelow, -⟩ := h _ (Reachable.of_run hstart _) _ _ hrow _ _ e he i pin hwritten huses
  have hcount : pin.count = 1 := congrArg Prod.fst hvalues
  have hlimit : pin.limit = 1 := congrArg Prod.snd hvalues
  rw [hcount, hlimit] at hbelow
  exact absurd hbelow (Nat.lt_irrefl _)

/-- A wrong password for an index below its limit. -/
theorem password_counted :
    let r := run pinStep pinStart (pinEvents 0 1)
    let evaluations := r.state.commandEvaluations pinWorld nvReadRow [pinHandle, pinHandle]
      [⟨TpmHandle.rsPw, {}, [], false⟩]
    evaluations.length = 1 ∧ r.Limited ∧ ∀ e ∈ evaluations, e.PinCounted := by
  intro r evaluations
  have hstart : PinRun.Started pinStart := ⟨⟨fun _ => rfl, rfl⟩, ⟨rfl, rfl, rfl⟩, fun _ => rfl, fun _ => rfl⟩
  have hrun : Reachable PinRun.Started
      (fun r r' => ∃ e, r.Guarded e ∧ r' = PinRun.step noHashStates zeroLayout pinWorld.hash r e) r :=
    ((Reachable.init hstart).step
      ⟨.nv (.nvDefineSpace .rhOwner (.ofBytes [1]) pinFailIndex []), trivial, rfl⟩).step
      ⟨.nv (.nvWrite .rhOwner pinHandle 0 (be 4 0 ++ be 4 1)), trivial, rfl⟩
  obtain ⟨hlimited, hcounted⟩ := PinRun.limited_of_run hrun
  refine ⟨by decide +kernel, hlimited, hcounted _ _ _ _ fun e he i pin _ _ => ?_⟩
  have hpassword : ∀ e ∈ evaluations, e.use.isPolicy = false ∧ e.session.isNone = true ∧ e.before.nv.nvStatus = none := by
    decide +kernel
  obtain ⟨hpolicy, hsession, hstatus⟩ := hpassword e he
  refine ⟨fun hp => ?_, fun _ => ⟨fun _ y hy => ?_, .inr hstatus⟩⟩
  · rw [hpolicy] at hp
    cases hp
  · rw [hy] at hsession
    cases hsession

end PqcTpm
