import PqcTpm.NvLifecycle

/-!
# The values of indices

What is read from an index in terms of its cell, and how a write of eight octets, a command
that is quiet, and a start change that.
-/
namespace PqcTpm
open ByteCodec Transition

theorem fromBe_take_lt (bs : Bytes) : fromBe (bs.take 8) < 2 ^ 64 := by
  have hlt := fromBe_lt (bs.take 8)
  have hlen : (bs.take 8).length ≤ 8 := List.length_take_le 8 bs
  have hpow : (256 : Nat) ^ (bs.take 8).length ≤ 256 ^ 8 := Nat.pow_le_pow_right (by decide) hlen
  exact Nat.lt_of_lt_of_le hlt hpow

namespace Cell
variable {c c' : Cell}

/-- The first eight octets as a number. -/
def count (c : Cell) : Nat := fromBe (c.octets.take 8)

theorem info_written_ram {r : RamEntry} (ho : c.index.orderly = true) (hr : c.ram = some r) :
    c.info.written = r.attributes.toNat.testBit 29 := by
  have hattributes : c.attributes = r.attributes := by
    unfold attributes
    rw [ho, hr]
  unfold info
  rw [hattributes]
  rfl

theorem info_written_inNv (ho : c.index.orderly = false) : c.info.written = c.index.written := by
  have hattributes : c.attributes = c.index.publicArea.attributes := by
    unfold attributes
    rw [ho]
  unfold info
  rw [hattributes]
  rfl

theorem count_ram {r : RamEntry} (ho : c.index.orderly = true) (hr : c.ram = some r) :
    c.count = fromBe (r.data.take 8) := by
  unfold count octets
  rw [ho, hr]

theorem count_inNv (ho : c.index.orderly = false) : c.count = fromBe (c.data.take 8) := by
  unfold count octets
  rw [ho]

theorem Quiet.orderly (hq : c.Quiet c') : c'.index.orderly = c.index.orderly :=
  TpmaNv.testBit_of_kind hq.kind (by decide)

theorem Quiet.isCounter (hq : c.Quiet c') : c'.index.isCounter = c.index.isCounter := by
  have hnt : c'.index.nt = c.index.nt := TpmaNv.nt_of_kind hq.kind
  rw [NvIndex.isCounter_eq, NvIndex.isCounter_eq, hnt]

theorem Quiet.same (hs : c.Sound) (hq : c.Quiet c') : c'.info.written = c.info.written ∧ c'.octets = c.octets := by
  unfold octets
  cases ho : c.index.orderly with
  | true =>
      obtain ⟨⟨r, hr, -⟩, -⟩ := hs.orderly ho
      have hram := hq.ram
      rw [hr] at hram
      cases hr' : c'.ram with
      | none =>
          rw [hr'] at hram
          cases hram
      | some r' =>
          rw [hr'] at hram
          cases hram with
          | some hsame =>
              rw [info_written_ram ho hr, info_written_ram (hq.orderly.trans ho) hr', hq.orderly, ho, hr]
              exact ⟨hsame.written, hsame.data⟩
  | false =>
      rw [info_written_inNv ho, info_written_inNv (hq.orderly.trans ho), hq.orderly, ho]
      exact ⟨hq.written, hq.data⟩

/-! ### Writing eight octets -/

theorem take_splice_zero {old new : Bytes} (hlen : new.length = 8) : (splice old 0 new).take 8 = new := by
  unfold splice
  rw [List.take_zero, List.nil_append, ← hlen, List.take_left]

theorem write_count (hs : c.Sound) {n : Nat} (hn : n < 2 ^ 64) (save : Bool) :
    (c.write 0 (be 8 n) save).info.written = true ∧ (c.write 0 (be 8 n) save).count = n := by
  have hvalue : ∀ old, fromBe ((splice old 0 (be 8 n)).take 8) = n := by
    intro old
    rw [take_splice_zero (be_length 8 n), fromBe_be hn]
  have hset : ∀ a : UInt32, (TpmaNv.set a 29).toNat.testBit 29 = true := by
    intro a
    rw [TpmaNv.testBit_set a 29 29 (by decide)]
    simp
  cases ho : c.index.orderly with
  | true =>
      obtain ⟨⟨r, hr, -⟩, -⟩ := hs.orderly ho
      have ho' : (c.write 0 (be 8 n) save).index.orderly = true :=
        (NvDevice.orderly_write 0 (be 8 n) save hs).trans ho
      have hr' : (c.write 0 (be 8 n) save).ram = some (NvDevice.writeRam c 0 (be 8 n) r) := by
        unfold Cell.write
        rw [ho, if_pos rfl, hr]
        rfl
      rw [info_written_ram ho' hr', count_ram ho' hr']
      refine ⟨?_, hvalue _⟩
      unfold NvDevice.writeRam
      dsimp only
      split
      · rename_i hw
        rw [info_written_ram ho hr] at hw
        exact hw
      · exact hset _
  | false =>
      have ho' : (c.write 0 (be 8 n) save).index.orderly = false :=
        (NvDevice.orderly_write 0 (be 8 n) save hs).trans ho
      rw [info_written_inNv ho', count_inNv ho']
      unfold Cell.write
      rw [ho, if_neg Bool.false_ne_true]
      refine ⟨?_, hvalue _⟩
      dsimp only
      split
      · rename_i hw
        rw [info_written_inNv ho] at hw
        exact hw
      · exact hset _

theorem kind_write (hs : c.Sound) (offset : Nat) (new : Bytes) (save : Bool) :
    TpmaNv.kind (c.write offset new save).index.publicArea.attributes = TpmaNv.kind c.index.publicArea.attributes := by
  unfold Cell.write
  split
  · rfl
  · dsimp only
    split
    · rfl
    · have hset : TpmaNv.kind (TpmaNv.set c.attributes 29) = TpmaNv.kind c.attributes := kind_written c.attributes
      exact hset.trans hs.kind_attributes

theorem isCounter_write (hs : c.Sound) (offset : Nat) (new : Bytes) (save : Bool) :
    (c.write offset new save).index.isCounter = c.index.isCounter := by
  have hnt : (c.write offset new save).index.nt = c.index.nt := TpmaNv.nt_of_kind (kind_write hs offset new save)
  rw [NvIndex.isCounter_eq, NvIndex.isCounter_eq, hnt]

/-! ### A start -/

theorem testBit_clear (a : UInt32) {bit j : Nat} (hbit : bit < 32) (hj : j < 32) (hne : bit ≠ j) :
    (TpmaNv.clear a bit).toNat.testBit j = a.toNat.testBit j := by
  unfold TpmaNv.clear
  have hof : (UInt32.ofNat (2 ^ bit)).toNat = 2 ^ bit := by
    rw [UInt32.toNat_ofNat', Nat.mod_eq_of_lt (Nat.pow_lt_pow_right (by decide) hbit)]
  have hnot : (~~~UInt32.ofNat (2 ^ bit)).toNat = 2 ^ 32 - (2 ^ bit + 1) := by
    rw [UInt32.toNat_not, hof]
    have hsize : UInt32.size = 2 ^ 32 := rfl
    rw [hsize]
    omega
  rw [UInt32.toNat_and, Nat.testBit_and, hnot, Nat.testBit_two_pow_sub_succ (Nat.pow_lt_pow_right (by decide) hbit),
    Nat.testBit_two_pow]
  simp [hj, hne]

/-- The copy in RAM after a start that restores `s`. -/
def startRam (startup : StartupKind) (orderly : Bool) (s : RamEntry) : RamEntry :=
  match startup with
  | .resume => s
  | .reset | .restart =>
      let r := { s with attributes := NvDevice.setStartupAttributes startup s.attributes }
      if orderly then r else NvDevice.fillCounter r

theorem start_ram (startup : StartupKind) (orderly : Bool) :
    (c.start startup orderly).ram = c.saved.map (startRam startup orderly) := by
  unfold Cell.start startRam
  cases startup with
  | resume => simp
  | reset => rfl
  | restart => rfl

theorem start_saved (startup : StartupKind) (orderly : Bool) : (c.start startup orderly).saved = c.saved := by
  cases startup <;> rfl

theorem start_data (startup : StartupKind) (orderly : Bool) : (c.start startup orderly).data = c.data := by
  cases startup <;> rfl

theorem start_kind (startup : StartupKind) (orderly : Bool) :
    TpmaNv.kind (c.start startup orderly).index.publicArea.attributes = TpmaNv.kind c.index.publicArea.attributes := by
  have hmap : ∀ k, TpmaNv.kind (if c.index.orderly then c.index
      else c.index.withAttributes (NvDevice.setStartupAttributes k c.index.publicArea.attributes)).publicArea.attributes =
      TpmaNv.kind c.index.publicArea.attributes := by
    intro k
    split
    · rfl
    · exact kind_startup k _
  cases startup with
  | resume => rfl
  | reset => exact hmap .reset
  | restart => exact hmap .restart

theorem start_isCounter (startup : StartupKind) (orderly : Bool) :
    (c.start startup orderly).index.isCounter = c.index.isCounter := by
  have hnt : (c.start startup orderly).index.nt = c.index.nt := TpmaNv.nt_of_kind (start_kind startup orderly)
  rw [NvIndex.isCounter_eq, NvIndex.isCounter_eq, hnt]

theorem start_orderly (startup : StartupKind) (orderly : Bool) :
    (c.start startup orderly).index.orderly = c.index.orderly :=
  TpmaNv.testBit_of_kind (start_kind startup orderly) (by decide)

end Cell

namespace NvDevice
variable {d d' : NvDevice} {h : TpmHandle} {c : Cell}

theorem index_of_cell (hs : d.Sound) (hc : d.cell h = some c) : d.index h = .ok (c.info, c.data) := by
  obtain ⟨hfind, hram, -, -⟩ := cell_eq_some hc
  unfold index NvState.indexInfo NvState.getIndexInfo
  rw [hfind]
  dsimp only
  unfold Cell.info Cell.attributes
  cases ho : c.index.orderly with
  | false => rfl
  | true =>
      obtain ⟨⟨r, hr, -⟩, -⟩ := (hs.cells h c hc).orderly ho
      have hget : d.nv.ramGetIndex h = some r := hram.symm.trans hr
      rw [hget, hr]
      rfl

theorem count_of_cell (hs : d.Sound) (hc : d.cell h = some c) (hsize : c.index.publicArea.dataSize = 8) :
    nvGetUint64Data d.nv c.info c.data = .ok c.count := by
  have hsound := hs.cells h c hc
  obtain ⟨-, hram, -, hhandle⟩ := cell_eq_some hc
  have hinfo : c.info.publicArea.nvIndex = h := hhandle
  have hinfoSize : c.info.publicArea.dataSize = c.index.publicArea.dataSize := rfl
  unfold nvGetUint64Data
  rw [hsound.info_orderly, hinfo, hinfoSize, hsize]
  cases ho : c.index.orderly with
  | false =>
      rw [if_neg Bool.false_ne_true, if_pos (Nat.le_refl 8), Cell.count_inNv ho]
  | true =>
      obtain ⟨⟨r, hr, hcopy⟩, -⟩ := hsound.orderly ho
      have hget : d.nv.ramGetIndex h = some r := hram.symm.trans hr
      rw [if_pos rfl, hget]
      dsimp only
      rw [if_pos (by rw [hcopy.length, hsize]), Cell.count_ram ho hr]

theorem octets_of_cell (hs : d.Sound) (hc : d.cell h = some c) : d.octets c.info c.data = .ok c.octets := by
  have hsound := hs.cells h c hc
  obtain ⟨-, hram, -, hhandle⟩ := cell_eq_some hc
  have hinfo : c.info.publicArea.nvIndex = h := hhandle
  unfold octets Cell.octets
  rw [hsound.info_orderly, hinfo]
  cases ho : c.index.orderly with
  | false => rfl
  | true =>
      obtain ⟨⟨r, hr, -⟩, -⟩ := hsound.orderly ho
      have hget : d.nv.ramGetIndex h = some r := hram.symm.trans hr
      rw [if_pos rfl, hget, hr]

theorem nvRead_ok {authHandle : TpmHandle} {size offset : Nat} {value : Bytes}
    (hread : d.nvRead authHandle h size offset = .ok value) :
    ∃ i data octets, d.index h = .ok (i, data) ∧ i.written = true ∧ d.octets i data = .ok octets ∧
      value = (octets.drop offset).take size := by
  unfold nvRead at hread
  obtain ⟨p, hp, hread⟩ := bind_eq_ok hread
  obtain ⟨_, haccess, hread⟩ := bind_eq_ok hread
  obtain ⟨_, -, hread⟩ := bind_eq_ok hread
  obtain ⟨_, -, hread⟩ := bind_eq_ok hread
  obtain ⟨_, -, hread⟩ := bind_eq_ok hread
  obtain ⟨octets, hoctets, hread⟩ := bind_eq_ok hread
  unfold nvReadAccessChecks at haccess
  obtain ⟨_, -, haccess⟩ := bind_eq_ok haccess
  obtain ⟨_, -, haccess⟩ := bind_eq_ok haccess
  refine ⟨p.1, p.2, octets, hp, demand_eq_ok haccess, hoctets, ?_⟩
  split at hread
  · cases hread
    rfl
  · cases hread

end NvDevice
end PqcTpm
