import PqcTpm.Lib.BitArrays
import PqcTpm.Lib.Rounds
import PqcTpm.PcrPolicy

/-!
# Reading PCRs

`PCRRead` goes over a list of selections and gives the values of at most eight PCRs; the selections that it gives
back name these. What is selected and left can be asked for in a further round.
-/
namespace PqcTpm
open ByteCodec BitArrays Rounds Transition

/-! ## Selections on the wire -/

namespace PcrSelection

/-- `PCR_SELECT_MIN` and `PCR_SELECT_MAX`. -/
def selectMin : Nat := 3
def selectMax : Nat := 3

/-- `TPMS_PCR_SELECTION_Unmarshal`. -/
def unmarshal (p : RuntimeProfile) : Unmarshal PcrSelection := do
  let hash ← HashAlg.unmarshal p
  let sizeofSelect ← Reader.word 1 (.of .insufficient)
  Reader.check (decide (selectMin ≤ sizeofSelect ∧ sizeofSelect ≤ selectMax)) (.of .value)
  let pcrSelect ← Reader.take sizeofSelect (.of .insufficient)
  pure ⟨hash, pcrSelect⟩

/-- `TPML_PCR_SELECTION_Unmarshal`; there are four hash algorithms. -/
def unmarshalList (p : RuntimeProfile) : Unmarshal (List PcrSelection) := do
  let count ← Reader.word 4 (.of .insufficient)
  Reader.check (decide (count ≤ 4)) (.of .size)
  Reader.many (unmarshal p) count

/-- The bit of a PCR is cleared. -/
def clearBit (pcr : Nat) (select : PcrSelection) : PcrSelection :=
  { select with pcrSelect := select.pcrSelect.modify (pcr / 8) (· &&& ~~~BitArray.mask pcr) }

def clearAll (select : PcrSelection) : PcrSelection := { select with pcrSelect := select.pcrSelect.map fun _ => 0 }

/-- The loop that clears the PCRs from one on, and the PCR where it stops. -/
def clearRest : Nat → Nat → PcrSelection → PcrSelection × Nat
  | 0, pcr, select => (select, pcr)
  | n + 1, pcr, select =>
      if pcr / 8 < select.pcrSelect.length then clearRest n (pcr + 1) (select.clearBit pcr) else (select, pcr)

/-- The selection without what was given back. -/
def without (select given : PcrSelection) : PcrSelection :=
  { select with pcrSelect := select.pcrSelect.zipWith (fun a b => a &&& ~~~b) given.pcrSelect }

end PcrSelection

namespace PcrState
variable (P : PcrState)

def filterPcr (select : PcrSelection) : PcrSelection :=
  AttestState.filterPcr { pcrAllocated := P.pcrAllocated } select

/-- The loop over the PCRs of a bank, from one on: the selection, the PCR where it stops and the digests. -/
def readBank : Nat → Nat → PcrSelection → List Bytes → Except Fault (PcrSelection × Nat × List Bytes)
  | 0, pcr, select, digests => .ok (select, pcr, digests)
  | n + 1, pcr, select, digests =>
      if isPcrSelected pcr select then
        if 7 < digests.length then
          let (select, pcr) := select.clearRest (n + 1) pcr
          .ok (select, pcr, digests)
        else if P.pcrIsAllocated pcr select.hash then
          readBank n (pcr + 1) select (digests ++ [P.pcrs select.hash pcr])
        else .error .failureMode
      else readBank n (pcr + 1) select digests

/-- The loop over the selections. -/
def readBanks : List PcrSelection → List Bytes → Except Fault (List PcrSelection × List Bytes)
  | [], digests => .ok ([], digests)
  | select :: rest, digests => do
      let (select, pcr, digests) ← P.readBank 24 0 (P.filterPcr select) digests
      if 7 < digests.length ∧ pcr < 24 then
        -- the selection of this bank is cleared with the others
        pure ((select :: rest).map PcrSelection.clearAll, digests)
      else
        let (rest, digests) ← readBanks rest digests
        pure (select :: rest, digests)

/-- `TPM2_PCR_Read`: the counter, the selections and the digests. -/
def tpm2PcrRead (pcrSelectionIn : List PcrSelection) : Except Fault (Nat × List PcrSelection × List Bytes) := do
  let (pcrSelectionOut, pcrValues) ← P.readBanks pcrSelectionIn []
  pure (P.pcrCounter, pcrSelectionOut, pcrValues)

/-- Rounds that ask for what is left: what is given back in each. -/
def readRounds : Nat → List PcrSelection → Except Fault (List (List PcrSelection × List Bytes))
  | 0, _ => .ok []
  | n + 1, selection => do
      let (_, out, digests) ← P.tpm2PcrRead selection
      let later ← readRounds n (selection.zipWith PcrSelection.without out)
      pure ((out, digests) :: later)

/-! ## What is selected -/

/-- The PCRs of a bank that a selection names and that are allocated. -/
def selected (select : PcrSelection) : List Nat :=
  (List.range 24).filter fun pcr => isPcrSelected pcr select && P.pcrIsAllocated pcr select.hash

/-- The places of the PCRs that are asked for: the number of the selection, and the PCR. -/
def wanted (selection : List PcrSelection) : List (Nat × Nat) := places 0 (selection.map P.selected)

/-- The current value of the PCR at a place. -/
def valueAt (selection : List PcrSelection) (place : Nat × Nat) : Bytes :=
  match selection[place.1]? with
  | some select => P.pcrs select.hash place.2
  | none => []

end PcrState

/-- The places that selections name. -/
def picks (selection : List PcrSelection) : List (Nat × Nat) :=
  places 0 (selection.map fun s => (List.range 24).filter fun pcr => isPcrSelected pcr s)

/-- Every array of PCRs has `PCR_SELECT_MAX` octets. -/
def FullSize (selection : List PcrSelection) : Prop := ∀ s ∈ selection, s.pcrSelect.length = 3

/-! ## Bits -/

theorem isPcrSelected_eq_get (pcr : Nat) (select : PcrSelection) :
    isPcrSelected pcr select = BitArray.get ⟨select.pcrSelect, rfl⟩ pcr := by
  unfold isPcrSelected BitArray.get
  rw [BitVec.getLsbD]
  rfl

theorem isPcrSelected_clearBit {pcr : Nat} {select : PcrSelection} (h : pcr / 8 < select.pcrSelect.length) (n : Nat) :
    isPcrSelected n (select.clearBit pcr) = (isPcrSelected n select && !decide (n = pcr)) := by
  have hclear : BitArray.clear? pcr ⟨select.pcrSelect, rfl⟩ =
      some (BitArray.modify (· &&& ~~~BitArray.mask pcr) pcr ⟨select.pcrSelect, rfl⟩) := if_pos h
  have hget := BitArray.get_clear? hclear n
  rw [isPcrSelected_eq_get n select, ← hget, isPcrSelected_eq_get]
  rfl

theorem isPcrSelected_zipWith (f : UInt8 → UInt8 → UInt8) (g : Bool → Bool → Bool)
    (hf : ∀ a b i, (f a b).toNat.testBit i = g (a.toNat.testBit i) (b.toNat.testBit i)) {a b : PcrSelection}
    (hsize : a.pcrSelect.length = b.pcrSelect.length) {pcr : Nat} (h : pcr / 8 < a.pcrSelect.length) :
    isPcrSelected pcr { a with pcrSelect := a.pcrSelect.zipWith f b.pcrSelect } =
      g (isPcrSelected pcr a) (isPcrSelected pcr b) := by
  unfold isPcrSelected
  dsimp only
  rw [List.getD_eq_getElem _ _ (by rw [List.length_zipWith]; omega), List.getElem_zipWith, hf,
    List.getD_eq_getElem _ _ h, List.getD_eq_getElem _ _ (by omega)]

/-! ## One bank -/

/-- The PCRs that are selected among `n` from `pcr` on. -/
def bitsFrom (pcr n : Nat) (select : PcrSelection) : List Nat :=
  (List.range' pcr n).filter fun pcr => isPcrSelected pcr select

theorem bitsFrom_succ (pcr n : Nat) (select : PcrSelection) :
    bitsFrom pcr (n + 1) select =
      if isPcrSelected pcr select then pcr :: bitsFrom (pcr + 1) n select else bitsFrom (pcr + 1) n select := by
  unfold bitsFrom
  rw [List.range'_succ, List.filter_cons]

/-- The rest of a bank is cleared up to its last PCR, for an array of full size. -/
theorem clearRest_spec {n pcr : Nat} (select : PcrSelection) (hn : pcr + n = 24) (h : select.pcrSelect.length = 3) :
    (select.clearRest n pcr).2 = 24 ∧ (select.clearRest n pcr).1.hash = select.hash ∧
      (select.clearRest n pcr).1.pcrSelect.length = 3 ∧
      ∀ i, isPcrSelected i (select.clearRest n pcr).1 = (isPcrSelected i select && !decide (pcr ≤ i ∧ i < 24)) := by
  induction n generalizing pcr select with
  | zero =>
      refine ⟨hn, rfl, h, fun i => ?_⟩
      rw [PcrSelection.clearRest, decide_eq_false (by omega), Bool.not_false, Bool.and_true]
  | succ n ih =>
      have hin : pcr / 8 < select.pcrSelect.length := by omega
      rw [PcrSelection.clearRest, if_pos hin]
      obtain ⟨hstop, hhash, hsize, hbits⟩ := ih (select.clearBit pcr) (show pcr + 1 + n = 24 by omega)
        (by rw [PcrSelection.clearBit, List.length_modify, h])
      refine ⟨hstop, hhash, hsize, fun i => ?_⟩
      rw [hbits, isPcrSelected_clearBit hin, Bool.and_assoc]
      congr 1
      by_cases hi : i = pcr
      · subst hi
        rw [decide_eq_true rfl, decide_eq_true (show i ≤ i ∧ i < 24 by omega)]
        rfl
      · rw [decide_eq_false hi, Bool.not_false, Bool.true_and]
        congr 1
        exact decide_eq_decide.mpr (by omega)

/-- What a bank gives from a PCR on: as many of its PCRs as there is room for, which are those that stay selected. -/
theorem readBank_spec (P : PcrState) {n pcr : Nat} {select : PcrSelection} (digests : List Bytes) (hn : pcr + n = 24)
    (h : select.pcrSelect.length = 3) (hcount : digests.length ≤ 8)
    (hallocated : ∀ i, i < 24 → isPcrSelected i select = true → P.pcrIsAllocated i select.hash = true) :
    ∃ select', P.readBank n pcr select digests = .ok (select', 24,
        digests ++ ((bitsFrom pcr n select).take (8 - digests.length)).map (P.pcrs select.hash)) ∧
      select'.hash = select.hash ∧ select'.pcrSelect.length = 3 ∧
      bitsFrom pcr n select' = (bitsFrom pcr n select).take (8 - digests.length) ∧
      ∀ i < pcr, isPcrSelected i select' = isPcrSelected i select := by
  induction n generalizing pcr digests with
  | zero =>
      obtain rfl : pcr = 24 := hn
      have hnone : bitsFrom 24 0 select = [] := rfl
      refine ⟨select, ?_, rfl, h, by rw [hnone, List.take_nil], fun _ _ => rfl⟩
      rw [PcrState.readBank, hnone, List.take_nil, List.map_nil, List.append_nil]
  | succ n ih =>
      rw [PcrState.readBank, bitsFrom_succ]
      by_cases hselected : isPcrSelected pcr select = true
      · rw [if_pos hselected, if_pos hselected]
        by_cases hfull : 7 < digests.length
        · obtain ⟨hstop, hhash, hsize, hbits⟩ := clearRest_spec select hn h
          have hroom : 8 - digests.length = 0 := by omega
          rw [if_pos hfull, hroom, List.take_zero, List.map_nil, List.append_nil]
          refine ⟨(select.clearRest (n + 1) pcr).1, ?_, hhash, hsize, ?_, fun i hi => ?_⟩
          · rw [← hstop]
          · unfold bitsFrom
            apply List.filter_eq_nil_iff.mpr
            intro i hi
            obtain ⟨hle, hlt⟩ := List.mem_range'_1.mp hi
            rw [hbits, decide_eq_true (by omega), Bool.not_true, Bool.and_false]
            exact Bool.false_ne_true
          · rw [hbits, decide_eq_false (by omega), Bool.not_false, Bool.and_true]
        · obtain ⟨room, hroom⟩ : ∃ room, 8 - digests.length = room + 1 := ⟨7 - digests.length, by omega⟩
          have hlen : (digests ++ [P.pcrs select.hash pcr]).length = digests.length + 1 := by
            rw [List.length_append, List.length_singleton]
          obtain ⟨select', hread, hhash, hsize, hbits, hbefore⟩ :=
            ih (digests ++ [P.pcrs select.hash pcr]) (show pcr + 1 + n = 24 by omega) (by omega)
          have hrest : 8 - (digests ++ [P.pcrs select.hash pcr]).length = room := by omega
          have hstays : isPcrSelected pcr select' = true := (hbefore pcr (Nat.lt_succ_self pcr)).trans hselected
          rw [hrest] at hread hbits
          rw [if_neg hfull, if_pos (hallocated pcr (by omega) hselected), hread, hroom, List.take_succ_cons]
          refine ⟨select', ?_, hhash, hsize, ?_, fun i hi => hbefore i (by omega)⟩
          · rw [List.append_assoc, List.map_cons]
            rfl
          · rw [bitsFrom_succ, if_pos hstays, hbits]
      · rw [if_neg hselected, if_neg hselected]
        obtain ⟨select', hread, hhash, hsize, hbits, hbefore⟩ := ih digests (show pcr + 1 + n = 24 by omega) hcount
        have hstays : ¬ isPcrSelected pcr select' = true := by rwa [hbefore pcr (Nat.lt_succ_self pcr)]
        refine ⟨select', hread, hhash, hsize, ?_, fun i hi => hbefore i (by omega)⟩
        rw [bitsFrom_succ, if_neg hstays, hbits]

/-! ## All banks -/

theorem selectedPcrs_eq (select : PcrSelection) :
    ((List.range 24).filter fun pcr => isPcrSelected pcr select) = bitsFrom 0 24 select := by
  rw [List.range_eq_range']
  rfl

/-- What a selection names after `FilterPcr`: the PCRs that are allocated. -/
theorem filterPcr_spec {P : PcrState} (hP : FullSize P.pcrAllocated) {select : PcrSelection}
    (h : select.pcrSelect.length = 3) :
    (P.filterPcr select).hash = select.hash ∧ (P.filterPcr select).pcrSelect.length = 3 ∧
      ∀ i, i < 24 →
        isPcrSelected i (P.filterPcr select) = (isPcrSelected i select && P.pcrIsAllocated i select.hash) := by
  unfold PcrState.filterPcr AttestState.filterPcr PcrState.pcrIsAllocated
  dsimp only
  cases hfind : P.pcrAllocated.find? fun a => a.hash == select.hash with
  | none =>
      refine ⟨rfl, by rw [List.length_map, h], fun i hi => ?_⟩
      unfold isPcrSelected
      dsimp only
      rw [Bool.and_false, List.getD_eq_getElem _ _ (by rw [List.length_map]; omega), List.getElem_map]
      exact Nat.zero_testBit _
  | some allocated =>
      have hsize : allocated.pcrSelect.length = 3 := hP _ (List.mem_of_find?_eq_some hfind)
      refine ⟨rfl, by rw [List.length_zipWith]; omega, fun i hi => ?_⟩
      rw [isPcrSelected_zipWith _ (· && ·) (fun a b i => by rw [UInt8.toNat_and, Nat.testBit_and]) (by omega) (by omega)]
      dsimp only
      rw [decide_eq_true hi, Bool.true_and]

theorem selected_eq {P : PcrState} (hP : FullSize P.pcrAllocated) {select : PcrSelection}
    (h : select.pcrSelect.length = 3) : P.selected select = bitsFrom 0 24 (P.filterPcr select) := by
  obtain ⟨-, -, hbits⟩ := filterPcr_spec hP h
  unfold PcrState.selected bitsFrom
  rw [← List.range_eq_range']
  apply List.filter_congr
  intro i hi
  rw [hbits i (List.mem_range.mp hi)]

/-- All banks: the PCRs that are given back are the first that there is room for, and the digests are their values. -/
theorem readBanks_spec {P : PcrState} (hP : FullSize P.pcrAllocated) {selection : List PcrSelection}
    (h : FullSize selection) (digests : List Bytes) (hcount : digests.length ≤ 8) :
    ∃ out, P.readBanks selection digests = .ok (out, digests ++
        (selection.zipWith (fun s xs => xs.map (P.pcrs s.hash)) (out.map (bitsFrom 0 24))).flatten) ∧
      out.map PcrSelection.hash = selection.map PcrSelection.hash ∧ FullSize out ∧
      out.map (bitsFrom 0 24) = takeAcross (8 - digests.length) (selection.map P.selected) := by
  induction selection generalizing digests with
  | nil => exact ⟨[], by simp [PcrState.readBanks], rfl, fun _ hs => absurd hs List.not_mem_nil, rfl⟩
  | cons select rest ih =>
      have hsize := h select List.mem_cons_self
      obtain ⟨hhash, hsize', hbits⟩ := filterPcr_spec hP hsize
      obtain ⟨select', hread, hhash', hsize'', hbits', -⟩ := readBank_spec P digests
        (show 0 + 24 = 24 from rfl) hsize' hcount (by
          intro i hi hselected
          rw [hbits i hi, Bool.and_eq_true] at hselected
          rw [hhash]
          exact hselected.2)
      rw [← selected_eq hP hsize] at hread hbits'
      have hlen : (digests ++ ((P.selected select).take (8 - digests.length)).map
          (P.pcrs (P.filterPcr select).hash)).length = digests.length + min (8 - digests.length) (P.selected select).length := by
        rw [List.length_append, List.length_map, List.length_take]
      obtain ⟨out, hreads, hhashes, hfull, hall⟩ := ih (fun s hs => h s (List.mem_cons_of_mem _ hs)) (digests ++
        ((P.selected select).take (8 - digests.length)).map (P.pcrs (P.filterPcr select).hash)) (by omega)
      have hroom : 8 - (digests.length + min (8 - digests.length) (P.selected select).length) =
          8 - digests.length - (P.selected select).length := by omega
      rw [hlen, hroom] at hall
      refine ⟨select' :: out, ?_, ?_, ?_, ?_⟩
      · rw [PcrState.readBanks, hread]
        dsimp only [Bind.bind, Except.bind]
        rw [if_neg (fun hbreak => Nat.lt_irrefl 24 hbreak.2), hreads]
        dsimp only
        rw [List.map_cons, List.zipWith_cons_cons, List.flatten_cons, hbits', hhash, List.append_assoc]
        rfl
      · rw [List.map_cons, List.map_cons, hhashes, hhash', hhash]
      · intro s hs
        rcases List.mem_cons.mp hs with rfl | hs
        · exact hsize''
        · exact hfull s hs
      · rw [List.map_cons, List.map_cons, takeAcross, hbits', hall]

/-! ## One read -/

theorem valueAt_congr (P : PcrState) {selection selection' : List PcrSelection}
    (h : selection'.map PcrSelection.hash = selection.map PcrSelection.hash) : P.valueAt selection' = P.valueAt selection := by
  funext place
  have hat := congrArg (fun hashes : List HashAlg => hashes[place.1]?) h
  simp only [List.getElem?_map] at hat
  unfold PcrState.valueAt
  cases h₁ : selection'[place.1]? <;> cases h₂ : selection[place.1]? <;> rw [h₁, h₂] at hat <;> simp_all

/-- `TPM2_PCR_Read` gives back the first eight places of those that are wanted, and the values there. -/
theorem tpm2PcrRead_spec {P : PcrState} (hP : FullSize P.pcrAllocated) {selection : List PcrSelection}
    (h : FullSize selection) :
    ∃ out, P.tpm2PcrRead selection = .ok (P.pcrCounter, out, (picks out).map (P.valueAt selection)) ∧
      out.map PcrSelection.hash = selection.map PcrSelection.hash ∧ FullSize out ∧
      out.map (bitsFrom 0 24) = takeAcross 8 (selection.map P.selected) ∧ picks out = (P.wanted selection).take 8 := by
  obtain ⟨out, hread, hhashes, hfull, hbits⟩ := readBanks_spec hP h [] (Nat.zero_le 8)
  have hpicks : picks out = places 0 (out.map (bitsFrom 0 24)) := by
    unfold picks
    simp only [selectedPcrs_eq]
  have hlen : (out.map (bitsFrom 0 24)).length = selection.length := by
    have hlen := congrArg List.length hhashes
    rwa [List.length_map, List.length_map, ← List.length_map (f := bitsFrom 0 24)] at hlen
  have hvalues : (picks out).map (P.valueAt selection) =
      (selection.zipWith (fun s xs => xs.map (P.pcrs s.hash)) (out.map (bitsFrom 0 24))).flatten := by
    rw [hpicks]
    exact map_places (fun s pcr => match s with
      | some select => P.pcrs (PcrSelection.hash select) pcr
      | none => []) [] selection _ hlen
  refine ⟨out, ?_, hhashes, hfull, hbits, ?_⟩
  · rw [PcrState.tpm2PcrRead, hread, List.nil_append, ← hvalues]
    rfl
  · rw [hpicks, hbits, places_takeAcross]
    rfl

/-! ## Rounds -/

theorem testBit_and_not (a b : UInt8) (i : Nat) :
    (a &&& ~~~b).toNat.testBit i = (a.toNat.testBit i && !b.toNat.testBit i) := by
  change (a &&& ~~~b).toBitVec.getLsbD i = (a.toBitVec.getLsbD i && !b.toBitVec.getLsbD i)
  rw [UInt8.toBitVec_and, UInt8.toBitVec_not, BitVec.getLsbD_and, BitVec.getLsbD_not]
  by_cases hi : i < 8
  · rw [decide_eq_true hi, Bool.true_and]
  · rw [BitVec.getLsbD_of_ge a.toBitVec i (Nat.le_of_not_lt hi), Bool.false_and, Bool.false_and]

theorem without_size {select given : PcrSelection} (h : select.pcrSelect.length = 3) (hgiven : given.pcrSelect.length = 3) :
    (select.without given).pcrSelect.length = 3 := by
  rw [PcrSelection.without, List.length_zipWith]
  omega

/-- What is left of a bank, when the front of what it names was given back. -/
theorem selected_without {P : PcrState} {select given : PcrSelection} {n : Nat} (h : select.pcrSelect.length = 3)
    (hgiven : given.pcrSelect.length = 3) (hfront : bitsFrom 0 24 given = (P.selected select).take n) :
    P.selected (select.without given) = (P.selected select).drop n := by
  have hnodup : (P.selected select).Nodup := List.nodup_range.filter _
  rw [← filter_eq_drop (p := fun i => !isPcrSelected i given) hnodup]
  · unfold PcrState.selected
    rw [List.filter_filter]
    apply List.filter_congr
    intro i hi
    have hin := List.mem_range.mp hi
    have hbit : isPcrSelected i (select.without given) = (isPcrSelected i select && !isPcrSelected i given) :=
      isPcrSelected_zipWith (fun a b => a &&& ~~~b) (fun a b => a && !b) testBit_and_not (by omega) (by omega)
    rw [hbit]
    dsimp only [PcrSelection.without]
    cases isPcrSelected i select <;> cases isPcrSelected i given <;> simp
  · intro i hi
    have hin := List.mem_range.mp (List.mem_filter.mp hi).1
    rw [← hfront]
    unfold bitsFrom
    rw [List.mem_filter, List.mem_range'_1]
    cases isPcrSelected i given <;> simp [hin]

theorem selected_rest {P : PcrState} {selection out : List PcrSelection} (h : FullSize selection) (hout : FullSize out)
    {n : Nat} (hbits : out.map (bitsFrom 0 24) = takeAcross n (selection.map P.selected)) :
    (selection.zipWith PcrSelection.without out).map P.selected = dropAcross n (selection.map P.selected) := by
  induction selection generalizing out n with
  | nil => rfl
  | cons select rest ih =>
      cases out with
      | nil => cases hbits
      | cons given out =>
          rw [List.map_cons, List.map_cons, takeAcross] at hbits
          obtain ⟨hhead, htail⟩ := List.cons.inj hbits
          rw [List.zipWith_cons_cons, List.map_cons, List.map_cons, dropAcross,
            selected_without (h _ List.mem_cons_self) (hout _ List.mem_cons_self) hhead,
            ih (fun s hs => h s (List.mem_cons_of_mem _ hs)) (fun s hs => hout s (List.mem_cons_of_mem _ hs)) htail]

theorem readRounds_spec {P : PcrState} (hP : FullSize P.pcrAllocated) (n : Nat) {selection : List PcrSelection}
    (h : FullSize selection) :
    ∃ rounds, P.readRounds n selection = .ok rounds ∧
      rounds.flatMap (fun r => picks r.1) = (P.wanted selection).take (8 * n) ∧
      rounds.flatMap Prod.snd = ((P.wanted selection).take (8 * n)).map (P.valueAt selection) := by
  induction n generalizing selection with
  | zero => exact ⟨[], rfl, List.take_zero.symm, by rw [Nat.mul_zero, List.take_zero]; rfl⟩
  | succ n ih =>
      obtain ⟨out, hread, hhashes, hfull, hbits, hpicks⟩ := tpm2PcrRead_spec hP h
      have hlen : selection.length = out.length := by
        have hlen := congrArg List.length hhashes
        rw [List.length_map, List.length_map] at hlen
        exact hlen.symm
      have hrest : FullSize (selection.zipWith PcrSelection.without out) := by
        intro s hs
        obtain ⟨i, hi, rfl⟩ := List.getElem_of_mem hs
        rw [List.length_zipWith] at hi
        rw [List.getElem_zipWith]
        exact without_size (h _ (List.getElem_mem _)) (hfull _ (List.getElem_mem _))
      have hwanted : P.wanted (selection.zipWith PcrSelection.without out) = (P.wanted selection).drop 8 := by
        unfold PcrState.wanted
        rw [selected_rest h hfull hbits, places_dropAcross]
      have hsame : (selection.zipWith PcrSelection.without out).map PcrSelection.hash =
          selection.map PcrSelection.hash := by
        apply List.ext_getElem
        · rw [List.length_map, List.length_map, List.length_zipWith, ← hlen, Nat.min_self]
        · intro i hi hi'
          rw [List.getElem_map, List.getElem_map, List.getElem_zipWith]
          rfl
      obtain ⟨rounds, hrounds, hplaces, hvalues⟩ := ih hrest
      have hsplit : (P.wanted selection).take (8 * (n + 1)) =
          (P.wanted selection).take 8 ++ ((P.wanted selection).drop 8).take (8 * n) := by
        rw [Nat.mul_succ, Nat.add_comm, List.take_add]
      refine ⟨(out, (picks out).map (P.valueAt selection)) :: rounds, ?_, ?_, ?_⟩
      · rw [PcrState.readRounds, hread]
        dsimp only [Bind.bind, Except.bind]
        rw [hrounds]
        rfl
      · rw [List.flatMap_cons, hplaces, hwanted, hpicks, hsplit]
      · rw [List.flatMap_cons, hvalues, hwanted, hpicks, hsplit, List.map_append, valueAt_congr P hsame]

/-! ## Every read -/

theorem PcrSelection.unmarshal_size {p : RuntimeProfile} {bs rest : Bytes} {s : PcrSelection}
    (h : PcrSelection.unmarshal p bs = .ok (s, rest)) : s.pcrSelect.length = 3 := by
  obtain ⟨hash, bs₁, -, h⟩ := Reader.bind_eq_ok h
  obtain ⟨size, bs₂, -, h⟩ := Reader.bind_eq_ok h
  obtain ⟨hsize, h⟩ := Reader.check_bind_eq_ok h
  obtain ⟨octets, bs₃, hoctets, h⟩ := Reader.bind_eq_ok h
  cases h
  obtain ⟨hlen, -⟩ := Reader.take_eq_ok hoctets
  have hrange := of_decide_eq_true hsize
  unfold selectMin selectMax at hrange
  dsimp only
  omega

theorem PcrSelection.unmarshalList_fullSize {p : RuntimeProfile} {bs rest : Bytes} {selection : List PcrSelection}
    (h : PcrSelection.unmarshalList p bs = .ok (selection, rest)) : FullSize selection := by
  obtain ⟨count, bs₁, -, h⟩ := Reader.bind_eq_ok h
  obtain ⟨-, h⟩ := Reader.check_bind_eq_ok h
  exact Reader.many_mem (fun bs a rest => PcrSelection.unmarshal_size) h

/-- The banks with the arrays of their allocation, which have `PCR_SELECT_MAX` octets by their type. -/
structure PcrBanks extends PcrState where
  fullSize : FullSize pcrAllocated

theorem manufacturedBanks_fullSize : FullSize manufacturedBanks := by
  intro s hs
  obtain ⟨alg, -, rfl⟩ := List.mem_map.mp hs
  rfl

/-- An allocation that is written has arrays of full size again. -/
theorem pcrAllocate_fullSize {allocate allocated banks : List PcrSelection} (h : FullSize allocate)
    (hallocated : FullSize allocated) (hok : pcrAllocate allocate allocated = .ok banks) : FullSize banks := by
  have hreplace : ∀ (a : PcrSelection) (bs : List PcrSelection), a.pcrSelect.length = 3 → FullSize bs →
      FullSize (replaceBank a bs) := by
    intro a bs ha hbs
    induction bs with
    | nil => exact hbs
    | cons b bs ih =>
        have htail := ih fun s hs => hbs s (List.mem_cons_of_mem _ hs)
        rw [replaceBank]
        split
        · exact List.forall_mem_cons.mpr ⟨ha, fun s hs => hbs s (List.mem_cons_of_mem _ hs)⟩
        · exact List.forall_mem_cons.mpr ⟨hbs b List.mem_cons_self, htail⟩
  have hfold : FullSize (allocate.foldl (fun banks a => replaceBank a banks) allocated) := by
    clear hok
    induction allocate generalizing allocated with
    | nil => exact hallocated
    | cons a rest ih =>
        exact ih (fun s hs => h s (List.mem_cons_of_mem _ hs)) (hreplace a allocated (h a List.mem_cons_self) hallocated)
  unfold pcrAllocate at hok
  dsimp only at hok
  split at hok
  · cases hok
    exact hfold
  · cases hok

/-- For every allocation and every selection that unmarshals, `TPM2_PCR_Read` gives as many digests as its selections
name PCRs, at most eight; these are the first PCRs of the selection that are allocated, with their current values; and
rounds over what is left come to every one of them once. -/
theorem pcrRead_exact (P : PcrBanks) {p : RuntimeProfile} {bs rest : Bytes} {selection : List PcrSelection}
    (h : PcrSelection.unmarshalList p bs = .ok (selection, rest)) :
    (∃ out digests, P.tpm2PcrRead selection = .ok (P.pcrCounter, out, digests) ∧
        out.map (fun s => (s.hash, s.pcrSelect.length)) = selection.map (fun s => (s.hash, s.pcrSelect.length)) ∧
        (picks out).length = digests.length ∧ digests.length ≤ 8 ∧ picks out = (P.wanted selection).take 8 ∧
        digests = (picks out).map (P.valueAt selection)) ∧
      (P.wanted selection).Nodup ∧
      ∀ n, (P.wanted selection).length ≤ 8 * n → ∃ rounds, P.readRounds n selection = .ok rounds ∧
        rounds.flatMap (fun r => picks r.1) = P.wanted selection ∧
        rounds.flatMap Prod.snd = (P.wanted selection).map (P.valueAt selection) := by
  have hfull := PcrSelection.unmarshalList_fullSize h
  refine ⟨?_, ?_, fun n hn => ?_⟩
  · obtain ⟨out, hread, hhashes, hout, -, hpicks⟩ := tpm2PcrRead_spec P.fullSize hfull
    have hsizes : ∀ {s : List PcrSelection}, FullSize s →
        s.map (fun s => (s.hash, s.pcrSelect.length)) = (s.map PcrSelection.hash).map fun h => (h, 3) := by
      intro s hs
      rw [List.map_map]
      apply List.map_congr_left
      intro a ha
      rw [hs a ha]
      rfl
    refine ⟨out, _, hread, ?_, (List.length_map _).symm, ?_, hpicks, rfl⟩
    · rw [hsizes hout, hsizes hfull, hhashes]
    · rw [List.length_map, hpicks]
      exact List.length_take_le 8 _
  · refine places_nodup fun xs hxs => ?_
    obtain ⟨s, -, rfl⟩ := List.mem_map.mp hxs
    exact List.nodup_range.filter _
  · obtain ⟨rounds, hrounds, hplaces, hvalues⟩ := readRounds_spec P.fullSize n hfull
    rw [List.take_of_length_le hn] at hplaces hvalues
    exact ⟨rounds, hrounds, hplaces, hvalues⟩

/-- All PCRs of the SHA-256 bank come in three rounds. -/
theorem pcrRead_exact_sha256 :
    ∃ rounds, ({ pcrAllocated := manufacturedBanks } : PcrState).readRounds 3 [⟨.sha256, [0xFF, 0xFF, 0xFF]⟩] = .ok rounds ∧
      rounds.flatMap (fun r => picks r.1) = (List.range 24).map (fun pcr => (0, pcr)) := by
  have hunmarshal : PcrSelection.unmarshalList ⟨0, fun _ => true, fun _ => 0, fun _ => true, fun _ => true, rfl⟩
      [0, 0, 0, 1, 0x00, 0x0B, 3, 0xFF, 0xFF, 0xFF] = .ok ([⟨.sha256, [0xFF, 0xFF, 0xFF]⟩], []) := rfl
  obtain ⟨rounds, hrounds, hplaces, -⟩ := (pcrRead_exact ⟨{ pcrAllocated := manufacturedBanks }, manufacturedBanks_fullSize⟩
    hunmarshal).2.2 3 (by decide)
  exact ⟨rounds, hrounds, hplaces.trans (by decide)⟩

end PqcTpm
