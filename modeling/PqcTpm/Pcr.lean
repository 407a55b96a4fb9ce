import PqcTpm.Attestation
import PqcTpm.Lib.Transition
import PqcTpm.Lib.Versioned

/-!
# Platform configuration registers

`PCR.c` with the attributes of `PlatformPCR.c`, and what the commands of `IntegrityCommands.c` and the
indications of a hash sequence do to the banks. A change of a PCR counts in `gr.pcrCounter` unless the
attributes of the PCR exempt it; a counter that overflows puts the TPM into failure mode.
-/
namespace PqcTpm
open ByteCodec Transition Versions

/-- `PCR_Attributes`. -/
structure PcrAttributes where
  stateSave : Bool
  doNotIncrementPcrCounter : Bool
  policyAuthGroup : Nat
  authValuesGroup : Nat
  resetLocality : Nat
  extendLocality : Nat

/-- `_platPcr__GetPcrInitializationAttributes`. -/
def pcrAttributes : Nat → PcrAttributes
  | 16 => ⟨false, true, 0, 0, 0x0F, 0x1F⟩
  | 17 => ⟨false, false, 0, 0, 0x10, 0x1C⟩
  | 18 => ⟨false, false, 0, 0, 0x10, 0x1C⟩
  | 19 => ⟨false, false, 0, 0, 0x10, 0x0C⟩
  | 20 => ⟨false, false, 0, 0, 0x1C, 0x0E⟩
  | 21 => ⟨false, true, 0, 0, 0x1C, 0x04⟩
  | 22 => ⟨false, true, 0, 0, 0x1C, 0x04⟩
  | 23 => ⟨false, true, 0, 0, 0x0F, 0x1F⟩
  | _ => ⟨true, false, 0, 0, 0, 0x1F⟩

/-- `HCRTM_PCR` and `DRTM_PCR`. -/
def hcrtmPcr : Nat := 0
def drtmPcr : Nat := 17

/-- `PCRIsStateSaved`. -/
def pcrIsStateSaved (pcr : Nat) : Bool := (pcrAttributes pcr).stateSave

/-- `PCRBelongsTCBGroup`. -/
def pcrBelongsTcbGroup (pcr : Nat) : Bool := (pcrAttributes pcr).doNotIncrementPcrCounter

/-- `PCRBelongsAuthGroup`: the group, if there is one. -/
def pcrBelongsAuthGroup (pcr : Nat) : Option Nat :=
  if (pcrAttributes pcr).authValuesGroup = 0 then none else some ((pcrAttributes pcr).authValuesGroup - 1)

/-- `PCRIsExtendAllowed`. -/
def pcrIsExtendAllowed (pcr : Nat) (locality : UInt8) : Bool :=
  (pcrAttributes pcr).extendLocality.testBit locality.toNat

/-- `PCRIsResetAllowed`. -/
def pcrIsResetAllowed (pcr : Nat) (locality : UInt8) : Bool :=
  decide (locality ≠ 4) && (pcrAttributes pcr).resetLocality.testBit locality.toNat

/-- A PCR that locality 4 resets. -/
def isDrtmReset (pcr : Nat) : Bool := (pcrAttributes pcr).resetLocality.testBit 4

/-- The PCRs that are saved, in the order of `gc.pcrSave`. -/
def savedPcrs : List Nat := (List.range 24).filter pcrIsStateSaved

/-- Where a PCR is in `gc.pcrSave`. -/
def saveIndex (pcr : Nat) : Nat := ((List.range pcr).filter pcrIsStateSaved).length

/-- `_platPcr__GetInitialValueForPcr`. -/
def initialValue (locality : UInt8) (alg : HashAlg) (pcr : Nat) : Bytes :=
  let value := List.replicate alg.digestSize (if isDrtmReset pcr then 0xFF else 0)
  if pcr = hcrtmPcr then value.set (alg.digestSize - 1) locality else value

/-- The banks in RAM, with what goes with them. -/
structure PcrState where
  /-- `gp.pcrAllocated`. -/
  pcrAllocated : List PcrSelection := []
  pcrs : HashAlg → Nat → Bytes := fun _ _ => []
  /-- `gr.pcrCounter`. -/
  pcrCounter : Nat := 0
  /-- `gc.pcrSave`. -/
  pcrSave : HashAlg → Nat → Bytes := fun _ _ => []
  drtmPreStartup : Bool := false

namespace PcrState

/-- `PcrIsAllocated`. -/
def pcrIsAllocated (P : PcrState) (pcr : Nat) (alg : HashAlg) : Bool :=
  match P.pcrAllocated.find? fun a => a.hash == alg with
  | some allocated => decide (pcr < 24) && isPcrSelected pcr allocated
  | none => false

/-- Values are written where a PCR is allocated. -/
def setBanks (p : Nat → Bool) (f : HashAlg → Nat → Bytes) (P : PcrState) : PcrState :=
  { P with pcrs := fun alg pcr => if p pcr && P.pcrIsAllocated pcr alg then f alg pcr else P.pcrs alg pcr }

/-- `PCRChanged`. -/
def pcrChanged (pcr : Nat) (P : PcrState) : Except Fault PcrState :=
  if pcr = 0 ∨ pcrBelongsTcbGroup pcr = false then
    let pcrCounter := (P.pcrCounter + 1) % 2 ^ 32
    if pcrCounter = 0 then .error .failureMode else .ok { P with pcrCounter }
  else .ok P

/-- `PCRSetValue` to zero. -/
def pcrSetValue (pcr : Nat) (P : PcrState) : PcrState :=
  P.setBanks (fun n => n == pcr) fun alg _ => List.replicate alg.digestSize 0

/-- `PCRResetDynamics`. -/
def pcrResetDynamics (P : PcrState) : PcrState :=
  P.setBanks isDrtmReset fun alg _ => List.replicate alg.digestSize 0

/-- One PCR of `PCRStartup`. -/
def startPcr (kind : StartupKind) (locality : UInt8) (P : PcrState) (pcr : Nat) : Except Fault PcrState :=
  if kind = .resume ∧ pcrIsStateSaved pcr = true then
    .ok (P.setBanks (fun n => n == pcr) fun alg pcr => P.pcrSave alg (saveIndex pcr))
  else
    match P.pcrChanged pcr with
    | .error e => .error e
    | .ok P =>
        -- an H-CRTM event before the start has already written its PCR
        if pcr = hcrtmPcr ∧ kind ≠ .resume ∧ P.drtmPreStartup = true then .ok P
        else .ok (P.setBanks (fun n => n == pcr) (initialValue locality))

/-- `PCRStartup`. -/
def pcrStartup (kind : StartupKind) (locality : UInt8) (P : PcrState) : Except Fault PcrState :=
  let P := if kind = .reset then { P with pcrCounter := 0 } else P
  (List.range 24).foldlM (startPcr kind locality) P

/-- `PCRStateSave` for `TPM_SU_STATE`. -/
def pcrStateSave (P : PcrState) : PcrState :=
  { P with
    pcrSave := fun alg i =>
      match savedPcrs[i]? with
      | some pcr => if P.pcrIsAllocated pcr alg then P.pcrs alg pcr else P.pcrSave alg i
      | none => P.pcrSave alg i }

section
variable (H : PolicyHash)

/-- `PCRExtend`. -/
def pcrExtend (pcr : Nat) (P : PcrState) (alg : HashAlg) (data : Bytes) : Except Fault PcrState :=
  if P.pcrIsAllocated pcr alg then
    let pcrs := fun alg' n => if alg' = alg ∧ n = pcr then H.hash alg (P.pcrs alg pcr ++ data) else P.pcrs alg' n
    pcrChanged pcr { P with pcrs }
  else .ok P

/-- `PcrDrtm`. Before the start the PCR is set to 0...04. -/
def pcrDrtm (started : Bool) (pcr : Nat) (P : PcrState) (alg : HashAlg) (digest : Bytes) : Except Fault PcrState :=
  if P.pcrIsAllocated pcr alg then
    let zeros := List.replicate digest.length 0
    let value := if started then zeros else zeros.set (digest.length - 1) 4
    let pcrs := fun alg' n => if alg' = alg ∧ n = pcr then value else P.pcrs alg' n
    pcrExtend H pcr { P with pcrs } alg digest
  else .ok P

/-- The implemented hash algorithms, as `CryptHashGetAlgByIndex` orders them. -/
def hashAlgs : List HashAlg := [.sha1, .sha256, .sha384, .sha512]

/-- `_TPM_Hash_End` of a sequence that has been given `data`, but for `gr.restartCount`. -/
def hashEnd (started : Bool) (data : Bytes) (P : PcrState) : Except Fault PcrState :=
  let P := if started then P.pcrResetDynamics else { P with drtmPreStartup := true }
  let pcr := if started then drtmPcr else hcrtmPcr
  hashAlgs.foldlM (fun P alg => pcrDrtm H started pcr P alg (H.hash alg data)) P

/-- `PCRComputeCurrentDigest`. -/
def currentDigest (P : PcrState) (hashAlg : HashAlg) (selection : List PcrSelection) : List PcrSelection × Bytes :=
  pcrComputeCurrentDigest H { pcrAllocated := P.pcrAllocated, pcrs := P.pcrs } hashAlg selection

end
end PcrState

/-- A command that writes a PCR. `TPM_RH_NULL` is no handle; the digests are those of the command, or those that an
event sequence has come to. -/
inductive PcrCommand
  | pcrExtend (pcrHandle : Option (Fin 24)) (digests : List (HashAlg × Bytes))
  | pcrEvent (pcrHandle : Option (Fin 24)) (eventData : Bytes)
  | eventSequenceComplete (pcrHandle : Option (Fin 24)) (results : HashAlg → Bytes)
  | pcrReset (pcrHandle : Fin 24)

namespace PcrCommand

def pcrHandle : PcrCommand → Option (Fin 24)
  | .pcrExtend pcrHandle _ | .pcrEvent pcrHandle _ | .eventSequenceComplete pcrHandle _ => pcrHandle
  | .pcrReset pcrHandle => some pcrHandle

/-- `PCRIsExtendAllowed` or `PCRIsResetAllowed`. -/
def isAllowed (locality : UInt8) (cmd : PcrCommand) : Bool :=
  match cmd, cmd.pcrHandle with
  | _, none => true
  | .pcrReset _, some pcr => pcrIsResetAllowed pcr locality
  | _, some pcr => pcrIsExtendAllowed pcr locality

/-- `RETURN_IF_ORDERLY` is asked for. -/
def endsOrderly (cmd : PcrCommand) : Bool := cmd.pcrHandle.any fun pcr => pcrIsStateSaved pcr

/-- What the command does to the banks once it is allowed. -/
def update (H : PolicyHash) (P : PcrState) : PcrCommand → Except Fault PcrState
  | .pcrExtend none _ | .pcrEvent none _ | .eventSequenceComplete none _ => .ok P
  | .pcrExtend (some pcr) digests => digests.foldlM (fun P d => P.pcrExtend H pcr d.1 d.2) P
  | .pcrEvent (some pcr) eventData =>
      PcrState.hashAlgs.foldlM (fun P alg => P.pcrExtend H pcr alg (H.hash alg eventData)) P
  | .eventSequenceComplete (some pcr) results =>
      PcrState.hashAlgs.foldlM (fun P alg => P.pcrExtend H pcr alg (results alg)) P
  | .pcrReset pcr => (P.pcrSetValue pcr).pcrChanged pcr

end PcrCommand

/-! ## What the counter says -/

/-- The values that are counted. -/
def countedPcrs (pcrs : HashAlg → Nat → Bytes) : HashAlg → Nat → Bytes :=
  fun alg pcr => if pcrBelongsTcbGroup pcr then [] else pcrs alg pcr

theorem countedPcrs_congr {pcrs pcrs' : HashAlg → Nat → Bytes}
    (h : ∀ alg n, pcrBelongsTcbGroup n = false → pcrs alg n = pcrs' alg n) : countedPcrs pcrs = countedPcrs pcrs' := by
  funext alg n
  unfold countedPcrs
  cases htcb : pcrBelongsTcbGroup n with
  | true => rfl
  | false => exact h alg n htcb

theorem pcrs_eq_of_counted {pcrs pcrs' : HashAlg → Nat → Bytes} (h : countedPcrs pcrs = countedPcrs pcrs')
    {pcr : Nat} (hpcr : pcrBelongsTcbGroup pcr = false) (alg : HashAlg) : pcrs alg pcr = pcrs' alg pcr := by
  have hvalue := congrFun (congrFun h alg) pcr
  unfold countedPcrs at hvalue
  rwa [hpcr] at hvalue

namespace PcrState
variable {P P' P'' : PcrState} {H : PolicyHash}

/-- The counted values under their counter. -/
def view (P : PcrState) : Versioned (HashAlg → Nat → Bytes) := ⟨P.pcrCounter, countedPcrs P.pcrs⟩

/-- The counter has gone up by any number of changes, within its 32 bits. -/
structure Counts (P P' : PcrState) : Prop where
  bounded : P'.pcrCounter < 2 ^ 32
  le : P.pcrCounter ≤ P'.pcrCounter
  allocated : P'.pcrAllocated = P.pcrAllocated

theorem Counts.refl (h : P.pcrCounter < 2 ^ 32) : P.Counts P := ⟨h, Nat.le_refl _, rfl⟩

theorem Counts.trans (h : P.Counts P') (h' : P'.Counts P'') : P.Counts P'' :=
  ⟨h'.bounded, Nat.le_trans h.le h'.le, h'.allocated.trans h.allocated⟩

theorem pcrIsAllocated_congr (h : P'.pcrAllocated = P.pcrAllocated) (pcr : Nat) (alg : HashAlg) :
    P'.pcrIsAllocated pcr alg = P.pcrIsAllocated pcr alg := by
  unfold pcrIsAllocated
  rw [h]

theorem setBanks_of_not {p : Nat → Bool} {pcr : Nat} (h : p pcr = false) (f : HashAlg → Nat → Bytes) {alg : HashAlg} :
    (P.setBanks p f).pcrs alg pcr = P.pcrs alg pcr := by
  unfold setBanks
  simp [h]

/-- `PCRChanged` moves nothing but the counter, and that where the PCR is counted. -/
theorem pcrChanged_eq_ok {pcr : Nat} (hb : P.pcrCounter < 2 ^ 32) (h : P.pcrChanged pcr = .ok P') :
    P.Counts P' ∧ P' = { P with pcrCounter := P'.pcrCounter } ∧
      (pcrBelongsTcbGroup pcr = false → P.pcrCounter < P'.pcrCounter) := by
  unfold pcrChanged at h
  split at h
  · dsimp only at h
    split at h
    · cases h
    · rename_i hne
      cases h
      have hlt : P.pcrCounter + 1 < 2 ^ 32 := by
        rcases Nat.lt_or_ge (P.pcrCounter + 1) (2 ^ 32) with hlt | hge
        · exact hlt
        · have heq : P.pcrCounter + 1 = 2 ^ 32 := by omega
          rw [heq] at hne
          exact absurd rfl hne
      have hnext : (P.pcrCounter + 1) % 2 ^ 32 = P.pcrCounter + 1 := Nat.mod_eq_of_lt hlt
      refine ⟨⟨?_, ?_, rfl⟩, rfl, fun _ => ?_⟩
      · exact Nat.mod_lt _ (by decide)
      · dsimp only
        omega
      · dsimp only
        omega
  · rename_i hcount
    cases h
    refine ⟨.refl hb, rfl, fun hfalse => absurd (.inr hfalse) hcount⟩

theorem view_le_of_written {pcr : Nat} {pcrs : HashAlg → Nat → Bytes}
    (hother : ∀ alg n, n ≠ pcr → pcrs alg n = P.pcrs alg n) (hb : P.pcrCounter < 2 ^ 32)
    (h : pcrChanged pcr { P with pcrs } = .ok P') :
    P.Counts P' ∧ P.view ≤ P'.view ∧ (pcrBelongsTcbGroup pcr = false → P.pcrCounter < P'.pcrCounter) := by
  obtain ⟨hcounts, heq, hstrict⟩ := pcrChanged_eq_ok (P := { P with pcrs }) hb h
  refine ⟨⟨hcounts.bounded, hcounts.le, hcounts.allocated⟩, ?_, hstrict⟩
  cases htcb : pcrBelongsTcbGroup pcr with
  | false => exact Versioned.le_of_version_lt (hstrict htcb)
  | true =>
      refine Versioned.le_of_value_eq hcounts.le ?_
      have hpcrs : P'.pcrs = pcrs := congrArg PcrState.pcrs heq
      refine countedPcrs_congr fun alg n hn => ?_
      rw [hpcrs]
      refine (hother alg n ?_).symm
      rintro rfl
      exact absurd (htcb.symm.trans hn) (by decide)

theorem pcrExtend_counts {pcr : Nat} {alg : HashAlg} {data : Bytes} (hb : P.pcrCounter < 2 ^ 32)
    (h : P.pcrExtend H pcr alg data = .ok P') :
    P.Counts P' ∧ P.view ≤ P'.view ∧
      (P.pcrIsAllocated pcr alg = true → pcrBelongsTcbGroup pcr = false → P.pcrCounter < P'.pcrCounter) := by
  unfold pcrExtend at h
  split at h
  · have hwritten := view_le_of_written (fun alg' n hn => if_neg fun hboth => hn hboth.2) hb h
    exact ⟨hwritten.1, hwritten.2.1, fun _ => hwritten.2.2⟩
  · rename_i hallocated
    cases h
    exact ⟨.refl hb, le_refl _, fun htrue => absurd htrue hallocated⟩

theorem foldlM_pcrExtend_counts {α : Type} {pcr : Nat} (alg : α → HashAlg) (data : α → Bytes) {ds : List α}
    (hb : P.pcrCounter < 2 ^ 32)
    (h : ds.foldlM (fun P d => P.pcrExtend H pcr (alg d) (data d)) P = .ok P') : P.Counts P' ∧ P.view ≤ P'.view := by
  refine foldlM_invariant (I := fun Q => P.Counts Q ∧ P.view ≤ Q.view) ?_ ⟨.refl hb, le_refl _⟩ h
  rintro d - Q Q' ⟨hcounts, hle⟩ hstep
  obtain ⟨hcounts', hle', -⟩ := pcrExtend_counts hcounts.bounded hstep
  exact ⟨hcounts.trans hcounts', le_trans hle hle'⟩

end PcrState

/-- A command that writes a PCR leaves the counted values as they are, or counts. -/
theorem PcrCommand.update_counts {H : PolicyHash} {P P' : PcrState} {cmd : PcrCommand} (hb : P.pcrCounter < 2 ^ 32)
    (h : cmd.update H P = .ok P') : P.Counts P' ∧ P.view ≤ P'.view := by
  cases cmd with
  | pcrExtend pcrHandle digests =>
      cases pcrHandle with
      | none =>
          cases h
          exact ⟨.refl hb, le_refl _⟩
      | some pcr => exact PcrState.foldlM_pcrExtend_counts Prod.fst Prod.snd hb h
  | pcrEvent pcrHandle eventData =>
      cases pcrHandle with
      | none =>
          cases h
          exact ⟨.refl hb, le_refl _⟩
      | some pcr => exact PcrState.foldlM_pcrExtend_counts id (fun alg => H.hash alg eventData) hb h
  | eventSequenceComplete pcrHandle results =>
      cases pcrHandle with
      | none =>
          cases h
          exact ⟨.refl hb, le_refl _⟩
      | some pcr => exact PcrState.foldlM_pcrExtend_counts id results hb h
  | pcrReset pcr =>
      have hother : ∀ alg n, n ≠ pcr.val → (P.pcrSetValue pcr).pcrs alg n = P.pcrs alg n :=
        fun alg n hn => PcrState.setBanks_of_not (by simpa using hn) _
      obtain ⟨hcounts, hle, -⟩ := PcrState.view_le_of_written hother hb h
      exact ⟨hcounts, hle⟩

namespace PcrState
variable {P P' : PcrState} {H : PolicyHash}

/-! ## Hash sequences -/

/-- Some bank has the PCR of a DRTM sequence, as `PCRAllocate` demands of every allocation. -/
def HasDrtm (pcrAllocated : List PcrSelection) : Prop :=
  ∃ alg ∈ hashAlgs, pcrIsAllocated { pcrAllocated } drtmPcr alg = true

theorem pcrDrtm_counts {started : Bool} {pcr : Nat} {alg : HashAlg} {digest : Bytes} (hb : P.pcrCounter < 2 ^ 32)
    (h : P.pcrDrtm H started pcr alg digest = .ok P') :
    P.Counts P' ∧ (P.pcrIsAllocated pcr alg = true → pcrBelongsTcbGroup pcr = false → P.pcrCounter < P'.pcrCounter) := by
  unfold pcrDrtm at h
  split at h
  · rename_i hallocated
    dsimp only at h
    obtain ⟨hcounts, -, hstrict⟩ := pcrExtend_counts (by exact hb) h
    exact ⟨⟨hcounts.bounded, hcounts.le, hcounts.allocated⟩, fun _ => hstrict hallocated⟩
  · rename_i hallocated
    cases h
    exact ⟨.refl hb, fun htrue => absurd htrue hallocated⟩

/-- A DRTM sequence always counts, whatever it resets. -/
theorem hashEnd_counts {data : Bytes} (hb : P.pcrCounter < 2 ^ 32) (hdrtm : HasDrtm P.pcrAllocated)
    (h : P.hashEnd H true data = .ok P') : P.Counts P' ∧ P.pcrCounter < P'.pcrCounter := by
  have hsteps : ∀ (Q : PcrState) {algs : List HashAlg} {Q' : PcrState}, Q.pcrCounter < 2 ^ 32 →
      algs.foldlM (fun P alg => pcrDrtm H true drtmPcr P alg (H.hash alg data)) Q = .ok Q' → Q.Counts Q' := by
    intro Q algs Q' hQ hfold
    refine foldlM_invariant (I := fun R => Q.Counts R) ?_ (.refl hQ) hfold
    rintro alg - R R' hcounts hstep
    exact hcounts.trans (pcrDrtm_counts hcounts.bounded hstep).1
  obtain ⟨alg, halg, hallocated⟩ := hdrtm
  unfold hashEnd at h
  obtain ⟨before, after, Q, Q', -, hbefore, hstep, hafter⟩ := foldlM_mem halg h
  have hQ := hsteps P.pcrResetDynamics hb hbefore
  obtain ⟨hQ', hstrict⟩ := pcrDrtm_counts hQ.bounded hstep
  have hend := hsteps Q' hQ'.bounded hafter
  have hlt : Q.pcrCounter < Q'.pcrCounter := by
    refine hstrict ?_ (by decide)
    rw [pcrIsAllocated_congr hQ.allocated]
    exact hallocated
  have hstart : P.pcrCounter ≤ Q.pcrCounter := hQ.le
  have hle := hend.le
  refine ⟨⟨hend.bounded, ?_, ?_⟩, ?_⟩
  · omega
  · exact (hend.allocated.trans hQ'.allocated).trans hQ.allocated
  · omega

theorem pcrChanged_allocated {pcr : Nat} (h : P.pcrChanged pcr = .ok P') : P'.pcrAllocated = P.pcrAllocated := by
  unfold pcrChanged at h
  split at h
  · dsimp only at h
    split at h
    · cases h
    · cases h
      rfl
  · cases h
    rfl

theorem pcrExtend_allocated {pcr : Nat} {alg : HashAlg} {data : Bytes} (h : P.pcrExtend H pcr alg data = .ok P') :
    P'.pcrAllocated = P.pcrAllocated := by
  unfold pcrExtend at h
  split at h
  · have hchanged := pcrChanged_allocated h
    exact hchanged
  · cases h
    rfl

theorem pcrDrtm_allocated {started : Bool} {pcr : Nat} {alg : HashAlg} {digest : Bytes}
    (h : P.pcrDrtm H started pcr alg digest = .ok P') : P'.pcrAllocated = P.pcrAllocated := by
  unfold pcrDrtm at h
  split at h
  · have hextended := pcrExtend_allocated h
    exact hextended
  · cases h
    rfl

theorem hashEnd_allocated {started : Bool} {data : Bytes} (h : P.hashEnd H started data = .ok P') :
    P'.pcrAllocated = P.pcrAllocated := by
  unfold hashEnd at h
  refine foldlM_invariant (I := fun Q => Q.pcrAllocated = P.pcrAllocated) ?_ ?_ h
  · intro alg _ Q Q' hQ hstep
    exact (pcrDrtm_allocated hstep).trans hQ
  · cases started <;> rfl

/-! ## Startup -/

theorem startPcr_counts {kind : StartupKind} {locality : UInt8} {pcr : Nat} (hb : P.pcrCounter < 2 ^ 32)
    (h : P.startPcr kind locality pcr = .ok P') :
    P.Counts P' ∧ (pcrIsStateSaved pcr = false → pcrBelongsTcbGroup pcr = false → P.pcrCounter < P'.pcrCounter) := by
  unfold startPcr at h
  split at h
  · rename_i hsaved
    cases h
    exact ⟨⟨hb, Nat.le_refl _, rfl⟩, fun hnot => absurd (hsaved.2.symm.trans hnot) (by decide)⟩
  · split at h
    · cases h
    · rename_i Q hQ
      obtain ⟨hcounts, -, hstrict⟩ := pcrChanged_eq_ok hb hQ
      split at h
      · cases h
        exact ⟨hcounts, fun _ => hstrict⟩
      · cases h
        exact ⟨⟨hcounts.bounded, hcounts.le, hcounts.allocated⟩, fun _ => hstrict⟩

/-- Every start counts, from the counter that was saved or from zero. -/
theorem pcrStartup_counts {kind : StartupKind} {locality : UInt8} (hb : kind ≠ .reset → P.pcrCounter < 2 ^ 32)
    (h : P.pcrStartup kind locality = .ok P') :
    P'.pcrCounter < 2 ^ 32 ∧ P'.pcrAllocated = P.pcrAllocated ∧ 0 < P'.pcrCounter ∧
      (kind ≠ .reset → P.pcrCounter < P'.pcrCounter) := by
  have hsteps : ∀ (Q : PcrState) {pcrs : List Nat} {Q' : PcrState}, Q.pcrCounter < 2 ^ 32 →
      pcrs.foldlM (startPcr kind locality) Q = .ok Q' → Q.Counts Q' := by
    intro Q pcrs Q' hQ hfold
    refine foldlM_invariant (I := fun R => Q.Counts R) ?_ (.refl hQ) hfold
    rintro pcr - R R' hcounts hstep
    exact hcounts.trans (startPcr_counts hcounts.bounded hstep).1
  unfold pcrStartup at h
  generalize hP₀ : (if kind = .reset then { P with pcrCounter := 0 } else P) = P₀ at h
  have hb₀ : P₀.pcrCounter < 2 ^ 32 ∧ P₀.pcrAllocated = P.pcrAllocated ∧ (kind ≠ .reset → P₀ = P) := by
    subst hP₀
    split
    · rename_i hkind
      exact ⟨Nat.two_pow_pos 32, rfl, fun hne => absurd hkind hne⟩
    · rename_i hkind
      exact ⟨hb hkind, rfl, fun _ => rfl⟩
  -- the PCR of a DRTM sequence is neither saved nor exempt
  have hdrtm : drtmPcr ∈ List.range 24 := by decide
  obtain ⟨before, after, Q, Q', -, hbefore, hstep, hafter⟩ := foldlM_mem hdrtm h
  have hQ := hsteps P₀ hb₀.1 hbefore
  obtain ⟨hQ', hstrict⟩ := startPcr_counts hQ.bounded hstep
  have hend := hsteps Q' hQ'.bounded hafter
  have hlt := hstrict (by decide) (by decide)
  have hstart := hQ.le
  have hle := hend.le
  refine ⟨hend.bounded, ?_, by omega, fun hne => ?_⟩
  · exact ((hend.allocated.trans hQ'.allocated).trans hQ.allocated).trans hb₀.2.1
  · rw [hb₀.2.2 hne] at hstart
    omega

end PcrState
end PqcTpm
