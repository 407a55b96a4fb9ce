import PqcTpm.Attestation
import PqcTpm.NvValues

/-!
# Attestation without a key

The attestation commands with `TPM_RH_NULL` for the signing key, where `HandleToObject` gives no object.
`CryptSelectSignScheme` then selects the scheme without a hash, and a command that looks for another hash looks into the
key.
-/
namespace PqcTpm
open ByteCodec Transition

/-- An error code or a result, but no failure and no access to what is not there. -/
def Plain {α : Type} : Except Fault α → Prop
  | .ok _ | .error (.rc _) => True
  | .error _ => False

namespace Plain
variable {α β : Type}

theorem bind {x : Except Fault α} {f : α → Except Fault β} (hx : Plain x) (hf : ∀ a, x = .ok a → Plain (f a)) :
    Plain (x >>= f) := by
  cases x with
  | ok a => exact hf a rfl
  | error e =>
      cases e with
      | rc c => exact trivial
      | _ => exact hx

theorem demand (c : Bool) (e : TpmRc) : Plain (PqcTpm.demand c (.rc e)) := by
  cases c <;> exact trivial

end Plain

theorem demand_plain_bind {α : Type} {c : Bool} {e : TpmRc} {f : Unit → Except Fault α} (h : c = true → Plain (f ())) :
    Plain (demand c (.rc e) >>= f) :=
  (Plain.demand c e).bind fun _ hc => h (demand_eq_ok hc)

theorem nvReadAccessChecks_plain (authHandle nvHandle : TpmHandle) (i : NvIndex) :
    Plain (nvReadAccessChecks authHandle nvHandle i) := by
  unfold nvReadAccessChecks
  refine demand_plain_bind fun _ => ?_
  refine demand_plain_bind fun _ => ?_
  exact Plain.demand _ _

/-- The response is an error code or an attestation without a signature. -/
def Answered (out : AttestOutcome) : Prop := Plain out.1 ∧ ∀ a, out.1 = .ok a → a.signature = none

namespace AttestRequest

section
variable {σ : Type} (C : SeqCrypto σ) (O : OtherSchemes) (H : PolicyHash)
  (kdfa : Bytes → Bytes → UInt64 × UInt64)

/-- The commands with `TPM_RH_NULL` for the key. The handles come first: an index has to be defined, and
`TPM2_CertifyX509` is the command whose handle must not be `TPM_RH_NULL`. -/
def respondNull (s : AttestState) : AttestRequest → AttestOutcome
  | .certify object input => tpm2Certify C O H kdfa none object input s
  | .certifyCreation object creationHash creationTicket input =>
      tpm2CertifyCreation C O H kdfa none object creationHash creationTicket input s
  | .quote pcrSelect input => tpm2Quote C O H kdfa none pcrSelect input s
  | .getSessionAuditDigest sessionHandle session input =>
      tpm2GetSessionAuditDigest C O H kdfa none sessionHandle session input s
  | .getCommandAuditDigest input => tpm2GetCommandAuditDigest C O H kdfa none input s
  | .getTime input => tpm2GetTime C O H kdfa none input s
  | .nvCertify authHandle nvIndex size offset input =>
      if (s.device.nv.findIndex nvIndex).isNone then (.error (.at .handle 0x300), s)
      else PqcTpm.nvCertify C O H kdfa none authHandle nvIndex size offset input s
  | .certifyX509 .. => (.error (.at .value 0x200), s)

end

/-- The command wants a hash where the scheme has none: `TPM2_Quote`, and `TPM2_NV_Certify` of the digest of an index that
the caller may read. -/
def WantsHash (s : AttestState) : AttestRequest → Prop
  | .quote .. => True
  | .nvCertify authHandle nvIndex size offset _ =>
      size = 0 ∧ offset = 0 ∧ ∃ i data, s.device.index nvIndex = .ok (i, data) ∧
        nvReadAccessChecks authHandle nvIndex i = .ok ()
  | _ => False

end AttestRequest

section
variable {σ : Type} {C : SeqCrypto σ} {O : OtherSchemes} {H : PolicyHash}
  {kdfa : Bytes → Bytes → UInt64 × UInt64} {s : AttestState}

def nullScheme : TpmtSigScheme := ⟨TpmAlg.null, TpmAlg.null⟩

theorem attest_null {signHandle loc : Nat} {input : SignInput} {attested : TpmtSigScheme → Except Fault Attested} :
    attest C O H kdfa signHandle loc none input attested s =
      ((attested nullScheme).map fun x =>
        ⟨(fillInAttestInfo kdfa none nullScheme input.qualifyingData.buffer x s).1.marshal, [], none⟩, s) := by
  have hbegun : (attestScheme O signHandle loc none input.inScheme >>= fun scheme =>
      attested scheme >>= fun x => pure (scheme, x)) = (attested nullScheme).map fun x => (nullScheme, x) := by
    change (attested nullScheme >>= fun x => pure (nullScheme, x)) = _
    cases attested nullScheme <;> rfl
  unfold attest
  simp only [hbegun]
  cases attested nullScheme <;> rfl

theorem attest_null_iff {signHandle loc : Nat} {input : SignInput} {attested : TpmtSigScheme → Except Fault Attested} :
    Answered (attest C O H kdfa signHandle loc none input attested s) ↔ Plain (attested nullScheme) := by
  rw [attest_null, Answered]
  cases hx : attested nullScheme with
  | ok x =>
      refine ⟨fun _ => trivial, fun _ => ⟨trivial, fun a ha => ?_⟩⟩
      cases ha
      rfl
  | error e =>
      refine ⟨fun h => ?_, fun h => ⟨?_, fun a ha => nomatch ha⟩⟩
      · cases e <;> exact h.1
      · cases e <;> exact h

theorem certifyCreation_answered (object : Object) (creationHash : Tpm2bDigest) (creationTicket : Ticket)
    (input : SignInput) :
    Answered (tpm2CertifyCreation C O H kdfa none object creationHash creationTicket input s) := by
  refine attest_null_iff.mpr ?_
  exact demand_plain_bind fun _ => trivial

theorem getSessionAuditDigest_answered (sessionHandle : TpmHandle) (session : Session) (input : SignInput) :
    Answered (tpm2GetSessionAuditDigest C O H kdfa none sessionHandle session input s) := by
  refine attest_null_iff.mpr ?_
  exact demand_plain_bind fun _ => trivial

theorem getCommandAuditDigest_answered (input : SignInput) :
    Answered (tpm2GetCommandAuditDigest C O H kdfa none input s) := by
  simp only [tpm2GetCommandAuditDigest, attest_null, Except.map]
  refine ⟨trivial, fun a ha => ?_⟩
  cases ha
  rfl

theorem quote_reads_key (pcrSelect : List PcrSelection) (input : SignInput) :
    ¬ Answered (tpm2Quote C O H kdfa none pcrSelect input s) := by
  intro h
  exact attest_null_iff.mp h

/-- `TPM2_NV_Certify` on a defined index: only the digest of an index that may be read needs a hash. -/
theorem nvCertify_answered_iff {authHandle nvIndex : TpmHandle} {size offset : Nat} {input : SignInput} {c : Cell}
    (hs : s.device.Sound) (hc : s.device.cell nvIndex = some c) :
    Answered (nvCertify C O H kdfa none authHandle nvIndex size offset input s) ↔
      ¬ (size = 0 ∧ offset = 0 ∧ nvReadAccessChecks authHandle nvIndex c.info = .ok ()) := by
  have hindex := NvDevice.index_of_cell hs hc
  have hoctets := NvDevice.octets_of_cell hs hc
  have hlength : c.octets.length = c.info.publicArea.dataSize := (hs.cells nvIndex c hc).octets_length
  unfold nvCertify
  rw [attest_null_iff, hindex]
  change Plain (nvReadAccessChecks authHandle nvIndex c.info >>= fun _ => _) ↔ _
  cases haccess : nvReadAccessChecks authHandle nvIndex c.info with
  | error e =>
      have hplain := nvReadAccessChecks_plain authHandle nvIndex c.info
      rw [haccess] at hplain
      refine ⟨fun _ h => (nomatch h.2.2), fun _ => ?_⟩
      cases e <;> exact hplain
  | ok u =>
      change Plain (demand (decide (size + offset ≤ c.info.publicArea.dataSize)) (.of .nvRange) >>= fun _ => _) ↔ _
      by_cases hzero : size = 0 ∧ offset = 0
      · obtain ⟨rfl, rfl⟩ := hzero
        refine ⟨fun h => ?_, fun h => absurd ⟨rfl, rfl, rfl⟩ h⟩
        rw [decide_eq_true (Nat.zero_le _)] at h
        rw [hoctets] at h
        exact h.elim
      · refine ⟨fun _ h => hzero ⟨h.1, h.2.1⟩, fun _ => ?_⟩
        refine demand_plain_bind fun hrange => ?_
        refine demand_plain_bind fun _ => ?_
        rw [hoctets]
        change Plain (if size ≠ 0 ∨ offset ≠ 0 then _ else _)
        rw [if_pos (by omega)]
        have hin : offset + size ≤ c.octets.length := by
          rw [hlength, Nat.add_comm]
          exact of_decide_eq_true hrange
        rw [decide_eq_true hin]
        exact trivial

/-- Without a key every attestation command answers, unless it wants a hash. -/
theorem respondNull_answered_iff {τ : Type} {codec : HashStateCodec τ} {L : RawLayout} (r : AttestRequest)
    (h : Reachable NvDevice.Empty (fun d d' => ∃ cmd : NvCommand, d' = (cmd.act codec L H d).2) s.device) :
    Answered (r.respondNull C O H kdfa s) ↔ ¬ r.WantsHash s := by
  have hs := NvDevice.sound_of_reachable h
  cases r with
  | certify object input => exact iff_of_true (attest_null_iff.mpr trivial) id
  | certifyCreation object creationHash creationTicket input =>
      exact iff_of_true (certifyCreation_answered object creationHash creationTicket input) id
  | quote pcrSelect input => exact iff_of_false (quote_reads_key pcrSelect input) fun hq => hq trivial
  | getSessionAuditDigest sessionHandle session input =>
      exact iff_of_true (getSessionAuditDigest_answered sessionHandle session input) id
  | getCommandAuditDigest input => exact iff_of_true (getCommandAuditDigest_answered (C := C) (O := O) input) id
  | getTime input => exact iff_of_true (attest_null_iff.mpr trivial) id
  | nvCertify authHandle nvIndex size offset input =>
      simp only [AttestRequest.respondNull]
      cases hc : s.device.cell nvIndex with
      | none =>
          have hfind := NvDevice.cell_none_iff.mp hc
          rw [hfind, Option.isNone_none, if_pos rfl]
          refine iff_of_true ⟨trivial, fun a ha => nomatch ha⟩ ?_
          rintro ⟨-, -, i, data, hindex, -⟩
          obtain ⟨c, hcell, -⟩ := NvDevice.index_eq_ok hindex
          rw [hc] at hcell
          cases hcell
      | some c =>
          have hfind := (NvDevice.cell_eq_some hc).1
          have hindex := NvDevice.index_of_cell hs hc
          rw [hfind, Option.isNone_some, if_neg Bool.false_ne_true, nvCertify_answered_iff hs hc]
          refine not_congr ⟨fun hw => ⟨hw.1, hw.2.1, _, _, hindex, hw.2.2⟩, ?_⟩
          rintro ⟨hsize, hoffset, i, data, hi, haccess⟩
          rw [hindex] at hi
          cases hi
          exact ⟨hsize, hoffset, haccess⟩
  | certifyX509 object reserved inScheme partialCertificate =>
      exact iff_of_true ⟨trivial, fun a ha => nomatch ha⟩ id

end

/-! ## Two requests without a key -/

def nullInput : SignInput := ⟨nullScheme, .empty⟩

/-- `TPM2_GetTime` on a TPM that has just been made. -/
theorem getTime_answered :
    Reachable NvDevice.Empty (fun d d' => ∃ cmd : NvCommand, d' = (cmd.act noHashStates zeroLayout tailHash d).2) {} ∧
      Answered ((AttestRequest.getTime nullInput).respondNull toyCrypto mldsaOnly tailHash (fun _ _ => (0, 0)) {}) := by
  have hfresh : Reachable NvDevice.Empty
      (fun d d' => ∃ cmd : NvCommand, d' = (cmd.act noHashStates zeroLayout tailHash d).2) {} := .init ⟨rfl, rfl, rfl⟩
  exact ⟨hfresh, (respondNull_answered_iff (s := {}) (.getTime nullInput) hfresh).mpr id⟩

/-- `TPM2_Quote` on the same TPM looks into the key that is not there. -/
theorem quote_not_answered :
    Reachable NvDevice.Empty (fun d d' => ∃ cmd : NvCommand, d' = (cmd.act noHashStates zeroLayout tailHash d).2) {} ∧
      ((AttestRequest.quote [] nullInput).respondNull toyCrypto mldsaOnly tailHash (fun _ _ => (0, 0)) {}).1 =
        .error .overrun ∧
      ¬ Answered ((AttestRequest.quote [] nullInput).respondNull toyCrypto mldsaOnly tailHash (fun _ _ => (0, 0)) {}) :=
  ⟨.init ⟨rfl, rfl, rfl⟩, rfl, fun h => h.1⟩

end PqcTpm
