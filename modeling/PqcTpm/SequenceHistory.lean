import PqcTpm.SequenceMarks

/-!
# The history of PQC sequences

What a caller knows of a PQC sequence from commands and responses alone: the key it was
started on, its context, and the chunks whose update was answered with success, carried
along by contexts. The state of the TPM refines this history over every run, and the two
commands that complete a sequence are compared with it.
-/
namespace PqcTpm
open ByteCodec Transition

/-- What is known of one sequence. -/
structure Track where
  isSign : Bool
  context : Tpm2b 255
  /-- The object that the start was given, and the slot it was in at that time. -/
  key : Object
  keyHandle : TpmHandle
  chunks : List Bytes

structure History where
  slots : SlotIndex → Option Track := fun _ => none
  contexts : List (Option Track) := []

section
variable {σ : Type} {P : Platform σ} {C : SeqCrypto σ} {s s' : TpmState σ} {i : SlotIndex}
  {x : HashObject σ} {h : Hierarchy} {g : History}

/-- The actions after which a slot may hold a sequence that was not there before. -/
def Action.bringsSequence : Action → Bool
  | .signSequenceStart _ _ | .verifySequenceStart _ _ _ | .contextLoad _ => true
  | _ => false

namespace History

def record (g : History) (handle : TpmHandle) (t : Option Track) : History :=
  match slotOf handle with
  | some i => { g with slots := Function.update g.slots i t }
  | none => g

def append (g : History) (handle : TpmHandle) (data : Bytes) : History :=
  g.record handle (((slotOf handle).bind g.slots).map fun t => { t with chunks := t.chunks ++ [data] })

/-- A new sequence on the key that `keyHandle` names. -/
def started (s : TpmState σ) (isSign : Bool) (context : Tpm2b 255) (keyHandle : TpmHandle) : Option Track :=
  match getSigningKey s keyHandle with
  | .ok (key, _) => some { isSign, context, key, keyHandle, chunks := [] }
  | .error _ => none

/-- The history after an action that was given `handles` and answered `r`. -/
def after (g : History) (s : TpmState σ) (a : Action) (handles : List TpmHandle)
    (r : Except Fault Response) : History :=
  match a, handles, r with
  | .signSequenceStart _ context, [keyHandle], .ok (.handle new) =>
      g.record new (started s true context keyHandle)
  | .verifySequenceStart _ _ context, [keyHandle], .ok (.handle new) =>
      g.record new (started s false context keyHandle)
  | .sequenceUpdate buffer, [handle], .ok _ => g.append handle buffer.buffer
  | .contextSave, [handle], .ok _ => { g with contexts := g.contexts ++ [(slotOf handle).bind g.slots] }
  | .contextLoad k, _, .ok (.handle new) => g.record new (g.contexts[k]?).join
  | _, _, _ => g

/-- The history after an event in state `s`. -/
def next (P : Platform σ) (C : SeqCrypto σ) (s : TpmState σ) (g : History) : Event σ → History
  | .command c =>
      if s.inFailureMode then g
      else match c.resolve P s with
        | .ok (handles, s') => g.after s' c.action handles (c.action.act P C handles s').1
        | .error _ => g
  | _ => g

theorem next_command {c : Command} {handles : List TpmHandle} (hnf : s.inFailureMode = false)
    (hr : c.resolve P s = .ok (handles, s')) :
    g.next P C s (.command c) = g.after s' c.action handles (c.action.act P C handles s').1 := by
  simp only [next, hnf, Bool.false_eq_true, if_false, hr]

theorem record_same (t : Option Track) : (g.record (slotHandle i) t).slots i = t := by
  rw [record, slotOf_slotHandle]
  exact Function.update_self i t g.slots

theorem record_other {handle : TpmHandle} {t : Option Track} (hi : slotOf handle ≠ some i) :
    (g.record handle t).slots i = g.slots i := by
  unfold record
  split
  · rename_i j hj
    rw [hj] at hi
    have hij : i ≠ j := fun hij => hi (by rw [hij])
    exact Function.update_of_ne hij t g.slots
  · rfl

theorem append_same {t : Track} {data : Bytes} (ht : g.slots i = some t) :
    (g.append (slotHandle i) data).slots i = some { t with chunks := t.chunks ++ [data] } := by
  rw [append, record_same, slotOf_slotHandle, Option.bind_some, ht, Option.map_some]

theorem after_slots_other {a : Action} {handles : List TpmHandle} {r : Except Fault Response}
    (hnew : ∀ new, a.bringsSequence = true → r = .ok (.handle new) → slotOf new ≠ some i)
    (hupd : ∀ buffer resp, a = .sequenceUpdate buffer → handles = [slotHandle i] → r ≠ .ok resp) :
    (g.after s a handles r).slots i = g.slots i := by
  unfold after
  split
  · exact record_other (hnew _ rfl rfl)
  · exact record_other (hnew _ rfl rfl)
  · apply record_other
    intro hi
    exact hupd _ _ rfl (by rw [slotHandle_of_slotOf hi]) rfl
  · rfl
  · exact record_other (hnew _ rfl rfl)
  · rfl

theorem after_contexts {a : Action} {handles : List TpmHandle} {r : Except Fault Response}
    (hsave : a = .contextSave → ∀ resp, r ≠ .ok resp) : (g.after s a handles r).contexts = g.contexts := by
  have hrecord (handle : TpmHandle) (t : Option Track) : (g.record handle t).contexts = g.contexts := by
    unfold record
    split <;> rfl
  unfold after
  split
  · exact hrecord _ _
  · exact hrecord _ _
  · exact hrecord _ _
  · exact absurd rfl (hsave rfl _)
  · exact hrecord _ _
  · rfl

end History

/-! ## Handles that actions give out -/

theorem startSequence_handle {y : HashObject σ} {new : TpmHandle}
    (hr : (startSequence s y).1 = .ok (.handle new)) : ∃ j, new = slotHandle j ∧ s.slots j = .vacant := by
  unfold startSequence at hr
  split at hr
  · cases hr
  · rename_i j hj
    cases hr
    exact ⟨j, rfl, TpmState.findEmptyObjectSlot_vacant hj⟩

theorem contextLoad_handle {k : Nat} {new : TpmHandle} (hr : (contextLoad P k s).1 = .ok (.handle new)) :
    ∃ j, new = slotHandle j ∧ s.slots j = .vacant := by
  unfold contextLoad at hr
  split at hr
  · cases hr
  · split at hr
    · cases hr
    · split at hr
      · cases hr
      · split at hr
        · cases hr
        · split at hr
          · cases hr
          · rename_i j hj
            split at hr
            · cases hr
              exact ⟨j, rfl, TpmState.findEmptyObjectSlot_vacant hj⟩
            · cases hr
            · cases hr

theorem act_handle {a : Action} {handles : List TpmHandle} {new : TpmHandle} (ha : a.bringsSequence = true)
    (hr : (a.act P C handles s).1 = .ok (.handle new)) : ∃ j, new = slotHandle j ∧ s.slots j = .vacant := by
  unfold Action.act at hr
  split at hr
  case h_3 =>
      unfold signSequenceStart at hr
      split at hr
      · cases hr
      · exact startSequence_handle hr
  case h_4 =>
      unfold verifySequenceStart at hr
      split at hr
      · cases hr
      · split at hr
        · cases hr
        · exact startSequence_handle hr
  case h_11 => exact contextLoad_handle hr
  case h_20 => cases hr
  all_goals cases ha

/-! ## The state refines the history -/

/-- The state of a sequence is what its history says. -/
structure Track.Agrees (t : Track) (q : PqcSeqState) : Prop where
  isSign : q.isSign = t.isSign
  context : q.context = t.context
  keyHandle : q.keyHandle = t.keyHandle
  buffer : q.buffer = t.chunks.flatten

/-- Every PQC sequence in a slot has a history that it agrees with. -/
def SlotRecorded (x : Slot σ) (t : Option Track) : Prop :=
  ∀ y h q, x = .sequence y h → y.state = .pqc q → ∃ track, t = some track ∧ track.Agrees q

structure Recorded (P : Platform σ) (s : TpmState σ) (g : History) : Prop where
  consistent : Consistent P s
  slots : ∀ i, SlotRecorded (s.slots i) (g.slots i)
  length : g.contexts.length = s.contexts.length
  contexts : ∀ (k : Nat) (c : SavedContext), s.contexts[k]? = some c →
    ∃ y, ContextOk P c y ∧ SlotRecorded y ((g.contexts[k]?).join)

theorem SequenceOk.isPqc {q : PqcSeqState} (hx : SequenceOk x) (hq : x.state = .pqc q) : x.isPqc = true := by
  have hf := hx.fits
  rw [hq] at hf
  rw [HashObject.isPqc, hq]
  exact hf.1.1

theorem Fresh.not_pqc (hf : Fresh C x) {q : PqcSeqState} : x.state ≠ .pqc q := by
  intro hq
  cases hf <;> cases hq

/-- Updates of hash states make no PQC sequence. -/
theorem hashUpdate_pqc {q : PqcSeqState} {data : Bytes} (hq : (hashUpdate C x data).state = .pqc q) :
    x.state = .pqc q := by
  have hevent {state : SeqState σ} (h : state.updateEvent C data = .pqc q) : state = .pqc q := by
    unfold SeqState.updateEvent at h
    split at h
    · cases h
    · exact h
  have hhash {state : SeqState σ} (h : state.updateHash C data = .pqc q) : state = .pqc q := by
    unfold SeqState.updateHash at h
    split at h
    · cases h
    · exact h
  have hhmac {state : SeqState σ} (h : state.updateHmac C data = .pqc q) : state = .pqc q := by
    unfold SeqState.updateHmac at h
    split at h
    · cases h
    · exact h
  unfold hashUpdate at hq
  split at hq
  · exact hevent hq
  · split at hq
    · exact hhash hq
    · split at hq
      · exact hhmac hq
      · exact hq

/-- The history follows an action: whatever PQC sequence is there afterwards agrees with it. -/
theorem Recorded.origin (hg : Recorded P s g) {c : Command} {handles : List TpmHandle}
    (hr : c.resolve P s = .ok (handles, s'))
    (ho : Origin P C s' c.action handles (c.action.act P C handles s').1 i x h)
    (he : x.attributes.evict = false) {q : PqcSeqState} (hq : x.state = .pqc q) :
    ∃ t, (g.after s' c.action handles (c.action.act P C handles s').1).slots i = some t ∧ t.Agrees q := by
  cases ho with
  | kept hx hno =>
      have hbefore := resolve_sequence hr hx he
      have hsame : (g.after s' c.action handles (c.action.act P C handles s').1).slots i = g.slots i := by
        apply History.after_slots_other
        · intro new ha hnew hi
          obtain ⟨j, rfl, hv⟩ := act_handle ha hnew
          rw [slotOf_slotHandle] at hi
          cases hi
          rw [hx] at hv
          cases hv
        · intro buffer resp ha hh hresp
          have hpqc := (hg.consistent.sequence hbefore).isPqc hq
          rw [hno buffer resp ha hh hresp] at hpqc
          cases hpqc
      rw [hsame]
      exact hg.slots i x h q hbefore hq
  | evicted hx =>
      rw [hx] at he
      cases he
  | started hf _ => exact absurd hq hf.not_pqc
  | @updated y _ data hy hn =>
      have hyq := hashUpdate_pqc hq
      obtain ⟨b, b', ha⟩ := hashUpdate_attributes (C := C) y data
      rw [ha] at he
      have hpqc := (hg.consistent.sequence (resolve_sequence hr hy he)).isPqc hyq
      rw [hn] at hpqc
      cases hpqc
  | @pqcStarted auth q' keyHandle key set ha hh hk hkey hb hv hresp =>
      cases hq
      subst hh
      rw [hresp]
      refine ⟨{ isSign := q.isSign, context := q.context, key, keyHandle, chunks := [] }, ?_, rfl, rfl, hkey, hb⟩
      unfold Action.pqcStart at ha
      split at ha
      · rename_i haction
        obtain ⟨hsign, hcontext⟩ := Prod.mk.inj (Option.some.inj ha)
        rw [haction, History.after, History.record_same, History.started, hk]
        simp only [hsign, hcontext]
      · rename_i haction
        split at ha
        · cases ha
        · obtain ⟨hsign, hcontext⟩ := Prod.mk.inj (Option.some.inj ha)
          rw [haction, History.after, History.record_same, History.started, hk]
          simp only [hsign, hcontext]
      · cases ha
  | @pqcUpdated y _ q₀ q' buffer ha hh hy hq₀ hp hu hresp =>
      cases hq
      obtain ⟨t, ht, hagree⟩ := hg.slots i y h q₀ (resolve_sequence hr hy he) hq₀
      obtain ⟨-, rfl, -⟩ := pqcSequenceUpdate_ok hu
      rw [hresp, ha, hh, History.after]
      refine ⟨_, History.append_same ht, hagree.isSign, hagree.context, hagree.keyHandle, ?_⟩
      rw [List.flatten_append, List.flatten_singleton, hagree.buffer]
  | @loaded _ k saved rest ha hk _ hu _ hresp =>
      rw [resolve_contexts hr] at hk
      obtain ⟨y, hy, hrec⟩ := hg.contexts k saved hk
      obtain ⟨z, rfl, hz, rfl⟩ := hy.unmarshal_sequence hu
      rw [hresp, ha, History.after, History.record_same]
      exact hrec z .null q rfl hq

theorem Recorded.next_slots (hg : Recorded P s g) (e : Event σ) (i : SlotIndex) :
    SlotRecorded ((step P C s e).slots i) ((g.next P C s e).slots i) := by
  intro x h q hx hq
  cases step_origin hx with
  | kept hx hno =>
      have hsame : g.next P C s e = g := by
        cases e with
        | command c =>
            simp only [History.next]
            split
            · rfl
            · rename_i hnf
              split
              · rename_i hr
                exact absurd hr (hno c _ _ rfl (Bool.eq_false_of_not_eq_true hnf))
              · rfl
        | unauthorized c k session => rfl
        | hashStart => rfl
        | hashData allocated data => rfl
        | hashEnd => rfl
        | startup t => rfl
      rw [hsame]
      exact hg.slots i x h q hx hq
  | command hc hnf hr ho he =>
      subst hc
      rw [History.next_command hnf hr]
      exact hg.origin hr ho he hq
  | drtmStarted => cases hq
  | drtmUpdated _ _ => cases hq

theorem Recorded.step (hg : Recorded P s g) (e : Event σ) :
    Recorded P (step P C s e) (g.next P C s e) := by
  have hcons : Consistent P (PqcTpm.step P C s e) := hg.consistent.step e
  rcases step_contexts (P := P) (C := C) (s := s) e with ⟨heq, hno⟩ | ⟨c, s', j, rfl, hnf, ha, hr, -, hresp, heq⟩
  · have hsame : (g.next P C s e).contexts = g.contexts := by
      cases e with
      | command c =>
          simp only [History.next]
          split
          · rfl
          · rename_i hnf
            split
            · rename_i hr
              apply History.after_contexts
              intro ha resp
              exact hno c _ _ resp rfl (Bool.eq_false_of_not_eq_true hnf) ha hr
            · rfl
      | unauthorized c k session => rfl
      | hashStart => rfl
      | hashData allocated data => rfl
      | hashEnd => rfl
      | startup t => rfl
    refine ⟨hcons, hg.next_slots e, by rw [hsame, heq, hg.length], fun k c hk => ?_⟩
    rw [heq] at hk
    rw [hsame]
    exact hg.contexts k c hk
  · -- a context was given out: its history is that of the slot
    have hnext : (g.next P C s (.command c)).contexts = g.contexts ++ [g.slots j] := by
      rw [History.next_command hnf hr, hresp, ha, History.after, slotOf_slotHandle, Option.bind_some]
    refine ⟨hcons, hg.next_slots _, ?_, fun k saved hk => ?_⟩
    · rw [hnext, heq, List.length_append, List.length_append, hg.length]
      rfl
    rw [heq] at hk
    rw [hnext]
    by_cases hlt : k < s.contexts.length
    · rw [List.getElem?_append_left hlt] at hk
      rw [List.getElem?_append_left (hg.length ▸ hlt)]
      exact hg.contexts k saved hk
    · have hlast : k = s.contexts.length := by
        have hle := (List.getElem?_eq_some_iff.mp hk).1
        rw [List.length_append, List.length_singleton] at hle
        omega
      subst hlast
      rw [List.getElem?_append_right (Nat.le_refl _), Nat.sub_self] at hk
      cases hk
      rw [← hg.length, List.getElem?_append_right (Nat.le_refl _), Nat.sub_self]
      have hterm := resolve_contextSave ha hr
      subst hterm
      refine ⟨_, ⟨objectTerminateEvent_ok hg.consistent j, rfl, rfl⟩, fun y hy q hslot hq => ?_⟩
      have hok := objectTerminateEvent_ok hg.consistent j
      rw [hslot] at hok
      rcases (objectTerminateEvent_noNew s).sequences j y hy hslot with hslot | hevict
      · exact hg.slots j y hy q hslot hq
      · rw [hok.1.evict] at hevict
        cases hevict

/-- State and history side by side. -/
def observe (P : Platform σ) (C : SeqCrypto σ) (p : TpmState σ × History) (e : Event σ) :
    TpmState σ × History := (PqcTpm.step P C p.1 e, p.2.next P C p.1 e)

/-- After every run the state agrees with the history. -/
theorem recorded_of_run (hs : s.IsInitial) (es : List (Event σ)) :
    Recorded P (run (observe P C) (s, {}) es).1 (run (observe P C) (s, {}) es).2 := by
  have hinit : Recorded P s {} := by
    refine ⟨hs.consistent, fun i y h q hx => ?_, by rw [hs.2]; rfl, fun k c hk => ?_⟩
    · rw [hs.1 i] at hx
      cases hx
    · rw [hs.2] at hk
      cases hk
  apply run_invariant (I := fun p : TpmState σ × History => Recorded P p.1 p.2) (q := fun _ => True)
  · intro p e hp _
    exact hp.step e
  · exact hinit
  · intro _ _
    trivial

end
end PqcTpm
