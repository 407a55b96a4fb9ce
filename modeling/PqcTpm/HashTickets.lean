import PqcTpm.SequenceHistory

/-!
# Tickets of hash sequences

`TPM2_SequenceComplete` vouches for what it has hashed when the message cannot be a structure of
the TPM's own. It goes by two attribute bits that the first block sets; here they are compared
with the message that a caller has sent, over updates of any size, saved contexts and a volatile
state that is written and read back.
-/
namespace PqcTpm
open ByteCodec Transition

/-- The chunks that hash sequences have been given, as the responses tell. -/
structure Messages where
  slots : SlotIndex → Option (List Bytes) := fun _ => none
  contexts : List (Option (List Bytes)) := []

namespace Messages

def record (g : Messages) (handle : TpmHandle) (chunks : Option (List Bytes)) : Messages :=
  match slotOf handle with
  | some i => { g with slots := Function.update g.slots i chunks }
  | none => g

def append (g : Messages) (handle : TpmHandle) (data : Bytes) : Messages :=
  g.record handle (((slotOf handle).bind g.slots).map fun chunks => chunks ++ [data])

/-- The messages after an action that was given `handles` and answered `r`. -/
def after (g : Messages) (a : Action) (handles : List TpmHandle) (r : Except Fault Response) : Messages :=
  match a, handles, r with
  | .hashSequenceStart _ (some _), _, .ok (.handle new) => g.record new (some [])
  | .sequenceUpdate buffer, [handle], .ok _ => g.append handle buffer.buffer
  | .contextSave, [handle], .ok _ => { g with contexts := g.contexts ++ [(slotOf handle).bind g.slots] }
  | .contextLoad k, _, .ok (.handle new) => g.record new (g.contexts[k]?).join
  | _, _, _ => g

variable {i : SlotIndex} {g : Messages}

theorem record_same (chunks : Option (List Bytes)) : (g.record (slotHandle i) chunks).slots i = chunks := by
  rw [record, slotOf_slotHandle]
  exact Function.update_self i chunks g.slots

theorem record_other {handle : TpmHandle} {chunks : Option (List Bytes)} (hi : slotOf handle ≠ some i) :
    (g.record handle chunks).slots i = g.slots i := by
  unfold record
  split
  · rename_i j hj
    rw [hj] at hi
    have hij : i ≠ j := fun hij => hi (by rw [hij])
    exact Function.update_of_ne hij chunks g.slots
  · rfl

theorem append_same {chunks : List Bytes} {data : Bytes} (hc : g.slots i = some chunks) :
    (g.append (slotHandle i) data).slots i = some (chunks ++ [data]) := by
  rw [append, record_same, slotOf_slotHandle, Option.bind_some, hc, Option.map_some]

theorem record_contexts (handle : TpmHandle) (chunks : Option (List Bytes)) :
    (g.record handle chunks).contexts = g.contexts := by
  unfold record
  split <;> rfl

theorem after_contexts {a : Action} {handles : List TpmHandle} {r : Except Fault Response}
    (hsave : a = .contextSave → ∀ resp, r ≠ .ok resp) : (g.after a handles r).contexts = g.contexts := by
  unfold after
  split
  · exact record_contexts _ _
  · exact record_contexts _ _
  · exact absurd rfl (hsave rfl _)
  · exact record_contexts _ _
  · rfl

end Messages

section
variable {σ : Type} {P : Platform σ} {C : SeqCrypto σ} {s s' : TpmState σ} {i : SlotIndex}
  {x y : HashObject σ} {h : Hierarchy} {g : Messages}

/-! ## Where hash sequences come from -/

/-- A sequence that `TPM2_SequenceComplete` takes for a hash sequence. -/
def HashObject.IsHash (x : HashObject σ) : Prop :=
  x.attributes.evict = false ∧ x.attributes.hashSeq = true ∧ ∃ states count, x.state = .hash states count

/-- How a hash sequence can be in slot `i` after action `a` on `handles` has answered `r` in state
`s`. -/
inductive HashOrigin (P : Platform σ) (C : SeqCrypto σ) (s : TpmState σ) (a : Action) (handles : List TpmHandle)
    (r : Except Fault Response) (i : SlotIndex) : HashObject σ → Hierarchy → Prop
  | kept {x : HashObject σ} {h : Hierarchy} (hx : s.slots i = .sequence x h)
      (hr : ∀ buffer resp, a = .sequenceUpdate buffer → handles = [slotHandle i] → r ≠ .ok resp) :
      HashOrigin P C s a handles r i x h
  | started (auth : Tpm2bAuth) (alg : HashAlg) (ha : a = .hashSequenceStart auth (some alg))
      (hr : r = .ok (.handle (slotHandle i))) : HashOrigin P C s a handles r i (hashSequence C auth alg) .null
  | updated {x : HashObject σ} {h : Hierarchy} (buffer : Tpm2b 1024) (ha : a = .sequenceUpdate buffer)
      (hh : handles = [slotHandle i]) (hx : s.slots i = .sequence x h) (hr : r = .ok .done) :
      HashOrigin P C s a handles r i (hashUpdate C x buffer.buffer) h
  | loaded {x : HashObject σ} {k : Nat} {c : SavedContext} {rest : Bytes} (ha : a = .contextLoad k)
      (hc : s.contexts[k]? = some c) (hu : AnyObject.unmarshal P.hs P.profile {} c.blob = .ok (.sequence x, rest))
      (hr : r = .ok (.handle (slotHandle i))) : HashOrigin P C s a handles r i x .null

variable {a : Action} {handles : List TpmHandle}

theorem NoNew.hashOrigin {r : Except Fault Response} (hn : NoNew s s') (ha : ∀ b, a ≠ .sequenceUpdate b)
    (hx : s'.slots i = .sequence x h) (hhash : x.IsHash) : HashOrigin P C s a handles r i x h := by
  rcases hn.sequences i x h hx with hx | hevict
  · exact .kept hx fun b _ hb => absurd hb (ha b)
  · rw [hhash.1] at hevict
    cases hevict

theorem startSequence_sequence (hx : (startSequence s y).2.slots i = .sequence x h) :
    s.slots i = .sequence x h ∨
      (x = y ∧ h = .null ∧ (startSequence s y).1 = .ok (.handle (slotHandle i))) := by
  unfold startSequence at hx ⊢
  split at hx
  · exact .inl hx
  · rename_i j hj
    simp only [TpmState.setSlot_slots] at hx
    split at hx
    · rename_i hij
      cases hx
      exact .inr ⟨rfl, rfl, by rw [hij]⟩
    · exact .inl hx

theorem startSequence_other (hy : ¬ y.IsHash) (ha : ∀ b, a ≠ .sequenceUpdate b)
    (hx : (startSequence s y).2.slots i = .sequence x h) (hhash : x.IsHash) {r : Except Fault Response} :
    HashOrigin P C s a handles r i x h := by
  rcases startSequence_sequence hx with hx | ⟨rfl, -, -⟩
  · exact .kept hx fun b _ hb => absurd hb (ha b)
  · exact absurd hhash hy

theorem hashSequenceStart_hashOrigin (auth : Tpm2bAuth) (hashAlg : Option HashAlg)
    (hx : (hashSequenceStart C auth hashAlg s).2.slots i = .sequence x h) (hhash : x.IsHash) :
    HashOrigin P C s (.hashSequenceStart auth hashAlg) handles (hashSequenceStart C auth hashAlg s).1 i x h := by
  cases hashAlg with
  | none => exact startSequence_other (fun hy => by cases hy.2.1) (fun _ hb => by cases hb) hx hhash
  | some alg =>
      rcases startSequence_sequence hx with hx | ⟨rfl, rfl, hr⟩
      · exact .kept hx fun _ _ hb => by cases hb
      · exact .started auth alg rfl hr

theorem macStart_hashOrigin (handle : TpmHandle) (auth : Tpm2bAuth) (inScheme : Nat)
    (hx : (macStart C handle auth inScheme s).2.slots i = .sequence x h) (hhash : x.IsHash) :
    HashOrigin P C s (.macStart auth inScheme) handles (macStart C handle auth inScheme s).1 i x h := by
  have hsame (hx : s.slots i = .sequence x h) {r : Except Fault Response} :
      HashOrigin P C s (.macStart auth inScheme) handles r i x h := .kept hx fun _ _ hb => by cases hb
  unfold macStart at hx ⊢
  split at hx
  · split at hx
    · split at hx
      · exact hsame hx
      · split at hx
        · exact hsame hx
        · split at hx
          · exact hsame hx
          · exact startSequence_other (fun hy => by cases hy.2.1) (fun _ hb => by cases hb) hx hhash
    · exact hsame hx
    · exact hsame hx
  · exact hsame hx
  · exact hsame hx

theorem pqcObject_not_isHash (auth : Tpm2bAuth) (q : PqcSeqState) : ¬ (pqcObject auth q : HashObject σ).IsHash := by
  intro hy
  cases hy.2.1

theorem signSequenceStart_hashOrigin (keyHandle : TpmHandle) (auth : Tpm2bAuth) (context : Tpm2b 255)
    (hx : (signSequenceStart keyHandle auth context s).2.slots i = .sequence x h) (hhash : x.IsHash)
    {r : Except Fault Response} : HashOrigin P C s (.signSequenceStart auth context) handles r i x h := by
  unfold signSequenceStart at hx
  split at hx
  · exact .kept hx fun _ _ hb => by cases hb
  · exact startSequence_other (pqcObject_not_isHash _ _) (fun _ hb => by cases hb) hx hhash

theorem verifySequenceStart_hashOrigin (keyHandle : TpmHandle) (auth : Tpm2bAuth) (hint : Tpm2b 256)
    (context : Tpm2b 255) (hx : (verifySequenceStart keyHandle auth hint context s).2.slots i = .sequence x h)
    (hhash : x.IsHash) {r : Except Fault Response} :
    HashOrigin P C s (.verifySequenceStart auth hint context) handles r i x h := by
  have hsame (hx : s.slots i = .sequence x h) : HashOrigin P C s (.verifySequenceStart auth hint context) handles
      r i x h := .kept hx fun _ _ hb => by cases hb
  unfold verifySequenceStart at hx
  split at hx
  · exact hsame hx
  · split at hx
    · exact hsame hx
    · exact startSequence_other (pqcObject_not_isHash _ _) (fun _ hb => by cases hb) hx hhash

/-- `TPM2_SequenceUpdate` on a slot: another slot stays, this one is updated unless the sequence is one
for a PQC signature. -/
theorem sequenceUpdate_hashOrigin (sequenceHandle : TpmHandle) (buffer : Tpm2b 1024)
    (hx : (sequenceUpdate C sequenceHandle buffer s).2.slots i = .sequence x h) (hhash : x.IsHash) :
    HashOrigin P C s (.sequenceUpdate buffer) [sequenceHandle] (sequenceUpdate C sequenceHandle buffer s).1 i x h := by
  obtain ⟨-, -, states, count, hstate⟩ := hhash
  have hfailed {e : Fault} (hx : s.slots i = .sequence x h) :
      HashOrigin P C s (.sequenceUpdate buffer) [sequenceHandle] (.error e) i x h :=
    .kept hx fun _ _ _ _ hr => by cases hr
  have hother {j : SlotIndex} (hx : s.slots i = .sequence x h) (hij : i ≠ j) {r : Except Fault Response} :
      HashOrigin P C s (.sequenceUpdate buffer) [slotHandle j] r i x h := by
    refine .kept hx fun _ _ _ hh _ => hij ?_
    exact (slotHandle_inj (List.singleton_inj.mp hh)).symm
  unfold sequenceUpdate at hx ⊢
  split at hx
  · rename_i j y q hfound
    obtain ⟨rfl, -⟩ := pqcSequenceFromHandle_some hfound
    split at hx
    · exact hfailed hx
    · simp only [TpmState.setSlot_slots] at hx
      split at hx
      · cases hx
        cases hstate
      · rename_i hij
        exact hother hx hij
  · split at hx
    · rename_i j hj
      obtain rfl := handleToObject_slot hj
      split at hx
      · rename_i y k hy
        simp only [TpmState.setSlot_slots] at hx
        split at hx
        · rename_i hij
          subst hij
          cases hx
          exact .updated buffer rfl rfl hy rfl
        · rename_i hij
          exact hother hx hij
      · exact hfailed hx
      · exact hfailed hx
    · exact hfailed hx
    · exact hfailed hx

theorem contextLoad_hashOrigin (k : Nat) (hx : (contextLoad P k s).2.slots i = .sequence x h) :
    HashOrigin P C s (.contextLoad k) handles (contextLoad P k s).1 i x h := by
  have hsame (hx : s.slots i = .sequence x h) {r : Except Fault Response} :
      HashOrigin P C s (.contextLoad k) handles r i x h := .kept hx fun _ _ hb => by cases hb
  unfold contextLoad at hx ⊢
  split at hx
  · exact hsame hx
  · rename_i c hc
    split at hx
    · exact hsame hx
    · rename_i hi
      split at hx
      · exact hsame hx
      · rename_i hlen
        split at hx
        · exact hsame hx
        · rename_i hen
          split at hx
          · exact hsame hx
          · split at hx
            · rename_i y rest hu
              simp only [TpmState.setSlot_slots] at hx
              split at hx
              · rename_i hij
                subst hij
                cases y with
                | object o => cases hx
                | sequence z =>
                    cases hx
                    exact .loaded rfl hc hu (by rw [if_neg hi, if_neg hlen, if_neg hen])
                | vacant a => cases hx
              · exact hsame hx
            · exact hsame hx
            · exact hsame hx

/-- Every hash sequence in the state that an action leaves has an origin. -/
theorem act_hashOrigin (a : Action) (handles : List TpmHandle)
    (hx : (a.act P C handles s).2.slots i = .sequence x h) (hhash : x.IsHash) :
    HashOrigin P C s a handles (a.act P C handles s).1 i x h := by
  have hkept {a : Action} {out : Outcome σ} (hn : NoNew s out.2) (ha : ∀ b, a ≠ .sequenceUpdate b)
      (hx : out.2.slots i = .sequence x h) : HashOrigin P C s a handles out.1 i x h := hn.hashOrigin ha hx hhash
  unfold Action.act at hx ⊢
  split at hx
  · exact hashSequenceStart_hashOrigin _ _ hx hhash
  · exact macStart_hashOrigin _ _ _ hx hhash
  · exact signSequenceStart_hashOrigin _ _ _ hx hhash
  · exact verifySequenceStart_hashOrigin _ _ _ _ hx hhash
  · exact sequenceUpdate_hashOrigin _ _ hx hhash
  · exact hkept (sequenceComplete_noNew _ _ _) (fun _ hb => by cases hb) hx
  · exact hkept (eventSequenceComplete_noNew _ _ _) (fun _ hb => by cases hb) hx
  · exact hkept (NoNew.of_flush_cases (signSequenceComplete_state _ _ _)) (fun _ hb => by cases hb) hx
  · exact hkept (NoNew.of_flush_cases (verifySequenceComplete_state _ _ _)) (fun _ hb => by cases hb) hx
  · rw [contextSave_slots] at hx
    exact .kept hx fun _ _ hb => by cases hb
  · exact contextLoad_hashOrigin _ hx
  · exact hkept (flushContext_noNew _) (fun _ hb => by cases hb) hx
  · exact hkept (evictControl_noNew _ _ _) (fun _ hb => by cases hb) hx
  · exact hkept (hierarchyControl_noNew _ _ _) (fun _ hb => by cases hb) hx
  · exact hkept (changeSeed_noNew _ _) (fun _ hb => by cases hb) hx
  · exact hkept (changeEPS_noNew _) (fun _ hb => by cases hb) hx
  · exact hkept (clear_noNew _ _) (fun _ hb => by cases hb) hx
  · exact hkept (loadObject_noNew _) (fun _ hb => by cases hb) hx
  · exact hkept (NoNew.of_slots rfl rfl) (fun _ hb => by cases hb) hx
  · exact .kept hx fun _ _ _ _ hr => by cases hr

/-! ## The bits and the message -/

/-- The hash state is that of the message so far, and the two bits are about its first chunk. -/
structure HashAgrees (C : SeqCrypto σ) (x : HashObject σ) (chunks : List Bytes) : Prop where
  state : ∃ alg, x.state = .hash [chunks.foldl C.update (C.hashStart alg), C.blank, C.blank, C.blank] rfl
  eventSeq : x.attributes.eventSeq = false
  firstBlock : x.attributes.firstBlock = !chunks.isEmpty
  ticketSafe : x.attributes.ticketSafe = chunks.head?.any ticketIsSafe

theorem hashSequence_agrees (auth : Tpm2bAuth) (alg : HashAlg) : HashAgrees C (hashSequence C auth alg) [] :=
  ⟨⟨alg, rfl⟩, rfl, rfl, rfl⟩

theorem hashUpdate_isHash {data : Bytes} (hx : (hashUpdate C x data).IsHash) : x.IsHash := by
  obtain ⟨hevict, hseq, states, count, hstate⟩ := hx
  obtain ⟨b, b', ha⟩ := hashUpdate_attributes (C := C) x data
  rw [ha] at hevict hseq
  refine ⟨hevict, hseq, ?_⟩
  have hsome : x.state.updateEvent C data = .hash states count ∨ x.state.updateHash C data = .hash states count := by
    unfold hashUpdate at hstate
    rw [hseq] at hstate
    split at hstate
    · exact .inl hstate
    · exact .inr hstate
  cases hs : x.state with
  | hash states' count' => exact ⟨states', count', rfl⟩
  | hmac state key =>
      rw [hs] at hsome
      rcases hsome with hsome | hsome <;> cases hsome
  | pqc q =>
      rw [hs] at hsome
      rcases hsome with hsome | hsome <;> cases hsome
  | stale =>
      rw [hs] at hsome
      rcases hsome with hsome | hsome <;> cases hsome

/-- An update appends to the message; only the first one looks at the octets. -/
theorem HashAgrees.update {chunks : List Bytes} (hx : HashAgrees C x chunks) (hseq : x.attributes.hashSeq = true)
    (data : Bytes) : HashAgrees C (hashUpdate C x data) (chunks ++ [data]) := by
  obtain ⟨⟨alg, hstate⟩, hevent, hfirst, hsafe⟩ := hx
  have hupdate : hashUpdate C x data =
      { x with
        state := x.state.updateHash C data
        attributes :=
          if x.attributes.firstBlock then x.attributes
          else { x.attributes with
            firstBlock := true, ticketSafe := x.attributes.ticketSafe || ticketIsSafe data } } := by
    rw [hashUpdate, hevent, hseq, if_neg (by decide), if_pos rfl]
  rw [hupdate]
  cases chunks with
  | nil =>
      replace hfirst : x.attributes.firstBlock = false := hfirst
      replace hsafe : x.attributes.ticketSafe = false := hsafe
      rw [hfirst, hsafe]
      exact ⟨⟨alg, by rw [hstate]; rfl⟩, hevent, rfl, rfl⟩
  | cons chunk rest =>
      replace hfirst : x.attributes.firstBlock = true := hfirst
      rw [if_pos hfirst]
      refine ⟨⟨alg, ?_⟩, hevent, hfirst, hsafe⟩
      rw [hstate, List.foldl_append]
      rfl

/-- Whatever hash sequence is in the slot, its message is known. -/
def SlotTold (C : SeqCrypto σ) (x : Slot σ) (t : Option (List Bytes)) : Prop :=
  ∀ y h, x = .sequence y h → y.IsHash → ∃ chunks, t = some chunks ∧ HashAgrees C y chunks

structure Told (P : Platform σ) (C : SeqCrypto σ) (s : TpmState σ) (g : Messages) : Prop where
  consistent : Consistent P s
  slots : ∀ i, SlotTold C (s.slots i) (g.slots i)
  length : g.contexts.length = s.contexts.length
  contexts : ∀ (k : Nat) (c : SavedContext), s.contexts[k]? = some c →
    ∃ y, ContextOk P c y ∧ SlotTold C y ((g.contexts[k]?).join)

theorem SlotTold.reread {t : Option (List Bytes)} {type : UInt16} (hy : SlotTold C (.sequence y h) t) :
    SlotTold C (.sequence { y with type } h) t := by
  intro z k hz hhash
  cases hz
  obtain ⟨chunks, rfl, hstate, hevent, hfirst, hsafe⟩ := hy y h rfl hhash
  exact ⟨chunks, rfl, hstate, hevent, hfirst, hsafe⟩

/-! ## Events -/

/-- The messages after an event in state `s`. -/
def Messages.next (P : Platform σ) (C : SeqCrypto σ) (s : TpmState σ) (g : Messages) : Event σ → Messages
  | .command c =>
      if s.inFailureMode then g
      else match c.resolve P s with
        | .ok (handles, s') => g.after c.action handles (c.action.act P C handles s').1
        | .error _ => g
  | _ => g

theorem Messages.next_command {c : Command} (hnf : s.inFailureMode = false) (hr : c.resolve P s = .ok (handles, s')) :
    g.next P C s (.command c) = g.after c.action handles (c.action.act P C handles s').1 := by
  simp only [Messages.next, hnf, Bool.false_eq_true, if_false, hr]

/-- A slot that is not filled and not updated keeps its message. -/
theorem Messages.after_kept {r : Except Fault Response} (hx : s.slots i = .sequence x h)
    (hnew : ∀ new, r = .ok (.handle new) →
      (a.bringsSequence = true ∨ ∃ auth alg, a = .hashSequenceStart auth (some alg)) →
        ∃ j, new = slotHandle j ∧ s.slots j = .vacant)
    (hupd : ∀ buffer resp, a = .sequenceUpdate buffer → handles = [slotHandle i] → r ≠ .ok resp) :
    (g.after a handles r).slots i = g.slots i := by
  have hfree {new : TpmHandle} (hj : ∃ j, new = slotHandle j ∧ s.slots j = .vacant) : slotOf new ≠ some i := by
    obtain ⟨j, rfl, hv⟩ := hj
    intro hi
    rw [slotOf_slotHandle] at hi
    cases hi
    rw [hx] at hv
    cases hv
  unfold Messages.after
  split
  · exact Messages.record_other (hfree (hnew _ rfl (.inr ⟨_, _, rfl⟩)))
  · apply Messages.record_other
    intro hi
    exact hupd _ _ rfl (by rw [slotHandle_of_slotOf hi]) rfl
  · rfl
  · exact Messages.record_other (hfree (hnew _ rfl (.inl rfl)))
  · rfl

theorem act_newSlot {new : TpmHandle} (hr : (a.act P C handles s).1 = .ok (.handle new))
    (ha : a.bringsSequence = true ∨ ∃ auth alg, a = .hashSequenceStart auth (some alg)) :
    ∃ j, new = slotHandle j ∧ s.slots j = .vacant := by
  rcases ha with ha | ⟨auth, alg, rfl⟩
  · exact act_handle ha hr
  · cases handles with
    | nil => exact startSequence_handle hr
    | cons handle rest => cases hr

/-- What a command leaves in a slot is told, if it was before. -/
theorem Told.command (ht : Told P C s g) {c : Command} (hr : c.resolve P s = .ok (handles, s'))
    (hx : (c.action.act P C handles s').2.slots i = .sequence x h) (hhash : x.IsHash) :
    ∃ chunks, (g.after c.action handles (c.action.act P C handles s').1).slots i = some chunks ∧
      HashAgrees C x chunks := by
  have ho := act_hashOrigin c.action handles hx hhash
  cases ho with
  | kept hx hno =>
      rw [Messages.after_kept hx (fun _ hnew ha => act_newSlot hnew ha) hno]
      exact ht.slots i x h (resolve_sequence hr hx hhash.1) hhash
  | started auth alg ha hresp =>
      rw [hresp, ha, Messages.after, Messages.record_same]
      exact ⟨[], rfl, hashSequence_agrees auth alg⟩
  | @updated y _ buffer ha hh hy hresp =>
      have hyhash := hashUpdate_isHash hhash
      obtain ⟨chunks, hchunks, hagree⟩ := ht.slots i y h (resolve_sequence hr hy hyhash.1) hyhash
      rw [hresp, ha, hh, Messages.after]
      exact ⟨_, Messages.append_same hchunks, hagree.update hyhash.2.1 buffer.buffer⟩
  | @loaded _ k saved rest ha hk hu hresp =>
      rw [resolve_contexts hr] at hk
      obtain ⟨y, hy, htold⟩ := ht.contexts k saved hk
      obtain ⟨z, rfl, -, rfl⟩ := hy.unmarshal_sequence hu
      rw [hresp, ha, Messages.after, Messages.record_same]
      exact htold.reread _ .null rfl hhash

theorem hashData_sequence {allocated : σ → Bool} {data : Bytes}
    (hx : (hashData C allocated data s).2.slots i = .sequence x h) (hhash : x.IsHash) :
    s.slots i = .sequence x h ∨ ∃ y, s.slots i = .sequence y h ∧ y.IsHash ∧ y.attributes.eventSeq = true := by
  unfold hashData at hx
  split at hx
  · exact .inl hx
  · split at hx
    · rename_i y k hy
      split at hx
      · rename_i states count hev hst
        simp only [TpmState.setSlot_slots] at hx
        split at hx
        · rename_i hij
          subst hij
          cases hx
          exact .inr ⟨y, hy, ⟨hhash.1, hhash.2.1, states, count, hst⟩, hev⟩
        · exact .inl hx
      · exact .inl hx
    · exact .inl hx
    · exact .inl hx

theorem Told.next_slots (ht : Told P C s g) (e : Event σ) (i : SlotIndex) :
    SlotTold C ((step P C s e).slots i) ((g.next P C s e).slots i) := by
  intro x h hx hhash
  have hkept (hx : s.slots i = .sequence x h) : ∃ chunks, g.slots i = some chunks ∧ HashAgrees C x chunks :=
    ht.slots i x h hx hhash
  cases e with
  | command c =>
      rw [step_slots] at hx
      by_cases hnf : s.inFailureMode = true
      · simp only [perform, hnf, if_true] at hx
        simp only [Messages.next, hnf, if_true]
        exact hkept hx
      rw [Bool.not_eq_true] at hnf
      simp only [perform, hnf, Bool.false_eq_true, if_false, execute] at hx
      cases hr : c.resolve P s with
      | error e =>
          rw [hr] at hx
          obtain ⟨hx, hevict⟩ := objectCleanupEvict_sequence hx
          simp only [Messages.next, hnf, Bool.false_eq_true, if_false, hr]
          rcases (objectTerminateEvent_noNew s).sequences i x h hx with hx | hx
          · exact hkept hx
          · rw [hevict] at hx
            cases hx
      | ok resolved =>
          obtain ⟨handles, s'⟩ := resolved
          rw [hr] at hx
          rw [Messages.next_command hnf hr]
          exact ht.command hr (objectCleanupEvict_sequence hx).1 hhash
  | hashData allocated data =>
      rw [step_slots] at hx
      simp only [perform] at hx
      split at hx
      · exact hkept hx
      · rcases hashData_sequence hx hhash with hx | ⟨y, hy, hyhash, hev⟩
        · exact hkept hx
        · obtain ⟨chunks, -, hagree⟩ := ht.slots i y h hy hyhash
          rw [hagree.eventSeq] at hev
          cases hev
  | hashStart =>
      rw [step_slots] at hx
      simp only [perform] at hx
      split at hx
      · exact hkept hx
      · rcases hashStart_origin hx with hx | ⟨rfl, -⟩
        · exact hkept hx
        · cases hhash.2.1
  | unauthorized c k session =>
      rw [step_slots] at hx
      simp only [perform] at hx
      split at hx
      · exact hkept hx
      · exact hkept (executeUnauthorized_sequence hx)
  | hashEnd =>
      rw [step_slots] at hx
      simp only [perform, hashEnd] at hx
      split at hx
      · exact hkept hx
      · split at hx
        · exact hkept hx
        · split at hx
          · exact hkept (flushObject_sequence hx)
          · exact hkept hx
  | startup t => cases t <;> cases hx

theorem Told.step (ht : Told P C s g) (e : Event σ) : Told P C (step P C s e) (g.next P C s e) := by
  have hcons : Consistent P (PqcTpm.step P C s e) := ht.consistent.step e
  rcases step_contexts (P := P) (C := C) (s := s) e with ⟨heq, hno⟩ | ⟨c, s', j, rfl, hnf, ha, hr, -, hresp, heq⟩
  · have hsame : (g.next P C s e).contexts = g.contexts := by
      cases e with
      | command c =>
          simp only [Messages.next]
          split
          · rfl
          · rename_i hnf
            split
            · rename_i hr
              apply Messages.after_contexts
              intro ha resp
              exact hno c _ _ resp rfl (Bool.eq_false_of_not_eq_true hnf) ha hr
            · rfl
      | unauthorized c k session => rfl
      | hashStart => rfl
      | hashData allocated data => rfl
      | hashEnd => rfl
      | startup t => rfl
    refine ⟨hcons, ht.next_slots e, by rw [hsame, heq, ht.length], fun k c hk => ?_⟩
    rw [heq] at hk
    rw [hsame]
    exact ht.contexts k c hk
  · -- a context was given out: its message is that of the slot
    have hnext : (g.next P C s (.command c)).contexts = g.contexts ++ [g.slots j] := by
      rw [Messages.next_command hnf hr, hresp, ha, Messages.after, slotOf_slotHandle, Option.bind_some]
    refine ⟨hcons, ht.next_slots _, ?_, fun k saved hk => ?_⟩
    · rw [hnext, heq, List.length_append, List.length_append, ht.length]
      rfl
    rw [heq] at hk
    rw [hnext]
    by_cases hlt : k < s.contexts.length
    · rw [List.getElem?_append_left hlt] at hk
      rw [List.getElem?_append_left (ht.length ▸ hlt)]
      exact ht.contexts k saved hk
    · have hlast : k = s.contexts.length := by
        have hle := (List.getElem?_eq_some_iff.mp hk).1
        rw [List.length_append, List.length_singleton] at hle
        omega
      subst hlast
      rw [List.getElem?_append_right (Nat.le_refl _), Nat.sub_self] at hk
      cases hk
      rw [← ht.length, List.getElem?_append_right (Nat.le_refl _), Nat.sub_self]
      have hterm := resolve_contextSave ha hr
      subst hterm
      refine ⟨_, ⟨objectTerminateEvent_ok ht.consistent j, rfl, rfl⟩, fun y k hslot hhash => ?_⟩
      rcases (objectTerminateEvent_noNew s).sequences j y k hslot with hslot | hevict
      · exact ht.slots j y k hslot hhash
      · rw [hhash.1] at hevict
        cases hevict

/-! ## The volatile state -/

/-- A slot that `VolatileState_Load` has filled from what `VolatileState_Save` wrote for it. The place
of `OBJECT.hierarchy` behind a sequence is not written; here it is `TPM_RH_NULL`, and in a process
where it is 0 a context of the sequence is not loaded. -/
def restoreSlot (P : Platform σ) (left : Residue) (x : Slot σ) : Except Fault (Slot σ) :=
  (AnyObject.unmarshal P.hs P.profile left
    (AnyObject.marshal P.hs P.profile.stateFormatLevel x.toAnyObject)).map fun r => Slot.ofAnyObject r.1

/-- The volatile state is written and read back over `left`. When a blob cannot be read, the TPM is in
failure mode. -/
def restoreState (P : Platform σ) (left : SlotIndex → Residue) (s : TpmState σ) : TpmState σ :=
  { s with
    slots := fun i =>
      match restoreSlot P (left i) (s.slots i) with
      | .ok x => x
      | .error _ => .vacant
    inFailureMode := s.inFailureMode ||
      (List.finRange 3).any fun i => !(restoreSlot P (left i) (s.slots i)).isOk }

theorem restoreSlot_sequence {left : Residue} {y : Slot σ} (hy : SlotOk y)
    (hr : restoreSlot P left y = .ok (.sequence x h)) :
    h = .null ∧ ∃ z type, y = .sequence z .null ∧ SequenceOk z ∧ x = { z with type } := by
  unfold restoreSlot at hr
  cases hu : AnyObject.unmarshal P.hs P.profile left
      (AnyObject.marshal P.hs P.profile.stateFormatLevel y.toAnyObject) with
  | error e =>
      rw [hu] at hr
      cases hr
  | ok r =>
      obtain ⟨w, rest⟩ := r
      rw [hu] at hr
      cases w with
      | object o => cases hr
      | vacant a => cases hr
      | sequence w =>
          cases hr
          obtain ⟨z, hz, hok, hw⟩ := hy.unmarshal_sequence hu
          exact ⟨rfl, z, _, hz, hok, hw⟩

theorem restoreSlot_object {left : Residue} {y : Slot σ} {o : Object} (hy : SlotOk y)
    (hr : restoreSlot P left y = .ok (.object o)) :
    o.attributes.evict = false ∧ o.attributes.occupied = true ∧ o.attributes.isSequence = false := by
  unfold restoreSlot at hr
  cases hu : AnyObject.unmarshal P.hs P.profile left
      (AnyObject.marshal P.hs P.profile.stateFormatLevel y.toAnyObject) with
  | error e =>
      rw [hu] at hr
      cases hr
  | ok r =>
      obtain ⟨w, rest⟩ := r
      rw [hu] at hr
      cases w with
      | sequence w => cases hr
      | vacant a => cases hr
      | object o =>
          cases hr
          have htag : (AnyObject.object o : AnyObject σ).Tagged := (AnyObject.unmarshal_ok P.hs hu).1
          have hattr : o.attributes = y.toAnyObject.attributes :=
            AnyObject.unmarshal_marshal_attributes P.hs hu
          refine ⟨?_, htag.1, htag.2⟩
          rw [hattr]
          cases y with
          | vacant => rfl
          | object o' => exact hy.1
          | sequence z k => exact hy.1.evict

theorem Told.restored (ht : Told P C s g) (left : SlotIndex → Residue) : Told P C (restoreState P left s) g := by
  refine ⟨⟨fun i => ?_, ht.consistent.contexts⟩, fun i => ?_, ht.length, ht.contexts⟩
  · have hi := ht.consistent.slots i
    change SlotOk (match restoreSlot P (left i) (s.slots i) with
      | .ok x => x
      | .error _ => .vacant)
    cases hr : restoreSlot P (left i) (s.slots i) with
    | error e => trivial
    | ok x =>
        cases x with
        | vacant => trivial
        | object o => exact restoreSlot_object hi hr
        | sequence x h =>
            obtain ⟨rfl, z, type, -, hz, rfl⟩ := restoreSlot_sequence hi hr
            exact ⟨⟨hz.evict, hz.occupied, hz.nameAlg, hz.fits⟩, rfl⟩
  · intro x h hx hhash
    have hi := ht.slots i
    change (match restoreSlot P (left i) (s.slots i) with
      | .ok x => x
      | .error _ => .vacant) = _ at hx
    cases hr : restoreSlot P (left i) (s.slots i) with
    | error e =>
        rw [hr] at hx
        cases hx
    | ok y =>
        rw [hr] at hx
        subst hx
        obtain ⟨rfl, z, type, hz, -, rfl⟩ := restoreSlot_sequence (ht.consistent.slots i) hr
        rw [hz] at hi
        exact hi.reread _ .null rfl hhash

/-! ## Completion -/

theorem ticketIsSafe_iff (buffer : Bytes) :
    ticketIsSafe buffer = true ↔ 4 ≤ buffer.length ∧ ¬ tpmGeneratedValue <+: buffer := by
  have hprefix : tpmGeneratedValue <+: buffer ↔ tpmGeneratedValue = buffer.take 4 := List.prefix_iff_eq_take
  rw [ticketIsSafe, Bool.and_eq_true, decide_eq_true_iff, decide_eq_true_iff, hprefix, eq_comm (a := tpmGeneratedValue)]

theorem ticketIsSafe_append {first : Bytes} (hsafe : ticketIsSafe first = true) (rest : Bytes) :
    ¬ tpmGeneratedValue <+: first ++ rest := by
  obtain ⟨hlen, hfirst⟩ := (ticketIsSafe_iff first).mp hsafe
  rw [List.prefix_iff_eq_take] at hfirst ⊢
  rw [List.take_append_of_le_length (show tpmGeneratedValue.length ≤ first.length from hlen)]
  exact hfirst

/-- The chunk that a sequence has received first when `buffer` is the last one. -/
def firstChunk (chunks : List Bytes) (buffer : Bytes) : Bytes := chunks.headD buffer

theorem flatten_firstChunk (chunks : List Bytes) (buffer : Bytes) :
    ∃ rest, (chunks ++ [buffer]).flatten = firstChunk chunks buffer ++ rest := by
  cases chunks with
  | nil => exact ⟨[], rfl⟩
  | cons chunk rest => exact ⟨(rest ++ [buffer]).flatten, rfl⟩

theorem HashAgrees.ticketSafe_eq {chunks : List Bytes} (hx : HashAgrees C x chunks) (buffer : Bytes) :
    (x.attributes.ticketSafe || (!x.attributes.firstBlock && ticketIsSafe buffer)) =
      ticketIsSafe (firstChunk chunks buffer) := by
  rw [hx.ticketSafe, hx.firstBlock]
  cases chunks with
  | nil => rfl
  | cons chunk rest =>
      change (ticketIsSafe chunk || (!true && ticketIsSafe buffer)) = ticketIsSafe chunk
      rw [Bool.not_true, Bool.false_and, Bool.or_false]

/-- The digest of a message. -/
def messageDigest (C : SeqCrypto σ) (alg : HashAlg) (chunks : List Bytes) : Bytes :=
  C.finish (chunks.foldl C.update (C.hashStart alg))

theorem HashAgrees.complete {chunks : List Bytes} (hx : HashAgrees C x chunks) (s : TpmState σ) (buffer : Bytes)
    (hierarchy : Hierarchy) :
    ∃ alg, completeHash C s x buffer hierarchy =
      .digest (messageDigest C alg (chunks ++ [buffer]))
        (if hierarchy = .null ∨ ticketIsSafe (firstChunk chunks buffer) = false then ⟨.null, []⟩
          else ticketComputeHashCheck C s hierarchy (C.hashAlg (chunks.foldl C.update (C.hashStart alg)))
            (messageDigest C alg (chunks ++ [buffer]))) := by
  obtain ⟨alg, hstate⟩ := hx.state
  refine ⟨alg, ?_⟩
  rw [completeHash, hstate, hx.ticketSafe_eq, messageDigest, List.foldl_append]
  rfl

/-- `TPM2_SequenceComplete` vouches for no message that begins like a structure of the TPM's own, and
it vouches for every message whose first chunk shows that it does not. -/
structure VouchesForOutside (P : Platform σ) (C : SeqCrypto σ) (s : TpmState σ) (g : Messages) : Prop where
  safe : ∀ (c : Command) buffer hierarchy result ticket, c.action = .sequenceComplete buffer hierarchy →
    (perform P C s (.command c)).1 = .ok (.digest result ticket) → ticket.hierarchy ≠ .null →
    ∃ i s' chunks alg, c.resolve P s = .ok ([slotHandle i], s') ∧ g.slots i = some chunks ∧
      result = messageDigest C alg (chunks ++ [buffer.buffer]) ∧
      ¬ tpmGeneratedValue <+: (chunks ++ [buffer.buffer]).flatten
  granted : ∀ (c : Command) buffer hierarchy i x h, c.action = .sequenceComplete buffer hierarchy →
    c.handles = [slotHandle i] → s.inFailureMode = false → s.slots i = .sequence x h →
    x.attributes.hashSeq = true → ∃ chunks, g.slots i = some chunks ∧
      (hierarchy ≠ .null → 4 ≤ (firstChunk chunks buffer.buffer).length →
        ¬ tpmGeneratedValue <+: firstChunk chunks buffer.buffer →
        ∃ alg, (perform P C s (.command c)).1 = .ok (.digest (messageDigest C alg (chunks ++ [buffer.buffer]))
          (ticketComputeHashCheck C s hierarchy (C.hashAlg (chunks.foldl C.update (C.hashStart alg)))
            (messageDigest C alg (chunks ++ [buffer.buffer])))))

theorem Told.isHash (ht : Told P C s g) (hx : s.slots i = .sequence x h) (hseq : x.attributes.hashSeq = true) :
    x.IsHash := by
  have hok := ht.consistent.sequence hx
  refine ⟨hok.evict, hseq, ?_⟩
  have hfits := hok.fits
  cases hs : x.state with
  | hash states count => exact ⟨states, count, rfl⟩
  | hmac state key =>
      rw [hs] at hfits
      cases hseq.symm.trans hfits.2.1
  | pqc q =>
      rw [hs] at hfits
      cases hseq.symm.trans hfits.1.2.2.1
  | stale =>
      rw [hs] at hfits
      exact absurd hfits id

/-- Only a hash sequence gets a ticket of a hierarchy. -/
theorem sequenceComplete_vouches {sequenceHandle : TpmHandle} {buffer : Tpm2b 1024} {hierarchy : Hierarchy}
    {result : Bytes} {ticket : Ticket}
    (hr : (sequenceComplete C sequenceHandle buffer hierarchy s).1 = .ok (.digest result ticket))
    (hticket : ticket.hierarchy ≠ .null) :
    ∃ i x h, sequenceHandle = slotHandle i ∧ s.slots i = .sequence x h ∧ x.attributes.hashSeq = true ∧
      completeHash C s x buffer.buffer hierarchy = .digest result ticket := by
  unfold sequenceComplete at hr
  split at hr
  · rename_i j hj
    split at hr
    · rename_i x k hx
      split at hr
      · rename_i hseq
        exact ⟨j, x, k, handleToObject_slot hj, hx, hseq, Except.ok.inj hr⟩
      · split at hr
        · -- an HMAC sequence: there is no ticket
          have hnull : completeHmac C x buffer.buffer = .digest result ticket := Except.ok.inj hr
          unfold completeHmac at hnull
          split at hnull
          · cases hnull
            exact absurd rfl hticket
          · cases hnull
            exact absurd rfl hticket
        · cases hr
    · cases hr
    · cases hr
  · cases hr
  · cases hr

theorem objectTerminateEvent_proof (s : TpmState σ) : s.objectTerminateEvent.proof = s.proof := by
  unfold TpmState.objectTerminateEvent
  split
  · rfl
  · split <;> rfl

theorem resolve_sequenceHandle {c : Command} {buffer : Tpm2b 1024} {hierarchy : Hierarchy}
    (ha : c.action = .sequenceComplete buffer hierarchy) (hh : c.handles = [slotHandle i])
    (hx : s.slots i = .sequence x h) (hev : x.attributes.eventSeq = false) :
    c.resolve P s = .ok ([slotHandle i], s.objectTerminateEvent) := by
  have hpresent : s.objectTerminateEvent.isObjectPresent (slotHandle i) = true := by
    rw [TpmState.isObjectPresent, slotOf_slotHandle, Option.any_some, objectTerminateEvent_sequence hx hev]
    rfl
  simp only [Command.resolve, Command.parseHandles, ha, hh, Bool.not_true, Bool.false_eq_true, if_false,
    TpmState.entityGetLoadStatus, TpmState.entityLoad, slotHandle_transient, hpresent, if_true]

/-- A ticket of a hierarchy is over a message whose first chunk was safe. -/
theorem Told.safe (ht : Told P C s g) {c : Command} {buffer : Tpm2b 1024} {hierarchy : Hierarchy} {result : Bytes}
    {ticket : Ticket} (ha : c.action = .sequenceComplete buffer hierarchy)
    (hr : (perform P C s (.command c)).1 = .ok (.digest result ticket)) (hticket : ticket.hierarchy ≠ .null) :
    ∃ i s' chunks alg, c.resolve P s = .ok ([slotHandle i], s') ∧ g.slots i = some chunks ∧
      result = messageDigest C alg (chunks ++ [buffer.buffer]) ∧
      ¬ tpmGeneratedValue <+: (chunks ++ [buffer.buffer]).flatten := by
  simp only [perform] at hr
  split at hr
  · cases hr
  unfold execute at hr
  split at hr
  · cases hr
  rename_i handles state hresolve
  simp only [ha] at hr
  unfold Action.act at hr
  split at hr
  case h_6 handle heq =>
      cases heq
      obtain ⟨i, x, h, rfl, hx, hseq, hcomplete⟩ := sequenceComplete_vouches hr hticket
      have hterm : SequenceOk x := by
        have hok := objectTerminateEvent_ok ht.consistent i
        rw [(resolve_loads hresolve).sequence hx] at hok
        exact hok.1
      have hbefore : s.slots i = .sequence x h := resolve_sequence hresolve hx hterm.evict
      obtain ⟨chunks, hchunks, hagree⟩ := ht.slots i x h hbefore (ht.isHash hbefore hseq)
      obtain ⟨alg, hdigest⟩ := hagree.complete _ buffer.buffer hierarchy
      rw [hcomplete] at hdigest
      obtain ⟨rfl, rfl⟩ := Response.digest.inj hdigest
      refine ⟨i, _, chunks, alg, hresolve, hchunks, rfl, ?_⟩
      have hsafe : ticketIsSafe (firstChunk chunks buffer.buffer) = true := by
        by_contra hunsafe
        rw [if_pos (.inr (Bool.eq_false_of_not_eq_true hunsafe))] at hticket
        exact hticket rfl
      obtain ⟨rest, hrest⟩ := flatten_firstChunk chunks buffer.buffer
      rw [hrest]
      exact ticketIsSafe_append hsafe rest
  all_goals first
    | cases hr
    | rename_i heq; cases heq

/-- A message with a safe first chunk gets its ticket. -/
theorem Told.granted (ht : Told P C s g) {c : Command} {buffer : Tpm2b 1024} {hierarchy : Hierarchy}
    (ha : c.action = .sequenceComplete buffer hierarchy) (hh : c.handles = [slotHandle i])
    (hnf : s.inFailureMode = false) (hx : s.slots i = .sequence x h) (hseq : x.attributes.hashSeq = true) :
    ∃ chunks, g.slots i = some chunks ∧
      (hierarchy ≠ .null → 4 ≤ (firstChunk chunks buffer.buffer).length →
        ¬ tpmGeneratedValue <+: firstChunk chunks buffer.buffer →
        ∃ alg, (perform P C s (.command c)).1 = .ok (.digest (messageDigest C alg (chunks ++ [buffer.buffer]))
          (ticketComputeHashCheck C s hierarchy (C.hashAlg (chunks.foldl C.update (C.hashStart alg)))
            (messageDigest C alg (chunks ++ [buffer.buffer]))))) := by
  obtain ⟨chunks, hchunks, hagree⟩ := ht.slots i x h hx (ht.isHash hx hseq)
  refine ⟨chunks, hchunks, fun hhier hlen hfirst => ?_⟩
  obtain ⟨alg, hdigest⟩ := hagree.complete s.objectTerminateEvent buffer.buffer hierarchy
  refine ⟨alg, ?_⟩
  have hsafe : ticketIsSafe (firstChunk chunks buffer.buffer) = true := (ticketIsSafe_iff _).mpr ⟨hlen, hfirst⟩
  have hgiven : ¬ (hierarchy = .null ∨ ticketIsSafe (firstChunk chunks buffer.buffer) = false) := by
    rintro (hnull | hunsafe)
    · exact hhier hnull
    · cases hsafe.symm.trans hunsafe
  rw [if_neg hgiven] at hdigest
  have hslot : s.objectTerminateEvent.slots i = .sequence x h := objectTerminateEvent_sequence hx hagree.eventSeq
  have hobject : s.objectTerminateEvent.handleToObject (slotHandle i) = .ok (some i) :=
    handleToObject_slotHandle (by rw [hslot]; rfl)
  have hact : (sequenceComplete C (slotHandle i) buffer hierarchy s.objectTerminateEvent).1 =
      .ok (completeHash C s.objectTerminateEvent x buffer.buffer hierarchy) := by
    simp only [sequenceComplete, hobject, hslot, hseq, if_true]
  simp only [perform, hnf, Bool.false_eq_true, if_false, execute,
    resolve_sequenceHandle (P := P) ha hh hx hagree.eventSeq, ha, Action.act]
  rw [hact, hdigest, ticketComputeHashCheck, ticketComputeHashCheck, objectTerminateEvent_proof]

/-! ## Runs -/

/-- What happens to a TPM: an event, or its volatile state is written and read back. -/
inductive Occurrence (σ : Type)
  | event (e : Event σ)
  | restored (left : SlotIndex → Residue)

/-- State and messages side by side. -/
def listen (P : Platform σ) (C : SeqCrypto σ) (p : TpmState σ × Messages) : Occurrence σ → TpmState σ × Messages
  | .event e => (step P C p.1 e, p.2.next P C p.1 e)
  | .restored left => (restoreState P left p.1, p.2)

theorem told_of_run (hs : s.IsInitial) (os : List (Occurrence σ)) :
    Told P C (run (listen P C) (s, {}) os).1 (run (listen P C) (s, {}) os).2 := by
  have hinit : Told P C s {} := by
    refine ⟨hs.consistent, fun i y h hx => ?_, by rw [hs.2]; rfl, fun k c hk => ?_⟩
    · rw [hs.1 i] at hx
      cases hx
    · rw [hs.2] at hk
      cases hk
  apply run_invariant (I := fun p : TpmState σ × Messages => Told P C p.1 p.2) (q := fun _ => True)
  · intro p o hp _
    cases o with
    | event e => exact hp.step e
    | restored left => exact hp.restored left
  · exact hinit
  · intro _ _
    trivial

/-- After every run, tickets of hash sequences vouch for data from outside only, and for all of it
that shows so at its beginning. -/
theorem hash_tickets_of_run (hs : s.IsInitial) (os : List (Occurrence σ)) :
    VouchesForOutside P C (run (listen P C) (s, {}) os).1 (run (listen P C) (s, {}) os).2 := by
  have ht := told_of_run (P := P) (C := C) hs os
  constructor
  · intro c buffer hierarchy result ticket ha hr hticket
    exact ht.safe ha hr hticket
  · intro c buffer hierarchy i x h ha hh hnf hx hseq
    exact ht.granted ha hh hnf hx hseq

end

/-! ## A message in two chunks -/

/-- A chunk of four octets, a saved context that is loaded into another slot, and the volatile state
read back. -/
def fourOctetsReloaded : List (Occurrence Unit) :=
  [.event (.command ⟨.hashSequenceStart .empty (some .sha256), []⟩),
   .event (.command ⟨.sequenceUpdate ⟨[1, 2, 3, 4], by decide⟩, [slotHandle 0]⟩),
   .event (.command ⟨.contextSave, [slotHandle 0]⟩),
   .event (.command ⟨.contextLoad 0, []⟩),
   .restored fun _ => {}]

/-- The completion of the loaded copy gives out a ticket of the owner hierarchy. -/
theorem fourOctets_vouched :
    VouchesForOutside toyPlatform toyCrypto (run (listen toyPlatform toyCrypto) ({}, {}) fourOctetsReloaded).1
        (run (listen toyPlatform toyCrypto) ({}, {}) fourOctetsReloaded).2 ∧
      (run (listen toyPlatform toyCrypto) ({}, {}) fourOctetsReloaded).2.slots 1 = some [[1, 2, 3, 4]] ∧
      ∃ result ticket, (perform toyPlatform toyCrypto
          (run (listen toyPlatform toyCrypto) ({}, {}) fourOctetsReloaded).1
          (.command ⟨.sequenceComplete .empty .owner, [slotHandle 1]⟩)).1 = .ok (.digest result ticket) ∧
        ticket.hierarchy = .owner := by
  exact ⟨hash_tickets_of_run (s := {}) ⟨fun _ => rfl, rfl⟩ _, rfl, _, _, rfl, rfl⟩

end PqcTpm
