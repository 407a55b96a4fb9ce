import PqcTpm.NvFlush
import PqcTpm.SlotOrigin

/-!
# What every slot looks like

The invariant of the slots and of the contexts over whole runs, and the marks that
`AllocateSequenceSlot` gives to a sequence: temporary, exempt from the dictionary attack
logic, of type and name algorithm `TPM_ALG_NULL`. `PqcSequenceAllocate` gives two of them
only, and a context brings back the type of no sequence.
-/
namespace PqcTpm
open ByteCodec Transition

section
variable {σ : Type} {P : Platform σ} {C : SeqCrypto σ} {s s' : TpmState σ} {i : SlotIndex}
  {x : HashObject σ} {h : Hierarchy}

/-! ## Consistent slots -/

/-- What holds of every sequence between commands. -/
structure SequenceOk (x : HashObject σ) : Prop where
  evict : x.attributes.evict = false
  occupied : x.attributes.occupied = true
  nameAlg : x.nameAlg = none
  fits : x.state.Fits x.attributes

theorem SequenceOk.isSequence (hx : SequenceOk x) : x.attributes.isSequence = true := by
  have hf := hx.fits
  unfold ObjectAttributes.isSequence
  cases hs : x.state with
  | hash states count =>
      rw [hs] at hf
      rcases hf with hf | hf <;> simp [hf]
  | hmac state key =>
      rw [hs] at hf
      simp [hf.1]
  | pqc q =>
      rw [hs] at hf
      simp [hf.1.1]
  | stale =>
      rw [hs] at hf
      exact absurd hf id

def SlotOk : Slot σ → Prop
  | .vacant => True
  | .object o => o.attributes.evict = false ∧ o.attributes.occupied = true ∧ o.attributes.isSequence = false
  | .sequence x h => SequenceOk x ∧ h = .null

/-- A context is the blob of a consistent slot. -/
structure ContextOk (P : Platform σ) (c : SavedContext) (x : Slot σ) : Prop where
  slot : SlotOk x
  savedHandle : c.savedHandle = savedHandle x
  blob : c.blob = AnyObject.marshal P.hs P.profile.stateFormatLevel x.toAnyObject

structure Consistent (P : Platform σ) (s : TpmState σ) : Prop where
  slots : ∀ i, SlotOk (s.slots i)
  contexts : ∀ c ∈ s.contexts, ∃ x, ContextOk P c x

theorem Consistent.sequence (hc : Consistent P s) (hx : s.slots i = .sequence x h) : SequenceOk x := by
  have hi := hc.slots i
  rw [hx] at hi
  exact hi.1

theorem Fresh.ok (hf : Fresh C x) : SequenceOk x := by
  cases hf with
  | hash auth alg => exact ⟨rfl, rfl, rfl, .inl rfl⟩
  | event auth => exact ⟨rfl, rfl, rfl, .inr rfl⟩
  | hmac auth state => exact ⟨rfl, rfl, rfl, ⟨rfl, rfl, rfl⟩⟩

theorem SeqState.updateHash_fits {a : ObjectAttributes} {state : SeqState σ} (hf : state.Fits a)
    (data : Bytes) : (state.updateHash C data).Fits a := by
  unfold SeqState.updateHash
  split
  · exact hf
  · exact hf

theorem SeqState.updateEvent_fits {a : ObjectAttributes} {state : SeqState σ} (hf : state.Fits a)
    (data : Bytes) : (state.updateEvent C data).Fits a := by
  unfold SeqState.updateEvent
  split
  · exact hf
  · exact hf

theorem SeqState.updateHmac_fits {a : ObjectAttributes} {state : SeqState σ} (hf : state.Fits a)
    (data : Bytes) : (state.updateHmac C data).Fits a := by
  unfold SeqState.updateHmac
  split
  · exact hf
  · exact hf

/-- `firstBlock` and `ticketSafe` are the only attributes that an update may set. -/
theorem hashUpdate_attributes (x : HashObject σ) (data : Bytes) :
    ∃ b b', (hashUpdate C x data).attributes = { x.attributes with firstBlock := b, ticketSafe := b' } := by
  unfold hashUpdate
  split
  · exact ⟨_, _, rfl⟩
  · split
    · by_cases hb : x.attributes.firstBlock = true
      · exact ⟨_, _, if_pos hb⟩
      · exact ⟨_, _, if_neg hb⟩
    · split <;> exact ⟨_, _, rfl⟩

theorem hashUpdate_frame (x : HashObject σ) (data : Bytes) :
    (hashUpdate C x data).nameAlg = x.nameAlg ∧ (hashUpdate C x data).type = x.type ∧
      (hashUpdate C x data).objectAttributes = x.objectAttributes := by
  unfold hashUpdate
  repeat' split
  all_goals exact ⟨rfl, rfl, rfl⟩

theorem Fits.of_attributes {a a' : ObjectAttributes} {state : SeqState σ} (hf : state.Fits a)
    (h : a'.hashSeq = a.hashSeq ∧ a'.eventSeq = a.eventSeq ∧ a'.hmacSeq = a.hmacSeq ∧ a'.pqcSeq = a.pqcSeq) :
    state.Fits a' := by
  obtain ⟨h1, h2, h3, h4⟩ := h
  cases state with
  | hash states count => exact hf.imp (fun h => by rw [h1, h]) fun h => by rw [h2, h]
  | hmac state key => exact ⟨by rw [h3, hf.1], by rw [h1, hf.2.1], by rw [h2, hf.2.2]⟩
  | pqc q =>
      obtain ⟨⟨f1, f2, f3, f4⟩, hlen⟩ := hf
      exact ⟨⟨by rw [h4, f1], by rw [h3, f2], by rw [h1, f3], by rw [h2, f4]⟩, hlen⟩
  | stale => exact hf

theorem hashUpdate_state_fits (hf : x.state.Fits x.attributes) (data : Bytes) :
    (hashUpdate C x data).state.Fits x.attributes := by
  unfold hashUpdate
  split
  · exact SeqState.updateEvent_fits hf data
  · split
    · exact SeqState.updateHash_fits hf data
    · split
      · exact SeqState.updateHmac_fits hf data
      · exact hf

theorem hashUpdate_ok (hx : SequenceOk x) (data : Bytes) : SequenceOk (hashUpdate C x data) := by
  obtain ⟨b, b', ha⟩ := hashUpdate_attributes (C := C) x data
  constructor
  · rw [ha]
    exact hx.evict
  · rw [ha]
    exact hx.occupied
  · rw [(hashUpdate_frame x data).1]
    exact hx.nameAlg
  · rw [ha]
    exact Fits.of_attributes (hashUpdate_state_fits hx.fits data) ⟨rfl, rfl, rfl, rfl⟩

theorem pqcObject_ok (auth : Tpm2bAuth) {q : PqcSeqState} (hq : q.buffer = []) :
    SequenceOk (pqcObject auth q : HashObject σ) := by
  refine ⟨rfl, rfl, rfl, ⟨rfl, rfl, rfl, rfl⟩, ?_⟩
  rw [hq]
  exact Nat.zero_le _

theorem pqcSequenceUpdate_ok {q q' : PqcSeqState} {data : Bytes} (hu : pqcSequenceUpdate q data = .ok q') :
    q.isSign = false ∧ q' = { q with buffer := q.buffer ++ data } ∧
      (q.buffer.length ≤ maxPqcSeqBuffer → q'.buffer.length ≤ maxPqcSeqBuffer) := by
  unfold pqcSequenceUpdate at hu
  split at hu
  · cases hu
  · rename_i hs
    have hs := Bool.eq_false_of_not_eq_true hs
    split at hu
    · rename_i hd
      cases hu
      rw [List.eq_nil_of_length_eq_zero hd, List.append_nil]
      exact ⟨hs, rfl, id⟩
    · split at hu
      · cases hu
      · rename_i hlen
        cases hu
        refine ⟨hs, rfl, fun _ => ?_⟩
        rw [List.length_append]
        omega

theorem SequenceOk.pqcUpdate {q q' : PqcSeqState} {data : Bytes} (hx : SequenceOk x)
    (hq : x.state = .pqc q) (hu : pqcSequenceUpdate q data = .ok q') :
    SequenceOk ({ x with state := .pqc q' } : HashObject σ) := by
  have hf := hx.fits
  rw [hq] at hf
  exact ⟨hx.evict, hx.occupied, hx.nameAlg, hf.1, (pqcSequenceUpdate_ok hu).2.2 hf.2⟩

/-- A sequence is read back from the blob of a slot only if it was written there, and then as it was
but for its type. -/
theorem SlotOk.unmarshal_sequence {y : Slot σ} {r : Residue} {rest : Bytes} (hy : SlotOk y)
    (hu : AnyObject.unmarshal P.hs P.profile r
      (AnyObject.marshal P.hs P.profile.stateFormatLevel y.toAnyObject) = .ok (.sequence x, rest)) :
    ∃ z, y = .sequence z .null ∧ SequenceOk z ∧
      x = { z with type := HashObject.typeRead r.type z.type.toNat } := by
  have htag : x.attributes.occupied = true ∧ x.attributes.isSequence = true :=
    (AnyObject.unmarshal_ok P.hs hu).1
  have hattr : x.attributes = y.toAnyObject.attributes := AnyObject.unmarshal_marshal_attributes P.hs hu
  cases y with
  | vacant =>
      rw [hattr] at htag
      cases htag.1
  | object o =>
      rw [hattr] at htag
      have hseq := htag.2
      rw [show (Slot.object o : Slot σ).toAnyObject.attributes = o.attributes from rfl, hy.2.2] at hseq
      cases hseq
  | sequence z hz =>
      obtain ⟨hz, rfl⟩ := hy
      have hreads : Reads (AnyObject.unmarshal P.hs P.profile r)
          (AnyObject.marshal P.hs P.profile.stateFormatLevel (.sequence z))
          (.sequence { z with type := HashObject.typeRead r.type z.type.toNat }) :=
        AnyObject.reads_sequence P.hs r ⟨hz.occupied, hz.isSequence⟩ (by rw [hz.nameAlg]; rfl) hz.fits
      have hread := hreads []
      rw [List.append_nil] at hread
      rw [show (Slot.sequence z Hierarchy.null).toAnyObject = .sequence z from rfl, hread] at hu
      cases hu
      exact ⟨z, rfl, hz, rfl⟩

theorem ContextOk.unmarshal_sequence {c : SavedContext} {y : Slot σ} {rest : Bytes} (hc : ContextOk P c y)
    (hu : AnyObject.unmarshal P.hs P.profile {} c.blob = .ok (.sequence x, rest)) :
    ∃ z, y = .sequence z .null ∧ SequenceOk z ∧
      x = { z with type := HashObject.typeRead 0 z.type.toNat } := by
  rw [hc.blob] at hu
  exact hc.slot.unmarshal_sequence hu

theorem Consistent.origin (hc : Consistent P s) {a : Action} {handles : List TpmHandle}
    {r : Except Fault Response} (hslots : ∀ i x h, s'.slots i = .sequence x h → x.attributes.evict = false →
      s.slots i = .sequence x h) (hcont : s'.contexts = s.contexts) (ho : Origin P C s' a handles r i x h)
    (he : x.attributes.evict = false) : SequenceOk x ∧ h = .null := by
  have hback {j : SlotIndex} {y : HashObject σ} {k : Hierarchy} (hy : s'.slots j = .sequence y k)
      (he : y.attributes.evict = false) : SequenceOk y ∧ k = .null := by
    have hj := hc.slots j
    rw [hslots j y k hy he] at hj
    exact hj
  cases ho with
  | kept hx _ => exact hback hx he
  | evicted hx =>
      rw [hx] at he
      cases he
  | started hf _ => exact ⟨hf.ok, rfl⟩
  | @updated y _ data hx _ =>
      obtain ⟨b, b', ha⟩ := hashUpdate_attributes (C := C) y data
      rw [ha] at he
      obtain ⟨hy, rfl⟩ := hback hx he
      exact ⟨hashUpdate_ok hy data, rfl⟩
  | pqcStarted _ _ _ _ hb _ _ => exact ⟨pqcObject_ok _ hb, rfl⟩
  | pqcUpdated _ _ hx hq _ hu _ =>
      obtain ⟨hy, rfl⟩ := hback hx he
      exact ⟨hy.pqcUpdate hq hu, rfl⟩
  | loaded _ hk _ hu _ _ =>
      rw [hcont] at hk
      obtain ⟨y, hy⟩ := hc.contexts _ (List.mem_of_getElem? hk)
      obtain ⟨z, -, hz, rfl⟩ := hy.unmarshal_sequence hu
      exact ⟨⟨hz.evict, hz.occupied, hz.nameAlg, hz.fits⟩, rfl⟩

theorem resolve_contexts {c : Command} {handles : List TpmHandle} (hr : c.resolve P s = .ok (handles, s')) :
    s'.contexts = s.contexts :=
  ((objectTerminateEvent_noNew s).trans (resolve_loads hr).noNew).contexts

theorem objectTerminateEvent_ok (hc : Consistent P s) (i : SlotIndex) :
    SlotOk (s.objectTerminateEvent.slots i) := by
  unfold TpmState.objectTerminateEvent
  split
  · exact hc.slots i
  · rename_i j _
    split
    · change SlotOk ((s.setSlot j .vacant).slots i)
      rw [TpmState.setSlot_slots]
      split
      · trivial
      · exact hc.slots i
    · exact hc.slots i

/-- Every event keeps slots and contexts consistent. -/
theorem Consistent.step (hc : Consistent P s) (e : Event σ) : Consistent P (step P C s e) := by
  constructor
  · intro i
    cases hi : (PqcTpm.step P C s e).slots i with
    | vacant => trivial
    | object o =>
        rcases step_object hi with ho | ⟨hevict, ho⟩
        · have hok := hc.slots i
          rw [ho] at hok
          exact hok
        · exact ⟨hevict, ho hevict⟩
    | sequence x h =>
        cases step_origin hi with
        | kept hx _ =>
            have hok := hc.slots i
            rw [hx] at hok
            exact hok
        | command _ _ hr ho hx =>
            exact hc.origin (fun _ _ _ => resolve_sequence hr) (resolve_contexts hr) ho hx
        | drtmStarted => exact ⟨(Fresh.event .empty).ok, rfl⟩
        | drtmUpdated hx hs =>
            have hok := hc.slots i
            rw [hx] at hok
            obtain ⟨hok, rfl⟩ := hok
            have hf := hok.fits
            rw [hs] at hf
            exact ⟨⟨hok.evict, hok.occupied, hok.nameAlg, hf⟩, rfl⟩
  · intro c hmem
    rcases step_contexts (P := P) (C := C) (s := s) e with ⟨heq, -⟩ | ⟨c', s', j, rfl, -, ha, hr, -, -, heq⟩
    · rw [heq] at hmem
      exact hc.contexts c hmem
    · rw [heq, List.mem_append, List.mem_singleton] at hmem
      rcases hmem with hmem | rfl
      · exact hc.contexts c hmem
      · have hs' := resolve_contextSave ha hr
        subst hs'
        exact ⟨_, objectTerminateEvent_ok hc j, rfl, rfl⟩

/-- A TPM that has just started for the first time. -/
def TpmState.IsInitial (s : TpmState σ) : Prop := (∀ i, s.slots i = .vacant) ∧ s.contexts = []

theorem TpmState.IsInitial.consistent (hs : s.IsInitial) : Consistent P s := by
  constructor
  · intro i
    rw [hs.1 i]
    trivial
  · intro c hc
    rw [hs.2] at hc
    cases hc

/-! ## Marks -/

/-- The marks of a sequence. -/
structure HashObject.Marked (x : HashObject σ) (h : Hierarchy) : Prop where
  one : [x.attributes.hmacSeq, x.attributes.hashSeq, x.attributes.eventSeq, x.attributes.pqcSeq].count true = 1
  temporary : x.attributes.temporary = true
  noDA : x.objectAttributes.noDA = true
  type : x.type = typeNull
  nameAlg : x.nameAlg = none
  hierarchy : h = .null

def Slot.Marked : Slot σ → Prop
  | .sequence x h => x.Marked h
  | .object _ | .vacant => False

def AuthSession.isDaBound : AuthSession → Bool
  | .password => false
  | .session _ isDaBound _ => isDaBound

/-- Every sequence is marked, none can be made persistent, and a failed authorization for one does
not count as a dictionary attack, unless the session itself is bound to an entity that counts. -/
structure SequencesSafe (P : Platform σ) (C : SeqCrypto σ) (s : TpmState σ) : Prop where
  marked : ∀ i, (s.slots i).occupied = true → (s.slots i).attributes.isSequence = true → (s.slots i).Marked
  notPersistent : ∀ c persistentHandle auth i s' x h, c.action = .evictControl persistentHandle →
    c.resolve P s = .ok ([auth, slotHandle i], s') → s'.slots i = .sequence x h →
    (∃ e, (execute P C c s).1 = .error e) ∧ (execute P C c s).2.nv = s.nv
  noLockout : ∀ c k session handles i s' x h, c.resolve P s = .ok (handles, s') →
    handles[k]? = some (slotHandle i) → s'.slots i = .sequence x h → session.isDaBound = false →
    (executeUnauthorized P c k session s).2.failedTries = s.failedTries

/-- The event starts a PQC sequence, or loads the context of a sequence: the key is one that can sign,
or the context passes its integrity check, and a slot is free. -/
def Unmarks (P : Platform σ) (s : TpmState σ) (e : Event σ) : Prop :=
  ∃ c handles s', e = .command c ∧ s.inFailureMode = false ∧ c.resolve P s = .ok (handles, s') ∧
    (∃ i, s'.slots i = .vacant) ∧
    ((∃ start keyHandle key, c.action.pqcStart = some start ∧ handles = [keyHandle] ∧
        getSigningKey s' keyHandle = .ok key) ∨
      ∃ k saved, c.action = .contextLoad k ∧ s'.contexts[k]? = some saved ∧
        saved.savedHandle = 0x80000001 ∧
        saved.integrity = s'.contextIntegrity saved.savedHandle saved.hierarchy)

theorem Fresh.marked (hf : Fresh C x) : x.Marked .null := by
  cases hf with
  | hash auth alg => exact ⟨rfl, rfl, rfl, rfl, rfl, rfl⟩
  | event auth => exact ⟨rfl, rfl, rfl, rfl, rfl, rfl⟩
  | hmac auth state => exact ⟨rfl, rfl, rfl, rfl, rfl, rfl⟩

theorem hashUpdate_marked (hx : x.Marked h) (data : Bytes) : (hashUpdate C x data).Marked h := by
  obtain ⟨b, b', ha⟩ := hashUpdate_attributes (C := C) x data
  obtain ⟨hname, htype, hobj⟩ := hashUpdate_frame (C := C) x data
  constructor
  · rw [ha]
    exact hx.one
  · rw [ha]
    exact hx.temporary
  · rw [hobj]
    exact hx.noDA
  · rw [htype]
    exact hx.type
  · rw [hname]
    exact hx.nameAlg
  · exact hx.hierarchy

theorem ContextOk.savedHandle_sequence {c : SavedContext} {y : Slot σ} {rest : Bytes} (hc : ContextOk P c y)
    (hu : AnyObject.unmarshal P.hs P.profile {} c.blob = .ok (.sequence x, rest)) :
    c.savedHandle = 0x80000001 := by
  obtain ⟨z, rfl, hz, -⟩ := hc.unmarshal_sequence hu
  rw [hc.savedHandle]
  exact if_pos hz.isSequence

/-- Sequences stay marked through every event that does not unmark. -/
theorem step_marked (hc : Consistent P s) (hm : ∀ i x h, s.slots i = .sequence x h → x.Marked h)
    {e : Event σ} (he : ¬ Unmarks P s e) (hx : (step P C s e).slots i = .sequence x h) : x.Marked h := by
  cases step_origin hx with
  | kept hx _ => exact hm i x h hx
  | command hcmd hnf hr ho hevict =>
      cases ho with
      | kept hx _ => exact hm i x h (resolve_sequence hr hx hevict)
      | evicted hx =>
          rw [hx] at hevict
          cases hevict
      | started hf _ => exact hf.marked
      | @updated y _ data hy _ =>
          obtain ⟨b, b', ha⟩ := hashUpdate_attributes (C := C) y data
          rw [ha] at hevict
          exact hashUpdate_marked (hm i y h (resolve_sequence hr hy hevict)) data
      | pqcStarted ha hh hk _ _ hv _ =>
          exact absurd ⟨_, _, _, hcmd, hnf, hr, ⟨i, hv⟩, .inl ⟨_, _, _, ha, hh, hk⟩⟩ he
      | @pqcUpdated y _ _ _ _ _ _ hy _ _ _ _ =>
          have hy := hm i y h (resolve_sequence hr hy hevict)
          exact ⟨hy.one, hy.temporary, hy.noDA, hy.type, hy.nameAlg, hy.hierarchy⟩
      | loaded ha hk hi hu hv _ =>
          obtain ⟨y, hy⟩ := hc.contexts _ (List.mem_of_getElem? (resolve_contexts hr ▸ hk))
          exact absurd ⟨_, _, _, hcmd, hnf, hr, ⟨i, hv⟩,
            .inr ⟨_, _, ha, hk, hy.savedHandle_sequence hu, hi⟩⟩ he
  | drtmStarted => exact (Fresh.event .empty).marked
  | drtmUpdated hy hs =>
      have hy := hm i _ h hy
      exact ⟨hy.one, hy.temporary, hy.noDA, hy.type, hy.nameAlg, hy.hierarchy⟩

/-! ## What the marks are for -/

theorem resolve_surroundings {c : Command} {handles : List TpmHandle} (hr : c.resolve P s = .ok (handles, s')) :
    s'.toSurroundings = s.toSurroundings := by
  rw [(resolve_loads hr).rest]
  unfold TpmState.objectTerminateEvent
  split
  · rfl
  · split <;> rfl

/-- `TPM2_EvictControl` refuses what is temporary. -/
theorem evictControl_temporary (auth persistentHandle : TpmHandle) (hx : s.slots i = .sequence x h)
    (ht : x.attributes.temporary = true) :
    evictControl P auth (slotHandle i) persistentHandle s = (.error (.at .attributes 0x200), s) := by
  have hi : s.handleToObject (slotHandle i) = .ok (some i) := handleToObject_slotHandle (by rw [hx]; rfl)
  have hchecks : evictControlChecks auth persistentHandle (s.slots i) = .error (.at .attributes 0x200) := by
    rw [hx]
    simp only [evictControlChecks, Slot.attributes, ht, Bool.true_or, if_true]
  rw [evictControl, hi]
  simp only [hchecks]

/-- The dictionary attack counter stays where it is when the entity is exempt. -/
theorem incrementLockout_exempt (session : AuthSession) (hx : s.slots i = .sequence x h)
    (hd : x.objectAttributes.noDA = true) (hs : session.isDaBound = false) :
    (incrementLockout (slotHandle i) session s).2.failedTries = s.failedTries := by
  have hexempt : isDaExempted s (slotHandle i) = .ok true := by
    have hi : s.handleToObject (slotHandle i) = .ok (some i) := handleToObject_slotHandle (by rw [hx]; rfl)
    simp only [isDaExempted, if_neg (slotHandle_not_permanent i), if_pos (slotHandle_transient i),
      if_neg (slotHandle_not_reserved i), hi, hx, Slot.objectAttributes, hd]
  have hhandle : lockoutHandle s (slotHandle i) session = .ok none ∨
      lockoutHandle s (slotHandle i) session = .ok (some TpmHandle.rhLockout) := by
    cases session with
    | password =>
        left
        rw [lockoutHandle, hexempt]
        rfl
    | session isLockoutBound isDaBound includeAuth =>
        cases hs
        cases isLockoutBound with
        | false =>
            left
            simp only [lockoutHandle, Bool.false_eq_true, if_false, hexempt]
            rfl
        | true =>
            have hlockout : isDaExempted s TpmHandle.rhLockout = .ok false := by
              rw [isDaExempted, if_pos (by decide)]
              rfl
            cases includeAuth with
            | false =>
                left
                simp only [lockoutHandle, Bool.false_eq_true, if_false, if_true, hlockout]
                rfl
            | true =>
                right
                simp only [lockoutHandle, Bool.false_eq_true, if_false, if_true, hlockout]
                rfl
  rcases hhandle with hh | hh
  · rw [incrementLockout, hh]
  · simp only [incrementLockout, hh, if_true]
    split <;> rfl

theorem Consistent.sequencesSafe (hc : Consistent P s)
    (hm : ∀ i x h, s.slots i = .sequence x h → x.Marked h) : SequencesSafe P C s := by
  have hresolved {c : Command} {handles : List TpmHandle} {s' : TpmState σ} {i : SlotIndex}
      {x : HashObject σ} {h : Hierarchy} (hr : c.resolve P s = .ok (handles, s'))
      (hx : s'.slots i = .sequence x h) : x.Marked h := by
    have hterm := (resolve_loads hr).sequence hx
    rcases (objectTerminateEvent_noNew s).sequences i x h hterm with hx | hevict
    · exact hm i x h hx
    · have hok := objectTerminateEvent_ok hc i
      rw [hterm] at hok
      rw [hok.1.evict] at hevict
      cases hevict
  constructor
  · intro i hocc hseq
    have hok := hc.slots i
    cases hx : s.slots i with
    | vacant =>
        rw [hx] at hocc
        cases hocc
    | object o =>
        rw [hx] at hok hseq
        rw [show (Slot.object o : Slot σ).attributes = o.attributes from rfl, hok.2.2] at hseq
        cases hseq
    | sequence x h => exact hm i x h hx
  · intro c persistentHandle auth i s' x h ha hr hx
    have hout := evictControl_temporary (P := P) auth persistentHandle hx (hresolved hr hx).temporary
    have hexec : execute P C c s = (.error (.at .attributes 0x200), s'.objectCleanupEvict) := by
      rw [execute, hr]
      simp only [ha, Action.act, hout]
    rw [hexec]
    have hnv : s'.nv = s.nv := congrArg Surroundings.nv (resolve_surroundings hr)
    exact ⟨⟨_, rfl⟩, hnv⟩
  · intro c k session handles i s' x h hr hk hx hs
    have hout := incrementLockout_exempt session hx (hresolved hr hx).noDA hs
    rw [executeUnauthorized, hr]
    simp only [hk]
    exact hout.trans (congrArg Surroundings.failedTries (resolve_surroundings hr))

/-- In every run that starts no PQC sequence and loads no sequence from a context, every sequence is
marked, none can be made persistent, and none makes the TPM count an attack. -/
theorem sequences_safe_of_run
    (hs : Reachable TpmState.IsInitial (fun s s' => ∃ e, ¬ Unmarks P s e ∧ s' = step P C s e) s) :
    SequencesSafe P C s := by
  have hinv : Consistent P s ∧ ∀ i x h, s.slots i = .sequence x h → x.Marked h := by
    apply hs.invariant
    · intro s hs
      refine ⟨hs.consistent, fun i x h hx => ?_⟩
      rw [hs.1 i] at hx
      cases hx
    · rintro s s' ⟨hc, hm⟩ ⟨e, he, rfl⟩
      exact ⟨hc.step e, fun i x h hx => step_marked hc hm he hx⟩
  exact hinv.1.sequencesSafe hinv.2

end

/-! ## Two short runs -/

def unitHashStates : HashStateCodec Unit where
  marshal _ := []
  unmarshal := pure ()
  reads _ := Reads.pure ()

def toyPlatform : Platform Unit := ⟨unitHashStates, zeroLayout, .default 7⟩

/-- A signature that shows what was signed, as long as one of ML-DSA-44. -/
def toySignature (msg ctx : Bytes) : Bytes := (msg ++ ctx ++ List.replicate 2420 0).take 2420

def toyCrypto : SeqCrypto Unit where
  blank := ()
  hashStart _ := ()
  macStart _ _ := .ok ()
  update _ _ := ()
  finish _ := []
  hashAlg _ := TpmAlg.sha256
  pkeyFromSeed _ := true
  pkeyFromPub _ := true
  evpSign _ msg ctx := some (toySignature msg ctx)
  evpVerify _ msg ctx sig := if sig = toySignature msg ctx then none else some .signature
  hmac _ data := data

/-- An ML-DSA-44 signing key. -/
def mldsaKey (name : Tpm2bName) (restricted : Bool) : Object where
  attributes := { spsHierarchy := true }
  publicArea :=
    { type := .mldsa
      nameAlg := some .sha256
      objectAttributes := { userWithAuth := true, restricted, sign := true }
      authPolicy := .empty
      parameters := (⟨.mldsa44, false⟩ : MldsaParms)
      unique := (Tpm2b.empty : Tpm2b 2592) }
  sensitive :=
    { authValue := .empty
      seedValue := .empty
      sensitive := some ⟨.mldsa, .empty⟩
      public_only := nofun }
  privateExponent := .zero
  qualifiedName := .empty
  evictHandle := 0
  name
  seedCompatLevel := .original
  hierarchy := .owner

/-- A key is loaded and a verify sequence started on it. -/
def verifyStarted : TpmState Unit :=
  run (step toyPlatform toyCrypto) {}
    [.command ⟨.load (mldsaKey .empty false), []⟩,
     .command ⟨.verifySequenceStart .empty .empty .empty, [slotHandle 0]⟩]

/-- The sequence in slot 1 is neither temporary nor exempt, and a wrong password for it counts. -/
theorem verifyStarted_unmarked :
    Reachable TpmState.IsInitial (fun s s' => ∃ e, s' = step toyPlatform toyCrypto s e) verifyStarted ∧
      ¬ SequencesSafe toyPlatform toyCrypto verifyStarted ∧
      verifyStarted.failedTries = 0 ∧
      (step toyPlatform toyCrypto verifyStarted
        (.unauthorized ⟨.sequenceUpdate .empty, [slotHandle 1]⟩ 0 .password)).failedTries = 1 := by
  refine ⟨Reachable.of_run ⟨fun _ => rfl, rfl⟩ _, ?_, rfl, rfl⟩
  intro h
  cases (h.marked 1 rfl rfl).temporary

def hashStarted : TpmState Unit :=
  step toyPlatform toyCrypto {} (.command ⟨.hashSequenceStart .empty (some .sha256), []⟩)

theorem hashStarted_safe :
    (hashStarted.slots 0).isSequence = true ∧ SequencesSafe toyPlatform toyCrypto hashStarted := by
  refine ⟨rfl, sequences_safe_of_run (.step (.init (s := {}) ⟨fun _ => rfl, rfl⟩) ⟨_, ?_, rfl⟩)⟩
  rintro ⟨c, handles, s', hc, -, -, -, ⟨start, keyHandle, key, ha, -⟩ | ⟨k, saved, ha, -⟩⟩
  · cases hc
    cases ha
  · cases hc
    cases ha

end PqcTpm
