import PqcTpm.Commands

/-!
# Where sequences come from

One inversion lemma for the whole machine: a sequence that is in a slot after an event was
there before, was started or updated by that event, or was loaded from a context. The
invariants of the modules that follow are read off from it.
-/
namespace PqcTpm
open ByteCodec

section
variable {σ : Type} {P : Platform σ} {C : SeqCrypto σ} {s s' : TpmState σ} {i : SlotIndex}
  {x : HashObject σ} {h : Hierarchy}

/-- A PQC sequence in the eyes of `PqcSequenceFromHandle`. -/
def HashObject.isPqc (x : HashObject σ) : Bool :=
  match x.state with
  | .pqc _ => x.attributes.pqcSeq
  | _ => false

/-- What the starts of hash, HMAC and event sequences put into a slot. -/
inductive Fresh (C : SeqCrypto σ) : HashObject σ → Prop
  | hash (auth : Tpm2bAuth) (alg : HashAlg) : Fresh C (hashSequence C auth alg)
  | event (auth : Tpm2bAuth) : Fresh C (eventSequence C auth)
  | hmac (auth : Tpm2bAuth) (state : σ) :
      Fresh C (sequenceObject { hmacSeq := true } auth (.hmac state .empty))

/-- `isSign` and context of a command that starts a PQC sequence; ML-DSA takes no hint. -/
def Action.pqcStart : Action → Option (Bool × Tpm2b 255)
  | .signSequenceStart _ context => some (true, context)
  | .verifySequenceStart _ hint context => if hint.size ≠ 0 then none else some (false, context)
  | _ => none

/-- How a sequence `x` can get into slot `i` when action `a` answers `r` in state `s`. -/
inductive Origin (P : Platform σ) (C : SeqCrypto σ) (s : TpmState σ) (a : Action)
    (handles : List TpmHandle) (r : Except Fault Response) (i : SlotIndex) : HashObject σ → Hierarchy → Prop
  | kept {x : HashObject σ} {h : Hierarchy} (hx : s.slots i = .sequence x h)
      (hr : ∀ buffer resp, a = .sequenceUpdate buffer → handles = [slotHandle i] → r = .ok resp →
        x.isPqc = false) : Origin P C s a handles r i x h
  | evicted {x : HashObject σ} {h : Hierarchy} (hx : x.attributes.evict = true) : Origin P C s a handles r i x h
  | started {x : HashObject σ} (hf : Fresh C x) (hv : s.slots i = .vacant) : Origin P C s a handles r i x .null
  | updated {x : HashObject σ} {h : Hierarchy} {data : Bytes} (hx : s.slots i = .sequence x h) (hn : x.isPqc = false) :
      Origin P C s a handles r i (hashUpdate C x data) h
  | pqcStarted {auth : Tpm2bAuth} {q : PqcSeqState} {keyHandle : TpmHandle} {key : Object}
      {set : MldsaParameterSet} (ha : a.pqcStart = some (q.isSign, q.context)) (hh : handles = [keyHandle])
      (hk : getSigningKey s keyHandle = .ok (key, set)) (hq : q.keyHandle = keyHandle)
      (hb : q.buffer = []) (hv : s.slots i = .vacant) (hr : r = .ok (.handle (slotHandle i))) :
      Origin P C s a handles r i (pqcObject auth q) .null
  | pqcUpdated {x : HashObject σ} {h : Hierarchy} {q q' : PqcSeqState} {buffer : Tpm2b 1024}
      (ha : a = .sequenceUpdate buffer)
      (hh : handles = [slotHandle i]) (hx : s.slots i = .sequence x h) (hq : x.state = .pqc q)
      (hp : x.attributes.pqcSeq = true) (hu : pqcSequenceUpdate q buffer.buffer = .ok q')
      (hr : r = .ok .done) : Origin P C s a handles r i { x with state := .pqc q' } h
  | loaded {x : HashObject σ} {k : Nat} {c : SavedContext} {rest : Bytes} (ha : a = .contextLoad k)
      (hc : s.contexts[k]? = some c) (hi : c.integrity = s.contextIntegrity c.savedHandle c.hierarchy)
      (hu : AnyObject.unmarshal P.hs P.profile {} c.blob = .ok (.sequence x, rest))
      (hv : s.slots i = .vacant) (hr : r = .ok (.handle (slotHandle i))) : Origin P C s a handles r i x .null

/-! ## Actions that bring no sequence -/

/-- The attributes of an ordinary object, if it is there for longer than a command. -/
def Object.IsPlain (o : Object) : Prop :=
  o.attributes.evict = false → o.attributes.occupied = true ∧ o.attributes.isSequence = false

/-- No context is given out, new objects are ordinary ones, and no sequence is new but for those that
the end of the command removes. -/
structure NoNew (s s' : TpmState σ) : Prop where
  sequences : ∀ i x h, s'.slots i = .sequence x h → s.slots i = .sequence x h ∨ x.attributes.evict = true
  objects : ∀ i o, s'.slots i = .object o → s.slots i = .object o ∨ o.IsPlain
  contexts : s'.contexts = s.contexts

theorem NoNew.of_slots (hs : s'.slots = s.slots) (hc : s'.contexts = s.contexts) : NoNew s s' := by
  constructor
  · intro i x h hx
    rw [hs] at hx
    exact .inl hx
  · intro i o ho
    rw [hs] at ho
    exact .inl ho
  · exact hc

theorem NoNew.refl (s : TpmState σ) : NoNew s s := .of_slots rfl rfl

theorem NoNew.trans {s'' : TpmState σ} (h₁ : NoNew s s') (h₂ : NoNew s' s'') : NoNew s s'' := by
  constructor
  · intro i x h hx
    rcases h₂.sequences i x h hx with hx | hx
    · exact h₁.sequences i x h hx
    · exact .inr hx
  · intro i o ho
    rcases h₂.objects i o ho with ho | ho
    · exact h₁.objects i o ho
    · exact .inr ho
  · rw [h₂.contexts, h₁.contexts]

theorem NoNew.freeSlots (p : Slot σ → Bool) : NoNew s (s.freeSlots p) := by
  constructor
  · intro i x h hx
    unfold TpmState.freeSlots at hx
    simp only at hx
    split at hx
    · cases hx
    · exact .inl hx
  · intro i o ho
    unfold TpmState.freeSlots at ho
    simp only at ho
    split at ho
    · cases ho
    · exact .inl ho
  · rfl

theorem NoNew.setSlot {y : Slot σ} (hy : ∀ x h, y = .sequence x h → x.attributes.evict = true)
    (hp : ∀ o, y = .object o → o.IsPlain) (i : SlotIndex) : NoNew s (s.setSlot i y) := by
  constructor
  · intro j x h hx
    rw [TpmState.setSlot_slots] at hx
    split at hx
    · exact .inr (hy x h hx)
    · exact .inl hx
  · intro j o ho
    rw [TpmState.setSlot_slots] at ho
    split at ho
    · exact .inr (hp o ho)
    · exact .inl ho
  · rfl

theorem NoNew.evicted (y : HashObject σ) (h : Hierarchy) (i : SlotIndex) :
    NoNew s (s.setSlot i (.sequence y.evicted h)) :=
  NoNew.setSlot (fun _ _ h => by cases h; rfl) (fun _ h => by cases h) i

theorem NoNew.flushObject (i : SlotIndex) : NoNew s (s.flushObject i) :=
  NoNew.setSlot (fun _ _ h => by cases h) (fun _ h => by cases h) i

theorem sequenceComplete_noNew (sequenceHandle : TpmHandle) (buffer : Tpm2b 1024) (hierarchy : Hierarchy) :
    NoNew s (sequenceComplete C sequenceHandle buffer hierarchy s).2 := by
  unfold sequenceComplete
  split
  · split
    · split
      · exact NoNew.evicted _ _ _
      · split
        · exact NoNew.evicted _ _ _
        · exact NoNew.refl s
    · exact NoNew.refl s
    · exact NoNew.refl s
  · exact NoNew.refl s
  · exact NoNew.refl s

theorem eventSequenceComplete_noNew (pcrCheck : Except Fault Unit) (sequenceHandle : TpmHandle)
    (buffer : Tpm2b 1024) : NoNew s (eventSequenceComplete C pcrCheck sequenceHandle buffer s).2 := by
  unfold eventSequenceComplete
  split
  · split
    · split
      · exact NoNew.refl s
      · split
        · exact NoNew.refl s
        · exact NoNew.evicted _ _ _
    · exact NoNew.refl s
    · exact NoNew.refl s
  · exact NoNew.refl s
  · exact NoNew.refl s

theorem signSequenceComplete_state (sequenceHandle keyHandle : TpmHandle) (buffer : Tpm2b 1024) :
    (signSequenceComplete C sequenceHandle keyHandle buffer s).2 = s ∨
      ∃ i, (signSequenceComplete C sequenceHandle keyHandle buffer s).2 = s.flushObject i := by
  unfold signSequenceComplete
  split
  · exact .inl rfl
  · rename_i i _ q _
    split
    · exact .inl rfl
    · split
      · exact .inr ⟨i, rfl⟩
      · split
        · exact .inr ⟨i, rfl⟩
        · split
          · exact .inl rfl
          · exact .inr ⟨i, rfl⟩
          · split <;> exact .inr ⟨i, rfl⟩
          · exact .inr ⟨i, rfl⟩

theorem verifySequenceComplete_state (sequenceHandle keyHandle : TpmHandle) (signature : TpmtSignature) :
    (verifySequenceComplete C sequenceHandle keyHandle signature s).2 = s ∨
      ∃ i, (verifySequenceComplete C sequenceHandle keyHandle signature s).2 = s.flushObject i := by
  unfold verifySequenceComplete
  split
  · exact .inl rfl
  · rename_i i _ q _
    split
    · exact .inl rfl
    · split
      · exact .inr ⟨i, rfl⟩
      · split
        · exact .inl rfl
        · exact .inr ⟨i, rfl⟩
        · split <;> exact .inr ⟨i, rfl⟩
        · exact .inr ⟨i, rfl⟩

theorem NoNew.of_flush_cases (h : s' = s ∨ ∃ i, s' = s.flushObject i) : NoNew s s' := by
  rcases h with rfl | ⟨i, rfl⟩
  · exact NoNew.refl s'
  · exact NoNew.flushObject i

theorem flushContext_noNew (flushHandle : TpmHandle) : NoNew s (flushContext flushHandle s).2 := by
  unfold flushContext
  split
  · split
    · exact NoNew.flushObject _
    · exact NoNew.refl s
  · exact NoNew.refl s

theorem evictControl_noNew (auth objectHandle persistentHandle : TpmHandle) :
    NoNew s (evictControl P auth objectHandle persistentHandle s).2 := by
  unfold evictControl
  split
  · exact NoNew.refl s
  · exact NoNew.refl s
  · split
    · exact NoNew.refl s
    · split
      · exact NoNew.refl s
      · exact NoNew.of_slots rfl rfl

theorem enableHierarchy_noNew (state : Bool) (h : Hierarchy) : NoNew s (s.enableHierarchy state h) := by
  cases h <;> exact NoNew.of_slots rfl rfl

theorem hierarchyControl_noNew (authHandle : TpmHandle) (enable : Hierarchy) (state : Bool) :
    NoNew s (hierarchyControl authHandle enable state s).2 := by
  unfold hierarchyControl
  split
  · exact NoNew.refl s
  · split
    · exact NoNew.refl s
    · split
      · exact NoNew.refl s
      · have hs : NoNew s ({ s.enableHierarchy state enable with orderly := false }) :=
          (enableHierarchy_noNew state enable).trans (NoNew.of_slots rfl rfl)
        cases state with
        | true => exact hs
        | false =>
            apply hs.trans
            exact NoNew.freeSlots fun x => x.attributes.inHierarchy enable

theorem flushHierarchy_noNew (hf : flushHierarchy h s = .ok s') : NoNew s s' := by
  unfold flushHierarchy at hf
  split at hf
  · cases hf
    exact (NoNew.freeSlots fun x => x.attributes.inHierarchy h).trans (NoNew.of_slots rfl rfl)
  · cases hf

theorem changeSeed_noNew (h : Hierarchy) (proof : Bytes) : NoNew s (changeSeed h proof s).2 := by
  unfold changeSeed
  split
  · exact NoNew.refl s
  · split
    · exact NoNew.refl s
    · rename_i hf
      exact (flushHierarchy_noNew hf).trans (NoNew.of_slots rfl rfl)

theorem changeEPS_noNew (ehProof : Bytes) : NoNew s (changeEPS ehProof s).2 := by
  have hs := changeSeed_noNew (s := s) .endorsement ehProof
  unfold changeEPS
  split
  · rename_i heq
    rw [heq] at hs
    exact hs.trans (NoNew.of_slots rfl rfl)
  · rename_i heq
    rw [heq] at hs
    exact hs

theorem clear_noNew (shProof ehProof : Bytes) : NoNew s (clear shProof ehProof s).2 := by
  unfold clear
  split
  · exact NoNew.refl s
  · split
    · exact NoNew.refl s
    · split
      · exact NoNew.refl s
      · rename_i ho
        split
        · exact NoNew.refl s
        · rename_i he
          exact ((flushHierarchy_noNew ho).trans (flushHierarchy_noNew he)).trans (NoNew.of_slots rfl rfl)

theorem loadObject_noNew (o : Object) : NoNew s (loadObject o s).2 := by
  unfold loadObject
  split
  · exact NoNew.refl s
  · apply NoNew.setSlot
    · intro x h hx
      cases hx
    · intro o' ho
      cases ho
      exact fun _ => ⟨rfl, rfl⟩

/-! ## Actions that bring sequences -/

theorem slotHandle_inj {i j : SlotIndex} (h : slotHandle i = slotHandle j) : i = j := by
  have hs := congrArg slotOf h
  rw [slotOf_slotHandle, slotOf_slotHandle] at hs
  exact Option.some.inj hs

theorem handleToObject_slot {handle : TpmHandle} (h : s.handleToObject handle = .ok (some i)) :
    handle = slotHandle i := by
  unfold TpmState.handleToObject at h
  split at h
  · cases h
  · split at h
    · cases h
    · split at h
      · cases h
      · rename_i j hj
        split at h
        · cases h
          exact slotHandle_of_slotOf hj
        · cases h

theorem handleToObject_slotHandle (h : (s.slots i).occupied = true) :
    s.handleToObject (slotHandle i) = .ok (some i) := by
  simp only [TpmState.handleToObject, if_neg (slotHandle_not_permanent i), if_neg (slotHandle_not_reserved i),
    slotOf_slotHandle, h, if_true]

theorem handleToObject_occupied {handle : TpmHandle} (h : s.handleToObject handle = .ok (some i)) :
    (s.slots i).occupied = true := by
  unfold TpmState.handleToObject at h
  split at h
  · cases h
  · split at h
    · cases h
    · split at h
      · cases h
      · split at h
        · rename_i hocc
          cases h
          exact hocc
        · cases h

/-- Every sequence in the state that an action leaves has an origin, new objects are ordinary ones,
and contexts come from `TPM2_ContextSave` only. -/
structure Explained (P : Platform σ) (C : SeqCrypto σ) (s : TpmState σ) (a : Action)
    (handles : List TpmHandle) (out : Outcome σ) : Prop where
  origin : ∀ i x h, out.2.slots i = .sequence x h → Origin P C s a handles out.1 i x h
  objects : ∀ i o, out.2.slots i = .object o → s.slots i = .object o ∨ o.IsPlain
  contexts : a ≠ .contextSave → out.2.contexts = s.contexts

variable {a : Action} {handles : List TpmHandle}

theorem NoNew.explained {r : Except Fault Response} (hn : NoNew s s')
    (ha : ∀ buffer resp, a = .sequenceUpdate buffer → r ≠ .ok resp) : Explained P C s a handles (r, s') := by
  constructor
  · intro i x h hx
    rcases hn.sequences i x h hx with hx | hx
    · exact .kept hx fun buffer resp hb _ hr => absurd hr (ha buffer resp hb)
    · exact .evicted hx
  · exact hn.objects
  · intro _
    exact hn.contexts

theorem explained_error (e : Fault) : Explained P C s a handles (.error e, s) :=
  (NoNew.refl s).explained fun _ _ _ hr => by cases hr

/-- A slot is filled: only that slot needs an explanation. -/
theorem explained_setSlot {r : Except Fault Response} {y : Slot σ} {j : SlotIndex}
    (hy : ∀ x h, y = .sequence x h → Origin P C s a handles r j x h) (hp : ∀ o, y = .object o → o.IsPlain)
    (ha : ∀ buffer, a = .sequenceUpdate buffer → handles = [slotHandle j]) :
    Explained P C s a handles (r, s.setSlot j y) := by
  constructor
  · intro i x h hx
    simp only [TpmState.setSlot_slots] at hx
    split at hx
    · rename_i hij
      subst hij
      exact hy x h hx
    · rename_i hij
      refine .kept hx fun buffer _ hb hh _ => ?_
      rw [ha buffer hb] at hh
      exact absurd (slotHandle_inj (List.cons.inj hh).1).symm hij
  · intro i o ho
    simp only [TpmState.setSlot_slots] at ho
    split at ho
    · exact .inr (hp o ho)
    · exact .inl ho
  · intro _
    rfl

theorem startSequence_explained {y : HashObject σ}
    (hy : ∀ j, s.slots j = .vacant → Origin P C s a handles (.ok (.handle (slotHandle j))) j y .null)
    (ha : ∀ buffer, a ≠ .sequenceUpdate buffer) : Explained P C s a handles (startSequence s y) := by
  unfold startSequence
  split
  · exact explained_error _
  · rename_i j hj
    apply explained_setSlot
    · intro x h hx
      cases hx
      exact hy j (TpmState.findEmptyObjectSlot_vacant hj)
    · intro o ho
      cases ho
    · intro buffer hb
      exact absurd hb (ha buffer)

theorem hashSequenceStart_explained (auth : Tpm2bAuth) (alg : Option HashAlg) :
    Explained P C s (.hashSequenceStart auth alg) [] (hashSequenceStart C auth alg s) := by
  cases alg with
  | none => exact startSequence_explained (fun _ hv => .started (.event auth) hv) fun _ hb => by cases hb
  | some alg => exact startSequence_explained (fun _ hv => .started (.hash auth alg) hv) fun _ hb => by cases hb

theorem macStart_explained (handle : TpmHandle) (auth : Tpm2bAuth) (inScheme : Nat) :
    Explained P C s (.macStart auth inScheme) [handle] (macStart C handle auth inScheme s) := by
  unfold macStart
  split
  · split
    · split
      · exact explained_error _
      · rename_i state _
        split
        · exact explained_error _
        · split
          · exact explained_error _
          · exact startSequence_explained (fun _ hv => .started (.hmac auth state) hv) fun _ hb => by cases hb
    · exact explained_error _
    · exact explained_error _
  · exact explained_error _
  · exact explained_error _

theorem signSequenceStart_explained (keyHandle : TpmHandle) (auth : Tpm2bAuth) (context : Tpm2b 255) :
    Explained P C s (.signSequenceStart auth context) [keyHandle]
      (signSequenceStart keyHandle auth context s) := by
  unfold signSequenceStart
  split
  · exact explained_error _
  · rename_i hk
    exact startSequence_explained (fun _ hv => .pqcStarted rfl rfl hk rfl rfl hv rfl) fun _ hb => by cases hb

theorem verifySequenceStart_explained (keyHandle : TpmHandle) (auth : Tpm2bAuth) (hint : Tpm2b 256)
    (context : Tpm2b 255) :
    Explained P C s (.verifySequenceStart auth hint context) [keyHandle]
      (verifySequenceStart keyHandle auth hint context s) := by
  unfold verifySequenceStart
  split
  · exact explained_error _
  · rename_i hk
    split
    · exact explained_error _
    · rename_i hh
      exact startSequence_explained (fun _ hv => .pqcStarted (if_neg hh) rfl hk rfl rfl hv rfl)
        fun _ hb => by cases hb

/-- What `PqcSequenceFromHandle` finds is in the slot of the handle. -/
theorem pqcSequenceFromHandle_some {handle : TpmHandle} {q : PqcSeqState}
    (hf : pqcSequenceFromHandle s handle = some (i, x, q)) :
    handle = slotHandle i ∧ (∃ h, s.slots i = .sequence x h) ∧ x.state = .pqc q ∧
      x.attributes.pqcSeq = true := by
  unfold pqcSequenceFromHandle at hf
  split at hf
  · obtain ⟨j, hj, hf⟩ := Option.bind_eq_some_iff.mp hf
    split at hf
    · rename_i y hier hy
      split at hf
      · rename_i q' hq
        split at hf
        · rename_i hp
          cases hf
          exact ⟨slotHandle_of_slotOf hj, ⟨hier, hy⟩, hq, hp⟩
        · cases hf
      · cases hf
    · cases hf
  · cases hf

theorem pqcSequenceFromHandle_none (hf : pqcSequenceFromHandle s (slotHandle i) = none)
    (hx : s.slots i = .sequence x h) : x.isPqc = false := by
  rw [pqcSequenceFromHandle, if_pos (slotHandle_transient i), slotOf_slotHandle, Option.bind_some, hx] at hf
  unfold HashObject.isPqc
  split
  · rename_i q hq
    simp only [hq, ite_eq_right_iff, reduceCtorEq, imp_false, Bool.not_eq_true] at hf
    exact hf
  · rfl

theorem sequenceUpdate_explained (sequenceHandle : TpmHandle) (buffer : Tpm2b 1024) :
    Explained P C s (.sequenceUpdate buffer) [sequenceHandle]
      (sequenceUpdate C sequenceHandle buffer s) := by
  unfold sequenceUpdate
  split
  · rename_i j y q hf
    obtain ⟨rfl, ⟨hier, hy⟩, hq, hp⟩ := pqcSequenceFromHandle_some hf
    split
    · exact explained_error _
    · rename_i q' hu
      apply explained_setSlot
      · intro x h hx
        rw [hy] at hx
        cases hx
        exact .pqcUpdated rfl rfl hy hq hp hu rfl
      · intro o ho
        cases ho
      · intro _ _
        rfl
  · rename_i hf
    split
    · rename_i j hj
      have hhandle := handleToObject_slot hj
      subst hhandle
      split
      · rename_i y hier hy
        apply explained_setSlot
        · intro x h hx
          cases hx
          exact .updated hy (pqcSequenceFromHandle_none hf hy)
        · intro o ho
          cases ho
        · intro _ _
          rfl
      · exact explained_error _
      · exact explained_error _
    · exact explained_error _
    · exact explained_error _

theorem contextLoad_explained (k : Nat) : Explained P C s (.contextLoad k) [] (contextLoad P k s) := by
  unfold contextLoad
  split
  · exact explained_error _
  · rename_i c hc
    split
    · exact explained_error _
    · rename_i hi
      split
      · exact explained_error _
      · split
        · exact explained_error _
        · split
          · exact explained_error _
          · rename_i j hj
            split
            · rename_i y rest hu
              apply explained_setSlot
              · intro x h hx
                cases y with
                | object o => cases hx
                | sequence z =>
                    cases hx
                    exact .loaded rfl hc (not_not.mp hi) hu (TpmState.findEmptyObjectSlot_vacant hj) rfl
                | vacant a => cases hx
              · intro o ho
                cases y with
                | object o' =>
                    cases ho
                    exact fun _ => (AnyObject.unmarshal_ok P.hs hu).1
                | sequence z => cases ho
                | vacant a => cases ho
              · intro _ hb
                cases hb
            · exact explained_error _
            · exact explained_error _

theorem contextSave_slots (saveHandle : TpmHandle) : (contextSave P saveHandle s).2.slots = s.slots := by
  unfold contextSave
  split
  · rfl
  · split
    · split <;> rfl
    · rfl

theorem contextSave_explained (saveHandle : TpmHandle) :
    Explained P C s .contextSave [saveHandle] (contextSave P saveHandle s) := by
  constructor
  · intro i x h hx
    rw [contextSave_slots] at hx
    exact .kept hx fun _ _ hb => by cases hb
  · intro i o ho
    rw [contextSave_slots] at ho
    exact .inl ho
  · intro ha
    exact absurd rfl ha

/-- Every action explains what it leaves. -/
theorem act_explained (a : Action) (handles : List TpmHandle) :
    Explained P C s a handles (a.act P C handles s) := by
  have hnew {a : Action} {out : Outcome σ} (hn : NoNew s out.2) (ha : ∀ b, a ≠ .sequenceUpdate b) :
      Explained P C s a handles out := hn.explained fun b _ hb => absurd hb (ha b)
  unfold Action.act
  split
  · exact hashSequenceStart_explained _ _
  · exact macStart_explained _ _ _
  · exact signSequenceStart_explained _ _ _
  · exact verifySequenceStart_explained _ _ _ _
  · exact sequenceUpdate_explained _ _
  · exact hnew (sequenceComplete_noNew _ _ _) fun _ hb => by cases hb
  · exact hnew (eventSequenceComplete_noNew _ _ _) fun _ hb => by cases hb
  · exact hnew (NoNew.of_flush_cases (signSequenceComplete_state _ _ _)) fun _ hb => by cases hb
  · exact hnew (NoNew.of_flush_cases (verifySequenceComplete_state _ _ _)) fun _ hb => by cases hb
  · exact contextSave_explained _
  · exact contextLoad_explained _
  · exact hnew (flushContext_noNew _) fun _ hb => by cases hb
  · exact hnew (evictControl_noNew _ _ _) fun _ hb => by cases hb
  · exact hnew (hierarchyControl_noNew _ _ _) fun _ hb => by cases hb
  · exact hnew (changeSeed_noNew _ _) fun _ hb => by cases hb
  · exact hnew (changeEPS_noNew _) fun _ hb => by cases hb
  · exact hnew (clear_noNew _ _) fun _ hb => by cases hb
  · exact hnew (loadObject_noNew _) fun _ hb => by cases hb
  · exact hnew (NoNew.of_slots rfl rfl) fun _ hb => by cases hb
  · exact explained_error _

/-! ## Contexts and handles -/

/-- Only `TPM2_ContextSave` gives out a context, that of the slot it is asked for. -/
theorem contextSave_contexts (saveHandle : TpmHandle) :
    (contextSave P saveHandle s).2.contexts = s.contexts ∧ (∃ e, (contextSave P saveHandle s).1 = .error e) ∨
      ∃ i, saveHandle = slotHandle i ∧ (s.slots i).occupied = true ∧
        (contextSave P saveHandle s).1 = .ok (.context (savedContext P s (s.slots i))) ∧
        (contextSave P saveHandle s).2.contexts = s.contexts ++ [savedContext P s (s.slots i)] := by
  unfold contextSave
  split
  · exact .inl ⟨rfl, _, rfl⟩
  · split
    · split
      · rename_i i hi
        exact .inr ⟨i, handleToObject_slot hi, handleToObject_occupied hi, rfl, rfl⟩
      · exact .inl ⟨rfl, _, rfl⟩
      · exact .inl ⟨rfl, _, rfl⟩
    · exact .inl ⟨rfl, _, rfl⟩

theorem act_contextSave (handles : List TpmHandle) :
    (Action.contextSave.act P C handles s).2.contexts = s.contexts ∧
        (∃ e, (Action.contextSave.act P C handles s).1 = .error e) ∨
      ∃ i, handles = [slotHandle i] ∧ (s.slots i).occupied = true ∧
        (Action.contextSave.act P C handles s).1 = .ok (.context (savedContext P s (s.slots i))) ∧
        (Action.contextSave.act P C handles s).2.contexts = s.contexts ++ [savedContext P s (s.slots i)] := by
  match handles with
  | [saveHandle] =>
      rcases contextSave_contexts (P := P) (s := s) saveHandle with h | ⟨i, rfl, h⟩
      · exact .inl h
      · exact .inr ⟨i, rfl, h⟩
  | [] => exact .inl ⟨rfl, _, rfl⟩
  | _ :: _ :: _ => exact .inl ⟨rfl, _, rfl⟩

/-! ## The frame of a command -/

/-- Persistent objects fill free slots until the end of the command. -/
structure Loads (s s' : TpmState σ) : Prop where
  slots : ∀ i, s'.slots i = s.slots i ∨
    s.slots i = .vacant ∧ ∃ o : Object, s'.slots i = .object o ∧ o.attributes.evict = true
  rest : s' = { s with slots := s'.slots }

theorem Loads.refl (s : TpmState σ) : Loads s s := ⟨fun _ => .inl rfl, rfl⟩

theorem Loads.trans {s'' : TpmState σ} (h₁ : Loads s s') (h₂ : Loads s' s'') : Loads s s'' := by
  constructor
  · intro i
    rcases h₂.slots i with hi | ⟨hv, o, ho, he⟩
    · rw [hi]
      exact h₁.slots i
    · rcases h₁.slots i with hi | ⟨_, o', ho', _⟩
      · exact .inr ⟨by rw [← hi, hv], o, ho, he⟩
      · rw [hv] at ho'
        cases ho'
  · rw [h₂.rest, h₁.rest]

theorem Loads.contexts (hl : Loads s s') : s'.contexts = s.contexts := by rw [hl.rest]

theorem Loads.sequence (hl : Loads s s') (hx : s'.slots i = .sequence x h) : s.slots i = .sequence x h := by
  rcases hl.slots i with hi | ⟨_, o, ho, _⟩
  · rw [← hi, hx]
  · rw [hx] at ho
    cases ho

theorem Loads.sequence_kept (hl : Loads s s') (hx : s.slots i = .sequence x h) : s'.slots i = .sequence x h := by
  rcases hl.slots i with hi | ⟨hv, _⟩
  · rw [hi, hx]
  · rw [hx] at hv
    cases hv

theorem Loads.noNew (hl : Loads s s') : NoNew s s' := by
  constructor
  · intro i x h hx
    exact .inl (hl.sequence hx)
  · intro i o ho
    rcases hl.slots i with hi | ⟨_, o', ho', he⟩
    · rw [hi] at ho
      exact .inl ho
    · rw [ho'] at ho
      cases ho
      exact .inr fun hn => by rw [he] at hn; cases hn
  · exact hl.contexts

theorem Loads.vacant (hl : Loads s s') (hv : s'.slots i = .vacant) : s.slots i = .vacant := by
  rcases hl.slots i with hi | ⟨hv, _⟩
  · rw [← hi, hv]
  · exact hv

theorem entityLoad_loads {b : Bool} {handle handle' : TpmHandle}
    (h : s.entityLoad P b handle = .ok (handle', s')) : Loads s s' := by
  unfold TpmState.entityLoad at h
  split at h
  · split at h
    · cases h
      exact Loads.refl s
    · cases h
  · split at h
    · obtain ⟨i, o, hi, ho, -, rfl⟩ := TpmState.objectLoadEvict_ok h
      constructor
      · intro j
        rw [TpmState.setSlot_slots]
        by_cases hj : j = i
        · rw [if_pos hj, hj]
          exact .inr ⟨TpmState.findEmptyObjectSlot_vacant hi, o, rfl, TpmState.nvGetEvictObject_evict ho⟩
        · rw [if_neg hj]
          exact .inl rfl
      · rfl
    · cases h
      exact Loads.refl s

theorem entityGetLoadStatus_loads {b : Bool} {handles handles' : List TpmHandle}
    (h : s.entityGetLoadStatus P b handles = .ok (handles', s')) : Loads s s' := by
  induction handles generalizing s handles' with
  | nil =>
      cases h
      exact Loads.refl _
  | cons handle rest ih =>
      unfold TpmState.entityGetLoadStatus at h
      split at h
      · cases h
      · rename_i h1
        split at h
        · cases h
        · rename_i h2
          cases h
          exact (entityLoad_loads h1).trans (ih h2)

theorem entityGetLoadStatus_transient {b : Bool} {handles handles' : List TpmHandle}
    (ht : ∀ h ∈ handles, h.getType = TpmHandle.htTransient)
    (h : s.entityGetLoadStatus P b handles = .ok (handles', s')) : s' = s := by
  induction handles generalizing handles' with
  | nil =>
      cases h
      rfl
  | cons handle rest ih =>
      unfold TpmState.entityGetLoadStatus TpmState.entityLoad at h
      rw [if_pos (ht handle List.mem_cons_self)] at h
      split at h
      · cases h
      · rename_i h1
        split at h1
        · cases h1
          split at h
          · cases h
          · rename_i h2
            cases h
            exact ih (fun x hx => ht x (List.mem_cons_of_mem handle hx)) h2
        · cases h1

theorem objectTerminateEvent_noNew (s : TpmState σ) : NoNew s s.objectTerminateEvent := by
  unfold TpmState.objectTerminateEvent
  split
  · exact NoNew.refl s
  · split
    · exact (NoNew.flushObject _).trans (NoNew.of_slots rfl rfl)
    · exact NoNew.of_slots rfl rfl

theorem objectTerminateEvent_sequence (hx : s.slots i = .sequence x h) (hev : x.attributes.eventSeq = false) :
    s.objectTerminateEvent.slots i = .sequence x h := by
  unfold TpmState.objectTerminateEvent
  split
  · exact hx
  · rename_i j _
    split
    · rename_i hj
      have hne : i ≠ j := by
        intro hij
        rw [← hij, hx] at hj
        rw [show (Slot.sequence x h).attributes = x.attributes from rfl, hev] at hj
        cases hj
      change (s.setSlot j .vacant).slots i = _
      rw [TpmState.setSlot_other s _ hne, hx]
    · exact hx

theorem objectCleanupEvict_sequence (hx : s.objectCleanupEvict.slots i = .sequence x h) :
    s.slots i = .sequence x h ∧ x.attributes.evict = false := by
  unfold TpmState.objectCleanupEvict TpmState.freeSlots at hx
  simp only at hx
  split at hx
  · cases hx
  · rename_i he
    rw [hx] at he
    exact ⟨hx, Bool.not_eq_true _ ▸ he⟩

/-! ## Events -/

/-- How a sequence can get into a slot when event `e` happens in state `s`. -/
inductive EventOrigin (P : Platform σ) (C : SeqCrypto σ) (s : TpmState σ) (e : Event σ) (i : SlotIndex) :
    HashObject σ → Hierarchy → Prop
  | kept {x : HashObject σ} {h : Hierarchy} (hx : s.slots i = .sequence x h)
      (he : ∀ c handles s', e = .command c → s.inFailureMode = false →
        c.resolve P s ≠ .ok (handles, s')) : EventOrigin P C s e i x h
  | command {x : HashObject σ} {h : Hierarchy} {c : Command} {handles : List TpmHandle} {s' : TpmState σ}
      (he : e = .command c) (hf : s.inFailureMode = false) (hr : c.resolve P s = .ok (handles, s'))
      (ho : Origin P C s' c.action handles (c.action.act P C handles s').1 i x h)
      (hx : x.attributes.evict = false) : EventOrigin P C s e i x h
  | drtmStarted : EventOrigin P C s e i (eventSequence C .empty) .null
  | drtmUpdated {x : HashObject σ} {h : Hierarchy} {states states' : List σ} {count : states.length = 4}
      {count' : states'.length = 4} (hx : s.slots i = .sequence x h) (hs : x.state = .hash states count) :
      EventOrigin P C s e i { x with state := .hash states' count' } h

theorem resolve_loads {c : Command} {handles : List TpmHandle} (hr : c.resolve P s = .ok (handles, s')) :
    Loads s.objectTerminateEvent s' := by
  unfold Command.resolve at hr
  split at hr
  · cases hr
  · exact entityGetLoadStatus_loads hr

/-- No persistent object is loaded for `TPM2_ContextSave`. -/
theorem resolve_contextSave {c : Command} {handles : List TpmHandle} (ha : c.action = .contextSave)
    (hr : c.resolve P s = .ok (handles, s')) : s' = s.objectTerminateEvent := by
  have hparse : c.parseHandles = true := by
    unfold Command.resolve at hr
    split at hr
    · cases hr
    · rename_i hp
      simpa only [Bool.not_eq_true', Bool.not_eq_false] using hp
  have hall : ∀ h ∈ c.handles, h.getType = TpmHandle.htTransient := by
    rw [Command.parseHandles, ha] at hparse
    simpa only [List.all_eq_true, beq_iff_eq] using hparse
  rw [Command.resolve, hparse] at hr
  exact entityGetLoadStatus_transient hall hr

theorem resolve_sequence {c : Command} {handles : List TpmHandle} (hr : c.resolve P s = .ok (handles, s'))
    (hx : s'.slots i = .sequence x h) (he : x.attributes.evict = false) : s.slots i = .sequence x h := by
  rcases (objectTerminateEvent_noNew s).sequences i x h ((resolve_loads hr).sequence hx) with hx | hx
  · exact hx
  · rw [he] at hx
    cases hx

theorem createDrtmSequence_origin (hc : createDrtmSequence C s = some s') (hx : s'.slots i = .sequence x h) :
    s.slots i = .sequence x h ∨ x = eventSequence C .empty ∧ h = .null := by
  obtain ⟨j, hj, rfl⟩ := Option.map_eq_some_iff.mp hc
  have hx : (s.setSlot j (.sequence (eventSequence C .empty) .null)).slots i = .sequence x h := hx
  rw [TpmState.setSlot_slots] at hx
  split at hx
  · cases hx
    exact .inr ⟨rfl, rfl⟩
  · exact .inl hx

theorem flushObject_sequence {j : SlotIndex} (hx : (s.flushObject j).slots i = .sequence x h) :
    s.slots i = .sequence x h := by
  unfold TpmState.flushObject at hx
  rw [TpmState.setSlot_slots] at hx
  split at hx
  · cases hx
  · exact hx

theorem dropDrtmSequence_sequence (hx : s.dropDrtmSequence.slots i = .sequence x h) :
    s.slots i = .sequence x h := by
  unfold TpmState.dropDrtmSequence at hx
  split at hx
  · exact flushObject_sequence hx
  · exact hx

theorem hashStart_origin (hx : (hashStart C s).2.slots i = .sequence x h) :
    s.slots i = .sequence x h ∨ x = eventSequence C .empty ∧ h = .null := by
  unfold hashStart at hx
  split at hx
  · rename_i hc
    rcases createDrtmSequence_origin hc hx with hx | hx
    · exact .inl (dropDrtmSequence_sequence hx)
    · exact .inr hx
  · split at hx
    · rename_i hc
      rcases createDrtmSequence_origin hc hx with hx | hx
      · exact .inl (dropDrtmSequence_sequence (flushObject_sequence hx))
      · exact .inr hx
    · exact .inl hx

theorem incrementLockout_noNew (handle : TpmHandle) (session : AuthSession) :
    NoNew s (incrementLockout handle session s).2 := by
  unfold incrementLockout
  split
  · exact NoNew.refl s
  · exact NoNew.refl s
  · split
    · split
      · exact NoNew.of_slots rfl rfl
      · exact NoNew.refl s
    · split
      · exact NoNew.of_slots rfl rfl
      · exact NoNew.refl s

theorem objectCleanupEvict_noNew (s : TpmState σ) : NoNew s s.objectCleanupEvict := NoNew.freeSlots _

theorem executeUnauthorized_noNew (c : Command) (k : Nat) (session : AuthSession) :
    NoNew s (executeUnauthorized P c k session s).2 := by
  unfold executeUnauthorized
  split
  · exact (objectTerminateEvent_noNew s).trans (objectCleanupEvict_noNew _)
  · rename_i s' hr
    have hloads : NoNew s s' := (objectTerminateEvent_noNew s).trans (resolve_loads hr).noNew
    split
    · exact hloads.trans (objectCleanupEvict_noNew _)
    · exact (hloads.trans (incrementLockout_noNew _ _)).trans (objectCleanupEvict_noNew _)

theorem executeUnauthorized_sequence {c : Command} {k : Nat} {session : AuthSession}
    (hx : (executeUnauthorized P c k session s).2.slots i = .sequence x h) : s.slots i = .sequence x h := by
  have hevict : x.attributes.evict = false := by
    unfold executeUnauthorized at hx
    split at hx
    · exact (objectCleanupEvict_sequence hx).2
    · split at hx
      · exact (objectCleanupEvict_sequence hx).2
      · exact (objectCleanupEvict_sequence hx).2
  rcases (executeUnauthorized_noNew c k session).sequences i x h hx with hx | hx
  · exact hx
  · rw [hevict] at hx
    cases hx

theorem execute_origin {c : Command} (hf : s.inFailureMode = false)
    (hx : (execute P C c s).2.slots i = .sequence x h) :
    EventOrigin P C s (.command c) i x h := by
  unfold execute at hx
  split at hx
  · rename_i e hr
    obtain ⟨hx, he⟩ := objectCleanupEvict_sequence hx
    rcases (objectTerminateEvent_noNew s).sequences i x h hx with hx | hx
    · refine .kept hx fun c' _ _ hc _ hok => ?_
      cases hc
      rw [hr] at hok
      cases hok
    · rw [he] at hx
      cases hx
  · rename_i handles s' hr
    obtain ⟨hx, he⟩ := objectCleanupEvict_sequence hx
    exact .command rfl hf hr ((act_explained _ _).origin i x h hx) he

theorem hashData_origin {allocated : σ → Bool} {data : Bytes} {e : Event σ} (he : ∀ c, e ≠ .command c)
    (hx : (hashData C allocated data s).2.slots i = .sequence x h) : EventOrigin P C s e i x h := by
  have hkept (hx : s.slots i = .sequence x h) : EventOrigin P C s e i x h :=
    .kept hx fun c _ _ hc => absurd hc (he c)
  unfold hashData at hx
  split at hx
  · exact hkept hx
  · rename_i j hj
    split at hx
    · rename_i y hier hy
      split at hx
      · rename_i states count hev hst
        simp only [TpmState.setSlot_slots] at hx
        split at hx
        · rename_i hij
          subst hij
          cases hx
          exact .drtmUpdated hy hst
        · exact hkept hx
      · exact hkept hx
    · exact hkept hx
    · exact hkept hx

theorem step_slots (e : Event σ) : (step P C s e).slots = (perform P C s e).2.slots := by
  unfold step
  split
  · rename_i heq
    rw [heq]
  · rename_i heq
    rw [heq]

/-- Every sequence in the state after an event has an origin. -/
theorem step_origin {e : Event σ} (hx : (step P C s e).slots i = .sequence x h) : EventOrigin P C s e i x h := by
  have hkept (he : ∀ c, e ≠ .command c) (hx : s.slots i = .sequence x h) : EventOrigin P C s e i x h :=
    .kept hx fun c _ _ hc => absurd hc (he c)
  rw [step_slots] at hx
  cases e with
  | command c =>
      simp only [perform] at hx
      split at hx
      · rename_i hf
        exact .kept hx fun _ _ _ _ hnf => by rw [hf] at hnf; cases hnf
      · rename_i hf
        exact execute_origin (Bool.not_eq_true _ ▸ hf) hx
  | unauthorized c k session =>
      refine hkept (fun _ hc => by cases hc) ?_
      simp only [perform] at hx
      split at hx
      · exact hx
      · exact executeUnauthorized_sequence hx
  | hashStart =>
      simp only [perform] at hx
      split at hx
      · exact hkept (fun _ hc => by cases hc) hx
      · rcases hashStart_origin hx with hx | ⟨rfl, rfl⟩
        · exact hkept (fun _ hc => by cases hc) hx
        · exact .drtmStarted
  | hashData allocated data =>
      simp only [perform] at hx
      split at hx
      · exact hkept (fun _ hc => by cases hc) hx
      · exact hashData_origin (fun _ hc => by cases hc) hx
  | hashEnd =>
      refine hkept (fun _ hc => by cases hc) ?_
      simp only [perform] at hx
      split at hx
      · exact hx
      · unfold hashEnd at hx
        split at hx
        · exact hx
        · split at hx
          · exact flushObject_sequence hx
          · exact hx
  | startup t =>
      cases t <;> cases hx

/-! ## Objects and contexts after an event -/

/-- What the DRTM signals leave alone: objects and contexts. -/
structure SameObjects (s s' : TpmState σ) : Prop where
  objects : ∀ i o, s'.slots i = .object o → s.slots i = .object o
  contexts : s'.contexts = s.contexts

theorem SameObjects.refl (s : TpmState σ) : SameObjects s s := ⟨fun _ _ ho => ho, rfl⟩

theorem SameObjects.trans {s'' : TpmState σ} (h₁ : SameObjects s s') (h₂ : SameObjects s' s'') :
    SameObjects s s'' := by
  constructor
  · intro i o ho
    exact h₁.objects i o (h₂.objects i o ho)
  · rw [h₂.contexts, h₁.contexts]

theorem SameObjects.setSlot {y : Slot σ} (hy : ∀ o, y ≠ .object o) (j : SlotIndex) :
    SameObjects s (s.setSlot j y) := by
  constructor
  · intro i o ho
    rw [TpmState.setSlot_slots] at ho
    split at ho
    · exact absurd ho (hy o)
    · exact ho
  · rfl

theorem SameObjects.flushObject (j : SlotIndex) : SameObjects s (s.flushObject j) :=
  SameObjects.setSlot (fun _ ho => by cases ho) j

theorem createDrtmSequence_sameObjects (hc : createDrtmSequence C s = some s') : SameObjects s s' := by
  obtain ⟨j, hj, rfl⟩ := Option.map_eq_some_iff.mp hc
  have hset : SameObjects s (s.setSlot j (.sequence (eventSequence C .empty) .null)) :=
    SameObjects.setSlot (fun _ ho => by cases ho) j
  exact ⟨hset.objects, hset.contexts⟩

theorem dropDrtmSequence_sameObjects (s : TpmState σ) : SameObjects s s.dropDrtmSequence := by
  unfold TpmState.dropDrtmSequence
  split
  · rename_i j _
    have hflush := SameObjects.flushObject (s := s) j
    exact ⟨hflush.objects, hflush.contexts⟩
  · exact SameObjects.refl s

theorem hashStart_sameObjects : SameObjects s (hashStart C s).2 := by
  have hdrop := dropDrtmSequence_sameObjects s
  unfold hashStart
  split
  · rename_i hc
    exact hdrop.trans (createDrtmSequence_sameObjects hc)
  · split
    · rename_i hc
      exact (hdrop.trans (SameObjects.flushObject 0)).trans (createDrtmSequence_sameObjects hc)
    · exact SameObjects.refl s

theorem hashData_sameObjects (allocated : σ → Bool) (data : Bytes) :
    SameObjects s (hashData C allocated data s).2 := by
  unfold hashData
  split
  · exact SameObjects.refl s
  · split
    · split
      · exact SameObjects.setSlot (fun _ ho => by cases ho) _
      · exact SameObjects.refl s
    · exact SameObjects.refl s
    · exact SameObjects.refl s

theorem hashEnd_sameObjects (s : TpmState σ) : SameObjects s (hashEnd s).2 := by
  unfold hashEnd
  split
  · exact SameObjects.refl s
  · rename_i j _
    split
    · have hflush := SameObjects.flushObject (s := s) j
      exact ⟨hflush.objects, hflush.contexts⟩
    · exact SameObjects.refl s

/-- Objects and contexts after an event that is no command. -/
theorem perform_sameObjects {e : Event σ} (he : ∀ c, e ≠ .command c)
    (hu : ∀ c k session, e ≠ .unauthorized c k session) : SameObjects s (perform P C s e).2 := by
  cases e with
  | command c => exact absurd rfl (he c)
  | unauthorized c k session => exact absurd rfl (hu c k session)
  | hashStart =>
      simp only [perform]
      split
      · exact SameObjects.refl s
      · exact hashStart_sameObjects
  | hashData allocated data =>
      simp only [perform]
      split
      · exact SameObjects.refl s
      · exact hashData_sameObjects allocated data
  | hashEnd =>
      simp only [perform]
      split
      · exact SameObjects.refl s
      · exact hashEnd_sameObjects s
  | startup t =>
      constructor
      · intro i o ho
        cases t <;> cases ho
      · cases t <;> rfl

theorem objectCleanupEvict_object {o : Object} (ho : s.objectCleanupEvict.slots i = .object o) :
    s.slots i = .object o ∧ o.attributes.evict = false := by
  unfold TpmState.objectCleanupEvict TpmState.freeSlots at ho
  simp only at ho
  split at ho
  · cases ho
  · rename_i he
    rw [ho] at he
    exact ⟨ho, Bool.eq_false_of_not_eq_true he⟩

theorem execute_object {c : Command} {o : Object} (ho : (execute P C c s).2.slots i = .object o) :
    (s.slots i = .object o ∨ o.IsPlain) ∧ o.attributes.evict = false := by
  unfold execute at ho
  split at ho
  · obtain ⟨ho, he⟩ := objectCleanupEvict_object ho
    exact ⟨(objectTerminateEvent_noNew s).objects i o ho, he⟩
  · rename_i handles s' hr
    obtain ⟨ho, he⟩ := objectCleanupEvict_object ho
    rcases (act_explained (P := P) (C := C) c.action handles).objects i o ho with ho | ho
    · exact ⟨((objectTerminateEvent_noNew s).trans (resolve_loads hr).noNew).objects i o ho, he⟩
    · exact ⟨.inr ho, he⟩

theorem executeUnauthorized_object {c : Command} {k : Nat} {session : AuthSession} {o : Object}
    (ho : (executeUnauthorized P c k session s).2.slots i = .object o) :
    (s.slots i = .object o ∨ o.IsPlain) ∧ o.attributes.evict = false := by
  refine ⟨(executeUnauthorized_noNew c k session).objects i o ho, ?_⟩
  unfold executeUnauthorized at ho
  split at ho
  · exact (objectCleanupEvict_object ho).2
  · split at ho
    · exact (objectCleanupEvict_object ho).2
    · exact (objectCleanupEvict_object ho).2

/-- An object in the state after an event was there before or is an ordinary one. -/
theorem step_object {e : Event σ} {o : Object} (ho : (step P C s e).slots i = .object o) :
    s.slots i = .object o ∨ o.attributes.evict = false ∧ o.IsPlain := by
  rw [step_slots] at ho
  by_cases he : ∃ c, e = .command c
  · obtain ⟨c, rfl⟩ := he
    simp only [perform] at ho
    split at ho
    · exact .inl ho
    · obtain ⟨ho, hevict⟩ := execute_object ho
      exact ho.imp_right fun hp => ⟨hevict, hp⟩
  · by_cases hu : ∃ c k session, e = .unauthorized c k session
    · obtain ⟨c, k, session, rfl⟩ := hu
      simp only [perform] at ho
      split at ho
      · exact .inl ho
      · obtain ⟨ho, hevict⟩ := executeUnauthorized_object ho
        exact ho.imp_right fun hp => ⟨hevict, hp⟩
    · exact .inl ((perform_sameObjects (fun c hc => he ⟨c, hc⟩)
        fun c k session hc => hu ⟨c, k, session, hc⟩).objects i o ho)

theorem perform_contexts {e : Event σ} (he : ∀ c, e ≠ .command c) :
    (perform P C s e).2.contexts = s.contexts := by
  by_cases hu : ∃ c k session, e = .unauthorized c k session
  · obtain ⟨c, k, session, rfl⟩ := hu
    simp only [perform]
    split
    · rfl
    · exact (executeUnauthorized_noNew c k session).contexts
  · exact (perform_sameObjects he fun c k session hc => hu ⟨c, k, session, hc⟩).contexts

theorem step_contexts_eq (e : Event σ) : (step P C s e).contexts = (perform P C s e).2.contexts := by
  unfold step
  split
  · rename_i heq
    rw [heq]
  · rename_i heq
    rw [heq]

/-- A context that an event gives out is that of the slot its one handle names. -/
theorem step_contexts (e : Event σ) :
    (step P C s e).contexts = s.contexts ∧
        (∀ c handles s' resp, e = .command c → s.inFailureMode = false → c.action = .contextSave →
          c.resolve P s = .ok (handles, s') → (c.action.act P C handles s').1 ≠ .ok resp) ∨
      ∃ c s' j, e = .command c ∧ s.inFailureMode = false ∧ c.action = .contextSave ∧
        c.resolve P s = .ok ([slotHandle j], s') ∧ (s'.slots j).occupied = true ∧
        (c.action.act P C [slotHandle j] s').1 = .ok (.context (savedContext P s' (s'.slots j))) ∧
        (step P C s e).contexts = s.contexts ++ [savedContext P s' (s'.slots j)] := by
  rw [step_contexts_eq]
  by_cases he : ∃ c, e = .command c
  · obtain ⟨c, rfl⟩ := he
    by_cases hf : s.inFailureMode = true
    · refine .inl ⟨by rw [perform, if_pos hf], fun _ _ _ _ _ hnf => ?_⟩
      rw [hf] at hnf
      cases hnf
    have hnf := Bool.eq_false_of_not_eq_true hf
    rw [perform, if_neg hf]
    cases hr : c.resolve P s with
    | error e =>
        refine .inl ⟨?_, fun c' _ _ _ hc _ _ hok => ?_⟩
        · rw [execute, hr]
          exact (objectTerminateEvent_noNew s).contexts
        · cases hc
          rw [hr] at hok
          cases hok
    | ok p =>
        obtain ⟨handles, s'⟩ := p
        have hsame : s'.contexts = s.contexts :=
          ((objectTerminateEvent_noNew s).trans (resolve_loads hr).noNew).contexts
        have hout : (execute P C c s).2.contexts = (c.action.act P C handles s').2.contexts := by
          rw [execute, hr]
          rfl
        rw [hout]
        by_cases ha : c.action = .contextSave
        · rcases act_contextSave (P := P) (C := C) (s := s') handles with ⟨hc, e, he⟩ | ⟨j, rfl, hocc, hresp, hc⟩
          · refine .inl ⟨by rw [ha, hc, hsame], fun c' _ _ resp hcmd _ _ hok hresp => ?_⟩
            cases hcmd
            rw [hr] at hok
            cases hok
            rw [ha, he] at hresp
            cases hresp
          · exact .inr ⟨c, s', j, rfl, hnf, ha, hr, hocc, by rw [ha, hresp], by rw [ha, hc, hsame]⟩
        · refine .inl ⟨by rw [(act_explained c.action handles).contexts ha, hsame], fun c' _ _ _ hc _ hs => ?_⟩
          cases hc
          exact absurd hs ha
  · refine .inl ⟨perform_contexts fun c hc => he ⟨c, hc⟩, fun c _ _ _ hc => ?_⟩
    exact absurd ⟨c, hc⟩ he

end
end PqcTpm
