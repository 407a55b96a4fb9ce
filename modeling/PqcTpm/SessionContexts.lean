import PqcTpm.Lib.Transition
import PqcTpm.SessionTracking

/-!
# Saved sessions over whole runs

What every command leaves of the session table, as long as no context is saved when the
counter stands at its last value. There `SessionContextSave` returns
`TPM_RC_TOO_MANY_CONTEXTS` after it has overwritten the entry, so the session that was to be
saved is neither loaded nor saved any more, and a context of it that is exactly one turn old is taken again.
-/
namespace PqcTpm
open TruncatedCounter Transition

/-! ## The status of one handle changes -/

namespace Oldest
variable {oldest : Nat} {status : SessionIndex → SessionStatus} {i : SessionIndex}

theorem unsave (h : Oldest oldest status) {st : SessionStatus} (hst : ∀ c, st ≠ .saved c) (hi : i.val ≠ oldest) :
    Oldest oldest (Function.update status i st) := by
  have hsaved : ∀ j c, Function.update status i st j = .saved c → status j = .saved c := by
    intro j c hj
    by_cases hji : j = i
    · subst hji
      rw [Function.update_self] at hj
      exact absurd hj (hst c)
    · rwa [Function.update_of_ne hji] at hj
  constructor
  · intro j hj
    obtain ⟨c, hc, hleast⟩ := h.least j hj
    have hji : j ≠ i := by
      rintro rfl
      exact hi hj
    refine ⟨c, by rw [Function.update_of_ne hji, hc], ?_⟩
    intro j' c' hj'
    exact hleast j' c' (hsaved j' c' hj')
  · intro hge j c hj
    exact h.none hge j c (hsaved j c hj)

/-- The newest context is the oldest only where it is the only one. -/
theorem save (h : Oldest oldest status) {c : SessionContext} (hi : ∀ c', status i ≠ .saved c')
    (hnew : ∀ j c', status j = .saved c' → c'.sequence ≤ c.sequence) :
    Oldest (if 64 ≤ oldest then i.val else oldest) (Function.update status i (.saved c)) := by
  split
  · rename_i hge
    have honly : ∀ j c', Function.update status i (.saved c) j = .saved c' → c' = c := by
      intro j c' hj
      by_cases hji : j = i
      · subst hji
        rw [Function.update_self] at hj
        cases hj
        rfl
      · rw [Function.update_of_ne hji] at hj
        exact absurd hj (h.none hge j c')
    constructor
    · intro j hj
      obtain rfl := Fin.val_injective hj
      refine ⟨c, Function.update_self .., ?_⟩
      intro j' c' hj'
      rw [honly j' c' hj']
    · intro hge'
      exact absurd i.isLt (Nat.not_lt_of_le hge')
  · rename_i hlt
    constructor
    · intro j hj
      obtain ⟨c₀, hc₀, hleast⟩ := h.least j hj
      have hji : j ≠ i := by
        rintro rfl
        exact hi c₀ hc₀
      refine ⟨c₀, by rw [Function.update_of_ne hji, hc₀], ?_⟩
      intro j' c' hj'
      by_cases hji' : j' = i
      · subst hji'
        rw [Function.update_self] at hj'
        cases hj'
        exact hnew j c₀ hc₀
      · rw [Function.update_of_ne hji'] at hj'
        exact hleast j' c' hj'
    · intro hge
      exact absurd hge hlt

end Oldest

namespace SessionTable
variable {t : SessionTable} {contexts : List SessionContext} {status : SessionIndex → SessionStatus}

theorem index_ofSession (sessionType : SessionType) (i : SessionIndex) :
    (TpmHandle.ofSession sessionType i).index = i.val := by
  cases sessionType with
  | hmac => revert i; decide
  | policy => revert i; decide
  | trial => revert i; decide

/-! ## What each function of the table does -/

theorem sessionCreate_cases (hmask : t.maskIsValid = true) (hslots : t.Slotted) (sessionType : SessionType)
    (session : Session) :
    (∃ c, t.sessionCreate sessionType session = (.error (.rc c), t)) ∨
      ∃ i k, t.contextArray i = 0 ∧ t.sessions k = none ∧
        t.sessionCreate sessionType session =
          (.ok (.ofSession sessionType i),
            { t with
              contextArray := Function.update t.contextArray i (k.val + 1)
              freeSessionSlots := t.freeSessionSlots - 1
              sessions := Function.update t.sessions k (some (session.ofType sessionType)) }) := by
  unfold sessionCreate
  by_cases hfree : t.freeSessionSlots = 0
  · rw [if_pos hfree]
    exact .inl ⟨_, rfl⟩
  · rw [if_neg hfree]
    cases hvacant : t.vacantSlot with
    | none => exact absurd hvacant (hslots.vacantSlot_ne_none hfree)
    | some k =>
        dsimp only
        unfold contextIdSessionCreate
        by_cases hgap : t.freeSessionSlots = 1 ∧ t.gapIsMaximal = true
        · rw [if_pos hgap]
          exact .inl ⟨_, rfl⟩
        · rw [if_neg hgap]
          cases hfind : (List.finRange 64).find? fun i => t.contextArray i == 0 with
          | none => exact .inl ⟨_, rfl⟩
          | some i =>
              have hzero : t.contextArray i = 0 := by simpa using List.find?_some hfind
              have hsmall : t.masked (k.val + 1) = k.val + 1 := by
                rw [masked_eq hmask]
                rcases span_of_mask hmask with hs | hs
                · rw [hs]
                  omega
                · rw [hs]
                  omega
              refine .inr ⟨i, k, hzero, vacantSlot_eq_some hvacant, ?_⟩
              dsimp only
              rw [hsmall]

theorem sessionContextSave_cases (hmask : t.maskIsValid = true) (hkept : Kept t.span contexts t.toStateResetData status)
    (hold : Oldest t.oldestSavedSession status) {handle : TpmHandle} {i : SessionIndex} {k : SessionSlot}
    (hindex : handle.index = i.val) (hloaded : t.contextArray i = k.val + 1) (hlast : t.contextCounter ≠ 2 ^ 64 - 1) :
    t.sessionContextSave handle = (.error (.of .contextGap), t) ∨
      (∀ j c, status j = .saved c → t.contextCounter % t.span ≠ c.sequence % t.span) ∧
        t.sessionContextSave handle =
          (.ok t.contextCounter,
            { contextArray := Function.update t.contextArray i (t.contextCounter % t.span)
              contextCounter := Kept.nextCounter t.span t.contextCounter
              sessions := Function.update t.sessions k none
              freeSessionSlots := t.freeSessionSlots + 1
              oldestSavedSession := if 64 ≤ t.oldestSavedSession then i.val else t.oldestSavedSession
              contextSlotMask := t.contextSlotMask }) := by
  have hentry : entryAt handle.index = some i := by rw [hindex, entryAt_val]
  have hisLoaded : t.sessionIsLoaded handle = true := by
    have hk := k.isLt
    unfold sessionIsLoaded
    rw [hentry]
    simp only [hloaded, decide_eq_true_eq]
    omega
  unfold sessionContextSave
  rw [if_neg (by simp [hisLoaded, hmask])]
  cases hgap : t.gapIsMaximal with
  | true => exact .inl rfl
  | false =>
      have hapart : ∀ j c, status j = .saved c → t.contextCounter % t.span ≠ c.sequence % t.span := by
        intro j c hj heq
        have hmax := (gapIsMaximal_iff hmask hkept hold).2 ⟨j, c, hj, heq⟩
        rw [hgap] at hmax
        cases hmax
      refine .inr ⟨hapart, ?_⟩
      have hbound := hkept.counter
      have hnext : (t.contextCounter + 1) % 2 ^ 64 = t.contextCounter + 1 := Nat.mod_eq_of_lt (by omega)
      have hnonzero : ¬ t.contextCounter + 1 = 0 := by omega
      rw [if_neg Bool.false_ne_true, hentry]
      dsimp only
      rw [hnext, if_neg hnonzero, hloaded]
      have hmasked : ∀ v, ({ t with
          contextArray := Function.update t.contextArray i (t.masked t.contextCounter)
          contextCounter := t.contextCounter + 1 } : SessionTable).masked v = v % t.span := masked_eq hmask
      rw [hmasked, masked_eq hmask]
      by_cases hturn : (t.contextCounter + 1) % t.span = 0
      · have hskip : (t.contextCounter + 1 + 3 + 1) % 2 ^ 64 = Kept.nextCounter t.span t.contextCounter := by
          have hsmall : t.contextCounter + 1 + 3 + 1 < 2 ^ 64 := by
            rcases span_of_mask hmask with hs | hs
            · rw [hs] at hturn
              omega
            · rw [hs] at hturn
              omega
          rw [Nat.mod_eq_of_lt hsmall]
          unfold Kept.nextCounter
          rw [if_pos hturn]
        rw [if_pos hturn, hskip]
        by_cases hnone : 64 ≤ t.oldestSavedSession
        · rw [if_pos hnone, if_pos hnone]
          simp [release, slotAt_succ]
        · rw [if_neg hnone, if_neg hnone]
          simp [release, slotAt_succ]
      · have hskip : t.contextCounter + 1 = Kept.nextCounter t.span t.contextCounter := by
          unfold Kept.nextCounter
          rw [if_neg hturn]
        rw [if_neg hturn, hskip]
        by_cases hnone : 64 ≤ t.oldestSavedSession
        · rw [if_pos hnone, if_pos hnone]
          simp [release, slotAt_succ]
        · rw [if_neg hnone, if_neg hnone]
          simp [release, slotAt_succ]

/-- The table after an entry has been overwritten, with the oldest saved session looked for again if it was there. -/
def overwrite (t : SessionTable) (i : SessionIndex) (v : Nat) : SessionTable :=
  let t := { t with contextArray := Function.update t.contextArray i v }
  if i.val = t.oldestSavedSession then t.contextIdSetOldest else t

@[simp] theorem overwrite_contextArray (i : SessionIndex) (v : Nat) :
    (t.overwrite i v).contextArray = Function.update t.contextArray i v := by
  unfold overwrite
  dsimp only
  split <;> rfl

@[simp] theorem overwrite_contextCounter (i : SessionIndex) (v : Nat) :
    (t.overwrite i v).contextCounter = t.contextCounter := by
  unfold overwrite
  dsimp only
  split <;> rfl

@[simp] theorem overwrite_sessions (i : SessionIndex) (v : Nat) : (t.overwrite i v).sessions = t.sessions := by
  unfold overwrite
  dsimp only
  split <;> rfl

@[simp] theorem overwrite_freeSessionSlots (i : SessionIndex) (v : Nat) :
    (t.overwrite i v).freeSessionSlots = t.freeSessionSlots := by
  unfold overwrite
  dsimp only
  split <;> rfl

@[simp] theorem overwrite_contextSlotMask (i : SessionIndex) (v : Nat) :
    (t.overwrite i v).contextSlotMask = t.contextSlotMask := by
  unfold overwrite
  dsimp only
  split <;> rfl

theorem overwrite_toStateResetData (i : SessionIndex) (v : Nat) : (t.overwrite i v).toStateResetData =
    { t.toStateResetData with contextArray := Function.update t.contextArray i v } := by
  unfold overwrite
  dsimp only
  split <;> rfl

theorem oldest_overwrite (hmask : t.maskIsValid = true) (hold : Oldest t.oldestSavedSession status) {i : SessionIndex}
    {v : Nat} {st : SessionStatus} (hst : ∀ c, st ≠ .saved c)
    (hkept : Kept t.span contexts { t.toStateResetData with contextArray := Function.update t.contextArray i v }
      (Function.update status i st)) :
    Oldest (t.overwrite i v).oldestSavedSession (Function.update status i st) := by
  unfold overwrite
  dsimp only
  split
  · exact oldest_contextIdSetOldest hmask hkept
  · rename_i hi
    exact hold.unsave hst hi

theorem sessionContextLoad_cases (hmask : t.maskIsValid = true) (hslots : t.Slotted) (session : Session)
    {handle : TpmHandle} {i : SessionIndex} (hsession : handle.isSession = true) (hindex : handle.index = i.val) :
    (∃ c, t.sessionContextLoad session handle = (.error (.rc c), t)) ∨
      ∃ k, t.sessions k = none ∧
        t.sessionContextLoad session handle =
          (.ok (),
            { t.overwrite i (k.val + 1) with
              sessions := Function.update t.sessions k (some session)
              freeSessionSlots := t.freeSessionSlots - 1 }) := by
  unfold sessionContextLoad
  rw [if_neg (by simp [hmask, hsession])]
  by_cases hfree : t.freeSessionSlots = 0
  · rw [if_pos hfree]
    exact .inl ⟨_, rfl⟩
  · rw [if_neg hfree]
    cases hvacant : t.vacantSlot with
    | none => exact absurd hvacant (hslots.vacantSlot_ne_none hfree)
    | some k =>
        dsimp only
        by_cases hgap : t.freeSessionSlots = 1 ∧ t.gapIsMaximal = true ∧ handle.index ≠ t.oldestSavedSession
        · rw [if_pos hgap]
          exact .inl ⟨_, rfl⟩
        · rw [if_neg hgap, hindex, entryAt_val]
          refine .inr ⟨k, vacantSlot_eq_some hvacant, ?_⟩
          have hsessions := overwrite_sessions (t := t) i (k.val + 1)
          have hfreeSlots := overwrite_freeSessionSlots (t := t) i (k.val + 1)
          unfold overwrite at hsessions hfreeSlots ⊢
          dsimp only at hsessions hfreeSlots ⊢
          rw [hsessions, hfreeSlots]

theorem sessionFlush_saved {handle : TpmHandle} {i : SessionIndex} (hsession : handle.isSession = true)
    (hindex : handle.index = i.val) (hsaved : 3 < t.contextArray i) :
    t.sessionFlush handle = (.ok (), t.overwrite i 0) := by
  have hentry : entryAt handle.index = some i := by rw [hindex, entryAt_val]
  have hisSaved : t.sessionIsSaved handle = true := by
    unfold sessionIsSaved
    rw [hentry]
    simp only [decide_eq_true_eq]
    omega
  unfold sessionFlush overwrite
  rw [if_neg (by simp [hsession, hisSaved]), hentry]
  dsimp only
  rw [if_pos hsaved]

theorem sessionFlush_loaded {handle : TpmHandle} {i : SessionIndex} {k : SessionSlot} (hsession : handle.isSession = true)
    (hindex : handle.index = i.val) (hloaded : t.contextArray i = k.val + 1) :
    t.sessionFlush handle =
      (.ok (),
        { t with
          contextArray := Function.update t.contextArray i 0
          sessions := Function.update t.sessions k none
          freeSessionSlots := t.freeSessionSlots + 1 }) := by
  have hk := k.isLt
  have hentry : entryAt handle.index = some i := by rw [hindex, entryAt_val]
  have hisLoaded : t.sessionIsLoaded handle = true := by
    unfold sessionIsLoaded
    rw [hentry]
    simp only [hloaded, decide_eq_true_eq]
    omega
  unfold sessionFlush
  rw [if_neg (by simp [hsession, hisLoaded]), hentry]
  dsimp only
  rw [hloaded, if_neg (by omega)]
  simp [release, slotAt_succ]

theorem sessionIsLoaded_iff {handle : TpmHandle} :
    t.sessionIsLoaded handle = true ↔
      ∃ i : SessionIndex, handle.index = i.val ∧ ∃ k : SessionSlot, t.contextArray i = k.val + 1 := by
  unfold sessionIsLoaded
  constructor
  · intro h
    cases hentry : entryAt handle.index with
    | none =>
        rw [hentry] at h
        cases h
    | some i =>
        rw [hentry] at h
        simp only [decide_eq_true_eq] at h
        exact ⟨i, entryAt_eq_some hentry, exists_slot (by omega) h.2⟩
  · rintro ⟨i, hindex, k, hk⟩
    have hlt := k.isLt
    rw [hindex, entryAt_val]
    simp only [hk, decide_eq_true_eq]
    omega

theorem sessionIsSaved_iff {handle : TpmHandle} :
    t.sessionIsSaved handle = true ↔ ∃ i : SessionIndex, handle.index = i.val ∧ 3 < t.contextArray i := by
  unfold sessionIsSaved
  constructor
  · intro h
    cases hentry : entryAt handle.index with
    | none =>
        rw [hentry] at h
        cases h
    | some i =>
        rw [hentry] at h
        simp only [decide_eq_true_eq] at h
        exact ⟨i, entryAt_eq_some hentry, h.2⟩
  · rintro ⟨i, hindex, hlt⟩
    rw [hindex, entryAt_val]
    simp only [decide_eq_true_eq]
    omega

theorem Slotted.sessionGet (h : t.Slotted) {handle : TpmHandle} {i : SessionIndex} {k : SessionSlot}
    (hsession : handle.isSession = true) (hindex : handle.index = i.val) (hloaded : t.contextArray i = k.val + 1) :
    ∃ x, t.sessionGet handle = .ok x := by
  have hk : (t.sessions k).isSome = true := mem_occupied.1 ((h.used k).2 ⟨i, hloaded⟩)
  obtain ⟨x, hx⟩ := Option.isSome_iff_exists.1 hk
  refine ⟨x, ?_⟩
  simp [SessionTable.sessionGet, demand, hsession, hindex, entryAt_val, hloaded, slotAt_succ, hx]
  rfl

theorem slotted_of_vacant (hsessions : t.sessions = fun _ => none) (hfree : t.freeSessionSlots = 3)
    (harray : ∀ i, t.contextArray i = 0 ∨ 3 < t.contextArray i) : t.Slotted := by
  have hnone : t.occupied = ∅ := by
    ext k
    simp [mem_occupied, hsessions]
  refine ⟨?_, ?_, ?_⟩
  · intro k
    have hk := k.isLt
    simp only [hnone, Finset.notMem_empty, false_iff, not_exists]
    intro i hi
    have hcases := harray i
    omega
  · intro i j k hi hj hk
    have hcases := harray i
    omega
  · rw [hnone, hfree]
    rfl

end SessionTable

/-! ## What each command keeps -/

namespace SessionMachine
variable {m : SessionMachine}

/-- The invariant of the machine; a shutdown state that may still be resumed keeps it too. -/
structure Sound (m : SessionMachine) : Prop where
  mask : m.table.maskIsValid = true
  kept : Kept m.table.span m.contexts m.table.toStateResetData m.status
  slots : m.table.Slotted
  oldest : Oldest m.table.oldestSavedSession m.status
  snapshot : m.orderly = some .state → Kept m.table.span m.contexts m.stateResetData m.savedStatus

/-- The outcome of a command: a refusal is a response code and leaves the table as it was. -/
structure Sustains (m : SessionMachine) (out : SessionOutcome) : Prop where
  sound : out.2.Sound
  refused : ∀ e, out.1 = .error e → (∃ c, e = .rc c) ∧ out.2.table = m.table

theorem Sustains.refuse (hm : m.Sound) (c : TpmRc) : Sustains m (.error (.rc c), m) := by
  refine ⟨hm, ?_⟩
  intro e he
  cases he
  exact ⟨⟨c, rfl⟩, rfl⟩

theorem Sustains.reply {m' : SessionMachine} (hm : m'.Sound) (r : SessionReply) : Sustains m (.ok r, m') := by
  refine ⟨hm, ?_⟩
  intro e he
  cases he

theorem Sound.disorder (hm : m.Sound) : ({ m with orderly := none } : SessionMachine).Sound :=
  ⟨hm.mask, hm.kept, hm.slots, hm.oldest, by simp⟩

theorem Sustains.disorder {out : SessionOutcome} (h : Sustains { m with orderly := none } out) : Sustains m out :=
  ⟨h.sound, h.refused⟩

theorem status_update {handle : TpmHandle} {i : SessionIndex} (hindex : handle.index = i.val) (st : SessionStatus) :
    (fun j : SessionIndex => if j.val = handle.index then st else m.status j) = Function.update m.status i st := by
  funext j
  by_cases hji : j = i
  · subst hji
    simp [hindex]
  · have hne : ¬ j.val = handle.index := by
      rw [hindex]
      exact fun h => hji (Fin.val_injective h)
    simp [hne, hji]

theorem no_slot {v : Nat} (h : v = 0 ∨ 3 < v) : ∀ k < 3, v ≠ k + 1 := by
  intro k hk
  omega

theorem startAuthSession_sustains (hm : m.Sound) (sessionType : SessionType) (checks : Option TpmRc) (session : Session) :
    Sustains m (m.startAuthSession sessionType checks session) := by
  unfold startAuthSession
  cases checks with
  | some c => exact .refuse hm c
  | none =>
      rcases SessionTable.sessionCreate_cases hm.mask hm.slots sessionType session with
        ⟨c, hc⟩ | ⟨i, k, hzero, hvacant, hres⟩
      · rw [hc]
        exact .refuse hm c
      · rw [hres]
        dsimp only
        have hk := k.isLt
        have habsent := (hm.kept.absent i).2 hzero
        have hi : i.val ≠ m.table.oldestSavedSession := by
          intro heq
          obtain ⟨c, hc, -⟩ := hm.oldest.least i heq
          rw [habsent] at hc
          cases hc
        rw [status_update (SessionTable.index_ofSession sessionType i)]
        apply Sustains.reply
        refine ⟨hm.mask, ?_, ?_, ?_, hm.snapshot⟩
        · refine hm.kept.set i ?_ ?_ (by simp)
          · simp
          · simp only [true_iff]
            omega
        · exact hm.slots.fill hvacant (no_slot (.inl hzero)) rfl rfl rfl
        · exact hm.oldest.unsave (by simp) hi

theorem entityGetLoadStatus_cases (hm : m.Sound) {handle : TpmHandle} (hsession : handle.isSession = true) :
    (∃ c, m.entityGetLoadStatus handle = .error (.rc c)) ∨
      m.entityGetLoadStatus handle = .ok () ∧
        ∃ i : SessionIndex, handle.index = i.val ∧ ∃ k : SessionSlot, m.table.contextArray i = k.val + 1 := by
  unfold entityGetLoadStatus
  cases hloaded : m.table.sessionIsLoaded handle with
  | false => exact .inl ⟨_, rfl⟩
  | true =>
      obtain ⟨i, hindex, k, hk⟩ := SessionTable.sessionIsLoaded_iff.1 hloaded
      obtain ⟨x, hx⟩ := hm.slots.sessionGet hsession hindex hk
      rw [hx]
      cases hkind : x.attributes.isPolicy == (handle.getType == TpmHandle.htPolicySession) with
      | false =>
          refine .inl ⟨⟨.handle, 0x100⟩, ?_⟩
          simp [demand, hkind, bind, Except.bind, Fault.at]
      | true =>
          refine .inr ⟨?_, i, hindex, k, hk⟩
          simp [demand, hkind, bind, Except.bind]

theorem returnIfOrderly_cases (nvStatus : Option RcCode) :
    (∃ c, m.returnIfOrderly nvStatus = .error (.rc c)) ∨ m.returnIfOrderly nvStatus = .ok () := by
  unfold returnIfOrderly
  split
  · exact .inl ⟨_, rfl⟩
  · exact .inr rfl

theorem contextSave_sustains (hm : m.Sound) (hlast : m.table.contextCounter ≠ 2 ^ 64 - 1) (nvStatus : Option RcCode)
    (handle : TpmHandle) : Sustains m (m.contextSave nvStatus handle) := by
  unfold contextSave
  cases hcontext : handle.isSessionContext with
  | false => exact .refuse hm _
  | true =>
      have hsession : handle.isSession = true := by
        unfold TpmHandle.isSessionContext at hcontext
        exact (Bool.and_eq_true _ _ ▸ hcontext).1
      rw [if_neg (by simp)]
      rcases entityGetLoadStatus_cases hm hsession with ⟨c, hc⟩ | ⟨hok, i, hindex, k, hk⟩
      · rw [hc]
        exact .refuse hm c
      · rw [hok]
        rcases returnIfOrderly_cases (m := m) nvStatus with ⟨c, hc⟩ | hopen
        · rw [hc]
          exact .refuse hm c
        · rw [hopen]
          obtain ⟨x, hx⟩ := hm.slots.sessionGet hsession hindex hk
          dsimp only
          rw [hx]
          have hloaded : m.status i = .loaded := (hm.kept.loaded i).2 (by have := k.isLt; omega)
          rcases SessionTable.sessionContextSave_cases hm.mask hm.kept hm.oldest hindex hk hlast with hgap | ⟨hapart, hres⟩
          · rw [hgap]
            exact .disorder (.refuse hm.disorder _)
          · rw [hres]
            dsimp only
            rw [status_update hindex]
            have hlow := hm.kept.low
            apply Sustains.reply
            refine ⟨hm.mask, ?_, ?_, ?_, by simp⟩
            · exact hm.kept.save (SessionTable.span_of_mask hm.mask) hindex x hlast hapart
            · exact hm.slots.clear hk (no_slot (.inr hlow)) rfl rfl rfl
            · refine hm.oldest.save (by simp [hloaded]) ?_
              intro j c hj
              exact Nat.le_of_lt (hm.kept.live j c hj).before

theorem contextLoad_sustains (hm : m.Sound) (nvStatus : Option RcCode) (integrity : Option TpmRc)
    (context : SessionContext) : Sustains m (m.contextLoad nvStatus integrity context) := by
  unfold contextLoad
  cases hcontext : context.savedHandle.isSessionContext with
  | false => exact .refuse hm _
  | true =>
      have hboth : context.savedHandle.isSession = true ∧ context.savedHandle.index < 64 := by
        unfold TpmHandle.isSessionContext at hcontext
        simpa using hcontext
      rw [if_neg (by simp)]
      cases integrity with
      | some c => exact .refuse hm c
      | none =>
          rcases returnIfOrderly_cases (m := m) nvStatus with ⟨c, hc⟩ | hopen
          · rw [hc]
            exact .refuse hm c
          · rw [hopen]
            dsimp only
            have hindex : context.savedHandle.index = (⟨_, hboth.2⟩ : SessionIndex).val := rfl
            generalize (⟨_, hboth.2⟩ : SessionIndex) = i at hindex
            unfold SessionTable.sequenceNumberForSavedContextIsValid
            rw [if_neg (by simp [hm.mask]), hindex, SessionTable.entryAt_val]
            dsimp only
            split
            · contradiction
            · exact .disorder (.refuse hm.disorder _)
            · rename_i hvalid
              simp only [Except.ok.injEq, decide_eq_true_eq] at hvalid
              rcases SessionTable.sessionContextLoad_cases hm.mask hm.slots context.session hboth.1 hindex with
                ⟨c, hc⟩ | ⟨k, hvacant, hres⟩
              · rw [hc]
                exact .disorder (.refuse hm.disorder _)
              · rw [hres]
                dsimp only
                have hk := k.isLt
                have hkept : Kept m.table.span m.contexts
                    { m.table.toStateResetData with contextArray := Function.update m.table.contextArray i (k.val + 1) }
                    (Function.update m.status i .loaded) := by
                  refine hm.kept.set i ?_ ?_ (by simp)
                  · simp
                  · simp only [true_iff]
                    omega
                have hstatus := status_update (m := m) hindex .loaded
                rw [hindex] at hstatus
                rw [hstatus]
                apply Sustains.reply
                refine ⟨?_, ?_, ?_, ?_, by simp⟩
                · simpa [SessionTable.maskIsValid] using hm.mask
                · have hdata := SessionTable.overwrite_toStateResetData (t := m.table) i (k.val + 1)
                  simp only [SessionTable.span, SessionTable.overwrite_contextSlotMask, hdata]
                  exact hkept
                · refine hm.slots.fill hvacant (no_slot (.inr hvalid.1)) ?_ rfl rfl
                  exact SessionTable.overwrite_contextArray i (k.val + 1)
                · exact SessionTable.oldest_overwrite hm.mask hm.oldest (by simp) hkept

/-- A session that is loaded or saved is flushed without an error. -/
theorem flush_sound (hm : m.Sound) {handle : TpmHandle} {i : SessionIndex} (hsession : handle.isSession = true)
    (hindex : handle.index = i.val) (hactive : m.table.contextArray i ≠ 0) :
    (m.flush handle).2.Sound ∧ (m.flush handle).1 = .ok .none := by
  have hkept : Kept m.table.span m.contexts
      { m.table.toStateResetData with contextArray := Function.update m.table.contextArray i 0 }
      (Function.update m.status i .absent) := by
    refine hm.kept.set i ?_ ?_ (by simp)
    · simp
    · simp
  unfold flush
  rcases Nat.lt_or_ge 3 (m.table.contextArray i) with hsaved | hle
  · rw [SessionTable.sessionFlush_saved hsession hindex hsaved]
    dsimp only
    rw [status_update hindex]
    refine ⟨⟨?_, ?_, ?_, ?_, ?_⟩, rfl⟩
    · simpa [SessionTable.maskIsValid] using hm.mask
    · have hdata := SessionTable.overwrite_toStateResetData (t := m.table) i 0
      simp only [SessionTable.span, SessionTable.overwrite_contextSlotMask, hdata]
      exact hkept
    · refine hm.slots.set (SessionTable.overwrite_contextArray i 0) ?_ ?_ (no_slot (.inr hsaved)) (no_slot (.inl rfl))
      · ext k
        simp [SessionTable.mem_occupied]
      · simp
    · exact SessionTable.oldest_overwrite hm.mask hm.oldest (by simp) hkept
    · intro horderly
      have hsnapshot := hm.snapshot horderly
      simpa [SessionTable.span] using hsnapshot
  · obtain ⟨k, hk⟩ := SessionTable.exists_slot (Nat.pos_of_ne_zero hactive) hle
    have hi : i.val ≠ m.table.oldestSavedSession := by
      intro heq
      obtain ⟨c, hc, -⟩ := hm.oldest.least i heq
      have hlow := (hm.kept.entry i c hc)
      omega
    rw [SessionTable.sessionFlush_loaded hsession hindex hk]
    dsimp only
    rw [status_update hindex]
    refine ⟨⟨hm.mask, hkept, ?_, ?_, hm.snapshot⟩, rfl⟩
    · exact hm.slots.clear hk (no_slot (.inl rfl)) rfl rfl rfl
    · exact hm.oldest.unsave (by simp) hi

theorem flushContext_sustains (hm : m.Sound) (handle : TpmHandle) : Sustains m (m.flushContext handle) := by
  unfold flushContext
  cases hcontext : handle.isSessionContext with
  | false => exact .refuse hm _
  | true =>
      have hsession : handle.isSession = true := by
        unfold TpmHandle.isSessionContext at hcontext
        exact (Bool.and_eq_true _ _ ▸ hcontext).1
      rw [if_neg (by simp)]
      cases hactive : m.table.sessionIsLoaded handle || m.table.sessionIsSaved handle with
      | false => exact .refuse hm _
      | true =>
          have hentry : ∃ i : SessionIndex, handle.index = i.val ∧ m.table.contextArray i ≠ 0 := by
            rcases Bool.or_eq_true _ _ ▸ hactive with hloaded | hsaved
            · obtain ⟨i, hindex, k, hk⟩ := SessionTable.sessionIsLoaded_iff.1 hloaded
              exact ⟨i, hindex, by omega⟩
            · obtain ⟨i, hindex, hlt⟩ := SessionTable.sessionIsSaved_iff.1 hsaved
              exact ⟨i, hindex, by omega⟩
          obtain ⟨i, hindex, hne⟩ := hentry
          obtain ⟨hsound, hok⟩ := flush_sound hm hsession hindex hne
          rw [if_neg (by simp)]
          refine ⟨hsound, ?_⟩
          intro e he
          rw [hok] at he
          cases he

theorem change_sound (hm : m.Sound) (handle : TpmHandle) (f : Session → Session) : (m.change handle f).Sound := by
  unfold change
  split
  · exact hm
  · split
    · exact hm
    · rename_i k hk
      refine ⟨hm.mask, hm.kept, ?_, hm.oldest, hm.snapshot⟩
      have hsame : ({ m.table with
          sessions := Function.update m.table.sessions k ((m.table.sessions k).map f) } : SessionTable).occupied =
            m.table.occupied := by
        ext l
        by_cases hl : l = k
        · subst hl
          simp [SessionTable.mem_occupied]
        · simp [SessionTable.mem_occupied, hl]
      refine ⟨?_, hm.slots.once, ?_⟩
      · rw [hsame]
        exact hm.slots.used
      · rw [hsame]
        exact hm.slots.free

theorem change_contextArray (handle : TpmHandle) (f : Session → Session) :
    (m.change handle f).table.contextArray = m.table.contextArray := by
  unfold change
  split
  · rfl
  · split <;> rfl

theorem useSession_sustains (hm : m.Sound) (handle : TpmHandle) (f : Session → Session) (continueSession : Bool) :
    Sustains m (m.useSession handle f continueSession) := by
  unfold useSession
  cases hsession : handle.isSession with
  | false => exact .refuse hm _
  | true =>
      rw [if_neg (by simp)]
      rcases entityGetLoadStatus_cases hm hsession with ⟨c, hc⟩ | ⟨hok, i, hindex, k, hk⟩
      · rw [hc]
        exact .refuse hm c
      · rw [hok]
        dsimp only
        have hchanged := change_sound hm handle f
        cases continueSession with
        | true => exact .reply hchanged _
        | false =>
            have hactive : (m.change handle f).table.contextArray i ≠ 0 := by
              rw [change_contextArray, hk]
              omega
            obtain ⟨hsound, hok⟩ := flush_sound hchanged hsession hindex hactive
            rw [if_neg Bool.false_ne_true]
            refine ⟨hsound, ?_⟩
            intro e he
            rw [hok] at he
            cases he

theorem shutdown_sustains (hm : m.Sound) (nvStatus : Option RcCode) (pcrReConfig : Bool) (shutdownType : ShutdownType) :
    Sustains m (m.shutdown nvStatus pcrReConfig shutdownType) := by
  unfold shutdown
  cases nvStatus with
  | some c => exact .refuse hm _
  | none =>
      dsimp only
      by_cases hrefused : (pcrReConfig && shutdownType == .state) = true
      · rw [if_pos hrefused]
        exact .refuse hm _
      · rw [if_neg hrefused]
        cases shutdownType with
        | clear =>
            apply Sustains.reply
            exact ⟨hm.mask, hm.kept, hm.slots, hm.oldest, by simp⟩
        | state =>
            apply Sustains.reply
            exact ⟨hm.mask, hm.kept, hm.slots, hm.oldest, fun _ => hm.kept⟩

theorem reset_sound : (m.start .reset).Sound := by
  refine ⟨rfl, ?_, ?_, ?_, by simp [start]⟩
  · refine ⟨?_, ?_, ?_, ?_, ?_, ?_, ?_, ?_, ?_, ?_⟩ <;> simp [start, SessionTable.sessionStartup, SessionTable.span]
  · refine SessionTable.slotted_of_vacant rfl rfl ?_
    intro i
    exact .inl rfl
  · refine ⟨?_, ?_⟩
    · intro i hi
      have hlt := i.isLt
      simp only [start, SessionTable.sessionStartup] at hi
      omega
    · simp [start]

theorem Kept.afterStartup {span : Nat} {contexts : List SessionContext} {g : StateResetData}
    {status : SessionIndex → SessionStatus} (h : Kept span contexts g status) :
    Kept span contexts { g with contextArray := fun i => if g.contextArray i ≤ 3 then 0 else g.contextArray i }
      (fun i => (status i).afterStartup) := by
  have hsaved : ∀ i c, (status i).afterStartup = .saved c → status i = .saved c := by
    intro i c hi
    cases hs : status i with
    | absent => simp [hs, SessionStatus.afterStartup] at hi
    | loaded => simp [hs, SessionStatus.afterStartup] at hi
    | saved c' => simpa [hs, SessionStatus.afterStartup] using hi
  refine ⟨h.counter, h.low, ?_, ?_, ?_, ?_, ?_, ?_, h.past, h.distinct⟩
  · intro i
    cases hs : status i with
    | absent =>
        have hzero := (h.absent i).1 hs
        simp [SessionStatus.afterStartup, hzero]
    | loaded =>
        have hle := ((h.loaded i).1 hs).2
        simp [SessionStatus.afterStartup, hle]
    | saved c =>
        have hlow := h.entry i c hs
        have hle : ¬ g.contextArray i ≤ 3 := by omega
        simp only [SessionStatus.afterStartup, reduceCtorEq, false_iff, if_neg hle]
        omega
  · intro i
    constructor
    · intro hi
      cases hs : status i with
      | absent => simp [hs, SessionStatus.afterStartup] at hi
      | loaded => simp [hs, SessionStatus.afterStartup] at hi
      | saved c => simp [hs, SessionStatus.afterStartup] at hi
    · intro hi
      dsimp only at hi
      split at hi <;> omega
  · intro i c hi
    have hs := hsaved i c hi
    have hentry := h.entry i c hs
    have hle : ¬ g.contextArray i ≤ 3 := by omega
    simp only [if_neg hle]
    exact hentry
  · intro i c hi
    exact h.live i c (hsaved i c hi)
  · intro i c hi
    exact h.given i c (hsaved i c hi)
  · intro i c hi
    exact h.newest i c (hsaved i c hi)

theorem resume_sound (hm : m.Sound) (horderly : m.orderly = some .state) {kind : StartupKind} (hkind : kind ≠ .reset) :
    (m.start kind).Sound := by
  have hkept := Kept.afterStartup (hm.snapshot horderly)
  have hres : m.start kind =
      { m with
        table := ({ m.table with
          sessions := fun _ => none
          freeSessionSlots := 3
          contextCounter := m.stateResetData.contextCounter
          contextArray := fun i =>
            if m.stateResetData.contextArray i ≤ 3 then 0 else m.stateResetData.contextArray i } :
              SessionTable).contextIdSetOldest
        orderly := none
        status := fun i => (m.savedStatus i).afterStartup } := by
    cases kind with
    | reset => exact absurd rfl hkind
    | restart => rfl
    | resume => rfl
  rw [hres]
  refine ⟨hm.mask, hkept, ?_, ?_, by simp⟩
  · refine SessionTable.slotted_of_vacant rfl rfl ?_
    intro i
    dsimp only [SessionTable.contextIdSetOldest]
    split
    · exact .inl rfl
    · omega
  · exact SessionTable.oldest_contextIdSetOldest hm.mask hkept

theorem startup_sustains (hm : m.Sound) (nvStatus : Option RcCode) (startupType : ShutdownType) (nvOk : Bool)
    (sameStart : Option TpmRc) : Sustains m (m.startup nvStatus startupType nvOk sameStart) := by
  unfold startup
  cases nvStatus with
  | some c => exact .refuse hm _
  | none =>
      cases startupType with
      | state =>
          dsimp only
          by_cases horderly : m.orderly = some .state
          · rw [if_neg (by simp [horderly])]
            cases nvOk with
            | false => exact .refuse hm _
            | true =>
                cases sameStart with
                | some c => exact .refuse hm c
                | none => exact .reply (resume_sound hm horderly (by simp)) _
          · rw [if_pos horderly]
            exact .refuse hm _
      | clear =>
          dsimp only
          by_cases horderly : m.orderly = some .state ∧ nvOk = true
          · rw [if_pos horderly]
            exact .reply (resume_sound hm horderly.1 (by simp)) _
          · rw [if_neg horderly]
            exact .reply reset_sound _

/-- Not a save of a context at the last value of the counter. -/
def Within (m : SessionMachine) : SessionCommand → Prop
  | .contextSave _ _ => m.table.contextCounter ≠ 2 ^ 64 - 1
  | _ => True

theorem act_sustains (hm : m.Sound) {cmd : SessionCommand} (hwithin : m.Within cmd) : Sustains m (m.act cmd) := by
  cases cmd with
  | startup nvStatus startupType nvOk sameStart => exact startup_sustains hm nvStatus startupType nvOk sameStart
  | shutdown nvStatus pcrReConfig shutdownType => exact shutdown_sustains hm nvStatus pcrReConfig shutdownType
  | startAuthSession sessionType checks session => exact startAuthSession_sustains hm sessionType checks session
  | contextSave nvStatus handle => exact contextSave_sustains hm hwithin nvStatus handle
  | contextLoad nvStatus integrity context => exact contextLoad_sustains hm nvStatus integrity context
  | flushContext handle => exact flushContext_sustains hm handle
  | useSession handle f continueSession => exact useSession_sustains hm handle f continueSession

theorem initial_sound {mask : Nat} (hmask : mask = 0xff ∨ mask = 0xffff) : (initial mask).Sound := by
  rcases hmask with rfl | rfl
  all_goals
    refine ⟨rfl, ?_, ?_, ?_, by simp [initial]⟩
    · refine ⟨?_, ?_, ?_, ?_, ?_, ?_, ?_, ?_, ?_, ?_⟩ <;> simp [initial, SessionTable.span]
    · exact SessionTable.slotted_of_vacant rfl rfl fun i => .inl rfl
    · refine ⟨?_, by simp [initial]⟩
      intro i hi
      have hlt := i.isLt
      simp only [initial] at hi
      omega

/-! ## Runs -/

/-- An HMAC session, and the handle that it gets as the first one. -/
def loneSession : Session := { authHashAlg := .sha256, policyDigest := [] }

def loneHandle : TpmHandle := 0x02000000

/-- The session is started and saved, with the narrow mask. -/
def savedOnce : SessionMachine :=
  (((initial 0xff).act (.startAuthSession .hmac none loneSession)).2.act (.contextSave none loneHandle)).2

/-- A command that the condition `p` admits is carried out. -/
def Step (p : SessionMachine → SessionCommand → Prop) (m m' : SessionMachine) : Prop :=
  ∃ cmd, p m cmd ∧ m' = (m.act cmd).2

theorem sound_of_run {mask : Nat} (hmask : mask = 0xff ∨ mask = 0xffff)
    (h : Reachable (fun m => m = initial mask) (Step Within) m) : m.Sound := by
  refine Reachable.invariant ?_ ?_ h
  · rintro m rfl
    exact initial_sound hmask
  · rintro m m' hm ⟨cmd, hwithin, rfl⟩
    exact (act_sustains hm hwithin).sound

/-- Slots, entries and the oldest saved session, in the terms of the array. -/
structure Consistent (m : SessionMachine) : Prop where
  loaded : Set.BijOn m.table.contextArray {i | 0 < m.table.contextArray i ∧ m.table.contextArray i ≤ 3}
    (Set.image (fun k : SessionSlot => k.val + 1) {k | (m.table.sessions k).isSome = true})
  free : m.table.freeSessionSlots = 3 - (Finset.univ.filter fun k => (m.table.sessions k).isSome = true).card
  saved : ∀ i, (∃ c, m.status i = .saved c) ↔ 3 < m.table.contextArray i
  distinct : Set.InjOn m.table.contextArray {i | ∃ c, m.status i = .saved c}
  oldest : Oldest m.table.oldestSavedSession m.status

theorem Sound.consistent (hm : m.Sound) : m.Consistent := by
  refine ⟨⟨?_, ?_, ?_⟩, ?_, hm.kept.saved_iff, ?_, hm.oldest⟩
  · rintro i ⟨hpos, hle⟩
    obtain ⟨k, hk⟩ := SessionTable.exists_slot hpos hle
    have hused := SessionTable.mem_occupied.1 ((hm.slots.used k).2 ⟨i, hk⟩)
    exact ⟨k, hused, hk.symm⟩
  · rintro i ⟨hpos, hle⟩ j - heq
    obtain ⟨k, hk⟩ := SessionTable.exists_slot hpos hle
    exact hm.slots.once i j k hk (heq.symm.trans hk) k.isLt
  · rintro v ⟨k, hk, rfl⟩
    obtain ⟨i, hi⟩ := (hm.slots.used k).1 (SessionTable.mem_occupied.2 hk)
    have hlt := k.isLt
    refine ⟨i, ⟨?_, ?_⟩, hi⟩ <;> omega
  · have hfree := hm.slots.free
    unfold SessionTable.occupied at hfree
    omega
  · rintro i ⟨c, hc⟩ j ⟨c', hc'⟩ heq
    rw [(hm.kept.entry i c hc).1, (hm.kept.entry j c' hc').1] at heq
    have hsequence := (hm.kept.live i c hc).eq_of_mod_eq (hm.kept.live j c' hc') heq
    obtain ⟨hmem, hindex⟩ := hm.kept.given i c hc
    obtain ⟨hmem', hindex'⟩ := hm.kept.given j c' hc'
    obtain rfl := hm.kept.distinct c hmem c' hmem' hsequence
    exact Fin.val_injective (hindex.symm.trans hindex')

/-- In every run that saves no context at the last value of the counter the table stays consistent, and a command
that is refused answers with a response code and leaves the table as it was. -/
theorem consistent_of_run {mask : Nat} (hmask : mask = 0xff ∨ mask = 0xffff)
    (h : Reachable (fun m => m = initial mask) (Step Within) m) :
    m.Consistent ∧ ∀ cmd, m.Within cmd → ∀ e, (m.act cmd).1 = .error e →
      (∃ c, e = .rc c) ∧ (m.act cmd).2.table = m.table := by
  have hm := sound_of_run hmask h
  refine ⟨hm.consistent, ?_⟩
  intro cmd hwithin e he
  exact (act_sustains hm hwithin).refused e he

theorem savedOnce_reached : Reachable (fun m => m = initial 0xff) (Step Within) savedOnce := by
  have hstarted : Reachable (fun m => m = initial 0xff) (Step Within)
      ((initial 0xff).act (.startAuthSession .hmac none loneSession)).2 :=
    .step (.init rfl) ⟨.startAuthSession .hmac none loneSession, trivial, rfl⟩
  have hwithin : ((initial 0xff).act (.startAuthSession .hmac none loneSession)).2.table.contextCounter ≠ 2 ^ 64 - 1 := by
    decide
  exact .step hstarted ⟨.contextSave none loneHandle, hwithin, rfl⟩

theorem savedOnce_consistent : savedOnce.Consistent :=
  (consistent_of_run (.inl rfl) savedOnce_reached).1

/-- The context is what the most recent `TPM2_ContextSave` of a session that is saved now has given out. -/
def Current (m : SessionMachine) (context : SessionContext) : Prop :=
  ∃ i : SessionIndex, context.savedHandle.index = i.val ∧ m.status i = .saved context

/-- Of the contexts that have been given out just the current ones are accepted. -/
theorem Sound.valid_iff_current (hm : m.Sound) {context : SessionContext} (hcontext : context ∈ m.contexts) :
    ∃ valid, m.table.sequenceNumberForSavedContextIsValid context = .ok valid ∧ (valid = true ↔ m.Current context) := by
  obtain ⟨hpast, hindex⟩ := hm.kept.past context hcontext
  unfold SessionTable.sequenceNumberForSavedContextIsValid
  rw [if_neg (by simp [hm.mask])]
  have hentry : context.savedHandle.index = (⟨_, hindex⟩ : SessionIndex).val := rfl
  generalize (⟨_, hindex⟩ : SessionIndex) = i at hentry
  rw [hentry, SessionTable.entryAt_val]
  refine ⟨_, rfl, ?_⟩
  have hfull : m.table.masked 0xffff + 1 = m.table.span := by
    rw [SessionTable.masked_eq hm.mask]
    rcases SessionTable.span_of_mask hm.mask with hs | hs
    · simp [hs]
    · simp [hs]
  rw [decide_eq_true_eq, hfull, SessionTable.masked_eq hm.mask]
  constructor
  · rintro ⟨hsaved, hvalue, hle, hgap⟩
    obtain ⟨c, hc⟩ := (hm.kept.saved_iff i).2 hsaved
    have hvalue' := (hm.kept.entry i c hc).1
    have hnewest := hm.kept.newest i c hc context hcontext hentry
    have hbefore := (hm.kept.live i c hc).before
    have hsame : context.sequence = c.sequence := by
      by_contra hne
      have hstale := stale (m := m.table.span) (by omega) hbefore (hvalue.symm.trans hvalue')
      omega
    obtain rfl := hm.kept.distinct context hcontext c (hm.kept.given i c hc).1 hsame
    exact ⟨i, hentry, hc⟩
  · rintro ⟨j, hj, hstatus⟩
    obtain rfl : j = i := Fin.val_injective (hj.symm.trans hentry)
    have hvalue := hm.kept.entry j context hstatus
    have hrecent := (hm.kept.live j context hstatus).recent
    refine ⟨?_, hvalue.1, Nat.le_of_lt hpast, ?_⟩ <;> omega

/-- In every run that saves no context at the last value of the counter, of the contexts that the TPM has given out
just the current ones are accepted. -/
theorem current_of_run {mask : Nat} (hmask : mask = 0xff ∨ mask = 0xffff)
    (h : Reachable (fun m => m = initial mask) (Step Within) m) :
    ∀ context ∈ m.contexts, ∃ valid, m.table.sequenceNumberForSavedContextIsValid context = .ok valid ∧
      (valid = true ↔ m.Current context) := by
  intro context hcontext
  exact (sound_of_run hmask h).valid_iff_current hcontext

theorem savedOnce_current :
    ∃ valid, savedOnce.table.sequenceNumberForSavedContextIsValid ⟨loneHandle, 4, loneSession⟩ = .ok valid ∧
      (valid = true ↔ savedOnce.Current ⟨loneHandle, 4, loneSession⟩) :=
  current_of_run (.inl rfl) savedOnce_reached _ List.mem_cons_self

/-! ## The end of the counter -/

/-- The session is loaded and no other is there; the counter stands at `n`. -/
def loneTable (n : Nat) : SessionTable :=
  { contextArray := Function.update (fun _ => 0) 0 1
    contextCounter := n
    sessions := Function.update (fun _ => none) 0 (some loneSession)
    freeSessionSlots := 2
    oldestSavedSession := 65
    contextSlotMask := 0xffff }

/-- The table after the session has been saved under `n`. -/
def savedTable (n : Nat) : SessionTable :=
  { contextArray := Function.update (fun _ => 0) 0 (n % 2 ^ 16)
    contextCounter := Kept.nextCounter (2 ^ 16) n
    sessions := fun _ => none
    freeSessionSlots := 3
    oldestSavedSession := 0
    contextSlotMask := 0xffff }

theorem index_loneHandle : loneHandle.index = 0 := by decide

theorem loaded_lone (n : Nat) : (loneTable n).sessionIsLoaded loneHandle = true := by
  simp [SessionTable.sessionIsLoaded, index_loneHandle, SessionTable.entryAt, loneTable]

theorem sessionContextSave_lone {n : Nat} (hn : n + 1 < 2 ^ 64) :
    (loneTable n).sessionContextSave loneHandle = (.ok n, savedTable n) := by
  have hgap : (loneTable n).gapIsMaximal = false := rfl
  have hmask : (loneTable n).maskIsValid = true := rfl
  have hentry : SessionTable.entryAt loneHandle.index = some 0 := by
    rw [index_loneHandle]
    rfl
  unfold SessionTable.sessionContextSave
  rw [if_neg (by simp [loaded_lone, hmask]), hgap, if_neg Bool.false_ne_true, hentry]
  have hnext : ((loneTable n).contextCounter + 1) % 2 ^ 64 = n + 1 := Nat.mod_eq_of_lt hn
  dsimp only
  rw [hnext, if_neg (by omega)]
  have hmasked : ∀ v, ({ loneTable n with
      contextArray := Function.update (loneTable n).contextArray 0 ((loneTable n).masked (loneTable n).contextCounter)
      contextCounter := n + 1 } : SessionTable).masked v = v % 2 ^ 16 :=
    SessionTable.masked_eq (t := loneTable n) hmask
  rw [hmasked, SessionTable.masked_eq hmask]
  by_cases hturn : (n + 1) % 2 ^ 16 = 0
  · have hskip : (n + 1 + 3 + 1) % 2 ^ 64 = n + 1 + 4 := Nat.mod_eq_of_lt (by omega)
    rw [if_pos hturn, hskip]
    simp [SessionTable.release, SessionTable.slotAt, loneTable, savedTable, Kept.nextCounter, SessionTable.span]
    exact hturn
  · rw [if_neg hturn]
    simp [SessionTable.release, SessionTable.slotAt, loneTable, savedTable, Kept.nextCounter, SessionTable.span]
    exact hturn

theorem contextIdSetOldest_none {t : SessionTable} (h : ∀ i, t.contextArray i ≤ 3) :
    t.contextIdSetOldest = { t with oldestSavedSession := 65 } := by
  have hage : ∀ i, t.age i = none := by
    intro i
    simp [SessionTable.age, Nat.not_lt_of_le (h i)]
  unfold SessionTable.contextIdSetOldest
  rcases foldl_leastStep t.age Fin.val (List.finRange 64) (t.masked 0xffff, 65) with ⟨hsame, -⟩ | ⟨i, -, a, ha, -⟩
  · rw [hsame]
  · rw [hage i] at ha
    cases ha

theorem valid_saved {n : Nat} (hn : 3 < n % 2 ^ 16) :
    (savedTable n).sequenceNumberForSavedContextIsValid ⟨loneHandle, n, loneSession⟩ = .ok true := by
  have hmask : (savedTable n).maskIsValid = true := rfl
  have hentry : SessionTable.entryAt loneHandle.index = some 0 := by
    rw [index_loneHandle]
    rfl
  have hgap : Kept.nextCounter (2 ^ 16) n - n ≤ 2 ^ 16 := by
    unfold Kept.nextCounter
    split <;> omega
  have hnext := Kept.lt_nextCounter (2 ^ 16) n
  unfold SessionTable.sequenceNumberForSavedContextIsValid
  rw [if_neg (by simp [hmask]), hentry]
  dsimp only
  rw [SessionTable.masked_eq hmask, SessionTable.masked_eq hmask]
  simp only [savedTable, SessionTable.span, Function.update_self]
  refine congrArg Except.ok (decide_eq_true ?_)
  refine ⟨hn, rfl, ?_, ?_⟩ <;> omega

theorem sessionContextLoad_saved {n : Nat} :
    (savedTable n).sessionContextLoad loneSession loneHandle = (.ok (), loneTable (Kept.nextCounter (2 ^ 16) n)) := by
  have hmask : (savedTable n).maskIsValid = true := rfl
  have hsession : loneHandle.isSession = true := by decide
  have hvacant : (savedTable n).vacantSlot = some 0 := rfl
  have hentry : SessionTable.entryAt 0 = some 0 := rfl
  unfold SessionTable.sessionContextLoad
  rw [if_neg (by simp [hmask, hsession]), if_neg (by simp [savedTable]), hvacant]
  dsimp only
  rw [if_neg (by simp [savedTable]), index_loneHandle, hentry]
  dsimp only
  have hold : (0 : SessionIndex).val = (savedTable n).oldestSavedSession := rfl
  rw [if_pos hold, contextIdSetOldest_none]
  · simp [savedTable, loneTable]
  · intro i
    by_cases hi : i = 0
    · subst hi
      simp
    · simp [savedTable, hi]

/-- The session has been saved and loaded again until the counter stood at `n`, and every context is still around. -/
structure Lone (m : SessionMachine) (n : Nat) : Prop where
  reached : Reachable (fun m => m = initial 0xffff) (Step fun _ _ => True) m
  table : m.table = loneTable n
  orderly : m.orderly = none
  status : m.status 0 = .loaded
  contexts : ∀ k, 3 < k % 2 ^ 16 → k < n → ⟨loneHandle, k, loneSession⟩ ∈ m.contexts

theorem lone_next {m : SessionMachine} {n : Nat} (h : Lone m n) (hlow : 3 < n % 2 ^ 16) (hn : n + 1 < 2 ^ 64) :
    ∃ m', Lone m' (Kept.nextCounter (2 ^ 16) n) := by
  have hsave : m.act (.contextSave none loneHandle) =
      (.ok (.context ⟨loneHandle, n, loneSession⟩),
        { m with
          table := savedTable n
          orderly := none
          status := fun i => if i.val = loneHandle.index then .saved ⟨loneHandle, n, loneSession⟩ else m.status i
          contexts := ⟨loneHandle, n, loneSession⟩ :: m.contexts }) := by
    have hcontext : loneHandle.isSessionContext = true := by decide
    have hget : (loneTable n).sessionGet loneHandle = .ok loneSession := rfl
    have hload : m.entityGetLoadStatus loneHandle = .ok () := by
      unfold entityGetLoadStatus
      rw [h.table, loaded_lone, hget]
      rfl
    have hopen : m.returnIfOrderly none = .ok () := by simp [returnIfOrderly]
    unfold act contextSave
    dsimp only
    rw [if_neg (by simp [hcontext]), hload, hopen]
    dsimp only
    rw [h.table, hget, sessionContextSave_lone hn]
  have hload : ((m.act (.contextSave none loneHandle)).2.act (.contextLoad none none ⟨loneHandle, n, loneSession⟩)).2 =
      { m with
        table := loneTable (Kept.nextCounter (2 ^ 16) n)
        orderly := none
        status := fun i => if i.val = loneHandle.index then .loaded
          else if i.val = loneHandle.index then .saved ⟨loneHandle, n, loneSession⟩ else m.status i
        contexts := ⟨loneHandle, n, loneSession⟩ :: m.contexts } := by
    have hcontext : loneHandle.isSessionContext = true := by decide
    rw [hsave]
    unfold act contextLoad
    dsimp only
    rw [if_neg (by simp [hcontext])]
    dsimp only [returnIfOrderly]
    rw [valid_saved hlow]
    dsimp only
    rw [sessionContextLoad_saved]
  refine ⟨_, .step (.step h.reached ⟨.contextSave none loneHandle, trivial, rfl⟩)
    ⟨.contextLoad none none ⟨loneHandle, n, loneSession⟩, trivial, rfl⟩, ?_, ?_, ?_, ?_⟩
  · rw [hload]
  · rw [hload]
  · rw [hload]
    simp [index_loneHandle]
  · intro k hk hlt
    rw [hload]
    by_cases hkn : k = n
    · subst hkn
      exact List.mem_cons_self
    · have hbelow : k < n := by
        unfold Kept.nextCounter at hlt
        split at hlt <;> omega
      exact List.mem_cons_of_mem _ (h.contexts k hk hbelow)

/-- The counter comes to every value that is not one of a slot. -/
theorem exists_lone (n : Nat) : 4 ≤ n → 3 < n % 2 ^ 16 → n < 2 ^ 64 → ∃ m, Lone m n := by
  induction n using Nat.strong_induction_on with
  | h n ih =>
      intro hfour hlow hlt
      rcases Nat.eq_or_lt_of_le hfour with rfl | hmore
      · refine ⟨((initial 0xffff).act (.startAuthSession .hmac none loneSession)).2,
          .step (.init rfl) ⟨_, trivial, rfl⟩, rfl, rfl, rfl, ?_⟩
        intro k hk hk'
        omega
      · by_cases hturn : n % 2 ^ 16 = 4
        · obtain ⟨m, hm⟩ := ih (n - 5) (by omega) (by omega) (by omega) (by omega)
          have hnext : Kept.nextCounter (2 ^ 16) (n - 5) = n := by
            unfold Kept.nextCounter
            rw [if_pos (by omega)]
            omega
          obtain ⟨m', hm'⟩ := lone_next hm (by omega) (by omega)
          rw [hnext] at hm'
          exact ⟨m', hm'⟩
        · obtain ⟨m, hm⟩ := ih (n - 1) (by omega) (by omega) (by omega) (by omega)
          have hnext : Kept.nextCounter (2 ^ 16) (n - 1) = n := by
            unfold Kept.nextCounter
            rw [if_neg (by omega)]
            omega
          obtain ⟨m', hm'⟩ := lone_next hm (by omega) (by omega)
          rw [hnext] at hm'
          exact ⟨m', hm'⟩

/-- At its last value the counter leaves the entry of a session that was loaded with the identifier that has been refused. -/
theorem contextSave_last {m : SessionMachine} (h : Lone m (2 ^ 64 - 1)) :
    m.act (.contextSave none loneHandle) =
      (.error (.of .tooManyContexts),
        { m with
          table := { loneTable (2 ^ 64 - 1) with contextArray := Function.update (fun _ => 0) 0 (2 ^ 16 - 1) }
          orderly := none }) := by
  have hcontext : loneHandle.isSessionContext = true := by decide
  have hget : (loneTable (2 ^ 64 - 1)).sessionGet loneHandle = .ok loneSession := rfl
  have hload : m.entityGetLoadStatus loneHandle = .ok () := by
    unfold entityGetLoadStatus
    rw [h.table, loaded_lone, hget]
    rfl
  have hopen : m.returnIfOrderly none = .ok () := by simp [returnIfOrderly]
  have hsave : (loneTable (2 ^ 64 - 1)).sessionContextSave loneHandle =
      (.error (.of .tooManyContexts),
        { loneTable (2 ^ 64 - 1) with contextArray := Function.update (fun _ => 0) 0 (2 ^ 16 - 1) }) := by
    have hentry : SessionTable.entryAt loneHandle.index = some 0 := by
      rw [index_loneHandle]
      rfl
    have hgap : (loneTable (2 ^ 64 - 1)).gapIsMaximal = false := rfl
    have hmask : ∀ n, (loneTable n).maskIsValid = true := fun _ => rfl
    have hmasked : (loneTable (2 ^ 64 - 1)).masked (2 ^ 64 - 1) = 2 ^ 16 - 1 := by decide
    unfold SessionTable.sessionContextSave
    rw [if_neg (by simp [loaded_lone, hmask]), hgap, if_neg Bool.false_ne_true, hentry]
    dsimp only
    rw [if_pos (by simp [loneTable])]
    simp only [loneTable, Function.update_idem] at hmasked ⊢
    rw [hmasked]
  unfold act contextSave
  dsimp only
  rw [if_neg (by simp [hcontext]), hload, hopen]
  dsimp only
  rw [h.table, hget, hsave]

/-- A refused command leaves the table as it was: not at the end of the counter. -/
theorem refused_save_changes_table :
    ¬ ∀ m, Reachable (fun m => m = initial 0xffff) (Step fun _ _ => True) m →
      m.Consistent ∧ ∀ cmd e, (m.act cmd).1 = .error e → (∃ c, e = .rc c) ∧ (m.act cmd).2.table = m.table := by
  intro hclaim
  obtain ⟨m, hm⟩ := exists_lone (2 ^ 64 - 1) (by decide) (by decide) (by decide)
  have hres := contextSave_last hm
  obtain ⟨-, hsame⟩ := (hclaim m hm.reached).2 (.contextSave none loneHandle) (.of .tooManyContexts) (by rw [hres])
  rw [hres, hm.table] at hsame
  have hentry := congrFun (congrArg (fun t : SessionTable => t.contextArray) hsame) 0
  simp [loneTable] at hentry

/-- There a context that is one turn old is accepted for a session that has been loaded from a later one. -/
theorem stale_context_accepted :
    ¬ ∀ m, Reachable (fun m => m = initial 0xffff) (Step fun _ _ => True) m →
      ∀ context ∈ m.contexts, ∃ valid, m.table.sequenceNumberForSavedContextIsValid context = .ok valid ∧
        (valid = true ↔ m.Current context) := by
  intro hclaim
  obtain ⟨m, hm⟩ := exists_lone (2 ^ 64 - 1) (by decide) (by decide) (by decide)
  have hres := contextSave_last hm
  have hreached : Reachable (fun m => m = initial 0xffff) (Step fun _ _ => True) (m.act (.contextSave none loneHandle)).2 :=
    .step hm.reached ⟨.contextSave none loneHandle, trivial, rfl⟩
  have hgiven := hm.contexts (2 ^ 64 - 1 - 2 ^ 16) (by decide) (by decide)
  obtain ⟨valid, hvalid, hiff⟩ := hclaim _ hreached ⟨loneHandle, 2 ^ 64 - 1 - 2 ^ 16, loneSession⟩ (by rw [hres]; exact hgiven)
  rw [hres] at hvalid hiff
  have haccepted : valid = true := by
    have haccepted' : ({ loneTable (2 ^ 64 - 1) with
        contextArray := Function.update (fun _ => 0) 0 (2 ^ 16 - 1) } :
          SessionTable).sequenceNumberForSavedContextIsValid ⟨loneHandle, 2 ^ 64 - 1 - 2 ^ 16, loneSession⟩ = .ok true := rfl
    exact Except.ok.inj (hvalid.symm.trans haccepted')
  obtain ⟨i, hi, hsaved⟩ := hiff.1 haccepted
  rw [index_loneHandle] at hi
  obtain rfl : i = 0 := Fin.val_injective hi.symm
  dsimp only at hsaved
  rw [hm.status] at hsaved
  cases hsaved

end SessionMachine

end PqcTpm
