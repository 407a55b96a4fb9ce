import PqcTpm.SessionContexts

/-!
# The sessions, loaded or not

Where a session is kept is the table's affair: saved and loaded again it is the session that it was. `SessionStore`
is what remains of the table when that is left out, and each command of `SessionTable` does to it what its operation says.
-/
namespace PqcTpm
open TruncatedCounter Transition

/-- The sessions by their indices, which of them are loaded, and which a start brings back that is no TPM Reset. -/
@[ext]
structure SessionStore where
  session : SessionIndex → Option Session := fun _ => none
  loaded : SessionIndex → Bool := fun _ => false
  kept : SessionIndex → Option Session := fun _ => none

namespace SessionStore

def create (i : SessionIndex) (x : Session) (S : SessionStore) : SessionStore :=
  { S with session := Function.update S.session i (some x), loaded := Function.update S.loaded i true }

def setLoaded (i : SessionIndex) (loaded : Bool) (S : SessionStore) : SessionStore :=
  { S with loaded := Function.update S.loaded i loaded }

def drop (i : SessionIndex) (S : SessionStore) : SessionStore :=
  { S with session := Function.update S.session i none, loaded := Function.update S.loaded i false }

def modify (i : SessionIndex) (f : Session → Session) (S : SessionStore) : SessionStore :=
  { S with session := Function.update S.session i ((S.session i).map f) }

/-- What is loaded at a shutdown does not come back. -/
def keep (S : SessionStore) : SessionStore := { S with kept := fun i => if S.loaded i then none else S.session i }

def reset (S : SessionStore) : SessionStore := { S with session := fun _ => none, loaded := fun _ => false }

def resume (S : SessionStore) : SessionStore := { S with session := S.kept, loaded := fun _ => false }

end SessionStore

namespace SessionMachine
variable {m m' : SessionMachine} {handle : TpmHandle} {i : SessionIndex} {k : SessionSlot}

/-- The session of an index, in its slot or in its context. -/
def sessionAt (m : SessionMachine) (i : SessionIndex) : Option Session :=
  match m.status i with
  | .absent => none
  | .loaded => (SessionTable.slotAt (m.table.contextArray i)).bind m.table.sessions
  | .saved context => some context.session

def keptAt (m : SessionMachine) (i : SessionIndex) : Option Session :=
  match m.savedStatus i with
  | .saved context => some context.session
  | _ => none

def store (m : SessionMachine) : SessionStore where
  session := m.sessionAt
  loaded i := decide (m.status i = .loaded)
  kept := m.keptAt

/-! ## One index -/

theorem sessionAt_absent (h : m.status i = .absent) : m.sessionAt i = none := by
  unfold sessionAt
  rw [h]

theorem sessionAt_saved {context : SessionContext} (h : m.status i = .saved context) :
    m.sessionAt i = some context.session := by
  unfold sessionAt
  rw [h]

theorem sessionAt_loaded (h : m.status i = .loaded) (hk : m.table.contextArray i = k.val + 1) :
    m.sessionAt i = m.table.sessions k := by
  unfold sessionAt
  rw [h]
  dsimp only
  rw [hk, SessionTable.slotAt_succ]
  rfl

theorem Sound.loaded_slot (hm : m.Sound) (h : m.status i = .loaded) :
    ∃ k : SessionSlot, m.table.contextArray i = k.val + 1 ∧ ∃ x, m.table.sessions k = some x := by
  obtain ⟨hpos, hle⟩ := (hm.kept.loaded i).1 h
  obtain ⟨k, hk⟩ := SessionTable.exists_slot hpos hle
  have hused := SessionTable.mem_occupied.1 ((hm.slots.used k).2 ⟨i, hk⟩)
  exact ⟨k, hk, Option.isSome_iff_exists.1 hused⟩

theorem Sound.status_of_slot (hm : m.Sound) (hk : m.table.contextArray i = k.val + 1) : m.status i = .loaded := by
  have hlt := k.isLt
  refine (hm.kept.loaded i).2 ⟨?_, ?_⟩ <;> omega

/-- A command on one index and one slot leaves the sessions of the others, unless they are in that slot. -/
theorem sessionAt_of_ne (hstatus : ∀ j, j ≠ i → m'.status j = m.status j)
    (harray : ∀ j, j ≠ i → m'.table.contextArray j = m.table.contextArray j)
    (hsessions : ∀ l, l ≠ k → m'.table.sessions l = m.table.sessions l)
    (hother : ∀ j, j ≠ i → m.table.contextArray j ≠ k.val + 1) {j : SessionIndex} (hj : j ≠ i) :
    m'.sessionAt j = m.sessionAt j := by
  unfold sessionAt
  rw [hstatus j hj, harray j hj]
  cases m.status j with
  | absent => rfl
  | saved context => rfl
  | loaded =>
      dsimp only
      cases hslot : SessionTable.slotAt (m.table.contextArray j) with
      | none => rfl
      | some l =>
          have hl : l ≠ k := by
            rintro rfl
            exact hother j hj (SessionTable.slotAt_eq_some hslot)
          exact hsessions l hl

/-- What `SessionGet` gives out of a loaded session. -/
theorem Sound.sessionGet_iff (hm : m.Sound) {x : Session} :
    m.table.sessionGet handle = .ok x ↔
      handle.isSession = true ∧ ∃ i : SessionIndex, handle.index = i.val ∧ m.status i = .loaded ∧ m.sessionAt i = some x := by
  constructor
  · intro h
    unfold SessionTable.sessionGet at h
    obtain ⟨_, hsession, h⟩ := bind_eq_ok h
    refine ⟨demand_eq_ok hsession, ?_⟩
    cases hentry : SessionTable.entryAt handle.index with
    | none =>
        rw [hentry] at h
        cases h
    | some i =>
        rw [hentry] at h
        dsimp only at h
        cases hslot : SessionTable.slotAt (m.table.contextArray i) with
        | none =>
            rw [hslot] at h
            cases h
        | some k =>
            rw [hslot] at h
            dsimp only at h
            have hk := SessionTable.slotAt_eq_some hslot
            have hloaded := hm.status_of_slot hk
            refine ⟨i, SessionTable.entryAt_eq_some hentry, hloaded, ?_⟩
            rw [sessionAt_loaded hloaded hk]
            cases hx : m.table.sessions k with
            | none =>
                rw [hx] at h
                cases h
            | some y =>
                rw [hx] at h
                cases h
                rfl
  · rintro ⟨hsession, i, hindex, hloaded, hx⟩
    obtain ⟨k, hk, -⟩ := hm.loaded_slot hloaded
    rw [sessionAt_loaded hloaded hk] at hx
    unfold SessionTable.sessionGet
    rw [hsession, hindex, SessionTable.entryAt_val]
    simp only [demand, if_true, hk, SessionTable.slotAt_succ, hx]
    rfl

theorem Sound.sessionIsLoaded_iff (hm : m.Sound) :
    m.table.sessionIsLoaded handle = true ↔ ∃ i : SessionIndex, handle.index = i.val ∧ m.status i = .loaded := by
  rw [SessionTable.sessionIsLoaded_iff]
  constructor
  · rintro ⟨i, hindex, k, hk⟩
    exact ⟨i, hindex, hm.status_of_slot hk⟩
  · rintro ⟨i, hindex, hloaded⟩
    obtain ⟨k, hk, -⟩ := hm.loaded_slot hloaded
    exact ⟨i, hindex, k, hk⟩

/-! ## What the commands do to the store -/

/-- A command on one index and one slot that no other index has. -/
theorem store_update {st : SessionStatus} (hstatus : m'.status = Function.update m.status i st)
    (harray : ∀ j, j ≠ i → m'.table.contextArray j = m.table.contextArray j)
    (hsessions : ∀ l, l ≠ k → m'.table.sessions l = m.table.sessions l)
    (hother : ∀ j, j ≠ i → m.table.contextArray j ≠ k.val + 1) (hsaved : m'.savedStatus = m.savedStatus) :
    m'.store =
      { session := Function.update m.store.session i (m'.sessionAt i)
        loaded := Function.update m.store.loaded i (decide (st = .loaded))
        kept := m.store.kept } := by
  have hne : ∀ j, j ≠ i → m'.status j = m.status j := by
    intro j hj
    rw [hstatus, Function.update_of_ne hj]
  ext1
  · funext j
    dsimp only [store]
    by_cases hj : j = i
    · subst hj
      rw [Function.update_self]
    · rw [Function.update_of_ne hj]
      exact sessionAt_of_ne hne harray hsessions hother hj
  · funext j
    dsimp only [store]
    by_cases hj : j = i
    · subst hj
      rw [hstatus, Function.update_self, Function.update_self]
    · rw [hne j hj, Function.update_of_ne hj]
  · unfold store keptAt
    rw [hsaved]

theorem Sound.no_entry (hm : m.Sound) (hvacant : m.table.sessions k = none) (j : SessionIndex) :
    m.table.contextArray j ≠ k.val + 1 := by
  intro hj
  have hused := SessionTable.mem_occupied.1 ((hm.slots.used k).2 ⟨j, hj⟩)
  rw [hvacant] at hused
  cases hused

theorem Sound.no_other (hm : m.Sound) (hk : m.table.contextArray i = k.val + 1) (j : SessionIndex) (hj : j ≠ i) :
    m.table.contextArray j ≠ k.val + 1 :=
  fun hjk => hj (hm.slots.once j i k hjk hk k.isLt)

theorem startAuthSession_store (hm : m.Sound) (sessionType : SessionType) (checks : Option TpmRc) (session : Session) :
    (∃ c, m.startAuthSession sessionType checks session = (.error (.rc c), m)) ∨
      ∃ i m', m.startAuthSession sessionType checks session = (.ok (.handle (.ofSession sessionType i)), m') ∧
        m.status i = .absent ∧ m'.store = m.store.create i (session.ofType sessionType) ∧ m'.orderly = m.orderly := by
  unfold startAuthSession
  cases checks with
  | some c => exact .inl ⟨c, rfl⟩
  | none =>
      rcases SessionTable.sessionCreate_cases hm.mask hm.slots sessionType session with
        ⟨c, hc⟩ | ⟨i, k, hzero, hvacant, hres⟩
      · rw [hc]
        exact .inl ⟨c, rfl⟩
      · rw [hres]
        dsimp only
        rw [status_update (SessionTable.index_ofSession sessionType i)]
        refine .inr ⟨i, _, rfl, (hm.kept.absent i).2 hzero, ?_, rfl⟩
        refine Eq.trans (store_update (m := m) (i := i) (k := k) rfl ?_ ?_ (fun j _ => hm.no_entry hvacant j) rfl) ?_
        · exact fun j hj => Function.update_of_ne hj ..
        · exact fun l hl => Function.update_of_ne hl ..
        · rw [sessionAt_loaded (k := k) (Function.update_self ..) (Function.update_self ..)]
          unfold SessionStore.create
          simp

theorem contextSave_store (hm : m.Sound) (hlast : m.table.contextCounter ≠ 2 ^ 64 - 1) (nvStatus : Option RcCode)
    (handle : TpmHandle) :
    (m.contextSave nvStatus handle).2 = m ∨
      (m.contextSave nvStatus handle).2.orderly = none ∧
        ((m.contextSave nvStatus handle).2.store = m.store ∨
          ∃ i : SessionIndex, handle.index = i.val ∧ (m.contextSave nvStatus handle).2.store = m.store.setLoaded i false) := by
  unfold contextSave
  cases hcontext : handle.isSessionContext with
  | false => exact .inl rfl
  | true =>
      have hsession : handle.isSession = true := by
        unfold TpmHandle.isSessionContext at hcontext
        exact (Bool.and_eq_true _ _ ▸ hcontext).1
      rw [if_neg (by simp)]
      rcases entityGetLoadStatus_cases hm hsession with ⟨c, hc⟩ | ⟨hok, i, hindex, k, hk⟩
      · rw [hc]
        exact .inl rfl
      · rw [hok]
        rcases returnIfOrderly_cases (m := m) nvStatus with ⟨c, hc⟩ | hopen
        · rw [hc]
          exact .inl rfl
        · rw [hopen]
          obtain ⟨x, hx⟩ := hm.slots.sessionGet hsession hindex hk
          dsimp only
          rw [hx]
          rcases SessionTable.sessionContextSave_cases hm.mask hm.kept hm.oldest hindex hk hlast with hgap | ⟨-, hres⟩
          · rw [hgap]
            exact .inr ⟨rfl, .inl rfl⟩
          · rw [hres]
            dsimp only
            rw [status_update hindex]
            refine .inr ⟨rfl, .inr ⟨i, hindex, ?_⟩⟩
            obtain ⟨-, i', hindex', -, hat⟩ := hm.sessionGet_iff.1 hx
            obtain rfl : i' = i := Fin.val_injective (hindex'.symm.trans hindex)
            refine Eq.trans (store_update (m := m) (i := i') (k := k) rfl ?_ ?_ (hm.no_other hk) rfl) ?_
            · exact fun j hj => Function.update_of_ne hj ..
            · exact fun l hl => Function.update_of_ne hl ..
            · rw [sessionAt_saved (Function.update_self ..), ← hat]
              unfold SessionStore.setLoaded store
              simp

/-- Loaded again the session of a context is the one that was saved. -/
theorem contextLoad_store (hm : m.Sound) (nvStatus : Option RcCode) (integrity : Option TpmRc) {context : SessionContext}
    (hgiven : integrity = none → context ∈ m.contexts) :
    (m.contextLoad nvStatus integrity context).2 = m ∨
      (m.contextLoad nvStatus integrity context).2.orderly = none ∧
        ((m.contextLoad nvStatus integrity context).2.store = m.store ∨
          ∃ i : SessionIndex, context.savedHandle.index = i.val ∧
            (m.contextLoad nvStatus integrity context).2.store = m.store.setLoaded i true) := by
  unfold contextLoad
  cases hcontext : context.savedHandle.isSessionContext with
  | false => exact .inl rfl
  | true =>
      have hsession : context.savedHandle.isSession = true := by
        unfold TpmHandle.isSessionContext at hcontext
        exact (Bool.and_eq_true _ _ ▸ hcontext).1
      rw [if_neg (by simp)]
      cases integrity with
      | some c => exact .inl rfl
      | none =>
          dsimp only
          rcases returnIfOrderly_cases (m := m) nvStatus with ⟨c, hc⟩ | hopen
          · rw [hc]
            exact .inl rfl
          · rw [hopen]
            dsimp only
            obtain ⟨valid, hvalid, hiff⟩ := hm.valid_iff_current (hgiven rfl)
            rw [hvalid]
            cases valid with
            | false => exact .inr ⟨rfl, .inl rfl⟩
            | true =>
                obtain ⟨i, hindex, hsaved⟩ := hiff.1 rfl
                dsimp only
                rcases SessionTable.sessionContextLoad_cases hm.mask hm.slots context.session hsession hindex with
                  ⟨c, hc⟩ | ⟨k, hvacant, hres⟩
                · rw [hc]
                  exact .inr ⟨rfl, .inl rfl⟩
                · rw [hres]
                  dsimp only
                  rw [status_update hindex]
                  refine .inr ⟨rfl, .inr ⟨i, hindex, ?_⟩⟩
                  have harray := SessionTable.overwrite_contextArray (t := m.table) i (k.val + 1)
                  refine Eq.trans (store_update (m := m) (i := i) (k := k) rfl ?_ ?_ (fun j _ => hm.no_entry hvacant j) rfl) ?_
                  · intro j hj
                    dsimp only
                    rw [harray, Function.update_of_ne hj]
                  · exact fun l hl => Function.update_of_ne hl ..
                  · rw [sessionAt_loaded (k := k) (Function.update_self ..)]
                    · unfold SessionStore.setLoaded store
                      simp [sessionAt_saved hsaved]
                    · dsimp only
                      rw [harray, Function.update_self]

theorem flush_store (hm : m.Sound) (hsession : handle.isSession = true) (hindex : handle.index = i.val)
    (hactive : m.table.contextArray i ≠ 0) :
    (m.flush handle).2.store = m.store.drop i ∧ (m.flush handle).2.orderly = m.orderly := by
  have habsent : ∀ m' : SessionMachine, m'.status i = .absent →
      ({ session := Function.update m.store.session i (m'.sessionAt i)
         loaded := Function.update m.store.loaded i (decide (SessionStatus.absent = .loaded))
         kept := m.store.kept } : SessionStore) = m.store.drop i := by
    intro m' hstatus
    rw [sessionAt_absent hstatus]
    rfl
  unfold flush
  rcases Nat.lt_or_ge 3 (m.table.contextArray i) with hsaved | hle
  · rw [SessionTable.sessionFlush_saved hsession hindex hsaved]
    dsimp only
    rw [status_update hindex]
    refine ⟨?_, rfl⟩
    -- no slot is concerned: the sessions in the slots stay
    ext1
    · funext j
      by_cases hj : j = i
      · subst hj
        rw [show (m.store.drop j).session j = none from Function.update_self ..]
        exact sessionAt_absent (Function.update_self ..)
      · rw [show (m.store.drop i).session j = m.sessionAt j from Function.update_of_ne hj ..]
        simp only [store, sessionAt]
        rw [Function.update_of_ne hj, SessionTable.overwrite_contextArray, Function.update_of_ne hj,
          SessionTable.overwrite_sessions]
    · funext j
      by_cases hj : j = i
      · subst hj
        simp [store, SessionStore.drop]
      · simp [store, SessionStore.drop, hj]
    · rfl
  · obtain ⟨k, hk⟩ := SessionTable.exists_slot (Nat.pos_of_ne_zero hactive) hle
    rw [SessionTable.sessionFlush_loaded hsession hindex hk]
    dsimp only
    rw [status_update hindex]
    refine ⟨?_, rfl⟩
    refine Eq.trans (store_update (m := m) (i := i) (k := k) rfl ?_ ?_ (hm.no_other hk) rfl) ?_
    · exact fun j hj => Function.update_of_ne hj ..
    · exact fun l hl => Function.update_of_ne hl ..
    · exact habsent _ (Function.update_self ..)

theorem flushContext_store (hm : m.Sound) (handle : TpmHandle) :
    (∃ c, m.flushContext handle = (.error (.rc c), m)) ∨
      ∃ i : SessionIndex, handle.index = i.val ∧ (m.flushContext handle).2.store = m.store.drop i ∧
        (m.flushContext handle).2.orderly = m.orderly := by
  unfold flushContext
  cases hcontext : handle.isSessionContext with
  | false => exact .inl ⟨_, rfl⟩
  | true =>
      have hsession : handle.isSession = true := by
        unfold TpmHandle.isSessionContext at hcontext
        exact (Bool.and_eq_true _ _ ▸ hcontext).1
      rw [if_neg (by simp)]
      cases hactive : m.table.sessionIsLoaded handle || m.table.sessionIsSaved handle with
      | false => exact .inl ⟨_, rfl⟩
      | true =>
          rw [if_neg (by simp)]
          have hentry : ∃ i : SessionIndex, handle.index = i.val ∧ m.table.contextArray i ≠ 0 := by
            rcases Bool.or_eq_true _ _ ▸ hactive with hloaded | hsaved
            · obtain ⟨i, hindex, k, hk⟩ := SessionTable.sessionIsLoaded_iff.1 hloaded
              exact ⟨i, hindex, by omega⟩
            · obtain ⟨i, hindex, hlt⟩ := SessionTable.sessionIsSaved_iff.1 hsaved
              exact ⟨i, hindex, by omega⟩
          obtain ⟨i, hindex, hne⟩ := hentry
          exact .inr ⟨i, hindex, flush_store hm hsession hindex hne⟩

/-- The session that is loaded at the index of a handle is changed. -/
theorem change_store (hm : m.Sound) (hindex : handle.index = i.val) (hloaded : m.status i = .loaded)
    (f : Session → Session) : (m.change handle f).store = m.store.modify i f ∧ (m.change handle f).status = m.status ∧
      (m.change handle f).orderly = m.orderly := by
  obtain ⟨k, hk, x, hx⟩ := hm.loaded_slot hloaded
  have hchange : m.change handle f = { m with
      table := { m.table with sessions := Function.update m.table.sessions k ((m.table.sessions k).map f) } } := by
    unfold change
    rw [hindex, SessionTable.entryAt_val]
    simp only [hk, SessionTable.slotAt_succ]
  rw [hchange]
  refine ⟨?_, rfl, rfl⟩
  have hstatus : m.status = Function.update m.status i (m.status i) := (Function.update_eq_self ..).symm
  refine Eq.trans (store_update (m := m) (i := i) (k := k) hstatus (fun _ _ => rfl) ?_ (hm.no_other hk) rfl) ?_
  · exact fun l hl => Function.update_of_ne hl ..
  · have hchanged : ({ m with
        table := { m.table with
          sessions := Function.update m.table.sessions k ((m.table.sessions k).map f) } } : SessionMachine).sessionAt i =
            (m.sessionAt i).map f := by
      rw [sessionAt_loaded hloaded hk]
      exact Eq.trans (sessionAt_loaded (k := k) hloaded hk) (Function.update_self ..)
    rw [hchanged]
    unfold SessionStore.modify store
    simp

theorem shutdown_store (nvStatus : Option RcCode) (pcrReConfig : Bool) (shutdownType : ShutdownType) :
    (∃ c, m.shutdown nvStatus pcrReConfig shutdownType = (.error (.rc c), m)) ∨
      ∃ m', m.shutdown nvStatus pcrReConfig shutdownType = (.ok .none, m') ∧ m'.orderly = some shutdownType ∧
        m'.store = if shutdownType = .state then m.store.keep else m.store := by
  unfold shutdown
  cases nvStatus with
  | some c => exact .inl ⟨_, rfl⟩
  | none =>
      dsimp only
      by_cases hrefused : (pcrReConfig && shutdownType == .state) = true
      · rw [if_pos hrefused]
        exact .inl ⟨_, rfl⟩
      · rw [if_neg hrefused]
        cases shutdownType with
        | clear => exact .inr ⟨_, rfl, rfl, rfl⟩
        | state =>
            refine .inr ⟨_, rfl, rfl, ?_⟩
            rw [if_pos rfl]
            ext1
            · rfl
            · rfl
            · funext i
              cases hstatus : m.status i with
              | absent => simp [store, SessionStore.keep, keptAt, sessionAt, hstatus]
              | loaded => simp [store, SessionStore.keep, keptAt, hstatus]
              | saved context => simp [store, SessionStore.keep, keptAt, sessionAt, hstatus]

theorem start_store (kind : StartupKind) :
    (m.start kind).store = if kind = .reset then m.store.reset else m.store.resume := by
  cases kind with
  | reset => rfl
  | restart | resume =>
      rw [if_neg (by decide)]
      ext1
      · funext i
        simp only [store, SessionStore.resume, start, keptAt, sessionAt]
        cases m.savedStatus i with
        | absent => rfl
        | loaded => rfl
        | saved context => rfl
      · funext i
        cases hstatus : m.savedStatus i with
        | absent => simp [store, SessionStore.resume, start, SessionStatus.afterStartup, hstatus]
        | loaded => simp [store, SessionStore.resume, start, SessionStatus.afterStartup, hstatus]
        | saved context => simp [store, SessionStore.resume, start, SessionStatus.afterStartup, hstatus]
      · rfl

end SessionMachine

end PqcTpm
