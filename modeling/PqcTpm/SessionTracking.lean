import Mathlib.Data.Fintype.Card
import Mathlib.Data.Fintype.Fin
import Mathlib.Data.Set.Function
import PqcTpm.SessionTable

/-!
# What the context array says of every session

The status that the commands have reported of each handle, against the entry, the slots, the
counter of free slots and the oldest saved session. A context that was saved is recognised by the
low bits of its identifier because no saved session is more than one turn of them behind the
counter; `Kept` is that invariant, and each function of the table keeps it.
-/
namespace PqcTpm
open TruncatedCounter

namespace SessionTable
variable {t : SessionTable}

/-- The number of values that the mask lets through. -/
def span (t : SessionTable) : Nat := t.contextSlotMask + 1

theorem span_of_mask (h : t.maskIsValid = true) : t.span = 2 ^ 8 ∨ t.span = 2 ^ 16 := by
  unfold maskIsValid at h
  simp only [Bool.or_eq_true, beq_iff_eq] at h
  unfold span
  omega

theorem masked_eq (h : t.maskIsValid = true) (v : Nat) : t.masked v = v % t.span := by
  rcases span_of_mask h with hs | hs
  · have hmask : t.contextSlotMask = 2 ^ 8 - 1 := by
      unfold span at hs
      omega
    unfold masked
    rw [hmask, Nat.and_two_pow_sub_one_eq_mod, hs]
    omega
  · have hmask : t.contextSlotMask = 2 ^ 16 - 1 := by
      unfold span at hs
      omega
    unfold masked
    rw [hmask, Nat.and_two_pow_sub_one_eq_mod, hs]
    omega

theorem entryAt_val (i : SessionIndex) : entryAt i.val = some i := by simp [entryAt]

theorem entryAt_eq_some {n : Nat} {i : SessionIndex} (h : entryAt n = some i) : n = i.val := by
  unfold entryAt at h
  split at h
  · cases h
    rfl
  · cases h

theorem slotAt_succ (k : SessionSlot) : slotAt (k.val + 1) = some k := by
  unfold slotAt
  simp

theorem slotAt_eq_some {v : Nat} {k : SessionSlot} (h : slotAt v = some k) : v = k.val + 1 := by
  unfold slotAt at h
  split at h
  · rename_i hv
    cases h
    simp only
    omega
  · cases h

theorem exists_slot {v : Nat} (hpos : 0 < v) (hle : v ≤ 3) : ∃ k : SessionSlot, v = k.val + 1 :=
  ⟨⟨v - 1, by omega⟩, by simp only; omega⟩

end SessionTable

/-! ## The entries -/

/-- Entries and counter against what has been reported. -/
structure Kept (span : Nat) (contexts : List SessionContext) (g : StateResetData)
    (status : SessionIndex → SessionStatus) : Prop where
  counter : g.contextCounter < 2 ^ 64
  low : 3 < g.contextCounter % span
  absent : ∀ i, status i = .absent ↔ g.contextArray i = 0
  loaded : ∀ i, status i = .loaded ↔ 0 < g.contextArray i ∧ g.contextArray i ≤ 3
  entry : ∀ i c, status i = .saved c → g.contextArray i = c.sequence % span ∧ 3 < c.sequence % span
  live : ∀ i c, status i = .saved c → Live span g.contextCounter c.sequence
  given : ∀ i c, status i = .saved c → c ∈ contexts ∧ c.savedHandle.index = i.val
  /-- No context of a handle is newer than the one that is saved there. -/
  newest : ∀ i c, status i = .saved c → ∀ c' ∈ contexts, c'.savedHandle.index = i.val → c'.sequence ≤ c.sequence
  past : ∀ c ∈ contexts, c.sequence < g.contextCounter ∧ c.savedHandle.index < 64
  distinct : ∀ c ∈ contexts, ∀ c' ∈ contexts, c.sequence = c'.sequence → c = c'

namespace Kept
variable {span : Nat} {contexts : List SessionContext} {g : StateResetData} {status : SessionIndex → SessionStatus}

theorem saved_iff (h : Kept span contexts g status) (i : SessionIndex) :
    (∃ c, status i = .saved c) ↔ 3 < g.contextArray i := by
  cases hs : status i with
  | absent =>
      have hzero := (h.absent i).1 hs
      simp [hzero]
  | loaded =>
      obtain ⟨-, hle⟩ := (h.loaded i).1 hs
      simp only [reduceCtorEq, exists_false, false_iff]
      omega
  | saved c =>
      obtain ⟨hentry, hlow⟩ := h.entry i c hs
      simp only [SessionStatus.saved.injEq, exists_eq', true_iff]
      omega

/-- An entry for a handle that is not to be saved is overwritten. -/
theorem set (h : Kept span contexts g status) (i : SessionIndex) {v : Nat} {st : SessionStatus}
    (habsent : st = .absent ↔ v = 0) (hloaded : st = .loaded ↔ 0 < v ∧ v ≤ 3) (hsaved : ∀ c, st ≠ .saved c) :
    Kept span contexts { g with contextArray := Function.update g.contextArray i v } (Function.update status i st) := by
  have hother : ∀ j c, Function.update status i st j = .saved c → j ≠ i ∧ status j = .saved c := by
    intro j c hj
    by_cases hji : j = i
    · subst hji
      rw [Function.update_self] at hj
      exact absurd hj (hsaved c)
    · rw [Function.update_of_ne hji] at hj
      exact ⟨hji, hj⟩
  refine ⟨h.counter, h.low, ?_, ?_, ?_, ?_, ?_, ?_, h.past, h.distinct⟩
  · intro j
    by_cases hji : j = i
    · subst hji
      simpa using habsent
    · simpa [Function.update_of_ne hji] using h.absent j
  · intro j
    by_cases hji : j = i
    · subst hji
      simpa using hloaded
    · simpa [Function.update_of_ne hji] using h.loaded j
  · intro j c hj
    obtain ⟨hji, hj⟩ := hother j c hj
    simpa [Function.update_of_ne hji] using h.entry j c hj
  · intro j c hj
    exact h.live j c (hother j c hj).2
  · intro j c hj
    exact h.given j c (hother j c hj).2
  · intro j c hj
    exact h.newest j c (hother j c hj).2

/-- The next value of the counter, past the values that stand for slots. -/
def nextCounter (span n : Nat) : Nat := if (n + 1) % span = 0 then n + 1 + 4 else n + 1

theorem lt_nextCounter (span n : Nat) : n < nextCounter span n := by
  unfold nextCounter
  split <;> omega

theorem live_nextCounter {n id : Nat} (hlive : Live span n id) (hid : 3 < id % span) (hne : n % span ≠ id % span) :
    Live span (nextCounter span n) id := by
  have hnext := hlive.next hne
  unfold nextCounter
  split
  · rename_i hturn
    exact hnext.skip hturn hid
  · exact hnext

/-- A session is saved under the value of the counter. -/
theorem save (h : Kept span contexts g status) (hspan : span = 2 ^ 8 ∨ span = 2 ^ 16) {i : SessionIndex}
    {handle : TpmHandle} (hindex : handle.index = i.val) (session : Session) (hlast : g.contextCounter ≠ 2 ^ 64 - 1)
    (hgap : ∀ j c, status j = .saved c → g.contextCounter % span ≠ c.sequence % span) :
    Kept span (⟨handle, g.contextCounter, session⟩ :: contexts)
      { contextArray := Function.update g.contextArray i (g.contextCounter % span)
        contextCounter := nextCounter span g.contextCounter }
      (Function.update status i (.saved ⟨handle, g.contextCounter, session⟩)) := by
  have hlow := h.low
  have hbound := h.counter
  have hnext := lt_nextCounter span g.contextCounter
  have hmem : ∀ c ∈ contexts, c.sequence < g.contextCounter := fun c hc => (h.past c hc).1
  refine ⟨?_, ?_, ?_, ?_, ?_, ?_, ?_, ?_, ?_, ?_⟩
  · unfold nextCounter
    split
    · rcases hspan with rfl | rfl <;> simp only <;> omega
    · simp only
      omega
  · unfold nextCounter
    split
    · rcases hspan with rfl | rfl <;> simp only <;> omega
    · rcases hspan with rfl | rfl <;> simp only <;> omega
  · intro j
    by_cases hji : j = i
    · subst hji
      simp only [Function.update_self, reduceCtorEq, false_iff]
      omega
    · simpa [Function.update_of_ne hji] using h.absent j
  · intro j
    by_cases hji : j = i
    · subst hji
      simp only [Function.update_self, reduceCtorEq, false_iff]
      omega
    · simpa [Function.update_of_ne hji] using h.loaded j
  · intro j c hj
    by_cases hji : j = i
    · subst hji
      rw [Function.update_self] at hj
      cases hj
      simpa using hlow
    · rw [Function.update_of_ne hji] at hj
      simpa [Function.update_of_ne hji] using h.entry j c hj
  · intro j c hj
    by_cases hji : j = i
    · subst hji
      rw [Function.update_self] at hj
      cases hj
      refine ⟨hnext, ?_⟩
      unfold nextCounter
      split
      · rcases hspan with rfl | rfl <;> simp only <;> omega
      · rcases hspan with rfl | rfl <;> simp only <;> omega
    · rw [Function.update_of_ne hji] at hj
      exact live_nextCounter (h.live j c hj) (h.entry j c hj).2 (hgap j c hj)
  · intro j c hj
    by_cases hji : j = i
    · subst hji
      rw [Function.update_self] at hj
      cases hj
      exact ⟨List.mem_cons_self, hindex⟩
    · rw [Function.update_of_ne hji] at hj
      obtain ⟨hc, hh⟩ := h.given j c hj
      exact ⟨List.mem_cons_of_mem _ hc, hh⟩
  · intro j c hj c' hc' hh
    by_cases hji : j = i
    · subst hji
      rw [Function.update_self] at hj
      cases hj
      rcases List.mem_cons.1 hc' with rfl | hc'
      · exact Nat.le_refl _
      · exact Nat.le_of_lt (hmem c' hc')
    · rw [Function.update_of_ne hji] at hj
      rcases List.mem_cons.1 hc' with rfl | hc'
      · exact absurd (Fin.val_injective (hh.symm.trans hindex)) hji
      · exact h.newest j c hj c' hc' hh
  · intro c hc
    rcases List.mem_cons.1 hc with rfl | hc
    · exact ⟨hnext, by rw [hindex]; exact i.isLt⟩
    · exact ⟨Nat.lt_trans (hmem c hc) hnext, (h.past c hc).2⟩
  · intro c hc c' hc' heq
    rcases List.mem_cons.1 hc with rfl | hc
    · rcases List.mem_cons.1 hc' with rfl | hc'
      · rfl
      · exact absurd heq (Nat.ne_of_gt (hmem c' hc'))
    · rcases List.mem_cons.1 hc' with rfl | hc'
      · exact absurd heq (Nat.ne_of_lt (hmem c hc))
      · exact h.distinct c hc c' hc' heq

end Kept

/-! ## The oldest saved session -/

/-- `s_oldestSavedSession` against what has been reported. -/
structure Oldest (oldest : Nat) (status : SessionIndex → SessionStatus) : Prop where
  least : ∀ i : SessionIndex, i.val = oldest →
    ∃ c, status i = .saved c ∧ ∀ j c', status j = .saved c' → c.sequence ≤ c'.sequence
  none : 64 ≤ oldest → ∀ i c, status i ≠ .saved c

namespace SessionTable
variable {t : SessionTable} {contexts : List SessionContext} {status : SessionIndex → SessionStatus}

theorem age_saved (hmask : t.maskIsValid = true) (h : Kept t.span contexts t.toStateResetData status)
    {i : SessionIndex} {c : SessionContext} (hi : status i = .saved c) :
    t.age i = some (c.sequence + t.span - t.contextCounter) := by
  obtain ⟨hentry, hlow⟩ := h.entry i c hi
  have hage := (h.live i c hi).age (by unfold span; omega)
  unfold age
  rw [if_pos (by omega), masked_eq hmask, masked_eq hmask, hentry, ← hage]
  congr 1
  rcases span_of_mask hmask with hs | hs
  · rw [hs]
    omega
  · rw [hs]

theorem age_none (h : Kept t.span contexts t.toStateResetData status) {i : SessionIndex}
    (hi : ∀ c, status i ≠ .saved c) : t.age i = none := by
  have hle : ¬ 3 < t.contextArray i := by
    intro hlt
    obtain ⟨c, hc⟩ := (h.saved_iff i).2 hlt
    exact hi c hc
  unfold age
  rw [if_neg hle]

theorem oldest_contextIdSetOldest (hmask : t.maskIsValid = true)
    (h : Kept t.span contexts t.toStateResetData status) :
    Oldest t.contextIdSetOldest.oldestSavedSession status := by
  have hfull : t.masked 0xffff = t.span - 1 := by
    rw [masked_eq hmask]
    rcases span_of_mask hmask with hs | hs
    · simp [hs]
    · simp [hs]
  unfold contextIdSetOldest
  dsimp only
  rcases foldl_leastStep t.age Fin.val (List.finRange 64) (t.masked 0xffff, 65) with
    ⟨hsame, hlarger⟩ | ⟨i, -, a, ha, -, hres, hmin⟩
  · rw [hsame]
    refine ⟨fun i hi => absurd i.isLt (by omega), ?_⟩
    intro _ i c hi
    have hlt := hlarger i (List.mem_finRange i) _ (age_saved hmask h hi)
    have hbefore := (h.live i c hi).before
    rw [hfull] at hlt
    dsimp only at hlt hbefore
    omega
  · rw [hres]
    refine ⟨?_, fun hge => absurd i.isLt (by omega)⟩
    intro i' hi'
    obtain rfl : i' = i := Fin.val_injective hi'
    cases hs : status i' with
    | absent => simp [age_none h (i := i') (by simp [hs])] at ha
    | loaded => simp [age_none h (i := i') (by simp [hs])] at ha
    | saved c =>
        refine ⟨c, rfl, ?_⟩
        intro j c' hj
        have hle := hmin j (List.mem_finRange j) _ (age_saved hmask h hj)
        have hbefore := (h.live i' c hs).recent
        have hbefore' := (h.live j c' hj).recent
        rw [age_saved hmask h hs] at ha
        cases ha
        omega

/-- The gap is at its maximum just when the next identifier cannot be told from one that is saved. -/
theorem gapIsMaximal_iff (hmask : t.maskIsValid = true) (h : Kept t.span contexts t.toStateResetData status)
    (hold : Oldest t.oldestSavedSession status) :
    t.gapIsMaximal = true ↔ ∃ i c, status i = .saved c ∧ t.contextCounter % t.span = c.sequence % t.span := by
  unfold gapIsMaximal
  cases hentry : entryAt t.oldestSavedSession with
  | none =>
      have hge : 64 ≤ t.oldestSavedSession := by
        by_contra hlt
        simp [entryAt, Nat.lt_of_not_le hlt] at hentry
      simp [hold.none hge]
  | some i =>
      obtain ⟨c, hi, hleast⟩ := hold.least i (entryAt_eq_some hentry).symm
      have hvalue := (h.entry i c hi).1
      rw [masked_eq hmask, beq_iff_eq, hvalue]
      refine ⟨fun heq => ⟨i, c, hi, heq.symm⟩, ?_⟩
      rintro ⟨j, c', hj, heq⟩
      have hle := hleast j c' hj
      have hlive := h.live i c hi
      have hlive' := h.live j c' hj
      have hbefore := hlive'.before
      have hrecent := hlive'.recent
      have hrecent' := hlive.recent
      -- a saved identifier with the counter's residue is a whole turn behind it, so it is the oldest
      have hdiff : (t.contextCounter - c'.sequence) % t.span = 0 := Nat.sub_mod_eq_zero_of_mod_eq heq
      have hturn : t.contextCounter - c'.sequence = t.span := by
        rcases Nat.lt_or_ge (t.contextCounter - c'.sequence) t.span with hlt | hge
        · rw [Nat.mod_eq_of_lt hlt] at hdiff
          omega
        · omega
      have hsame : c.sequence = c'.sequence := by omega
      rw [hsame, heq]

/-! ## The slots -/

/-- The slots in use. -/
def occupied (t : SessionTable) : Finset SessionSlot := Finset.univ.filter fun k => (t.sessions k).isSome = true

theorem mem_occupied {k : SessionSlot} : k ∈ t.occupied ↔ (t.sessions k).isSome = true := by simp [occupied]

/-- Slots, entries and the number of free slots against one another. -/
structure Slotted (t : SessionTable) : Prop where
  used : ∀ k, k ∈ t.occupied ↔ ∃ i, t.contextArray i = k.val + 1
  once : ∀ i j k, t.contextArray i = k + 1 → t.contextArray j = k + 1 → k < 3 → i = j
  free : t.freeSessionSlots + t.occupied.card = 3

theorem Slotted.set (h : t.Slotted) {t' : SessionTable} {i : SessionIndex} {v : Nat}
    (harray : t'.contextArray = Function.update t.contextArray i v) (hsessions : t'.occupied = t.occupied)
    (hfree : t'.freeSessionSlots = t.freeSessionSlots) (hold : ∀ k < 3, t.contextArray i ≠ k + 1)
    (hnew : ∀ k < 3, v ≠ k + 1) : t'.Slotted := by
  have hentry : ∀ j k, k < 3 → (t'.contextArray j = k + 1 ↔ t.contextArray j = k + 1) := by
    intro j k hk
    rw [harray]
    by_cases hji : j = i
    · subst hji
      rw [Function.update_self]
      exact iff_of_false (hnew k hk) (hold k hk)
    · rw [Function.update_of_ne hji]
  refine ⟨?_, ?_, ?_⟩
  · intro k
    rw [hsessions, h.used k]
    exact exists_congr fun j => (hentry j k k.isLt).symm
  · intro j j' k hj hj' hk
    exact h.once j j' k ((hentry j k hk).1 hj) ((hentry j' k hk).1 hj') hk
  · rw [hsessions, hfree]
    exact h.free

/-- A session comes into a vacant slot. -/
theorem Slotted.fill (h : t.Slotted) {t' : SessionTable} {i : SessionIndex} {k : SessionSlot} {x : Session}
    (hvacant : t.sessions k = none) (hold : ∀ k < 3, t.contextArray i ≠ k + 1)
    (harray : t'.contextArray = Function.update t.contextArray i (k + 1))
    (hsessions : t'.sessions = Function.update t.sessions k (some x))
    (hfree : t'.freeSessionSlots = t.freeSessionSlots - 1) : t'.Slotted := by
  have hk : k ∉ t.occupied := by simp [mem_occupied, hvacant]
  have hset : t'.occupied = insert k t.occupied := by
    ext l
    rw [Finset.mem_insert, mem_occupied, mem_occupied, hsessions]
    by_cases hl : l = k
    · subst hl
      simp
    · simp [hl]
  have hunused : ∀ j, t.contextArray j ≠ k + 1 := fun j hj => hk ((h.used k).2 ⟨j, hj⟩)
  refine ⟨?_, ?_, ?_⟩
  · intro l
    rw [hset, Finset.mem_insert, h.used l, harray]
    constructor
    · rintro (rfl | ⟨j, hj⟩)
      · exact ⟨i, Function.update_self ..⟩
      · have hji : j ≠ i := by
          rintro rfl
          exact hold l l.isLt hj
        exact ⟨j, by rw [Function.update_of_ne hji, hj]⟩
    · rintro ⟨j, hj⟩
      by_cases hji : j = i
      · subst hji
        rw [Function.update_self] at hj
        exact .inl (Fin.val_injective (by omega))
      · rw [Function.update_of_ne hji] at hj
        exact .inr ⟨j, hj⟩
  · intro j j' l hj hj' hl
    rw [harray] at hj hj'
    by_cases hji : j = i
    · by_cases hji' : j' = i
      · rw [hji, hji']
      · subst hji
        rw [Function.update_self] at hj
        rw [Function.update_of_ne hji', ← hj] at hj'
        exact absurd hj' (hunused j')
    · rw [Function.update_of_ne hji] at hj
      by_cases hji' : j' = i
      · subst hji'
        rw [Function.update_self] at hj'
        rw [← hj'] at hj
        exact absurd hj (hunused j)
      · rw [Function.update_of_ne hji'] at hj'
        exact h.once j j' l hj hj' hl
  · have hcard := h.free
    have hlt : t.occupied.card < 3 := by
      have hle := Finset.card_lt_univ_of_notMem hk
      simpa using hle
    rw [hset, Finset.card_insert_of_notMem hk, hfree]
    omega

/-- The slot of a session is given back. -/
theorem Slotted.clear (h : t.Slotted) {t' : SessionTable} {i : SessionIndex} {k : SessionSlot} {v : Nat}
    (hold : t.contextArray i = k + 1) (hnew : ∀ k < 3, v ≠ k + 1)
    (harray : t'.contextArray = Function.update t.contextArray i v)
    (hsessions : t'.sessions = Function.update t.sessions k none)
    (hfree : t'.freeSessionSlots = t.freeSessionSlots + 1) : t'.Slotted := by
  have hk : k ∈ t.occupied := (h.used k).2 ⟨i, hold⟩
  have hset : t'.occupied = t.occupied.erase k := by
    ext l
    rw [Finset.mem_erase, mem_occupied, mem_occupied, hsessions]
    by_cases hl : l = k
    · subst hl
      simp
    · simp [hl]
  have hkept : ∀ j l, l < 3 → (t'.contextArray j = l + 1 ↔ j ≠ i ∧ t.contextArray j = l + 1) := by
    intro j l hl
    rw [harray]
    by_cases hji : j = i
    · subst hji
      rw [Function.update_self]
      exact iff_of_false (hnew l hl) fun hj => hj.1 rfl
    · simp [hji]
  refine ⟨?_, ?_, ?_⟩
  · intro l
    rw [hset, Finset.mem_erase, h.used l]
    constructor
    · rintro ⟨hlk, j, hj⟩
      refine ⟨j, (hkept j l l.isLt).2 ⟨?_, hj⟩⟩
      rintro rfl
      exact hlk (Fin.val_injective (by omega))
    · rintro ⟨j, hj⟩
      obtain ⟨hji, hj⟩ := (hkept j l l.isLt).1 hj
      refine ⟨?_, j, hj⟩
      rintro rfl
      exact hji (h.once j i l hj hold l.isLt)
  · intro j j' l hj hj' hl
    exact h.once j j' l ((hkept j l hl).1 hj).2 ((hkept j' l hl).1 hj').2 hl
  · have hcard := h.free
    have hpos := Finset.card_pos.2 ⟨k, hk⟩
    rw [hset, Finset.card_erase_of_mem hk, hfree]
    omega

theorem vacantSlot_eq_some {k : SessionSlot} (h : t.vacantSlot = some k) : t.sessions k = none := by
  have hfind := List.find?_some h
  simpa using hfind

theorem Slotted.vacantSlot_ne_none (h : t.Slotted) (hfree : t.freeSessionSlots ≠ 0) : t.vacantSlot ≠ none := by
  intro hnone
  have hall : t.occupied = Finset.univ := by
    ext k
    have hk := List.find?_eq_none.1 hnone k (List.mem_finRange k)
    simpa [mem_occupied, Option.isSome_iff_ne_none] using hk
  have hcard := h.free
  rw [hall, Finset.card_univ, Fintype.card_fin] at hcard
  omega

end SessionTable

end PqcTpm
