import Mathlib.Data.List.Basic
import Mathlib.Tactic.Common

/-!
# Scanning a list of requests under a level

Requests are carried out one after the other on a state, up to the first that fails. A
request may ask for a level: the level of the whole list is the largest one asked for, and
no request may ask for more than a given maximum. A scan *settles* when what it did under a
maximum is done again under any maximum between the level it reached and that one; it
*forgets* when states that agree to begin with stay in agreement.
-/
namespace LevelScan

variable {τ σ ε : Type}

/-- The state and the level after a scan, and why it stopped early. -/
structure Result (σ ε : Type) where
  state : σ
  level : Nat
  error : Option ε

def scan (f : τ → σ → Nat → Result σ ε) : List τ → σ → Nat → Result σ ε
  | [], s, level => ⟨s, level, none⟩
  | t :: ts, s, level =>
    match (f t s level).error with
    | none => scan f ts (f t s level).state (f t s level).level
    | some _ => f t s level

section Scan
variable {f : τ → σ → Nat → Result σ ε} {t : τ} {ts : List τ} {s : σ} {level : Nat}

theorem scan_cons_ok (h : (f t s level).error = none) :
    scan f (t :: ts) s level = scan f ts (f t s level).state (f t s level).level := by
  rw [scan, h]

theorem scan_cons_error {e : ε} (h : (f t s level).error = some e) :
    scan f (t :: ts) s level = f t s level := by
  rw [scan, h]

theorem scan_cons_error_none (h : (scan f (t :: ts) s level).error = none) :
    (f t s level).error = none := by
  cases hs : (f t s level).error with
  | none => rfl
  | some e => rw [scan_cons_error hs, hs] at h; exact h

theorem scan_invariant {P : σ → Nat → Prop}
    (hf : ∀ t ∈ ts, ∀ s level, P s level → (f t s level).error = none →
      P (f t s level).state (f t s level).level)
    (hs : P s level) (h : (scan f ts s level).error = none) :
    P (scan f ts s level).state (scan f ts s level).level := by
  induction ts generalizing s level with
  | nil => exact hs
  | cons t ts ih =>
      have ht := scan_cons_error_none h
      rw [scan_cons_ok ht] at h ⊢
      exact ih (fun u hu => hf u (List.mem_cons_of_mem t hu)) (hf t List.mem_cons_self s level hs ht) h

/-- What every request keeps, successful or not, is kept by every scan. -/
theorem scan_keeps {P : σ → Nat → Prop}
    (hf : ∀ t ∈ ts, ∀ s level, P s level → P (f t s level).state (f t s level).level)
    (hs : P s level) : P (scan f ts s level).state (scan f ts s level).level := by
  induction ts generalizing s level with
  | nil => exact hs
  | cons t ts ih =>
      have hrest := fun u hu => hf u (List.mem_cons_of_mem t hu)
      cases ht : (f t s level).error with
      | none =>
          rw [scan_cons_ok ht]
          exact ih hrest (hf t List.mem_cons_self s level hs)
      | some e =>
          rw [scan_cons_error ht]
          exact hf t List.mem_cons_self s level hs

theorem scan_reaches (need : τ → Nat)
    (hf : ∀ t s level, (f t s level).error = none →
      level ≤ (f t s level).level ∧ need t ≤ (f t s level).level)
    (h : (scan f ts s level).error = none) :
    level ≤ (scan f ts s level).level ∧ ∀ t ∈ ts, need t ≤ (scan f ts s level).level := by
  induction ts generalizing s level with
  | nil => exact ⟨Nat.le_refl level, fun t ht => absurd ht List.not_mem_nil⟩
  | cons t ts ih =>
      have ht := scan_cons_error_none h
      rw [scan_cons_ok ht] at h ⊢
      obtain ⟨hle, hneed⟩ := hf t s level ht
      obtain ⟨hle', hneed'⟩ := ih h
      exact ⟨Nat.le_trans hle hle', List.forall_mem_cons.mpr ⟨Nat.le_trans hneed hle', hneed'⟩⟩

/-- Where a request is decided by itself, a list is accepted when each of its requests is. -/
theorem scan_ok_iff {P : τ → Prop} (hf : ∀ t s level, (f t s level).error = none ↔ P t) :
    (scan f ts s level).error = none ↔ ∀ t ∈ ts, P t := by
  induction ts generalizing s level with
  | nil => exact ⟨fun _ t ht => absurd ht List.not_mem_nil, fun _ => rfl⟩
  | cons t ts ih =>
      rw [List.forall_mem_cons, ← hf t s level]
      cases ht : (f t s level).error with
      | none =>
          rw [scan_cons_ok ht, ih]
          exact ⟨fun h => ⟨rfl, h⟩, fun h => h.2⟩
      | some e =>
          rw [scan_cons_error ht, ht]
          exact ⟨fun h => absurd h (Option.some_ne_none e), fun h => h.1⟩

theorem scan_state {g : σ → τ → σ} (hf : ∀ t s level, (f t s level).error = none → (f t s level).state = g s t)
    (h : (scan f ts s level).error = none) : (scan f ts s level).state = ts.foldl g s := by
  induction ts generalizing s level with
  | nil => rfl
  | cons t ts ih =>
      have ht := scan_cons_error_none h
      rw [scan_cons_ok ht] at h ⊢
      rw [ih h, hf t s level ht, List.foldl_cons]

end Scan

/-- Done again under a smaller maximum that the level reached does not exceed: the same state,
and no level above that maximum. -/
def Settles (f : Nat → σ → Nat → Result σ ε) : Prop :=
  ∀ ⦃max s level⦄, (f max s level).error = none →
    level ≤ (f max s level).level ∧
    ∀ m k, (f max s level).level ≤ m → m ≤ max → k ≤ m →
      (f m s k).error = none ∧ (f m s k).state = (f max s level).state ∧
        k ≤ (f m s k).level ∧ (f m s k).level ≤ m

theorem Settles.scan {f : Nat → τ → σ → Nat → Result σ ε} {ts : List τ}
    (hf : ∀ t ∈ ts, Settles fun max s level => f max t s level) :
    Settles fun max s level => LevelScan.scan (f max) ts s level := by
  induction ts with
  | nil =>
      intro max s level _
      exact ⟨Nat.le_refl level, fun m k _ _ hk => ⟨rfl, rfl, Nat.le_refl k, hk⟩⟩
  | cons t ts ih =>
      have iht := ih fun u hu => hf u (List.mem_cons_of_mem t hu)
      intro max s level h
      simp only at h ⊢
      have ht := scan_cons_error_none h
      rw [scan_cons_ok ht] at h ⊢
      obtain ⟨hle, hagain⟩ := hf t List.mem_cons_self ht
      obtain ⟨hle', hagain'⟩ := iht h
      refine ⟨Nat.le_trans hle hle', fun m k hm hmax hk => ?_⟩
      obtain ⟨hok, hst, hkl, hlm⟩ := hagain m k (Nat.le_trans hle' hm) hmax hk
      obtain ⟨hok', hst', hkl', hlm'⟩ := hagain' m _ hm hmax hlm
      rw [scan_cons_ok hok, hst]
      exact ⟨hok', hst', Nat.le_trans hkl hkl', hlm'⟩

/-- Results over states that agree: the same verdict and level. -/
structure Result.Agree (R : σ → σ → Prop) (r r' : Result σ ε) : Prop where
  state : R r.state r'.state
  level : r.level = r'.level
  error : r.error = r'.error

theorem scan_agree {R : σ → σ → Prop} {f : τ → σ → Nat → Result σ ε}
    (hf : ∀ t s s' level, R s s' → (f t s level).Agree R (f t s' level))
    {ts : List τ} {s s' : σ} {level : Nat} (h : R s s') :
    (scan f ts s level).Agree R (scan f ts s' level) := by
  induction ts generalizing s s' level with
  | nil => exact ⟨h, rfl, rfl⟩
  | cons t ts ih =>
      have ht := hf t s s' level h
      cases he : (f t s level).error with
      | none =>
          rw [scan_cons_ok he, scan_cons_ok (ht.error ▸ he), ← ht.level]
          exact ih ht.state
      | some e =>
          rw [scan_cons_error he, scan_cons_error (ht.error ▸ he)]
          exact ht

end LevelScan
