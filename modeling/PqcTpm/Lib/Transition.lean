import Mathlib.Tactic.Common

/-!
# Transition systems and fallible steps

Reachability under a step relation with the two rules that every safety proof
uses, runs as lists of actions under a partial step function, and the inversion
of a sequence of fallible computations.
-/
namespace Transition

section Reachability
variable {S : Type} {init : S → Prop} {step : S → S → Prop}

/-- Reached from an initial state in any number of steps. -/
inductive Reachable (init : S → Prop) (step : S → S → Prop) : S → Prop
  | init {s : S} (h : init s) : Reachable init step s
  | step {s s' : S} (h : Reachable init step s) (hs : step s s') : Reachable init step s'

/-- What holds at the start and survives every step holds wherever the system gets. -/
theorem Reachable.invariant {I : S → Prop} (hinit : ∀ s, init s → I s)
    (hstep : ∀ s s', I s → step s s' → I s') {s : S} (h : Reachable init step s) : I s := by
  induction h with
  | init h => exact hinit _ h
  | step _ hs ih => exact hstep _ _ ih hs

end Reachability

section Runs
variable {S A : Type} {step : S → A → S}

/-- The state after a list of actions. -/
def run (step : S → A → S) (s : S) (as : List A) : S := as.foldl step s

@[simp] theorem run_nil (s : S) : run step s [] = s := rfl

@[simp] theorem run_cons (s : S) (a : A) (as : List A) :
    run step s (a :: as) = run step (step s a) as := rfl

theorem run_append (s : S) (as bs : List A) :
    run step s (as ++ bs) = run step (run step s as) bs := List.foldl_append

/-- A property that every admitted action keeps is kept by every admitted run. -/
theorem run_invariant {I : S → Prop} {q : A → Prop}
    (hstep : ∀ s a, I s → q a → I (step s a)) {s : S} (hs : I s) {as : List A}
    (has : ∀ a ∈ as, q a) : I (run step s as) := by
  induction as generalizing s with
  | nil => exact hs
  | cons a as ih =>
      have ha := has a List.mem_cons_self
      exact ih (hstep s a hs ha) fun b hb => has b (List.mem_cons_of_mem a hb)

theorem Reachable.of_run {init : S → Prop} {s : S} (hs : init s) (as : List A) :
    Reachable init (fun s s' => ∃ a, s' = step s a) (run step s as) := by
  suffices h : ∀ s, Reachable init (fun s s' => ∃ a, s' = step s a) s →
      Reachable init (fun s s' => ∃ a, s' = step s a) (run step s as) from h s (.init hs)
  induction as with
  | nil =>
      intro s hs
      exact hs
  | cons a as ih =>
      intro s hs
      exact ih (step s a) (.step hs ⟨a, rfl⟩)

end Runs

section Fallible
variable {ε ε' α β : Type}

theorem bind_eq_ok {x : Except ε α} {f : α → Except ε β} {b : β} (h : (x >>= f) = .ok b) :
    ∃ a, x = .ok a ∧ f a = .ok b := by
  cases x with
  | error e => cases h
  | ok a => exact ⟨a, rfl, h⟩

theorem mapError_eq_ok {x : Except ε α} {f : ε → ε'} {a : α} (h : x.mapError f = .ok a) : x = .ok a := by
  cases x with
  | error e => cases h
  | ok b =>
      cases h
      rfl

theorem map_eq_ok {x : Except ε α} {f : α → β} {b : β} (h : (f <$> x) = .ok b) :
    ∃ a, x = .ok a ∧ f a = b := by
  cases x with
  | error e => cases h
  | ok a => exact ⟨a, rfl, Except.ok.inj h⟩

theorem foldlM_ok_iff {f : β → α → Except ε β} {P : α → Prop} (hf : ∀ s t, (∃ s', f s t = .ok s') ↔ P t)
    {ts : List α} {s : β} : (∃ s', ts.foldlM f s = .ok s') ↔ ∀ t ∈ ts, P t := by
  induction ts generalizing s with
  | nil => exact ⟨fun _ t ht => absurd ht List.not_mem_nil, fun _ => ⟨s, rfl⟩⟩
  | cons t ts ih =>
      rw [List.forall_mem_cons, List.foldlM_cons]
      constructor
      · rintro ⟨s', h⟩
        obtain ⟨u, hu, hrest⟩ := bind_eq_ok h
        exact ⟨(hf s t).mp ⟨u, hu⟩, ih.mp ⟨s', hrest⟩⟩
      · rintro ⟨ht, hts⟩
        obtain ⟨u, hu⟩ := (hf s t).mpr ht
        obtain ⟨s', hrest⟩ := ih.mpr hts
        refine ⟨s', ?_⟩
        rw [hu]
        exact hrest

theorem foldlM_invariant {f : β → α → Except ε β} {I : β → Prop} {ts : List α}
    (hf : ∀ t ∈ ts, ∀ s s', I s → f s t = .ok s' → I s') {s s' : β} (hs : I s)
    (h : ts.foldlM f s = .ok s') : I s' := by
  induction ts generalizing s with
  | nil =>
      obtain rfl := Except.ok.inj h
      exact hs
  | cons t ts ih =>
      rw [List.foldlM_cons] at h
      obtain ⟨u, hu, hrest⟩ := bind_eq_ok h
      exact ih (fun t' ht' => hf t' (List.mem_cons_of_mem t ht')) (hf t List.mem_cons_self s u hs hu) hrest

theorem foldlM_mem {f : β → α → Except ε β} {ts : List α} {t : α} (ht : t ∈ ts) {s s' : β}
    (h : ts.foldlM f s = .ok s') :
    ∃ before after s₁ s₂, ts = before ++ t :: after ∧ before.foldlM f s = .ok s₁ ∧ f s₁ t = .ok s₂ ∧
      after.foldlM f s₂ = .ok s' := by
  obtain ⟨before, after, rfl⟩ := List.append_of_mem ht
  rw [List.foldlM_append] at h
  obtain ⟨s₁, hbefore, h⟩ := bind_eq_ok h
  rw [List.foldlM_cons] at h
  obtain ⟨s₂, hstep, hafter⟩ := bind_eq_ok h
  exact ⟨before, after, s₁, s₂, rfl, hbefore, hstep, hafter⟩

theorem mapM_ok {f : α → Except ε β} {ts : List α} (hf : ∀ t ∈ ts, ∃ b, f t = .ok b) :
    ∃ bs, ts.mapM f = .ok bs := by
  induction ts with
  | nil => exact ⟨[], rfl⟩
  | cons t ts ih =>
      obtain ⟨b, hb⟩ := hf t List.mem_cons_self
      obtain ⟨bs, hbs⟩ := ih fun u hu => hf u (List.mem_cons_of_mem t hu)
      refine ⟨b :: bs, ?_⟩
      rw [List.mapM_cons, hb, hbs]
      rfl

end Fallible

end Transition
