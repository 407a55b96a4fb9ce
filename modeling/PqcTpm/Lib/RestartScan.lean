import Mathlib.Tactic.Common

/-!
# A scan that starts again after each deletion

The loop walks over the entries of a state; its body either goes on, or deletes
the entry it looks at and lets the walk begin again at the first entry, or stops
with an error. It ends because every restart has one entry less to look at.
-/

/-- A loop body over the entries of a state, with the promise that a deletion takes out the
entry looked at. -/
structure RestartScan (S E ε : Type) where
  entries : S → List E
  body : S → Nat → E → Except ε (Option S)
  erase : ∀ {s k e s'}, body s k e = .ok (some s') → entries s' = (entries s).eraseIdx k

namespace RestartScan
variable {S E ε : Type} (R : RestartScan S E ε)

/-- The loop, with the walk at position `k`. -/
def scanFrom (s : S) (k : Nat) : Except ε S :=
  match _hk : (R.entries s)[k]? with
  | none => .ok s
  | some e =>
      match hb : R.body s k e with
      | .error f => .error f
      | .ok none => scanFrom s (k + 1)
      | .ok (some s') => scanFrom s' 0
termination_by ((R.entries s).length, (R.entries s).length - k)
decreasing_by
  · have hlt := (List.getElem?_eq_some_iff.1 _hk).1
    exact Prod.Lex.right _ (by omega)
  · have hlt := (List.getElem?_eq_some_iff.1 _hk).1
    refine Prod.Lex.left _ _ ?_
    rw [R.erase hb, List.length_eraseIdx_of_lt hlt]
    omega

def scan (s : S) : Except ε S := R.scanFrom s 0

/-- The induction behind every fact about the loop: end of the walk, going on, deletion. -/
theorem scanFrom_induct {P : S → Nat → Prop}
    (last : ∀ s k, (R.entries s)[k]? = none → P s k)
    (fail : ∀ s k e f, (R.entries s)[k]? = some e → R.body s k e = .error f → P s k)
    (next : ∀ s k e, (R.entries s)[k]? = some e → R.body s k e = .ok none → P s (k + 1) → P s k)
    (delete : ∀ s k e s', (R.entries s)[k]? = some e → R.body s k e = .ok (some s') → P s' 0 → P s k)
    (s : S) (k : Nat) : P s k := by
  fun_induction R.scanFrom s k with
  | case1 s k hk => exact last s k hk
  | case2 s k e hk f hb => exact fail s k e f hk hb
  | case3 s k e hk hb ih => exact next s k e hk hb ih
  | case4 s k e hk s' hb ih => exact delete s k e s' hk hb ih

theorem scanFrom_last {s : S} {k : Nat} (hk : (R.entries s)[k]? = none) : R.scanFrom s k = .ok s := by
  rw [scanFrom]
  split
  · rfl
  · simp_all

theorem scanFrom_step {s : S} {k : Nat} {e : E} (hk : (R.entries s)[k]? = some e) :
    R.scanFrom s k =
      match R.body s k e with
      | .error f => .error f
      | .ok none => R.scanFrom s (k + 1)
      | .ok (some s') => R.scanFrom s' 0 := by
  rw [scanFrom]
  split
  · simp_all
  · rename_i e' hk'
    obtain rfl : e' = e := by simpa [hk] using hk'.symm
    split <;> rename_i hb <;> rw [hb]

/-- What every deletion keeps, the loop keeps. -/
theorem scan_invariant {I : S → Prop}
    (hdel : ∀ {s k e s'}, I s → (R.entries s)[k]? = some e → R.body s k e = .ok (some s') → I s')
    {s s' : S} (hs : I s) (h : R.scan s = .ok s') : I s' := by
  suffices hall : ∀ s k, I s → ∀ s', R.scanFrom s k = .ok s' → I s' from hall s 0 hs s' h
  refine R.scanFrom_induct ?_ ?_ ?_ ?_
  · intro s k hk hs s' h
    rw [R.scanFrom_last hk] at h
    cases h
    exact hs
  · intro s k e f hk hb hs s' h
    rw [R.scanFrom_step hk, hb] at h
    cases h
  · intro s k e hk hb ih hs s' h
    rw [R.scanFrom_step hk, hb] at h
    exact ih hs s' h
  · intro s k e t hk hb ih hs s' h
    rw [R.scanFrom_step hk, hb] at h
    exact ih (hdel hs hk hb) s' h

theorem scan_total {I : S → Prop}
    (hdel : ∀ {s k e s'}, I s → (R.entries s)[k]? = some e → R.body s k e = .ok (some s') → I s')
    (hbody : ∀ {s k e}, I s → (R.entries s)[k]? = some e → ∃ o, R.body s k e = .ok o)
    {s : S} (hs : I s) : ∃ s', R.scan s = .ok s' := by
  suffices hall : ∀ s k, I s → ∃ s', R.scanFrom s k = .ok s' from hall s 0 hs
  refine R.scanFrom_induct ?_ ?_ ?_ ?_
  · intro s k hk hs
    exact ⟨s, R.scanFrom_last hk⟩
  · intro s k e f hk hb hs
    obtain ⟨o, ho⟩ := hbody hs hk
    rw [hb] at ho
    cases ho
  · intro s k e hk hb ih hs
    rw [R.scanFrom_step hk, hb]
    exact ih hs
  · intro s k e t hk hb ih hs
    rw [R.scanFrom_step hk, hb]
    exact ih (hdel hs hk hb)

theorem filter_eraseIdx {keep : E → Bool} {l : List E} {k : Nat} {e : E} (hk : l[k]? = some e)
    (he : keep e = false) : (l.eraseIdx k).filter keep = l.filter keep := by
  induction l generalizing k with
  | nil => rfl
  | cons a l ih =>
      cases k with
      | zero =>
          obtain rfl : a = e := by simpa using hk
          simp only [List.eraseIdx_zero, List.tail_cons, List.filter_cons, he, Bool.false_eq_true, if_false]
      | succ k =>
          have hrec := ih (k := k) (by simpa using hk)
          simp only [List.eraseIdx_cons_succ, List.filter_cons, hrec]

/-- If the body deletes exactly the entries that `d` selects, so does the loop, and it
leaves the others in place and in order. -/
theorem scan_entries {d : E → Bool}
    (hsome : ∀ {s k e s'}, R.body s k e = .ok (some s') → d e = true)
    (hnone : ∀ {s k e}, R.body s k e = .ok none → d e = false)
    {s s' : S} (h : R.scan s = .ok s') : R.entries s' = (R.entries s).filter fun e => !d e := by
  suffices hall : ∀ s k, (∀ j < k, ∀ e, (R.entries s)[j]? = some e → d e = false) →
      ∀ s', R.scanFrom s k = .ok s' → R.entries s' = (R.entries s).filter fun e => !d e from
    hall s 0 (fun j hj => absurd hj (Nat.not_lt_zero j)) s' h
  refine R.scanFrom_induct ?_ ?_ ?_ ?_
  · intro s k hk hpre s' h
    rw [R.scanFrom_last hk] at h
    cases h
    refine (List.filter_eq_self.2 fun e he => ?_).symm
    obtain ⟨j, hj⟩ := List.mem_iff_getElem?.1 he
    have hjk : j < k := by
      by_contra hge
      rw [List.getElem?_eq_none_iff] at hk
      have hlt := (List.getElem?_eq_some_iff.1 hj).1
      omega
    rw [hpre j hjk e hj, Bool.not_false]
  · intro s k e f hk hb _ s' h
    rw [R.scanFrom_step hk, hb] at h
    cases h
  · intro s k e hk hb ih hpre s' h
    rw [R.scanFrom_step hk, hb] at h
    refine ih (fun j hj e' he' => ?_) s' h
    rcases Nat.lt_or_eq_of_le (Nat.le_of_lt_succ hj) with hlt | rfl
    · exact hpre j hlt e' he'
    · rw [hk] at he'
      cases he'
      exact hnone hb
  · intro s k e t hk hb ih _ s' h
    rw [R.scanFrom_step hk, hb] at h
    rw [ih (fun j hj => absurd hj (Nat.not_lt_zero j)) s' h, R.erase hb]
    exact filter_eraseIdx hk (by rw [hsome hb, Bool.not_true])

end RestartScan
