import PqcTpm.SessionProcess

/-!
# Dictionary attacks

What is asked before an authorization is compared (`CheckLockedOut`) beside what is counted
when the comparison fails (`IncrementLockout`). The first looks at the session that comes
with the handle and then at the handle; the second looks at the session and lets a session
that is bound to lockout take precedence. They meet in every run that starts sessions,
uses, saves, loads and flushes them, but for one kind of session.
-/
namespace PqcTpm
open ByteCodec Transition

variable {σ : Type} {W : AuthWorld}

/-! ## What an authorization stands on -/

namespace Evaluation

/-- `lockoutAuth` goes into the comparison, or went into the key of the session. -/
def UsesLockoutAuth (e : Evaluation σ) : Prop :=
  (e.authUsed = true ∧ e.handle = TpmHandle.rhLockout) ∨
    ∃ x, e.session = some x ∧ x.attributes.isLockoutBound = true

/-- The same of the authorization value of another entity that is protected. -/
def UsesDaAuth (e : Evaluation σ) : Prop :=
  (e.authUsed = true ∧ e.handle ≠ TpmHandle.rhLockout ∧ isDaExempted e.before.toTpmState e.handle = .ok false) ∨
    ∃ x, e.session = some x ∧ x.attributes.isDaBound = true ∧ x.attributes.isLockoutBound = false

/-- What `IncrementLockout` decides on. -/
def lockoutHandle (e : Evaluation σ) : Except Fault (Option TpmHandle) :=
  PqcTpm.lockoutHandle e.before.toTpmState e.handle (AuthState.authSession e.use e.before)

/-- A comparison is accounted for. One that uses `lockoutAuth` counts against that, whatever else it uses. -/
structure Accounted (e : Evaluation σ) : Prop where
  asserted : e.use.genuine = false → e.lockoutHandle = .ok (some TpmHandle.rhLockout) →
    e.before.lockOutAuthEnabled = true
  daGate : e.UsesDaAuth → e.before.failedTries < e.before.maxTries
  lockoutGate : e.UsesLockoutAuth → e.before.lockOutAuthEnabled = true
  daCounted : e.use.genuine = false → e.UsesDaAuth → ¬ e.UsesLockoutAuth → e.before.recoveryTime ≠ 0 →
    e.outcome.2.failedTries = e.before.failedTries + 1
  lockoutCounted : e.use.genuine = false → e.UsesLockoutAuth → e.outcome.2.lockOutAuthEnabled = false

end Evaluation

namespace AuthState

/-- A session whose key comes from a protected entity other than lockout fails to authorize
`TPM_RH_LOCKOUT`, and `lockoutAuth` is not in its HMAC. -/
def Misattributed (W : AuthWorld) (handle : TpmHandle) (u : SessionUse) (s : AuthState σ) : Prop :=
  handle = TpmHandle.rhLockout ∧ u.genuine = false ∧
    ∃ x, useSession u s = some x ∧ x.attributes.isDaBound = true ∧ x.attributes.isLockoutBound = false ∧
      authUsed W handle u (some x) = false

/-! ## The gate -/

/-- Protection by `failedTries`, or by `lockOutAuthEnabled`, is not in effect. -/
def Open (lockoutAuthCheck : Bool) (s : AuthState σ) : Prop :=
  if lockoutAuthCheck then s.lockOutAuthEnabled = true else s.failedTries < s.maxTries

theorem checkLockedOut_state (b : Bool) (s : AuthState σ) :
    ∃ daPendingOnNv daUsed orderly, (orderly = true → s.orderly = true) ∧
      (checkLockedOut b s).2 = { s with daPendingOnNv := daPendingOnNv, daUsed := daUsed, orderly := orderly } := by
  unfold checkLockedOut
  dsimp only
  repeat' split
  all_goals first
    | exact ⟨_, _, s.orderly, id, rfl⟩
    | exact ⟨_, _, false, nofun, rfl⟩

theorem checkLockedOut_open {b : Bool} {s : AuthState σ} {u : Unit} (h : (checkLockedOut b s).1 = .ok u) :
    s.Open b := by
  cases b with
  | true =>
      have henabled : s.lockOutAuthEnabled = true := by
        by_contra hno
        rw [Bool.not_eq_true] at hno
        revert h
        unfold checkLockedOut
        repeat' split
        all_goals simp_all
      exact henabled
  | false =>
      have htries : s.failedTries < s.maxTries := by
        by_contra hno
        rw [Nat.not_lt] at hno
        revert h
        unfold checkLockedOut
        repeat' split
        all_goals simp_all
      exact htries

end AuthState

namespace Session

/-- The session with another value of `includeAuth`. -/
def including (includeAuth : Bool) (x : Session) : Session :=
  { x with attributes := { x.attributes with includeAuth } }

@[simp] theorem including_including (a b : Bool) (x : Session) : (x.including a).including b = x.including b := rfl

theorem eq_including {x y : Session} (h : x.including false = y.including false) : ∃ b, y = x.including b := by
  refine ⟨y.attributes.includeAuth, ?_⟩
  rw [← including_including false, h]
  rfl

end Session

namespace AuthState

/-- The sessions are the same but for `includeAuth`. -/
def SameSessions (s s' : AuthState σ) : Prop :=
  ∀ h, (s'.sessions h).map (Session.including false) = (s.sessions h).map (Session.including false)

theorem SameSessions.trans {s s' s'' : AuthState σ} (h : SameSessions s s') (h' : SameSessions s' s'') :
    SameSessions s s'' :=
  fun handle => (h' handle).trans (h handle)

theorem setIncludeAuth_same (u : SessionUse) (b : Bool) (s : AuthState σ) : SameSessions s (setIncludeAuth u b s) := by
  intro h
  unfold setIncludeAuth
  split
  · rfl
  · rename_i x hx
    by_cases hh : h = u.handle
    · subst hh
      have hs : s.sessions u.handle = some x := by
        unfold useSession at hx
        split at hx
        · cases hx
        · exact hx
      simp only [setSession, Function.update_self, hs]
      rfl
    · simp only [setSession, Function.update_of_ne hh]

theorem useSession_setIncludeAuth (u : SessionUse) (b : Bool) (s : AuthState σ) :
    useSession u (setIncludeAuth u b s) = (useSession u s).map (Session.including b) := by
  by_cases hp : u.isPassword = true
  · simp [useSession, hp]
  · cases hx : s.sessions u.handle with
    | none => simp [setIncludeAuth, useSession, hp, hx]
    | some x =>
        simp [setIncludeAuth, useSession, hp, hx, setSession]
        rfl

theorem authUsed_including (handle : TpmHandle) (u : SessionUse) (b : Bool) (x : Option Session) :
    authUsed W handle u (x.map (Session.including b)) = authUsed W handle u x := by
  cases x <;> rfl

/-- What the gate leaves alone. -/
structure Passes (s s' : AuthState σ) : Prop where
  sessions : SameSessions s s'
  failedTries : s'.failedTries = s.failedTries
  maxTries : s'.maxTries = s.maxTries
  lockOutAuthEnabled : s'.lockOutAuthEnabled = s.lockOutAuthEnabled
  nv : s'.nv = s.nv
  slots : s'.slots = s.slots
  clearOrderly : s'.clearOrderly = s.clearOrderly
  orderly : s'.orderly = true → s.orderly = true

namespace Passes
variable {s s' s'' : AuthState σ}

theorem refl (s : AuthState σ) : Passes s s := ⟨fun _ => rfl, rfl, rfl, rfl, rfl, rfl, rfl, id⟩

theorem trans (h : Passes s s') (h' : Passes s' s'') : Passes s s'' where
  sessions := h.sessions.trans h'.sessions
  failedTries := h'.failedTries.trans h.failedTries
  maxTries := h'.maxTries.trans h.maxTries
  lockOutAuthEnabled := h'.lockOutAuthEnabled.trans h.lockOutAuthEnabled
  nv := h'.nv.trans h.nv
  slots := h'.slots.trans h.slots
  clearOrderly := h'.clearOrderly.trans h.clearOrderly
  orderly := fun ho => h.orderly (h'.orderly ho)

theorem isOpen (h : Passes s s') {b : Bool} (hopen : s.Open b) : s'.Open b := by
  cases b with
  | true => exact h.lockOutAuthEnabled.trans hopen
  | false =>
      have hlt : s.failedTries < s.maxTries := hopen
      rw [← h.failedTries, ← h.maxTries] at hlt
      exact hlt

theorem isDaExempted (h : Passes s s') (handle : TpmHandle) :
    PqcTpm.isDaExempted s'.toTpmState handle = PqcTpm.isDaExempted s.toTpmState handle := by
  unfold PqcTpm.isDaExempted TpmState.handleToObject
  rw [h.slots, h.nv]

end Passes

theorem checkLockedOut_passes (b : Bool) (s : AuthState σ) : Passes s (checkLockedOut b s).2 := by
  obtain ⟨daPendingOnNv, daUsed, orderly, horderly, h⟩ := checkLockedOut_state b s
  rw [h]
  exact ⟨fun _ => rfl, rfl, rfl, rfl, rfl, rfl, rfl, horderly⟩

theorem useSession_checkLockedOut (u : SessionUse) (b : Bool) (s : AuthState σ) :
    useSession u (checkLockedOut b s).2 = useSession u s := by
  obtain ⟨daPendingOnNv, daUsed, orderly, -, h⟩ := checkLockedOut_state b s
  rw [h]
  rfl

theorem setIncludeAuth_passes (u : SessionUse) (b : Bool) (s : AuthState σ) : Passes s (setIncludeAuth u b s) := by
  have hstate : ∃ sessions, setIncludeAuth u b s = { s with sessions } := by
    unfold setIncludeAuth
    split
    · exact ⟨_, rfl⟩
    · exact ⟨_, rfl⟩
  obtain ⟨sessions, hsessions⟩ := hstate
  have hsame := setIncludeAuth_same u b s
  rw [hsessions] at hsame ⊢
  exact ⟨hsame, rfl, rfl, rfl, rfl, rfl, rfl, id⟩

/-- An authorization that has come through to its comparison. -/
structure Gated (W : AuthWorld) (handle : TpmHandle) (u : SessionUse) (used : Bool) (s s' : AuthState σ) : Prop where
  passes : Passes s s'
  assigned : handle ≠ TpmHandle.rhUnassigned → used = authUsed W handle u (useSession u s)
  session : useSession u s' = (useSession u s).map (Session.including used)
  bound : ∀ x, useSession u s = some x → x.attributes.isDaBound = true → s'.Open x.attributes.isLockoutBound
  direct : used = true → isDaExempted s'.toTpmState handle = .ok true ∨
    isDaExempted s'.toTpmState handle = .ok false ∧ s'.Open (handle == TpmHandle.rhLockout)

theorem checkEntityLockedOut_ok {used : Bool} {handle : TpmHandle} {s s' : AuthState σ} {x : Unit}
    (h : checkEntityLockedOut used handle s = (.ok x, s')) :
    Passes s s' ∧ (∀ u, useSession u s' = useSession u s) ∧
      (used = true → isDaExempted s'.toTpmState handle = .ok true ∨
        isDaExempted s'.toTpmState handle = .ok false ∧ s'.Open (handle == TpmHandle.rhLockout)) := by
  unfold checkEntityLockedOut at h
  cases used with
  | false =>
      cases h
      exact ⟨.refl s, fun _ => rfl, nofun⟩
  | true =>
      rw [if_pos rfl] at h
      split at h
      · cases h
      · rename_i hexempt
        cases h
        exact ⟨.refl s, fun _ => rfl, fun _ => .inl hexempt⟩
      · rename_i hexempt
        have hpasses := checkLockedOut_passes (handle == TpmHandle.rhLockout) s
        have hsession := fun u => useSession_checkLockedOut u (handle == TpmHandle.rhLockout) s
        have hopen : s.Open (handle == TpmHandle.rhLockout) := checkLockedOut_open (congrArg Prod.fst h)
        rw [h] at hpasses hsession
        exact ⟨hpasses, hsession, fun _ => .inr ⟨(hpasses.isDaExempted handle).trans hexempt, hpasses.isOpen hopen⟩⟩

theorem authGate_gated {c : CommandRow} {role : AuthRole} {handle : TpmHandle} {u : SessionUse} {used : Bool}
    {s s' : AuthState σ} (h : authGate W c role handle u s = (.ok used, s'))
    (hbound : ∀ x, useSession u s = some x → x.attributes.isDaBound = true → s.Open x.attributes.isLockoutBound) :
    Gated W handle u used s s' := by
  unfold authGate at h
  split at h
  · cases h
  · dsimp only at h
    split at h
    · cases h
    · rename_i hcheck
      split at h
      · cases h
      · cases h
        obtain ⟨hpasses, hsession, hdirect⟩ := checkEntityLockedOut_ok hcheck
        have hall := (setIncludeAuth_passes u _ s).trans hpasses
        exact ⟨hall, fun _ => rfl, (hsession u).trans (useSession_setIncludeAuth u _ s),
          fun x hx hda => hall.isOpen (hbound x hx hda), hdirect⟩

theorem sessionGate_gated {c : CommandRow} {role : AuthRole} {handle : TpmHandle} {u : SessionUse} {used : Bool}
    {s s' : AuthState σ} (h : sessionGate W c role handle u s = (.ok used, s')) : Gated W handle u used s s' := by
  unfold sessionGate at h
  split at h
  · rename_i hpassword
    split at h
    · cases h
    · split at h
      · cases h
      · exact authGate_gated h fun x hx => by simp [useSession, hpassword] at hx
  · rename_i hpassword
    split at h
    · cases h
    · rename_i x hx
      have huse : useSession u s = some x := by simp [useSession, hpassword, hx]
      split at h
      · cases h
      · split at h
        · cases h
        · rename_i s₁ hcheck
          -- the session's own binding has been checked in `s`, and the check changes nothing that matters
          have hfirst : Passes s s₁ ∧ useSession u s₁ = useSession u s ∧
              (x.attributes.isDaBound = true → s₁.Open x.attributes.isLockoutBound) := by
            split at hcheck
            · have hpasses := checkLockedOut_passes x.attributes.isLockoutBound s
              have hsession := useSession_checkLockedOut u x.attributes.isLockoutBound s
              have hopen : s.Open x.attributes.isLockoutBound := checkLockedOut_open (congrArg Prod.fst hcheck)
              rw [hcheck] at hpasses hsession
              exact ⟨hpasses, hsession, fun _ => hpasses.isOpen hopen⟩
            · rename_i hunbound
              cases hcheck
              exact ⟨.refl s, rfl, fun hda => absurd hda hunbound⟩
          obtain ⟨hpasses, hsession, hopen⟩ := hfirst
          have hbound : ∀ y, useSession u s₁ = some y → y.attributes.isDaBound = true →
              s₁.Open y.attributes.isLockoutBound := by
            intro y hy
            rw [hsession, huse] at hy
            cases hy
            exact hopen
          split at h
          · have hgated := authGate_gated h hbound
            refine ⟨hpasses.trans hgated.passes, fun hne => ?_, ?_, fun y hy => ?_, hgated.direct⟩
            · rw [hgated.assigned hne, hsession]
            · rw [hgated.session, hsession]
            · exact hgated.bound y (hsession.trans hy)
          · rename_i hunassigned
            split at h
            · cases h
              have hset := setIncludeAuth_passes u false s₁
              refine ⟨hpasses.trans hset, fun hne => absurd hne hunassigned, ?_, fun y hy hda => ?_, nofun⟩
              · rw [useSession_setIncludeAuth, hsession]
              · exact hset.isOpen (hbound y (hsession.trans hy) hda)
            · cases h

end AuthState

/-! ## The accounting -/

namespace AuthState

theorem countPin_state {handle : TpmHandle} {success : Bool} {s s' : AuthState σ}
    (h : countPin handle success s = .ok s') :
    ∃ nv clearOrderly, s' = { s with nv := nv, clearOrderly := clearOrderly } := by
  unfold countPin at h
  split at h
  · cases h
    exact ⟨s.nv, s.clearOrderly, rfl⟩
  · split at h
    · cases h
    · split at h
      · obtain ⟨v, -, rfl⟩ := map_eq_ok h
        exact ⟨_, _, rfl⟩
      · cases h
        exact ⟨s.nv, s.clearOrderly, rfl⟩

theorem evaluate_state (handle : TpmHandle) (u : SessionUse) (used : Bool) (s : AuthState σ) :
    ∃ nv clearOrderly, (evaluate handle u used s).2 =
      { (compareAuth handle u s).2 with nv := nv, clearOrderly := clearOrderly } := by
  unfold evaluate
  split
  · rename_i hcompare
    rw [hcompare]
    exact ⟨_, _, rfl⟩
  · rename_i result s' _ hcompare
    rw [hcompare]
    split
    · split
      · exact ⟨_, _, rfl⟩
      · rename_i hcount
        exact countPin_state hcount
    · exact ⟨_, _, rfl⟩

theorem evaluate_failedTries (handle : TpmHandle) (used : Bool) (s : AuthState σ) {u : SessionUse}
    (h : u.genuine = false) :
    (evaluate handle u used s).2.failedTries = (incrementLockout handle (authSession u s) s.toTpmState).2.failedTries := by
  obtain ⟨nv, clearOrderly, hs⟩ := evaluate_state handle u used s
  rw [hs, compareAuth, h]
  rfl

theorem evaluate_lockOutAuthEnabled (handle : TpmHandle) (used : Bool) (s : AuthState σ) {u : SessionUse}
    (h : u.genuine = false) :
    (evaluate handle u used s).2.lockOutAuthEnabled =
      (incrementLockout handle (authSession u s) s.toTpmState).2.lockOutAuthEnabled := by
  obtain ⟨nv, clearOrderly, hs⟩ := evaluate_state handle u used s
  rw [hs, compareAuth, h]
  rfl

end AuthState

theorem isDaExempted_lockout (s : TpmState σ) : isDaExempted s TpmHandle.rhLockout = .ok false := by
  rw [isDaExempted, if_pos (by decide)]
  rfl

namespace Evaluation
variable {e : Evaluation σ}

theorem lockoutHandle_password (h : e.session = none) {exempted : Bool}
    (hexempt : isDaExempted e.before.toTpmState e.handle = .ok exempted) :
    e.lockoutHandle = .ok (if exempted then none else some e.handle) := by
  unfold lockoutHandle AuthState.authSession
  unfold session at h
  rw [h, PqcTpm.lockoutHandle, hexempt]
  rfl

theorem lockoutHandle_bound {x : Session} (h : e.session = some x) (hda : x.attributes.isDaBound = true) :
    e.lockoutHandle = .ok (some (if x.attributes.isLockoutBound then TpmHandle.rhLockout else e.handle)) := by
  unfold lockoutHandle AuthState.authSession
  unfold session at h
  simp only [h, PqcTpm.lockoutHandle, hda, if_true]
  rfl

theorem lockoutHandle_unbound {x : Session} (h : e.session = some x) (hda : x.attributes.isDaBound = false)
    (hlockout : x.attributes.isLockoutBound = false) {exempted : Bool}
    (hexempt : isDaExempted e.before.toTpmState e.handle = .ok exempted) :
    e.lockoutHandle = .ok (if exempted || !x.attributes.includeAuth then none else some e.handle) := by
  unfold lockoutHandle AuthState.authSession
  unfold session at h
  simp only [h, PqcTpm.lockoutHandle, hda, hlockout, hexempt, Bool.false_eq_true, if_false]
  rfl

/-- What the gate, and the way sessions are made, have established when the comparison is made. -/
structure Settled (e : Evaluation σ) : Prop where
  password : e.session = none → e.handle ≠ TpmHandle.rhUnassigned → e.authUsed = true
  flag : ∀ x, e.session = some x → x.attributes.includeAuth = e.authUsed
  lockout : ∀ x, e.session = some x → x.attributes.isLockoutBound = true → x.attributes.isDaBound = true
  bound : ∀ x, e.session = some x → x.attributes.isDaBound = true → e.before.Open x.attributes.isLockoutBound
  direct : e.authUsed = true → isDaExempted e.before.toTpmState e.handle = .ok true ∨
    isDaExempted e.before.toTpmState e.handle = .ok false ∧ e.before.Open (e.handle == TpmHandle.rhLockout)

/-- The one case in which the two sides differ. -/
def Stray (e : Evaluation σ) : Prop :=
  e.handle = TpmHandle.rhLockout ∧ e.authUsed = false ∧
    ∃ x, e.session = some x ∧ x.attributes.isDaBound = true ∧ x.attributes.isLockoutBound = false

namespace Settled
variable (h : e.Settled)
include h

theorem isDaExempted_false (hused : e.authUsed = true) (hhandle : e.handle = TpmHandle.rhLockout) :
    isDaExempted e.before.toTpmState e.handle = .ok false ∧ e.before.Open true := by
  have hexempt := isDaExempted_lockout e.before.toTpmState
  obtain hdirect | ⟨hdirect, hopen⟩ := h.direct hused
  · rw [hhandle, hexempt] at hdirect
    cases hdirect
  · rw [hhandle] at hopen
    exact ⟨hdirect, hopen⟩

theorem lockoutGate (huses : e.UsesLockoutAuth) : e.before.lockOutAuthEnabled = true := by
  obtain ⟨hused, hhandle⟩ | ⟨x, hx, hlockout⟩ := huses
  · exact (h.isDaExempted_false hused hhandle).2
  · have hopen := h.bound x hx (h.lockout x hx hlockout)
    rw [hlockout] at hopen
    exact hopen

theorem daGate (huses : e.UsesDaAuth) : e.before.failedTries < e.before.maxTries := by
  obtain ⟨hused, hne, hexempt⟩ | ⟨x, hx, hda, hlockout⟩ := huses
  · obtain hdirect | ⟨-, hopen⟩ := h.direct hused
    · rw [hexempt] at hdirect
      cases hdirect
    · rw [beq_false_of_ne hne] at hopen
      exact hopen
  · have hopen := h.bound x hx hda
    rw [hlockout] at hopen
    exact hopen

/-- A failure counts against lockout if `lockoutAuth` was used. -/
theorem lockoutHandle_lockout (huses : e.UsesLockoutAuth) : e.lockoutHandle = .ok (some TpmHandle.rhLockout) := by
  cases hx : e.session with
  | none =>
      obtain ⟨hused, hhandle⟩ | ⟨x, hsome, -⟩ := huses
      · rw [lockoutHandle_password hx (h.isDaExempted_false hused hhandle).1, hhandle]
        rfl
      · rw [hx] at hsome
        cases hsome
  | some x =>
      cases hda : x.attributes.isDaBound with
      | true =>
          rw [lockoutHandle_bound hx hda]
          obtain ⟨-, hhandle⟩ | ⟨y, hy, hlockout⟩ := huses
          · rw [hhandle, ite_self]
          · rw [hx] at hy
            cases hy
            rw [if_pos hlockout]
      | false =>
          have hlockout : x.attributes.isLockoutBound = false := by
            by_contra hne
            have := h.lockout x hx (Bool.of_not_eq_false hne)
            rw [hda] at this
            cases this
          obtain ⟨hused, hhandle⟩ | ⟨y, hy, hlock⟩ := huses
          · rw [lockoutHandle_unbound hx hda hlockout (h.isDaExempted_false hused hhandle).1, h.flag x hx, hused, hhandle]
            rfl
          · rw [hx] at hy
            cases hy
            rw [hlockout] at hlock
            cases hlock

/-- A failure counts against another entity if a protected value was used that is not `lockoutAuth`. -/
theorem lockoutHandle_da (huses : e.UsesDaAuth) (hnot : ¬ e.UsesLockoutAuth) (hstray : ¬ e.Stray) :
    ∃ handle ≠ TpmHandle.rhLockout, e.lockoutHandle = .ok (some handle) := by
  cases hx : e.session with
  | none =>
      obtain ⟨-, hne, hexempt⟩ | ⟨x, hsome, -⟩ := huses
      · exact ⟨e.handle, hne, lockoutHandle_password hx hexempt⟩
      · rw [hx] at hsome
        cases hsome
  | some x =>
      have hlockout : x.attributes.isLockoutBound = false := by
        by_contra hne
        exact hnot (.inr ⟨x, hx, Bool.of_not_eq_false hne⟩)
      cases hda : x.attributes.isDaBound with
      | true =>
          have hne : e.handle ≠ TpmHandle.rhLockout := by
            intro hhandle
            cases hused : e.authUsed with
            | true => exact hnot (.inl ⟨hused, hhandle⟩)
            | false => exact hstray ⟨hhandle, hused, x, hx, hda, hlockout⟩
          refine ⟨e.handle, hne, ?_⟩
          rw [lockoutHandle_bound hx hda, hlockout]
          rfl
      | false =>
          obtain ⟨hused, hne, hexempt⟩ | ⟨y, hy, hbound, -⟩ := huses
          · refine ⟨e.handle, hne, ?_⟩
            rw [lockoutHandle_unbound hx hda hlockout hexempt, h.flag x hx, hused]
            rfl
          · rw [hx] at hy
            cases hy
            rw [hda] at hbound
            cases hbound

/-- Where a failure counts against lockout, `lockoutAuth` was used. -/
theorem usesLockoutAuth (hstray : ¬ e.Stray) (hhandle : e.lockoutHandle = .ok (some TpmHandle.rhLockout)) :
    e.UsesLockoutAuth := by
  cases hx : e.session with
  | none =>
      have hlock : e.handle = TpmHandle.rhLockout := by
        unfold lockoutHandle AuthState.authSession at hhandle
        unfold session at hx
        rw [hx] at hhandle
        obtain ⟨exempted, -, hsome⟩ := bind_eq_ok hhandle
        cases exempted with
        | true => cases hsome
        | false => exact Option.some.inj (Except.ok.inj hsome)
      refine .inl ⟨h.password hx ?_, hlock⟩
      rw [hlock]
      decide
  | some x =>
      cases hlockout : x.attributes.isLockoutBound with
      | true => exact .inr ⟨x, hx, hlockout⟩
      | false =>
          cases hda : x.attributes.isDaBound with
          | true =>
              rw [lockoutHandle_bound hx hda, hlockout] at hhandle
              have hlock : e.handle = TpmHandle.rhLockout := Option.some.inj (Except.ok.inj hhandle)
              cases hused : e.authUsed with
              | true => exact .inl ⟨hused, hlock⟩
              | false => exact absurd ⟨hlock, hused, x, hx, hda, hlockout⟩ hstray
          | false =>
              cases hexempt : isDaExempted e.before.toTpmState e.handle with
              | error fault =>
                  unfold lockoutHandle AuthState.authSession at hhandle
                  unfold session at hx
                  simp only [hx, PqcTpm.lockoutHandle, hda, hlockout, Bool.false_eq_true, if_false, hexempt] at hhandle
                  cases hhandle
              | ok exempted =>
                  rw [lockoutHandle_unbound hx hda hlockout hexempt, h.flag x hx] at hhandle
                  split at hhandle
                  · cases hhandle
                  · rename_i hcase
                    refine .inl ⟨?_, Option.some.inj (Except.ok.inj hhandle)⟩
                    simp only [Bool.or_eq_true, Bool.not_eq_true', not_or, Bool.not_eq_false] at hcase
                    exact hcase.2

theorem daCounted (hfailed : e.use.genuine = false) (huses : e.UsesDaAuth) (hnot : ¬ e.UsesLockoutAuth)
    (hstray : ¬ e.Stray) (hrecovery : e.before.recoveryTime ≠ 0) :
    e.outcome.2.failedTries = e.before.failedTries + 1 := by
  obtain ⟨handle, hne, hhandle⟩ := h.lockoutHandle_da huses hnot hstray
  unfold lockoutHandle at hhandle
  rw [outcome, AuthState.evaluate_failedTries _ _ _ hfailed, incrementLockout, hhandle]
  simp only [if_neg hne, if_pos hrecovery]

theorem lockoutCounted (hfailed : e.use.genuine = false) (huses : e.UsesLockoutAuth) :
    e.outcome.2.lockOutAuthEnabled = false := by
  have hhandle := h.lockoutHandle_lockout huses
  unfold lockoutHandle at hhandle
  rw [outcome, AuthState.evaluate_lockOutAuthEnabled _ _ _ hfailed, incrementLockout, hhandle]
  simp only [if_true, h.lockoutGate huses]

theorem accounted (hstray : e.use.genuine = false → ¬ e.Stray) : e.Accounted where
  asserted hfailed hhandle := h.lockoutGate (h.usesLockoutAuth (hstray hfailed) hhandle)
  daGate := h.daGate
  lockoutGate := h.lockoutGate
  daCounted hfailed huses hnot := h.daCounted hfailed huses hnot (hstray hfailed)
  lockoutCounted := h.lockoutCounted

end Settled
end Evaluation

namespace AuthState

/-- A session that is bound to lockout is bound to something that is protected. -/
def Consistent (s : AuthState σ) : Prop :=
  ∀ h x, s.sessions h = some x → x.attributes.isLockoutBound = true → x.attributes.isDaBound = true

theorem useSession_sessions {u : SessionUse} {s : AuthState σ} {x : Session} (h : useSession u s = some x) :
    s.sessions u.handle = some x := by
  unfold useSession at h
  split at h
  · cases h
  · exact h

theorem Gated.settled {handle : TpmHandle} {u : SessionUse} {used : Bool} {s s' : AuthState σ}
    (h : Gated W handle u used s s') (hs : s.Consistent) : (Evaluation.mk handle u used s').Settled := by
  have hsession : ∀ y, useSession u s' = some y → ∃ x, useSession u s = some x ∧ y = x.including used := by
    intro y hy
    rw [h.session] at hy
    obtain ⟨x, hx, rfl⟩ := Option.map_eq_some_iff.1 hy
    exact ⟨x, hx, rfl⟩
  refine ⟨fun hnone hne => ?_, fun y hy => ?_, fun y hy hlockout => ?_, fun y hy hda => ?_, h.direct⟩
  · have hnone' : useSession u s = none := Option.map_eq_none_iff.1 (h.session.symm.trans hnone)
    have hused := h.assigned hne
    rw [hnone'] at hused
    exact hused
  · obtain ⟨x, -, rfl⟩ := hsession y hy
    rfl
  · obtain ⟨x, hx, rfl⟩ := hsession y hy
    exact hs u.handle x (useSession_sessions hx) hlockout
  · obtain ⟨x, hx, rfl⟩ := hsession y hy
    exact h.bound x hx hda

theorem Gated.not_stray {handle : TpmHandle} {u : SessionUse} {used : Bool} {s s' : AuthState σ}
    (h : Gated W handle u used s s') (hm : ¬ Misattributed W handle u s) (hfailed : u.genuine = false) :
    ¬ (Evaluation.mk handle u used s').Stray := by
  rintro ⟨hhandle, hused, y, hy, hda, hlockout⟩
  have hsession := h.session.symm.trans hy
  obtain ⟨x, hx, rfl⟩ := Option.map_eq_some_iff.1 hsession
  refine hm ⟨hhandle, hfailed, x, hx, hda, hlockout, ?_⟩
  have hassigned : handle ≠ TpmHandle.rhUnassigned := by
    have hne : TpmHandle.rhUnassigned ≠ TpmHandle.rhLockout := by decide
    exact fun hu => hne (hu.symm.trans hhandle)
  rw [← hx, ← h.assigned hassigned]
  exact hused

/-! ## A whole command -/

theorem SameSessions.consistent {s s' : AuthState σ} (h : SameSessions s s') (hs : s.Consistent) : s'.Consistent := by
  intro handle y hy hlockout
  have hsame := h handle
  rw [hy] at hsame
  obtain ⟨x, hx, hxy⟩ := Option.map_eq_some_iff.1 hsame.symm
  obtain ⟨b, rfl⟩ := Session.eq_including hxy
  exact hs handle x hx hlockout

theorem SameSessions.useSession {s s' : AuthState σ} (h : SameSessions s s') (u : SessionUse) :
    (AuthState.useSession u s').map (Session.including false) =
      (AuthState.useSession u s).map (Session.including false) := by
  unfold AuthState.useSession
  split
  · rfl
  · exact h u.handle

theorem SameSessions.misattributed {s s' : AuthState σ} (h : SameSessions s s') {handle : TpmHandle} {u : SessionUse}
    (hm : Misattributed W handle u s') : Misattributed W handle u s := by
  obtain ⟨hhandle, hfailed, y, hy, hda, hlockout, hused⟩ := hm
  have hsame := h.useSession u
  rw [hy] at hsame
  obtain ⟨x, hx, hxy⟩ := Option.map_eq_some_iff.1 hsame.symm
  obtain ⟨b, rfl⟩ := Session.eq_including hxy
  exact ⟨hhandle, hfailed, x, hx, hda, hlockout, hused⟩

theorem checkEntityLockedOut_passes (used : Bool) (handle : TpmHandle) (s : AuthState σ) :
    Passes s (checkEntityLockedOut used handle s).2 := by
  unfold checkEntityLockedOut
  split
  · split
    · exact .refl s
    · exact .refl s
    · exact checkLockedOut_passes _ s
  · exact .refl s

theorem authGate_passes (c : CommandRow) (role : AuthRole) (handle : TpmHandle) (u : SessionUse) (s : AuthState σ) :
    Passes s (authGate W c role handle u s).2 := by
  unfold authGate
  split
  · exact .refl s
  · dsimp only
    have hset := setIncludeAuth_passes u (authUsed W handle u (useSession u s)) s
    have hcheck := hset.trans (checkEntityLockedOut_passes (authUsed W handle u (useSession u s)) handle _)
    split
    · rename_i heq
      rw [heq] at hcheck
      exact hcheck
    · rename_i heq
      rw [heq] at hcheck
      split
      · exact hcheck
      · exact hcheck

theorem sessionGate_passes (c : CommandRow) (role : AuthRole) (handle : TpmHandle) (u : SessionUse) (s : AuthState σ) :
    Passes s (sessionGate W c role handle u s).2 := by
  unfold sessionGate
  split
  · split
    · exact .refl s
    · split
      · exact .refl s
      · exact authGate_passes c role handle u s
  · split
    · exact .refl s
    · rename_i x _
      split
      · exact .refl s
      · have hcheck : Passes s (if x.attributes.isDaBound then checkLockedOut x.attributes.isLockoutBound s
            else (.ok (), s)).2 := by
          split
          · exact checkLockedOut_passes _ s
          · exact .refl s
        split
        · rename_i heq
          rw [heq] at hcheck
          exact hcheck
        · rename_i s₁ heq
          rw [heq] at hcheck
          split
          · exact hcheck.trans (authGate_passes c role handle u s₁)
          · split
            · exact hcheck.trans (setIncludeAuth_passes u false s₁)
            · exact hcheck

theorem evaluate_sessions (handle : TpmHandle) (u : SessionUse) (used : Bool) (s : AuthState σ) :
    (evaluate handle u used s).2.sessions = s.sessions := by
  obtain ⟨nv, clearOrderly, h⟩ := evaluate_state handle u used s
  rw [h]
  unfold compareAuth
  split
  · rfl
  · rfl

theorem checkSession_same (c : CommandRow) (role : AuthRole) (handle : TpmHandle) (u : SessionUse) (s : AuthState σ) :
    SameSessions s (checkSession W c role handle u s).2 := by
  have hgate := (sessionGate_passes (W := W) c role handle u s).sessions
  unfold checkSession
  split
  · rename_i heq
    rw [heq] at hgate
    exact hgate
  · rename_i used s' heq
    rw [heq] at hgate
    intro h
    rw [evaluate_sessions]
    exact hgate h

theorem checkSessions_same (c : CommandRow) (i : Nat) (pairs : List (TpmHandle × SessionUse)) (s : AuthState σ) :
    SameSessions s (checkSessions W c i pairs s).2 := by
  induction pairs generalizing i s with
  | nil => exact fun _ => rfl
  | cons p rest ih =>
      obtain ⟨handle, u⟩ := p
      have hfirst := checkSession_same (W := W) c (c.authRole i) handle u s
      unfold checkSessions
      split
      · rename_i heq
        rw [heq] at hfirst
        exact hfirst
      · rename_i s' heq
        rw [heq] at hfirst
        exact hfirst.trans (ih (i + 1) s')

theorem parseSessionBuffer_same (c : CommandRow) (handles : List TpmHandle) (us : List SessionUse) (s : AuthState σ) :
    SameSessions s (parseSessionBuffer W c handles us s).2 := by
  unfold parseSessionBuffer
  split
  · exact fun _ => rfl
  · split
    · exact fun _ => rfl
    · split
      · exact checkSessions_same c 0 _ s
      · exact fun _ => rfl

theorem evaluations_accounted (c : CommandRow) {pairs : List (TpmHandle × SessionUse)} {s : AuthState σ}
    (hs : s.Consistent) (hm : ∀ p ∈ pairs, ¬ Misattributed W p.1 p.2 s) (i : Nat) :
    ∀ e ∈ evaluations W c i pairs s, e.Accounted := by
  induction pairs generalizing i s with
  | nil =>
      intro e he
      rw [evaluations] at he
      cases he
  | cons p rest ih =>
      obtain ⟨handle, u⟩ := p
      intro e he
      unfold evaluations at he
      split at he
      · cases he
      · rename_i used s' hgate
        have hgated := sessionGate_gated hgate
        rcases List.mem_cons.1 he with rfl | he
        · exact (hgated.settled hs).accounted (hgated.not_stray (hm _ List.mem_cons_self))
        · split at he
          · cases he
          · rename_i s'' heval
            have hsame : SameSessions s s'' := by
              have hsessions := evaluate_sessions handle u used s'
              rw [heval] at hsessions
              intro h
              rw [hsessions]
              exact hgated.passes.sessions h
            exact ih (hsame.consistent hs)
              (fun p hp hmis => hm p (List.mem_cons_of_mem _ hp) (hsame.misattributed hmis)) (i + 1) e he

theorem commandEvaluations_accounted (c : CommandRow) (handles : List TpmHandle) {us : List SessionUse}
    {s : AuthState σ} (hs : s.Consistent) (hm : ∀ p ∈ associate c handles us, ¬ Misattributed W p.1 p.2 s) :
    ∀ e ∈ commandEvaluations W c handles us s, e.Accounted := by
  intro e he
  unfold commandEvaluations at he
  split at he
  · cases he
  · split at he
    · cases he
    · split at he
      · exact evaluations_accounted c hs hm 0 e he
      · cases he

end AuthState

/-! ## Sessions from their start to their end -/

/-- What `TPM2_StartAuthSession` is given. The outcome for the salt, and for the place of the session, comes from
elsewhere; a nonce of the TPM is as long as the caller's. -/
structure StartAuthSession where
  sessionType : SessionType
  authHash : HashAlg
  nonceTpm : Bytes
  bind : TpmHandle
  salt : Except Fault Unit := .ok ()
  symmetricIsCfb : Bool := true
  place : Except Fault TpmHandle

namespace AuthState

/-- No entity that is protected goes into the key of the session. -/
def bindIsExempted (bind : TpmHandle) (s : AuthState σ) : Except Fault Bool :=
  if bind = TpmHandle.rhNull then .ok true else isDaExempted s.toTpmState bind

/-- `SessionCreate`, once the session has a place. -/
def sessionCreate (W : AuthWorld) (p : StartAuthSession) (s : AuthState σ) : Except Fault Session := do
  let exempted ← bindIsExempted p.bind s
  let isLockoutBound := !exempted && p.bind == TpmHandle.rhLockout
  match p.sessionType with
  | .hmac =>
      pure
        { attributes := { isBound := p.bind != TpmHandle.rhNull, isDaBound := !exempted, isLockoutBound }
          authHashAlg := p.authHash
          nonceTpm := p.nonceTpm
          u1 := if p.bind = TpmHandle.rhNull then [] else W.boundEntity p.bind
          policyDigest := [] }
  | .policy => pure (Session.createPolicy W.circumstances p.authHash p.nonceTpm false (!exempted) isLockoutBound)
  | .trial => pure (Session.createPolicy W.circumstances p.authHash p.nonceTpm true (!exempted) isLockoutBound)

/-- The entity that a session is to be bound to. -/
def bindCheck (bind : TpmHandle) (s : AuthState σ) : Except Fault Unit :=
  if bind.getType = TpmHandle.htTransient then
    match s.handleToObject bind with
    | .ok (some i) =>
        match s.slots i with
        | .object o => demand (!o.attributes.publicOnly) (.at .handle 0x200)
        | .sequence _ _ => .ok ()
        | .vacant => .error .failureMode
    | .ok none => .error .failureMode
    | .error e => .error e
  else if bind.getType = TpmHandle.htNvIndex then do
    let i ← s.nv.indexInfo bind
    demand (!i.isPin) (.at .handle 0x200)
  else .ok ()

/-- `TPM2_StartAuthSession`. -/
def startAuthSession (W : AuthWorld) (p : StartAuthSession) (s : AuthState σ) : Except Fault TpmHandle × AuthState σ :=
  let created : Except Fault (TpmHandle × Session) := do
    demand (decide (16 ≤ p.nonceTpm.length) && decide (p.nonceTpm.length ≤ p.authHash.digestSize)) (.at .size 0x140)
    p.salt
    bindCheck p.bind s
    demand p.symmetricIsCfb (.at .mode 0x440)
    let handle ← p.place
    let x ← sessionCreate W p s
    pure (handle, x)
  match created with
  | .error e => (.error e, s)
  | .ok (handle, x) => (.ok handle, s.setSession handle x)

/-- What becomes of a session that is loaded. -/
def updateSession (handle : TpmHandle) (f : Session → Session) (s : AuthState σ) : AuthState σ :=
  match s.sessions handle with
  | none => s
  | some x => s.setSession handle (f x)

def dropSession (handle : TpmHandle) (s : AuthState σ) : AuthState σ :=
  { s with sessions := Function.update s.sessions handle none }

end AuthState

/-- `InitAuditSession` and `Audit`. -/
def Session.audit (digest : Bytes) (x : Session) : Session :=
  { x with attributes := { x.attributes with isAudit := true, isBound := false }, policyDigest := digest }

/-- What `BuildResponseSession` leaves of a session that goes on. -/
def Session.respond (w : Circumstances) (nonceTpm : Bytes) (x : Session) : Session :=
  if x.attributes.isPolicy then { x.resetPolicyData with nonceTpm := nonceTpm }.setStartTime w
  else { x with nonceTpm := nonceTpm }

/-- The TPM and the session contexts that it has given out. -/
structure SessionRun (σ : Type) where
  state : AuthState σ
  saved : List (TpmHandle × Session) := []

/-- What happens to sessions; `other` is everything that happens to the rest of the state. -/
inductive SessionEvent (σ : Type)
  | authorize (W : AuthWorld) (c : CommandRow) (handles : List TpmHandle) (us : List SessionUse)
  | startAuthSession (W : AuthWorld) (p : StartAuthSession)
  | policy (W : AuthWorld) (handle : TpmHandle) (command : PolicyCommand)
  | policyRestart (handle : TpmHandle)
  | audit (handle : TpmHandle) (digest : Bytes)
  | respond (w : Circumstances) (handle : TpmHandle) (nonceTpm : Bytes)
  | contextSave (handle : TpmHandle)
  | contextLoad (k : Nat)
  | flush (handle : TpmHandle)
  | startup
  | other (after : AuthState σ)

def sessionStep (r : SessionRun σ) : SessionEvent σ → SessionRun σ
  | .authorize W c handles us => { r with state := (r.state.parseSessionBuffer W c handles us).2 }
  | .startAuthSession W p => { r with state := (r.state.startAuthSession W p).2 }
  | .policy W handle command =>
      { r with state := r.state.updateSession handle fun x => (command.act W.hash W.level W.circumstances x).2 }
  | .policyRestart handle => { r with state := r.state.updateSession handle Session.resetPolicyData }
  | .audit handle digest => { r with state := r.state.updateSession handle (Session.audit digest) }
  | .respond w handle nonceTpm => { r with state := r.state.updateSession handle (Session.respond w nonceTpm) }
  | .contextSave handle =>
      match r.state.sessions handle with
      | none => r
      | some x => { state := r.state.dropSession handle, saved := r.saved ++ [(handle, x)] }
  | .contextLoad k =>
      match r.saved[k]? with
      | none => r
      | some (handle, x) => { r with state := r.state.setSession handle x }
  | .flush handle => { r with state := r.state.dropSession handle }
  | .startup => { r with state := { r.state with sessions := fun _ => none } }
  | .other after => { r with state := { after with sessions := r.state.sessions } }

/-- A command has a session that would be misattributed. -/
def SessionEvent.Misattributes (s : AuthState σ) : SessionEvent σ → Prop
  | .authorize W c handles us => ∃ p ∈ AuthState.associate c handles us, AuthState.Misattributed W p.1 p.2 s
  | _ => False

/-! ## Whole runs -/

/-- Two sessions that are bound to the same kind of entity. -/
def Session.SameBinding (x x' : Session) : Prop :=
  x'.attributes.isDaBound = x.attributes.isDaBound ∧ x'.attributes.isLockoutBound = x.attributes.isLockoutBound

theorem act_sameBinding (H : PolicyHash) (level : Nat) (w : Circumstances) (command : PolicyCommand) (x : Session) :
    x.SameBinding (command.act H level w x).2 := by
  cases command with
  | policyGetDigest | policyPhysicalPresence | policyAuthValue | policyPassword => exact ⟨rfl, rfl⟩
  | policySigned | policySecret | policyTicket | policyAuthorize | policyAuthorizeNV =>
      simp only [PolicyCommand.act, policySigned, policySecret, policyTicket, policyAuthorize, policyAuthorizeNV]
      repeat' split
      all_goals exact ⟨rfl, rfl⟩
  | policyNV | policyCounterTimer | policyCapability =>
      simp only [PolicyCommand.act, policyNV, policyCounterTimer, policyCapability, policyCompare]
      repeat' split
      all_goals exact ⟨rfl, rfl⟩
  | policyOR | policyPCR | policyLocality | policyCommandCode | policyNvWritten =>
      simp only [PolicyCommand.act, policyOR, policyPCR, policyLocality, policyCommandCode, policyNvWritten]
      repeat' split
      all_goals exact ⟨rfl, rfl⟩
  | policyCpHash | policyNameHash | policyDuplicationSelect | policyTemplate | policyParameters =>
      simp only [PolicyCommand.act, policyCpHash, policyNameHash, policyDuplicationSelect, policyTemplate,
        policyParameters]
      repeat' split
      all_goals exact ⟨rfl, rfl⟩

/-- The rule that `Consistent` asks of every session. -/
def Session.LockoutIsDa (x : Session) : Prop :=
  x.attributes.isLockoutBound = true → x.attributes.isDaBound = true

theorem Session.SameBinding.lockoutIsDa {x x' : Session} (h : x.SameBinding x') (hx : x.LockoutIsDa) :
    x'.LockoutIsDa := by
  intro hlockout
  rw [h.1]
  exact hx (h.2 ▸ hlockout)

theorem respond_sameBinding (w : Circumstances) (nonceTpm : Bytes) (x : Session) :
    x.SameBinding (x.respond w nonceTpm) := by
  unfold Session.respond
  split
  · exact ⟨rfl, rfl⟩
  · exact ⟨rfl, rfl⟩

namespace AuthState
variable {s : AuthState σ}

theorem sessionCreate_lockoutIsDa {p : StartAuthSession} {x : Session} (h : sessionCreate W p s = .ok x) :
    x.LockoutIsDa := by
  unfold sessionCreate at h
  obtain ⟨exempted, -, h⟩ := bind_eq_ok h
  have hda : ∀ b : Bool, (!exempted && b) = true → (!exempted) = true := fun b hb => (Bool.and_eq_true_iff.1 hb).1
  cases hp : p.sessionType with
  | hmac | policy | trial =>
      rw [hp] at h
      cases h
      exact hda _

theorem Consistent.setSession (hs : s.Consistent) {handle : TpmHandle} {x : Session} (hx : x.LockoutIsDa) :
    (s.setSession handle x).Consistent := by
  intro h y hy
  by_cases hh : h = handle
  · subst hh
    simp only [AuthState.setSession, Function.update_self, Option.some.injEq] at hy
    subst hy
    exact hx
  · simp only [AuthState.setSession, Function.update_of_ne hh] at hy
    exact hs h y hy

theorem Consistent.dropSession (hs : s.Consistent) (handle : TpmHandle) : (s.dropSession handle).Consistent := by
  intro h y hy
  by_cases hh : h = handle
  · subst hh
    simp [AuthState.dropSession] at hy
  · simp only [AuthState.dropSession, Function.update_of_ne hh] at hy
    exact hs h y hy

theorem Consistent.updateSession (hs : s.Consistent) (handle : TpmHandle) {f : Session → Session}
    (hf : ∀ x : Session, x.SameBinding (f x)) : (s.updateSession handle f).Consistent := by
  unfold AuthState.updateSession
  split
  · exact hs
  · rename_i x hx
    exact hs.setSession ((hf x).lockoutIsDa (hs handle x hx))

theorem Consistent.startAuthSession (hs : s.Consistent) (p : StartAuthSession) :
    (s.startAuthSession W p).2.Consistent := by
  unfold AuthState.startAuthSession
  dsimp only
  split
  · exact hs
  · rename_i handle x hcreated
    obtain ⟨-, -, hcreated⟩ := bind_eq_ok hcreated
    obtain ⟨-, -, hcreated⟩ := bind_eq_ok hcreated
    obtain ⟨-, -, hcreated⟩ := bind_eq_ok hcreated
    obtain ⟨-, -, hcreated⟩ := bind_eq_ok hcreated
    obtain ⟨_, -, hcreated⟩ := bind_eq_ok hcreated
    obtain ⟨_, hcreate, hpure⟩ := bind_eq_ok hcreated
    cases hpure
    exact hs.setSession (sessionCreate_lockoutIsDa hcreate)

end AuthState

/-- The sessions that are loaded, and those that have been saved, follow the rule. -/
structure SessionRun.Sound (r : SessionRun σ) : Prop where
  loaded : r.state.Consistent
  saved : ∀ p ∈ r.saved, p.2.LockoutIsDa

theorem sessionStep_sound {r : SessionRun σ} (hr : r.Sound) (e : SessionEvent σ) : (sessionStep r e).Sound := by
  cases e with
  | authorize W c handles us =>
      exact ⟨(AuthState.parseSessionBuffer_same c handles us r.state).consistent hr.loaded, hr.saved⟩
  | startAuthSession W p => exact ⟨hr.loaded.startAuthSession p, hr.saved⟩
  | policy W handle command =>
      exact ⟨hr.loaded.updateSession handle fun x => act_sameBinding _ _ _ command x, hr.saved⟩
  | policyRestart handle => exact ⟨hr.loaded.updateSession handle fun _ => ⟨rfl, rfl⟩, hr.saved⟩
  | audit handle digest => exact ⟨hr.loaded.updateSession handle fun _ => ⟨rfl, rfl⟩, hr.saved⟩
  | respond w handle nonceTpm =>
      exact ⟨hr.loaded.updateSession handle fun x => respond_sameBinding w nonceTpm x, hr.saved⟩
  | contextSave handle =>
      simp only [sessionStep]
      split
      · exact hr
      · rename_i x hx
        refine ⟨hr.loaded.dropSession handle, fun p hp => ?_⟩
        rcases List.mem_append.1 hp with hp | hp
        · exact hr.saved p hp
        · rw [List.mem_singleton.1 hp]
          exact hr.loaded handle x hx
  | contextLoad k =>
      simp only [sessionStep]
      split
      · exact hr
      · rename_i handle x hx
        exact ⟨hr.loaded.setSession (hr.saved _ (List.mem_of_getElem? hx)), hr.saved⟩
  | flush handle => exact ⟨hr.loaded.dropSession handle, hr.saved⟩
  | startup =>
      refine ⟨fun handle x hx => ?_, hr.saved⟩
      cases hx
  | other after => exact ⟨hr.loaded, hr.saved⟩

/-- No session has been started yet. -/
def SessionRun.Started (r : SessionRun σ) : Prop := (∀ h, r.state.sessions h = none) ∧ r.saved = []

/-- A run of commands none of which is misattributed. -/
def AttributedRun : SessionRun σ → Prop :=
  Reachable SessionRun.Started fun r r' => ∃ e, ¬ SessionEvent.Misattributes r.state e ∧ r' = sessionStep r e

theorem AttributedRun.sound {r : SessionRun σ} (h : AttributedRun r) : r.Sound := by
  refine Reachable.invariant ?_ ?_ h
  · rintro r ⟨hnone, hsaved⟩
    refine ⟨fun handle x hx => ?_, fun p hp => ?_⟩
    · rw [hnone] at hx
      cases hx
    · rw [hsaved] at hp
      cases hp
  · rintro r r' hr ⟨e, -, rfl⟩
    exact sessionStep_sound hr e

/-- In every run without a session that is misattributed, every comparison is accounted for. -/
theorem accounted_of_attributedRun {r : SessionRun σ} (h : AttributedRun r) (W : AuthWorld) (c : CommandRow)
    (handles : List TpmHandle) (us : List SessionUse)
    (hm : ¬ (SessionEvent.authorize W c handles us).Misattributes r.state) :
    ∀ e ∈ r.state.commandEvaluations W c handles us, e.Accounted :=
  AuthState.commandEvaluations_accounted c handles h.sound.loaded fun p hp hp' => hm ⟨p, hp, hp'⟩

/-! ## A policy session with a key from a protected entity -/

/-- SHA-256 of a policy of `TPM2_PolicyCommandCode` with `TPM2_DictionaryAttackLockReset`. -/
def lockResetPolicy : Bytes := be 32 0xb6c5c05e581909cdea7df7a5f91c0f2eed37fd76f15522eee5b55f896f2d563f

/-- A world in which lockout has that policy. -/
def lockoutPolicyWorld : AuthWorld where
  hash := .tabulated [(List.replicate 32 0 ++ be 4 0x16C ++ be 4 0x139, lockResetPolicy)]
  level := 4
  circumstances := ⟨1, 0, 0, true, 0, false, fun _ => true⟩
  physicalPresenceIsRequired _ := false
  boundEntity handle := be 4 handle.toNat
  hasPolicy handle := handle == TpmHandle.rhLockout
  pcrPolicyIsRequired _ := false
  symmetric _ := false
  authorized c role handle :=
    { code := c.code, handleNames := [be 4 handle.toNat], parameters := [], role
      authPolicy := lockResetPolicy, policyAlg := some .sha256, nvWritten := none }

/-- An index of four octets that is protected. -/
def protectedIndex : NvIndex where
  publicArea :=
    { nvIndex := 0x01000001, nameAlg := .sha256, attributes := 0x00060006, authPolicy := ⟨[], by decide⟩, dataSize := 4 }
  authValue := ⟨[1], by decide⟩

def lockoutPolicyStart : SessionRun Unit where
  state := { nv := { user := [.index protectedIndex [0, 0, 0, 0]] } }

def dictionaryAttackLockReset : CommandRow := ⟨0x139, [.handle1User], [.tpmiRhLockout], [], [], 0⟩

/-- A session of a type, with a key from an entity. -/
def startSession (sessionType : SessionType) (bind handle : TpmHandle) : SessionEvent Unit :=
  .startAuthSession lockoutPolicyWorld
    { sessionType, authHash := .sha256, nonceTpm := List.replicate 16 0x5A, bind, place := .ok handle }

theorem lockoutBound_accounted :
    let r := run sessionStep lockoutPolicyStart [startSession .hmac TpmHandle.rhLockout 0x02000000]
    let evaluations := r.state.commandEvaluations lockoutPolicyWorld dictionaryAttackLockReset
      [TpmHandle.rhLockout] [⟨0x02000000, {}, [], false⟩]
    evaluations.length = 1 ∧ ∀ e ∈ evaluations, e.Accounted := by
  intro r evaluations
  have hstart : AttributedRun lockoutPolicyStart := .init ⟨fun _ => rfl, rfl⟩
  have hrun : AttributedRun r := hstart.step ⟨startSession .hmac TpmHandle.rhLockout 0x02000000, id, rfl⟩
  refine ⟨by decide +kernel, accounted_of_attributedRun hrun _ _ _ _ ?_⟩
  rintro ⟨p, hp, -, -, x, hx, -, hunbound, -⟩
  have hbound : (AuthState.useSession ⟨0x02000000, {}, [], false⟩ r.state).map (·.attributes.isLockoutBound) =
      some true := by decide +kernel
  rw [List.mem_singleton.1 hp] at hx
  rw [hx, Option.map_some, hunbound] at hbound
  cases hbound

/-- The session's HMAC is wrong after a wrong password has disabled `lockoutAuth`. -/
def strayRun : List (SessionEvent Unit) :=
  [startSession .policy 0x01000001 0x03000000,
   .policy lockoutPolicyWorld 0x03000000 (.policyCommandCode 0x139),
   .authorize lockoutPolicyWorld dictionaryAttackLockReset [TpmHandle.rhLockout] [⟨TpmHandle.rsPw, {}, [], false⟩]]

/-- Every comparison of every command is accounted for. -/
def DictionaryAttacksAccounted (σ : Type) : Prop :=
  ∀ r : SessionRun σ, Reachable SessionRun.Started (fun r r' => ∃ e, r' = sessionStep r e) r →
    ∀ W, ∀ c ∈ commandTable, ∀ handles us, ∀ e ∈ r.state.commandEvaluations W c handles us, e.Accounted

theorem stray_asserted :
    ∃ e ∈ (run sessionStep lockoutPolicyStart strayRun).state.commandEvaluations lockoutPolicyWorld
        dictionaryAttackLockReset [TpmHandle.rhLockout] [⟨0x03000000, {}, [], false⟩],
      (e.use.genuine = false ∧ e.lockoutHandle = .ok (some TpmHandle.rhLockout)) ∧
        e.before.lockOutAuthEnabled = false := by
  decide +kernel

theorem dictionaryAttacks_not_accounted : ¬ DictionaryAttacksAccounted Unit := by
  intro h
  obtain ⟨e, he, ⟨hfailed, hhandle⟩, hdisabled⟩ := stray_asserted
  have hrow : dictionaryAttackLockReset ∈ commandTable := by decide +kernel
  have hrun : Reachable SessionRun.Started (fun r r' => ∃ e, r' = sessionStep r e)
      (run sessionStep lockoutPolicyStart strayRun) := Reachable.of_run ⟨fun _ => rfl, rfl⟩ _
  have henabled := (h _ hrun _ _ hrow _ _ e he).asserted hfailed hhandle
  rw [hdisabled] at henabled
  cases henabled

end PqcTpm
