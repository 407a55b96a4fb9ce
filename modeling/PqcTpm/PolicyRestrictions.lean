import PqcTpm.PolicySession

/-!
# The restrictions of a policy session

Each policy command may assert a restriction on the command that the session is to
authorize. `Session.Narrows` is what a command should do to a session at most, and a
restriction that the session holds stays held under it. `PolicyCommand.Drops` says when a
command does something else: the digests share one union, and a counter or a timeout of
zero stands for none.
-/
namespace PqcTpm
open ByteCodec Transition

inductive Restriction
  | commandCode (code : Nat)
  | union (kind : UnionKind) (digest : Bytes)
  | locality (mask : UInt8)
  | physicalPresence
  | nvWritten (writtenSet : Bool)
  | expiry (timeout epoch : Nat)
  | pcrCounter (counter : Nat)

section
variable (H : PolicyHash) (level : Nat) (w : Circumstances)

/-- The command, at its time, is one that the restriction allows. -/
def Restriction.Satisfied (alg : HashAlg) (x : AuthorizedCommand) : Restriction → Prop
  | .commandCode code => x.code = code
  | .union kind digest => x.unionDigest H alg kind = some digest
  | .locality mask =>
      (mask < 32 ∧ w.locality < 5 ∧ mask.toNat.testBit w.locality.toNat = true) ∨ (32 ≤ mask ∧ w.locality = mask)
  | .physicalPresence => w.physicalPresence = true
  | .nvWritten writtenSet => x.nvWritten = some writtenSet
  | .expiry timeout epoch => w.time ≤ timeout ∧ w.timeEpoch = epoch
  | .pcrCounter counter => w.pcrCounter = counter

def cpHashRestriction (cpHashA : Bytes) : List Restriction :=
  if cpHashA = [] then [] else [.union .cpHash cpHashA]

def PolicyAuthorization.restrictions (a : PolicyAuthorization) (s : Session) : List Restriction :=
  cpHashRestriction a.cpHashA ++
    if a.expiration = 0 then [] else [.expiry (computeAuthTimeout w s a.expiration a.nonceTpm) s.epoch]

/-- What a command asserts. -/
def PolicyCommand.restrictions (s : Session) : PolicyCommand → List Restriction
  | .policySigned a _ _ => a.restrictions w s
  | .policySecret a _ _ => a.restrictions w s
  | .policyTicket timeout cpHashA _ _ _ _ =>
      cpHashRestriction cpHashA ++
        if ticketTimeout timeout = 0 then [] else [.expiry (ticketTimeout timeout) s.epoch]
  | .policyPCR _ _ _ => [.pcrCounter w.pcrCounter]
  | .policyPhysicalPresence => [.physicalPresence]
  | .policyLocality locality => [.locality locality]
  | .policyCommandCode code => [.commandCode code]
  | .policyCpHash cpHashA => [.union .cpHash cpHashA]
  | .policyNameHash nameHash => [.union .nameHash nameHash]
  | .policyDuplicationSelect objectName newParentName _ =>
      [.union .nameHash (H.hash s.authHashAlg (objectName ++ newParentName)), .commandCode 0x14B]
  | .policyNvWritten writtenSet => [.nvWritten writtenSet]
  | .policyTemplate templateHash => [.union .templateHash templateHash]
  | .policyParameters pHash => [.union .pHash pHash]
  | _ => []

/-- A `cpHashA` is taken into a union that holds the same octets as something else than a cpHash. -/
def Session.Recast (s : Session) (cpHashA : Bytes) : Prop :=
  cpHashA ≠ [] ∧ s.u1 = cpHashA ∧ s.attributes.isCpHashDefined = false

/-- The union holds a digest that `IsCpHashUnionOccupied` does not see. -/
def Session.Unseen (s : Session) : Prop := s.u1 ≠ [] ∧ s.attributes.isCpHashUnionOccupied = false

/-- The timeout has come out as the number that stands for none. -/
def PolicyAuthorization.Wraps (a : PolicyAuthorization) (s : Session) : Prop :=
  a.expiration ≠ 0 ∧ computeAuthTimeout w s a.expiration a.nonceTpm = 0

/-- A command, in a session, drops a restriction: it gives the union another meaning, puts another digest
into it, or asserts a counter or a timeout that the session cannot tell from none. -/
def PolicyCommand.Drops (s : Session) : PolicyCommand → Prop
  | .policySigned a _ _ => s.Recast a.cpHashA ∨ a.Wraps w s
  | .policySecret a _ _ => s.Recast a.cpHashA ∨ a.Wraps w s
  | .policyTicket _ cpHashA _ _ _ _ => s.Recast cpHashA
  | .policyPCR _ _ _ => w.pcrCounter = 0
  | .policyCpHash _ => s.Unseen
  | .policyNameHash nameHash => s.Unseen ∧ s.u1 ≠ nameHash
  | .policyTemplate _ => s.Unseen
  | .policyParameters _ => s.Unseen
  | _ => False

/-! ## Runs -/

/-- A policy session, the world it is in, and what has been asserted since it started over. -/
structure PolicyHistory where
  session : Session
  world : Circumstances
  asserted : List Restriction := []

/-- The world changes, a policy command, `TPM2_PolicyRestart`, or a use of the session that goes on. -/
inductive PolicyEvent
  | world (w : Circumstances)
  | command (c : PolicyCommand)
  | restart
  | rolled

/-- A command that fails asserts nothing. -/
def gains (o : PolicyOutcome) (rs : List Restriction) : List Restriction :=
  match o.1 with
  | .ok _ => rs
  | .error _ => []

def policyStep (r : PolicyHistory) : PolicyEvent → PolicyHistory
  | .world w => { r with world := w }
  | .command c =>
      let o := c.act H level r.world r.session
      { r with session := o.2, asserted := r.asserted ++ gains o (c.restrictions H r.world r.session) }
  | .restart => { r with session := r.session.resetPolicyData, asserted := [] }
  | .rolled => { r with session := r.session.resetPolicyData.setStartTime r.world, asserted := [] }

def PolicyEvent.Drops (r : PolicyHistory) : PolicyEvent → Prop
  | .command c => c.Drops r.world r.session
  | _ => False

/-- A real policy session just started. -/
def PolicyHistory.Started (r : PolicyHistory) : Prop :=
  ∃ authHash nonceTpm isDaBound isLockoutBound,
    r.session = Session.createPolicy r.world authHash nonceTpm false isDaBound isLockoutBound ∧ r.asserted = []

/-! ## What a session holds -/

/-- The localities of the session are among those of the mask. -/
def Covers (mask locality : UInt8) : Prop :=
  (mask < 32 ∧ locality < 32 ∧ locality &&& mask = locality) ∨ (32 ≤ mask ∧ locality = mask)

/-- The session carries the restriction. -/
def Restriction.Held (s : Session) : Restriction → Prop
  | .commandCode code => s.commandCode = code ∧ code ≠ 0
  | .union kind digest => s.u1 = digest ∧ digest ≠ [] ∧ s.unionKind level = some kind
  | .locality mask => s.commandLocality ≠ 0 ∧ Covers mask s.commandLocality
  | .physicalPresence => s.attributes.isPPRequired = true
  | .nvWritten writtenSet => s.attributes.checkNvWritten = true ∧ s.attributes.nvWrittenState = writtenSet
  | .expiry timeout epoch => s.timeout ≠ 0 ∧ s.timeout ≤ timeout ∧ s.epoch = epoch
  | .pcrCounter counter => s.pcrCounter = counter ∧ counter ≠ 0

/-- The flags say what is in the union. -/
structure Session.Sound (s : Session) : Prop where
  real : s.attributes.isTrialPolicy = false
  unbound : s.attributes.isBound = false
  digest : s.policyDigest.length = s.authHashAlg.digestSize
  size : s.u1 = [] ∨ s.u1.length = s.authHashAlg.digestSize
  vacant : s.u1 = [] → s.attributes.isCpHashUnionOccupied = false
  seen : 4 ≤ level → s.u1 ≠ [] → s.attributes.isCpHashUnionOccupied = true
  noName : level < 4 → s.attributes.isNameHashDefined = false
  template : s.attributes.isTemplateHashDefined = true → s.unionKind level = some .templateHash

/-- What a command may do to a session. -/
structure Session.Narrows (s s' : Session) : Prop where
  alg : s'.authHashAlg = s.authHashAlg
  epoch : s'.epoch = s.epoch
  commandCode : s.commandCode ≠ 0 → s'.commandCode = s.commandCode
  union : s.u1 ≠ [] → s'.u1 = s.u1 ∧ s'.unionKind level = s.unionKind level
  locality : s.commandLocality ≠ 0 → s'.commandLocality ≠ 0 ∧ Covers s.commandLocality s'.commandLocality
  physicalPresence : s.attributes.isPPRequired = true → s'.attributes.isPPRequired = true
  nvWritten : s.attributes.checkNvWritten = true →
    s'.attributes.checkNvWritten = true ∧ s'.attributes.nvWrittenState = s.attributes.nvWrittenState
  timeout : s.timeout ≠ 0 → s'.timeout ≠ 0 ∧ s'.timeout ≤ s.timeout
  pcrCounter : s.pcrCounter ≠ 0 → s'.pcrCounter = s.pcrCounter

end

section
variable {H : PolicyHash} {level : Nat} {w : Circumstances} {s s' : Session} {x : AuthorizedCommand}

theorem Covers.trans {mask l l' : UInt8} (h : Covers mask l) (h' : Covers l l') : Covers mask l' := by
  rcases h with ⟨hmask, hl, hand⟩ | ⟨hmask, rfl⟩
  · rcases h' with ⟨-, hl', hand'⟩ | ⟨hl', -⟩
    · refine .inl ⟨hmask, hl', ?_⟩
      rw [← hand', UInt8.and_assoc, hand]
    · exact absurd hl (UInt8.not_lt.mpr hl')
  · rcases h' with ⟨hl, -, -⟩ | ⟨-, rfl⟩
    · exact absurd hl (UInt8.not_lt.mpr hmask)
    · exact .inr ⟨hmask, rfl⟩

theorem Restriction.Held.mono {r : Restriction} (h : r.Held level s) (hn : s.Narrows level s') :
    r.Held level s' := by
  cases r with
  | commandCode code =>
      obtain ⟨rfl, hne⟩ := h
      exact ⟨hn.commandCode hne, hne⟩
  | union kind digest =>
      obtain ⟨rfl, hne, hkind⟩ := h
      obtain ⟨hu, hk⟩ := hn.union hne
      exact ⟨hu, hne, hk.trans hkind⟩
  | locality mask =>
      obtain ⟨hne, hcovers⟩ := h
      obtain ⟨hne', hcovers'⟩ := hn.locality hne
      exact ⟨hne', hcovers.trans hcovers'⟩
  | physicalPresence => exact hn.physicalPresence h
  | nvWritten writtenSet =>
      obtain ⟨hcheck, hstate⟩ := h
      obtain ⟨hcheck', hstate'⟩ := hn.nvWritten hcheck
      exact ⟨hcheck', hstate'.trans hstate⟩
  | expiry timeout epoch =>
      obtain ⟨hne, hle, hepoch⟩ := h
      obtain ⟨hne', hle'⟩ := hn.timeout hne
      exact ⟨hne', hle'.trans hle, hn.epoch.trans hepoch⟩
  | pcrCounter counter =>
      obtain ⟨rfl, hne⟩ := h
      exact ⟨hn.pcrCounter hne, hne⟩

theorem Covers.refl (l : UInt8) : Covers l l := by
  by_cases hl : l < 32
  · exact .inl ⟨hl, hl, UInt8.and_self⟩
  · exact .inr ⟨UInt8.not_lt.mp hl, rfl⟩

theorem Session.Narrows.refl (level : Nat) (s : Session) : s.Narrows level s where
  alg := rfl
  epoch := rfl
  commandCode _ := rfl
  union _ := ⟨rfl, rfl⟩
  locality h := ⟨h, Covers.refl _⟩
  physicalPresence h := h
  nvWritten h := ⟨h, rfl⟩
  timeout h := ⟨h, Nat.le_refl _⟩
  pcrCounter _ := rfl

theorem Session.Narrows.trans {s'' : Session} (h : s.Narrows level s') (h' : s'.Narrows level s'') :
    s.Narrows level s'' where
  alg := h'.alg.trans h.alg
  epoch := h'.epoch.trans h.epoch
  commandCode hc := by
    have hkept := h.commandCode hc
    exact (h'.commandCode (hkept ▸ hc)).trans hkept
  union hu := by
    obtain ⟨hkept, hkind⟩ := h.union hu
    obtain ⟨hkept', hkind'⟩ := h'.union (hkept ▸ hu)
    exact ⟨hkept'.trans hkept, hkind'.trans hkind⟩
  locality hl := by
    obtain ⟨hne, hcovers⟩ := h.locality hl
    obtain ⟨hne', hcovers'⟩ := h'.locality hne
    exact ⟨hne', hcovers.trans hcovers'⟩
  physicalPresence hp := h'.physicalPresence (h.physicalPresence hp)
  nvWritten hw := by
    obtain ⟨hcheck, hstate⟩ := h.nvWritten hw
    obtain ⟨hcheck', hstate'⟩ := h'.nvWritten hcheck
    exact ⟨hcheck', hstate'.trans hstate⟩
  timeout ht := by
    obtain ⟨hne, hle⟩ := h.timeout ht
    obtain ⟨hne', hle'⟩ := h'.timeout hne
    exact ⟨hne', hle'.trans hle⟩
  pcrCounter hp := by
    have hkept := h.pcrCounter hp
    exact (h'.pcrCounter (hkept ▸ hp)).trans hkept

theorem and_lt {a b c : UInt8} (h : b < c) : a &&& b < c := by
  rw [UInt8.lt_iff_toNat_lt, UInt8.toNat_and] at *
  exact Nat.lt_of_le_of_lt Nat.and_le_right h

theorem combineLocality_covers {previous mask setting : UInt8} (h : combineLocality previous mask = some setting) :
    setting ≠ 0 ∧ Covers mask setting ∧ (previous ≠ 0 → Covers previous setting) := by
  unfold combineLocality at h
  split at h
  · cases h
  · rename_i hmask
    split at h
    · cases h
    · rename_i hkind
      split at h
      · rename_i hlow
        dsimp only at h
        generalize hstart : (if previous = 0 then 0x1F else previous) = start at h
        split at h
        · cases h
        · rename_i hne
          cases h
          refine ⟨hne, .inl ⟨hlow, and_lt hlow, ?_⟩, fun hp => .inl ⟨?_, and_lt hlow, ?_⟩⟩
          · rw [UInt8.and_assoc, UInt8.and_self]
          · by_contra hhigh
            exact hkind ⟨hp, fun heq => hhigh (heq.symm ▸ hlow)⟩
          · rw [if_neg hp] at hstart
            subst hstart
            rw [UInt8.and_comm, ← UInt8.and_assoc, UInt8.and_self]
      · rename_i hhigh
        split at h
        · cases h
        · rename_i hsame
          cases h
          refine ⟨hmask, Covers.refl _, fun hp => ?_⟩
          have heq : previous = mask := by
            by_contra hne
            exact hsame ⟨hp, hne⟩
          exact heq ▸ Covers.refl _

/-- A session becomes narrower, stays sound, and holds some new restrictions. -/
structure Session.Advances (level : Nat) (s s' : Session) (rs : List Restriction) : Prop where
  narrows : s.Narrows level s'
  sound : s'.Sound level
  held : ∀ r ∈ rs, r.Held level s'

theorem Session.Advances.trans {s'' : Session} {rs rs' : List Restriction} (h : s.Advances level s' rs)
    (h' : s'.Advances level s'' rs') : s.Advances level s'' (rs ++ rs') where
  narrows := h.narrows.trans h'.narrows
  sound := h'.sound
  held r hr := by
    rcases List.mem_append.1 hr with hr | hr
    · exact (h.held r hr).mono h'.narrows
    · exact h'.held r hr

namespace Session.Sound

theorem stays (hs : s.Sound level) : s.Advances level s [] :=
  ⟨.refl level s, hs, nofun⟩

theorem digests (hs : s.Sound level) {d : Bytes} (hd : d.length = s.authHashAlg.digestSize) :
    s.Advances level { s with policyDigest := d } [] where
  narrows :=
    have h := Session.Narrows.refl level s
    ⟨h.alg, h.epoch, h.commandCode, h.union, h.locality, h.physicalPresence, h.nvWritten, h.timeout, h.pcrCounter⟩
  sound := ⟨hs.real, hs.unbound, hd, hs.size, hs.vacant, hs.seen, hs.noName, hs.template⟩
  held := nofun

theorem extends_ (hs : s.Sound level) (commandCode : Nat) (data : Bytes) :
    s.Advances level (s.extend H commandCode data) [] :=
  hs.digests (H.length_eq _ _)

theorem flags (hs : s.Sound level) (isAuthValueNeeded isPasswordNeeded : Bool) :
    s.Advances level
      { s with attributes := { s.attributes with isAuthValueNeeded, isPasswordNeeded } } [] where
  narrows :=
    have h := Session.Narrows.refl level s
    ⟨h.alg, h.epoch, h.commandCode, h.union, h.locality, h.physicalPresence, h.nvWritten, h.timeout, h.pcrCounter⟩
  sound := ⟨hs.real, hs.unbound, hs.digest, hs.size, hs.vacant, hs.seen, hs.noName, hs.template⟩
  held := nofun

theorem codes (hs : s.Sound level) {code : Nat} (hkeep : s.commandCode ≠ 0 → s.commandCode = code)
    (hne : code ≠ 0) :
    s.Advances level { s with commandCode := code } [.commandCode code] where
  narrows :=
    have h := Session.Narrows.refl level s
    ⟨h.alg, h.epoch, fun hc => (hkeep hc).symm, h.union, h.locality, h.physicalPresence, h.nvWritten, h.timeout,
      h.pcrCounter⟩
  sound := ⟨hs.real, hs.unbound, hs.digest, hs.size, hs.vacant, hs.seen, hs.noName, hs.template⟩
  held r hr := by
    rw [List.mem_singleton.1 hr]
    exact ⟨rfl, hne⟩

theorem counts (hs : s.Sound level) {counter : Nat} (hkeep : s.pcrCounter ≠ 0 → s.pcrCounter = counter)
    (hne : counter ≠ 0) :
    s.Advances level { s with pcrCounter := counter } [.pcrCounter counter] where
  narrows :=
    have h := Session.Narrows.refl level s
    ⟨h.alg, h.epoch, h.commandCode, h.union, h.locality, h.physicalPresence, h.nvWritten, h.timeout,
      fun hc => (hkeep hc).symm⟩
  sound := ⟨hs.real, hs.unbound, hs.digest, hs.size, hs.vacant, hs.seen, hs.noName, hs.template⟩
  held r hr := by
    rw [List.mem_singleton.1 hr]
    exact ⟨rfl, hne⟩

theorem requiresPP (hs : s.Sound level) :
    s.Advances level { s with attributes := { s.attributes with isPPRequired := true } } [.physicalPresence] where
  narrows :=
    have h := Session.Narrows.refl level s
    ⟨h.alg, h.epoch, h.commandCode, h.union, h.locality, fun _ => rfl, h.nvWritten, h.timeout, h.pcrCounter⟩
  sound := ⟨hs.real, hs.unbound, hs.digest, hs.size, hs.vacant, hs.seen, hs.noName, hs.template⟩
  held r hr := by
    rw [List.mem_singleton.1 hr]
    rfl

theorem requiresWritten (hs : s.Sound level) {writtenSet : Bool}
    (hkeep : s.attributes.checkNvWritten = true → s.attributes.nvWrittenState = writtenSet) :
    s.Advances level
      { s with attributes := { s.attributes with checkNvWritten := true, nvWrittenState := writtenSet } }
      [.nvWritten writtenSet] where
  narrows :=
    have h := Session.Narrows.refl level s
    ⟨h.alg, h.epoch, h.commandCode, h.union, h.locality, h.physicalPresence,
      fun hw => ⟨rfl, (hkeep hw).symm⟩, h.timeout, h.pcrCounter⟩
  sound := ⟨hs.real, hs.unbound, hs.digest, hs.size, hs.vacant, hs.seen, hs.noName, hs.template⟩
  held r hr := by
    rw [List.mem_singleton.1 hr]
    exact ⟨rfl, rfl⟩

theorem locates (hs : s.Sound level) {mask setting : UInt8}
    (h : combineLocality s.commandLocality mask = some setting) :
    s.Advances level { s with commandLocality := setting } [.locality mask] := by
  obtain ⟨hne, hcovers, hkeep⟩ := combineLocality_covers h
  have hr := Session.Narrows.refl level s
  constructor
  · exact ⟨hr.alg, hr.epoch, hr.commandCode, hr.union, fun hl => ⟨hne, hkeep hl⟩, hr.physicalPresence,
      hr.nvWritten, hr.timeout, hr.pcrCounter⟩
  · exact ⟨hs.real, hs.unbound, hs.digest, hs.size, hs.vacant, hs.seen, hs.noName, hs.template⟩
  · intro r hr
    rw [List.mem_singleton.1 hr]
    exact ⟨hne, hcovers⟩

end Session.Sound

/-! ## The union -/

/-- The flags once a digest of a kind is in the union; a name hash has its flag from level 4 on. -/
def SessionAttributes.define (level : Nat) (a : SessionAttributes) : UnionKind → SessionAttributes
  | .cpHash => { a with isCpHashDefined := true }
  | .nameHash => { a with isNameHashDefined := a.isNameHashDefined || decide (4 ≤ level) }
  | .pHash => { a with isParametersHashDefined := true }
  | .templateHash => { a with isTemplateHashDefined := true }

theorem define_of_unionKind {kind : UnionKind} (hs : s.Sound level) (h : s.unionKind level = some kind) :
    s.attributes.define level kind = s.attributes := by
  have hname := hs.noName
  unfold Session.unionKind at h
  cases kind with
  | cpHash =>
      have hflag : s.attributes.isCpHashDefined = true := by
        by_contra hno
        simp only [hno] at h
        grind
      simp [SessionAttributes.define, ← hflag]
  | nameHash =>
      have hflag : s.attributes.isNameHashDefined = decide (4 ≤ level) := by
        by_cases hlevel : 4 ≤ level
        · grind
        · simp [hlevel, hname (Nat.lt_of_not_le hlevel)]
      simp [SessionAttributes.define, ← hflag]
  | pHash =>
      have hflag : s.attributes.isParametersHashDefined = true := by grind
      simp [SessionAttributes.define, ← hflag]
  | templateHash =>
      have hflag : s.attributes.isTemplateHashDefined = true := by grind
      simp [SessionAttributes.define, ← hflag]

theorem unionKind_define (level : Nat) (kind : UnionKind) (hno : s.attributes.isCpHashUnionOccupied = false) :
    Session.unionKind level { s with attributes := s.attributes.define level kind } = some kind := by
  simp only [SessionAttributes.isCpHashUnionOccupied, Bool.or_eq_false_iff] at hno
  obtain ⟨⟨⟨⟨-, hcp⟩, hname⟩, hp⟩, htemplate⟩ := hno
  cases kind with
  | cpHash => simp [Session.unionKind, SessionAttributes.define]
  | nameHash =>
      by_cases hlevel : 4 ≤ level
      · simp [Session.unionKind, SessionAttributes.define, hcp, hlevel]
      · simp [Session.unionKind, SessionAttributes.define, hcp, hname, hp, htemplate, Nat.lt_of_not_le hlevel]
  | pHash => simp [Session.unionKind, SessionAttributes.define, hcp, hname]
  | templateHash => simp [Session.unionKind, SessionAttributes.define, hcp, hname, hp]

theorem occupied_define {kind : UnionKind} (a : SessionAttributes) (h : kind = .nameHash → 4 ≤ level) :
    (a.define level kind).isCpHashUnionOccupied = true := by
  cases kind with
  | nameHash => simp [SessionAttributes.isCpHashUnionOccupied, SessionAttributes.define, h rfl]
  | cpHash | pHash | templateHash => simp [SessionAttributes.isCpHashUnionOccupied, SessionAttributes.define]

theorem define_other (level : Nat) (a : SessionAttributes) (kind : UnionKind) :
    (a.define level kind).isTrialPolicy = a.isTrialPolicy ∧ (a.define level kind).isBound = a.isBound ∧
      (a.define level kind).isPPRequired = a.isPPRequired ∧
      (a.define level kind).checkNvWritten = a.checkNvWritten ∧
      (a.define level kind).nvWrittenState = a.nvWrittenState := by
  cases kind <;> exact ⟨rfl, rfl, rfl, rfl, rfl⟩

theorem define_noName {a : SessionAttributes} {kind : UnionKind} (hlevel : level < 4)
    (h : a.isNameHashDefined = false) : (a.define level kind).isNameHashDefined = false := by
  cases kind with
  | nameHash => simp [SessionAttributes.define, h, Nat.not_le.mpr hlevel]
  | cpHash | pHash | templateHash => exact h

namespace Session.Sound

/-- A digest goes into a union that is free. -/
theorem occupies (hs : s.Sound level) {digest : Bytes} {kind : UnionKind}
    (hlen : digest.length = s.authHashAlg.digestSize) (hfree : s.u1 = []) :
    s.Advances level { s with u1 := digest, attributes := s.attributes.define level kind }
      [.union kind digest] := by
  obtain ⟨htrial, hbound, hpp, hcheck, hstate⟩ := define_other level s.attributes kind
  have hkind := unionKind_define level kind (hs.vacant hfree)
  have hne : digest ≠ [] := by
    rintro rfl
    exact absurd hlen (Nat.ne_of_lt (HashAlg.digestSize_pos _))
  constructor
  · have hr := Session.Narrows.refl level s
    exact ⟨hr.alg, hr.epoch, hr.commandCode, fun hu => absurd hfree hu, hr.locality, fun h => hpp.trans h,
      fun h => ⟨hcheck.trans h, hstate⟩, hr.timeout, hr.pcrCounter⟩
  · refine ⟨htrial.trans hs.real, hbound.trans hs.unbound, hs.digest, .inr hlen, fun h => absurd h hne,
      fun hlevel _ => occupied_define _ fun _ => hlevel, fun hlevel => define_noName hlevel (hs.noName hlevel),
      fun htemplate => ?_⟩
    -- every flag was clear, so the one that is set now is that of the kind
    have hvacant := hs.vacant hfree
    simp only [SessionAttributes.isCpHashUnionOccupied, Bool.or_eq_false_iff] at hvacant
    cases kind with
    | templateHash => exact hkind
    | cpHash | nameHash | pHash => exact absurd htemplate (by simp [SessionAttributes.define, hvacant.2])
  · intro r hr
    rw [List.mem_singleton.1 hr]
    exact ⟨rfl, hne, hkind⟩

theorem unions (hs : s.Sound level) (kind : UnionKind) {digest : Bytes}
    (hlen : digest.length = s.authHashAlg.digestSize)
    (hfree : s.u1 = [] ∨ (s.u1 = digest ∧ s.unionKind level = some kind)) :
    s.Advances level { s with u1 := digest, attributes := s.attributes.define level kind }
      [.union kind digest] := by
  rcases hfree with hfree | ⟨rfl, hkind⟩
  · exact hs.occupies hlen hfree
  · rw [define_of_unionKind hs hkind]
    refine ⟨.refl level s, hs, fun r hr => ?_⟩
    rw [List.mem_singleton.1 hr]
    refine ⟨rfl, fun hnil => ?_, hkind⟩
    rw [hnil] at hlen
    exact absurd hlen (Nat.ne_of_lt (HashAlg.digestSize_pos _))

theorem expires (hs : s.Sound level) (timeout : Nat) :
    s.Advances level
      { s with timeout := if timeout ≠ 0 ∧ (s.timeout = 0 ∨ timeout < s.timeout) then timeout else s.timeout }
      (if timeout = 0 then [] else [.expiry timeout s.epoch]) := by
  constructor
  · have hr := Session.Narrows.refl level s
    refine ⟨hr.alg, hr.epoch, hr.commandCode, hr.union, hr.locality, hr.physicalPresence, hr.nvWritten,
      fun hne => ?_, hr.pcrCounter⟩
    dsimp only
    split <;> omega
  · exact ⟨hs.real, hs.unbound, hs.digest, hs.size, hs.vacant, hs.seen, hs.noName, hs.template⟩
  · intro r hr
    split at hr
    · cases hr
    · rename_i hne
      rw [List.mem_singleton.1 hr]
      dsimp only [Restriction.Held]
      split <;> omega

/-- What `PolicyContextUpdate` leaves besides the digest. -/
theorem limits (hs : s.Sound level) {cpHash : Bytes} {timeout : Nat}
    (hlen : cpHash = [] ∨ cpHash.length = s.authHashAlg.digestSize) (hfree : cpHash = [] ∨ s.u1 = [] ∨ cpHash = s.u1)
    (hcast : ¬ s.Recast cpHash) :
    s.Advances level (s.limit cpHash timeout)
      (cpHashRestriction cpHash ++ if timeout = 0 then [] else [.expiry timeout s.epoch]) := by
  by_cases hnil : cpHash = []
  · subst hnil
    simpa [Session.limit, cpHashRestriction] using hs.expires timeout
  · have hu : s.u1 = [] ∨ (s.u1 = cpHash ∧ s.unionKind level = some .cpHash) := by
      rcases hfree.resolve_left hnil with hfree | heq
      · exact .inl hfree
      · refine .inr ⟨heq.symm, ?_⟩
        have hdefined : s.attributes.isCpHashDefined = true := by
          by_contra hno
          exact hcast ⟨hnil, heq.symm, Bool.eq_false_iff.mpr hno⟩
        simp [Session.unionKind, hdefined]
    have hunion := hs.unions .cpHash (hlen.resolve_left hnil) hu
    have hboth := hunion.trans (hunion.sound.expires timeout)
    simpa [Session.limit, cpHashRestriction, hnil, SessionAttributes.define] using hboth

end Session.Sound

/-! ## The commands -/

theorem Session.Advances.gained {rs : List Restriction} (h : s.Advances level s' rs) (o : Except Fault Unit) :
    s.Advances level s' (gains (o, s') rs) := by
  cases o with
  | ok u => exact h
  | error e => exact ⟨h.narrows, h.sound, nofun⟩

theorem policyParameterChecks_eq_ok {authTimeout : Nat} {cpHashA : Bytes} {nonce : Option Bytes} {i j k : Nat}
    {u : Unit} (h : policyParameterChecks w s authTimeout cpHashA nonce i j k = .ok u) :
    (cpHashA = [] ∨ cpHashA.length = s.policyDigest.length) ∧ (cpHashA = [] ∨ s.u1 = [] ∨ cpHashA = s.u1) := by
  obtain ⟨-, -, h⟩ := bind_eq_ok h
  obtain ⟨-, -, h⟩ := bind_eq_ok h
  obtain ⟨-, -, h⟩ := bind_eq_ok h
  obtain ⟨_, hsize, h⟩ := bind_eq_ok h
  have hfree := demand_eq_ok h
  have hsize := demand_eq_ok hsize
  simp only [Bool.or_eq_true, beq_iff_eq] at hsize hfree
  exact ⟨hsize, hfree⟩

namespace Session.Sound

theorem contextUpdates (hs : s.Sound level) (commandCode : Nat) (name : Bytes) (ref : Option Bytes)
    (timeout : Nat) {cpHash : Bytes} (hlen : cpHash = [] ∨ cpHash.length = s.policyDigest.length)
    (hfree : cpHash = [] ∨ s.u1 = [] ∨ cpHash = s.u1) (hcast : ¬ s.Recast cpHash) :
    s.Advances level (policyContextUpdate H commandCode name ref cpHash timeout s)
      (cpHashRestriction cpHash ++ if timeout = 0 then [] else [.expiry timeout s.epoch]) := by
  rw [hs.digest] at hlen
  have hname := hs.extends_ (H := H) commandCode name
  cases ref with
  | none => exact hname.trans (hname.sound.limits hlen hfree hcast)
  | some ref =>
      have href := hname.trans (hname.sound.digests (H.length_eq s.authHashAlg ((s.extend H commandCode name).policyDigest ++ ref)))
      exact href.trans (href.sound.limits hlen hfree hcast)

theorem clears (hs : s.Sound level) : s.Advances level s.policyDigestClear [] :=
  hs.digests List.length_replicate

theorem authorizes (hs : s.Sound level) (commandCode : Nat) (name : Bytes) (ref : Option Bytes) :
    s.Advances level (policyContextUpdate H commandCode name ref [] 0 s.policyDigestClear) [] :=
  hs.clears.trans (hs.clears.sound.contextUpdates _ _ _ 0 (.inl rfl) (.inl rfl) fun h => h.1 rfl)

theorem compares (hs : s.Sound level) {commandCode : Nat} {argument name : Bytes}
    {limits comparison : Except Fault Unit} :
    s.Advances level (policyCompare H commandCode argument name limits comparison s).2 [] := by
  unfold policyCompare
  split
  · exact hs.stays
  · split
    · exact hs.stays
    · exact hs.extends_ _ _

/-- A real session of `TPM2_PolicySigned` or `TPM2_PolicySecret` gets what they assert. -/
theorem restricts (hs : s.Sound level) {a : PolicyAuthorization} {commandCode i j k : Nat} {u : Unit}
    (h : policyParameterChecks w s (computeAuthTimeout w s a.expiration a.nonceTpm) a.cpHashA (some a.nonceTpm)
      i j k = .ok u)
    (hcast : ¬ s.Recast a.cpHashA) (hwraps : ¬ a.Wraps w s) :
    s.Advances level
      (policyContextUpdate H commandCode a.name (some a.policyRef) a.cpHashA
        (computeAuthTimeout w s a.expiration a.nonceTpm) s)
      (a.restrictions w s) := by
  obtain ⟨hlen, hfree⟩ := policyParameterChecks_eq_ok h
  have hupdate := hs.contextUpdates (H := H) commandCode a.name (some a.policyRef)
    (computeAuthTimeout w s a.expiration a.nonceTpm) hlen hfree hcast
  by_cases hzero : a.expiration = 0
  · have htimeout : computeAuthTimeout w s a.expiration a.nonceTpm = 0 := if_pos hzero
    rw [if_pos htimeout] at hupdate
    rw [PolicyAuthorization.restrictions, if_pos hzero]
    exact hupdate
  · rw [if_neg fun htimeout => hwraps ⟨hzero, htimeout⟩] at hupdate
    rw [PolicyAuthorization.restrictions, if_neg hzero]
    exact hupdate

end Session.Sound

theorem policySigned_advances (hs : s.Sound level) {a : PolicyAuthorization} {signature ticket : Except Fault Unit}
    (hcast : ¬ s.Recast a.cpHashA) (hwraps : ¬ a.Wraps w s) :
    s.Advances level (policySigned H w a signature ticket s).2
      (gains (policySigned H w a signature ticket s) (a.restrictions w s)) := by
  simp only [policySigned, hs.real, Bool.false_eq_true, if_false]
  split
  · exact hs.stays
  · rename_i hchecks
    obtain ⟨_, hparameters, -⟩ := bind_eq_ok hchecks
    exact (hs.restricts hparameters hcast hwraps).gained _

theorem policySecret_advances (hs : s.Sound level) {a : PolicyAuthorization} {pinPass : Bool}
    {ticket : Except Fault Unit} (hcast : ¬ s.Recast a.cpHashA) (hwraps : ¬ a.Wraps w s) :
    s.Advances level (policySecret H w a pinPass ticket s).2
      (gains (policySecret H w a pinPass ticket s) (a.restrictions w s)) := by
  simp only [policySecret, hs.real, Bool.false_eq_true, if_false]
  split
  · exact hs.stays
  · rename_i hchecks
    exact (hs.restricts hchecks hcast hwraps).gained _

theorem policyTicket_advances (hs : s.Sound level) {timeout cpHashA policyRef authName : Bytes} {signed : Bool}
    {ticket : Except Fault Unit} (hcast : ¬ s.Recast cpHashA) :
    s.Advances level (policyTicket H w timeout cpHashA policyRef authName signed ticket s).2
      (gains (policyTicket H w timeout cpHashA policyRef authName signed ticket s)
        (cpHashRestriction cpHashA ++
          if ticketTimeout timeout = 0 then [] else [.expiry (ticketTimeout timeout) s.epoch])) := by
  simp only [policyTicket, hs.real, Bool.false_eq_true, if_false]
  split
  · exact hs.stays
  · split
    · exact hs.stays
    · rename_i hchecks
      split
      · exact hs.stays
      · obtain ⟨hlen, hfree⟩ := policyParameterChecks_eq_ok hchecks
        exact hs.contextUpdates (H := H) (if signed then 0x160 else 0x151) authName (some policyRef)
          (ticketTimeout timeout) hlen hfree hcast

theorem policyPCR_advances (hs : s.Sound level) {pcrs current pcrDigest : Bytes} (hne : w.pcrCounter ≠ 0) :
    s.Advances level (policyPCR H w pcrs current pcrDigest s).2
      (gains (policyPCR H w pcrs current pcrDigest s) [.pcrCounter w.pcrCounter]) := by
  simp only [policyPCR, hs.real, Bool.false_eq_true, if_false]
  split
  · exact hs.stays
  · rename_i hsame
    split
    · exact hs.stays
    · have hextend := hs.extends_ (H := H) 0x17F (pcrs ++ current)
      refine hextend.trans (hextend.sound.counts (fun hc => ?_) hne)
      by_contra hdiffer
      exact hsame ⟨hc, hdiffer⟩

theorem policyLocality_advances (hs : s.Sound level) (locality : UInt8) :
    s.Advances level (policyLocality H locality s).2
      (gains (policyLocality H locality s) [.locality locality]) := by
  unfold policyLocality
  split
  · exact hs.stays
  · rename_i setting hsetting
    have hextend := hs.extends_ (H := H) 0x16F [locality]
    exact hextend.trans (hextend.sound.locates hsetting)

theorem commandTable_code_ne_zero : ∀ c ∈ commandTable, c.code ≠ 0 := by decide

theorem commandCode_ne_zero {enabledCommands : Nat → Bool} {code : Nat}
    (h : ¬ (commandCodeToCommandIndex enabledCommands code).isNone = true) : code ≠ 0 := by
  obtain ⟨c, hc⟩ := Option.ne_none_iff_exists'.mp (Option.isNone_iff_eq_none.not.mp h)
  obtain ⟨hmem, rfl⟩ := commandCodeToCommandIndex_eq_some hc
  exact commandTable_code_ne_zero c hmem

theorem policyCommandCode_advances (hs : s.Sound level) (code : Nat) :
    s.Advances level (policyCommandCode H w code s).2
      (gains (policyCommandCode H w code s) [.commandCode code]) := by
  unfold policyCommandCode
  split
  · exact hs.stays
  · rename_i hsame
    split
    · exact hs.stays
    · rename_i hindex
      have hextend := hs.extends_ (H := H) 0x16C (be 4 code)
      refine hextend.trans (hextend.sound.codes (fun hc => ?_) (commandCode_ne_zero hindex))
      by_contra hdiffer
      exact hsame ⟨hc, hdiffer⟩

theorem policyNvWritten_advances (hs : s.Sound level) (writtenSet : Bool) :
    s.Advances level (policyNvWritten H writtenSet s).2
      (gains (policyNvWritten H writtenSet s) [.nvWritten writtenSet]) := by
  unfold policyNvWritten
  split
  · exact hs.stays
  · rename_i hsame
    have hextend := hs.extends_ (H := H) 0x18F (be 1 writtenSet.toNat)
    refine hextend.trans (hextend.sound.requiresWritten fun hc => ?_)
    by_contra hdiffer
    exact hsame ⟨hc, hdiffer⟩

/-- What `IsCpHashUnionOccupied` does not see is not there. -/
theorem free_of_not_unseen (hd : ¬ s.Unseen) (hno : s.attributes.isCpHashUnionOccupied = false) : s.u1 = [] := by
  by_contra hne
  exact hd ⟨hne, hno⟩

theorem policyCpHash_advances (hs : s.Sound level) {cpHashA : Bytes} (hd : ¬ s.Unseen) :
    s.Advances level (policyCpHash H cpHashA s).2
      (gains (policyCpHash H cpHashA s) [.union .cpHash cpHashA]) := by
  unfold policyCpHash
  split
  · exact hs.stays
  · rename_i hlen
    split
    · exact hs.stays
    · rename_i hother
      have hextend := hs.extends_ (H := H) 0x16E cpHashA
      refine hextend.trans (hextend.sound.unions .cpHash (Decidable.not_not.mp hlen) ?_)
      cases hoccupied : s.attributes.isCpHashUnionOccupied with
      | false => exact .inl (free_of_not_unseen hd hoccupied)
      | true =>
          simp only [hoccupied, true_and, not_or, Bool.not_eq_false, Decidable.not_not] at hother
          exact .inr ⟨hother.2.symm, if_pos hother.1⟩

theorem policyNameHash_advances (hs : s.Sound level) {nameHash : Bytes} (hd : ¬ (s.Unseen ∧ s.u1 ≠ nameHash)) :
    s.Advances level (policyNameHash H level nameHash s).2
      (gains (policyNameHash H level nameHash s) [.union .nameHash nameHash]) := by
  unfold policyNameHash
  split
  · exact hs.stays
  · rename_i hlen
    split
    · exact hs.stays
    · rename_i hno
      have hextend := hs.extends_ (H := H) 0x170 nameHash
      have hno := Bool.eq_false_iff.mpr hno
      refine hextend.trans (hextend.sound.unions .nameHash (Decidable.not_not.mp hlen) ?_)
      by_cases hnil : s.u1 = []
      · exact .inl hnil
      · have hsame : s.u1 = nameHash := by
          by_contra hdiffer
          exact hd ⟨⟨hnil, hno⟩, hdiffer⟩
        have hlevel : level < 4 := by
          by_contra hge
          rw [hs.seen (Nat.le_of_not_lt hge) hnil] at hno
          cases hno
        simp only [SessionAttributes.isCpHashUnionOccupied, Bool.or_eq_false_iff] at hno
        refine .inr ⟨hsame, ?_⟩
        simp [Session.extend, Session.unionKind, hno, hlevel]

theorem policyParameters_advances (hs : s.Sound level) {pHash : Bytes} (hd : ¬ s.Unseen) :
    s.Advances level (policyParameters H pHash s).2
      (gains (policyParameters H pHash s) [.union .pHash pHash]) := by
  unfold policyParameters
  split
  · exact hs.stays
  · rename_i hlen
    split
    · exact hs.stays
    · rename_i hno
      have hextend := hs.extends_ (H := H) 0x19C pHash
      exact hextend.trans (hextend.sound.unions .pHash (Decidable.not_not.mp hlen)
        (.inl (free_of_not_unseen hd (Bool.eq_false_iff.mpr hno))))

theorem policyTemplate_advances (hs : s.Sound level) {templateHash : Bytes} (hd : ¬ s.Unseen) :
    s.Advances level (policyTemplate H templateHash s).2
      (gains (policyTemplate H templateHash s) [.union .templateHash templateHash]) := by
  unfold policyTemplate
  split
  · exact hs.stays
  · rename_i hother
    split
    · exact hs.stays
    · rename_i hlen
      have hextend := hs.extends_ (H := H) 0x190 templateHash
      refine hextend.trans (hextend.sound.unions .templateHash (Decidable.not_not.mp hlen) ?_)
      cases hoccupied : s.attributes.isCpHashUnionOccupied with
      | false => exact .inl (free_of_not_unseen hd hoccupied)
      | true =>
          simp only [hoccupied, true_and, not_or, Bool.not_eq_false, Decidable.not_not] at hother
          exact .inr ⟨hother.2.symm, hs.template hother.1⟩

theorem policyDuplicationSelect_advances (hs : s.Sound level) {objectName newParentName : Bytes}
    {includeObject : Bool} :
    s.Advances level (policyDuplicationSelect H level objectName newParentName includeObject s).2
      (gains (policyDuplicationSelect H level objectName newParentName includeObject s)
        [.union .nameHash (H.hash s.authHashAlg (objectName ++ newParentName)), .commandCode 0x14B]) := by
  unfold policyDuplicationSelect
  split
  · exact hs.stays
  · rename_i hfree
    split
    · exact hs.stays
    · rename_i hcode
      have hextend := hs.extends_ (H := H) 0x188
        ((if includeObject then objectName ++ newParentName else newParentName) ++ be 1 includeObject.toNat)
      have hunion := hextend.trans (hextend.sound.unions .nameHash
        (H.length_eq s.authHashAlg (objectName ++ newParentName)) (.inl (Decidable.not_not.mp hfree)))
      exact hunion.trans (hunion.sound.codes (fun hc => absurd hc hcode) (by decide))

theorem act_advances (c : PolicyCommand) (hs : s.Sound level) (hd : ¬ c.Drops w s) :
    s.Advances level (c.act H level w s).2 (gains (c.act H level w s) (c.restrictions H w s)) := by
  cases c with
  | policySigned a signature ticket =>
      obtain ⟨hcast, hwraps⟩ := not_or.mp hd
      exact policySigned_advances hs hcast hwraps
  | policySecret a pinPass ticket =>
      obtain ⟨hcast, hwraps⟩ := not_or.mp hd
      exact policySecret_advances hs hcast hwraps
  | policyTicket timeout cpHashA policyRef authName signed ticket => exact policyTicket_advances hs hd
  | policyOR pHashList =>
      simp only [PolicyCommand.act, policyOR]
      split
      · exact hs.clears.trans (hs.clears.sound.extends_ _ _)
      · exact hs.stays
  | policyPCR pcrs current pcrDigest => exact policyPCR_advances hs hd
  | policyPhysicalPresence =>
      have hextend := hs.extends_ (H := H) 0x187 []
      exact hextend.trans hextend.sound.requiresPP
  | policyLocality locality => exact policyLocality_advances hs locality
  | policyNV argument nvName comparison => exact hs.compares.gained _
  | policyCounterTimer argument limits comparison => exact hs.compares.gained _
  | policyCapability argument comparison => exact hs.compares.gained _
  | policyCommandCode code => exact policyCommandCode_advances hs code
  | policyCpHash cpHashA => exact policyCpHash_advances hs hd
  | policyNameHash nameHash => exact policyNameHash_advances hs hd
  | policyDuplicationSelect objectName newParentName includeObject => exact policyDuplicationSelect_advances hs
  | policyAuthorize approvedPolicy policyRef keySign keyName ticket =>
      simp only [PolicyCommand.act, policyAuthorize]
      split
      · exact hs.stays
      · exact hs.authorizes (H := H) 0x16A keySign (some policyRef)
  | policyAuthorizeNV name policyInNv =>
      simp only [PolicyCommand.act, policyAuthorizeNV]
      split
      · exact hs.stays
      · exact hs.authorizes (H := H) 0x192 name none
  | policyAuthValue =>
      have hextend := hs.extends_ (H := H) 0x16B []
      exact hextend.trans (hextend.sound.flags true false)
  | policyPassword =>
      have hextend := hs.extends_ (H := H) 0x16B []
      exact hextend.trans (hextend.sound.flags false true)
  | policyGetDigest => exact hs.stays
  | policyNvWritten writtenSet => exact policyNvWritten_advances hs writtenSet
  | policyTemplate templateHash => exact policyTemplate_advances hs hd
  | policyParameters pHash => exact policyParameters_advances hs hd

/-! ## What the check accepts -/

/-- What a session that passes the check says about the command, as far as the restrictions go. -/
structure Session.Accepts (H : PolicyHash) (level : Nat) (w : Circumstances) (x : AuthorizedCommand) (s : Session) :
    Prop where
  pcrCounter : s.pcrCounter = 0 ∨ s.pcrCounter = w.pcrCounter
  timeout : s.timeout = 0 ∨ (w.time ≤ s.timeout ∧ s.epoch = w.timeEpoch)
  commandCode : s.commandCode = 0 ∨ s.commandCode = x.code
  locality : localityAllowed s.commandLocality w.locality = true
  physicalPresence : s.attributes.isPPRequired = true → w.physicalPresence = true
  union : s.u1 = [] ∨ unionAccepts H level x s = true
  nvWritten : s.attributes.checkNvWritten = true → x.nvWritten = some s.attributes.nvWrittenState

theorem checkPolicyAuthSession_eq_ok {u : Unit} (h : checkPolicyAuthSession H level w x s = .ok u) :
    s.Accepts H level w x := by
  obtain ⟨-, -, h⟩ := bind_eq_ok h
  obtain ⟨_, hpcr, h⟩ := bind_eq_ok h
  obtain ⟨-, -, h⟩ := bind_eq_ok h
  obtain ⟨-, -, h⟩ := bind_eq_ok h
  obtain ⟨-, -, h⟩ := bind_eq_ok h
  obtain ⟨_, htimeout, h⟩ := bind_eq_ok h
  obtain ⟨_, hcode, h⟩ := bind_eq_ok h
  obtain ⟨-, -, h⟩ := bind_eq_ok h
  obtain ⟨_, hlocality, h⟩ := bind_eq_ok h
  obtain ⟨_, hpp, h⟩ := bind_eq_ok h
  obtain ⟨_, hunion, h⟩ := bind_eq_ok h
  have hpcr := demand_eq_ok hpcr
  have htimeout := demand_eq_ok htimeout
  have hcode := demand_eq_ok hcode
  have hpp := demand_eq_ok hpp
  have hunion := demand_eq_ok hunion
  have hwritten := demand_eq_ok h
  simp only [sessionPCRValueIsCurrent, Bool.or_eq_true, Bool.and_eq_true, Bool.not_eq_true', beq_iff_eq,
    decide_eq_true_eq] at hpcr htimeout hcode hpp hunion hwritten
  exact ⟨hpcr, htimeout, hcode, demand_eq_ok hlocality, fun hrequired => by simpa [hrequired] using hpp, hunion,
    fun hcheck => by simpa [hcheck] using hwritten⟩

theorem testBit_of_covers {mask l : UInt8} (h : l &&& mask = l) {i : Nat} (hbit : l.toNat.testBit i = true) :
    mask.toNat.testBit i = true := by
  rw [← h, UInt8.toNat_and, Nat.testBit_and, Bool.and_eq_true] at hbit
  exact hbit.2

/-- Each locality of a narrower setting is one of the mask. -/
theorem localityAllowed_covers {mask l locality : UInt8} (hne : l ≠ 0) (hcovers : Covers mask l)
    (h : localityAllowed l locality = true) :
    (mask < 32 ∧ locality < 5 ∧ mask.toNat.testBit locality.toNat = true) ∨ (32 ≤ mask ∧ locality = mask) := by
  rw [localityAllowed, if_neg hne] at h
  rcases hcovers with ⟨hmask, hl, hand⟩ | ⟨hmask, rfl⟩
  · split at h
    · rename_i hlow
      rw [Bool.and_eq_true] at h
      exact .inl ⟨hmask, hlow, testBit_of_covers hand h.1⟩
    · split at h
      · rename_i hhigh
        rw [beq_iff_eq] at h
        subst h
        exact absurd hl (by simp only [UInt8.lt_iff_toNat_lt] at *; simp at *; omega)
      · cases h
  · split at h
    · rw [Bool.and_eq_true, decide_eq_true_eq] at h
      exact absurd h.2 (by simp only [UInt8.le_iff_toNat_le] at *; simp at *; omega)
    · split at h
      · rw [beq_iff_eq] at h
        exact .inr ⟨hmask, h.symm⟩
      · cases h

theorem unionDigest_of_accepts {kind : UnionKind} (hs : s.Sound level) (hne : s.u1 ≠ [])
    (hkind : s.unionKind level = some kind) (h : unionAccepts H level x s = true) :
    x.unionDigest H s.authHashAlg kind = some s.u1 := by
  rw [unionAccepts, hkind] at h
  cases kind with
  | nameHash =>
      rw [beq_iff_eq, List.take_of_length_le (Nat.le_of_eq (hs.size.resolve_left hne))] at h
      rw [AuthorizedCommand.unionDigest, h]
  | cpHash | pHash | templateHash => simpa using h

theorem Restriction.Held.satisfied {r : Restriction} (hr : r.Held level s) (hs : s.Sound level)
    (h : s.Accepts H level w x) : r.Satisfied H w s.authHashAlg x := by
  cases r with
  | commandCode code =>
      obtain ⟨rfl, hne⟩ := hr
      exact (h.commandCode.resolve_left hne).symm
  | union kind digest =>
      obtain ⟨rfl, hne, hkind⟩ := hr
      exact unionDigest_of_accepts hs hne hkind (h.union.resolve_left hne)
  | locality mask =>
      obtain ⟨hne, hcovers⟩ := hr
      exact localityAllowed_covers hne hcovers h.locality
  | physicalPresence => exact h.physicalPresence hr
  | nvWritten writtenSet =>
      obtain ⟨hcheck, rfl⟩ := hr
      exact h.nvWritten hcheck
  | expiry timeout epoch =>
      obtain ⟨hne, hle, rfl⟩ := hr
      obtain ⟨htime, hepoch⟩ := h.timeout.resolve_left hne
      exact ⟨htime.trans hle, hepoch.symm⟩
  | pcrCounter counter =>
      obtain ⟨rfl, hne⟩ := hr
      exact (h.pcrCounter.resolve_left hne).symm

/-! ## Whole runs -/

/-- The session carries everything that has been asserted. -/
structure PolicyHistory.Kept (level : Nat) (r : PolicyHistory) : Prop where
  sound : r.session.Sound level
  held : ∀ a ∈ r.asserted, a.Held level r.session

theorem Session.Sound.reset (hs : s.Sound level) : s.resetPolicyData.Sound level where
  real := hs.real
  unbound := rfl
  digest := List.length_replicate.trans hs.digest
  size := .inl rfl
  vacant _ := rfl
  seen _ hne := absurd rfl hne
  noName _ := rfl
  template := nofun

theorem PolicyHistory.Started.kept {r : PolicyHistory} (h : r.Started) : r.Kept level := by
  obtain ⟨authHash, nonceTpm, isDaBound, isLockoutBound, hsession, hasserted⟩ := h
  constructor
  · rw [hsession]
    exact ⟨rfl, rfl, List.length_replicate, .inl rfl, fun _ => rfl, fun _ hne => absurd rfl hne, fun _ => rfl, nofun⟩
  · rw [hasserted]
    exact nofun

theorem policyStep_kept {r : PolicyHistory} (h : r.Kept level) {e : PolicyEvent} (hd : ¬ e.Drops r) :
    (policyStep H level r e).Kept level := by
  cases e with
  | world w => exact ⟨h.sound, h.held⟩
  | command c =>
      have hc := act_advances (H := H) c h.sound hd
      refine ⟨hc.sound, fun a ha => ?_⟩
      rcases List.mem_append.1 ha with ha | ha
      · exact (h.held a ha).mono hc.narrows
      · exact hc.held a ha
  | restart => exact ⟨h.sound.reset, nofun⟩
  | rolled =>
      have hr := h.sound.reset
      exact ⟨⟨hr.real, hr.unbound, hr.digest, hr.size, hr.vacant, hr.seen, hr.noName, hr.template⟩, nofun⟩

/-- A run of a real policy session in which no command drops a restriction. -/
def KeepingRun (H : PolicyHash) (level : Nat) : PolicyHistory → Prop :=
  Reachable PolicyHistory.Started fun r r' => ∃ e : PolicyEvent, ¬ e.Drops r ∧ r' = policyStep H level r e

theorem KeepingRun.kept {r : PolicyHistory} (h : KeepingRun H level r) : r.Kept level := by
  refine Reachable.invariant (fun r hr => hr.kept) ?_ h
  rintro r r' hr ⟨e, hd, rfl⟩
  exact policyStep_kept hr hd

/-- Where no command drops a restriction, a command that the session authorizes satisfies all of them. -/
theorem restrictions_conjunctive_of_keepingRun {r : PolicyHistory} (hrun : KeepingRun H level r)
    (x : AuthorizedCommand) (h : checkPolicyAuthSession H level r.world x r.session = .ok ()) :
    ∀ a ∈ r.asserted, a.Satisfied H r.world r.session.authHashAlg x := by
  intro a ha
  exact (hrun.kept.held a ha).satisfied hrun.kept.sound (checkPolicyAuthSession_eq_ok h)

end

def plainWorld : Circumstances where
  pcrCounter := 1
  time := 0
  timeEpoch := 0
  nvAvailable := true
  locality := 0
  physicalPresence := false
  enabledCommands _ := true

def freshHistory : PolicyHistory where
  session := Session.createPolicy plainWorld .sha256 [] false false false
  world := plainWorld

/-- `TPM2_ClearControl` with disable YES for the owner of lockoutAuth, whose Name is its handle whatever
lockoutPolicy is. -/
def clearControlCommand (lockoutPolicy : Bytes) : AuthorizedCommand where
  code := 0x127
  handleNames := [be 4 0x4000000A]
  parameters := [1]
  role := .user
  authPolicy := lockoutPolicy
  policyAlg := some .sha256
  nvWritten := none

/-- SHA-256 where the next run asks for it. -/
def sha256Values : List (Bytes × Bytes) :=
  let cpHash := be 32 0x61ff0c78ed71b61e92fa1e8cc03a8044b97220f14e392cddef5f06eb72b06040
  let first := be 32 0x2a2b9cbbdf460557d68a349beec2acdf0d9d8e5b73b5b649791ad090e5789b18
  [(be 4 0x127 ++ be 4 0x4000000A ++ [1], cpHash),
   (List.replicate 32 0 ++ be 4 0x16E ++ cpHash, first),
   (first ++ be 4 0x16C ++ be 4 0x127, be 32 0x416ba37fb190280d2fdcd9d5e94c916ee0e69d86e896034de3cc2ab8debcfb7f)]

def tabulatedHash : PolicyHash := .tabulated sha256Values

def boundToClearControl : List PolicyEvent :=
  [.command (.policyCpHash (be 32 0x61ff0c78ed71b61e92fa1e8cc03a8044b97220f14e392cddef5f06eb72b06040)),
   .command (.policyCommandCode 0x127)]

theorem clearControl_restricted :
    let r := run (policyStep tabulatedHash 4) freshHistory boundToClearControl
    let x := clearControlCommand (be 32 0x416ba37fb190280d2fdcd9d5e94c916ee0e69d86e896034de3cc2ab8debcfb7f)
    checkPolicyAuthSession tabulatedHash 4 r.world x r.session = .ok () ∧
      ∀ a ∈ r.asserted, a.Satisfied tabulatedHash r.world r.session.authHashAlg x := by
  intro r x
  have hok : checkPolicyAuthSession tabulatedHash 4 r.world x r.session = .ok () := by
    decide +kernel
  have hstart : KeepingRun tabulatedHash 4 freshHistory := .init ⟨.sha256, [], false, false, rfl, rfl⟩
  have hcpHash := hstart.step ⟨boundToClearControl[0], fun h => h.1 rfl, rfl⟩
  have hrun : KeepingRun tabulatedHash 4 r := hcpHash.step ⟨boundToClearControl[1], id, rfl⟩
  exact ⟨hok, restrictions_conjunctive_of_keepingRun hrun x hok⟩

/-- Whatever is asserted is satisfied by every command that the session authorizes. -/
def RestrictionsConjunctive (H : PolicyHash) (level : Nat) : Prop :=
  ∀ r, Reachable PolicyHistory.Started (fun r r' => ∃ e : PolicyEvent, r' = policyStep H level r e) r →
    ∀ x, checkPolicyAuthSession H level r.world x r.session = .ok () →
      ∀ a ∈ r.asserted, a.Satisfied H r.world r.session.authHashAlg x

/-- A template hash, and then the same octets as the `cpHashA` of `TPM2_PolicySecret`. -/
def recast (cpHash : Bytes) : List PolicyEvent :=
  [.command (.policyTemplate cpHash), .command (.policySecret ⟨be 4 0x4000000B, [], cpHash, [], 0⟩ false (.ok ()))]

/-- The session after these two: what it holds is a cpHash now. -/
theorem recast_run (H : PolicyHash) (level : Nat) {cpHash : Bytes} (hlen : cpHash.length = HashAlg.sha256.digestSize) :
    ∃ digest, run (policyStep H level) freshHistory (recast cpHash) =
      { session :=
          { attributes := { isPolicy := true, isTemplateHashDefined := true, isCpHashDefined := true }
            authHashAlg := .sha256, u1 := cpHash, policyDigest := digest }
        world := plainWorld
        asserted := [.union .templateHash cpHash, .union .cpHash cpHash] } := by
  have hne : cpHash ≠ [] := by
    rintro rfl
    cases hlen
  refine ⟨(run (policyStep H level) freshHistory (recast cpHash)).session.policyDigest, ?_⟩
  simp [recast, policyStep, PolicyCommand.act, policyTemplate, policySecret, freshHistory, Session.createPolicy,
    Session.setStartTime, SessionAttributes.isCpHashUnionOccupied, hlen, computeAuthTimeout,
    policyParameterChecks, demand, Session.extend, H.length_eq, policyContextUpdate, Session.limit, hne, gains,
    PolicyCommand.restrictions, PolicyAuthorization.restrictions, cpHashRestriction]
  exact ⟨rfl, rfl⟩

theorem AuthorizedCommand.length_cpHash (H : PolicyHash) (x : AuthorizedCommand) (alg : HashAlg) :
    (x.cpHash H alg).length = alg.digestSize :=
  H.length_eq alg _

theorem restrictions_not_conjunctive : ¬ ∃ H level, RestrictionsConjunctive H level := by
  rintro ⟨H, level, h⟩
  have hstart : freshHistory.Started := ⟨.sha256, [], false, false, rfl, rfl⟩
  obtain ⟨digest, hend⟩ := recast_run H level (AuthorizedCommand.length_cpHash H (clearControlCommand []) .sha256)
  have hrun : Reachable PolicyHistory.Started (fun r r' => ∃ e : PolicyEvent, r' = policyStep H level r e)
      (run (policyStep H level) freshHistory (recast ((clearControlCommand []).cpHash H .sha256))) :=
    Reachable.of_run hstart _
  rw [hend] at hrun
  have hall := h _ hrun (clearControlCommand digest) (by
    simp [checkPolicyAuthSession, demand, clearControlCommand, sessionPCRValueIsCurrent, localityAllowed, unionAccepts,
      Session.unionKind, AuthorizedCommand.unionDigest, AuthorizedCommand.cpHash]
    rfl)
  -- no template goes with this command
  cases hall _ List.mem_cons_self

end PqcTpm
