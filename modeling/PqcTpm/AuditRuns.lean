import PqcTpm.AuditActions

/-!
# Audit logs over whole runs

After an action the sessions are audited, then the command, and then the sessions answer. With the actions this keeps
the digests those of the ledger, in every state that a run reaches.
-/
namespace PqcTpm
open ByteCodec Transition

namespace AuditMachine
variable {H : PolicyHash} {level : Nat} {m m' : AuditMachine} {l l' : AuditLedger} {a : AuditCommand} {r : SessionReply}
  {settled settled' : SessionIndex → Prop} {c c' : HashedCommand} {row : CommandRow}

/-! ## A command that is refused -/

theorem Recorded.onSessions (hr : m.Recorded H l) {s : SessionMachine} (hf : ({ m with sessions := s } : AuditMachine).Faithful H
    (fun _ => True) l) (horderly : s.orderly = some .state → m.sessions.orderly = some .state) :
    ({ m with sessions := s } : AuditMachine).Recorded H l :=
  ⟨hf, hr.command, fun hstate => hr.saved (horderly hstate)⟩

/-- An action that is refused leaves the logs as they are. -/
theorem act_error {e : Fault} (hr : m.Recorded H l)
    (hlast : ∀ handle, a.action = .contextSave handle → m.sessions.table.contextCounter ≠ 2 ^ 64 - 1)
    (h : m.act H level a = (.error e, m')) : m'.Recorded H l ∧ m'.mode = m.mode := by
  have hpolicy : ∀ handle (f : Session → PolicyOutcome),
      (∀ x, x.attributes.isPolicy = true → x.attributes.isAudit = false →
        (f x).2.attributes.isPolicy = true ∧ (f x).2.attributes.isAudit = false) →
      (m.onPolicySession handle f).2.Recorded H l ∧ (m.onPolicySession handle f).2.mode = m.mode := by
    intro handle f hf
    obtain ⟨hfaithful, -, s, hs, horderly⟩ := onPolicySession_faithful hr.faithful handle hf
    rw [hs] at hfaithful ⊢
    exact ⟨hr.onSessions hfaithful fun hstate => horderly.symm.trans hstate, rfl⟩
  unfold act at h
  cases haction : a.action with
  | startup startupType nvOk sameStart =>
      rw [haction] at h
      dsimp only at h
      split at h
      · cases h
        exact ⟨hr, rfl⟩
      · cases h
  | shutdown pcrReConfig shutdownType =>
      rw [haction] at h
      dsimp only at h
      split at h
      · cases h
        exact ⟨hr, rfl⟩
      · cases h
  | startAuthSession sessionType checks session =>
      rw [haction] at h
      dsimp only [onSessions] at h
      rcases SessionMachine.startAuthSession_store hr.faithful.sound sessionType checks
        { session with attributes := { session.attributes with isAudit := false } } with ⟨c, hc⟩ | ⟨i, s, hs, -⟩
      · rw [hc] at h
        cases h
        exact ⟨hr, rfl⟩
      · rw [hs] at h
        cases h
  | contextSave handle =>
      rw [haction] at h
      obtain ⟨-, rfl⟩ := Prod.mk.inj h
      have hfaithful := contextSave_faithful hr.faithful (hlast handle haction) a.nvStatus handle
      refine ⟨hr.onSessions hfaithful fun hstate => ?_, rfl⟩
      rcases SessionMachine.contextSave_store hr.faithful.sound (hlast handle haction) a.nvStatus handle with hsame | ⟨hnone, -⟩
      · rwa [hsame] at hstate
      · exact absurd (hnone.symm.trans hstate) (by decide)
  | contextLoad checks context =>
      rw [haction] at h
      obtain ⟨-, rfl⟩ := Prod.mk.inj h
      have hgiven : (if context ∈ m.sessions.contexts then checks else some ⟨.integrity, 0x140⟩) = none →
          context ∈ m.sessions.contexts := given_of_integrity
      have hfaithful := contextLoad_faithful hr.faithful a.nvStatus hgiven
      refine ⟨hr.onSessions hfaithful fun hstate => ?_, rfl⟩
      rcases SessionMachine.contextLoad_store hr.faithful.sound a.nvStatus _ hgiven with
        hsame | ⟨hnone, -⟩
      · rwa [hsame] at hstate
      · exact absurd (hnone.symm.trans hstate) (by decide)
  | flushContext handle =>
      rw [haction] at h
      dsimp only at h
      rcases SessionMachine.flushContext_store hr.faithful.sound handle with ⟨c, hc⟩ | ⟨i, -, hstore, horderly⟩
      · rw [hc] at h
        cases h
        exact ⟨hr, rfl⟩
      · have hsound := (SessionMachine.flushContext_sustains hr.faithful.sound handle).sound
        split at h
        · rename_i hs
          rw [hs] at hstore horderly hsound
          cases h
          exact ⟨hr.onSessions (hr.faithful.drop hsound hstore horderly (.inl rfl))
            fun hstate => horderly.symm.trans hstate, rfl⟩
        · cases h
  | policy code handle cmd =>
      rw [haction] at h
      obtain rfl := congrArg Prod.snd h
      refine hpolicy handle _ fun x hx hplain => ?_
      have hpoliced : x.Policed _ (cmd.act H level a.circumstances x).2 := cmd.act_policed
      exact ⟨hpoliced.isPolicy.trans hx, hpoliced.isAudit.trans hplain⟩
  | policyRestart handle =>
      rw [haction] at h
      obtain rfl := congrArg Prod.snd h
      exact hpolicy handle _ fun _ _ _ => ⟨rfl, rfl⟩
  | setCommandCodeAuditStatus auditAlg setList clearList =>
      rw [haction] at h
      dsimp only [setCommandCodeAuditStatus] at h
      split at h
      · cases h
        exact ⟨hr, rfl⟩
      · split at h
        · split at h
          · cases h
            exact ⟨hr, rfl⟩
          · cases h
        · cases h
  | getCommandAuditDigest checks isSigned =>
      rw [haction] at h
      dsimp only at h
      split at h
      · cases h
        exact ⟨hr, rfl⟩
      · cases h
  | other code checks =>
      rw [haction] at h
      dsimp only at h
      split at h
      · cases h
        exact ⟨hr, rfl⟩
      · cases h

/-! ## The audit of the sessions -/

end AuditMachine

section
variable {H : PolicyHash} {log : List AuditEntry} {x : Session}

/-- The session from which an audit goes on. -/
def Session.auditFrom (x : Session) (reset : Bool) : Session :=
  if !x.attributes.isAudit || reset then x.initAuditSession else x

theorem Session.Logged.starts_iff (h : x.Logged H log) (reset : Bool) :
    (!x.attributes.isAudit || reset) = true ↔ (if reset then [] else log) = [] := by
  cases reset with
  | true => simp
  | false =>
      rw [Bool.or_false, Bool.not_eq_true', if_neg Bool.false_ne_true]
      rw [← Bool.not_eq_true, h.isAudit, not_not]

theorem Session.Logged.auditFrom (h : x.Logged H log) (hkind : x.attributes.isPolicy = false) (reset : Bool) :
    (x.auditFrom reset).authHashAlg = x.authHashAlg ∧ (x.auditFrom reset).attributes.isAudit = true ∧
      (x.auditFrom reset).attributes.isPolicy = false ∧
      (x.auditFrom reset).policyDigest = logDigest H x.authHashAlg (if reset then [] else log) := by
  have hstarts := h.starts_iff reset
  unfold Session.auditFrom
  by_cases hbegin : (!x.attributes.isAudit || reset) = true
  · rw [if_pos hbegin, hstarts.1 hbegin]
    exact ⟨rfl, rfl, hkind, rfl⟩
  · rw [if_neg hbegin]
    rw [Bool.not_eq_true, Bool.or_eq_false_iff, Bool.not_eq_false'] at hbegin
    rw [hbegin.2, if_neg Bool.false_ne_true]
    exact ⟨rfl, hbegin.1, hkind, h.digest hbegin.1⟩

end

namespace AuditMachine
variable {H : PolicyHash} {level : Nat} {m m' : AuditMachine} {l l' : AuditLedger} {a : AuditCommand} {r : SessionReply}
  {settled settled' : SessionIndex → Prop} {c c' : HashedCommand} {row : CommandRow}

/-- The sessions of a command are in use, after its action as before it. -/
def InUse (m : AuditMachine) (c : HashedCommand) (u : SessionUse) : Prop :=
  u.isPassword = false → ∃ i x, u.Of m.sessions i x ∧
    (u.attributes.audit = true → x.attributes.isPolicy = false ∧ c.cpHash x.authHashAlg ≠ [])

theorem InUse.change (hm : m.sessions.Sound) {handle : TpmHandle} {i : SessionIndex} {x y : Session}
    (hindex : handle.index = i.val) (hloaded : m.sessions.status i = .loaded) (hx : m.sessions.sessionAt i = some x)
    (hpolicy : y.attributes.isPolicy = x.attributes.isPolicy) (halg : y.authHashAlg = x.authHashAlg) {v : SessionUse}
    (hv : m.InUse c v) {f : Session → Session} (hf : f x = y) {exclusive : TpmHandle} :
    ({ m with sessions := m.sessions.change handle f, exclusiveAuditSession := exclusive } : AuditMachine).InUse c v := by
  intro hreal
  obtain ⟨j, z, hof, haudit⟩ := hv hreal
  refine ⟨j, _, uses_change hm hindex hloaded hx (hf ▸ hpolicy) hof, fun h => ?_⟩
  split
  · rename_i hji
    subst hji
    obtain rfl := Option.some.inj (hx.symm.trans hof.session)
    rw [hf, hpolicy, halg]
    exact haudit h
  · exact haudit h

/-- The exclusive session of a machine that has audited a command with a session is that session, or none. -/
theorem Faithful.audited (h : m.Faithful H settled l) {u : SessionUse} {i : SessionIndex} {x y : Session}
    (hof : u.Of m.sessions i x) (hkind : x.attributes.isPolicy = false) {log : List AuditEntry} (hy : y.Logged H log)
    (hpolicy : y.attributes.isPolicy = false) {exclusive : TpmHandle} {since : List (Option Nat)}
    (hexclusive : exclusive = u.handle ∧ (∀ n ∈ since, n = some (l.identity i)) ∨ exclusive = TpmHandle.rhUnassigned) :
    ({ m with sessions := m.sessions.change u.handle fun _ => y, exclusiveAuditSession := exclusive } : AuditMachine).Faithful H
      (fun _ => True) { l.log (l.identity i) log with since } := by
  have hmodify := h.modify (f := fun _ => y) hof.index hof.loaded hof.session hy rfl (hpolicy.trans hkind.symm)
  have htype : u.handle.getType ≠ TpmHandle.htPolicySession := by
    have hplain := hof.type.symm.trans hkind
    simpa [SessionUse.isPolicy] using hplain
  refine ⟨hmodify.sound, hmodify.records.congr rfl rfl rfl rfl, fun hstate => ?_, ?_, ?_, h.listed, h.unlisted⟩
  · exact (hmodify.keeps hstate).congr rfl rfl rfl rfl rfl rfl rfl
  · rcases hexclusive with ⟨rfl, -⟩ | rfl
    · exact fun _ => htype
    · exact fun hsession => absurd (TpmHandle.isSession_rhUnassigned.symm.trans hsession) (by decide)
  · intro j z _ _ _ heq
    rcases hexclusive with ⟨rfl, hsince⟩ | rfl
    · obtain rfl : i = j :=
        TpmHandle.ofSession_injective ((TpmHandle.eq_ofSession hof.isSession htype hof.index).symm.trans heq)
      exact hsince
    · exact absurd heq (TpmHandle.rhUnassigned_ne j)

/-- What the audit of sessions comes to; `all` says whether one of them is an audit session. -/
structure Audits (H : PolicyHash) (a : AuditCommand) (settled : SessionIndex → Prop) (all : Bool) (m : AuditMachine)
    (c : HashedCommand) (l : AuditLedger) (m' : AuditMachine) (c' : HashedCommand) (l' : AuditLedger) : Prop where
  same : ∃ s exclusive, m' = { m with sessions := s, exclusiveAuditSession := exclusive } ∧
    s.orderly = m.sessions.orderly
  answered : c'.Answered H a
  cpHash : c'.cpHash = c.cpHash
  faithful : m'.Faithful H settled l'
  settles : all = true → m'.Faithful H (fun _ => True) l'
  uses : ∀ v, m.InUse c v → m'.InUse c v
  commandLog : l'.commandLog = l.commandLog

/-- One audit session: its digest goes on as its log does, and it is exclusive or no session is. -/
theorem auditSession_ok (h : m.Faithful H settled l) (hc : c.Answered H a) {u : SessionUse}
    (hpassword : u.isPassword = true → u.attributes.audit = false) (hu : m.InUse c u)
    (hsettled : u.isPassword = false → ∀ i : SessionIndex, u.handle.index = i.val → settled i) :
    ∃ m' c', auditSession H (m, c) u = .ok (m', c') ∧
      Audits H a settled u.attributes.audit m c l m' c' (l.ofSession a u) := by
  cases haudit : u.attributes.audit with
  | false =>
      have hl : l.ofSession a u = l := by
        unfold AuditLedger.ofSession
        rw [if_pos (by simp [haudit])]
      rw [hl]
      refine ⟨m, c, ?_, ⟨⟨_, _, rfl, rfl⟩, hc, rfl, h, (nomatch ·), fun _ => id, rfl⟩⟩
      unfold auditSession
      rw [if_pos (by simp [haudit])]
  | true =>
      have hreal : u.isPassword = false := by
        cases hword : u.isPassword with
        | false => rfl
        | true => exact absurd ((hpassword hword).symm.trans haudit) (by decide)
      obtain ⟨i, x, hof, hready⟩ := hu hreal
      obtain ⟨hkind, hcp⟩ := hready haudit
      have hlogged := h.records.logged i x hof.session
      have hstarts := hlogged.starts_iff u.attributes.auditReset
      obtain ⟨halg, hbegun, hplain, hdigest⟩ := hlogged.auditFrom hkind u.attributes.auditReset
      obtain ⟨c', hupdate, hc', hsame⟩ := HashedCommand.Answered.updateAuditDigest hc
        (show c.cpHash (x.auditFrom u.attributes.auditReset).authHashAlg ≠ [] from halg ▸ hcp)
        (x.auditFrom u.attributes.auditReset).policyDigest
      generalize hbase : (if u.attributes.auditReset then [] else l.sessionLog (l.identity i)) = base at hstarts hdigest
      have hl : l.ofSession a u = { l.log (l.identity i) (base ++ [a.entry]) with
          since := (if base = [] then [] else l.since) ++ [some (l.identity i)] } := by
        unfold AuditLedger.ofSession
        rw [if_neg (by simp [hreal, haudit]), hof.index, SessionTable.entryAt_val]
        dsimp only
        rw [hbase]
        rfl
      set y : Session := { x.auditFrom u.attributes.auditReset with
        policyDigest := a.entry.extend H (x.auditFrom u.attributes.auditReset).authHashAlg
          (x.auditFrom u.attributes.auditReset).policyDigest } with hy
      have hnext : y.Logged H (base ++ [a.entry]) := by
        refine ⟨by simp [hy, hbegun], fun _ => hplain, fun _ => ?_⟩
        rw [logDigest_append]
        exact congrArg (a.entry.extend H _) (by rw [hdigest, ← halg])
      set exclusive : TpmHandle :=
        if (!x.attributes.isAudit || u.attributes.auditReset) = true then u.handle
        else if m.exclusiveAuditSession ≠ u.handle then TpmHandle.rhUnassigned
        else m.exclusiveAuditSession with hexcl
      have hexclusive : exclusive = u.handle ∧
          (∀ n ∈ (if base = [] then [] else l.since) ++ [some (l.identity i)], n = some (l.identity i)) ∨
            exclusive = TpmHandle.rhUnassigned := by
        rw [hexcl]
        by_cases hbegin : (!x.attributes.isAudit || u.attributes.auditReset) = true
        · rw [if_pos hbegin, if_pos (hstarts.1 hbegin)]
          exact .inl ⟨rfl, by simp⟩
        · rw [if_neg hbegin, if_neg fun hempty => hbegin (hstarts.2 hempty)]
          by_cases hother : m.exclusiveAuditSession ≠ u.handle
          · exact .inr (if_pos hother)
          · rw [if_neg hother]
            obtain hother := Decidable.not_not.1 hother
            refine .inl ⟨hother, fun n hn => ?_⟩
            have htype : u.handle.getType ≠ TpmHandle.htPolicySession := by
              simpa [SessionUse.isPolicy] using hof.type.symm.trans hkind
            rcases List.mem_append.1 hn with hn | hn
            · exact h.exclusive i x (hsettled hreal i hof.index) hof.session hkind
                (hother.trans (TpmHandle.eq_ofSession hof.isSession htype hof.index)) n hn
            · exact List.mem_singleton.1 hn
      have hfaithful := h.audited hof hkind hnext hplain hexclusive
      rw [hl]
      refine ⟨_, c', ?_, ⟨⟨_, exclusive, rfl, (SessionMachine.change_store h.sound hof.index hof.loaded _).2.2⟩, hc', hsame,
        hfaithful.mono fun _ _ => trivial, fun _ => hfaithful, fun v hv => ?_, rfl⟩⟩
      · unfold auditSession
        rw [if_neg (by simp [hreal, haudit]), hof.get h.sound]
        change ((c.updateAuditDigest H (x.auditFrom u.attributes.auditReset).authHashAlg
          (x.auditFrom u.attributes.auditReset).policyDigest) >>= _) = _
        rw [hupdate]
        rfl
      · exact hv.change h.sound hof.index hof.loaded hof.session (y := y) (hplain.trans hkind.symm) halg rfl

theorem InUse.congr {v : SessionUse} (h : m.InUse c v) (hcp : c'.cpHash = c.cpHash) : m.InUse c' v := by
  unfold InUse at h ⊢
  rw [hcp]
  exact h

/-- The sessions of a command, in their order. -/
theorem auditSessions_ok {us : List SessionUse} (h : m.Faithful H settled l) (hc : c.Answered H a)
    (hpassword : ∀ u ∈ us, u.isPassword = true → u.attributes.audit = false) (hus : ∀ u ∈ us, m.InUse c u)
    (hsettled : ∀ u ∈ us, u.isPassword = false → ∀ i : SessionIndex, u.handle.index = i.val → settled i) :
    ∃ m' c', us.foldlM (auditSession H) (m, c) = .ok (m', c') ∧
      Audits H a settled (us.any fun u => u.attributes.audit) m c l m' c' (us.foldl (AuditLedger.ofSession a) l) := by
  induction us generalizing m c l settled with
  | nil => exact ⟨m, c, rfl, ⟨⟨_, _, rfl, rfl⟩, hc, rfl, h, (nomatch ·), fun _ => id, rfl⟩⟩
  | cons u us ih =>
      obtain ⟨m₁, c₁, hu, hfirst⟩ :=
        auditSession_ok h hc (hpassword u List.mem_cons_self) (hus u List.mem_cons_self) (hsettled u List.mem_cons_self)
      have hwords := fun v hv => hpassword v (List.mem_cons_of_mem _ hv)
      have huses := fun v hv => (hfirst.uses v (hus v (List.mem_cons_of_mem _ hv))).congr hfirst.cpHash
      -- after an audit session every session is settled
      have hrest : ∃ m' c', us.foldlM (auditSession H) (m₁, c₁) = .ok (m', c') ∧
          Audits H a settled (u.attributes.audit || us.any fun u => u.attributes.audit) m₁ c₁ (l.ofSession a u) m' c'
            (us.foldl (AuditLedger.ofSession a) (l.ofSession a u)) := by
        cases haudit : u.attributes.audit with
        | true =>
            obtain ⟨m', c', hfold, hall⟩ := ih (hfirst.settles haudit) hfirst.answered hwords huses
              fun _ _ _ _ _ => trivial
            exact ⟨m', c', hfold, hall.same, hall.answered, hall.cpHash, hall.faithful.mono fun _ _ => trivial,
              fun _ => hall.faithful, hall.uses, hall.commandLog⟩
        | false =>
            exact ih hfirst.faithful hfirst.answered hwords huses fun v hv => hsettled v (List.mem_cons_of_mem _ hv)
      obtain ⟨m', c', hfold, hall⟩ := hrest
      refine ⟨m', c', ?_, ?_, hall.answered, hall.cpHash.trans hfirst.cpHash, hall.faithful, ?_, ?_,
        hall.commandLog.trans hfirst.commandLog⟩
      · rw [List.foldlM_cons, hu]
        exact hfold
      · obtain ⟨s₁, exclusive₁, rfl, horderly₁⟩ := hfirst.same
        obtain ⟨s, exclusive, rfl, horderly⟩ := hall.same
        exact ⟨s, exclusive, rfl, horderly.trans horderly₁⟩
      · rw [List.any_cons]
        exact hall.settles
      · exact fun v hv => (hall.uses v ((hfirst.uses v hv).congr hfirst.cpHash)).congr hfirst.cpHash.symm

/-- `UpdateAuditSessionStatus` for a command whose sessions are in use. -/
theorem updateAuditSessionStatus_ok (h : m.Faithful H settled l) (hc : c.Answered H a)
    (hpassword : ∀ u ∈ a.sessions, u.isPassword = true → u.attributes.audit = false) (hus : ∀ u ∈ a.sessions, m.InUse c u)
    (hsettled : ∀ u ∈ a.sessions, u.isPassword = false → ∀ i : SessionIndex, u.handle.index = i.val → settled i)
    (hallowed : row.isSessionAllowed = false → ∀ i, settled i) :
    ∃ m' c', m.updateAuditSessionStatus H row a c = .ok (m', c') ∧
      Audits H a (fun _ => True) true m c l m' c' ((a.sessions.foldl (AuditLedger.ofSession a) l).ofOthers row a) := by
  obtain ⟨m', c', hfold, hall⟩ := auditSessions_ok h hc hpassword hus hsettled
  unfold updateAuditSessionStatus AuditLedger.ofOthers
  rw [hfold]
  dsimp only [bind, Except.bind]
  by_cases hothers : (a.sessions.any fun u => u.attributes.audit) = false ∧ row.isSessionAllowed = true
  · simp only [if_pos hothers]
    have hf := hall.faithful
    have hnone : ({ m' with exclusiveAuditSession := TpmHandle.rhUnassigned } : AuditMachine).Faithful H (fun _ => True)
        { a.sessions.foldl (AuditLedger.ofSession a) l with
          since := (a.sessions.foldl (AuditLedger.ofSession a) l).since ++ [none] } := by
      refine ⟨hf.sound, hf.records.congr rfl rfl rfl rfl, fun hstate => ?_, ?_, ?_, hf.listed, hf.unlisted⟩
      · exact (hf.keeps hstate).congr rfl rfl rfl rfl rfl rfl rfl
      · exact fun hsession => absurd (TpmHandle.isSession_rhUnassigned.symm.trans hsession) (by decide)
      · exact fun i x _ _ _ heq => absurd heq (TpmHandle.rhUnassigned_ne i)
    obtain ⟨s, exclusive, rfl, horderly⟩ := hall.same
    exact ⟨_, c', rfl, ⟨s, _, rfl, horderly⟩, hall.answered, hall.cpHash, hnone, fun _ => hnone, hall.uses, hall.commandLog⟩
  · simp only [if_neg hothers]
    have hsettles : m'.Faithful H (fun _ => True) (a.sessions.foldl (AuditLedger.ofSession a) l) := by
      cases hany : a.sessions.any fun u => u.attributes.audit with
      | true => exact hall.settles hany
      | false =>
          have hnot : row.isSessionAllowed = false := by
            rw [← Bool.not_eq_true]
            exact fun hyes => hothers ⟨hany, hyes⟩
          exact hall.faithful.mono fun i _ => hallowed hnot i
    exact ⟨m', c', rfl, hall.same, hall.answered, hall.cpHash, hsettles, fun _ => hsettles, hall.uses, hall.commandLog⟩

/-! ## The audit of the command -/

theorem AuditDigest_start {alg : HashAlg} {log : List AuditEntry} {d : AuditDigest} (h : d.Of H alg log) :
    (if d.size = 0 then (⟨alg.digestSize, List.replicate alg.digestSize 0⟩ : AuditDigest) else d).bytes =
      logDigest H alg log := by
  by_cases hempty : log = []
  · rw [if_pos (h.empty hempty), hempty]
    unfold AuditDigest.bytes
    dsimp only
    rw [List.take_of_length_le (by simp)]
    rfl
  · rw [if_neg fun hsize => hempty (h.size_eq_zero_iff.1 hsize)]
    exact (h.begun hempty).2

theorem commandAudit_ok (hc : c.Answered H a) {log : List AuditEntry} (h : m.commandAuditDigest.Of H m.auditHashAlg log)
    (hcp : c.cpHash m.auditHashAlg ≠ []) :
    ∃ d counter, m.commandAudit H c = .ok { m with commandAuditDigest := d, auditCounter := counter } ∧
      d.Of H m.auditHashAlg (log ++ [a.entry]) := by
  have hstart := AuditDigest_start h
  obtain ⟨c', hupdate, -⟩ := hc.updateAuditDigest hcp (logDigest H m.auditHashAlg log)
  have hof : AuditDigest.Of H m.auditHashAlg (log ++ [a.entry])
      ⟨m.auditHashAlg.digestSize, a.entry.extend H m.auditHashAlg (logDigest H m.auditHashAlg log)⟩ := by
    refine ⟨fun hnil => absurd hnil (by simp), fun _ => ⟨rfl, ?_⟩⟩
    rw [logDigest_append]
    exact List.take_of_length_le (Nat.le_of_eq (H.length_eq _ _))
  unfold commandAudit
  rw [if_neg h.size_ne_one]
  by_cases hsize : m.commandAuditDigest.size = 0
  · rw [if_pos hsize] at hstart
    dsimp only
    rw [if_pos hsize]
    dsimp only
    rw [hstart, hupdate]
    exact ⟨_, _, rfl, hof⟩
  · rw [if_neg hsize] at hstart
    dsimp only
    rw [if_neg hsize, hstart, hupdate]
    exact ⟨_, _, rfl, hof⟩

/-- The log of the commands goes on by a command that is audited. -/
theorem finishAudit_ok {m₀ : AuditMachine} (hc : c.Answered H a)
    (hbits : m.auditCommands a.action.code = m₀.auditCommands a.action.code)
    (hdigest : m₀.changesAlg a = false ∧ m.auditHashAlg = m₀.auditHashAlg ∧
        m.commandAuditDigest.Of H m.auditHashAlg l.commandLog ∨
      m₀.changesAlg a = true ∧ m₀.auditCommands a.action.code = true ∧ m.commandAuditDigest.size = 1 ∧ l.commandLog = [])
    (hcp : m₀.auditCommands a.action.code = true → c.cpHash m₀.auditHashAlg ≠ []) :
    ∃ d counter, m.finishAudit H c = .ok { m with commandAuditDigest := d, auditCounter := counter } ∧
      d.Of H m.auditHashAlg (l.ofCommand a m₀).commandLog := by
  unfold finishAudit AuditLedger.ofCommand
  rw [hc.code, hbits]
  rcases hdigest with ⟨hsame, halg, hof⟩ | ⟨hchanges, haudited, hsize, hlog⟩
  · rw [hsame, Bool.not_false, Bool.and_true]
    by_cases haudited : m₀.auditCommands a.action.code = true
    · rw [if_pos haudited, if_pos haudited]
      exact commandAudit_ok hc hof (halg ▸ hcp haudited)
    · rw [if_neg haudited, if_neg haudited]
      exact ⟨_, _, rfl, hof⟩
  · rw [hchanges, haudited, if_pos rfl, if_neg (by decide), hlog]
    unfold commandAudit
    rw [if_pos hsize]
    exact ⟨_, _, rfl, .of_size rfl⟩

theorem act_changesAlg (hchanges : m.changesAlg a = true) (h : m.act H level a = (.ok r, m')) :
    m'.commandAuditDigest.size = 1 ∧ a.action.code = 0x140 := by
  unfold changesAlg at hchanges
  unfold act at h
  split at hchanges
  · rename_i auditAlg setList clearList haction
    rw [haction] at h ⊢
    dsimp only [setCommandCodeAuditStatus] at h
    obtain ⟨alg, halg⟩ := Option.isSome_iff_exists.1 hchanges
    rw [halg] at h
    split at h
    · cases h
    · dsimp only at h
      split at h
      · cases h
      · cases h
        exact ⟨rfl, rfl⟩
  · cases hchanges

/-! ## The sessions of a response -/

theorem index_ne {s : SessionMachine} {u v : SessionUse} {i j : SessionIndex} {x y : Session} (hu : u.Of s i x)
    (hv : v.Of s j y) (hne : u.handle ≠ v.handle) : j ≠ i := by
  rintro rfl
  exact hne (hu.handle_eq hv)

theorem flush_faithful (h : m.Faithful H settled l) {u : SessionUse} {i : SessionIndex} {x : Session}
    (hu : u.Of m.sessions i x) :
    ∃ s, m.sessions.flush u.handle = (.ok .none, s) ∧ ({ m with sessions := s } : AuditMachine).Faithful H settled l ∧
      s.orderly = m.sessions.orderly ∧ ∀ (v : SessionUse) j y, v.Of m.sessions j y → j ≠ i → v.Of s j y := by
  obtain ⟨k, hk, -⟩ := h.sound.loaded_slot hu.loaded
  have hactive : m.sessions.table.contextArray i ≠ 0 := by omega
  obtain ⟨hsound, hok⟩ := SessionMachine.flush_sound h.sound hu.isSession hu.index hactive
  obtain ⟨hstore, horderly⟩ := SessionMachine.flush_store h.sound hu.isSession hu.index hactive
  refine ⟨_, Prod.ext hok rfl, h.drop hsound hstore horderly (.inl rfl), horderly, fun v j y hv hji => ?_⟩
  refine ⟨hv.isSession, hv.index, ?_, ?_, hv.type⟩
  · have hloaded := congrFun (congrArg SessionStore.loaded hstore) j
    dsimp only [SessionStore.drop] at hloaded
    rw [Function.update_of_ne hji] at hloaded
    exact of_decide_eq_true (hloaded.trans (decide_eq_true hv.loaded))
  · have hsession := congrFun (congrArg SessionStore.session hstore) j
    dsimp only [SessionStore.drop] at hsession
    rw [Function.update_of_ne hji] at hsession
    exact hsession.trans hv.session

theorem respondSession_ok (h : m.Faithful H settled l) {u : SessionUse}
    (hu : u.isPassword = false → ∃ i x, u.Of m.sessions i x) :
    ∃ s, respondSession a m u = .ok { m with sessions := s } ∧
      ({ m with sessions := s } : AuditMachine).Faithful H settled l ∧ s.orderly = m.sessions.orderly ∧
      ∀ (v : SessionUse) j y, v.Of m.sessions j y → u.handle ≠ v.handle → ∃ z, v.Of s j z := by
  unfold respondSession
  cases hpassword : u.isPassword with
  | true =>
      rw [if_pos rfl]
      exact ⟨m.sessions, rfl, h, rfl, fun v j y hv _ => ⟨y, hv⟩⟩
  | false =>
      obtain ⟨i, x, hof⟩ := hu hpassword
      rw [if_neg Bool.false_ne_true, hof.get h.sound]
      dsimp only [bind, Except.bind]
      have hkind := (respond_logged a.circumstances a.nonceTpm (h.records.logged i x hof.session)).2
      have hchange := h.change (f := fun _ => x.respond a.circumstances a.nonceTpm) hof.index hof.loaded hof.session
        (fun log hlog => (respond_logged a.circumstances a.nonceTpm hlog).1) hkind
      have huses : ∀ (v : SessionUse) j y, v.Of m.sessions j y → _ := fun v j y hv =>
        uses_change (f := fun _ => x.respond a.circumstances a.nonceTpm) h.sound hof.index hof.loaded hof.session hkind hv
      have horderly := (SessionMachine.change_store h.sound hof.index hof.loaded
        fun _ => x.respond a.circumstances a.nonceTpm).2.2
      by_cases hcontinue : u.attributes.continueSession = true
      · rw [if_pos hcontinue]
        exact ⟨_, rfl, hchange, horderly, fun v j y hv _ => ⟨_, huses v j y hv⟩⟩
      · rw [if_neg hcontinue]
        obtain ⟨s, hs, hflushed, horderly', hrest⟩ := flush_faithful hchange (huses u i x hof)
        dsimp only at hs
        rw [hs]
        exact ⟨s, rfl, hflushed, horderly'.trans horderly,
          fun v j y hv hne => ⟨_, hrest v j _ (huses v j y hv) (index_ne hof hv hne)⟩⟩

theorem respondSessions_ok {us : List SessionUse} (h : m.Faithful H settled l)
    (hus : ∀ u ∈ us, u.isPassword = false → ∃ i x, u.Of m.sessions i x)
    (honce : us.Pairwise fun u v => v.isPassword = false → u.handle ≠ v.handle) :
    ∃ s, us.foldlM (respondSession a) m = .ok { m with sessions := s } ∧
      ({ m with sessions := s } : AuditMachine).Faithful H settled l ∧ s.orderly = m.sessions.orderly := by
  induction us generalizing m with
  | nil => exact ⟨m.sessions, rfl, h, rfl⟩
  | cons u us ih =>
      obtain ⟨s, hs, hfaithful, horderly, hrest⟩ := respondSession_ok (a := a) h (hus u List.mem_cons_self)
      obtain ⟨hdistinct, honce'⟩ := List.pairwise_cons.1 honce
      obtain ⟨s', hs', hfaithful', horderly'⟩ := ih hfaithful
        (fun v hv hreal => by
          obtain ⟨j, y, hof⟩ := hus v (List.mem_cons_of_mem _ hv) hreal
          obtain ⟨z, hz⟩ := hrest v j y hof (hdistinct v hv hreal)
          exact ⟨j, z, hz⟩) honce'
      refine ⟨s', ?_, hfaithful', horderly'.trans horderly⟩
      rw [List.foldlM_cons, hs]
      exact hs'

/-! ## A command as a whole -/

theorem isSessionAllowed_eq_false {row : CommandRow} (hrow : row ∈ commandTable) :
    row.isSessionAllowed = false ↔ row.code ∈ [0x144, 0x161, 0x162, 0x165] := by
  revert row
  decide +kernel

theorem Acted.inUse (hacted : m.Acted H a m' l') (hready : m.Ready H row a c) (hrow : a.row = some row)
    {u : SessionUse} (hu : u ∈ a.sessions) : m'.InUse { c with parameterBuffer := a.transmitted } u := by
  intro hreal
  have hretrieved := hready.usable.retrieved u hu
  obtain ⟨i, x, hof⟩ := hretrieved.session hreal
  obtain ⟨htable, hcode⟩ := commandCodeToCommandIndex_eq_some hrow
  have hnot : a.action.code ∉ [0x144, 0x161, 0x162, 0x165] := by
    rw [← hcode, ← isSessionAllowed_eq_false htable, Bool.not_eq_false]
    exact hready.allowed (List.ne_nil_of_mem hu)
  obtain ⟨y, hy, hsame⟩ := hacted.uses hnot u i x hof
  refine ⟨i, y, hy, fun haudit => ?_⟩
  have hplain : x.attributes.isPolicy = false := hof.type.trans (hretrieved.audit hreal haudit)
  obtain rfl := hsame hplain
  exact ⟨hplain, hready.hashed u hu hreal haudit i y hof⟩

/-- What a command leaves when it is answered, but for the end of the orderly state. -/
structure Ended (H : PolicyHash) (a : AuditCommand) (m : AuditMachine) (l : AuditLedger) : Prop where
  faithful : m.Faithful H (fun _ => True) l
  command : m.mode = .running → m.commandAuditDigest.Of H m.auditHashAlg l.commandLog
  saved : a.clearOrderly = false → m.sessions.orderly = some .state →
    m.savedAuditDigest.Of H m.auditHashAlg l.commandLog

/-- The response to a command that has been carried out. -/
theorem buildResponseSession_ok (hr : m.Recorded H l) (haccepts : m.accepts a = true) (hminds : m.Minds a)
    (hrow : a.row = some row) (hready : m.Ready H row a c) (h : m.act H level a = (.ok r, m')) :
    ∃ m'', m'.buildResponseSession H row a c = .ok m'' ∧ m''.Ended H a (l.observe a m (.ok r)) := by
  obtain ⟨hacted, hmode⟩ := act_acted hr haccepts hminds h
  obtain ⟨htable, hcode⟩ := commandCodeToCommandIndex_eq_some hrow
  have hstatus : ∀ u ∈ a.sessions, u.isPassword = false → ∀ i : SessionIndex, u.handle.index = i.val →
      a.action.code = 0x176 → m.sessions.status i ≠ .absent := by
    intro u hu hreal i hindex _ habsent
    obtain ⟨j, x, hof⟩ := (hready.usable.retrieved u hu).session hreal
    obtain rfl : j = i := Fin.val_injective (hof.index.symm.trans hindex)
    exact absurd (hof.loaded.symm.trans habsent) (by decide)
  obtain ⟨m₁, c₁, hsessions, hall⟩ := @updateAuditSessionStatus_ok _ _ _ _ _ _ row hacted.faithful hready.answered
    (fun u hu => (hready.usable.retrieved u hu).password) (fun u hu => hacted.inUse hready hrow hu) hstatus
    fun hnone i hstart => by
      rw [isSessionAllowed_eq_false htable, hcode, hstart] at hnone
      exact absurd hnone (by decide)
  obtain ⟨s, exclusive, rfl, horderly⟩ := hall.same
  have hdigest : m.changesAlg a = false ∧ m'.auditHashAlg = m.auditHashAlg ∧
        m'.commandAuditDigest.Of H m'.auditHashAlg
          ((a.sessions.foldl (AuditLedger.ofSession a) (l.ofAction a m r)).ofOthers row a).commandLog ∨
      m.changesAlg a = true ∧ m.auditCommands a.action.code = true ∧ m'.commandAuditDigest.size = 1 ∧
        ((a.sessions.foldl (AuditLedger.ofSession a) (l.ofAction a m r)).ofOthers row a).commandLog = [] := by
    rw [hall.commandLog]
    cases hchanges : m.changesAlg a with
    | false =>
        rcases hacted.digest with hof | ⟨htrue, -⟩
        · exact .inl ⟨rfl, hof⟩
        · exact absurd (hchanges.symm.trans htrue) (by decide)
    | true =>
        obtain ⟨hsize, hlisted⟩ := act_changesAlg hchanges h
        rcases hacted.digest with ⟨-, hof⟩ | ⟨-, -, hlog⟩
        · exact absurd hsize hof.size_ne_one
        · exact .inr ⟨rfl, hlisted ▸ hr.faithful.listed, hsize, hlog⟩
  obtain ⟨d, counter, hfinish, hof⟩ := finishAudit_ok
    (m := { m' with sessions := s, exclusiveAuditSession := exclusive }) hall.answered hacted.bits hdigest fun haudited => by
      rw [hall.cpHash]
      exact hready.audited haudited
  have hlogged : l.observe a m (.ok r) =
      ((a.sessions.foldl (AuditLedger.ofSession a) (l.ofAction a m r)).ofOthers row a).ofCommand a m := by
    unfold AuditLedger.observe
    rw [hrow]
  generalize (a.sessions.foldl (AuditLedger.ofSession a) (l.ofAction a m r)).ofOthers row a = l₁ at *
  have hl : (l₁.ofCommand a m).identity = l₁.identity ∧ (l₁.ofCommand a m).savedIdentity = l₁.savedIdentity ∧
      (l₁.ofCommand a m).fresh = l₁.fresh ∧ (l₁.ofCommand a m).sessionLog = l₁.sessionLog ∧
      (l₁.ofCommand a m).since = l₁.since := by
    unfold AuditLedger.ofCommand
    split <;> exact ⟨rfl, rfl, rfl, rfl, rfl⟩
  obtain ⟨hidentity, hsavedIdentity, hfresh, hsessionLog, hsince⟩ := hl
  have hf := hall.faithful
  have hfaithful : ({ m' with
      sessions := s, exclusiveAuditSession := exclusive, commandAuditDigest := d, auditCounter := counter } : AuditMachine).Faithful
        H (fun _ => True) (l₁.ofCommand a m) := by
    refine ⟨hf.sound, hf.records.congr rfl hidentity hfresh hsessionLog, fun hstate => ?_, hf.handle, ?_, hf.listed,
      hf.unlisted⟩
    · exact (hf.keeps hstate).congr rfl rfl rfl hidentity hsavedIdentity hfresh hsessionLog
    · rw [hsince, hidentity]
      exact hf.exclusive
  obtain ⟨s', hrespond, hanswered, horderly'⟩ := @respondSessions_ok _ _ _ a _ a.sessions hfaithful
    (fun u hu hreal => by
      obtain ⟨i, x, hof, -⟩ := hall.uses u (hacted.inUse hready hrow hu) hreal
      exact ⟨i, x, hof⟩) hready.usable.once
  refine ⟨_, ?_, hlogged ▸ hanswered, fun _ => hlogged ▸ hof, fun hclear hstate => ?_⟩
  · unfold buildResponseSession
    rw [hsessions]
    dsimp only [bind, Except.bind]
    rw [hfinish]
    exact hrespond
  · obtain ⟨hsaved, hquiet⟩ := hacted.saved hclear ((horderly'.trans horderly).symm.trans hstate)
    have hsame : (l₁.ofCommand a m).commandLog = (l.ofAction a m r).commandLog := by
      rw [← hall.commandLog]
      unfold AuditLedger.ofCommand
      rw [hquiet, Bool.false_and, if_neg Bool.false_ne_true]
    rw [hlogged, hsame]
    exact hsaved

theorem minds_of_mindful (hmindful : m.Mindful H level (.command a)) (haccepts : m.accepts a = true)
    (hok : a.clearOrderly = true ∨ (m.execute H level a).1.isOk = true) : m.Minds a := by
  have hminds := hmindful haccepts
  unfold Minds
  cases haction : a.action
  all_goals rw [haction] at hminds
  case startup | contextSave => exact hminds
  case contextLoad => trivial
  all_goals
    intro hstate hclear
    exact hminds hstate hclear (hok.resolve_left (by simp [hclear]))

/-- A response is built whatever the end of the orderly state. -/
theorem answers (hr : m.Recorded H l) (haccepts : m.accepts a = true) (hmindful : m.Mindful H level (.command a))
    (hrow : a.row = some row) (hparse : m.parseSessionBuffer H row a = .ok c) (h : m.act H level a = (.ok r, m')) :
    ∃ m'', m'.buildResponseSession H row a c = .ok m'' := by
  have hminds : m.Minds { a with clearOrderly := true } := by
    refine @minds_of_mindful H level _ _ (fun _ => ?_) haccepts (.inl rfl)
    have hminds := hmindful haccepts
    dsimp only
    cases haction : a.action
    all_goals rw [haction] at hminds
    case startup | contextSave => exact hminds
    case contextLoad => trivial
    all_goals exact fun _ hclear => (nomatch hclear)
  obtain ⟨m'', hbuild, -⟩ := buildResponseSession_ok (a := { a with clearOrderly := true }) hr haccepts hminds hrow
    (parseSessionBuffer_ok hr.faithful.sound hparse) h
  exact ⟨m'', hbuild⟩

/-- A command is refused and leaves the logs as they are, or is answered. -/
theorem execute_cases (hr : m.Recorded H l) (haccepts : m.accepts a = true) (hmindful : m.Mindful H level (.command a)) :
    (∃ e, (m.execute H level a).1 = .error e ∧ (m.execute H level a).2.Recorded H l) ∨
      ∃ r, (m.execute H level a).1 = .ok r ∧ (m.execute H level a).2.Ended H a (l.observe a m (.ok r)) := by
  cases hrow : a.row with
  | none =>
      have hout : m.execute H level a = (.error (.of .commandCode), m) := by
        unfold execute
        rw [hrow]
      rw [hout]
      exact .inl ⟨_, rfl, hr⟩
  | some row =>
      cases hparse : m.parseSessionBuffer H row a with
      | error e =>
          have hout : m.execute H level a = (.error e, m) := by
            unfold execute
            rw [hrow]
            dsimp only
            rw [hparse]
          rw [hout]
          exact .inl ⟨e, rfl, hr⟩
      | ok c =>
          obtain ⟨out, m', hact⟩ : ∃ out m', m.act H level a = (out, m') := ⟨_, _, rfl⟩
          cases out with
          | error e =>
              have hout : m.execute H level a = (.error e, m') := by
                unfold execute
                rw [hrow]
                dsimp only
                rw [hparse]
                dsimp only
                rw [hact]
              have hlast : ∀ handle, a.action = .contextSave handle → m.sessions.table.contextCounter ≠ 2 ^ 64 - 1 := by
                intro handle haction
                have hminds := hmindful haccepts
                rwa [haction] at hminds
              rw [hout]
              exact .inl ⟨e, rfl, (act_error hr hlast hact).1⟩
          | ok r =>
              obtain ⟨m'', hbuild⟩ := answers hr haccepts hmindful hrow hparse hact
              have hout : m.execute H level a = (.ok r, m'') := by
                unfold execute
                rw [hrow]
                dsimp only
                rw [hparse]
                dsimp only
                rw [hact]
                dsimp only
                rw [hbuild]
              have hminds := minds_of_mindful hmindful haccepts (.inr (by rw [hout]; rfl))
              obtain ⟨m₁, hbuilt, hended⟩ :=
                buildResponseSession_ok hr haccepts hminds hrow (parseSessionBuffer_ok hr.faithful.sound hparse) hact
              obtain rfl := Except.ok.inj (hbuild.symm.trans hbuilt)
              rw [hout]
              exact .inr ⟨r, rfl, hended⟩

theorem Recorded.disorder (hfaithful : m.Faithful H (fun _ => True) l)
    (hcommand : m.mode = .running → m.commandAuditDigest.Of H m.auditHashAlg l.commandLog) :
    ({ m with sessions := { m.sessions with orderly := none } } : AuditMachine).Recorded H l :=
  ⟨⟨hfaithful.sound.disorder, hfaithful.records, (nomatch ·), hfaithful.handle, hfaithful.exclusive, hfaithful.listed,
    hfaithful.unlisted⟩, hcommand, (nomatch ·)⟩

theorem Recorded.stop (hr : m.Recorded H l) (mode : TpmMode) (hmode : mode ≠ .running) (exclusive : TpmHandle)
    (memory : AuditDigest) (hexclusive : exclusive = m.exclusiveAuditSession ∨ exclusive = 0) :
    ({ m with mode, exclusiveAuditSession := exclusive, commandAuditDigest := memory } : AuditMachine).Recorded H l := by
  refine ⟨⟨hr.faithful.sound, hr.faithful.records, hr.faithful.keeps, ?_, ?_, hr.faithful.listed, hr.faithful.unlisted⟩,
    fun hrun => absurd hrun hmode, hr.saved⟩
  · rcases hexclusive with rfl | rfl
    · exact hr.faithful.handle
    · exact fun hsession => absurd hsession (show ¬ TpmHandle.isSession 0 = true by decide)
  · rcases hexclusive with rfl | rfl
    · exact hr.faithful.exclusive
    · intro i x _ _ _ heq
      have hsession := TpmHandle.isSession_ofSession i
      rw [← heq] at hsession
      exact absurd hsession (show ¬ TpmHandle.isSession 0 = true by decide)

theorem cleanup_recorded {out : Except Fault SessionReply × AuditMachine}
    (h : (∃ e, out.1 = .error e ∧ out.2.Recorded H l) ∨ ∃ r, out.1 = .ok r ∧ out.2.Ended H a l) :
    (cleanup a out).Recorded H l := by
  unfold cleanup
  rcases h with ⟨e, he, hr⟩ | ⟨r, hok, hended⟩
  · rw [he]
    have hquiet : (if a.clearOrderly then { out.2 with sessions := { out.2.sessions with orderly := none } }
        else out.2 : AuditMachine).Recorded H l := by
      split
      · exact .disorder hr.faithful hr.command
      · exact hr
    cases e with
    | rc c => exact hquiet
    | failureMode => exact hr.stop .failed (by decide) _ _ (.inl rfl)
    | overrun => exact hr.stop .failed (by decide) _ _ (.inl rfl)
  · rw [hok]
    dsimp only
    cases hclear : a.clearOrderly with
    | true =>
        rw [if_pos rfl]
        exact .disorder hended.faithful hended.command
    | false =>
        rw [if_neg Bool.false_ne_true]
        exact ⟨hended.faithful, hended.command, hended.saved hclear⟩

end AuditMachine

/-! ## Runs -/

namespace AuditRun
variable {H : PolicyHash} {level : Nat} {r : AuditRun}

/-- A new TPM, or one whose state an earlier build has written. -/
def Initial (r : AuditRun) : Prop := ∃ mask, (mask = 0xff ∨ mask = 0xffff) ∧ r = ⟨.initial mask, {}⟩

/-- Reached by steps that are mindful of what is logged. -/
abbrev MindfulRun (H : PolicyHash) (level : Nat) : AuditRun → Prop :=
  Reachable Initial fun r r' => ∃ e, r.machine.Mindful H level e ∧ r' = r.step H level e

theorem step_recorded (h : r.machine.Recorded H r.ledger) (e : AuditEvent) (hmindful : r.machine.Mindful H level e) :
    (r.step H level e).machine.Recorded H (r.step H level e).ledger := by
  cases e with
  | powerLoss sameProcess memory =>
      refine h.stop .off (by decide) _ memory ?_
      cases sameProcess with
      | true => exact .inl rfl
      | false => exact .inr rfl
  | command a =>
      unfold step AuditMachine.step
      dsimp only
      cases haccepts : r.machine.accepts a with
      | false => exact h
      | true =>
          rw [if_pos rfl, if_pos rfl]
          apply AuditMachine.cleanup_recorded
          rcases AuditMachine.execute_cases h haccepts hmindful with ⟨e, he, hr⟩ | ⟨reply, hok, hended⟩
          · refine .inl ⟨e, he, ?_⟩
            rw [he]
            unfold AuditLedger.observe
            split
            · rename_i heq
              cases heq
            · exact hr
          · refine .inr ⟨reply, hok, ?_⟩
            rw [hok]
            exact hended

theorem initial_recorded (h : r.Initial) : r.machine.Recorded H r.ledger := by
  obtain ⟨mask, hmask, rfl⟩ := h
  refine ⟨⟨SessionMachine.initial_sound hmask, ?_, (nomatch ·), ?_, ?_, rfl, rfl⟩, fun hrun => (nomatch hrun), (nomatch ·)⟩
  · exact ⟨fun _ _ hx => (nomatch hx), fun _ _ hx => (nomatch hx), fun _ _ _ _ hx => (nomatch hx), fun _ _ => rfl⟩
  · exact fun hsession => absurd hsession (show ¬ TpmHandle.isSession 0 = true by decide)
  · exact fun _ _ _ hx => (nomatch hx)

theorem recorded_of_run (h : MindfulRun H level r) : r.machine.Recorded H r.ledger := by
  refine Reachable.invariant (I := fun r => r.machine.Recorded H r.ledger) (fun _ => initial_recorded) ?_ h
  · rintro r r' hr ⟨e, hmindful, rfl⟩
    exact step_recorded hr e hmindful

theorem exact_of_recorded (h : r.machine.Recorded H r.ledger) (hmode : r.machine.mode = .running) : r.Exact H := by
  refine ⟨h.command hmode, ?_, ?_⟩
  · intro handle x hget haudit i hindex
    obtain ⟨-, j, hj, -, hx⟩ := h.faithful.sound.sessionGet_iff.1 hget
    obtain rfl : j = i := Fin.val_injective (hj.symm.trans hindex)
    exact (h.faithful.records.logged j x hx).digest haudit
  · intro x hget hpolicy i hindex
    obtain ⟨hsession, j, hj, -, hx⟩ := h.faithful.sound.sessionGet_iff.1 hget
    obtain rfl : j = i := Fin.val_injective (hj.symm.trans hindex)
    exact h.faithful.exclusive j x trivial hx hpolicy
      (TpmHandle.eq_ofSession hsession (h.faithful.handle hsession) hindex)

/-- A command whose action has gone through is answered: the hashes that are asked for have been computed. -/
def Answers (H : PolicyHash) (level : Nat) (r : AuditRun) (a : AuditCommand) : Prop :=
  ∀ row c reply m, a.row = some row → r.machine.parseSessionBuffer H row a = .ok c →
    r.machine.act H level a = (.ok reply, m) → ∃ m', m.buildResponseSession H row a c = .ok m'

/-- In every run of mindful steps the logs are exact, and no response stops at an assertion. -/
theorem audit_exact (h : MindfulRun H level r) :
    (r.machine.mode = .running → r.Exact H) ∧
      ∀ a, r.machine.accepts a = true → r.machine.Mindful H level (.command a) → r.Answers H level a :=
  ⟨exact_of_recorded (recorded_of_run h), fun _ haccepts hmindful _ _ _ _ hrow hparse hact =>
    AuditMachine.answers (recorded_of_run h) haccepts hmindful hrow hparse hact⟩

end AuditRun

/-! ## A log that a Restart forgets -/

/-- A command without sessions that is let through. -/
def plainCommand (action : AuditAction) : AuditEvent := .command { action, circumstances := quietWorld }

def startupCommand : AuditEvent := plainCommand (.startup .clear true none)

def passwordUse : SessionUse := { handle := TpmHandle.rsPw, genuine := true }

/-- The list of audited commands is changed by the owner with a password session, and this is audited. -/
def listCommand (setList clearList : List Nat) : AuditCommand where
  action := .setCommandCodeAuditStatus none setList clearList
  names := [be 4 0x40000001]
  parameters := be 2 0x10 ++ be 4 setList.length ++ setList.flatMap (be 4) ++ be 4 clearList.length ++
    clearList.flatMap (be 4)
  sessions := [passwordUse]
  circumstances := quietWorld

abbrev auditStep : AuditRun → AuditEvent → AuditRun := AuditRun.step onesHash 4

def auditRun (es : List AuditEvent) : AuditRun := run auditStep ⟨.initial 0xffff, {}⟩ es

/-- The list is changed, before or after the state is saved, and the TPM starts again. -/
def restartEvents (saved : Bool) : List AuditEvent :=
  [startupCommand] ++ (if saved then [plainCommand (.shutdown false .state), .command (listCommand [0x17b] [])]
    else [.command (listCommand [0x17b] []), plainCommand (.shutdown false .state)]) ++ [.powerLoss false {}, startupCommand]

theorem listed_mindful : AuditRun.MindfulRun onesHash 4 (auditRun (restartEvents false)) := by
  have hstep : ∀ {r : AuditRun} (e : AuditEvent), AuditRun.MindfulRun onesHash 4 r → r.machine.Mindful onesHash 4 e →
      AuditRun.MindfulRun onesHash 4 (auditStep r e) := fun e hr he => hr.step ⟨e, he, rfl⟩
  have hquiet : ∀ {r : AuditRun} {a : AuditCommand}, r.machine.sessions.orderly = none →
      (∀ handle, a.action ≠ .contextSave handle) → r.machine.Mindful onesHash 4 (.command a) := by
    intro r a hnone hnot _
    have hstate : r.machine.sessions.orderly ≠ some .state := by
      rw [hnone]
      decide
    cases haction : a.action with
    | contextSave handle => exact absurd haction (hnot handle)
    | contextLoad => trivial
    | _ => exact fun h => absurd h hstate
  refine hstep _ (hstep _ (hstep _ (hstep _ (hstep _ (.init ⟨0xffff, .inr rfl, rfl⟩)
    (hquiet rfl (by simp))) (hquiet rfl (by simp [listCommand]))) (hquiet rfl (by simp))) trivial) ?_
  -- no session has been saved
  exact fun _ _ _ i x hkept => (nomatch hkept)

theorem listed_exact : (auditRun (restartEvents false)).Exact onesHash ∧
    (auditRun (restartEvents false)).Answers onesHash 4 (listCommand [] [0x17b]) :=
  ⟨(AuditRun.audit_exact listed_mindful).1 rfl, (AuditRun.audit_exact listed_mindful).2 _ rfl fun _ hstate => (nomatch hstate)⟩

/-- Changed after the state has been saved, the list is no longer in the log after the Restart. -/
theorem forgotten_not_exact :
    ∃ r, Reachable AuditRun.Initial (fun r r' => ∃ e, r' = r.step onesHash 4 e) r ∧ r.machine.mode = .running ∧
      ¬ r.Exact onesHash := by
  refine ⟨auditRun (restartEvents true), Reachable.of_run ⟨0xffff, .inr rfl, rfl⟩ _, rfl, fun hexact => ?_⟩
  have hbegun := hexact.command.begun (by decide)
  exact absurd hbegun.1 (by decide)

end PqcTpm
