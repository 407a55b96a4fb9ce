import PqcTpm.AuditHashes

/-!
# Actions and the logs

In the ledger the number of a session goes where the session goes. Each action leaves the logs exact, but for the entry
of the command itself; what a shutdown has saved stays exact as long as the condition says.
-/
namespace PqcTpm
open ByteCodec Transition

/-! ## The ledger of the sessions -/

/-- A session is audited as its log says, and its digest is that of the log. -/
structure Session.Logged (H : PolicyHash) (log : List AuditEntry) (x : Session) : Prop where
  isAudit : x.attributes.isAudit = true ↔ log ≠ []
  type : x.attributes.isAudit = true → x.attributes.isPolicy = false
  digest : x.attributes.isAudit = true → x.policyDigest = logDigest H x.authHashAlg log

theorem Session.Logged.plain {H : PolicyHash} {log : List AuditEntry} {x : Session} (h : x.Logged H log)
    (hpolicy : x.attributes.isPolicy = true) : x.attributes.isAudit = false := by
  cases haudit : x.attributes.isAudit with
  | false => rfl
  | true => exact absurd ((h.type haudit).symm.trans hpolicy) (by decide)

theorem Session.Logged.of_plain {H : PolicyHash} {log : List AuditEntry} {x y : Session} (h : x.Logged H log)
    (hx : x.attributes.isAudit = false) (hy : y.attributes.isAudit = false) : y.Logged H log := by
  refine ⟨?_, fun htrue => absurd (hy.symm.trans htrue) (by decide), fun htrue => absurd (hy.symm.trans htrue) (by decide)⟩
  rw [hy, ← hx]
  exact h.isAudit

namespace AuditLedger

/-- What is written of the sessions that there are. -/
structure Records (H : PolicyHash) (S : SessionStore) (l : AuditLedger) : Prop where
  logged : ∀ i x, S.session i = some x → x.Logged H (l.sessionLog (l.identity i))
  fresh : ∀ i x, S.session i = some x → l.identity i < l.fresh
  distinct : ∀ i j x y, S.session i = some x → S.session j = some y → l.identity i = l.identity j → i = j
  unused : ∀ n, l.fresh ≤ n → l.sessionLog n = []

/-- What is written of the sessions that would be brought back. -/
structure Keeps (H : PolicyHash) (S : SessionStore) (l : AuditLedger) : Prop where
  logged : ∀ i x, S.kept i = some x → x.Logged H (l.sessionLog (l.savedIdentity i))
  fresh : ∀ i x, S.kept i = some x → l.savedIdentity i < l.fresh
  distinct : ∀ i j x y, S.kept i = some x → S.kept j = some y → l.savedIdentity i = l.savedIdentity j → i = j
  /-- None of them is in use. -/
  apart : ∀ i x j y, S.kept i = some x → S.session j = some y → S.loaded j = true → l.identity j ≠ l.savedIdentity i

variable {H : PolicyHash} {S S' : SessionStore} {l l' : AuditLedger} {i : SessionIndex} {x y : Session}

theorem Records.congr (h : l.Records H S) (hsession : S'.session = S.session) (hidentity : l'.identity = l.identity)
    (hfresh : l'.fresh = l.fresh) (hlog : l'.sessionLog = l.sessionLog) : l'.Records H S' := by
  refine ⟨?_, ?_, ?_, ?_⟩
  · rw [hsession, hidentity, hlog]
    exact h.logged
  · rw [hsession, hidentity, hfresh]
    exact h.fresh
  · rw [hsession, hidentity]
    exact h.distinct
  · rw [hfresh, hlog]
    exact h.unused

theorem Keeps.congr (h : l.Keeps H S) (hkept : S'.kept = S.kept) (hsession : S'.session = S.session)
    (hloaded : S'.loaded = S.loaded) (hidentity : l'.identity = l.identity) (hsaved : l'.savedIdentity = l.savedIdentity)
    (hfresh : l'.fresh = l.fresh) (hlog : l'.sessionLog = l.sessionLog) : l'.Keeps H S' := by
  refine ⟨?_, ?_, ?_, ?_⟩
  · rw [hkept, hsaved, hlog]
    exact h.logged
  · rw [hkept, hsaved, hfresh]
    exact h.fresh
  · rw [hkept, hsaved]
    exact h.distinct
  · rw [hkept, hsaved, hsession, hloaded, hidentity]
    exact h.apart

theorem Records.create (h : l.Records H S) (hx : x.attributes.isAudit = false) :
    (l.start i).Records H (S.create i x) := by
  have hnew : x.Logged H (l.sessionLog l.fresh) := by
    rw [h.unused l.fresh (Nat.le_refl _)]
    exact ⟨by simp [hx], by simp [hx], by simp [hx]⟩
  refine ⟨?_, ?_, ?_, fun n hn => h.unused n (Nat.le_of_succ_le hn)⟩
  · intro j y hj
    dsimp only [SessionStore.create, start] at hj ⊢
    by_cases hji : j = i
    · subst hji
      rw [Function.update_self] at hj ⊢
      obtain rfl := Option.some.inj hj
      exact hnew
    · rw [Function.update_of_ne hji] at hj ⊢
      exact h.logged j y hj
  · intro j y hj
    dsimp only [SessionStore.create, start] at hj ⊢
    by_cases hji : j = i
    · subst hji
      rw [Function.update_self]
      exact Nat.lt_succ_self _
    · rw [Function.update_of_ne hji] at hj ⊢
      exact Nat.lt_succ_of_lt (h.fresh j y hj)
  · intro j j' y y' hj hj' heq
    dsimp only [SessionStore.create, start] at hj hj' heq
    by_cases hji : j = i
    · by_cases hji' : j' = i
      · rw [hji, hji']
      · subst hji
        rw [Function.update_self, Function.update_of_ne hji'] at heq
        rw [Function.update_of_ne hji'] at hj'
        exact absurd heq.symm (Nat.ne_of_lt (h.fresh j' y' hj'))
    · rw [Function.update_of_ne hji] at hj heq
      by_cases hji' : j' = i
      · subst hji'
        rw [Function.update_self] at heq
        exact absurd heq (Nat.ne_of_lt (h.fresh j y hj))
      · rw [Function.update_of_ne hji'] at hj' heq
        exact h.distinct j j' y y' hj hj' heq

theorem Keeps.create (h : l.Keeps H S) : (l.start i).Keeps H (S.create i x) := by
  refine ⟨h.logged, fun j y hj => Nat.lt_succ_of_lt (h.fresh j y hj), h.distinct, ?_⟩
  intro j y j' y' hj hj' hloaded
  dsimp only [SessionStore.create, start] at hj hj' hloaded ⊢
  by_cases hji : j' = i
  · subst hji
    rw [Function.update_self]
    exact Nat.ne_of_gt (h.fresh j y hj)
  · rw [Function.update_of_ne hji] at hj' hloaded ⊢
    exact h.apart j y j' y' hj hj' hloaded

theorem session_drop {j : SessionIndex} (h : (S.drop i).session j = some x) :
    S.session j = some x ∧ (S.drop i).loaded j = S.loaded j := by
  dsimp only [SessionStore.drop] at h ⊢
  by_cases hji : j = i
  · subst hji
    rw [Function.update_self] at h
    cases h
  · rw [Function.update_of_ne hji] at h ⊢
    exact ⟨h, rfl⟩

theorem Records.drop (h : l.Records H S) : l.Records H (S.drop i) :=
  ⟨fun j y hj => h.logged j y (session_drop hj).1, fun j y hj => h.fresh j y (session_drop hj).1,
    fun j j' y y' hj hj' => h.distinct j j' y y' (session_drop hj).1 (session_drop hj').1, h.unused⟩

theorem Keeps.drop (h : l.Keeps H S) : l.Keeps H (S.drop i) := by
  refine ⟨h.logged, h.fresh, h.distinct, ?_⟩
  intro j y j' y' hj hj' hloaded
  obtain ⟨hold, hsame⟩ := session_drop hj'
  exact h.apart j y j' y' hj hold (hsame.symm.trans hloaded)

/-- The log of one session changes, and the session with it. -/
def log (n : Nat) (log : List AuditEntry) (l : AuditLedger) : AuditLedger :=
  { l with sessionLog := Function.update l.sessionLog n log }

theorem Records.modify (h : l.Records H S) (hi : S.session i = some x) {log : List AuditEntry} (hy : y.Logged H log) :
    (l.log (l.identity i) log).Records H (S.modify i fun _ => y) := by
  have hsession : ∀ j z, (S.modify i fun _ => y).session j = some z →
      (j = i ∧ z = y) ∨ (j ≠ i ∧ S.session j = some z) := by
    intro j z hj
    dsimp only [SessionStore.modify] at hj
    by_cases hji : j = i
    · subst hji
      rw [Function.update_self, hi, Option.map_some] at hj
      exact .inl ⟨rfl, (Option.some.inj hj).symm⟩
    · rw [Function.update_of_ne hji] at hj
      exact .inr ⟨hji, hj⟩
  have hold : ∀ j z, (S.modify i fun _ => y).session j = some z → ∃ z', S.session j = some z' := by
    intro j z hj
    rcases hsession j z hj with ⟨rfl, -⟩ | ⟨-, hj⟩
    · exact ⟨x, hi⟩
    · exact ⟨z, hj⟩
  refine ⟨?_, ?_, ?_, ?_⟩
  · intro j z hj
    dsimp only [AuditLedger.log]
    rcases hsession j z hj with ⟨rfl, rfl⟩ | ⟨hji, hj⟩
    · rw [Function.update_self]
      exact hy
    · have hne : l.identity j ≠ l.identity i := fun heq => hji (h.distinct j i z x hj hi heq)
      rw [Function.update_of_ne hne]
      exact h.logged j z hj
  · intro j z hj
    obtain ⟨z', hz'⟩ := hold j z hj
    exact h.fresh j z' hz'
  · intro j j' z z' hj hj' heq
    obtain ⟨w, hw⟩ := hold j z hj
    obtain ⟨w', hw'⟩ := hold j' z' hj'
    exact h.distinct j j' w w' hw hw' heq
  · intro n hn
    have hlt := h.fresh i x hi
    have hne : n ≠ l.identity i := Nat.ne_of_gt (Nat.lt_of_lt_of_le hlt hn)
    dsimp only [AuditLedger.log]
    rw [Function.update_of_ne hne]
    exact h.unused n hn

theorem Keeps.modify (h : l.Keeps H S) (hi : S.session i = some x) (hloaded : S.loaded i = true) (log : List AuditEntry)
    (f : Session → Session) : (l.log (l.identity i) log).Keeps H (S.modify i f) := by
  refine ⟨?_, h.fresh, h.distinct, ?_⟩
  · intro j z hj
    have hne : l.savedIdentity j ≠ l.identity i := (h.apart j z i x hj hi hloaded).symm
    dsimp only [AuditLedger.log]
    rw [Function.update_of_ne hne]
    exact h.logged j z hj
  · intro j z j' z' hj hj' hloaded'
    dsimp only [SessionStore.modify] at hj'
    by_cases hji : j' = i
    · subst hji
      exact h.apart j z j' x hj hi hloaded
    · rw [Function.update_of_ne hji] at hj'
      exact h.apart j z j' z' hj hj' hloaded'

theorem Records.keeps (h : l.Records H S) : ({ l with savedIdentity := l.identity } : AuditLedger).Keeps H S.keep := by
  have hkept : ∀ j y, S.keep.kept j = some y → S.session j = some y ∧ S.loaded j = false := by
    intro j y hj
    dsimp only [SessionStore.keep] at hj
    split at hj
    · cases hj
    · rename_i hnot
      exact ⟨hj, by simpa using hnot⟩
  refine ⟨fun j y hj => h.logged j y (hkept j y hj).1, fun j y hj => h.fresh j y (hkept j y hj).1,
    fun j j' y y' hj hj' => h.distinct j j' y y' (hkept j y hj).1 (hkept j' y' hj').1, ?_⟩
  intro j y j' y' hj hj' hloaded heq
  obtain ⟨hold, hnot⟩ := hkept j y hj
  obtain rfl := h.distinct j' j y' y hj' hold heq
  exact absurd (hnot.symm.trans hloaded) (by decide)

theorem Records.reset (h : l.Records H S) : l.Records H S.reset :=
  ⟨fun _ _ hj => (nomatch hj), fun _ _ hj => (nomatch hj), fun _ _ _ _ hj => (nomatch hj), h.unused⟩

theorem Keeps.resume (h : l.Keeps H S) (hunused : ∀ n, l.fresh ≤ n → l.sessionLog n = []) :
    ({ l with identity := l.savedIdentity } : AuditLedger).Records H S.resume :=
  ⟨h.logged, h.fresh, h.distinct, hunused⟩

end AuditLedger

/-! ## The action -/

namespace SessionMachine
variable {s s' : SessionMachine}

theorem startup_start {r : SessionReply} {nvStatus : Option RcCode} {startupType : ShutdownType} {nvOk : Bool}
    {sameStart : Option TpmRc} (h : s.startup nvStatus startupType nvOk sameStart = (.ok r, s')) :
    s' = s.start (startupKindOf s.orderly startupType nvOk) ∧
      (startupKindOf s.orderly startupType nvOk ≠ .reset → s.orderly = some .state) := by
  unfold startup at h
  unfold startupKindOf
  split at h
  · cases h
  · split at h
    · split at h
      · cases h
      · rename_i horderly
        split at h
        · cases h
        · split at h
          · cases h
          · cases h
            exact ⟨rfl, fun _ => Decidable.not_not.1 horderly⟩
    · rw [if_neg (by decide)]
      split at h
      · rename_i hboth
        cases h
        exact ⟨by rw [if_pos hboth], fun _ => hboth.1⟩
      · rename_i hnot
        cases h
        rw [if_neg hnot]
        exact ⟨rfl, fun hne => absurd rfl hne⟩

theorem orderly_start (kind : StartupKind) : (s.start kind).orderly = none := by
  cases kind <;> rfl

end SessionMachine

namespace TpmHandle

theorem isSession_rhUnassigned : rhUnassigned.isSession = false := by decide

theorem rhUnassigned_ne (i : SessionIndex) : rhUnassigned ≠ ofSession .hmac i := by
  intro h
  exact absurd (isSession_rhUnassigned.symm.trans (h ▸ isSession_ofSession i)) (by decide)

end TpmHandle

namespace AuditMachine
variable {H : PolicyHash} {level : Nat} {m m' : AuditMachine} {l l' : AuditLedger} {a : AuditCommand}
  {settled settled' : SessionIndex → Prop}

/-- What holds of the sessions and of the exclusive one; during a command the handle of a session that it has started
may still be that of an exclusive session that is gone. -/
structure Faithful (H : PolicyHash) (settled : SessionIndex → Prop) (m : AuditMachine) (l : AuditLedger) : Prop where
  sound : m.sessions.Sound
  records : l.Records H m.sessions.store
  keeps : m.sessions.orderly = some .state → l.Keeps H m.sessions.store
  handle : m.exclusiveAuditSession.isSession = true →
    m.exclusiveAuditSession.getType ≠ TpmHandle.htPolicySession
  exclusive : ∀ i x, settled i → m.sessions.store.session i = some x → x.attributes.isPolicy = false →
    m.exclusiveAuditSession = .ofSession .hmac i → ∀ n ∈ l.since, n = some (l.identity i)
  listed : m.auditCommands 0x140 = true
  unlisted : m.auditCommands 0x145 = false

theorem Faithful.mono (h : m.Faithful H settled l) (hs : ∀ i, settled' i → settled i) : m.Faithful H settled' l :=
  ⟨h.sound, h.records, h.keeps, h.handle, fun i x hi => h.exclusive i x (hs i hi), h.listed, h.unlisted⟩

theorem Faithful.onSessions (h : m.Faithful H settled l) {s : SessionMachine} (hs : s.Sound)
    (hsession : s.store.session = m.sessions.store.session)
    (horderly : s.orderly = some .state → s = m.sessions) : ({ m with sessions := s } : AuditMachine).Faithful H settled l := by
  refine ⟨hs, h.records.congr hsession rfl rfl rfl, fun hstate => ?_, h.handle, ?_, h.listed, h.unlisted⟩
  · obtain rfl := horderly hstate
    exact h.keeps hstate
  · dsimp only
    rw [hsession]
    exact h.exclusive

/-- What an action, successful or not, leaves of what is recorded. -/
structure Acted (H : PolicyHash) (a : AuditCommand) (m m' : AuditMachine) (l' : AuditLedger) : Prop where
  faithful : m'.Faithful H (fun i => a.action.code = 0x176 → m.sessions.status i ≠ .absent) l'
  digest : m'.auditHashAlg = m.auditHashAlg ∧ m'.commandAuditDigest.Of H m'.auditHashAlg l'.commandLog ∨
    m.changesAlg a = true ∧ m'.commandAuditDigest.size = 1 ∧ l'.commandLog = []
  bits : m'.auditCommands a.action.code = m.auditCommands a.action.code
  saved : a.clearOrderly = false → m'.sessions.orderly = some .state →
    m'.savedAuditDigest.Of H m'.auditHashAlg l'.commandLog ∧ m.auditCommands a.action.code = false
  uses : a.action.code ∉ [0x144, 0x161, 0x162, 0x165] → ∀ (u : SessionUse) i x, u.Of m.sessions i x →
    ∃ y, u.Of m'.sessions i y ∧ (x.attributes.isPolicy = false → y = x)

/-- The logs are exact, of what is held and of what has been saved. -/
structure Recorded (H : PolicyHash) (m : AuditMachine) (l : AuditLedger) : Prop where
  faithful : m.Faithful H (fun _ => True) l
  command : m.mode = .running → m.commandAuditDigest.Of H m.auditHashAlg l.commandLog
  saved : m.sessions.orderly = some .state → m.savedAuditDigest.Of H m.auditHashAlg l.commandLog

theorem contextSave_faithful (h : m.Faithful H settled l) (hlast : m.sessions.table.contextCounter ≠ 2 ^ 64 - 1)
    (nvStatus : Option RcCode) (handle : TpmHandle) :
    ({ m with sessions := (m.sessions.contextSave nvStatus handle).2 } : AuditMachine).Faithful H settled l := by
  have hs := (SessionMachine.contextSave_sustains h.sound hlast nvStatus handle).sound
  rcases SessionMachine.contextSave_store h.sound hlast nvStatus handle with hsame | ⟨hnone, hstore⟩
  · rw [hsame]
    exact h
  · refine h.onSessions hs ?_ fun hstate => absurd (hnone.symm.trans hstate) (by decide)
    rcases hstore with hstore | ⟨i, -, hstore⟩
    · rw [hstore]
    · rw [hstore]
      rfl

theorem contextLoad_faithful (h : m.Faithful H settled l) (nvStatus : Option RcCode) {integrity : Option TpmRc}
    {context : SessionContext} (hgiven : integrity = none → context ∈ m.sessions.contexts) :
    ({ m with sessions := (m.sessions.contextLoad nvStatus integrity context).2 } : AuditMachine).Faithful H settled l := by
  have hs := (SessionMachine.contextLoad_sustains h.sound nvStatus integrity context).sound
  rcases SessionMachine.contextLoad_store h.sound nvStatus integrity hgiven with hsame | ⟨hnone, hstore⟩
  · rw [hsame]
    exact h
  · refine h.onSessions hs ?_ fun hstate => absurd (hnone.symm.trans hstate) (by decide)
    rcases hstore with hstore | ⟨i, -, hstore⟩
    · rw [hstore]
    · rw [hstore]
      rfl

/-- A session is gone, and if it was the exclusive one there is none. -/
theorem Faithful.drop (h : m.Faithful H settled l) {s : SessionMachine} (hs : s.Sound) {i : SessionIndex}
    (hstore : s.store = m.sessions.store.drop i) (horderly : s.orderly = m.sessions.orderly) {handle : TpmHandle}
    (hhandle : handle = m.exclusiveAuditSession ∨ handle = TpmHandle.rhUnassigned) :
    ({ m with sessions := s, exclusiveAuditSession := handle } : AuditMachine).Faithful H settled l := by
  refine ⟨hs, ?_, ?_, ?_, ?_, h.listed, h.unlisted⟩
  · dsimp only
    rw [hstore]
    exact h.records.drop
  · dsimp only
    rw [hstore, horderly]
    exact fun hstate => (h.keeps hstate).drop
  · dsimp only
    rcases hhandle with rfl | rfl
    · exact h.handle
    · intro hsession
      exact absurd (TpmHandle.isSession_rhUnassigned.symm.trans hsession) (by decide)
  · dsimp only
    rw [hstore]
    intro j x hj hx hpolicy heq
    rcases hhandle with rfl | rfl
    · exact h.exclusive j x hj (AuditLedger.session_drop hx).1 hpolicy heq
    · exact absurd heq (TpmHandle.rhUnassigned_ne j)

theorem Faithful.create (h : m.Faithful H settled l) {s : SessionMachine} (hs : s.Sound) {i : SessionIndex} {x : Session}
    (hx : x.attributes.isAudit = false) (hstore : s.store = m.sessions.store.create i x)
    (horderly : s.orderly = m.sessions.orderly) (hsettled : ∀ j, settled' j → settled j ∧ j ≠ i) :
    ({ m with sessions := s } : AuditMachine).Faithful H settled' (l.start i) := by
  refine ⟨hs, ?_, ?_, h.handle, ?_, h.listed, h.unlisted⟩
  · dsimp only
    rw [hstore]
    exact h.records.create hx
  · dsimp only
    rw [hstore, horderly]
    exact fun hstate => (h.keeps hstate).create
  · dsimp only
    rw [hstore]
    intro j y hj hy hpolicy heq
    obtain ⟨hold, hji⟩ := hsettled j hj
    dsimp only [SessionStore.create, AuditLedger.start] at hy ⊢
    rw [Function.update_of_ne hji] at hy ⊢
    exact h.exclusive j y hold hy hpolicy heq

/-- A loaded session is changed, and its log with it. -/
theorem Faithful.modify (h : m.Faithful H settled l) {handle : TpmHandle} {i : SessionIndex} {x y : Session}
    (hindex : handle.index = i.val) (hloaded : m.sessions.status i = .loaded) (hx : m.sessions.sessionAt i = some x)
    {log : List AuditEntry} (hy : y.Logged H log) {f : Session → Session} (hf : f x = y)
    (hpolicy : y.attributes.isPolicy = x.attributes.isPolicy) :
    ({ m with sessions := m.sessions.change handle f } : AuditMachine).Faithful H settled
      (l.log (l.identity i) log) := by
  obtain ⟨hstore, -, horderly⟩ := SessionMachine.change_store h.sound hindex hloaded f
  have hmodify : m.sessions.store.modify i f = m.sessions.store.modify i fun _ => y := by
    unfold SessionStore.modify
    rw [show m.sessions.store.session i = some x from hx, Option.map_some, Option.map_some, hf]
  rw [hmodify] at hstore
  refine ⟨SessionMachine.change_sound h.sound handle f, ?_, ?_, h.handle, ?_, h.listed, h.unlisted⟩
  · dsimp only
    rw [hstore]
    exact h.records.modify hx hy
  · dsimp only
    rw [hstore, horderly]
    exact fun hstate => (h.keeps hstate).modify hx (decide_eq_true hloaded) log _
  · dsimp only
    rw [hstore]
    intro j z hj hz hzpolicy heq
    dsimp only [SessionStore.modify] at hz
    by_cases hji : j = i
    · subst hji
      rw [Function.update_self, show m.sessions.store.session j = some x from hx, Option.map_some] at hz
      obtain rfl := Option.some.inj hz
      exact h.exclusive j x hj hx (hpolicy.symm.trans hzpolicy) heq
    · rw [Function.update_of_ne hji] at hz
      exact h.exclusive j z hj hz hzpolicy heq

theorem Faithful.change (h : m.Faithful H settled l) {handle : TpmHandle} {i : SessionIndex} {x : Session}
    (hindex : handle.index = i.val) (hloaded : m.sessions.status i = .loaded) (hx : m.sessions.sessionAt i = some x)
    {f : Session → Session} (hf : ∀ log, x.Logged H log → (f x).Logged H log)
    (hpolicy : (f x).attributes.isPolicy = x.attributes.isPolicy) :
    ({ m with sessions := m.sessions.change handle f } : AuditMachine).Faithful H settled l := by
  have hmodify := h.modify hindex hloaded hx (hf _ (h.records.logged i x hx)) rfl hpolicy
  have hsame : l.log (l.identity i) (l.sessionLog (l.identity i)) = l := by
    unfold AuditLedger.log
    rw [Function.update_eq_self]
  rwa [hsame] at hmodify

/-- A loaded session remains one of a command when a session is changed. -/
theorem uses_change {s : SessionMachine} (hs : s.Sound) {handle : TpmHandle} {i j : SessionIndex} {x y : Session}
    {f : Session → Session} (hindex : handle.index = i.val) (hloaded : s.status i = .loaded) (hx : s.sessionAt i = some x)
    (hpolicy : (f x).attributes.isPolicy = x.attributes.isPolicy) {u : SessionUse} (hu : u.Of s j y) :
    u.Of (s.change handle f) j (if j = i then f x else y) := by
  obtain ⟨hstore, hstatus, -⟩ := SessionMachine.change_store hs hindex hloaded f
  have hat : (s.change handle f).sessionAt j = (s.store.modify i f).session j :=
    congrFun (congrArg SessionStore.session hstore) j
  refine ⟨hu.isSession, hu.index, (congrFun hstatus j).trans hu.loaded, ?_, ?_⟩
  · rw [hat]
    dsimp only [SessionStore.modify]
    split
    · rename_i hji
      subst hji
      rw [Function.update_self, show s.store.session j = some x from hx]
      rfl
    · rename_i hji
      rw [Function.update_of_ne hji]
      exact hu.session
  · split
    · rename_i hji
      subst hji
      obtain rfl := Option.some.inj (hx.symm.trans hu.session)
      exact hpolicy.trans hu.type
    · exact hu.type

theorem respond_logged (w : Circumstances) (nonceTpm : Bytes) {x : Session} {log : List AuditEntry} (h : x.Logged H log) :
    (x.respond w nonceTpm).Logged H log ∧ (x.respond w nonceTpm).attributes.isPolicy = x.attributes.isPolicy := by
  unfold Session.respond
  cases hpolicy : x.attributes.isPolicy with
  | true => exact ⟨h.of_plain (h.plain hpolicy) rfl, rfl⟩
  | false => exact ⟨⟨h.isAudit, h.type, h.digest⟩, hpolicy⟩

/-- What a command does to a policy session. -/
theorem onPolicySession_cases (hs : m.sessions.Sound) (handle : TpmHandle) (f : Session → PolicyOutcome) :
    (m.onPolicySession handle f).2 = m ∧ (∃ e, (m.onPolicySession handle f).1 = .error e) ∨
      ∃ i x, handle.index = i.val ∧ m.sessions.status i = .loaded ∧ m.sessions.sessionAt i = some x ∧
        x.attributes.isPolicy = true ∧ (m.onPolicySession handle f).1 = (f x).1.map (fun _ => .none) ∧
        (m.onPolicySession handle f).2 = { m with sessions := m.sessions.change handle fun _ => (f x).2 } := by
  unfold onPolicySession
  by_cases htype : handle.getType ≠ TpmHandle.htPolicySession
  · rw [if_pos htype]
    exact .inl ⟨rfl, _, rfl⟩
  · rw [if_neg htype]
    split
    · rename_i hload hget
      rename_i x
      obtain ⟨-, i, hindex, hloaded, hx⟩ := hs.sessionGet_iff.1 hget
      refine .inr ⟨i, x, hindex, hloaded, hx, ?_, rfl, rfl⟩
      unfold SessionMachine.entityGetLoadStatus at hload
      obtain ⟨_, -, hload⟩ := bind_eq_ok hload
      obtain ⟨y, hy, hload⟩ := bind_eq_ok hload
      obtain rfl := Except.ok.inj (hget.symm.trans hy)
      have hkind := demand_eq_ok hload
      rw [Decidable.not_not.1 htype] at hkind
      simpa using hkind
    · exact .inl ⟨rfl, _, rfl⟩
    · exact .inl ⟨rfl, _, rfl⟩

/-- A policy session is changed into another policy session. -/
theorem onPolicySession_faithful (h : m.Faithful H settled l) (handle : TpmHandle) {f : Session → PolicyOutcome}
    (hf : ∀ x, x.attributes.isPolicy = true → x.attributes.isAudit = false →
      (f x).2.attributes.isPolicy = true ∧ (f x).2.attributes.isAudit = false) :
    (m.onPolicySession handle f).2.Faithful H settled l ∧
      (∀ (u : SessionUse) j y, u.Of m.sessions j y → ∃ z, u.Of (m.onPolicySession handle f).2.sessions j z ∧
        (y.attributes.isPolicy = false → z = y)) ∧
      ∃ s, (m.onPolicySession handle f).2 = { m with sessions := s } ∧ s.orderly = m.sessions.orderly := by
  rcases onPolicySession_cases h.sound handle f with ⟨hsame, -⟩ | ⟨i, x, hindex, hloaded, hx, hpolicy, -, hout⟩
  · rw [hsame]
    exact ⟨h, fun u j y hu => ⟨y, hu, fun _ => rfl⟩, m.sessions, rfl, rfl⟩
  · have hlogged := h.records.logged i x hx
    obtain ⟨hstill, hplain⟩ := hf x hpolicy (hlogged.plain hpolicy)
    rw [hout]
    refine ⟨?_, fun u j y hu => ?_, _, rfl, (SessionMachine.change_store h.sound hindex hloaded _).2.2⟩
    · refine h.change hindex hloaded hx (fun log hlog => ?_) (hstill.trans hpolicy.symm)
      exact hlog.of_plain (hlog.plain hpolicy) hplain
    · refine ⟨_, uses_change (f := fun _ => (f x).2) h.sound hindex hloaded hx (hstill.trans hpolicy.symm) hu, fun hnot => ?_⟩
      split
      · rename_i hji
        subst hji
        obtain rfl := Option.some.inj (hx.symm.trans hu.session)
        exact absurd (hpolicy.symm.trans hnot) (by decide)
      · rfl

end AuditMachine

/-! ## The digest of the commands -/

section
variable {H : PolicyHash} {alg : HashAlg} {log : List AuditEntry} {d : AuditDigest}

theorem HashAlg.one_lt_digestSize (alg : HashAlg) : 1 < alg.digestSize := by
  cases alg <;> decide

theorem AuditDigest.Of.of_size (h : d.size = 0) : d.Of H alg [] := ⟨fun _ => h, fun hne => absurd rfl hne⟩

theorem AuditDigest.Of.size_eq_zero_iff (h : d.Of H alg log) : d.size = 0 ↔ log = [] := by
  refine ⟨fun hsize => ?_, h.empty⟩
  by_contra hne
  have hlt := HashAlg.one_lt_digestSize alg
  have hbegun := (h.begun hne).1
  omega

theorem AuditDigest.Of.size_ne_one (h : d.Of H alg log) : d.size ≠ 1 := by
  by_cases hlog : log = []
  · rw [h.empty hlog]
    decide
  · rw [(h.begun hlog).1]
    exact Nat.ne_of_gt (HashAlg.one_lt_digestSize alg)

end

namespace AuditMachine
variable {H : PolicyHash} {level : Nat} {m m' : AuditMachine} {l l' : AuditLedger} {a : AuditCommand} {r : SessionReply}
  {settled settled' : SessionIndex → Prop}

theorem startup_acted (hr : m.Recorded H l) {startupType : ShutdownType} {nvOk : Bool} {sameStart : Option TpmRc}
    (haction : a.action = .startup startupType nvOk sameStart)
    (hstart : m.sessions.orderly = some .state → startupKindOf m.sessions.orderly startupType nvOk ≠ .reset →
      ∀ i x, m.sessions.store.kept i = some x → x.attributes.isPolicy = false →
        m.exclusiveAuditSession ≠ .ofSession .hmac i)
    (h : m.act H level a = (.ok r, m')) : m.Acted H a m' (l.ofAction a m r) ∧ m'.mode = .running := by
  have hcode : a.action.code = 0x144 := by rw [haction]; rfl
  unfold act at h
  rw [haction] at h
  dsimp only at h
  split at h
  · cases h
  · rename_i s hs
    obtain ⟨hstarted, horderly⟩ := SessionMachine.startup_start hs
    cases h
    have hsound := (SessionMachine.startup_sustains hr.faithful.sound a.nvStatus startupType nvOk sameStart).sound
    rw [hs] at hsound
    have hstore := SessionMachine.start_store (m := m.sessions) (startupKindOf m.sessions.orderly startupType nvOk)
    rw [← hstarted] at hstore
    have hnone : s.orderly = none := by
      rw [hstarted]
      exact SessionMachine.orderly_start _
    refine ⟨⟨⟨hsound, ?_, fun hstate => absurd (hnone.symm.trans hstate) (by decide), hr.faithful.handle, ?_,
      hr.faithful.listed, hr.faithful.unlisted⟩, .inl ⟨rfl, ?_⟩, rfl,
      fun _ hstate => absurd (hnone.symm.trans hstate) (by decide), ?_⟩, rfl⟩
    · unfold AuditLedger.ofAction
      rw [haction]
      dsimp only
      rw [hstore]
      by_cases hkind : startupKindOf m.sessions.orderly startupType nvOk = .reset
      · rw [if_pos hkind, if_pos hkind]
        exact hr.faithful.records.reset.congr rfl rfl rfl rfl
      · rw [if_neg hkind, if_neg hkind]
        exact (hr.faithful.keeps (horderly hkind)).resume hr.faithful.records.unused
    · unfold AuditLedger.ofAction
      rw [haction]
      dsimp only
      rw [hstore]
      by_cases hkind : startupKindOf m.sessions.orderly startupType nvOk = .reset
      · rw [if_pos hkind]
        intro i x _ hx
        cases hx
      · rw [if_neg hkind]
        intro i x _ hx hpolicy heq
        exact absurd heq (hstart (horderly hkind) hkind i x hx hpolicy)
    · unfold AuditLedger.ofAction
      rw [haction]
      dsimp only
      split
      · exact .of_size rfl
      · rename_i hkind
        exact hr.saved (horderly hkind)
    · intro hnot
      exact absurd (hcode ▸ List.mem_cons_self) hnot

theorem shutdown_acted (hr : m.Recorded H l) (hmode : m.mode = .running) {pcrReConfig : Bool} {shutdownType : ShutdownType}
    (haction : a.action = .shutdown pcrReConfig shutdownType) (h : m.act H level a = (.ok r, m')) :
    m.Acted H a m' (l.ofAction a m r) ∧ m'.mode = .running := by
  have hcode : a.action.code = 0x145 := by rw [haction]; rfl
  unfold act at h
  rw [haction] at h
  dsimp only at h
  have hsound := (SessionMachine.shutdown_sustains hr.faithful.sound a.nvStatus pcrReConfig shutdownType).sound
  rcases SessionMachine.shutdown_store (m := m.sessions) a.nvStatus pcrReConfig shutdownType with
    ⟨c, hc⟩ | ⟨s, hs, horderly, hstore⟩
  · rw [hc] at h
    cases h
  · rw [hs] at h hsound
    cases h
    have hsession : s.store.session = m.sessions.store.session := by
      rw [hstore]
      split <;> rfl
    have hl : (l.ofAction a m SessionReply.none).identity = l.identity ∧
        (l.ofAction a m SessionReply.none).fresh = l.fresh ∧
        (l.ofAction a m SessionReply.none).sessionLog = l.sessionLog ∧
        (l.ofAction a m SessionReply.none).since = l.since ∧
        (l.ofAction a m SessionReply.none).commandLog = l.commandLog := by
      unfold AuditLedger.ofAction
      rw [haction]
      cases shutdownType <;> exact ⟨rfl, rfl, rfl, rfl, rfl⟩
    obtain ⟨hidentity, hfresh, hlog, hsince, hcommand⟩ := hl
    refine ⟨⟨⟨hsound, hr.faithful.records.congr hsession hidentity hfresh hlog, fun hstate => ?_, hr.faithful.handle, ?_,
      hr.faithful.listed, hr.faithful.unlisted⟩, .inl ⟨rfl, ?_⟩, rfl, fun _ hstate => ⟨?_, ?_⟩, ?_⟩, hmode⟩
    · obtain rfl := Option.some.inj (horderly.symm.trans hstate)
      dsimp only
      rw [hstore, if_pos rfl]
      unfold AuditLedger.ofAction
      rw [haction]
      exact hr.faithful.records.keeps
    · dsimp only
      rw [hsession, hsince, hidentity]
      exact fun i x _ => hr.faithful.exclusive i x trivial
    · rw [hcommand]
      exact hr.command hmode
    · obtain rfl := Option.some.inj (horderly.symm.trans hstate)
      rw [hcommand]
      exact hr.command hmode
    · rw [hcode]
      exact hr.faithful.unlisted
    · intro _ u i x hu
      refine ⟨x, ⟨hu.isSession, hu.index, ?_, ?_, hu.type⟩, fun _ => rfl⟩
      · have hloaded : s.store.loaded = m.sessions.store.loaded := by
          rw [hstore]
          split <;> rfl
        exact of_decide_eq_true ((congrFun hloaded i).trans (decide_eq_true hu.loaded))
      · exact (congrFun hsession i).trans hu.session

theorem Recorded.acted (hr : m.Recorded H l) (hmode : m.mode = .running) {s : SessionMachine} {handle : TpmHandle}
    (hfaithful : ({ m with sessions := s, exclusiveAuditSession := handle } : AuditMachine).Faithful H
      (fun i => a.action.code = 0x176 → m.sessions.status i ≠ .absent) l')
    (hlog : l'.commandLog = l.commandLog)
    (horderly : s.orderly = m.sessions.orderly ∨ s.orderly = none)
    (hforgets : s.orderly = some .state → a.clearOrderly = false → m.auditCommands a.action.code = false)
    (huses : a.action.code ∉ [0x144, 0x161, 0x162, 0x165] → ∀ (u : SessionUse) i x, u.Of m.sessions i x →
      ∃ y, u.Of s i y ∧ (x.attributes.isPolicy = false → y = x)) :
    m.Acted H a { m with sessions := s, exclusiveAuditSession := handle } l' := by
  refine ⟨hfaithful, .inl ⟨rfl, ?_⟩, rfl, fun hclear hstate => ⟨?_, hforgets hstate hclear⟩, huses⟩
  · rw [hlog]
    exact hr.command hmode
  · rw [hlog]
    rcases horderly with hsame | hnone
    · exact hr.saved (hsame.symm.trans hstate)
    · exact absurd (hnone.symm.trans hstate) (by decide)

theorem audited_eq_false (hforgets : m.forgets a = false) : m.auditCommands a.action.code = false := by
  unfold forgets at hforgets
  exact (Bool.or_eq_false_iff.1 hforgets).1

theorem startAuthSession_acted (hr : m.Recorded H l) (hmode : m.mode = .running) {sessionType : SessionType}
    {checks : Option TpmRc} {session : Session} (haction : a.action = .startAuthSession sessionType checks session)
    (hforgets : m.sessions.orderly = some .state → a.clearOrderly = false → m.forgets a = false)
    (h : m.act H level a = (.ok r, m')) : m.Acted H a m' (l.ofAction a m r) ∧ m'.mode = .running := by
  have hcode : a.action.code = 0x176 := by rw [haction]; rfl
  unfold act at h
  rw [haction] at h
  dsimp only [onSessions] at h
  have hsound := (SessionMachine.startAuthSession_sustains hr.faithful.sound sessionType checks
    { session with attributes := { session.attributes with isAudit := false } }).sound
  rcases SessionMachine.startAuthSession_store hr.faithful.sound sessionType checks
    { session with attributes := { session.attributes with isAudit := false } } with ⟨c, hc⟩ | ⟨i, s, hs, habsent, hstore, horderly⟩
  · rw [hc] at h
    cases h
  · rw [hs] at h hsound
    cases h
    have hl : l.ofAction a m (.handle (.ofSession sessionType i)) = l.start i := by
      unfold AuditLedger.ofAction
      rw [haction]
      dsimp only
      rw [SessionTable.index_ofSession, SessionTable.entryAt_val]
    rw [hl]
    refine ⟨hr.acted hmode ?_ rfl (.inl horderly) ?_ ?_, hmode⟩
    · refine hr.faithful.create hsound rfl hstore horderly fun j hj => ⟨trivial, ?_⟩
      rintro rfl
      exact hj hcode habsent
    · exact fun hstate hclear => audited_eq_false (hforgets (horderly.symm.trans hstate) hclear)
    · intro _ u j x hu
      have hji : j ≠ i := by
        rintro rfl
        exact absurd (hu.loaded.symm.trans habsent) (by decide)
      refine ⟨x, ⟨hu.isSession, hu.index, ?_, ?_, hu.type⟩, fun _ => rfl⟩
      · have hloaded : s.store.loaded j = true := by
          rw [hstore]
          dsimp only [SessionStore.create]
          rw [Function.update_of_ne hji]
          exact decide_eq_true hu.loaded
        exact of_decide_eq_true hloaded
      · have hat : s.store.session j = m.sessions.store.session j := by
          rw [hstore]
          exact Function.update_of_ne hji ..
        exact hat.trans hu.session

theorem given_of_integrity {s : SessionMachine} {context : SessionContext} {checks : Option TpmRc} {rc : TpmRc}
    (h : (if context ∈ s.contexts then checks else some rc) = none) : context ∈ s.contexts := by
  by_contra hnot
  rw [if_neg hnot] at h
  cases h

/-- A context that is saved or loaded ends the orderly state. -/
theorem contextSave_orderly {s : SessionMachine} {nvStatus : Option RcCode} {handle : TpmHandle}
    (h : (s.contextSave nvStatus handle).1 = .ok r) : (s.contextSave nvStatus handle).2.orderly = none := by
  unfold SessionMachine.contextSave at h ⊢
  split
  · rename_i hcontext
    rw [if_pos hcontext] at h
    cases h
  · rename_i hcontext
    rw [if_neg hcontext] at h
    split
    · rename_i hload
      rw [hload] at h
      cases h
    · rename_i hload
      rw [hload] at h
      dsimp only at h
      split
      · rename_i hopen
        rw [hopen] at h
        cases h
      · dsimp only
        split
        · rfl
        · split <;> rfl

theorem contextLoad_orderly {s : SessionMachine} {nvStatus : Option RcCode} {integrity : Option TpmRc}
    {context : SessionContext} (h : (s.contextLoad nvStatus integrity context).1 = .ok r) :
    (s.contextLoad nvStatus integrity context).2.orderly = none := by
  unfold SessionMachine.contextLoad at h ⊢
  split
  · rename_i hcontext
    rw [if_pos hcontext] at h
    cases h
  · rename_i hcontext
    rw [if_neg hcontext] at h
    split
    · cases h
    · dsimp only at h
      split
      · rename_i hopen
        rw [hopen] at h
        cases h
      · dsimp only
        split
        · rfl
        · rfl
        · split <;> rfl

theorem contextSave_acted (hr : m.Recorded H l) (hmode : m.mode = .running) {handle : TpmHandle}
    (haction : a.action = .contextSave handle) (hlast : m.sessions.table.contextCounter ≠ 2 ^ 64 - 1)
    (h : m.act H level a = (.ok r, m')) : m.Acted H a m' (l.ofAction a m r) ∧ m'.mode = .running := by
  have hcode : a.action.code = 0x162 := by rw [haction]; rfl
  have hl : l.ofAction a m r = l := by
    unfold AuditLedger.ofAction
    rw [haction]
  unfold act at h
  rw [haction] at h
  obtain ⟨hok, rfl⟩ := Prod.mk.inj h
  have hnone := contextSave_orderly hok
  rw [hl]
  refine ⟨hr.acted hmode ?_ rfl (.inr hnone) (fun hstate => absurd (hnone.symm.trans hstate) (by decide)) ?_, hmode⟩
  · exact (contextSave_faithful hr.faithful hlast a.nvStatus handle).mono fun _ _ => trivial
  · exact fun hnot => absurd (by rw [hcode]; decide) hnot

theorem contextLoad_acted (hr : m.Recorded H l) (hmode : m.mode = .running) {checks : Option TpmRc}
    {context : SessionContext} (haction : a.action = .contextLoad checks context)
    (h : m.act H level a = (.ok r, m')) : m.Acted H a m' (l.ofAction a m r) ∧ m'.mode = .running := by
  have hcode : a.action.code = 0x161 := by rw [haction]; rfl
  have hl : l.ofAction a m r = l := by
    unfold AuditLedger.ofAction
    rw [haction]
  unfold act at h
  rw [haction] at h
  obtain ⟨hok, rfl⟩ := Prod.mk.inj h
  have hnone := contextLoad_orderly hok
  rw [hl]
  refine ⟨hr.acted hmode ?_ rfl (.inr hnone) (fun hstate => absurd (hnone.symm.trans hstate) (by decide)) ?_, hmode⟩
  · exact (contextLoad_faithful hr.faithful a.nvStatus given_of_integrity).mono fun _ _ => trivial
  · exact fun hnot => absurd (by rw [hcode]; decide) hnot

theorem flushContext_acted (hr : m.Recorded H l) (hmode : m.mode = .running) {handle : TpmHandle}
    (haction : a.action = .flushContext handle)
    (hforgets : m.sessions.orderly = some .state → a.clearOrderly = false → m.forgets a = false)
    (h : m.act H level a = (.ok r, m')) : m.Acted H a m' (l.ofAction a m r) ∧ m'.mode = .running := by
  have hcode : a.action.code = 0x165 := by rw [haction]; rfl
  have hl : l.ofAction a m r = l := by
    unfold AuditLedger.ofAction
    rw [haction]
  unfold act at h
  rw [haction] at h
  dsimp only at h
  have hsound := (SessionMachine.flushContext_sustains hr.faithful.sound handle).sound
  rcases SessionMachine.flushContext_store hr.faithful.sound handle with ⟨c, hc⟩ | ⟨i, -, hstore, horderly⟩
  · rw [hc] at h
    cases h
  · split at h
    · cases h
    · rename_i r' s hs
      rw [hs] at hsound hstore horderly
      cases h
      rw [hl]
      refine ⟨hr.acted hmode ?_ rfl (.inl horderly) ?_ ?_, hmode⟩
      · refine (hr.faithful.drop hsound hstore horderly ?_).mono fun _ _ => trivial
        split
        · exact .inr rfl
        · exact .inl rfl
      · exact fun hstate hclear => audited_eq_false (hforgets (horderly.symm.trans hstate) hclear)
      · exact fun hnot => absurd (by rw [hcode]; decide) hnot

theorem onPolicySession_acted (hr : m.Recorded H l) (hmode : m.mode = .running) (handle : TpmHandle)
    {f : Session → PolicyOutcome}
    (hf : ∀ x, x.attributes.isPolicy = true → x.attributes.isAudit = false →
      (f x).2.attributes.isPolicy = true ∧ (f x).2.attributes.isAudit = false)
    (hforgets : m.sessions.orderly = some .state → a.clearOrderly = false → m.forgets a = false) :
    m.Acted H a (m.onPolicySession handle f).2 l ∧ (m.onPolicySession handle f).2.mode = .running := by
  obtain ⟨hfaithful, huses, s, hs, horderly⟩ := onPolicySession_faithful hr.faithful handle hf
  rw [hs] at hfaithful huses ⊢
  refine ⟨hr.acted hmode (hfaithful.mono fun _ _ => trivial) rfl (.inl horderly) ?_ fun _ => huses, hmode⟩
  exact fun hstate hclear => audited_eq_false (hforgets (horderly.symm.trans hstate) hclear)

theorem policy_acted (hr : m.Recorded H l) (hmode : m.mode = .running) {code : Nat} {handle : TpmHandle} {cmd : PolicyCommand}
    (haction : a.action = .policy code handle cmd)
    (hforgets : m.sessions.orderly = some .state → a.clearOrderly = false → m.forgets a = false)
    (h : m.act H level a = (.ok r, m')) : m.Acted H a m' (l.ofAction a m r) ∧ m'.mode = .running := by
  have hl : l.ofAction a m r = l := by
    unfold AuditLedger.ofAction
    rw [haction]
  unfold act at h
  rw [haction] at h
  obtain rfl := congrArg Prod.snd h
  rw [hl]
  refine onPolicySession_acted hr hmode handle (fun x hpolicy hplain => ?_) hforgets
  have hpoliced : x.Policed _ (cmd.act H level a.circumstances x).2 := cmd.act_policed
  exact ⟨hpoliced.isPolicy.trans hpolicy, hpoliced.isAudit.trans hplain⟩

theorem policyRestart_acted (hr : m.Recorded H l) (hmode : m.mode = .running) {handle : TpmHandle}
    (haction : a.action = .policyRestart handle)
    (hforgets : m.sessions.orderly = some .state → a.clearOrderly = false → m.forgets a = false)
    (h : m.act H level a = (.ok r, m')) : m.Acted H a m' (l.ofAction a m r) ∧ m'.mode = .running := by
  have hl : l.ofAction a m r = l := by
    unfold AuditLedger.ofAction
    rw [haction]
  unfold act at h
  rw [haction] at h
  obtain rfl := congrArg Prod.snd h
  rw [hl]
  exact onPolicySession_acted hr hmode handle (fun _ _ _ => ⟨rfl, rfl⟩) hforgets

theorem auditBits_listed {implemented : Nat → Bool} {setList clearList : List Nat} {bits : Nat → Bool}
    (hbits : bits 0x140 = true) : auditBits implemented setList clearList bits 0x140 = true := by
  simp [auditBits, hbits]

theorem auditBits_unlisted {implemented : Nat → Bool} {setList clearList : List Nat} {bits : Nat → Bool}
    (hbits : bits 0x145 = false) : auditBits implemented setList clearList bits 0x145 = false := by
  simp [auditBits, hbits]

theorem setCommandCodeAuditStatus_acted (hr : m.Recorded H l) (hmode : m.mode = .running) {auditAlg : Option HashAlg}
    {setList clearList : List Nat} (haction : a.action = .setCommandCodeAuditStatus auditAlg setList clearList)
    (hforgets : m.sessions.orderly = some .state → a.clearOrderly = false → m.forgets a = false)
    (h : m.act H level a = (.ok r, m')) : m.Acted H a m' (l.ofAction a m r) ∧ m'.mode = .running := by
  have hcode : a.action.code = 0x140 := by rw [haction]; rfl
  have haudited : m.auditCommands a.action.code = true := by
    rw [hcode]
    exact hr.faithful.listed
  -- the command is audited, so that it is not let through while the state is recorded
  have hnot : m.sessions.orderly = some .state → a.clearOrderly = false → False := by
    intro hstate hclear
    exact absurd (haudited.symm.trans (audited_eq_false (hforgets hstate hclear))) (by decide)
  have hchanges : m.changesAlg a = (m.newAuditAlg auditAlg).isSome := by
    unfold changesAlg
    rw [haction]
  have hl : l.ofAction a m r = if m.changesAlg a then { l with commandLog := [] } else l := by
    unfold AuditLedger.ofAction
    rw [haction]
  unfold act setCommandCodeAuditStatus at h
  rw [haction] at h
  dsimp only at h
  have hf := hr.faithful
  split at h
  · cases h
  · split at h
    · rename_i alg halg
      split at h
      · cases h
      · cases h
        rw [halg] at hchanges
        rw [hl, hchanges, if_pos (by rfl)]
        refine ⟨⟨⟨hf.sound, hf.records.congr rfl rfl rfl rfl, fun hstate => ?_, hf.handle,
          fun i x _ => hf.exclusive i x trivial, hf.listed, hf.unlisted⟩, .inr ⟨hchanges, rfl, rfl⟩, rfl,
          fun hclear hstate => absurd hclear fun hclear => hnot hstate hclear, fun _ u i x hu => ⟨x, hu, fun _ => rfl⟩⟩, hmode⟩
        exact (hf.keeps hstate).congr rfl rfl rfl rfl rfl rfl rfl
    · rename_i hnone
      cases h
      rw [hnone] at hchanges
      rw [hl, hchanges, if_neg (by decide)]
      refine ⟨⟨⟨hf.sound, hf.records, hf.keeps, hf.handle, fun i x _ => hf.exclusive i x trivial, ?_, ?_⟩,
        .inl ⟨rfl, hr.command hmode⟩, ?_, fun hclear hstate => absurd hclear fun hclear => hnot hstate hclear,
        fun _ u i x hu => ⟨x, hu, fun _ => rfl⟩⟩, hmode⟩
      · dsimp only
        exact auditBits_listed hf.listed
      · dsimp only
        exact auditBits_unlisted hf.unlisted
      · rw [haudited]
        dsimp only
        rw [hcode]
        exact auditBits_listed hf.listed

theorem getCommandAuditDigest_acted (hr : m.Recorded H l) (hmode : m.mode = .running) {checks : Option TpmRc} {isSigned : Bool}
    (haction : a.action = .getCommandAuditDigest checks isSigned)
    (hforgets : m.sessions.orderly = some .state → a.clearOrderly = false → m.forgets a = false)
    (h : m.act H level a = (.ok r, m')) : m.Acted H a m' (l.ofAction a m r) ∧ m'.mode = .running := by
  have hf := hr.faithful
  have hcommand := hr.command hmode
  unfold act at h
  rw [haction] at h
  dsimp only at h
  split at h
  · cases h
  · cases h
    have hl : l.ofAction a m .none = if isSigned then { l with commandLog := [] } else l := by
      unfold AuditLedger.ofAction
      rw [haction]
      cases isSigned <;> rfl
    rw [hl]
    cases isSigned with
    | false =>
        rw [if_neg Bool.false_ne_true, if_neg Bool.false_ne_true]
        refine ⟨hr.acted hmode (hf.mono fun _ _ => trivial) rfl (.inl rfl) ?_ fun _ u i x hu => ⟨x, hu, fun _ => rfl⟩, hmode⟩
        exact fun hstate hclear => audited_eq_false (hforgets hstate hclear)
    | true =>
        rw [if_pos rfl, if_pos rfl]
        refine ⟨⟨⟨hf.sound, hf.records.congr rfl rfl rfl rfl, fun hstate => ?_, hf.handle,
          fun i x _ => hf.exclusive i x trivial, hf.listed, hf.unlisted⟩, .inl ⟨rfl, .of_size rfl⟩, rfl,
          fun hclear hstate => ⟨?_, ?_⟩, fun _ u i x hu => ⟨x, hu, fun _ => rfl⟩⟩, hmode⟩
        · exact (hf.keeps hstate).congr rfl rfl rfl rfl rfl rfl rfl
        · -- nothing is reset but a log that has not begun
          have hquiet := hforgets hstate hclear
          unfold forgets at hquiet
          rw [haction] at hquiet
          simp only [Bool.true_and, Bool.or_eq_false_iff, bne_eq_false_iff_eq] at hquiet
          have hempty := hcommand.size_eq_zero_iff.1 hquiet.2
          have hsaved := hr.saved hstate
          rw [hempty] at hsaved
          exact hsaved
        · exact audited_eq_false (hforgets hstate hclear)

theorem other_acted (hr : m.Recorded H l) (hmode : m.mode = .running) {code : Nat} {checks : Option TpmRc}
    (haction : a.action = .other code checks)
    (hforgets : m.sessions.orderly = some .state → a.clearOrderly = false → m.forgets a = false)
    (h : m.act H level a = (.ok r, m')) : m.Acted H a m' (l.ofAction a m r) ∧ m'.mode = .running := by
  have hl : l.ofAction a m r = l := by
    unfold AuditLedger.ofAction
    rw [haction]
  unfold act at h
  rw [haction] at h
  dsimp only at h
  split at h
  · cases h
  · cases h
    rw [hl]
    refine ⟨hr.acted hmode (hr.faithful.mono fun _ _ => trivial) rfl (.inl rfl) ?_ fun _ u i x hu => ⟨x, hu, fun _ => rfl⟩, hmode⟩
    exact fun hstate hclear => audited_eq_false (hforgets hstate hclear)

/-- The condition, where the command succeeds. -/
def Minds (m : AuditMachine) (a : AuditCommand) : Prop :=
  match a.action with
  | .startup startupType nvOk _ =>
      m.sessions.orderly = some .state → startupKindOf m.sessions.orderly startupType nvOk ≠ .reset →
        ∀ i x, m.sessions.store.kept i = some x → x.attributes.isPolicy = false →
          m.exclusiveAuditSession ≠ .ofSession .hmac i
  | .contextSave _ => m.sessions.table.contextCounter ≠ 2 ^ 64 - 1
  | .contextLoad .. => True
  | _ => m.sessions.orderly = some .state → a.clearOrderly = false → m.forgets a = false

theorem running_of_accepts (haccepts : m.accepts a = true)
    (haction : ∀ startupType nvOk sameStart, a.action ≠ .startup startupType nvOk sameStart) : m.mode = .running := by
  unfold accepts at haccepts
  split at haccepts
  · rename_i hstartup
    exact absurd hstartup (haction _ _ _)
  · assumption
  · cases haccepts

theorem act_acted (hr : m.Recorded H l) (haccepts : m.accepts a = true) (hminds : m.Minds a)
    (h : m.act H level a = (.ok r, m')) : m.Acted H a m' (l.ofAction a m r) ∧ m'.mode = .running := by
  unfold Minds at hminds
  cases haction : a.action with
  | startup startupType nvOk sameStart =>
      rw [haction] at hminds
      exact startup_acted hr haction hminds h
  | contextSave handle =>
      rw [haction] at hminds
      exact contextSave_acted hr (running_of_accepts haccepts (by simp [haction])) haction hminds h
  | contextLoad checks context =>
      exact contextLoad_acted hr (running_of_accepts haccepts (by simp [haction])) haction h
  | shutdown pcrReConfig shutdownType =>
      exact shutdown_acted hr (running_of_accepts haccepts (by simp [haction])) haction h
  | startAuthSession sessionType checks session =>
      rw [haction] at hminds
      exact startAuthSession_acted hr (running_of_accepts haccepts (by simp [haction])) haction hminds h
  | flushContext handle =>
      rw [haction] at hminds
      exact flushContext_acted hr (running_of_accepts haccepts (by simp [haction])) haction hminds h
  | policy code handle cmd =>
      rw [haction] at hminds
      exact policy_acted hr (running_of_accepts haccepts (by simp [haction])) haction hminds h
  | policyRestart handle =>
      rw [haction] at hminds
      exact policyRestart_acted hr (running_of_accepts haccepts (by simp [haction])) haction hminds h
  | setCommandCodeAuditStatus auditAlg setList clearList =>
      rw [haction] at hminds
      exact setCommandCodeAuditStatus_acted hr (running_of_accepts haccepts (by simp [haction])) haction hminds h
  | getCommandAuditDigest checks isSigned =>
      rw [haction] at hminds
      exact getCommandAuditDigest_acted hr (running_of_accepts haccepts (by simp [haction])) haction hminds h
  | other code checks =>
      rw [haction] at hminds
      exact other_acted hr (running_of_accepts haccepts (by simp [haction])) haction hminds h

end AuditMachine

end PqcTpm
