import PqcTpm.AuditLog

/-!
# What a command is before its action

The sessions that have been retrieved, and the hashes of the parameters: they are computed before the action and before
the parameters are decrypted, for each algorithm that is asked for afterwards.
-/
namespace PqcTpm
open ByteCodec Transition

/-! ## Handles of sessions -/

namespace TpmHandle

theorem isSession_ofSession (i : SessionIndex) : (ofSession .hmac i).isSession = true := by
  revert i
  decide

theorem getType_ofSession (i : SessionIndex) : (ofSession .hmac i).getType = htHmacSession := by
  revert i
  decide

theorem ofSession_injective {i j : SessionIndex} (h : ofSession .hmac i = ofSession .hmac j) : i = j := by
  have hindex := congrArg index h
  rw [SessionTable.index_ofSession, SessionTable.index_ofSession] at hindex
  exact Fin.val_injective hindex

theorem eq_of_type_index {h h' : TpmHandle} (htype : h.getType = h'.getType) (hindex : h.index = h'.index) : h = h' := by
  have hlt := h.toNat_lt
  have hlt' := h'.toNat_lt
  have htop : h.toNat / 2 ^ 24 = h'.toNat / 2 ^ 24 := by
    have hvalue := congrArg UInt8.toNat htype
    unfold getType at hvalue
    rw [UInt32.toNat_toUInt8, UInt32.toNat_toUInt8, UInt32.toNat_shiftRight, UInt32.toNat_shiftRight] at hvalue
    simp only [UInt32.reduceToNat, Nat.shiftRight_eq_div_pow, Nat.reduceMod, Nat.reducePow] at hvalue
    omega
  have hlow : h.toNat % 2 ^ 24 = h'.toNat % 2 ^ 24 := by
    unfold index at hindex
    rw [UInt32.toNat_and, UInt32.toNat_and] at hindex
    exact ((Nat.and_two_pow_sub_one_eq_mod _ 24).symm.trans hindex).trans (Nat.and_two_pow_sub_one_eq_mod _ 24)
  apply UInt32.toNat_inj.1
  omega

theorem eq_ofSession {h : TpmHandle} {i : SessionIndex} (hsession : h.isSession = true)
    (htype : h.getType ≠ htPolicySession) (hindex : h.index = i.val) : h = ofSession .hmac i := by
  unfold isSession at hsession
  rw [Bool.or_eq_true, beq_iff_eq, beq_iff_eq] at hsession
  refine eq_of_type_index ?_ (hindex.trans (SessionTable.index_ofSession .hmac i).symm)
  rw [hsession.resolve_left htype, getType_ofSession]

end TpmHandle

/-! ## The hashes of a command -/

section
variable {H : PolicyHash} {a : AuditCommand} {c c' : HashedCommand} {alg : HashAlg}

theorem hash_ne_nil (data : Bytes) : H.hash alg data ≠ [] := by
  intro h
  have hlength := H.length_eq alg data
  rw [h] at hlength
  cases alg <;> cases hlength

theorem logDigest_append (log : List AuditEntry) (e : AuditEntry) :
    logDigest H alg (log ++ [e]) = e.extend H alg (logDigest H alg log) := by
  unfold logDigest
  rw [List.foldl_append]
  rfl

namespace HashedCommand

/-- The hashes of parameters that have been computed are those of the command as it was transmitted. -/
structure Parsed (H : PolicyHash) (a : AuditCommand) (c : HashedCommand) : Prop where
  code : c.code = a.action.code
  names : c.names = a.names
  parameterBuffer : c.parameterBuffer = a.parameters
  cpHash : ∀ alg, c.cpHash alg ≠ [] → c.cpHash alg = a.entry.cpHash H alg
  rpHash : ∀ alg, c.rpHash alg = []

theorem computeCpHash_ne_nil (alg : HashAlg) (c : HashedCommand) : (c.computeCpHash H alg).cpHash alg ≠ [] := by
  unfold computeCpHash
  split
  · dsimp only
    rw [Function.update_self]
    exact hash_ne_nil _
  · assumption

theorem computeCpHash_mono {alg' : HashAlg} (h : c.cpHash alg' ≠ []) : (c.computeCpHash H alg).cpHash alg' ≠ [] := by
  unfold computeCpHash
  split
  · rename_i hnone
    have hne : alg' ≠ alg := by
      rintro rfl
      exact h hnone
    dsimp only
    rwa [Function.update_of_ne hne]
  · exact h

theorem Parsed.computeCpHash (h : Parsed H a c) (alg : HashAlg) : Parsed H a (c.computeCpHash H alg) := by
  unfold HashedCommand.computeCpHash
  split
  · refine ⟨h.code, h.names, h.parameterBuffer, ?_, h.rpHash⟩
    intro alg' hsome
    dsimp only at hsome ⊢
    by_cases hne : alg' = alg
    · subst hne
      rw [Function.update_self, h.code, h.names, h.parameterBuffer]
      rfl
    · rw [Function.update_of_ne hne] at hsome ⊢
      exact h.cpHash alg' hsome
  · exact h

/-- The hashes that have been computed of a command and of its response. -/
structure Answered (H : PolicyHash) (a : AuditCommand) (c : HashedCommand) : Prop where
  code : c.code = a.action.code
  parameterBuffer : c.parameterBuffer = a.transmitted
  cpHash : ∀ alg, c.cpHash alg ≠ [] → c.cpHash alg = a.entry.cpHash H alg
  rpHash : ∀ alg, c.rpHash alg ≠ [] → c.rpHash alg = a.entry.rpHash H alg

/-- A digest is extended as a log is, where the cpHash has been computed in time. -/
theorem Answered.updateAuditDigest (h : Answered H a c) (hcp : c.cpHash alg ≠ []) (digest : Bytes) :
    ∃ c', c.updateAuditDigest H alg digest = .ok (a.entry.extend H alg digest, c') ∧ Answered H a c' ∧
      c'.cpHash = c.cpHash := by
  have hanswered : Answered H a (c.computeRpHash H alg) ∧ (c.computeRpHash H alg).rpHash alg = a.entry.rpHash H alg ∧
      (c.computeRpHash H alg).cpHash = c.cpHash := by
    unfold computeRpHash
    split
    · refine ⟨⟨h.code, h.parameterBuffer, h.cpHash, ?_⟩, ?_, rfl⟩
      · intro alg' hsome
        dsimp only at hsome ⊢
        by_cases hne : alg' = alg
        · subst hne
          rw [Function.update_self, h.code, h.parameterBuffer]
          rfl
        · rw [Function.update_of_ne hne] at hsome ⊢
          exact h.rpHash alg' hsome
      · dsimp only
        rw [Function.update_self, h.code, h.parameterBuffer]
        rfl
    · rename_i hsome
      exact ⟨h, h.rpHash alg hsome, rfl⟩
  obtain ⟨hnext, hrp, hsame⟩ := hanswered
  refine ⟨c.computeRpHash H alg, ?_, hnext, hsame⟩
  unfold HashedCommand.updateAuditDigest getCpHash
  rw [if_neg hcp]
  show Except.ok _ = _
  rw [hrp, h.cpHash alg hcp]
  rfl

end HashedCommand
end

/-! ## The sessions of a command -/

/-- A session of a command is loaded, and of the type that its handle says. -/
structure SessionUse.Of (s : SessionMachine) (u : SessionUse) (i : SessionIndex) (x : Session) : Prop where
  isSession : u.handle.isSession = true
  index : u.handle.index = i.val
  loaded : s.status i = .loaded
  session : s.sessionAt i = some x
  type : x.attributes.isPolicy = u.isPolicy

theorem SessionUse.Of.get {s : SessionMachine} (hs : s.Sound) {u : SessionUse} {i : SessionIndex} {x : Session}
    (h : u.Of s i x) : s.table.sessionGet u.handle = .ok x :=
  hs.sessionGet_iff.2 ⟨h.isSession, i, h.index, h.loaded, h.session⟩

theorem SessionUse.Of.handle_eq {s : SessionMachine} {u v : SessionUse} {i : SessionIndex} {x y : Session} (hu : u.Of s i x)
    (hv : v.Of s i y) : u.handle = v.handle := by
  obtain rfl := Option.some.inj (hu.session.symm.trans hv.session)
  have htype : u.isPolicy = v.isPolicy := hu.type.symm.trans hv.type
  have hkinds : ∀ w : SessionUse, w.handle.isSession = true →
      w.handle.getType = if w.isPolicy then TpmHandle.htPolicySession else TpmHandle.htHmacSession := by
    intro w hw
    unfold TpmHandle.isSession at hw
    unfold SessionUse.isPolicy
    rw [Bool.or_eq_true, beq_iff_eq, beq_iff_eq] at hw
    rcases hw with hw | hw
    · rw [hw]
      rfl
    · rw [hw]
      rfl
  refine TpmHandle.eq_of_type_index ?_ (hu.index.trans hv.index.symm)
  rw [hkinds u hu.isSession, hkinds v hv.isSession, htype]

namespace AuditMachine
variable {m : AuditMachine}

/-- What `RetrieveSessionData` has made sure of. -/
structure Retrieved (m : AuditMachine) (before : List SessionUse) (u : SessionUse) : Prop where
  password : u.isPassword = true → u.attributes.audit = false
  session : u.isPassword = false → ∃ i x, u.Of m.sessions i x
  audit : u.isPassword = false → u.attributes.audit = true → u.isPolicy = false
  once : u.isPassword = false → ∀ b ∈ before, b.handle ≠ u.handle

theorem retrieveSession_ok (hm : m.sessions.Sound) {before : List SessionUse} {u : SessionUse}
    (h : m.retrieveSession before u = .ok ()) : m.Retrieved before u := by
  unfold retrieveSession at h
  cases hpassword : u.isPassword with
  | true =>
      rw [if_pos hpassword] at h
      have hnone := demand_eq_ok h
      simp only [Bool.not_eq_true', Bool.or_eq_false_iff] at hnone
      exact ⟨fun _ => hnone.1.1, fun hfalse => absurd (hpassword.symm.trans hfalse) (by decide),
        fun hfalse => absurd (hpassword.symm.trans hfalse) (by decide),
        fun hfalse => absurd (hpassword.symm.trans hfalse) (by decide)⟩
  | false =>
      rw [if_neg (by simp [hpassword])] at h
      obtain ⟨_, hsession, h⟩ := bind_eq_ok h
      obtain ⟨_, hloaded, h⟩ := bind_eq_ok h
      obtain ⟨x, hx, h⟩ := bind_eq_ok h
      obtain ⟨_, htype, h⟩ := bind_eq_ok h
      obtain ⟨_, honce, h⟩ := bind_eq_ok h
      obtain ⟨_, i, hindex, hstatus, hat⟩ := hm.sessionGet_iff.1 hx
      refine ⟨fun htrue => absurd (hpassword.symm.trans htrue) (by decide), fun _ => ⟨i, x, ?_⟩, fun _ haudit => ?_,
        fun _ b hb heq => ?_⟩
      · exact ⟨demand_eq_ok hsession, hindex, hstatus, hat, by simpa using demand_eq_ok htype⟩
      · rw [if_pos haudit] at h
        obtain ⟨_, -, h⟩ := bind_eq_ok h
        obtain ⟨_, hpolicy, -⟩ := bind_eq_ok h
        simpa using demand_eq_ok hpolicy
      · have hany := demand_eq_ok honce
        simp only [Bool.not_eq_true', List.any_eq_false, beq_iff_eq] at hany
        exact hany b hb heq

/-- The sessions of a command that has been let through: each is loaded, none comes twice. -/
structure Usable (m : AuditMachine) (us : List SessionUse) : Prop where
  retrieved : ∀ u ∈ us, m.Retrieved [] u
  once : us.Pairwise fun u v => v.isPassword = false → u.handle ≠ v.handle

theorem retrieveSessionData_ok (hm : m.sessions.Sound) {before us : List SessionUse}
    (h : m.retrieveSessionData before us = .ok ()) :
    m.Usable us ∧ ∀ b ∈ before, ∀ u ∈ us, u.isPassword = false → b.handle ≠ u.handle := by
  induction us generalizing before with
  | nil => exact ⟨⟨by simp, .nil⟩, by simp⟩
  | cons u us ih =>
      unfold retrieveSessionData at h
      obtain ⟨_, hu, hrest⟩ := bind_eq_ok h
      have hfirst := retrieveSession_ok hm hu
      obtain ⟨hus, hbefore⟩ := ih hrest
      refine ⟨⟨?_, ?_⟩, ?_⟩
      · intro v hv
        rcases List.mem_cons.1 hv with rfl | hv
        · exact ⟨hfirst.password, hfirst.session, hfirst.audit, fun _ b hb => absurd hb List.not_mem_nil⟩
        · exact hus.retrieved v hv
      · refine List.pairwise_cons.2 ⟨fun v hv => ?_, hus.once⟩
        exact hbefore u (List.mem_append_right _ (List.mem_singleton.2 rfl)) v hv
      · intro b hb v hv hpassword
        rcases List.mem_cons.1 hv with rfl | hv
        · exact hfirst.once hpassword b hb
        · exact hbefore b (List.mem_append_left _ hb) v hv hpassword

section
variable {H : PolicyHash} {a : AuditCommand} {row : CommandRow} {c c' : HashedCommand} {us : List SessionUse}

/-- The cpHash has been computed for the algorithm of an audit session. -/
def Hashed (m : AuditMachine) (c : HashedCommand) (u : SessionUse) : Prop :=
  u.isPassword = false → u.attributes.audit = true → ∀ i x, u.Of m.sessions i x → c.cpHash x.authHashAlg ≠ []

theorem parseSession_ok (hm : m.sessions.Sound) (hc : c.Parsed H a) {u : SessionUse}
    (h : m.parseSession H c u = .ok c') :
    c'.Parsed H a ∧ m.Hashed c' u ∧ ∀ alg, c.cpHash alg ≠ [] → c'.cpHash alg ≠ [] := by
  unfold parseSession at h
  cases hpassword : u.isPassword with
  | true =>
      rw [if_pos hpassword] at h
      obtain rfl := Except.ok.inj h
      exact ⟨hc, fun hfalse => absurd (hpassword.symm.trans hfalse) (by decide), fun _ => id⟩
  | false =>
      rw [if_neg (by simp [hpassword])] at h
      obtain ⟨x, hx, h⟩ := bind_eq_ok h
      obtain ⟨_, -, h⟩ := bind_eq_ok h
      obtain rfl := Except.ok.inj h
      cases haudit : u.attributes.audit with
      | false =>
          rw [if_neg (by simp)]
          exact ⟨hc, fun _ htrue => absurd (haudit.symm.trans htrue) (by decide), fun _ => id⟩
      | true =>
          rw [if_pos rfl]
          refine ⟨hc.computeCpHash x.authHashAlg, fun _ _ i y hy => ?_, fun alg => HashedCommand.computeCpHash_mono⟩
          obtain rfl := Except.ok.inj (hx.symm.trans (hy.get hm))
          exact HashedCommand.computeCpHash_ne_nil _ _

theorem Hashed.mono {u : SessionUse} (h : m.Hashed c u) (hmono : ∀ alg, c.cpHash alg ≠ [] → c'.cpHash alg ≠ []) :
    m.Hashed c' u :=
  fun hpassword haudit i x hx => hmono _ (h hpassword haudit i x hx)

theorem parseSessions_ok (hm : m.sessions.Sound) (hc : c.Parsed H a) (h : us.foldlM (m.parseSession H) c = .ok c') :
    c'.Parsed H a ∧ (∀ u ∈ us, m.Hashed c' u) ∧ ∀ alg, c.cpHash alg ≠ [] → c'.cpHash alg ≠ [] := by
  induction us generalizing c with
  | nil =>
      obtain rfl := Except.ok.inj h
      exact ⟨hc, by simp, fun _ => id⟩
  | cons u us ih =>
      rw [List.foldlM_cons] at h
      obtain ⟨c₁, hu, hrest⟩ := bind_eq_ok h
      obtain ⟨hc₁, hhashed, hmono₁⟩ := parseSession_ok hm hc hu
      obtain ⟨hc', hus, hmono⟩ := ih hc₁ hrest
      refine ⟨hc', ?_, fun alg hsome => hmono alg (hmono₁ alg hsome)⟩
      intro v hv
      rcases List.mem_cons.1 hv with rfl | hv
      · exact hhashed.mono hmono
      · exact hus v hv

theorem parsed_foldl (hc : c.Parsed H a) (algs : List HashAlg) :
    (algs.foldl (fun c alg => c.computeCpHash H alg) c).Parsed H a ∧
      ∀ alg, c.cpHash alg ≠ [] → (algs.foldl (fun c alg => c.computeCpHash H alg) c).cpHash alg ≠ [] := by
  induction algs generalizing c with
  | nil => exact ⟨hc, fun _ => id⟩
  | cons alg algs ih =>
      obtain ⟨hc', hmono⟩ := ih (hc.computeCpHash alg)
      exact ⟨hc', fun alg' hsome => hmono alg' (HashedCommand.computeCpHash_mono hsome)⟩

/-- What a command is when it comes to its action. -/
structure Ready (H : PolicyHash) (row : CommandRow) (a : AuditCommand) (m : AuditMachine) (c : HashedCommand) : Prop where
  usable : m.Usable a.sessions
  allowed : a.sessions ≠ [] → row.isSessionAllowed = true
  answered : HashedCommand.Answered H a { c with parameterBuffer := a.transmitted }
  hashed : ∀ u ∈ a.sessions, m.Hashed c u
  audited : m.auditCommands a.action.code = true → c.cpHash m.auditHashAlg ≠ []

theorem checkCommandAudit_ok {nvStatus : Option RcCode} (h : m.checkCommandAudit H nvStatus c = .ok c') :
    c' = c.computeCpHash H m.auditHashAlg := by
  unfold checkCommandAudit at h
  split at h
  · split at h
    · cases h
    · exact (Except.ok.inj h).symm
  · exact (Except.ok.inj h).symm

theorem parseSessionBuffer_ok (hm : m.sessions.Sound) (h : m.parseSessionBuffer H row a = .ok c) :
    m.Ready H row a c := by
  unfold parseSessionBuffer at h
  dsimp only at h
  obtain ⟨_, hallowed, h⟩ := bind_eq_ok h
  obtain ⟨_, hretrieve, h⟩ := bind_eq_ok h
  obtain ⟨c₁, hparse, h⟩ := bind_eq_ok h
  have hstart : HashedCommand.Parsed H a
      { code := a.action.code, names := a.names, parameterBuffer := a.parameters } :=
    ⟨rfl, rfl, rfl, fun _ hne => absurd rfl hne, fun _ => rfl⟩
  obtain ⟨hc₁, hhashed, -⟩ := parseSessions_ok hm hstart hparse
  obtain ⟨hc₂, hmono₂⟩ := parsed_foldl hc₁ a.hashed
  generalize a.hashed.foldl (fun c alg => c.computeCpHash H alg) c₁ = c₂ at h hc₂ hmono₂
  split at h
  · cases h
  · obtain ⟨c₃, haudit, h⟩ := bind_eq_ok h
    have hc₃ : c₃.Parsed H a ∧ (∀ alg, c₂.cpHash alg ≠ [] → c₃.cpHash alg ≠ []) ∧
        (m.auditCommands a.action.code = true → c₃.cpHash m.auditHashAlg ≠ []) := by
      unfold prepareAudit at haudit
      rw [hc₂.code] at haudit
      split at haudit
      · obtain rfl := checkCommandAudit_ok haudit
        exact ⟨hc₂.computeCpHash _, fun _ => HashedCommand.computeCpHash_mono,
          fun _ => HashedCommand.computeCpHash_ne_nil _ _⟩
      · rename_i hnot
        obtain rfl := Except.ok.inj haudit
        exact ⟨hc₂, fun _ => id, fun htrue => absurd htrue hnot⟩
    obtain ⟨hparsed, hmono₃, haudited⟩ := hc₃
    obtain ⟨_, -, h⟩ := bind_eq_ok h
    obtain rfl := Except.ok.inj h
    refine ⟨(retrieveSessionData_ok hm hretrieve).1, fun hne => ?_, ?_, fun u hu => ?_, haudited⟩
    · have hor := demand_eq_ok hallowed
      rw [Bool.or_eq_true, List.isEmpty_iff] at hor
      exact hor.resolve_left hne
    · exact ⟨hparsed.code, rfl, hparsed.cpHash, fun alg hne => absurd (hparsed.rpHash alg) hne⟩
    · exact (hhashed u hu).mono fun alg hne => hmono₃ alg (hmono₂ alg hne)

end
end AuditMachine

end PqcTpm
