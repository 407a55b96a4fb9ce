import PqcTpm.SequenceHistory

/-!
# Completing a PQC sequence

`TPM2_SignSequenceComplete` and `TPM2_VerifySequenceComplete` against the history of the
sequence. Both look at the handle of the slot that the key was in when the sequence was
started, where the history has the key itself: a key that has moved is refused, and a key
that has moved in is taken.
-/
namespace PqcTpm
open ByteCodec Transition

section
variable {σ : Type} {P : Platform σ} {C : SeqCrypto σ} {s s' : TpmState σ} {i : SlotIndex}
  {x : HashObject σ} {h : Hierarchy} {g : History}

/-! ## When a completion succeeds -/

/-- The object behind a key handle. -/
def keyGiven (s : TpmState σ) (keyHandle : TpmHandle) : Option Object :=
  match keyObject s keyHandle with
  | .ok (some (.object key)) => some key
  | _ => none

/-- Whether a completion is one of a sign sequence. -/
def Action.completes : Action → Option Bool
  | .signSequenceComplete _ => some true
  | .verifySequenceComplete _ => some false
  | _ => none

/-- The primitive accepts what the history says, under the given key. -/
def Accepts (C : SeqCrypto σ) (t : Track) (key : Object) : Action → Prop
  | .signSequenceComplete buffer =>
      t.chunks.flatten = [] ∧ ∃ sig, cryptMlDsaSignMessage C key buffer.buffer t.context.buffer = .ok sig
  | .verifySequenceComplete signature =>
      cryptMlDsaValidateSignatureMessage C signature key.publicArea t.chunks.flatten t.context.buffer = none
  | _ => False

/-- A key that `CryptMlDsaSignMessage` turns down by none of its own checks. -/
def TpmtPublic.signsMldsa (a : TpmtPublic) : Prop :=
  (∃ set, a.mldsaParameterSet? = some set) ∧ hashMldsaInstance a = true

/-- The selector and the size that `CryptMlDsaValidateSignatureMessage` asks for, on a key that it can take. -/
def TpmtSignature.Fits (sig : TpmtSignature) (a : TpmtPublic) : Prop :=
  (sig.sigAlg = .mldsa ∨ sig.sigAlg = .hashMldsa) ∧ hashMldsaInstance a = true ∧
    ∃ set, a.mldsaParameterSet? = some set ∧ sig.signature.length = set.sigSize

/-- What the completion brings gets past the checks that are made before the primitive is asked. -/
def Attempts (t : Track) (key : Object) : Action → Prop
  | .signSequenceComplete _ => t.chunks.flatten = [] ∧ key.publicArea.signsMldsa
  | .verifySequenceComplete signature => signature.Fits key.publicArea
  | _ => False

/-- EVP calls that never fail. -/
def EvpCalls.lenient : EvpCalls where
  pkeyFromSeed _ := true
  pkeyFromPub _ := true
  evpSign key _ _ := key.publicArea.mldsaParameterSet?.map fun set => List.replicate set.sigSize 0
  evpVerify _ _ _ _ := none

theorem cryptMlDsaSignMessage_signs {key : Object} {msg ctx : Bytes} {sig : TpmtSignature}
    (h : cryptMlDsaSignMessage C key msg ctx = .ok sig) : key.publicArea.signsMldsa := by
  unfold cryptMlDsaSignMessage at h
  split at h
  · cases h
  · rename_i set hset
    split at h
    · cases h
    · split at h
      · cases h
      · rename_i hinst
        rw [Bool.not_eq_true', Bool.not_eq_false] at hinst
        exact ⟨⟨set, hset⟩, hinst⟩

theorem cryptMlDsaSignMessage_lenient {key : Object} (h : key.publicArea.signsMldsa) (msg ctx : Bytes) :
    ∃ sig, cryptMlDsaSignMessage (C.withEvp .lenient) key msg ctx = .ok sig := by
  obtain ⟨⟨set, hset⟩, hinst⟩ := h
  refine ⟨⟨key.publicArea.type, List.replicate set.sigSize 0⟩, ?_⟩
  simp only [cryptMlDsaSignMessage, SeqCrypto.withEvp, EvpCalls.lenient, hset, hinst, Bool.not_true,
    Bool.false_eq_true, if_false, Option.map_some]

theorem cryptMlDsaValidateSignatureMessage_fits {sig : TpmtSignature} {a : TpmtPublic} {msg ctx : Bytes}
    (h : cryptMlDsaValidateSignatureMessage C sig a msg ctx = none) : sig.Fits a := by
  unfold cryptMlDsaValidateSignatureMessage at h
  split at h
  · cases h
  · rename_i set hset
    split at h
    · cases h
    · rename_i hselector
      split at h
      · cases h
      · rename_i hsize
        split at h
        · cases h
        · split at h
          · cases h
          · rename_i hinst
            rw [Bool.not_eq_true', Bool.not_eq_false] at hinst
            exact ⟨by tauto, hinst, set, hset, not_not.mp hsize⟩

theorem cryptMlDsaValidateSignatureMessage_lenient {sig : TpmtSignature} {a : TpmtPublic} (h : sig.Fits a)
    (msg ctx : Bytes) : cryptMlDsaValidateSignatureMessage (C.withEvp .lenient) sig a msg ctx = none := by
  obtain ⟨hselector, hinst, set, hset, hsize⟩ := h
  have hselector' : ¬ (sig.sigAlg ≠ .mldsa ∧ sig.sigAlg ≠ .hashMldsa) := by tauto
  simp only [cryptMlDsaValidateSignatureMessage, SeqCrypto.withEvp, EvpCalls.lenient, hset, hselector', hsize, hinst,
    ne_eq, not_true, if_false, Bool.not_true, Bool.false_eq_true]

theorem exists_accepts_iff {t : Track} {key : Object} {a : Action} :
    (∃ evp, Accepts (C.withEvp evp) t key a) ↔ Attempts t key a := by
  constructor
  · rintro ⟨evp, h⟩
    unfold Accepts at h
    split at h
    · obtain ⟨hempty, sig, hsig⟩ := h
      exact ⟨hempty, cryptMlDsaSignMessage_signs hsig⟩
    · exact cryptMlDsaValidateSignatureMessage_fits h
    · exact h.elim
  · intro h
    refine ⟨.lenient, ?_⟩
    unfold Attempts at h
    split at h
    · exact ⟨h.1, cryptMlDsaSignMessage_lenient h.2 _ _⟩
    · exact cryptMlDsaValidateSignatureMessage_lenient h _ _
    · exact h.elim

theorem pqcSequenceFromHandle_eq {q : PqcSeqState} (hx : s.slots i = .sequence x h) (hq : x.state = .pqc q)
    (hp : x.attributes.pqcSeq = true) : pqcSequenceFromHandle s (slotHandle i) = some (i, x, q) := by
  simp only [pqcSequenceFromHandle, if_pos (slotHandle_transient i), slotOf_slotHandle, Option.bind_some, hx,
    hq, hp, if_true]

theorem keyGiven_eq_some {keyHandle : TpmHandle} {key : Object} (hk : keyGiven s keyHandle = some key) :
    keyObject s keyHandle = .ok (some (.object key)) := by
  unfold keyGiven at hk
  split at hk
  · rename_i heq
    cases hk
    exact heq
  · cases hk

theorem signSequenceComplete_ok_iff {sequenceHandle keyHandle : TpmHandle} {buffer : Tpm2b 1024}
    {q : PqcSeqState} (hfind : pqcSequenceFromHandle s sequenceHandle = some (i, x, q)) :
    (∃ resp, (signSequenceComplete C sequenceHandle keyHandle buffer s).1 = .ok resp) ↔
      q.isSign = true ∧ keyHandle = q.keyHandle ∧ ∃ key, keyGiven s keyHandle = some key ∧ q.buffer = [] ∧
        ∃ sig, cryptMlDsaSignMessage C key buffer.buffer q.context.buffer = .ok sig := by
  constructor
  · rintro ⟨resp, hr⟩
    unfold signSequenceComplete at hr
    simp only [hfind] at hr
    split at hr
    · cases hr
    · rename_i hsign
      split at hr
      · cases hr
      · rename_i hkey
        split at hr
        · cases hr
        · rename_i hbuf
          split at hr
          · cases hr
          · cases hr
          · rename_i key hobj
            split at hr
            · rename_i sig hsig
              refine ⟨by simpa using hsign, not_not.mp hkey, key, by rw [keyGiven, hobj], ?_, sig, hsig⟩
              exact List.eq_nil_of_length_eq_zero (not_not.mp hbuf)
            · cases hr
          · cases hr
  · rintro ⟨hsign, rfl, key, hgiven, hbuf, sig, hsig⟩
    refine ⟨.signature sig, ?_⟩
    simp only [signSequenceComplete, hfind, hsign, Bool.not_true, Bool.false_eq_true, if_false, ne_eq,
      not_true, hbuf, List.length_nil, keyGiven_eq_some hgiven, hsig]

theorem verifySequenceComplete_verified {sequenceHandle keyHandle : TpmHandle} {signature : TpmtSignature}
    {q : PqcSeqState} {key : Object} (hfind : pqcSequenceFromHandle s sequenceHandle = some (i, x, q))
    (hsign : q.isSign = false) (hhandle : keyHandle = q.keyHandle) (hgiven : keyGiven s keyHandle = some key)
    (hvalid : cryptMlDsaValidateSignatureMessage C signature key.publicArea q.buffer q.context.buffer = none) :
    (verifySequenceComplete C sequenceHandle keyHandle signature s).1 =
      .ok (.verified (ticketMessageVerified C s key)) := by
  subst hhandle
  simp only [verifySequenceComplete, hfind, hsign, Bool.false_eq_true, if_false, ne_eq, not_true,
    keyGiven_eq_some hgiven, hvalid]

theorem verifySequenceComplete_ok_iff {sequenceHandle keyHandle : TpmHandle} {signature : TpmtSignature}
    {q : PqcSeqState} (hfind : pqcSequenceFromHandle s sequenceHandle = some (i, x, q)) :
    (∃ resp, (verifySequenceComplete C sequenceHandle keyHandle signature s).1 = .ok resp) ↔
      q.isSign = false ∧ keyHandle = q.keyHandle ∧ ∃ key, keyGiven s keyHandle = some key ∧
        cryptMlDsaValidateSignatureMessage C signature key.publicArea q.buffer q.context.buffer = none := by
  constructor
  · rintro ⟨resp, hr⟩
    unfold verifySequenceComplete at hr
    simp only [hfind] at hr
    split at hr
    · cases hr
    · rename_i hsign
      split at hr
      · cases hr
      · rename_i hkey
        split at hr
        · cases hr
        · cases hr
        · rename_i key hobj
          split at hr
          · cases hr
          · rename_i hvalid
            exact ⟨Bool.eq_false_of_not_eq_true hsign, not_not.mp hkey, key, by rw [keyGiven, hobj], hvalid⟩
        · cases hr
  · rintro ⟨hsign, hhandle, key, hgiven, hvalid⟩
    exact ⟨_, verifySequenceComplete_verified hfind hsign hhandle hgiven hvalid⟩

/-- A completion succeeds exactly when it is of the right kind, is given the handle that was recorded,
and the primitive accepts under the key that is there now. -/
theorem act_completes_ok_iff {a : Action} {isSign : Bool} {q : PqcSeqState} {t : Track} (keyHandle : TpmHandle)
    (ha : a.completes = some isSign) (hx : s.slots i = .sequence x h) (hq : x.state = .pqc q)
    (hp : x.attributes.pqcSeq = true) (ht : t.Agrees q) :
    (∃ resp, (a.act P C [slotHandle i, keyHandle] s).1 = .ok resp) ↔
      t.isSign = isSign ∧ keyHandle = t.keyHandle ∧ ∃ key, keyGiven s keyHandle = some key ∧ Accepts C t key a := by
  have hfind := pqcSequenceFromHandle_eq hx hq hp
  rw [← ht.isSign, ← ht.keyHandle]
  unfold Action.completes at ha
  split at ha
  · cases ha
    simp only [Accepts, ← ht.buffer, ← ht.context]
    exact signSequenceComplete_ok_iff hfind
  · cases ha
    simp only [Accepts, ← ht.buffer, ← ht.context]
    exact verifySequenceComplete_ok_iff hfind
  · cases ha

theorem cryptMlDsaSignMessage_error {key : Object} {msg ctx : Bytes} {e : Fault}
    (h : cryptMlDsaSignMessage C key msg ctx = .error e) : e ≠ .at .handle 0x200 := by
  unfold cryptMlDsaSignMessage at h
  split at h
  · cases h
    decide
  · split at h
    · cases h
      decide
    · split at h
      · cases h
        decide
      · split at h
        · cases h
        · cases h
          decide

theorem signSequenceComplete_wrongKey_iff {sequenceHandle keyHandle : TpmHandle} {buffer : Tpm2b 1024}
    {q : PqcSeqState} {key : Object} (hfind : pqcSequenceFromHandle s sequenceHandle = some (i, x, q))
    (hk : keyGiven s keyHandle = some key) :
    (signSequenceComplete C sequenceHandle keyHandle buffer s).1 = .error (.at .handle 0x200) ↔
      q.isSign = true ∧ keyHandle ≠ q.keyHandle := by
  constructor
  · intro hr
    unfold signSequenceComplete at hr
    simp only [hfind, keyGiven_eq_some hk] at hr
    split at hr
    · cases hr
    · rename_i hsign
      split at hr
      · rename_i hkey
        exact ⟨by simpa using hsign, hkey⟩
      · split at hr
        · cases hr
        · split at hr
          · cases hr
          · rename_i e he
            exact absurd (Except.error.inj hr) (cryptMlDsaSignMessage_error he)
  · rintro ⟨hsign, hkey⟩
    simp only [signSequenceComplete, hfind, hsign, Bool.not_true, Bool.false_eq_true, if_false, ne_eq, hkey,
      not_false_eq_true, if_true]

theorem verifySequenceComplete_wrongKey_iff {sequenceHandle keyHandle : TpmHandle}
    {signature : TpmtSignature} {q : PqcSeqState} {key : Object}
    (hfind : pqcSequenceFromHandle s sequenceHandle = some (i, x, q)) (hk : keyGiven s keyHandle = some key) :
    (verifySequenceComplete C sequenceHandle keyHandle signature s).1 = .error (.at .handle 0x200) ↔
      q.isSign = false ∧ keyHandle ≠ q.keyHandle := by
  constructor
  · intro hr
    unfold verifySequenceComplete at hr
    simp only [hfind, keyGiven_eq_some hk] at hr
    split at hr
    · cases hr
    · rename_i hsign
      split at hr
      · rename_i hkey
        exact ⟨Bool.eq_false_of_not_eq_true hsign, hkey⟩
      · split at hr
        · cases hr
        · cases hr
  · rintro ⟨hsign, hkey⟩
    simp only [verifySequenceComplete, hfind, hsign, Bool.false_eq_true, if_false, ne_eq, hkey,
      not_false_eq_true, if_true]

/-- A completion of the right kind is refused as one with the wrong key exactly when the handle is not
the recorded one. -/
theorem act_completes_wrongKey_iff {a : Action} {isSign : Bool} {q : PqcSeqState} {t : Track}
    {keyHandle : TpmHandle} {key : Object} (ha : a.completes = some isSign) (hx : s.slots i = .sequence x h)
    (hq : x.state = .pqc q) (hp : x.attributes.pqcSeq = true) (ht : t.Agrees q)
    (hk : keyGiven s keyHandle = some key) :
    (a.act P C [slotHandle i, keyHandle] s).1 = .error (.at .handle 0x200) ↔
      t.isSign = isSign ∧ keyHandle ≠ t.keyHandle := by
  have hfind := pqcSequenceFromHandle_eq hx hq hp
  rw [← ht.isSign, ← ht.keyHandle]
  unfold Action.completes at ha
  split at ha
  · cases ha
    exact signSequenceComplete_wrongKey_iff hfind hk
  · cases ha
    exact verifySequenceComplete_wrongKey_iff hfind hk
  · cases ha

/-! ## The key of a sequence -/

/-- The completion took the key of the start, by its Name, and did not refuse that key. -/
structure BoundToKey (t : Track) (s : TpmState σ) (keyHandle : TpmHandle) (r : Except Fault Response) :
    Prop where
  sameName : ∀ resp, r = .ok resp → ∃ key, keyGiven s keyHandle = some key ∧ key.name = t.key.name
  notRefused : ∀ key, keyGiven s keyHandle = some key → key.name = t.key.name →
    r ≠ .error (.at .handle 0x200)

/-- The key has stayed in the slot that it was in when the sequence was started, and no other key that
is taken for the completion has taken its place. -/
def KeepsKey (taken : Object → Action → Prop) (t : Track) (s : TpmState σ) (keyHandle : TpmHandle) (a : Action) :
    Prop :=
  a.completes = some t.isSign → ∀ key, keyGiven s keyHandle = some key →
    (key.name = t.key.name → keyHandle = t.keyHandle) ∧
    (keyHandle = t.keyHandle → taken key a → key.name = t.key.name)

theorem forall_keepsKey_iff {t : Track} {keyHandle : TpmHandle} {a : Action} :
    (∀ evp, KeepsKey (Accepts (C.withEvp evp) t) t s keyHandle a) ↔ KeepsKey (Attempts t) t s keyHandle a := by
  constructor
  · intro h hkind key hk
    refine ⟨(h .lenient hkind key hk).1, fun hhandle hattempt => ?_⟩
    obtain ⟨evp, hacc⟩ := exists_accepts_iff.mpr hattempt
    exact (h evp hkind key hk).2 hhandle hacc
  · intro h evp hkind key hk
    obtain ⟨hstays, hreplaced⟩ := h hkind key hk
    exact ⟨hstays, fun hhandle hacc => hreplaced hhandle (exists_accepts_iff.mp ⟨evp, hacc⟩)⟩

theorem execute_resolved {c : Command} {handles : List TpmHandle} (hr : c.resolve P s = .ok (handles, s')) :
    (execute P C c s).1 = (c.action.act P C handles s').1 := by
  rw [execute, hr]

theorem act_bound_iff {a : Action} {isSign : Bool} {q : PqcSeqState} {t : Track} {keyHandle : TpmHandle}
    (ha : a.completes = some isSign) (hx : s.slots i = .sequence x h) (hq : x.state = .pqc q)
    (hp : x.attributes.pqcSeq = true) (ht : t.Agrees q) :
    BoundToKey t s keyHandle (a.act P C [slotHandle i, keyHandle] s).1 ↔ KeepsKey (Accepts C t) t s keyHandle a := by
  have hok := act_completes_ok_iff (P := P) (C := C) keyHandle ha hx hq hp ht
  have hwrong {key : Object} (hk : keyGiven s keyHandle = some key) :=
    act_completes_wrongKey_iff (P := P) (C := C) ha hx hq hp ht hk
  constructor
  · intro hb hkind key hk
    rw [ha] at hkind
    have hsign := (Option.some.inj hkind).symm
    constructor
    · intro hname
      by_contra hne
      exact hb.notRefused key hk hname ((hwrong hk).mpr ⟨hsign, hne⟩)
    · intro hhandle hacc
      obtain ⟨resp, hresp⟩ := hok.mpr ⟨hsign, hhandle, key, hk, hacc⟩
      obtain ⟨key', hk', hname⟩ := hb.sameName resp hresp
      rw [hk] at hk'
      cases hk'
      exact hname
  · intro hkeep
    constructor
    · intro resp hresp
      obtain ⟨hsign, hhandle, key, hk, hacc⟩ := hok.mp ⟨resp, hresp⟩
      refine ⟨key, hk, (hkeep ?_ key hk).2 hhandle hacc⟩
      rw [ha, hsign]
    · intro key hk hname hrefused
      obtain ⟨hsign, hne⟩ := (hwrong hk).mp hrefused
      refine hne ((hkeep ?_ key hk).1 hname)
      rw [ha, hsign]

theorem SequenceOk.pqcSeq {q : PqcSeqState} (hx : SequenceOk x) (hq : x.state = .pqc q) :
    x.attributes.pqcSeq = true := by
  have hf := hx.fits
  rw [hq] at hf
  exact hf.1.1

theorem Recorded.resolved (hg : Recorded P s g) {c : Command} {handles : List TpmHandle}
    (hr : c.resolve P s = .ok (handles, s')) (hx : s'.slots i = .sequence x h) :
    s.slots i = .sequence x h ∧ SequenceOk x := by
  have hok := objectTerminateEvent_ok hg.consistent i
  rw [(resolve_loads hr).sequence hx] at hok
  exact ⟨resolve_sequence hr hx hok.1.evict, hok.1⟩

/-- After every run, a completion is bound to the key of the start, whatever the primitive says, exactly when
that key has kept its slot. -/
theorem completion_bound_iff (hs : s.IsInitial) (es : List (Event σ)) {c : Command} {isSign : Bool}
    {keyHandle : TpmHandle} {q : PqcSeqState} (ha : c.action.completes = some isSign)
    (hr : c.resolve P (run (observe P C) (s, {}) es).1 = .ok ([slotHandle i, keyHandle], s'))
    (hx : s'.slots i = .sequence x h) (hq : x.state = .pqc q) :
    ∃ t, (run (observe P C) (s, {}) es).2.slots i = some t ∧
      ((∀ evp, BoundToKey t s' keyHandle (execute P (C.withEvp evp) c (run (observe P C) (s, {}) es).1).1) ↔
        KeepsKey (Attempts t) t s' keyHandle c.action) := by
  have hg := recorded_of_run (P := P) (C := C) hs es
  obtain ⟨hbefore, hok⟩ := hg.resolved hr hx
  obtain ⟨t, ht, hagree⟩ := hg.slots i x h q hbefore hq
  refine ⟨t, ht, ?_⟩
  rw [← forall_keepsKey_iff (C := C)]
  refine forall_congr' fun evp => ?_
  rw [execute_resolved hr]
  exact act_bound_iff ha hx hq (hok.pqcSeq hq) hagree

/-! ## Streaming -/

theorem objectTerminateEvent_pqc {q : PqcSeqState} (hok : SequenceOk x) (hx : s.slots i = .sequence x h)
    (hq : x.state = .pqc q) : s.objectTerminateEvent.slots i = .sequence x h := by
  have hf := hok.fits
  rw [hq] at hf
  exact objectTerminateEvent_sequence hx hf.1.2.2.2

theorem objectCleanupEvict_kept (hok : SequenceOk x) (hx : s.slots i = .sequence x h) :
    s.objectCleanupEvict.slots i = .sequence x h := by
  unfold TpmState.objectCleanupEvict TpmState.freeSlots
  simp only [hx, Slot.attributes, hok.evict, Bool.false_eq_true, if_false]

theorem sequenceUpdate_error {sequenceHandle : TpmHandle} {buffer : Tpm2b 1024} {e : Fault}
    (hr : (sequenceUpdate C sequenceHandle buffer s).1 = .error e) :
    (sequenceUpdate C sequenceHandle buffer s).2 = s := by
  unfold sequenceUpdate at hr ⊢
  split
  · rename_i hfind
    rw [hfind] at hr
    split
    · rfl
    · rename_i hu
      simp only [hu] at hr
      cases hr
  · rename_i hfind
    rw [hfind] at hr
    split
    · rename_i hobj
      simp only [hobj] at hr
      split
      · rename_i hslot
        simp only [hslot] at hr
        cases hr
      · rfl
      · rfl
    · rfl
    · rfl

/-- An update that fails changes no PQC sequence. -/
theorem failed_update_keeps (hc : Consistent P s) {c : Command} {buffer : Tpm2b 1024} {e : Fault}
    (ha : c.action = .sequenceUpdate buffer) (he : (execute P C c s).1 = .error e) {q : PqcSeqState}
    (hx : s.slots i = .sequence x h) (hq : x.state = .pqc q) : (execute P C c s).2.slots i = .sequence x h := by
  have hok := hc.sequence hx
  have hterm := objectTerminateEvent_pqc hok hx hq
  cases hr : c.resolve P s with
  | error e' =>
      rw [execute, hr]
      exact objectCleanupEvict_kept hok hterm
  | ok p =>
      obtain ⟨handles, s'⟩ := p
      have hstate : (c.action.act P C handles s').2 = s' := by
        rw [execute_resolved hr, ha] at he
        rw [ha]
        rcases handles with _ | ⟨sequenceHandle, _ | ⟨second, rest⟩⟩
        · rfl
        · exact sequenceUpdate_error he
        · rfl
      rw [execute, hr]
      simp only [hstate]
      exact objectCleanupEvict_kept hok ((resolve_loads hr).sequence_kept hterm)

/-- Streaming against verification in one piece: what is accumulated is the concatenation of the
chunks that were taken, within the bound; an update that is refused changes nothing; and a completion
under the key of the start succeeds exactly when the primitive accepts the concatenation, if and only if
the key is still in the slot it was in, or the primitive does not accept. -/
structure Streams (P : Platform σ) (C : SeqCrypto σ) (s : TpmState σ) (g : History) : Prop where
  accumulated : ∀ i x h q, s.slots i = .sequence x h → x.state = .pqc q → ∃ t, g.slots i = some t ∧
    q.buffer = t.chunks.flatten ∧ q.context = t.context ∧ t.chunks.flatten.length ≤ maxPqcSeqBuffer
  unchanged : ∀ c buffer rc, c.action = .sequenceUpdate buffer → rc = .size ∨ rc = .oneShotSignature →
    (execute P C c s).1 = .error (.of rc) → ∀ i x h q, s.slots i = .sequence x h → x.state = .pqc q →
    (execute P C c s).2.slots i = .sequence x h
  completes : ∀ c signature i keyHandle s' x h q t key, c.action = .verifySequenceComplete signature →
    c.resolve P s = .ok ([slotHandle i, keyHandle], s') → s'.slots i = .sequence x h → x.state = .pqc q →
    g.slots i = some t → t.isSign = false → keyGiven s' keyHandle = some key →
    key.publicArea = t.key.publicArea →
    (((∃ resp, (execute P C c s).1 = .ok resp) ↔
        cryptMlDsaValidateSignatureMessage C signature t.key.publicArea t.chunks.flatten
          t.context.buffer = none) ↔
      (keyHandle = t.keyHandle ∨
        cryptMlDsaValidateSignatureMessage C signature t.key.publicArea t.chunks.flatten
          t.context.buffer ≠ none))

theorem Recorded.streams (hg : Recorded P s g) : Streams P C s g := by
  constructor
  · intro i x h q hx hq
    obtain ⟨t, ht, hagree⟩ := hg.slots i x h q hx hq
    have hf := (hg.consistent.sequence hx).fits
    rw [hq] at hf
    exact ⟨t, ht, hagree.buffer, hagree.context, hagree.buffer ▸ hf.2⟩
  · intro c buffer rc ha _ he i x h q hx hq
    exact failed_update_keeps hg.consistent ha he hx hq
  · intro c signature i keyHandle s' x h q t key ha hr hx hq ht hsign hk hpub
    obtain ⟨hbefore, hok⟩ := hg.resolved hr hx
    obtain ⟨t', ht', hagree⟩ := hg.slots i x h q hbefore hq
    rw [ht] at ht'
    cases ht'
    have hcompletes : c.action.completes = some false := by rw [ha]; rfl
    have hiff := act_completes_ok_iff (P := P) (C := C) keyHandle hcompletes hx hq
      (hok.pqcSeq hq) hagree
    rw [execute_resolved hr, hiff, hk, ha]
    simp only [hsign, Option.some.injEq, exists_eq_left', Accepts, hpub, true_and]
    by_cases hhandle : keyHandle = t.keyHandle
    · simp only [hhandle, true_and, true_or]
    · simp only [hhandle, false_and, false_or, false_iff, ne_eq]

theorem streaming_of_run (hs : s.IsInitial) (es : List (Event σ)) :
    Streams P C (run (observe P C) (s, {}) es).1 (run (observe P C) (s, {}) es).2 :=
  (recorded_of_run hs es).streams

/-! ## The ticket of a verification -/

/-- The octets that `TPM2_VerifySequenceComplete` feeds to the HMAC of its ticket. -/
def messageVerifiedInput (key : Object) : Bytes :=
  be 2 0x8026 ++ (writeUint32 key.hierarchy.handle ++ key.name.buffer)

/-- A verify sequence that is completed: the state, the command, what was accumulated and the key. -/
structure Verification (C : SeqCrypto σ) where
  state : TpmState σ
  sequenceHandle : TpmHandle
  keyHandle : TpmHandle
  signature : TpmtSignature
  slot : SlotIndex
  sequence : HashObject σ
  pqc : PqcSeqState
  key : Object
  response : Response
  found : pqcSequenceFromHandle state sequenceHandle = some (slot, sequence, pqc)
  given : keyGiven state keyHandle = some key
  succeeds : (verifySequenceComplete C sequenceHandle keyHandle signature state).1 = .ok response

namespace Verification

def message (v : Verification C) : Bytes := v.pqc.buffer

theorem response_eq (v : Verification C) : v.response = .verified (ticketMessageVerified C v.state v.key) := by
  obtain ⟨hsign, hhandle, key, hkey, hvalid⟩ :=
    (verifySequenceComplete_ok_iff v.found).mp ⟨v.response, v.succeeds⟩
  obtain rfl : v.key = key := Option.some.inj (v.given.symm.trans hkey)
  have hverified := verifySequenceComplete_verified v.found hsign hhandle v.given hvalid
  exact Except.ok.inj (v.succeeds.symm.trans hverified)

/-- The ticket carries an HMAC, with the proof of the hierarchy, over octets that do not depend on
what was verified. -/
theorem response_hmac (v : Verification C) (hh : v.key.hierarchy ≠ .null) (ha : v.key.publicArea.nameAlg ≠ none) :
    v.response = .verified
      ⟨v.key.hierarchy, C.hmac (v.state.proof v.key.hierarchy) (messageVerifiedInput v.key)⟩ := by
  rw [v.response_eq, ticketMessageVerified, if_neg (not_or.mpr ⟨hh, ha⟩), messageVerifiedInput]

end Verification

/-- The message verified is bound by what goes into the HMAC of the ticket. -/
def BindsMessage (v v' : Verification C) : Prop :=
  v.message ≠ v'.message → messageVerifiedInput v.key ≠ messageVerifiedInput v'.key

/-- No two verifications under one key are told apart by their tickets, whatever the HMAC. -/
theorem ticket_ignores_message (v v' : Verification C) (hkey : v.key = v'.key) (hh : v.key.hierarchy ≠ .null)
    (ha : v.key.publicArea.nameAlg ≠ none) (hmessage : v.message ≠ v'.message) :
    (∃ proof, v.response = .verified ⟨v.key.hierarchy, C.hmac proof (messageVerifiedInput v.key)⟩) ∧
      (∃ proof, v'.response = .verified ⟨v'.key.hierarchy, C.hmac proof (messageVerifiedInput v'.key)⟩) ∧
      ¬ BindsMessage v v' ∧ (v.state.proof = v'.state.proof → v.response = v'.response) := by
  have hresponse := v.response_hmac hh ha
  rw [hkey] at hh ha
  have hresponse' := v'.response_hmac hh ha
  refine ⟨⟨_, hresponse⟩, ⟨_, hresponse'⟩, fun hbinds => ?_, fun hproof => ?_⟩
  · exact hbinds hmessage (by rw [hkey])
  · rw [hresponse, hresponse', hkey, hproof]

end

/-! ## A key that moves in, a key that moves, and one that stays -/

def firstName : Tpm2bName := ⟨[0, 11, 1], by decide⟩
def secondName : Tpm2bName := ⟨[0, 11, 2], by decide⟩

/-- A sign sequence is started on a key that is flushed, and another key takes its slot. -/
def keyReplaced : TpmState Unit × History :=
  run (observe toyPlatform toyCrypto) ({}, {})
    [.command ⟨.load (mldsaKey firstName false), []⟩,
     .command ⟨.signSequenceStart .empty .empty, [slotHandle 0]⟩,
     .command ⟨.flushContext (slotHandle 0), []⟩,
     .command ⟨.load (mldsaKey secondName false), []⟩]

/-- The completion signs with the second key what was started on the first. -/
theorem completion_with_other_key :
    ∃ t key, keyReplaced.2.slots 1 = some t ∧ t.key.name = firstName ∧
      Command.resolve toyPlatform ⟨.signSequenceComplete .empty, [slotHandle 1, slotHandle 0]⟩ keyReplaced.1 =
        .ok ([slotHandle 1, slotHandle 0], keyReplaced.1) ∧
      keyGiven keyReplaced.1 (slotHandle 0) = some key ∧ key.name = secondName ∧
      ¬ BoundToKey t keyReplaced.1 (slotHandle 0) (execute toyPlatform toyCrypto
        ⟨.signSequenceComplete .empty, [slotHandle 1, slotHandle 0]⟩ keyReplaced.1).1 := by
  refine ⟨_, _, rfl, rfl, rfl, rfl, rfl, fun hb => ?_⟩
  obtain ⟨key, hk, hname⟩ := hb.sameName _ rfl
  cases hk
  cases hname

def keyStays : TpmState Unit × History :=
  run (observe toyPlatform toyCrypto) ({}, {})
    [.command ⟨.load (mldsaKey firstName false), []⟩,
     .command ⟨.signSequenceStart .empty .empty, [slotHandle 0]⟩]

theorem completion_with_same_key :
    ∃ t, keyStays.2.slots 1 = some t ∧
      BoundToKey t keyStays.1 (slotHandle 0) (execute toyPlatform toyCrypto
        ⟨.signSequenceComplete .empty, [slotHandle 1, slotHandle 0]⟩ keyStays.1).1 := by
  have hiff := completion_bound_iff (P := toyPlatform) (C := toyCrypto) (s := {}) ⟨fun _ => rfl, rfl⟩
    [.command ⟨.load (mldsaKey firstName false), []⟩,
     .command ⟨.signSequenceStart .empty .empty, [slotHandle 0]⟩]
    (c := ⟨.signSequenceComplete .empty, [slotHandle 1, slotHandle 0]⟩) rfl rfl rfl rfl
  obtain ⟨t, ht, hiff⟩ := hiff
  have hkeeps : KeepsKey (Attempts t) t keyStays.1 (slotHandle 0) (.signSequenceComplete .empty) := by
    intro _ key hk
    cases ht
    cases hk
    exact ⟨fun _ => rfl, fun _ _ => rfl⟩
  exact ⟨t, ht, hiff.mpr hkeeps toyCrypto.toEvpCalls⟩

/-- The same key is loaded once more, into slot 2, after a verify sequence was started on it. -/
def keyTwice : TpmState Unit × History :=
  run (observe toyPlatform toyCrypto) ({}, {})
    [.command ⟨.load (mldsaKey firstName false), []⟩,
     .command ⟨.verifySequenceStart .empty .empty .empty, [slotHandle 0]⟩,
     .command ⟨.load (mldsaKey firstName false), []⟩]

theorem toySignature_accepted {a : TpmtPublic} {alg : ObjectType} (msg ctx : Bytes)
    (hset : a.mldsaParameterSet? = some .mldsa44) (hinst : hashMldsaInstance a = true)
    (halg : alg = .mldsa ∨ alg = .hashMldsa) :
    cryptMlDsaValidateSignatureMessage toyCrypto ⟨alg, toySignature msg ctx⟩ a msg ctx = none := by
  have hlen : (toySignature msg ctx).length = 2420 := by
    rw [toySignature, List.length_take, List.length_append, List.length_replicate]
    omega
  have halg' : ¬ (alg ≠ .mldsa ∧ alg ≠ .hashMldsa) := by tauto
  simp only [cryptMlDsaValidateSignatureMessage, hset, hlen, MldsaParameterSet.sigSize, hinst, toyCrypto, halg',
    ne_eq, not_true, if_false, Bool.not_true, Bool.false_eq_true, if_true]

theorem toyCrypto_accepts (name : Tpm2bName) (restricted : Bool) (msg ctx : Bytes) :
    cryptMlDsaValidateSignatureMessage toyCrypto ⟨.mldsa, toySignature msg ctx⟩
      (mldsaKey name restricted).publicArea msg ctx = none :=
  toySignature_accepted msg ctx rfl rfl (.inl rfl)

/-- A good signature over the empty message is refused, since the key is given by its second slot. -/
theorem streaming_refuses_moved_key :
    ∃ t key, keyTwice.2.slots 1 = some t ∧
      keyGiven keyTwice.1 (slotHandle 2) = some key ∧ key.publicArea = t.key.publicArea ∧
      cryptMlDsaValidateSignatureMessage toyCrypto ⟨.mldsa, toySignature [] []⟩ t.key.publicArea
        t.chunks.flatten t.context.buffer = none ∧
      ¬ ((∃ resp, (execute toyPlatform toyCrypto ⟨.verifySequenceComplete ⟨.mldsa, toySignature [] []⟩,
          [slotHandle 1, slotHandle 2]⟩ keyTwice.1).1 = .ok resp) ↔
        cryptMlDsaValidateSignatureMessage toyCrypto ⟨.mldsa, toySignature [] []⟩ t.key.publicArea
          t.chunks.flatten t.context.buffer = none) := by
  have haccepts := toyCrypto_accepts firstName false [] []
  refine ⟨_, _, rfl, rfl, rfl, haccepts, fun hiff => ?_⟩
  obtain ⟨resp, hresp⟩ := hiff.mpr haccepts
  cases hresp

def twoChunks : List (Event Unit) :=
  [.command ⟨.load (mldsaKey firstName false), []⟩,
   .command ⟨.verifySequenceStart .empty .empty .empty, [slotHandle 0]⟩,
   .command ⟨.sequenceUpdate ⟨[0x61, 0x62], by decide⟩, [slotHandle 1]⟩,
   .command ⟨.sequenceUpdate ⟨[0x63], by decide⟩, [slotHandle 1]⟩]

theorem twoChunks_stream :
    (∃ t, (run (observe toyPlatform toyCrypto) ({}, {}) twoChunks).2.slots 1 = some t ∧
      t.chunks = [[0x61, 0x62], [0x63]]) ∧
    Streams toyPlatform toyCrypto (run (observe toyPlatform toyCrypto) ({}, {}) twoChunks).1
      (run (observe toyPlatform toyCrypto) ({}, {}) twoChunks).2 :=
  ⟨⟨_, rfl, rfl⟩, streaming_of_run (s := {}) ⟨fun _ => rfl, rfl⟩ twoChunks⟩

def oneOctet (b : UInt8) : PqcSeqState where
  isSign := false
  keyHandle := slotHandle 0
  keyType := 0x00A1
  paramSet := .mldsa44
  hint := .empty
  context := .empty
  buffer := [b]

theorem oneOctet_fits (b : UInt8) : [b].length ≤ 1024 := by
  rw [List.length_singleton]
  decide

/-- One octet is accumulated and verified. -/
def verifyOneOctet (b : UInt8) : Verification toyCrypto where
  state := run (step toyPlatform toyCrypto) {}
    [.command ⟨.load (mldsaKey firstName false), []⟩,
     .command ⟨.verifySequenceStart .empty .empty .empty, [slotHandle 0]⟩,
     .command ⟨.sequenceUpdate ⟨[b], oneOctet_fits b⟩, [slotHandle 1]⟩]
  sequenceHandle := slotHandle 1
  keyHandle := slotHandle 0
  signature := ⟨.mldsa, toySignature [b] []⟩
  slot := 1
  sequence := pqcObject .empty (oneOctet b)
  pqc := oneOctet b
  key := (mldsaKey firstName false).asLoaded
  response := .verified ⟨.owner, messageVerifiedInput (mldsaKey firstName false).asLoaded⟩
  found := rfl
  given := rfl
  succeeds := @verifySequenceComplete_verified _ _ _ _ _ _ _ _ _ (mldsaKey firstName false).asLoaded rfl rfl rfl rfl
    (toyCrypto_accepts firstName false [b] [])

theorem verifyOneOctet_proof (b : UInt8) : (verifyOneOctet b).state.proof = fun _ => [] := rfl

/-- Two messages, two good signatures, one ticket, though the HMAC has no collisions. -/
theorem ticket_of_two_messages :
    (verifyOneOctet 0x61).message ≠ (verifyOneOctet 0x62).message ∧
      (verifyOneOctet 0x61).key = (verifyOneOctet 0x62).key ∧
      (verifyOneOctet 0x61).key.hierarchy ≠ .null ∧ (verifyOneOctet 0x61).key.publicArea.nameAlg ≠ none ∧
      ¬ BindsMessage (verifyOneOctet 0x61) (verifyOneOctet 0x62) ∧
      (verifyOneOctet 0x61).response = (verifyOneOctet 0x62).response := by
  have hmessage : (verifyOneOctet 0x61).message ≠ (verifyOneOctet 0x62).message := by decide
  exact ⟨hmessage, rfl, nofun, nofun, fun hbinds => hbinds hmessage rfl, rfl⟩

theorem ticket_ignores_octet :
    ¬ BindsMessage (verifyOneOctet 0x61) (verifyOneOctet 0x62) ∧
      (verifyOneOctet 0x61).response = (verifyOneOctet 0x62).response := by
  have hmessage : (verifyOneOctet 0x61).message ≠ (verifyOneOctet 0x62).message := by decide
  obtain ⟨-, -, hbinds, hresponse⟩ :=
    ticket_ignores_message (verifyOneOctet 0x61) (verifyOneOctet 0x62) rfl nofun nofun hmessage
  exact ⟨hbinds, hresponse ((verifyOneOctet_proof _).trans (verifyOneOctet_proof _).symm)⟩

end PqcTpm
