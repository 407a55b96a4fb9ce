import PqcTpm.StateBlob

/-!
# Runs of the state store

The state goes through `swtpm_nvstore.c` to the linear store and comes back. A run is any sequence of its calls and
of restarts: a process keeps its keys and the buffer for the IV until it ends, the file keeps the blobs.
-/
namespace PqcTpm
open ByteCodec

/-! ## The process -/

/-- What the NVRAM code of one swtpm process keeps. -/
structure SwtpmProcess where
  store : LinearStore
  filekey : EncryptionKey
  migrationkey : EncryptionKey
  ivecLength : Nat

/-- What a call has from the host. -/
structure SwtpmHost where
  ivec : IvecHost
  linear : LinearHost

/-- A call of `swtpm_nvstore.c`; a restart ends the process and starts the next one. -/
inductive SwtpmCall where
  | storeData (name : String) (data : Bytes)
  | deleteName (name : String)
  | getStateBlob (name : String) (decrypt : Bool)
  | setFileKey (key : Bytes) (encmode : EncryptionMode)
  | setMigrationKey (key : Bytes) (encmode : EncryptionMode)
  | restart

def resultOf {α : Type} : Except TpmResult α → TpmResult
  | .error rc => rc
  | .ok _ => .success

namespace SwtpmProcess
variable (C : StateCrypto)

/-- `SWTPM_NVRAM_StoreData` on the linear backend. -/
def storeData (host : SwtpmHost) (p : SwtpmProcess) (name : String) (data : Bytes) :
    Option (TpmResult × SwtpmProcess) :=
  let (blob, ivecLength) := nvramStoreBlob C host.ivec p.ivecLength p.filekey data true
  let p := { p with ivecLength }
  match blob with
  | .error rc => some (rc, p)
  | .ok filedata => (p.store.storeData host.linear name filedata).map fun r => (r.1, { p with store := r.2 })

/-- `SWTPM_NVRAM_LoadData` on the linear backend. -/
def loadData (p : SwtpmProcess) (name : String) : Option (Except TpmResult Bytes) :=
  ((p.store.loadData name : Reading Bytes) >>= nvramLoadBlob C p.filekey : Reading Bytes)

/-- `SWTPM_NVRAM_GetStateBlob` on the linear backend. -/
def stateBlob (host : SwtpmHost) (p : SwtpmProcess) (name : String) (decrypt : Bool) :
    Option (Except TpmResult (Bytes × Bool) × SwtpmProcess) :=
  (p.loadData C name).map fun loaded =>
    match loaded with
    | .error rc => (.error rc, p)
    | .ok plain =>
        let (blob, ivecLength) := getStateBlob C host.ivec p.ivecLength p.filekey p.migrationkey plain decrypt
        (blob, { p with ivecLength })

def call (host : SwtpmHost) (p : SwtpmProcess) : SwtpmCall → Option (TpmResult × SwtpmProcess)
  | .storeData name data => p.storeData C host name data
  | .deleteName name => (p.store.deleteName host.linear name).map fun r => (r.1, { p with store := r.2 })
  | .getStateBlob name decrypt =>
      (p.stateBlob C host name decrypt).map fun r => (resultOf r.1, r.2)
  | .setFileKey key encmode =>
      some ((setKey p.filekey key encmode).1, { p with filekey := (setKey p.filekey key encmode).2 })
  | .setMigrationKey key encmode =>
      some ((setKey p.migrationkey key encmode).1, { p with migrationkey := (setKey p.migrationkey key encmode).2 })
  | .restart =>
      let (rc, store) := LinearStore.prepare host.linear { p.store with mapped := false }
      some (rc, ⟨store, noKey, noKey, 0⟩)

def run : SwtpmProcess → List (SwtpmHost × SwtpmCall) → Option (List TpmResult × SwtpmProcess)
  | p, [] => some ([], p)
  | p, e :: es => do
      let (rc, p) ← p.call C e.1 e.2
      let (rcs, p) ← run p es
      pure (rc :: rcs, p)

end SwtpmProcess

/-- The host's random numbers have the length asked for. -/
structure SwtpmHost.Usual (host : SwtpmHost) : Prop where
  random : ∀ n, (host.ivec.random n).length = n
  grows : host.linear.Grows

/-- The state is not larger than half a gigabyte. -/
def SwtpmCall.Fits : SwtpmCall → Prop
  | .storeData _ data => data.length ≤ 2 ^ 29
  | _ => True

section
variable {C : StateCrypto} {host : IvecHost}

theorem symmetricKeyDataEncrypt_length {key encrypted data : Bytes} {ivec : Option Bytes}
    (h : symmetricKeyDataEncrypt C key ivec data = .ok encrypted) : encrypted.length ≤ data.length + key.length := by
  simp only [symmetricKeyDataEncrypt] at h
  cases hiv : cipherIvec key ivec with
  | none =>
      rw [hiv] at h
      cases h
  | some iv =>
      rw [hiv] at h
      dsimp only at h
      split at h
      · cases h
      · generalize hc : C.cbcEncrypt key iv _ = c at h
        cases c with
        | none => cases h
        | some c =>
            dsimp only at h
            split at h
            · rename_i hlen
              obtain rfl := Except.ok.inj h
              omega
            · cases h

theorem rollAndSetGlobalIvec_bounds (hrandom : ∀ n, (host.random n).length = n) {ivecLength needed : Nat}
    (hle : ivecLength ≤ 32) (hneeded : needed ≤ 32) : (rollAndSetGlobalIvec host ivecLength needed).2 ≤ 32 ∧
      ∀ iv ∈ (rollAndSetGlobalIvec host ivecLength needed).1, iv.length ≤ 32 := by
  rw [rollAndSetGlobalIvec]
  split
  · split
    · refine ⟨hneeded, ?_⟩
      intro iv hiv
      obtain rfl := Option.some.inj hiv
      rw [hrandom]
      exact hneeded
    · refine ⟨hle, ?_⟩
      intro iv hiv
      cases hiv
  · refine ⟨hle, ?_⟩
    intro iv hiv
    obtain rfl := Option.some.inj hiv
    rw [hrandom]
    exact hle

theorem nvramEncryptData_bounds (hC : C.Lawful) (hrandom : ∀ n, (host.random n).length = n) {ivecLength : Nat}
    (hle : ivecLength ≤ 32) {key : EncryptionKey} (hkey : key.Admitted) (tagEncrypted tagIvec : Nat) (data : Bytes) :
    (nvramEncryptData C host ivecLength key tagEncrypted data tagIvec).2 ≤ 32 ∧
      ∀ td, (nvramEncryptData C host ivecLength key tagEncrypted data tagIvec).1 = .ok td →
        (td.map fun t => 6 + t.value.length).sum ≤ data.length + 114 := by
  rw [nvramEncryptData]
  by_cases hne : key.userKey = []
  · rw [if_pos hne]
    refine ⟨hle, ?_⟩
    intro td htd
    obtain rfl := Except.ok.inj htd
    exact Nat.zero_le _
  · obtain ⟨hmode, hlen⟩ := hkey.resolve_left hne
    rw [if_neg hne, hmode]
    obtain ⟨hbuffer, hivec⟩ := rollAndSetGlobalIvec_bounds hrandom hle (show key.userKey.length ≤ 32 by omega)
    refine ⟨hbuffer, ?_⟩
    intro td htd
    dsimp only at htd
    generalize (rollAndSetGlobalIvec host ivecLength key.userKey.length).1 = ivec at htd hivec
    obtain ⟨encrypted, henc, htd⟩ := Transition.bind_eq_ok htd
    have hencLength := symmetricKeyDataEncrypt_length henc
    cases hmac : swtpmHmac C key.userKey encrypted ivec with
    | none =>
        rw [hmac] at htd
        cases htd
    | some md =>
        rw [hmac] at htd
        obtain rfl := Except.ok.inj htd
        have hmd : md.length = 32 := hC.hmac hmac
        cases ivec with
        | none =>
            simp only [Option.toList_none, List.map_nil, List.map_cons, List.sum_cons, List.sum_nil]
            omega
        | some iv =>
            have hiv : iv.length ≤ 32 := hivec iv rfl
            simp only [Option.toList_some, List.map_cons, List.map_nil, List.sum_cons, List.sum_nil]
            omega

/-- A blob is not much longer than the state in it. -/
theorem nvramStoreBlob_bounds (hC : C.Lawful) (hrandom : ∀ n, (host.random n).length = n) {ivecLength : Nat}
    (hle : ivecLength ≤ 32) {filekey : EncryptionKey} (hkey : filekey.Admitted) (data : Bytes) :
    (nvramStoreBlob C host ivecLength filekey data true).2 ≤ 32 ∧
      ∀ filedata, (nvramStoreBlob C host ivecLength filekey data true).1 = .ok filedata →
        0 < filedata.length ∧ filedata.length ≤ data.length + 124 := by
  have hblob : ∀ (td : Except TpmResult (List TlvData)) (flags : Nat) (filedata : Bytes),
      (∀ tds, td = .ok tds → (tds.map fun t => 6 + t.value.length).sum ≤ data.length + 114) →
      sealRecords td flags = .ok filedata → 0 < filedata.length ∧ filedata.length ≤ data.length + 124 := by
    intro td flags filedata htds h
    obtain ⟨bytes, hbytes, rfl⟩ := sealRecords_eq_ok h
    obtain ⟨tds, rfl, happend⟩ := Transition.bind_eq_ok hbytes
    have hsum := htds tds rfl
    simp only [tlvDataAppend, List.nil_append] at happend
    split at happend
    · cases happend
    · obtain rfl := Except.ok.inj happend
      rw [prependHeader_length, records_sum]
      omega
  by_cases hne : filekey.userKey = []
  · rw [nvramStoreBlob_plain hne]
    refine ⟨hle, fun filedata h => hblob _ _ filedata ?_ h⟩
    intro tds htds
    obtain rfl := Except.ok.inj htds
    simp only [List.map_cons, List.map_nil, List.sum_cons, List.sum_nil]
    omega
  · rw [nvramStoreBlob_encrypted hne]
    obtain ⟨hbuffer, hsum⟩ := nvramEncryptData_bounds hC hrandom hle hkey tagEncryptedData tagIvecEncryptedData data
    exact ⟨hbuffer, fun filedata h => hblob _ _ filedata hsum h⟩

theorem symmetricKeyDataEncrypt_error {key data : Bytes} {ivec : Option Bytes} {rc : TpmResult}
    (h : symmetricKeyDataEncrypt C key ivec data = .error rc) : rc ≠ .success := by
  rintro rfl
  rw [symmetricKeyDataEncrypt] at h
  cases hiv : cipherIvec key ivec with
  | none =>
      rw [hiv] at h
      cases h
  | some iv =>
      rw [hiv] at h
      dsimp only at h
      split at h
      · cases h
      · split at h
        · cases h
        · split at h
          · cases h
          · cases h

theorem nvramEncryptData_error {ivecLength : Nat} {key : EncryptionKey} {tagEncrypted tagIvec : Nat} {data : Bytes}
    {rc : TpmResult} (h : (nvramEncryptData C host ivecLength key tagEncrypted data tagIvec).1 = .error rc) :
    rc ≠ .success := by
  rw [nvramEncryptData] at h
  split at h
  · cases h
  · cases hmode : key.dataEncmode with
    | unknown =>
        rw [hmode] at h
        obtain rfl := Except.error.inj h
        intro hno
        cases hno
    | aesCbc =>
        rw [hmode] at h
        dsimp only at h
        generalize (rollAndSetGlobalIvec host ivecLength key.userKey.length).1 = ivec at h
        cases henc : symmetricKeyDataEncrypt C key.userKey ivec data with
        | error e =>
            rw [henc] at h
            obtain rfl := Except.error.inj h
            exact symmetricKeyDataEncrypt_error henc
        | ok encrypted =>
            rw [henc] at h
            simp only [bind, Except.bind] at h
            cases hmac : swtpmHmac C key.userKey encrypted ivec with
            | none =>
                rw [hmac] at h
                obtain rfl := Except.error.inj h
                intro hno
                cases hno
            | some md =>
                rw [hmac] at h
                cases h

theorem nvramStoreBlob_le {ivecLength : Nat} {filekey : EncryptionKey} {data : Bytes} :
    ivecLength ≤ (nvramStoreBlob C host ivecLength filekey data true).2 := by
  by_cases hne : filekey.userKey = []
  · rw [nvramStoreBlob_plain hne]
  · rw [nvramStoreBlob_encrypted hne]
    exact nvramEncryptData_le _ _ _ _ _

theorem sealRecords_error {td : Except TpmResult (List TlvData)} {flags : Nat} {rc : TpmResult}
    (htd : ∀ rc, td = .error rc → rc ≠ .success) (h : sealRecords td flags = .error rc) : rc ≠ .success := by
  rw [sealRecords] at h
  cases td with
  | error e =>
      obtain rfl := Except.error.inj h
      exact htd e rfl
  | ok tds =>
      simp only [bind, Except.bind, tlvDataAppend, List.length_nil, Nat.zero_add] at h
      split at h
      · rename_i hlong
        split at hlong
        · cases hlong
          obtain rfl := Except.error.inj h
          intro hno
          cases hno
        · cases hlong
      · cases h

theorem nvramStoreBlob_error {ivecLength : Nat} {filekey : EncryptionKey} {data : Bytes} {rc : TpmResult}
    (h : (nvramStoreBlob C host ivecLength filekey data true).1 = .error rc) : rc ≠ .success := by
  by_cases hne : filekey.userKey = []
  · rw [nvramStoreBlob_plain hne] at h
    exact sealRecords_error (fun rc hrc => by cases hrc) h
  · rw [nvramStoreBlob_encrypted hne] at h
    exact sealRecords_error (fun rc hrc => nvramEncryptData_error hrc) h

theorem nvramEncryptData_reaches {ivecLength : Nat} {key : EncryptionKey} (hne : key.userKey ≠ [])
    (hmode : key.dataEncmode = .aesCbc) (hgrows : host.grows = true) (tagEncrypted : Nat) (data : Bytes)
    (tagIvec : Nat) :
    key.userKey.length ≤ (nvramEncryptData C host ivecLength key tagEncrypted data tagIvec).2 := by
  rw [nvramEncryptData, if_neg hne, hmode]
  show key.userKey.length ≤ (rollAndSetGlobalIvec host ivecLength key.userKey.length).2
  rw [rollAndSetGlobalIvec, hgrows]
  split
  · exact Nat.le_refl _
  · rename_i hge
    exact Nat.le_of_not_lt hge

theorem getStateBlob_reaches {ivecLength : Nat} {filekey migrationkey : EncryptionKey} {plain : Bytes}
    {decrypt : Bool} {blob : Bytes × Bool} (hne : migrationkey.userKey ≠ [])
    (hmode : migrationkey.dataEncmode = .aesCbc) (hgrows : host.grows = true)
    (h : (getStateBlob C host ivecLength filekey migrationkey plain decrypt).1 = .ok blob) :
    migrationkey.userKey.length ≤ (getStateBlob C host ivecLength filekey migrationkey plain decrypt).2 := by
  rw [getStateBlob] at h ⊢
  dsimp only at h ⊢
  generalize (if decide (decrypt = false ∧ filekey.userKey ≠ []) = true then
    nvramEncryptData C host ivecLength filekey tagEncryptedData plain tagIvecEncryptedData
    else (.ok [⟨tagData, plain⟩], ivecLength)) = state at h ⊢
  generalize state.1 >>= tlvDataAppend [] = buffer at h ⊢
  cases buffer with
  | error rc => cases h
  | ok buffer =>
      dsimp only
      rw [if_pos hne]
      exact nvramEncryptData_reaches hne hmode hgrows _ _ _

theorem getStateBlob_bounds (hC : C.Lawful) (hrandom : ∀ n, (host.random n).length = n) {ivecLength : Nat}
    (hle : ivecLength ≤ 32) {filekey migrationkey : EncryptionKey} (hfile : filekey.Admitted)
    (hmig : migrationkey.Admitted) (plain : Bytes) (decrypt : Bool) :
    ivecLength ≤ (getStateBlob C host ivecLength filekey migrationkey plain decrypt).2 ∧
      (getStateBlob C host ivecLength filekey migrationkey plain decrypt).2 ≤ 32 := by
  rw [getStateBlob]
  dsimp only
  have hstate : ∀ b : Bool, ivecLength ≤ (if b = true then
      nvramEncryptData C host ivecLength filekey tagEncryptedData plain tagIvecEncryptedData
      else (.ok [⟨tagData, plain⟩], ivecLength)).2 ∧ (if b = true then
      nvramEncryptData C host ivecLength filekey tagEncryptedData plain tagIvecEncryptedData
      else (.ok [⟨tagData, plain⟩], ivecLength)).2 ≤ 32 := by
    intro b
    cases b with
    | true => exact ⟨nvramEncryptData_le _ _ _ _ _, (nvramEncryptData_bounds hC hrandom hle hfile _ _ _).1⟩
    | false => exact ⟨Nat.le_refl _, hle⟩
  obtain ⟨hlow, hhigh⟩ := hstate (decide (decrypt = false ∧ filekey.userKey ≠ []))
  generalize (if decide (decrypt = false ∧ filekey.userKey ≠ []) = true then
    nvramEncryptData C host ivecLength filekey tagEncryptedData plain tagIvecEncryptedData
    else (.ok [⟨tagData, plain⟩], ivecLength)) = state at hlow hhigh ⊢
  cases state.1 >>= tlvDataAppend [] with
  | error rc => exact ⟨hlow, hhigh⟩
  | ok buffer =>
      dsimp only
      by_cases hne : migrationkey.userKey ≠ []
      · rw [if_pos hne]
        exact ⟨Nat.le_trans hlow (nvramEncryptData_le _ _ _ _ _),
          (nvramEncryptData_bounds hC hrandom hhigh hmig _ _ _).1⟩
      · rw [if_neg hne]
        exact ⟨hlow, hhigh⟩

end

namespace SwtpmProcess
variable {C : StateCrypto} {host : SwtpmHost} {p : SwtpmProcess} {order : List Nat}

structure Sound (p : SwtpmProcess) (order : List Nat) : Prop where
  store : LinearStore.Sound p.store order
  framed : ∀ name filedata, p.store.contents name = some filedata → Framed filedata
  filekey : p.filekey.Admitted
  migrationkey : p.migrationkey.Admitted
  ivec : p.ivecLength ≤ 32

theorem loadData_stored (h : Sound p order) {name : String} {filedata : Bytes}
    (hcontents : p.store.contents name = some filedata) : p.loadData C name = nvramLoadBlob C p.filekey filedata := by
  rw [loadData, LinearStore.loadData_stored h.store hcontents]
  rfl

theorem Sound.loadData (h : Sound p order) (name : String) : ∃ r, p.loadData C name = some r := by
  cases hcontents : p.store.contents name with
  | some filedata =>
      rw [loadData_stored h hcontents]
      exact nvramLoadBlob_returns (h.framed name filedata hcontents)
  | none =>
      cases hname : LinearStore.getFileNr name with
      | none =>
          refine ⟨.error .fail, ?_⟩
          rw [SwtpmProcess.loadData, LinearStore.loadData, hname]
          rfl
      | some f =>
          refine ⟨.error .retry, ?_⟩
          rw [SwtpmProcess.loadData, LinearStore.loadData_eq h.store hname, hcontents]
          rfl

end SwtpmProcess

/-- The call is about another file. -/
def SwtpmCall.Spares (name : String) : SwtpmCall → Prop
  | .storeData name' _ => name' ≠ name
  | .deleteName name' => name' ≠ name
  | _ => True

namespace SwtpmProcess
variable {C : StateCrypto} {host : SwtpmHost} {p : SwtpmProcess} {order : List Nat}

theorem storeData_spec (hC : C.Lawful) (h : Sound p order) (hhost : host.Usual) (name : String) {data : Bytes}
    (hlen : data.length ≤ 2 ^ 29) : ∃ rc p' order', p.storeData C host name data = some (rc, p') ∧ Sound p' order' ∧
      (∀ name', name ≠ name' → p'.store.contents name' = p.store.contents name') ∧ p'.filekey = p.filekey ∧
      p.ivecLength ≤ p'.ivecLength ∧ (rc = .success → ∃ filedata, p'.store.contents name = some filedata ∧
        nvramLoadBlob C p.filekey filedata = some (.ok data)) := by
  obtain ⟨hivec, hblob⟩ := nvramStoreBlob_bounds hC hhost.random h.ivec h.filekey data
  have hgrows : p.ivecLength ≤ (nvramStoreBlob C host.ivec p.ivecLength p.filekey data true).2 := nvramStoreBlob_le
  rw [storeData]
  dsimp only
  cases hfiledata : (nvramStoreBlob C host.ivec p.ivecLength p.filekey data true).1 with
  | error rc =>
      refine ⟨rc, _, order, rfl, ⟨h.store, h.framed, h.filekey, h.migrationkey, hivec⟩, fun _ _ => rfl, rfl, hgrows, ?_⟩
      intro hrc
      exact absurd hrc (nvramStoreBlob_error hfiledata)
  | ok filedata =>
      obtain ⟨hpos, hsize⟩ := hblob filedata hfiledata
      have hfits : (LinearOp.store name filedata).Fits := ⟨hpos, by omega⟩
      obtain ⟨rc, store, order', hstep, hsound, hfiles⟩ := LinearStore.apply_spec h.store hhost.grows hfits
      have hcall : p.store.storeData host.linear name filedata = some (rc, store) := hstep
      have hframed := hfiles.every h.framed fun name' filedata' hop => by
        obtain ⟨rfl, rfl⟩ := LinearOp.store.inj hop
        exact nvramStoreBlob_framed hfiledata (by omega)
      dsimp only
      rw [hcall]
      refine ⟨rc, _, order', rfl, ⟨hsound, hframed, h.filekey, h.migrationkey, hivec⟩, ?_, rfl, hgrows, ?_⟩
      · intro name' hne
        exact hfiles.spares hne
      · intro hrc
        subst hrc
        exact ⟨filedata, hfiles.success, nvramLoadBlob_storeBlob hC h.filekey hfiledata (by omega)⟩

theorem deleteName_spec (h : Sound p order) (hhost : host.Usual) (name : String) :
    ∃ rc store order', p.store.deleteName host.linear name = some (rc, store) ∧
      Sound { p with store } order' ∧ ∀ name', name ≠ name' → store.contents name' = p.store.contents name' := by
  have hfits : (LinearOp.delete name).Fits := trivial
  obtain ⟨rc, store, order', hstep, hsound, hfiles⟩ := LinearStore.apply_spec h.store hhost.grows hfits
  have hframed := hfiles.every h.framed fun name' filedata' hop => by cases hop
  exact ⟨rc, store, order', hstep, ⟨hsound, hframed, h.filekey, h.migrationkey, h.ivec⟩,
    fun name' hne => hfiles.spares hne⟩

theorem stateBlob_spec (hC : C.Lawful) (h : Sound p order) (hhost : host.Usual) (name : String) (decrypt : Bool) :
    ∃ r ivecLength, p.stateBlob C host name decrypt = some (r, { p with ivecLength }) ∧ p.ivecLength ≤ ivecLength ∧
      ivecLength ≤ 32 := by
  obtain ⟨loaded, hloaded⟩ := h.loadData name
  rw [stateBlob, hloaded, Option.map_some]
  cases loaded with
  | error rc => exact ⟨.error rc, p.ivecLength, rfl, Nat.le_refl _, h.ivec⟩
  | ok plain =>
      obtain ⟨hlow, hhigh⟩ := getStateBlob_bounds hC hhost.random h.ivec h.filekey h.migrationkey plain decrypt
      exact ⟨_, _, rfl, hlow, hhigh⟩

theorem stateBlob_eq_ok {name : String} {decrypt : Bool} {blob : Bytes × Bool} {p' : SwtpmProcess}
    (h : p.stateBlob C host name decrypt = some (.ok blob, p')) : ∃ plain,
      (getStateBlob C host.ivec p.ivecLength p.filekey p.migrationkey plain decrypt).1 = .ok blob ∧
      p' = { p with
        ivecLength := (getStateBlob C host.ivec p.ivecLength p.filekey p.migrationkey plain decrypt).2 } := by
  rw [stateBlob] at h
  obtain ⟨loaded, -, hloaded⟩ := Option.map_eq_some_iff.mp h
  cases loaded with
  | error rc => cases hloaded
  | ok plain =>
      obtain ⟨hblob, rfl⟩ := Prod.mk.inj hloaded
      exact ⟨plain, hblob, rfl⟩

theorem stateBlob_long (hC : C.Lawful) (h : Sound p order) (hhost : host.Usual) (hgrows : host.ivec.grows = true)
    (hmig : p.migrationkey.userKey.length = 32) {name : String} {decrypt : Bool} {blob : Bytes × Bool}
    {p' : SwtpmProcess} (hblob : p.stateBlob C host name decrypt = some (.ok blob, p')) :
    Sound p' order ∧ 32 ≤ p'.ivecLength := by
  obtain ⟨plain, hplain, rfl⟩ := stateBlob_eq_ok hblob
  have hne : p.migrationkey.userKey ≠ [] := List.ne_nil_of_length_pos (by omega)
  have hlong := getStateBlob_reaches hne (h.migrationkey.resolve_left hne).1 hgrows hplain
  have hhigh := (getStateBlob_bounds hC hhost.random h.ivec h.filekey h.migrationkey plain decrypt).2
  exact ⟨⟨h.store, h.framed, h.filekey, h.migrationkey, hhigh⟩, hmig ▸ hlong⟩

/-- What one call may do. -/
theorem call_spec (hC : C.Lawful) (h : Sound p order) (hhost : host.Usual) {c : SwtpmCall} (hfits : c.Fits) :
    ∃ rc p' order', p.call C host c = some (rc, p') ∧ Sound p' order' ∧
      (∀ name, c.Spares name → p'.store.contents name = p.store.contents name) ∧
      (c ≠ .restart → p.ivecLength ≤ p'.ivecLength) := by
  cases c with
  | storeData name data =>
      obtain ⟨rc, p', order', heq, hsound, hfiles, -, hivec, -⟩ := storeData_spec hC h hhost name hfits
      exact ⟨rc, p', order', heq, hsound, hfiles, fun _ => hivec⟩
  | deleteName name =>
      obtain ⟨rc, store, order', heq, hsound, hfiles⟩ := deleteName_spec h hhost name
      refine ⟨rc, { p with store }, order', ?_, hsound, hfiles, fun _ => Nat.le_refl _⟩
      rw [call, heq]
      rfl
  | getStateBlob name decrypt =>
      obtain ⟨r, ivecLength, heq, hlow, hhigh⟩ := stateBlob_spec hC h hhost name decrypt
      refine ⟨resultOf r, { p with ivecLength }, order, ?_,
        ⟨h.store, h.framed, h.filekey, h.migrationkey, hhigh⟩, fun _ _ => rfl, fun _ => hlow⟩
      rw [call, heq]
      rfl
  | setFileKey key encmode =>
      exact ⟨_, _, order, rfl, ⟨h.store, h.framed, setKey_admitted h.filekey key encmode, h.migrationkey, h.ivec⟩,
        fun _ _ => rfl, fun _ => Nat.le_refl _⟩
  | setMigrationKey key encmode =>
      exact ⟨_, _, order, rfl, ⟨h.store, h.framed, h.filekey, setKey_admitted h.migrationkey key encmode, h.ivec⟩,
        fun _ _ => rfl, fun _ => Nat.le_refl _⟩
  | restart =>
      obtain ⟨store, heq, hsound, hoct⟩ := LinearStore.prepare_restart host.linear h.store
      have hcontents : store.contents = p.store.contents := by
        funext name
        rw [LinearStore.contents, LinearStore.contents, hoct]
      refine ⟨.success, ⟨store, noKey, noKey, 0⟩, order, ?_,
        ⟨hsound, hcontents ▸ h.framed, .inl rfl, .inl rfl, Nat.zero_le _⟩, ?_, fun hno => absurd rfl hno⟩
      · rw [call, heq]
      · intro name _
        exact congrFun hcontents name

theorem run_spec (hC : C.Lawful) {calls : List (SwtpmHost × SwtpmCall)} (h : Sound p order)
    (hcalls : ∀ e ∈ calls, e.1.Usual ∧ e.2.Fits) : ∃ rcs p' order', p.run C calls = some (rcs, p') ∧
      Sound p' order' ∧ (∀ name, (∀ e ∈ calls, e.2.Spares name) → p'.store.contents name = p.store.contents name) ∧
      ((∀ e ∈ calls, e.2 ≠ .restart) → p.ivecLength ≤ p'.ivecLength) := by
  induction calls generalizing p order with
  | nil => exact ⟨[], p, order, rfl, h, fun _ _ => rfl, fun _ => Nat.le_refl _⟩
  | cons e es ih =>
      obtain ⟨hhost, hfits⟩ := hcalls e List.mem_cons_self
      obtain ⟨rc, p₁, order₁, heq, hsound₁, hspares₁, hivec₁⟩ := call_spec hC h hhost hfits
      obtain ⟨rcs, p', order', hrun, hsound, hspares, hivec⟩ := ih hsound₁ fun e' he' =>
        hcalls e' (List.mem_cons_of_mem e he')
      refine ⟨rc :: rcs, p', order', ?_, hsound, ?_, ?_⟩
      · simp only [run, heq, hrun, Option.bind_eq_bind, Option.bind_some]
        rfl
      · intro name hall
        rw [hspares name fun e' he' => hall e' (List.mem_cons_of_mem e he')]
        exact hspares₁ name (hall e List.mem_cons_self)
      · intro hall
        exact Nat.le_trans (hivec₁ (hall e List.mem_cons_self))
          (hivec fun e' he' => hall e' (List.mem_cons_of_mem e he'))

/-- The first process on a new file or device. -/
def start (host : LinearHost) (s : LinearStore) : SwtpmProcess := ⟨(s.prepare host).2, noKey, noKey, 0⟩

theorem start_sound {s : LinearStore} (hblank : s.Blank) {host : LinearHost} (hgrow : host.Grows) :
    Sound (start host s) [] := by
  obtain ⟨s₀, hprepare, hsound⟩ := LinearStore.prepare_blank hblank hgrow
  rw [start, hprepare]
  refine ⟨hsound, ?_, .inl rfl, .inl rfl, Nat.zero_le _⟩
  intro name filedata hcontents
  rw [LinearStore.contents_nil hsound] at hcontents
  cases hcontents

end SwtpmProcess

/-- **Main result.** What the TPM's state was when it was last stored with success is what the TPM gets back under
the same file key: after other files were stored or deleted, keys were changed, blobs were taken for migration,
and processes were restarted, whatever of it failed. No call reads or writes where it must not. -/
theorem swtpm_keeps_state {C : StateCrypto} (hC : C.Lawful) {s : LinearStore} (hblank : s.Blank) {linear : LinearHost}
    (hgrow : linear.Grows) {before after : List (SwtpmHost × SwtpmCall)} {host : SwtpmHost} {name : String}
    {data : Bytes} (hbefore : ∀ e ∈ before, e.1.Usual ∧ e.2.Fits) (hhost : host.Usual) (hlen : data.length ≤ 2 ^ 29)
    (hafter : ∀ e ∈ after, e.1.Usual ∧ e.2.Fits ∧ e.2.Spares name) :
    ∃ rcs p₁, (SwtpmProcess.start linear s).run C before = some (rcs, p₁) ∧
      ∃ rc p₂, p₁.call C host (.storeData name data) = some (rc, p₂) ∧
        ∃ rcs' p₃, p₂.run C after = some (rcs', p₃) ∧
          (rc = .success → p₃.filekey = p₁.filekey → p₃.loadData C name = some (.ok data)) := by
  obtain ⟨rcs, p₁, order₁, hrun₁, hsound₁, -⟩ :=
    SwtpmProcess.run_spec hC (SwtpmProcess.start_sound hblank hgrow) hbefore
  obtain ⟨rc, p₂, order₂, hstore, hsound₂, -, -, -, hdata⟩ := SwtpmProcess.storeData_spec hC hsound₁ hhost name hlen
  obtain ⟨rcs', p₃, order₃, hrun₂, hsound₃, hspares, -⟩ :=
    SwtpmProcess.run_spec hC hsound₂ fun e he => ⟨(hafter e he).1, (hafter e he).2.1⟩
  refine ⟨rcs, p₁, hrun₁, rc, p₂, hstore, rcs', p₃, hrun₂, ?_⟩
  intro hrc hkey
  obtain ⟨filedata, hcontents, hload⟩ := hdata hrc
  rw [← hspares name fun e he => (hafter e he).2.2] at hcontents
  rw [SwtpmProcess.loadData_stored hsound₃ hcontents, hkey]
  exact hload

/-- **Main result.** A blob that was taken once under a 256-bit migration key leaves a buffer for the IV that is too
long for a 128-bit file key: from then on the process cannot store under such a key. -/
theorem short_key_refused {C : StateCrypto} (hC : C.Lawful) {s : LinearStore} (hblank : s.Blank) {linear : LinearHost}
    (hgrow : linear.Grows) {before after : List (SwtpmHost × SwtpmCall)} {host host' : SwtpmHost} {name name' : String}
    {decrypt : Bool} {blob : Bytes × Bool} (hbefore : ∀ e ∈ before, e.1.Usual ∧ e.2.Fits) (hhost : host.Usual)
    (hgrows : host.ivec.grows = true) (hafter : ∀ e ∈ after, e.1.Usual ∧ e.2.Fits ∧ e.2 ≠ .restart)
    (hhost' : host'.Usual) {rcs rcs' : List TpmResult} {p₁ p₂ p₃ : SwtpmProcess}
    (hrun₁ : (SwtpmProcess.start linear s).run C before = some (rcs, p₁))
    (hmig : p₁.migrationkey.userKey.length = 32) (hblob : p₁.stateBlob C host name decrypt = some (.ok blob, p₂))
    (hrun₂ : p₂.run C after = some (rcs', p₃)) (hkey : p₃.filekey.userKey.length = 16) (data : Bytes) :
    p₃.call C host' (.storeData name' data) = some (.encryptError, p₃) := by
  obtain ⟨rcs₁, q₁, order, hq₁, hsound, -⟩ :=
    SwtpmProcess.run_spec hC (SwtpmProcess.start_sound hblank hgrow) hbefore
  obtain ⟨rfl, rfl⟩ := Prod.mk.inj (Option.some.inj (hrun₁.symm.trans hq₁))
  obtain ⟨hsound₂, hlong⟩ := SwtpmProcess.stateBlob_long hC hsound hhost hgrows hmig hblob
  obtain ⟨rcs₂, q₃, order', hq₃, hsound₃, -, hivec⟩ :=
    SwtpmProcess.run_spec hC hsound₂ fun e he => ⟨(hafter e he).1, (hafter e he).2.1⟩
  obtain ⟨rfl, rfl⟩ := Prod.mk.inj (Option.some.inj (hrun₂.symm.trans hq₃))
  have hle := hivec fun e he => (hafter e he).2.2
  have hne : p₃.filekey.userKey ≠ [] := List.ne_nil_of_length_pos (by omega)
  obtain ⟨hmode, -⟩ := hsound₃.filekey.resolve_left hne
  have hshort : p₃.filekey.userKey.length < p₃.ivecLength := by omega
  have hrefused := @nvramEncryptData_refused C host'.ivec p₃.ivecLength p₃.filekey hne hmode hhost'.random hshort
    tagEncryptedData data tagIvecEncryptedData
  rw [SwtpmProcess.call, SwtpmProcess.storeData, nvramStoreBlob_encrypted hne, hrefused]
  rfl

/-! ## Two hosts -/

def usualHost : SwtpmHost := ⟨sampleIvec, willing⟩

theorem usualHost_usual : usualHost.Usual where
  random _ := List.length_replicate
  grows _ _ _ := rfl

theorem sampleState_length : ([97, 98, 99] : Bytes).length ≤ 2 ^ 29 := by decide

/-- A process with a file key stores the state; another file comes and goes, and the next process has the same key. -/
def keyCalls : List (SwtpmHost × SwtpmCall) := [(usualHost, .setFileKey sampleFileKey.userKey .aesCbc)]

def otherCalls : List (SwtpmHost × SwtpmCall) :=
  [(usualHost, .storeData "savestate" [97, 98, 99]), (usualHost, .deleteName "savestate"), (usualHost, .restart),
    (usualHost, .setFileKey sampleFileKey.userKey .aesCbc)]

def stateScript : Option (SwtpmProcess × (TpmResult × SwtpmProcess) × SwtpmProcess) :=
  ((SwtpmProcess.start willing newFile).run sampleCrypto keyCalls).bind fun r₁ =>
    (r₁.2.call sampleCrypto usualHost (.storeData "permall" [97, 98, 99])).bind fun r₂ =>
      (r₂.2.run sampleCrypto otherCalls).map fun r₃ => (r₁.2, r₂, r₃.2)

theorem stateScript_results : stateScript.map (fun r => (r.1.filekey, r.2.1.1, r.2.2.filekey)) =
    some (sampleFileKey, .success, sampleFileKey) := by
  decide +kernel

theorem stateScript_keeps : stateScript.bind (fun r => r.2.2.loadData sampleCrypto "permall") =
    some (.ok [97, 98, 99]) := by
  have hbefore : ∀ e ∈ keyCalls, e.1.Usual ∧ e.2.Fits := by
    intro e he
    obtain rfl := List.mem_singleton.mp he
    exact ⟨usualHost_usual, trivial⟩
  have hafter : ∀ e ∈ otherCalls, e.1.Usual ∧ e.2.Fits ∧ e.2.Spares "permall" := by
    intro e he
    have hne : "savestate" ≠ "permall" := by decide
    simp only [otherCalls, List.mem_cons, List.not_mem_nil, or_false] at he
    rcases he with rfl | rfl | rfl | rfl
    · exact ⟨usualHost_usual, sampleState_length, hne⟩
    · exact ⟨usualHost_usual, trivial, hne⟩
    · exact ⟨usualHost_usual, trivial, trivial⟩
    · exact ⟨usualHost_usual, trivial, trivial⟩
  have hgrow : willing.Grows := fun _ _ _ => rfl
  obtain ⟨rcs, p₁, hrun₁, rc, p₂, hstore, rcs', p₃, hrun₂, hkeeps⟩ :=
    swtpm_keeps_state sampleCrypto_lawful newFile_blank hgrow hbefore usualHost_usual sampleState_length hafter
  have hscript : stateScript = some (p₁, (rc, p₂), p₃) := by
    rw [stateScript, hrun₁, Option.bind_some, hstore, Option.bind_some, hrun₂]
    rfl
  have hresults := stateScript_results
  rw [hscript] at hresults
  simp only [Option.map_some, Option.some.injEq, Prod.mk.injEq] at hresults
  obtain ⟨hkey₁, hrc, hkey₃⟩ := hresults
  rw [hscript, Option.bind_some]
  exact hkeeps hrc (hkey₃.trans hkey₁.symm)

/-- The state is stored without a key; a blob is taken for another host, then a key is set. -/
def migrationCalls : List (SwtpmHost × SwtpmCall) :=
  [(usualHost, .storeData "permall" [97, 98, 99]), (usualHost, .setMigrationKey sampleMigrationKey.userKey .aesCbc)]

def shortScript : Option (SwtpmProcess × (Except TpmResult (Bytes × Bool) × SwtpmProcess) × SwtpmProcess) :=
  ((SwtpmProcess.start willing newFile).run sampleCrypto migrationCalls).bind fun r₁ =>
    (r₁.2.stateBlob sampleCrypto usualHost "permall" true).bind fun r₂ =>
      (r₂.2.run sampleCrypto keyCalls).map fun r₃ => (r₁.2, r₂, r₃.2)

theorem shortScript_results : shortScript.map (fun r => (r.1.migrationkey, r.2.1.1, r.2.2.filekey)) =
    some (sampleMigrationKey, .ok (sampleBlob, false), sampleFileKey) := by
  decide +kernel

theorem shortScript_refused :
    shortScript.bind (fun r => (r.2.2.call sampleCrypto usualHost (.storeData "permall" [97, 98, 99])).map Prod.fst) =
      some .encryptError := by
  obtain ⟨⟨p₁, ⟨blob, p₂⟩, p₃⟩, hscript, hresults⟩ := Option.map_eq_some_iff.mp shortScript_results
  obtain ⟨hmig, hrest⟩ := Prod.mk.inj hresults
  obtain ⟨rfl, hkey⟩ := Prod.mk.inj hrest
  dsimp only at hmig hkey
  rw [hscript, Option.bind_some]
  obtain ⟨⟨rcs, q₁⟩, hrun₁, hscript⟩ := Option.bind_eq_some_iff.mp hscript
  obtain ⟨r₂, hblob, hscript⟩ := Option.bind_eq_some_iff.mp hscript
  obtain ⟨⟨rcs', q₃⟩, hrun₂, hends⟩ := Option.map_eq_some_iff.mp hscript
  simp only [Prod.mk.injEq] at hends
  obtain ⟨rfl, rfl, rfl⟩ := hends
  have hrefused : q₃.call sampleCrypto usualHost (.storeData "permall" [97, 98, 99]) = some (.encryptError, q₃) := by
    apply @short_key_refused sampleCrypto sampleCrypto_lawful newFile newFile_blank willing (fun _ _ _ => rfl)
      migrationCalls keyCalls usualHost usualHost "permall" "permall" true (sampleBlob, false) ?_ usualHost_usual rfl ?_
      usualHost_usual rcs rcs' q₁ p₂ q₃ hrun₁ (by rw [hmig]; rfl) hblob hrun₂ (by rw [hkey]; rfl)
    · intro e he
      simp only [migrationCalls, List.mem_cons, List.not_mem_nil, or_false] at he
      rcases he with rfl | rfl
      · exact ⟨usualHost_usual, sampleState_length⟩
      · exact ⟨usualHost_usual, trivial⟩
    · intro e he
      obtain rfl := List.mem_singleton.mp he
      exact ⟨usualHost_usual, trivial, nofun⟩
  dsimp only
  rw [hrefused]
  rfl

end PqcTpm
