import PqcTpm.Lib.Transition
import PqcTpm.LinearRuns
import PqcTpm.SymmetricModes

/-!
# State blobs

What `swtpm_nvstore.c` puts around the state of the TPM before a backend stores it, and around a blob that goes to
another host: tag-length-value records (`tlv.c`), encryption under the file key and the migration key
(`swtpm_aes.c`), and a header. AES-CBC, HMAC and SHA-256 are OpenSSL's.
-/
namespace PqcTpm
open ByteCodec

/-! ## Records -/

structure TlvData where
  tag : Nat
  value : Bytes
  deriving DecidableEq

namespace TlvData

def octets (td : TlvData) : Bytes := be 2 td.tag ++ (be 4 td.value.length ++ td.value)

/-- What the fields of the record's header can hold. -/
def Fits (td : TlvData) : Prop := td.tag < 2 ^ 16 ∧ td.value.length < 2 ^ 32

end TlvData

/-- `tlv_data_append`. -/
def tlvDataAppend (buffer : Bytes) (td : List TlvData) : Except TpmResult Bytes :=
  let totlen := buffer.length + (td.map fun t => 6 + t.value.length).sum
  if 0xffffffff < totlen then .error .fail else .ok (buffer ++ td.flatMap TlvData.octets)

/-- The loop of `tlv_data_find_tag`; every turn takes at least the header of a record. -/
def tlvFind (tag : Nat) : Nat → Bytes → Option Bytes
  | 0, _ => none
  | fuel + 1, rest =>
      if rest.length < 6 then none
      else
        let length := fromBe ((rest.drop 2).take 4)
        let value := rest.drop 6
        if value.length < length then none
        else if fromBe (rest.take 2) = tag then some (value.take length)
        else tlvFind tag fuel (value.drop length)

/-- `tlv_data_find_tag`. -/
def tlvDataFindTag (buffer : Bytes) (tag : Nat) : Option Bytes := tlvFind tag buffer.length buffer

def tagData : Nat := 1
def tagEncryptedData : Nat := 2
def tagHmac : Nat := 3
def tagMigrationData : Nat := 4
def tagEncryptedMigrationData : Nat := 5
def tagIvecEncryptedData : Nat := 6
def tagIvecEncryptedMigrationData : Nat := 7

/-- What a reader of octets does: no value where it reads past their end. -/
abbrev Reading := ExceptT TpmResult Option

/-! ## Keys -/

inductive EncryptionMode where
  | unknown | aesCbc
  deriving DecidableEq

/-- `encryptionkey`; there is no key while `userKey` is empty. -/
structure EncryptionKey where
  dataEncmode : EncryptionMode
  userKey : Bytes
  deriving DecidableEq

def noKey : EncryptionKey := ⟨.unknown, []⟩

/-- `SWTPM_NVRAM_KeyParamCheck`. -/
def keyParamCheck (keylen : Nat) (encmode : EncryptionMode) : TpmResult :=
  if encmode = .unknown then .badMode
  else if keylen ≠ 16 ∧ keylen ≠ 32 then .badKeyProperty
  else .success

/-- `SWTPM_NVRAM_Set_FileKey` and `SWTPM_NVRAM_Set_MigrationKey`. -/
def setKey (old : EncryptionKey) (key : Bytes) (encmode : EncryptionMode) : TpmResult × EncryptionKey :=
  let rc := keyParamCheck key.length encmode
  (rc, if rc = .success then ⟨encmode, key⟩ else old)

/-- OpenSSL under one program: the EVP calls may fail. -/
structure StateCrypto where
  cbcEncrypt : Bytes → Bytes → Bytes → Option Bytes
  cbcDecrypt : Bytes → Bytes → Bytes → Option Bytes
  hmac : Bytes → Bytes → Option Bytes
  sha256 : Bytes → Bytes

/-- The random number generator, and whether the buffer for the IV can grow. -/
structure IvecHost where
  random : Nat → Bytes
  grows : Bool

section
variable (C : StateCrypto) (host : IvecHost)

/-- The IV that the cipher reads: the one given, of the key's length, or zeros. -/
def cipherIvec (key : Bytes) : Option Bytes → Option Bytes
  | none => some (List.replicate 16 0)
  | some ivec => if ivec.length = key.length then some (ivec.take 16) else none

/-- `SWTPM_SymmetricKeyData_Encrypt`. -/
def symmetricKeyDataEncrypt (key : Bytes) (ivec : Option Bytes) (decryptData : Bytes) : Except TpmResult Bytes :=
  match cipherIvec key ivec with
  | none => .error .encryptError
  | some iv =>
      let padLength := key.length - decryptData.length % key.length
      if key.length ≠ 16 ∧ key.length ≠ 32 then .error .fail
      else
        match C.cbcEncrypt key iv (decryptData ++ List.replicate padLength (UInt8.ofNat padLength)) with
        | none => .error .fail
        | some encryptData =>
            if encryptData.length = decryptData.length + padLength then .ok encryptData else .error .fail

/-- The end of `SWTPM_SymmetricKeyData_Decrypt`: the padding is checked and taken off. -/
def unpad (keylen : Nat) (padded : Bytes) : Except TpmResult Bytes :=
  let padLength := (padded.getLastD 0).toNat
  if padLength = 0 ∨ keylen < padLength then .error .decryptError
  else if (padded.drop (padded.length - padLength)).all (·.toNat == padLength) then
    .ok (padded.take (padded.length - padLength))
  else .error .decryptError

/-- `SWTPM_SymmetricKeyData_Decrypt`. -/
def symmetricKeyDataDecrypt (key : Bytes) (ivec : Option Bytes) (encryptData : Bytes) : Except TpmResult Bytes :=
  if encryptData.length < key.length then .error .decryptError
  else
    match cipherIvec key ivec with
    | none => .error .decryptError
    | some iv =>
        if key.length ≠ 16 ∧ key.length ≠ 32 then .error .fail
        else
          match C.cbcDecrypt key iv encryptData with
          | none => .error .fail
          | some padded => if padded.length = encryptData.length then unpad key.length padded else .error .fail

/-- `SWTPM_RollAndSetGlobalIvec`: the IV, unless its buffer cannot grow, and the length of the buffer from now on.
The buffer never shrinks, and all of it is the IV. -/
def rollAndSetGlobalIvec (ivecLength needed : Nat) : Option Bytes × Nat :=
  if ivecLength < needed then
    if host.grows then (some (host.random needed), needed) else (none, ivecLength)
  else (some (host.random ivecLength), ivecLength)

/-- `SWTPM_HMAC`. -/
def swtpmHmac (key data : Bytes) (ivec : Option Bytes) : Option Bytes := C.hmac key (data ++ ivec.getD [])

/-- `SWTPM_NVRAM_EncryptData`, with `SWTPM_CalcHMAC`: the records, and the length of the buffer for the IV. -/
def nvramEncryptData (ivecLength : Nat) (key : EncryptionKey) (tagEncrypted : Nat) (data : Bytes) (tagIvec : Nat) :
    Except TpmResult (List TlvData) × Nat :=
  if key.userKey = [] then (.ok [], ivecLength)
  else
    match key.dataEncmode with
    | .unknown => (.error .badMode, ivecLength)
    | .aesCbc =>
        let (ivec, ivecLength) := rollAndSetGlobalIvec host ivecLength key.userKey.length
        (do
          let encrypted ← symmetricKeyDataEncrypt C key.userKey ivec data
          match swtpmHmac C key.userKey encrypted ivec with
          | none => .error .fail
          | some md => pure (⟨tagEncrypted, encrypted⟩ :: ⟨tagHmac, md⟩ :: ivec.toList.map (⟨tagIvec, ·⟩)), ivecLength)

/-- `SWTPM_CheckHMAC`. -/
def checkHmac (hmac encrypted : Bytes) (key : Bytes) (ivec : Option Bytes) : TpmResult :=
  if hmac.length < 32 then .fail
  else
    match swtpmHmac C key encrypted ivec with
    | none => .fail
    | some md => if hmac.take md.length = md then .success else .decryptError

/-- `SWTPM_CheckHash`; where there is no room for a hash the length of the rest wraps. -/
def checkHash (data : Bytes) : Reading Bytes :=
  if data.length < 32 then none
  else some (if data.take 32 = C.sha256 (data.drop 32) then .ok (data.drop 32) else .error .fail)

/-- `SWTPM_NVRAM_DecryptData`. -/
def nvramDecryptData (key : EncryptionKey) (data : Bytes) (tagEncrypted hdrversion tagIvec hdrflags flag256 : Nat) :
    Reading Bytes :=
  if key.userKey = [] then some (.error .fail)
  else
    match key.dataEncmode with
    | .unknown => some (.error .badMode)
    | .aesCbc =>
        if hdrversion = 1 then do
          let plain ← (some (symmetricKeyDataDecrypt C key.userKey none data) : Reading Bytes)
          checkHash C plain
        else if hdrversion = 2 then
          some (if key.userKey.length ≠ (if hdrflags &&& flag256 ≠ 0 then 32 else 16) then .error .badKeyProperty
          else
            match tlvDataFindTag data tagHmac, tlvDataFindTag data tagEncrypted with
            | some hmac, some encrypted =>
                let ivec := tlvDataFindTag data tagIvec
                let rc := checkHmac C hmac encrypted key.userKey ivec
                if rc = .success then symmetricKeyDataDecrypt C key.userKey ivec encrypted else .error rc
            | _, _ => .error .fail)
        else some (.error .fail)

/-- `SWTPM_NVRAM_GetPlainData`. -/
def getPlainData (data : Bytes) (tag hdrversion : Nat) : Except TpmResult Bytes :=
  if hdrversion = 1 then .ok data
  else if hdrversion = 2 then
    match tlvDataFindTag data tag with
    | none => .error .fail
    | some plain => .ok plain
  else .error .fail

/-- `SWTPM_NVRAM_GetDecryptedData`. -/
def getDecryptedData (key : EncryptionKey) (data : Bytes)
    (tagEncrypted tag hdrversion tagIvec hdrflags flag256 : Nat) : Reading Bytes :=
  if key.userKey ≠ [] then nvramDecryptData C key data tagEncrypted hdrversion tagIvec hdrflags flag256
  else some (getPlainData data tag hdrversion)

/-! ## Header -/

def blobFlagEncrypted : Nat := 0x01
def blobFlagMigrationEncrypted : Nat := 0x02
def blobFlagMigrationData : Nat := 0x04
def blobFlagEncrypted256 : Nat := 0x08
def blobFlagMigration256 : Nat := 0x10

/-- `SWTPM_NVRAM_PrependHeader`. -/
def prependHeader (data : Bytes) (flags : Nat) : Bytes :=
  [2, 1] ++ (be 2 10 ++ (be 2 flags ++ (be 4 (w32 (10 + data.length)) ++ data)))

/-- `SWTPM_NVRAM_CheckHeader`: the flags, the version and what follows. The length is compared with the size of a
pointer, not of the header: the words of a header of eight or nine octets are read past its end. -/
def checkHeader (data : Bytes) : Reading (Nat × Nat × Bytes) :=
  if data.length < 8 then some (.error .badParameter)
  else if data.length < 10 then none
  else if fromBe ((data.drop 6).take 4) ≠ data.length then some (.error .badParameter)
  else if 2 < (data.getD 1 0).toNat then some (.error .badVersion)
  else if fromBe ((data.drop 2).take 2) ≠ 10 then some (.error .badDatasize)
  else some (.ok (fromBe ((data.drop 4).take 2), (data.getD 0 0).toNat, data.drop 10))

/-- `SWTPM_NVRAM_StoreData_Intern` up to the call of the backend. -/
def nvramStoreBlob (ivecLength : Nat) (filekey : EncryptionKey) (data : Bytes) (encrypt : Bool) :
    Except TpmResult Bytes × Nat :=
  let (td, ivecLength) :=
    if encrypt ∧ filekey.userKey ≠ [] then
      nvramEncryptData C host ivecLength filekey tagEncryptedData data tagIvecEncryptedData
    else (.ok [⟨tagData, data⟩], ivecLength)
  let flags :=
    if encrypt ∧ filekey.userKey ≠ [] then
      blobFlagEncrypted ||| (if filekey.userKey.length = 32 then blobFlagEncrypted256 else 0)
    else 0
  (do
    let filedata ← tlvDataAppend [] (← td)
    pure (prependHeader filedata flags), ivecLength)

/-- `SWTPM_NVRAM_LoadData` behind the call of the backend. -/
def nvramLoadBlob (filekey : EncryptionKey) (filedata : Bytes) : Reading Bytes := do
  let (hdrflags, hdrversion, data) ← checkHeader filedata
  getDecryptedData C filekey data tagEncryptedData tagData hdrversion tagIvecEncryptedData hdrflags
    blobFlagEncrypted256

/-- The flags of a blob that goes to another host. -/
def stateBlobFlags (isEncrypted : Bool) (filekey migrationkey : EncryptionKey) : Nat :=
  (if isEncrypted ∧ filekey.userKey.length = 32 then blobFlagEncrypted256 else 0) |||
    (if migrationkey.userKey ≠ [] then blobFlagMigrationEncrypted else 0) |||
    (if migrationkey.userKey.length = 32 then blobFlagMigration256 else 0) |||
    blobFlagMigrationData ||| (if isEncrypted then blobFlagEncrypted else 0)

/-- `SWTPM_NVRAM_GetStateBlob` behind `SWTPM_NVRAM_LoadData`: the blob, and whether the state in it is encrypted. -/
def getStateBlob (ivecLength : Nat) (filekey migrationkey : EncryptionKey) (plain : Bytes) (decrypt : Bool) :
    Except TpmResult (Bytes × Bool) × Nat :=
  let isEncrypted := decide (decrypt = false ∧ filekey.userKey ≠ [])
  let (td, ivecLength) :=
    if isEncrypted then nvramEncryptData C host ivecLength filekey tagEncryptedData plain tagIvecEncryptedData
    else (.ok [⟨tagData, plain⟩], ivecLength)
  match td >>= tlvDataAppend [] with
  | .error rc => (.error rc, ivecLength)
  | .ok buffer =>
      let (td, ivecLength) :=
        if migrationkey.userKey ≠ [] then
          nvramEncryptData C host ivecLength migrationkey tagEncryptedMigrationData buffer
            tagIvecEncryptedMigrationData
        else (.ok [⟨tagMigrationData, buffer⟩], ivecLength)
      ((fun data => (prependHeader data (stateBlobFlags isEncrypted filekey migrationkey), isEncrypted)) <$>
        (td >>= tlvDataAppend []), ivecLength)

/-- The first half of `SWTPM_NVRAM_SetStateBlob`: off with what was put on for the way. -/
def migrationPlain (migrationkey : EncryptionKey) (data : Bytes) (hdrflags hdrversion : Nat) : Reading Bytes :=
  if hdrflags &&& blobFlagMigrationEncrypted ≠ 0 then
    if migrationkey.userKey = [] then some (.error .keyNotFound)
    else nvramDecryptData C migrationkey data tagEncryptedMigrationData hdrversion tagIvecEncryptedMigrationData
      hdrflags blobFlagMigration256
  else some (getPlainData data tagMigrationData hdrversion)

/-- The second: the state under the file key. -/
def statePlain (filekey : EncryptionKey) (data : Bytes) (isEncrypted : Bool) (hdrflags hdrversion : Nat) :
    Reading Bytes :=
  if isEncrypted ∨ hdrflags &&& blobFlagEncrypted ≠ 0 then
    if filekey.userKey = [] then some (.error .keyNotFound)
    else nvramDecryptData C filekey data tagEncryptedData hdrversion tagIvecEncryptedData hdrflags
      blobFlagEncrypted256
  else some (getPlainData data tagData hdrversion)

/-- `SWTPM_NVRAM_SetStateBlob`: what it hands to `TPMLIB_SetState`, nothing if the blob is empty. -/
def setStateBlob (filekey migrationkey : EncryptionKey) (data : Bytes) (isEncrypted : Bool) :
    Reading (Option Bytes) :=
  if data = [] then some (.ok none)
  else do
    let (hdrflags, hdrversion, rest) ← checkHeader data
    if rest = [] then pure none
    else do
      let migDecrypt ← migrationPlain C migrationkey rest hdrflags hdrversion
      some <$> statePlain C filekey migDecrypt isEncrypted hdrflags hdrversion

end

/-! ## Records are found again -/

section
variable {C : StateCrypto} {host : IvecHost} {td : TlvData} {tds : List TlvData} {tag : Nat}

theorem TlvData.octets_length (td : TlvData) : td.octets.length = 6 + td.value.length := by
  simp only [TlvData.octets, List.length_append, be_length]
  omega

theorem tlvFind_cons (h : td.Fits) (rest : Bytes) (fuel : Nat) :
    tlvFind tag (fuel + 1) (td.octets ++ rest) = if td.tag = tag then some td.value else tlvFind tag fuel rest := by
  have hlen := td.octets_length
  have htag : (td.octets ++ rest).take 2 = be 2 td.tag := by
    rw [TlvData.octets, List.append_assoc, List.take_left' (be_length 2 _)]
  have hdrop : (td.octets ++ rest).drop 2 = be 4 td.value.length ++ (td.value ++ rest) := by
    rw [TlvData.octets, List.append_assoc, List.append_assoc, List.drop_left' (be_length 2 _)]
  have hsize : ((td.octets ++ rest).drop 2).take 4 = be 4 td.value.length := by
    rw [hdrop, List.take_left' (be_length 4 _)]
  have hvalue : (td.octets ++ rest).drop 6 = td.value ++ rest := by
    rw [show 6 = 2 + 4 from rfl, ← List.drop_drop, hdrop, List.drop_left' (be_length 4 _)]
  have htagWord : fromBe (be 2 td.tag) = td.tag := fromBe_be h.1
  have hsizeWord : fromBe (be 4 td.value.length) = td.value.length := fromBe_be h.2
  rw [tlvFind, if_neg (by rw [List.length_append, hlen]; omega), hsize, hvalue, htag, hsizeWord, htagWord]
  dsimp only
  rw [if_neg (by rw [List.length_append]; omega), List.take_left' rfl, List.drop_left' rfl]

theorem tlvFind_records (h : ∀ td ∈ tds, td.Fits) {fuel : Nat} (hfuel : tds.length ≤ fuel) :
    tlvFind tag (fuel + 1) (tds.flatMap TlvData.octets) =
      (tds.find? fun td => decide (td.tag = tag)).map TlvData.value := by
  induction tds generalizing fuel with
  | nil => rfl
  | cons td tds ih =>
      obtain ⟨fuel, rfl⟩ : ∃ n, fuel = n + 1 := ⟨fuel - 1, by simp only [List.length_cons] at hfuel; omega⟩
      rw [List.flatMap_cons, tlvFind_cons (h td List.mem_cons_self), List.find?_cons]
      by_cases htag : td.tag = tag
      · rw [if_pos htag, decide_eq_true htag]
        rfl
      · rw [if_neg htag, decide_eq_false htag]
        exact ih (fun td htd => h td (List.mem_cons_of_mem _ htd)) (Nat.le_of_succ_le_succ hfuel)

theorem records_length : tds.length ≤ (tds.flatMap TlvData.octets).length := by
  induction tds with
  | nil => exact Nat.le_refl 0
  | cons td tds ih =>
      rw [List.flatMap_cons, List.length_append, td.octets_length, List.length_cons]
      omega

theorem tlvDataFindTag_records (h : ∀ td ∈ tds, td.Fits) : tlvDataFindTag (tds.flatMap TlvData.octets) tag =
    (tds.find? fun td => decide (td.tag = tag)).map TlvData.value := by
  rw [tlvDataFindTag]
  cases tds with
  | nil => rfl
  | cons td tds =>
      have hrest : tds.length ≤ (tds.flatMap TlvData.octets).length := records_length
      have hlen : ((td :: tds).flatMap TlvData.octets).length =
          5 + td.value.length + (tds.flatMap TlvData.octets).length + 1 := by
        rw [List.flatMap_cons, List.length_append, td.octets_length]
        omega
      rw [hlen]
      apply tlvFind_records h
      rw [List.length_cons]
      omega

theorem records_sum : (tds.flatMap TlvData.octets).length = (tds.map fun t => 6 + t.value.length).sum := by
  induction tds with
  | nil => rfl
  | cons td tds ih => rw [List.flatMap_cons, List.length_append, td.octets_length, List.map_cons, List.sum_cons, ih]

theorem tlvDataAppend_ok {bytes : Bytes} (h : tlvDataAppend [] tds = .ok bytes) (htags : ∀ td ∈ tds, td.tag < 2 ^ 16) :
    bytes = tds.flatMap TlvData.octets ∧ ∀ td ∈ tds, td.Fits := by
  simp only [tlvDataAppend, List.length_nil, Nat.zero_add, List.nil_append] at h
  split at h
  · cases h
  · rename_i hle
    refine ⟨(Except.ok.inj h).symm, ?_⟩
    intro td htd
    have hone : 6 + td.value.length ≤ (tds.map fun t => 6 + t.value.length).sum := by
      obtain ⟨xs, ys, rfl⟩ := List.append_of_mem htd
      rw [← records_sum, List.flatMap_append, List.flatMap_cons, List.length_append, List.length_append,
        td.octets_length]
      omega
    exact ⟨htags td htd, by omega⟩

/-! ## The header is accepted -/

theorem prependHeader_length (data : Bytes) (flags : Nat) : (prependHeader data flags).length = 10 + data.length := by
  simp only [prependHeader, List.length_append, be_length, List.length_cons, List.length_nil]
  omega

theorem checkHeader_prependHeader {data : Bytes} {flags : Nat} (hflags : flags < 2 ^ 16)
    (hlen : 10 + data.length < 2 ^ 32) : checkHeader (prependHeader data flags) = some (.ok (flags, 2, data)) := by
  have hwhole := prependHeader_length data flags
  have h2 : (prependHeader data flags).drop 2 =
      be 2 10 ++ (be 2 flags ++ (be 4 (w32 (10 + data.length)) ++ data)) := rfl
  have h4 : (prependHeader data flags).drop 4 = be 2 flags ++ (be 4 (w32 (10 + data.length)) ++ data) := by
    rw [show 4 = 2 + 2 from rfl, ← List.drop_drop, h2, List.drop_left' (be_length 2 _)]
  have h6 : (prependHeader data flags).drop 6 = be 4 (w32 (10 + data.length)) ++ data := by
    rw [show 6 = 4 + 2 from rfl, ← List.drop_drop, h4, List.drop_left' (be_length 2 _)]
  have h10 : (prependHeader data flags).drop 10 = data := by
    rw [show 10 = 6 + 4 from rfl, ← List.drop_drop, h6, List.drop_left' (be_length 4 _)]
  have htotlen : fromBe (be 4 (10 + data.length)) = 10 + data.length := fromBe_be hlen
  have hflagsWord : fromBe (be 2 flags) = flags := fromBe_be hflags
  have hhdrsize : fromBe (be 2 10) = 10 := fromBe_be (by decide)
  have hversion : (prependHeader data flags).getD 0 0 = 2 := rfl
  have hmin : (prependHeader data flags).getD 1 0 = 1 := rfl
  rw [checkHeader, if_neg (by omega), if_neg (by omega), h6, List.take_left' (be_length 4 _), w32_of_lt hlen, htotlen,
    hwhole, if_neg (not_not.mpr rfl), hmin, if_neg (by decide), h2, List.take_left' (be_length 2 _), hhdrsize,
    if_neg (not_not.mpr rfl), h4, List.take_left' (be_length 2 _), hflagsWord, hversion, h10]
  rfl

/-! ## Encryption is undone -/

/-- What the code relies on in OpenSSL. -/
structure StateCrypto.Lawful (C : StateCrypto) : Prop where
  decrypt : ∀ {key iv data encrypted : Bytes}, key.length = 16 ∨ key.length = 32 → iv.length = 16 →
    data.length % 16 = 0 → C.cbcEncrypt key iv data = some encrypted → C.cbcDecrypt key iv encrypted = some data
  hmac : ∀ {key data md : Bytes}, C.hmac key data = some md → md.length = 32

/-- The keys that `SWTPM_NVRAM_KeyParamCheck` lets through, or none. -/
def EncryptionKey.Admitted (key : EncryptionKey) : Prop :=
  key.userKey = [] ∨ (key.dataEncmode = .aesCbc ∧ (key.userKey.length = 16 ∨ key.userKey.length = 32))

theorem setKey_admitted {old : EncryptionKey} (hold : old.Admitted) (key : Bytes) (encmode : EncryptionMode) :
    (setKey old key encmode).2.Admitted := by
  simp only [setKey]
  split
  · rename_i hrc
    rw [keyParamCheck] at hrc
    split at hrc
    · cases hrc
    · rename_i hmode
      split at hrc
      · cases hrc
      · rename_i hlen
        refine .inr ⟨?_, ?_⟩
        · cases encmode with
          | unknown => exact absurd rfl hmode
          | aesCbc => rfl
        · dsimp only
          omega
  · exact hold

theorem cipherIvec_length {key iv : Bytes} {ivec : Option Bytes} (hkey : key.length = 16 ∨ key.length = 32)
    (h : cipherIvec key ivec = some iv) : iv.length = 16 := by
  cases ivec with
  | none =>
      obtain rfl := Option.some.inj h
      exact List.length_replicate
  | some ivec =>
      simp only [cipherIvec] at h
      split at h
      · obtain rfl := Option.some.inj h
        rw [List.length_take]
        omega
      · cases h

theorem unpad_padded {keylen n : Nat} (hpos : 0 < n) (hle : n ≤ keylen) (hbyte : n < 256) (data : Bytes) :
    unpad keylen (data ++ List.replicate n (UInt8.ofNat n)) = .ok data := by
  have hword : (UInt8.ofNat n).toNat = n := UInt8.toNat_ofNat_of_lt' hbyte
  have hlast : (data ++ List.replicate n (UInt8.ofNat n)).getLastD 0 = UInt8.ofNat n := by
    obtain ⟨m, rfl⟩ : ∃ m, n = m + 1 := ⟨n - 1, by omega⟩
    rw [List.replicate_succ', ← List.append_assoc, List.getLastD_concat]
  have hlen : (data ++ List.replicate n (UInt8.ofNat n)).length - n = data.length := by
    rw [List.length_append, List.length_replicate]
    omega
  rw [unpad, hlast, hword, hlen, if_neg (by omega), List.drop_left, List.take_left, if_pos]
  rw [List.all_eq_true]
  intro x hx
  rw [List.eq_of_mem_replicate hx, hword]
  exact beq_self_eq_true n

theorem symmetricKeyDataDecrypt_encrypt (hC : C.Lawful) {key : Bytes} (hkey : key.length = 16 ∨ key.length = 32)
    {ivec : Option Bytes} {data encrypted : Bytes} (h : symmetricKeyDataEncrypt C key ivec data = .ok encrypted) :
    symmetricKeyDataDecrypt C key ivec encrypted = .ok data := by
  simp only [symmetricKeyDataEncrypt] at h
  cases hiv : cipherIvec key ivec with
  | none =>
      rw [hiv] at h
      cases h
  | some iv =>
      rw [hiv] at h
      dsimp only at h
      have hmod := Nat.mod_lt data.length (show 0 < key.length by omega)
      generalize hpad : key.length - data.length % key.length = pad at h
      rw [if_neg (by omega)] at h
      cases henc : C.cbcEncrypt key iv (data ++ List.replicate pad (UInt8.ofNat pad)) with
      | none =>
          rw [henc] at h
          cases h
      | some c =>
          rw [henc] at h
          dsimp only at h
          split at h
          · rename_i hlen
            obtain rfl := Except.ok.inj h
            have hpadded : (data ++ List.replicate pad (UInt8.ofNat pad)).length = data.length + pad := by
              rw [List.length_append, List.length_replicate]
            have hblocks : (data ++ List.replicate pad (UInt8.ofNat pad)).length % 16 = 0 := by
              rw [hpadded]
              rcases hkey with hk | hk
              · rw [hk] at hpad
                omega
              · rw [hk] at hpad
                omega
            have hdec := hC.decrypt hkey (cipherIvec_length hkey hiv) hblocks henc
            have hge : key.length ≤ data.length + pad := by
              have hdiv := Nat.mod_add_div data.length key.length
              have hle := Nat.mod_le data.length key.length
              omega
            rw [symmetricKeyDataDecrypt, if_neg (by omega), hiv]
            dsimp only
            rw [if_neg (by omega), hdec]
            dsimp only
            rw [if_pos (by omega)]
            exact unpad_padded (by omega) (by omega) (by omega) data
          · cases h

/-- What one side has encrypted the other decrypts, if the header's flag says the size of the key. -/
theorem nvramDecryptData_encrypt (hC : C.Lawful) {key : EncryptionKey} (hkey : key.Admitted) (hne : key.userKey ≠ [])
    {ivecLength tagEncrypted tagIvec hdrflags flag256 : Nat} {data bytes : Bytes}
    (htags : tagEncrypted ≠ tagHmac ∧ tagIvec ≠ tagHmac ∧ tagEncrypted ≠ tagIvec)
    (hsmall : tagEncrypted < 2 ^ 16 ∧ tagIvec < 2 ^ 16)
    (hflag : hdrflags &&& flag256 ≠ 0 ↔ key.userKey.length = 32)
    (h : ((nvramEncryptData C host ivecLength key tagEncrypted data tagIvec).1 >>= tlvDataAppend []) = .ok bytes) :
    nvramDecryptData C key bytes tagEncrypted 2 tagIvec hdrflags flag256 = some (.ok data) := by
  obtain ⟨hmode, hlen⟩ := hkey.resolve_left hne
  simp only [nvramEncryptData] at h
  rw [if_neg hne, hmode] at h
  dsimp only at h
  generalize (rollAndSetGlobalIvec host ivecLength key.userKey.length).1 = ivec at h
  obtain ⟨td, htd, happend⟩ := Transition.bind_eq_ok h
  obtain ⟨encrypted, henc, htd⟩ := Transition.bind_eq_ok htd
  cases hmac : swtpmHmac C key.userKey encrypted ivec with
  | none =>
      rw [hmac] at htd
      cases htd
  | some md =>
      rw [hmac] at htd
      obtain rfl := Except.ok.inj htd
      obtain ⟨rfl, hfits⟩ := tlvDataAppend_ok happend (by
        intro td htd
        rcases List.mem_cons.mp htd with rfl | htd
        · exact hsmall.1
        · rcases List.mem_cons.mp htd with rfl | htd
          · exact (by decide : tagHmac < 2 ^ 16)
          · obtain ⟨iv, -, rfl⟩ := List.mem_map.mp htd
            exact hsmall.2)
      have hfind : ∀ tag, tlvDataFindTag _ tag = _ := fun tag => tlvDataFindTag_records hfits
      have hfindHmac : tlvDataFindTag ((⟨tagEncrypted, encrypted⟩ :: ⟨tagHmac, md⟩ ::
          ivec.toList.map (⟨tagIvec, ·⟩) : List TlvData).flatMap TlvData.octets) tagHmac = some md := by
        rw [hfind, List.find?_cons_of_neg (by simpa using htags.1), List.find?_cons_of_pos (by simp)]
        rfl
      have hfindData : tlvDataFindTag ((⟨tagEncrypted, encrypted⟩ :: ⟨tagHmac, md⟩ ::
          ivec.toList.map (⟨tagIvec, ·⟩) : List TlvData).flatMap TlvData.octets) tagEncrypted = some encrypted := by
        rw [hfind, List.find?_cons_of_pos (by simp)]
        rfl
      have hfindIvec : tlvDataFindTag ((⟨tagEncrypted, encrypted⟩ :: ⟨tagHmac, md⟩ ::
          ivec.toList.map (⟨tagIvec, ·⟩) : List TlvData).flatMap TlvData.octets) tagIvec = ivec := by
        rw [hfind, List.find?_cons_of_neg (by simpa using htags.2.2),
          List.find?_cons_of_neg (by simpa using htags.2.1.symm)]
        cases ivec with
        | none => rfl
        | some iv =>
            rw [Option.toList_some, List.map_singleton, List.find?_cons_of_pos (by simp)]
            rfl
      have hmdlen : md.length = 32 := hC.hmac hmac
      have hcheck : checkHmac C md encrypted key.userKey ivec = .success := by
        rw [checkHmac, if_neg (by omega), hmac]
        dsimp only
        rw [List.take_length, if_pos rfl]
      have hsize : key.userKey.length = if hdrflags &&& flag256 ≠ 0 then 32 else 16 := by
        split
        · rename_i hset
          exact hflag.mp hset
        · rename_i hclear
          have hno : key.userKey.length ≠ 32 := fun hk => hclear (hflag.mpr hk)
          omega
      rw [nvramDecryptData, if_neg hne, hmode]
      dsimp only
      rw [if_neg (by decide), if_pos rfl, if_neg (not_not.mpr hsize), hfindHmac, hfindData]
      dsimp only
      rw [hfindIvec, hcheck, if_pos rfl]
      exact congrArg some (symmetricKeyDataDecrypt_encrypt hC hlen henc)

theorem getPlainData_append {tag : Nat} (htag : tag < 2 ^ 16) {data bytes : Bytes}
    (h : tlvDataAppend [] [⟨tag, data⟩] = .ok bytes) : getPlainData bytes tag 2 = .ok data := by
  obtain ⟨rfl, hfits⟩ := tlvDataAppend_ok h (by
    intro td htd
    obtain rfl := List.mem_singleton.mp htd
    exact htag)
  rw [getPlainData, if_neg (by decide), if_pos rfl, tlvDataFindTag_records hfits, List.find?_cons_of_pos (by simp)]
  rfl

/-- Records under a header. -/
def sealRecords (td : Except TpmResult (List TlvData)) (flags : Nat) : Except TpmResult Bytes := do
  let filedata ← tlvDataAppend [] (← td)
  pure (prependHeader filedata flags)

theorem sealRecords_eq_ok {td : Except TpmResult (List TlvData)} {flags : Nat} {filedata : Bytes}
    (h : sealRecords td flags = .ok filedata) :
    ∃ bytes, (td >>= tlvDataAppend []) = .ok bytes ∧ filedata = prependHeader bytes flags := by
  obtain ⟨tds, rfl, hrest⟩ := Transition.bind_eq_ok h
  obtain ⟨bytes, happend, hblob⟩ := Transition.bind_eq_ok hrest
  exact ⟨bytes, happend, (Except.ok.inj hblob).symm⟩

/-- The flags of a file that is encrypted. -/
def fileFlags (filekey : EncryptionKey) : Nat :=
  blobFlagEncrypted ||| (if filekey.userKey.length = 32 then blobFlagEncrypted256 else 0)

theorem fileFlags_spec (filekey : EncryptionKey) :
    fileFlags filekey < 2 ^ 16 ∧ (fileFlags filekey &&& blobFlagEncrypted256 ≠ 0 ↔ filekey.userKey.length = 32) := by
  rw [fileFlags]
  split
  · rename_i hk
    exact ⟨by decide, iff_of_true (by decide) hk⟩
  · rename_i hk
    exact ⟨by decide, iff_of_false (by decide) hk⟩

theorem nvramStoreBlob_plain {filekey : EncryptionKey} (hne : filekey.userKey = []) (ivecLength : Nat) (data : Bytes) :
    nvramStoreBlob C host ivecLength filekey data true = (sealRecords (.ok [⟨tagData, data⟩]) 0, ivecLength) := by
  have hno : ¬(true = true ∧ filekey.userKey ≠ []) := fun hand => hand.2 hne
  rw [nvramStoreBlob, if_neg hno, if_neg hno]
  rfl

theorem nvramStoreBlob_encrypted {filekey : EncryptionKey} (hne : filekey.userKey ≠ []) (ivecLength : Nat)
    (data : Bytes) : nvramStoreBlob C host ivecLength filekey data true =
      (sealRecords (nvramEncryptData C host ivecLength filekey tagEncryptedData data tagIvecEncryptedData).1
        (fileFlags filekey),
        (nvramEncryptData C host ivecLength filekey tagEncryptedData data tagIvecEncryptedData).2) := by
  have hyes : true = true ∧ filekey.userKey ≠ [] := ⟨rfl, hne⟩
  rw [nvramStoreBlob, if_pos hyes, if_pos hyes]
  rfl

/-- **Round trip.** What `SWTPM_NVRAM_StoreData` gave to the backend, `SWTPM_NVRAM_LoadData` takes apart again. -/
theorem nvramLoadBlob_storeBlob (hC : C.Lawful) {filekey : EncryptionKey} (hkey : filekey.Admitted) {ivecLength : Nat}
    {data filedata : Bytes} (h : (nvramStoreBlob C host ivecLength filekey data true).1 = .ok filedata)
    (hlen : filedata.length < 2 ^ 32) : nvramLoadBlob C filekey filedata = some (.ok data) := by
  by_cases hne : filekey.userKey = []
  · rw [nvramStoreBlob_plain hne] at h
    obtain ⟨bytes, happend, rfl⟩ := sealRecords_eq_ok h
    rw [prependHeader_length] at hlen
    rw [nvramLoadBlob, checkHeader_prependHeader (by decide) hlen]
    show getDecryptedData C filekey bytes tagEncryptedData tagData 2 tagIvecEncryptedData 0 blobFlagEncrypted256 = _
    rw [getDecryptedData, if_neg (not_not.mpr hne)]
    exact congrArg some (getPlainData_append (by decide) happend)
  · rw [nvramStoreBlob_encrypted hne] at h
    obtain ⟨bytes, happend, rfl⟩ := sealRecords_eq_ok h
    obtain ⟨hsmall, hsize⟩ := fileFlags_spec filekey
    rw [prependHeader_length] at hlen
    rw [nvramLoadBlob, checkHeader_prependHeader hsmall hlen]
    show getDecryptedData C filekey bytes tagEncryptedData tagData 2 tagIvecEncryptedData _ blobFlagEncrypted256 = _
    rw [getDecryptedData, if_pos hne]
    exact nvramDecryptData_encrypt hC hkey hne ⟨by decide, by decide, by decide⟩ ⟨by decide, by decide⟩ hsize happend

/-! ## Where no octet is read past the end -/

theorem nvramDecryptData_returns {key : EncryptionKey} {data : Bytes} {tagEncrypted hdrversion tagIvec hdrflags : Nat}
    {flag256 : Nat} (hversion : hdrversion ≠ 1) :
    ∃ r, nvramDecryptData C key data tagEncrypted hdrversion tagIvec hdrflags flag256 = some r := by
  rw [nvramDecryptData]
  split
  · exact ⟨_, rfl⟩
  · cases key.dataEncmode with
    | unknown => exact ⟨_, rfl⟩
    | aesCbc =>
        dsimp only
        split
        · exact ⟨_, rfl⟩
        · exact ⟨_, rfl⟩

/-- A header of this version, and what follows it. -/
def Framed (filedata : Bytes) : Prop :=
  ∃ data flags, filedata = prependHeader data flags ∧ flags < 2 ^ 16 ∧ 10 + data.length < 2 ^ 32

theorem nvramStoreBlob_framed {filekey : EncryptionKey} {ivecLength : Nat} {data filedata : Bytes}
    (h : (nvramStoreBlob C host ivecLength filekey data true).1 = .ok filedata) (hlen : filedata.length < 2 ^ 32) :
    Framed filedata := by
  by_cases hne : filekey.userKey = []
  · rw [nvramStoreBlob_plain hne] at h
    obtain ⟨bytes, -, rfl⟩ := sealRecords_eq_ok h
    rw [prependHeader_length] at hlen
    exact ⟨bytes, 0, rfl, by decide, hlen⟩
  · rw [nvramStoreBlob_encrypted hne] at h
    obtain ⟨bytes, -, rfl⟩ := sealRecords_eq_ok h
    rw [prependHeader_length] at hlen
    exact ⟨bytes, _, rfl, (fileFlags_spec filekey).1, hlen⟩

theorem nvramLoadBlob_returns {filekey : EncryptionKey} {filedata : Bytes} (h : Framed filedata) :
    ∃ r, nvramLoadBlob C filekey filedata = some r := by
  obtain ⟨data, flags, rfl, hflags, hlen⟩ := h
  rw [nvramLoadBlob, checkHeader_prependHeader hflags hlen]
  show ∃ r, getDecryptedData C filekey data tagEncryptedData tagData 2 tagIvecEncryptedData flags
    blobFlagEncrypted256 = some r
  rw [getDecryptedData]
  split
  · exact nvramDecryptData_returns (by decide)
  · exact ⟨_, rfl⟩

theorem migrationPlain_returns {migrationkey : EncryptionKey} {data : Bytes} {hdrflags hdrversion : Nat}
    (hversion : hdrversion ≠ 1) : ∃ r, migrationPlain C migrationkey data hdrflags hdrversion = some r := by
  rw [migrationPlain]
  split
  · split
    · exact ⟨_, rfl⟩
    · exact nvramDecryptData_returns hversion
  · exact ⟨_, rfl⟩

theorem statePlain_returns {filekey : EncryptionKey} {data : Bytes} {told : Bool} {hdrflags hdrversion : Nat}
    (hversion : hdrversion ≠ 1) : ∃ r, statePlain C filekey data told hdrflags hdrversion = some r := by
  rw [statePlain]
  split
  · split
    · exact ⟨_, rfl⟩
    · exact nvramDecryptData_returns hversion
  · exact ⟨_, rfl⟩

theorem checkHeader_none_iff {data : Bytes} : checkHeader data = none ↔ data.length = 8 ∨ data.length = 9 := by
  rw [checkHeader]
  constructor
  · intro h
    by_cases h8 : data.length < 8
    · rw [if_pos h8] at h
      cases h
    · by_cases h10 : data.length < 10
      · omega
      · rw [if_neg h8, if_neg h10] at h
        split at h
        · cases h
        · split at h
          · cases h
          · split at h
            · cases h
            · cases h
  · intro h
    rw [if_neg (by omega), if_pos (by omega)]

theorem checkHeader_version {data rest : Bytes} {hdrflags hdrversion : Nat}
    (h : checkHeader data = some (.ok (hdrflags, hdrversion, rest))) : hdrversion = (data.getD 0 0).toNat := by
  rw [checkHeader] at h
  split at h
  · cases h
  · split at h
    · cases h
    · split at h
      · cases h
      · split at h
        · cases h
        · split at h
          · cases h
          · cases h
            rfl

/-- **Main result.** A blob that does not say it is of version 1 is read past its end exactly where it is as long as a
pointer, or one octet longer. -/
theorem setStateBlob_reads_past_iff {filekey migrationkey : EncryptionKey} {data : Bytes} {told : Bool}
    (hversion : data.getD 0 0 ≠ 1) :
    setStateBlob C filekey migrationkey data told = none ↔ data.length = 8 ∨ data.length = 9 := by
  rw [setStateBlob, ← checkHeader_none_iff]
  by_cases hnil : data = []
  · subst hnil
    rw [if_pos rfl]
    exact iff_of_false nofun nofun
  · rw [if_neg hnil]
    rcases hhead : checkHeader data with _ | ⟨rc⟩ | ⟨hdrflags, hdrversion, rest⟩
    · exact iff_of_true rfl rfl
    · exact iff_of_false nofun nofun
    · have hword : hdrversion ≠ 1 := by
        rw [checkHeader_version hhead]
        exact fun hone => hversion (UInt8.toNat_inj.mp hone)
      refine iff_of_false ?_ nofun
      show ¬(if rest = [] then (some (.ok none) : Reading (Option Bytes)) else _) = none
      by_cases hrest : rest = []
      · rw [if_pos hrest]
        exact nofun
      · rw [if_neg hrest]
        obtain ⟨migDecrypt, hmig⟩ := @migrationPlain_returns C migrationkey rest hdrflags hdrversion hword
        rw [hmig]
        cases migDecrypt with
        | error rc => exact nofun
        | ok plain =>
            show ¬some <$> statePlain C filekey plain told hdrflags hdrversion = none
            obtain ⟨state, hstate⟩ := @statePlain_returns C filekey plain told hdrflags hdrversion hword
            rw [hstate]
            cases state with
            | error rc => exact nofun
            | ok state => exact nofun

/-! ## A blob is taken apart again -/

theorem stateBlobFlags_spec (isEncrypted : Bool) (filekey migrationkey : EncryptionKey) :
    stateBlobFlags isEncrypted filekey migrationkey < 2 ^ 16 ∧
      (stateBlobFlags isEncrypted filekey migrationkey &&& blobFlagMigrationEncrypted ≠ 0 ↔
        migrationkey.userKey ≠ []) ∧
      (stateBlobFlags isEncrypted filekey migrationkey &&& blobFlagMigration256 ≠ 0 ↔
        migrationkey.userKey.length = 32) ∧
      (stateBlobFlags isEncrypted filekey migrationkey &&& blobFlagEncrypted ≠ 0 ↔ isEncrypted = true) ∧
      (isEncrypted = true → (stateBlobFlags isEncrypted filekey migrationkey &&& blobFlagEncrypted256 ≠ 0 ↔
        filekey.userKey.length = 32)) := by
  rw [stateBlobFlags]
  by_cases hfile : filekey.userKey.length = 32 <;> by_cases hmig : migrationkey.userKey = [] <;>
    by_cases hsize : migrationkey.userKey.length = 32 <;> cases isEncrypted <;>
    simp [hfile, hmig, hsize, blobFlagEncrypted, blobFlagEncrypted256, blobFlagMigration256, blobFlagMigrationData,
      blobFlagMigrationEncrypted]

/-- Under a key or as it is, the state comes out of its records. -/
theorem statePlain_append (hC : C.Lawful) {filekey filekey' migrationkey : EncryptionKey} (hkey : filekey.Admitted)
    {ivecLength : Nat} {plain bytes : Bytes} {isEncrypted told : Bool} (htold : told = true → isEncrypted = true)
    (hhas : isEncrypted = true → filekey.userKey ≠ []) (hsame : isEncrypted = true → filekey' = filekey)
    (h : ((if isEncrypted then
        nvramEncryptData C host ivecLength filekey tagEncryptedData plain tagIvecEncryptedData
      else (.ok [⟨tagData, plain⟩], ivecLength)).1 >>= tlvDataAppend []) = .ok bytes) :
    statePlain C filekey' bytes told (stateBlobFlags isEncrypted filekey migrationkey) 2 = some (.ok plain) := by
  obtain ⟨-, -, -, hset, hsize⟩ := stateBlobFlags_spec isEncrypted filekey migrationkey
  cases isEncrypted with
  | true =>
      obtain rfl := hsame rfl
      rw [if_pos rfl] at h
      rw [statePlain, if_pos (.inr (hset.mpr rfl)), if_neg (hhas rfl)]
      exact nvramDecryptData_encrypt hC hkey (hhas rfl) ⟨by decide, by decide, by decide⟩ ⟨by decide, by decide⟩
        (hsize rfl) h
  | false =>
      rw [if_neg Bool.false_ne_true] at h
      have hno : ¬(told = true ∨ stateBlobFlags false filekey migrationkey &&& blobFlagEncrypted ≠ 0) := fun hor =>
        hor.elim (fun ht => Bool.false_ne_true (htold ht)) fun hne => Bool.false_ne_true (hset.mp hne)
      rw [statePlain, if_neg hno]
      exact congrArg some (getPlainData_append (by decide) h)

theorem migrationPlain_append (hC : C.Lawful) {filekey migrationkey migrationkey' : EncryptionKey}
    (hkey : migrationkey.Admitted) {ivecLength : Nat} {buffer bytes : Bytes} {isEncrypted : Bool}
    (hsame : migrationkey.userKey ≠ [] → migrationkey' = migrationkey)
    (h : ((if migrationkey.userKey ≠ [] then
        nvramEncryptData C host ivecLength migrationkey tagEncryptedMigrationData buffer
          tagIvecEncryptedMigrationData
      else (.ok [⟨tagMigrationData, buffer⟩], ivecLength)).1 >>= tlvDataAppend []) = .ok bytes) :
    migrationPlain C migrationkey' bytes (stateBlobFlags isEncrypted filekey migrationkey) 2 = some (.ok buffer) := by
  obtain ⟨-, hset, hsize, -, -⟩ := stateBlobFlags_spec isEncrypted filekey migrationkey
  by_cases hne : migrationkey.userKey ≠ []
  · obtain rfl := hsame hne
    rw [if_pos hne] at h
    rw [migrationPlain, if_pos (hset.mpr hne), if_neg hne]
    exact nvramDecryptData_encrypt hC hkey hne ⟨by decide, by decide, by decide⟩ ⟨by decide, by decide⟩ hsize h
  · rw [if_neg hne] at h
    rw [migrationPlain, if_neg fun hand => hne (hset.mp hand)]
    exact congrArg some (getPlainData_append (by decide) h)

/-- Where there is no record there is nothing to take out. -/
theorem migrationPlain_nil {migrationkey : EncryptionKey} {hdrflags : Nat} {buffer : Bytes} :
    migrationPlain C migrationkey [] hdrflags 2 ≠ some (.ok buffer) := by
  intro h
  rw [migrationPlain] at h
  split at h
  · rename_i hset
    split at h
    · cases h
    · rename_i hne
      cases hmode : migrationkey.dataEncmode with
      | unknown =>
          rw [nvramDecryptData, if_neg hne, hmode] at h
          cases h
      | aesCbc =>
          rw [nvramDecryptData, if_neg hne, hmode] at h
          dsimp only at h
          rw [if_neg (by decide), if_pos rfl] at h
          by_cases hsize : migrationkey.userKey.length ≠ (if hdrflags &&& blobFlagMigration256 ≠ 0 then 32 else 16)
          · rw [if_pos hsize] at h
            cases h
          · have hnone : ∀ tag, tlvDataFindTag [] tag = none := fun _ => rfl
            rw [if_neg hsize, hnone] at h
            cases h
  · cases h

/-- **Migration.** The blob that one host takes from its state sets the state of another that has the keys the blob
asks for, and no others matter. -/
theorem setStateBlob_getStateBlob (hC : C.Lawful) {filekey migrationkey filekey' migrationkey' : EncryptionKey}
    (hfile : filekey.Admitted) (hmig : migrationkey.Admitted) {ivecLength : Nat} {plain blob : Bytes}
    {decrypt isEncrypted told : Bool}
    (h : (getStateBlob C host ivecLength filekey migrationkey plain decrypt).1 = .ok (blob, isEncrypted))
    (hlen : blob.length < 2 ^ 32) (hsame : isEncrypted = true → filekey' = filekey)
    (hsame' : migrationkey.userKey ≠ [] → migrationkey' = migrationkey) (htold : told = true → isEncrypted = true) :
    setStateBlob C filekey' migrationkey' blob told = some (.ok (some plain)) := by
  simp only [getStateBlob] at h
  generalize henc : decide (decrypt = false ∧ filekey.userKey ≠ []) = enc at h
  generalize hstate : (if enc = true then
    nvramEncryptData C host ivecLength filekey tagEncryptedData plain tagIvecEncryptedData
    else (.ok [⟨tagData, plain⟩], ivecLength)) = state at h
  cases hbuffer : state.1 >>= tlvDataAppend [] with
  | error rc =>
      rw [hbuffer] at h
      cases h
  | ok buffer =>
      rw [hbuffer] at h
      dsimp only at h
      obtain ⟨data, hdata, hblob⟩ := Transition.map_eq_ok h
      obtain ⟨rfl, rfl⟩ := Prod.mk.inj hblob
      have hhas : enc = true → filekey.userKey ≠ [] := by
        rintro rfl
        exact (of_decide_eq_true henc).2
      have hplain : statePlain C filekey' buffer told (stateBlobFlags enc filekey migrationkey) 2 = some (.ok plain) :=
        statePlain_append hC hfile htold hhas hsame (by rw [hstate]; exact hbuffer)
      have hbuf : migrationPlain C migrationkey' data (stateBlobFlags enc filekey migrationkey) 2 = some (.ok buffer) :=
        migrationPlain_append hC hmig hsame' hdata
      have hne : data ≠ [] := by
        rintro rfl
        exact migrationPlain_nil hbuf
      rw [prependHeader_length] at hlen
      have hhead : prependHeader data (stateBlobFlags enc filekey migrationkey) ≠ [] := by
        rw [prependHeader]
        exact List.cons_ne_nil _ _
      rw [setStateBlob, if_neg hhead, checkHeader_prependHeader (stateBlobFlags_spec _ _ _).1 hlen]
      show (if data = [] then _ else _) = _
      rw [if_neg hne, hbuf]
      show some <$> statePlain C filekey' buffer told _ 2 = _
      rw [hplain]
      rfl

/-! ## The buffer for the IV -/

theorem rollAndSetGlobalIvec_le (ivecLength needed : Nat) :
    ivecLength ≤ (rollAndSetGlobalIvec host ivecLength needed).2 := by
  rw [rollAndSetGlobalIvec]
  split
  · split
    · dsimp only
      omega
    · exact Nat.le_refl _
  · exact Nat.le_refl _

theorem nvramEncryptData_le (ivecLength : Nat) (key : EncryptionKey) (tagEncrypted : Nat) (data : Bytes)
    (tagIvec : Nat) : ivecLength ≤ (nvramEncryptData C host ivecLength key tagEncrypted data tagIvec).2 := by
  rw [nvramEncryptData]
  split
  · exact Nat.le_refl _
  · cases key.dataEncmode with
    | unknown => exact Nat.le_refl _
    | aesCbc => exact rollAndSetGlobalIvec_le ivecLength key.userKey.length

/-- The buffer is as long as the longest key it was used with, and so is the IV: too long for a shorter key. -/
theorem nvramEncryptData_refused {ivecLength : Nat} {key : EncryptionKey} (hne : key.userKey ≠ [])
    (hmode : key.dataEncmode = .aesCbc) (hrandom : ∀ n, (host.random n).length = n)
    (hlong : key.userKey.length < ivecLength) (tagEncrypted : Nat) (data : Bytes) (tagIvec : Nat) :
    nvramEncryptData C host ivecLength key tagEncrypted data tagIvec = (.error .encryptError, ivecLength) := by
  have hroll : rollAndSetGlobalIvec host ivecLength key.userKey.length =
      (some (host.random ivecLength), ivecLength) := by
    rw [rollAndSetGlobalIvec, if_neg (by omega)]
  have hivec : cipherIvec key.userKey (some (host.random ivecLength)) = none := by
    rw [cipherIvec, if_neg (by rw [hrandom]; omega)]
  rw [nvramEncryptData, if_neg hne, hmode, hroll]
  dsimp only
  rw [symmetricKeyDataEncrypt, hivec]
  rfl

end

/-! ## Two keys -/

def sampleFileKey : EncryptionKey := ⟨.aesCbc, (List.range 16).map UInt8.ofNat⟩

def sampleMigrationKey : EncryptionKey := ⟨.aesCbc, (List.range 32).map UInt8.ofNat⟩

/-- A state of three octets under the file key, padded and encrypted, and its HMAC. -/
def filePadded : Bytes := [97, 98, 99] ++ List.replicate 13 13

def fileCipher : Bytes :=
  [0x77, 0xa5, 0x77, 0xa4, 0x0f, 0x05, 0x9a, 0x0b, 0x13, 0xc8, 0xaa, 0x65, 0x30, 0xb1, 0x5c, 0xfc]

def fileMac : Bytes :=
  [0x49, 0x30, 0xde, 0xcf, 0x20, 0xdc, 0x68, 0xc8, 0xc7, 0x80, 0x43, 0x04, 0xc3, 0xfa, 0x6a, 0x82,
    0xb2, 0x8b, 0x9b, 0xb9, 0xe8, 0xbd, 0x2a, 0xc7, 0xbb, 0xc4, 0x7c, 0x00, 0xd4, 0x18, 0xea, 0xcc]

/-- The record of the state that is not encrypted, under the migration key. -/
def migrationPadded : Bytes := [0, 1, 0, 0, 0, 3, 97, 98, 99] ++ List.replicate 23 23

def migrationCipher : Bytes :=
  [0x5d, 0x8c, 0x63, 0x76, 0x17, 0x65, 0x50, 0xbd, 0xcc, 0x80, 0x1d, 0x28, 0xf1, 0x97, 0x40, 0x46,
    0xa5, 0x40, 0x69, 0x8a, 0xd4, 0xf9, 0x7c, 0xa7, 0x38, 0xe2, 0x3d, 0x29, 0x7b, 0xc3, 0x28, 0x4f]

def migrationMac : Bytes :=
  [0x7e, 0x7d, 0x72, 0x3e, 0xe4, 0x36, 0x4d, 0x46, 0x5f, 0x14, 0xc8, 0x9b, 0x4a, 0xba, 0x0e, 0xf1,
    0xdd, 0x76, 0x15, 0xc7, 0x38, 0x55, 0x89, 0x6b, 0xf1, 0xde, 0x68, 0x61, 0xa4, 0x4c, 0x44, 0x8c]

/-- AES-CBC and HMAC-SHA-256 where the examples need them. -/
def sampleCrypto : StateCrypto where
  cbcEncrypt key _ data :=
    some (if key.length = 16 then exchange filePadded fileCipher data
      else exchange migrationPadded migrationCipher data)
  cbcDecrypt key _ data :=
    some (if key.length = 16 then exchange filePadded fileCipher data
      else exchange migrationPadded migrationCipher data)
  hmac _ data :=
    some (if data = fileCipher ++ List.replicate 16 0x11 then fileMac
      else if data = migrationCipher ++ List.replicate 32 0x11 then migrationMac
      else List.replicate 32 0)
  sha256 _ := List.replicate 32 0

def sampleIvec : IvecHost where
  random n := List.replicate n 0x11
  grows := true

theorem sampleCrypto_lawful : sampleCrypto.Lawful where
  decrypt := by
    intro key iv data encrypted _ _ _ h
    obtain rfl := Option.some.inj h
    show some (if key.length = 16 then _ else _) = some data
    split
    · rw [exchange_exchange]
    · rw [exchange_exchange]
  hmac := by
    intro key data md h
    obtain rfl := Option.some.inj h
    split
    · rfl
    · split
      · rfl
      · rfl

/-- The blob that goes to the other host. -/
def sampleBlob : Bytes :=
  prependHeader ([⟨tagEncryptedMigrationData, migrationCipher⟩, ⟨tagHmac, migrationMac⟩,
    ⟨tagIvecEncryptedMigrationData, List.replicate 32 0x11⟩].flatMap TlvData.octets) 0x16

theorem getStateBlob_sampleBlob : getStateBlob sampleCrypto sampleIvec 0 noKey sampleMigrationKey [97, 98, 99] true =
    (.ok (sampleBlob, false), 32) := by
  decide +kernel

/-- Eight octets that begin like a header. -/
theorem setStateBlob_short : setStateBlob sampleCrypto noKey noKey [2, 1, 0, 10, 0, 0, 0, 0] false = none :=
  (@setStateBlob_reads_past_iff sampleCrypto noKey noKey [2, 1, 0, 10, 0, 0, 0, 0] false (by decide)).mpr (.inl rfl)

theorem setStateBlob_sampleBlob :
    setStateBlob sampleCrypto noKey sampleMigrationKey sampleBlob false = some (.ok (some [97, 98, 99])) := by
  apply @setStateBlob_getStateBlob sampleCrypto sampleIvec sampleCrypto_lawful noKey sampleMigrationKey noKey
    sampleMigrationKey (.inl rfl) (.inr ⟨rfl, .inr rfl⟩) 0 [97, 98, 99] sampleBlob true false false
  · rw [getStateBlob_sampleBlob]
  · decide +kernel
  · exact fun _ => rfl
  · exact fun _ => rfl
  · exact id

end PqcTpm
