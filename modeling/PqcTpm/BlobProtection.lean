import PqcTpm.Decapsulation
import PqcTpm.SymmetricModes
import PqcTpm.WireCodec

/-!
# Protected blobs

`Object_spt.c`: sensitive areas in private areas and in duplicates, secrets in credentials, and what takes them out
again. The wrap goes by the words at the start of the protector's parameters, whatever they are; what it has left
in the clear because no cipher has these words, the unwrapping leaves as it is.
-/
namespace PqcTpm
open ByteCodec BlockPass

/-- The primitives; KDFa, the hashes and the HMAC are of the crypto library. -/
structure BlobCrypto where
  ciphers : BlockCiphers
  kdfa : HashAlg → Bytes → String → Bytes → Nat → Bytes
  hmac : HashAlg → Bytes → Bytes → Bytes
  hash : HashAlg → Bytes → Bytes
  random : Nat → Bytes

structure BlobCrypto.Lawful (K : BlobCrypto) : Prop where
  ciphers : K.ciphers.Lawful
  hmac_length : ∀ h key text, (K.hmac h key text).length = h.digestSize
  hash_length : ∀ h text, (K.hash h text).length = h.digestSize
  random_length : ∀ n, (K.random n).length = n

/-- CFB without an IV that goes out. -/
def BlockCiphers.cfb (B : BlockCiphers) (decryptIn : Bool) (c : SymCipher) (key iv data : Bytes) : Bytes :=
  let encrypt := B.encrypt c (8 * key.length) key
  let step := if decryptIn then cfbDecryptStep c.blockSize encrypt else cfbEncryptStep c.blockSize encrypt
  (pass c.blockSize step (iv.take c.blockSize) data).1

/-- CFB under the words of a protector; what fails leaves the data, which is encrypted and decrypted in place. -/
def BlockCiphers.cfbWords (B : BlockCiphers) (decryptIn : Bool) (words : SymWords) (key iv data : Bytes) : Bytes :=
  match symSelector.all.find? fun c => symSelector.algId c == words.algorithm with
  | some c => if words.keyBits ∈ c.keyBits then B.cfb decryptIn c key iv data else data
  | none => data

def BlobCrypto.wrap (K : BlobCrypto) : WrapCrypto where
  kdfa := K.kdfa
  hmac := K.hmac
  random := K.random
  encryptCfb := K.ciphers.cfb false

def SymWords.blockSize (words : SymWords) : Nat := cryptGetSymmetricBlockSize words.algorithm words.keyBits

/-- `CryptHashGetDigestSize`, 0 for `TPM_ALG_NULL`. -/
def digestSizeOf (nameAlg : Option HashAlg) : Nat := nameAlg.elim 0 HashAlg.digestSize

section
variable (K : BlobCrypto)

/-! ## The outer wrap, undone -/

/-- The integrity value of `ComputeOuterIntegrity`. -/
def outerIntegrity (hashAlg : HashAlg) (seed : Bytes) (name : Tpm2bName) (area : Bytes) : Bytes :=
  K.hmac hashAlg (K.kdfa hashAlg seed "INTEGRITY" [] (hashAlg.digestSize * 8)) (area ++ name.buffer)

/-- The IV of a wrapped area, if it has one, and the encrypted data. -/
def unwrapIv (blockSize : Nat) (useIV : Bool) (area : Bytes) : Except Fault (Bytes × Bytes) :=
  if useIV then
    match Tpm2b.unmarshal 16 area with
    | .error e => .error e
    | .ok (iv, data) => if iv.size ≠ blockSize then .error (.of .value) else .ok (iv.buffer, data)
  else .ok (List.replicate 16 0, area)

/-- `UnwrapOuter`: the buffer with its data decrypted in place. -/
def unwrapOuter (protector : Object) (w : Stale) (name : Tpm2bName) (hashAlg : HashAlg) (seed : Option Bytes) (useIV : Bool)
    (outerBuffer : Bytes) : Except Fault Bytes :=
  match Tpm2b.unmarshal 64 outerBuffer with
  | .error e => .error e
  | .ok (integrity, area) =>
      let seedValue := seed.getD protector.sensitive.seedValue.buffer
      if integrity.buffer ≠ outerIntegrity K hashAlg seedValue name area then .error (.of .integrity)
      else
        let words := protector.publicArea.symmetricWords w
        let key := protectionKey K.wrap hashAlg seedValue name.buffer words.keyBits
        (unwrapIv words.blockSize useIV area).map fun (iv, data) =>
          outerBuffer.take (outerBuffer.length - data.length) ++ K.ciphers.cfbWords true words key iv data

/-! ## Sensitive areas -/

/-- `MemoryPad2B` on the authorization value; a public area alone has none. -/
def TpmtSensitive.padded (size : Nat) (s : TpmtSensitive) : TpmtSensitive :=
  match s with
  | ⟨authValue, seedValue, some c, _⟩ =>
      ⟨.ofBytes (authValue.buffer ++ List.replicate (size - authValue.size) 0), seedValue, some c, nofun⟩
  | ⟨authValue, seedValue, none, h⟩ => ⟨authValue, seedValue, none, h⟩

/-- `MarshalSensitive`; an authorization value that is longer than the digests of the name algorithm is padded by a
negative number. -/
def marshalSensitive (nameAlg : Option HashAlg) (s : TpmtSensitive) : Except Fault Bytes :=
  if digestSizeOf nameAlg < s.authValue.size then .error .overrun
  else (s.padded (digestSizeOf nameAlg)).marshalWire.map fun data => be 2 data.length ++ data

/-- The end of `PrivateToSensitive` and of `DuplicateToSensitive`, which differ in their answers. -/
def unmarshalSensitive (size : Fault) (answer : Fault → Fault) (data : Bytes) : Except Fault TpmtSensitive :=
  match readUint16 data with
  | .error e => .error e
  | .ok (dataSizeInput, buffer) =>
      if dataSizeInput + 2 ≠ data.length then .error size
      else
        match TpmtSensitive.unmarshalWire buffer with
        | .error e => .error (answer e)
        | .ok (sensitive, rest) => if rest.isEmpty then .ok sensitive else .error size

/-- `SensitiveToPrivate`; a parent has a name algorithm. -/
def sensitiveToPrivate (parent : Object) (w : Stale) (name : Tpm2bName) (nameAlg : Option HashAlg) (s : TpmtSensitive) :
    Except Fault Bytes :=
  if name.size = 0 then .error .failureMode
  else
    match parent.publicArea.nameAlg with
    | none => .error .failureMode
    | some hashAlg => (marshalSensitive nameAlg s).map (produceOuterWrap K.wrap parent w name hashAlg none true)

/-- `PrivateToSensitive`. -/
def privateToSensitive (parent : Object) (w : Stale) (name : Tpm2bName) (inPrivate : Bytes) : Except Fault TpmtSensitive :=
  if name.size = 0 then .error .failureMode
  else
    match parent.publicArea.nameAlg with
    | none => .error .failureMode
    | some hashAlg =>
        match unwrapOuter K parent w name hashAlg none true inPrivate with
        | .error e => .error e
        | .ok buffer =>
            let ivSize := 2 + (parent.publicArea.symmetricWords w).blockSize
            unmarshalSensitive (.of .sensitive) (fun _ => .of .sensitive)
              (buffer.drop (2 + hashAlg.digestSize + ivSize))

/-! ## Duplicates -/

/-- `ComputeInnerIntegrity`. -/
def innerIntegrity (nameAlg : Option HashAlg) (name : Tpm2bName) (data : Bytes) : Bytes :=
  nameAlg.elim [] fun h => K.hash h (data ++ name.buffer)

/-- `ProduceInnerIntegrity`. -/
def produceInnerIntegrity (nameAlg : Option HashAlg) (name : Tpm2bName) (data : Bytes) : Bytes :=
  let integrity := innerIntegrity K nameAlg name data
  be 2 integrity.length ++ (integrity ++ data)

/-- `CheckInnerIntegrity`. -/
def checkInnerIntegrity (nameAlg : Option HashAlg) (name : Tpm2bName) (innerBuffer : Bytes) : Except Fault Unit :=
  match Tpm2b.unmarshal 64 innerBuffer with
  | .error e => .error e
  | .ok (integrity, data) =>
      if integrity.buffer ≠ innerIntegrity K nameAlg name data then .error (.of .integrity) else .ok ()

/-- The inner wrap: the wrapped data, and the key that goes out if the TPM has made it. -/
def innerWrap (name : Tpm2bName) (nameAlg : Option HashAlg) (symDef : TpmtSymDefObject) (innerSymKey data : Bytes) :
    Except Fault (Bytes × Bytes) :=
  match symDef with
  | none => .ok (data, innerSymKey)
  | some d =>
      let size := (d.keyBits + 7) / 8
      let inner := produceInnerIntegrity K nameAlg name data
      if innerSymKey.isEmpty then
        .ok (K.ciphers.cfb false d.algorithm (K.random size) (List.replicate 16 0) inner, K.random size)
      else if innerSymKey.length ≠ size then .error .failureMode
      else .ok (K.ciphers.cfb false d.algorithm innerSymKey (List.replicate 16 0) inner, [])

/-- `SensitiveToDuplicate`: the duplicate and `innerSymKey` afterwards. A duplicate for nobody has no parent and no seed. -/
def sensitiveToDuplicate (parent : Option Object) (w : Stale) (name : Tpm2bName) (nameAlg : Option HashAlg) (seed : Bytes)
    (symDef : TpmtSymDefObject) (innerSymKey : Bytes) (s : TpmtSensitive) : Except Fault (Bytes × Bytes) :=
  if name.size = 0 then .error .failureMode
  else
    match marshalSensitive nameAlg s with
    | .error e => .error e
    | .ok data =>
        match innerWrap K name nameAlg symDef innerSymKey data with
        | .error e => .error e
        | .ok (data, keyOut) =>
            if seed.isEmpty then .ok (data, keyOut)
            else
              match parent with
              | none => .error .overrun
              | some parent =>
                  match parent.publicArea.nameAlg with
                  | none => .error .failureMode
                  | some outerHash => .ok (produceOuterWrap K.wrap parent w name outerHash (some seed) false data, keyOut)

/-- The outer wrap of a duplicate, if there is one, taken off. -/
def outerUnwrap (parent : Object) (w : Stale) (name : Tpm2bName) (seed inPrivate : Bytes) : Except Fault Bytes :=
  if seed.isEmpty then .ok inPrivate
  else
    match parent.publicArea.nameAlg with
    | none => .error .failureMode
    | some outerHash =>
        (unwrapOuter K parent w name outerHash (some seed) false inPrivate).map (List.drop (2 + outerHash.digestSize))

/-- The inner wrap, if there is one, taken off. -/
def innerUnwrap (name : Tpm2bName) (nameAlg : Option HashAlg) (symDef : TpmtSymDefObject) (innerSymKey data : Bytes) :
    Except Fault Bytes :=
  match symDef with
  | none => .ok data
  | some d =>
      if innerSymKey.length ≠ (d.keyBits + 7) / 8 then .error .failureMode
      else
        let inner := K.ciphers.cfb true d.algorithm innerSymKey (List.replicate 16 0) data
        (checkInnerIntegrity K nameAlg name inner).map fun _ => inner.drop (2 + digestSizeOf nameAlg)

/-- What the outer wrap of a duplicate contains. -/
def innerToSensitive (name : Tpm2bName) (nameAlg : Option HashAlg) (symDef : TpmtSymDefObject) (innerSymKey data : Bytes) :
    Except Fault TpmtSensitive :=
  match innerUnwrap K name nameAlg symDef innerSymKey data with
  | .error e => .error e
  | .ok data => unmarshalSensitive (.of .size) id data

/-- `DuplicateToSensitive`. -/
def duplicateToSensitive (parent : Object) (w : Stale) (name : Tpm2bName) (nameAlg : Option HashAlg) (seed : Bytes)
    (symDef : TpmtSymDefObject) (innerSymKey inPrivate : Bytes) : Except Fault TpmtSensitive :=
  if name.size = 0 then .error .failureMode
  else
    match outerUnwrap K parent w name seed inPrivate with
    | .error e => .error e
    | .ok data => innerToSensitive K name nameAlg symDef innerSymKey data

/-! ## Credentials -/

/-- `SecretToCredential`. -/
def secretToCredential (protector : Object) (w : Stale) (name : Tpm2bName) (seed : Bytes) (secret : Tpm2bDigest) :
    Except Fault Bytes :=
  match protector.publicArea.nameAlg with
  | none => .error .failureMode
  | some outerHash => .ok (produceOuterWrap K.wrap protector w name outerHash (some seed) false secret.marshal)

/-- `CredentialToSecret`. -/
def credentialToSecret (protector : Object) (w : Stale) (name : Tpm2bName) (seed inIDObject : Bytes) : Except Fault Tpm2bDigest :=
  match protector.publicArea.nameAlg with
  | none => .error .failureMode
  | some outerHash =>
      match unwrapOuter K protector w name outerHash (some seed) false inIDObject with
      | .error e => .error e
      | .ok buffer =>
          match Tpm2b.unmarshal 64 (buffer.drop (2 + outerHash.digestSize)) with
          | .error e => .error e
          | .ok (secret, rest) => if rest.isEmpty then .ok secret else .error (.of .size)

end

/-! ## CFB there and back -/

section Cfb
variable {B : BlockCiphers}

theorem BlockCiphers.Lawful.cfb (h : B.Lawful) {c : SymCipher} {iv : Bytes} (hiv : c.blockSize ≤ iv.length) (key data : Bytes) :
    (B.cfb false c key iv data).length = data.length ∧ B.cfb true c key iv (B.cfb false c key iv data) = data := by
  have hpos : 0 < c.blockSize := by cases c <;> decide
  have hundo := cfbStep_undoes (h.length c (8 * key.length) key)
  have hgood : (iv.take c.blockSize).length = c.blockSize := List.length_take_of_le hiv
  have hblocks := everyBlock_of_le hpos (fun block _ hle => hle) data
  exact ⟨hundo.pass_length hpos hgood hblocks, congrArg Prod.fst (hundo.pass hpos hgood hblocks)⟩

theorem cfbWords_cases (words : SymWords) :
    (words.blockSize = 0 ∧ ∀ B : BlockCiphers, ∀ d key iv data, B.cfbWords d words key iv data = data) ∨
      ∃ c : SymCipher, words.blockSize = c.blockSize ∧
        ∀ B : BlockCiphers, ∀ d key iv data, B.cfbWords d words key iv data = B.cfb d c key iv data := by
  unfold SymWords.blockSize cryptGetSymmetricBlockSize BlockCiphers.cfbWords
  cases symSelector.all.find? fun c => symSelector.algId c == words.algorithm with
  | none => exact .inl ⟨rfl, fun _ _ _ _ _ => rfl⟩
  | some c =>
      by_cases hbits : words.keyBits ∈ c.keyBits
      · exact .inr ⟨c, if_pos hbits, fun _ _ _ _ _ => if_pos hbits⟩
      · exact .inl ⟨if_neg hbits, fun _ _ _ _ _ => if_neg hbits⟩

theorem cfbWords_zero {words : SymWords} (h : words.blockSize = 0) {d : Bool} {key iv data : Bytes} :
    B.cfbWords d words key iv data = data := by
  rcases cfbWords_cases words with ⟨-, hclear⟩ | ⟨c, hsize, -⟩
  · exact hclear B d key iv data
  · rw [hsize] at h
    cases c <;> cases h

theorem SymWords.blockSize_le (words : SymWords) : words.blockSize ≤ 16 := by
  rcases cfbWords_cases words with ⟨hzero, -⟩ | ⟨c, hsize, -⟩
  · rw [hzero]
    exact Nat.zero_le 16
  · rw [hsize]
    cases c <;> decide

theorem BlockCiphers.Lawful.cfbWords (h : B.Lawful) {words : SymWords} {iv : Bytes} (hiv : words.blockSize ≤ iv.length)
    (key data : Bytes) :
    (B.cfbWords false words key iv data).length = data.length ∧
      B.cfbWords true words key iv (B.cfbWords false words key iv data) = data := by
  rcases cfbWords_cases words with ⟨-, hclear⟩ | ⟨c, hsize, hcfb⟩
  · rw [hclear, hclear]
    exact ⟨rfl, rfl⟩
  · rw [hcfb, hcfb]
    exact h.cfb (hsize ▸ hiv) key data

/-- The octets that the union does not fill do not matter, or no cipher has the words at all. -/
theorem symmetricWords_stable (a : TpmtPublic) (w : Stale) :
    (∀ w', a.symmetricWords w' = a.symmetricWords w) ∨ ∀ w', (a.symmetricWords w').blockSize = 0 := by
  have hsymmetric (d : TpmtSymDefObject) :
      (∀ w', d.words w' = d.words w) ∨ ∀ w', (d.words w').blockSize = 0 := by
    cases d with
    | none => exact .inr fun w' => blockSize_null _
    | some d => exact .inl fun _ => rfl
  obtain ⟨t, nameAlg, x, authPolicy, q, unique⟩ := a
  cases t with
  | rsa => exact hsymmetric _
  | ecc => exact hsymmetric _
  | mlkem => exact hsymmetric _
  | symcipher => exact .inl fun _ => rfl
  | keyedhash =>
      refine .inr fun w' => ?_
      change (TpmtKeyedhashScheme.words w' q).blockSize = 0
      cases q <;> rfl
  | mldsa =>
      refine .inr fun w' => Classical.not_not.mp fun hne => ?_
      exact absurd ((symmetricWords_blockSize w' (t := .mldsa) (by decide) q).mp hne) Bool.false_ne_true
  | hashMldsa =>
      refine .inr fun w' => Classical.not_not.mp fun hne => ?_
      exact absurd ((symmetricWords_blockSize w' (t := .hashMldsa) (by decide) q).mp hne) Bool.false_ne_true

end Cfb

/-! ## The outer wrap there and back -/

section Outer
variable {K : BlobCrypto}

/-- The IV of a wrap and what goes out of it. -/
def BlobCrypto.wrapIv (K : BlobCrypto) (blockSize : Nat) (useIV : Bool) : Bytes :=
  if useIV then K.random blockSize else List.replicate 16 0

def BlobCrypto.wrapIvArea (K : BlobCrypto) (blockSize : Nat) (useIV : Bool) : Bytes :=
  if useIV then be 2 (K.random blockSize).length ++ K.random blockSize else []

/-- `ProduceOuterWrap` in the terms of `UnwrapOuter`. -/
theorem produceOuterWrap_eq (protector : Object) (w : Stale) (name : Tpm2bName) (hashAlg : HashAlg) (seed : Option Bytes)
    (useIV : Bool) (data : Bytes) {words : SymWords} (hwords : protector.publicArea.symmetricWords w = words)
    {seedValue : Bytes} (hseed : seed.getD protector.sensitive.seedValue.buffer = seedValue) {area : Bytes}
    (harea : K.wrapIvArea words.blockSize useIV ++
      K.ciphers.cfbWords false words (protectionKey K.wrap hashAlg seedValue name.buffer words.keyBits)
        (K.wrapIv words.blockSize useIV) data = area) :
    produceOuterWrap K.wrap protector w name hashAlg seed useIV data =
      be 2 (outerIntegrity K hashAlg seedValue name area).length ++ (outerIntegrity K hashAlg seedValue name area ++ area) := by
  have hbody (key iv : Bytes) : (cryptSymmetricEncrypt K.wrap words.algorithm words.keyBits key iv data).toOption.getD data =
      K.ciphers.cfbWords false words key iv data := by
    unfold cryptSymmetricEncrypt BlockCiphers.cfbWords
    by_cases hdata : data = []
    · rw [if_pos hdata, hdata]
      cases symSelector.all.find? fun c => symSelector.algId c == words.algorithm with
      | none => rfl
      | some c =>
          dsimp only
          split <;> rfl
    · rw [if_neg hdata]
      cases symSelector.all.find? fun c => symSelector.algId c == words.algorithm with
      | none => rfl
      | some c =>
          dsimp only
          split <;> rfl
  subst hwords hseed harea
  have hdone {r : Except Fault Bytes} (hr : cryptSymmetricEncrypt K.wrap (protector.publicArea.symmetricWords w).algorithm
        (protector.publicArea.symmetricWords w).keyBits
        (protectionKey K.wrap hashAlg (seed.getD protector.sensitive.seedValue.buffer) name.buffer
          (protector.publicArea.symmetricWords w).keyBits)
        (K.wrapIv (protector.publicArea.symmetricWords w).blockSize useIV) data = r) :
      r.toOption.getD data = K.ciphers.cfbWords false (protector.publicArea.symmetricWords w)
        (protectionKey K.wrap hashAlg (seed.getD protector.sensitive.seedValue.buffer) name.buffer
          (protector.publicArea.symmetricWords w).keyBits)
        (K.wrapIv (protector.publicArea.symmetricWords w).blockSize useIV) data := hr ▸ hbody _ _
  unfold produceOuterWrap
  dsimp only
  generalize hr : cryptSymmetricEncrypt K.wrap _ _ _ _ data = r
  rw [← hdone hr]
  cases r <;> rfl

theorem BlobCrypto.Lawful.unwrapIv_wrap (hK : K.Lawful) {blockSize : Nat} (hsize : blockSize ≤ 16) (useIV : Bool) (body : Bytes) :
    unwrapIv blockSize useIV (K.wrapIvArea blockSize useIV ++ body) = .ok (K.wrapIv blockSize useIV, body) := by
  cases useIV with
  | false => rfl
  | true =>
      have hlength : (K.random blockSize).length = blockSize := hK.random_length blockSize
      have hread := Tpm2b.reads (by decide) (⟨K.random blockSize, by rw [hlength]; exact hsize⟩ : Tpm2b 16) body
      have harea : unwrapIv blockSize true (K.wrapIvArea blockSize true ++ body) =
          if (K.random blockSize).length ≠ blockSize then .error (.of .value) else .ok (K.random blockSize, body) := by
        unfold unwrapIv BlobCrypto.wrapIvArea
        rw [if_pos rfl, if_pos rfl]
        unfold Tpm2b.marshal Tpm2b.size at hread
        rw [hread]
        rfl
      rw [harea, if_neg (not_not_intro hlength)]
      rfl

/-- The receiver of a wrapped area has the public area of the protector; what is in the octets of the union that this does
not fill, and whether the seed was given or is the receiver's own, makes no difference. -/
theorem unwrapOuter_produceOuterWrap (hK : K.Lawful) {sender receiver : Object} (hpublic : receiver.publicArea = sender.publicArea)
    (seed seed' : Option Bytes)
    (hseed : seed'.getD receiver.sensitive.seedValue.buffer = seed.getD sender.sensitive.seedValue.buffer)
    (w w' : Stale) (name : Tpm2bName) (hashAlg : HashAlg) (useIV : Bool) (data : Bytes) :
    ∃ front, front.length = 2 + hashAlg.digestSize +
        (if useIV then 2 + (receiver.publicArea.symmetricWords w').blockSize else 0) ∧
      unwrapOuter K receiver w' name hashAlg seed' useIV (produceOuterWrap K.wrap sender w name hashAlg seed useIV data) =
        .ok (front ++ data) := by
  obtain ⟨words, hwords⟩ : ∃ words, sender.publicArea.symmetricWords w = words := ⟨_, rfl⟩
  obtain ⟨words', hwords'⟩ : ∃ words, receiver.publicArea.symmetricWords w' = words := ⟨_, rfl⟩
  obtain ⟨seedValue, hvalue⟩ : ∃ seedValue, seed.getD sender.sensitive.seedValue.buffer = seedValue := ⟨_, rfl⟩
  have hsame : words' = words ∨ words'.blockSize = 0 ∧ words.blockSize = 0 := by
    rw [← hwords', ← hwords, hpublic]
    rcases symmetricWords_stable sender.publicArea w with hstable | hnone
    · exact .inl (hstable w')
    · exact .inr ⟨hnone w', hnone w⟩
  have hsize : words'.blockSize = words.blockSize := by
    rcases hsame with heq | ⟨hzero', hzero⟩
    · rw [heq]
    · rw [hzero', hzero]
  -- the data comes back under the words as the receiver sees them
  have hiv : words.blockSize ≤ (K.wrapIv words.blockSize useIV).length := by
    cases useIV with
    | false => exact words.blockSize_le
    | true => exact Nat.le_of_eq (hK.random_length _).symm
  obtain ⟨key, hkey⟩ : ∃ key, protectionKey K.wrap hashAlg seedValue name.buffer words.keyBits = key := ⟨_, rfl⟩
  have hback : K.ciphers.cfbWords true words' (protectionKey K.wrap hashAlg seedValue name.buffer words'.keyBits)
      (K.wrapIv words.blockSize useIV) (K.ciphers.cfbWords false words key (K.wrapIv words.blockSize useIV) data) = data := by
    rcases hsame with heq | ⟨hzero', hzero⟩
    · rw [heq, hkey]
      exact (hK.ciphers.cfbWords hiv key data).2
    · rw [cfbWords_zero hzero', cfbWords_zero hzero]
  obtain ⟨body, hbody⟩ : ∃ body, K.ciphers.cfbWords false words key (K.wrapIv words.blockSize useIV) data = body := ⟨_, rfl⟩
  obtain ⟨area, harea⟩ : ∃ area, K.wrapIvArea words.blockSize useIV ++ body = area := ⟨_, rfl⟩
  obtain ⟨integrity, hintegrity⟩ : ∃ integrity, outerIntegrity K hashAlg seedValue name area = integrity := ⟨_, rfl⟩
  have hwrap := produceOuterWrap_eq (K := K) sender w name hashAlg seed useIV data hwords hvalue (by rw [hkey, hbody, harea])
  rw [hintegrity] at hwrap
  have hintegrityLength : integrity.length = hashAlg.digestSize := hintegrity ▸ hK.hmac_length _ _ _
  have hroom : integrity.length ≤ 64 := by
    rw [hintegrityLength]
    cases hashAlg <;> decide
  have hread := Tpm2b.reads (by decide) (⟨integrity, hroom⟩ : Tpm2b 64) area
  have hfront : be 2 integrity.length ++ (integrity ++ area) =
      (be 2 integrity.length ++ (integrity ++ K.wrapIvArea words.blockSize useIV)) ++ body := by
    rw [← harea, List.append_assoc, List.append_assoc]
  refine ⟨be 2 integrity.length ++ (integrity ++ K.wrapIvArea words.blockSize useIV), ?_, ?_⟩
  · rw [List.length_append, List.length_append, be_length, hintegrityLength, hwords', hsize, Nat.add_assoc]
    cases useIV with
    | false => rfl
    | true =>
        unfold BlobCrypto.wrapIvArea
        rw [if_pos rfl, if_pos rfl, List.length_append, be_length, hK.random_length]
  · unfold unwrapOuter
    unfold Tpm2b.marshal Tpm2b.size at hread
    rw [hwrap, ← List.append_assoc, hread]
    dsimp only
    rw [hseed, hvalue, hintegrity, if_neg (not_not_intro rfl), hwords', ← harea, hsize,
      hK.unwrapIv_wrap words.blockSize_le]
    change Except.ok _ = _
    rw [hbody] at hback
    dsimp only
    rw [hback, harea, List.append_assoc, hfront, @List.length_append _ _ body, Nat.add_sub_cancel, List.take_left]

end Outer

/-! ## Sensitive areas there and back -/

section Sensitive

theorem marshalWire_length_le {s : TpmtSensitive} {data : Bytes} (h : s.marshalWire = .ok data) : data.length ≤ 1096 := by
  obtain ⟨authValue, seedValue, c, hpub⟩ := s
  cases c with
  | none => cases h
  | some c =>
      obtain rfl := Except.ok.inj h
      have hauth := authValue.size_le
      have hseed := seedValue.size_le
      have hkey : c.2.buffer.length ≤ 960 := Nat.le_trans c.2.size_le (by cases c.1 <;> decide)
      simp only [List.length_append, be_length, Tpm2b.marshal]
      omega

theorem TpmtSensitive.padded_isSome (size : Nat) (s : TpmtSensitive) : (s.padded size).sensitive.isSome = s.sensitive.isSome := by
  obtain ⟨authValue, seedValue, c, hpub⟩ := s
  cases c <;> rfl

/-- What comes out is the sensitive area with its authorization value at the size of the digests of the name algorithm. -/
theorem unmarshalSensitive_marshalSensitive {nameAlg : Option HashAlg} {s : TpmtSensitive} {data : Bytes}
    (h : marshalSensitive nameAlg s = .ok data) (size : Fault) (answer : Fault → Fault) :
    unmarshalSensitive size answer data = .ok (s.padded (digestSizeOf nameAlg)) := by
  unfold marshalSensitive at h
  split at h
  · cases h
  · cases hmarshal : (s.padded (digestSizeOf nameAlg)).marshalWire with
    | error e =>
        rw [hmarshal] at h
        cases h
    | ok inner =>
        rw [hmarshal] at h
        obtain rfl := Except.ok.inj h
        have hsome : (s.padded (digestSizeOf nameAlg)).sensitive.isSome = true := by
          cases hsensitive : (s.padded (digestSizeOf nameAlg)).sensitive with
          | some c => rfl
          | none =>
              unfold TpmtSensitive.marshalWire at hmarshal
              rw [hsensitive] at hmarshal
              cases hmarshal
        obtain ⟨inner', hinner, hread⟩ := TpmtSensitive.readsWire hsome
        obtain rfl := Except.ok.inj (hmarshal.symm.trans hinner)
        have hshort := marshalWire_length_le hmarshal
        have hsize : readUint16 (be 2 inner.length ++ inner) = .ok (inner.length, inner) :=
          reads_uint16 (by omega) inner
        unfold unmarshalSensitive
        rw [hsize]
        dsimp only
        rw [List.length_append, be_length, if_neg (not_not_intro (Nat.add_comm _ _)), hread.all]
        rfl

end Sensitive

/-! ## Round trips -/

section RoundTrips
variable {K : BlobCrypto}

/-- A private area gives its parent the sensitive area back, with the authorization value padded, also under a parent whose
wrap encrypts nothing, and whatever the unfilled octets of its parameters are by then. -/
theorem privateToSensitive_sensitiveToPrivate (hK : K.Lawful) {parent parent' : Object}
    (hpublic : parent'.publicArea = parent.publicArea)
    (hseed : parent'.sensitive.seedValue = parent.sensitive.seedValue) (w w' : Stale) (name : Tpm2bName)
    (nameAlg : Option HashAlg) (s : TpmtSensitive) {outPrivate : Bytes}
    (h : sensitiveToPrivate K parent w name nameAlg s = .ok outPrivate) :
    privateToSensitive K parent' w' name outPrivate = .ok (s.padded (digestSizeOf nameAlg)) := by
  unfold sensitiveToPrivate at h
  unfold privateToSensitive
  rw [hpublic]
  split at h
  · cases h
  · rename_i hname
    rw [if_neg hname]
    cases hhash : parent.publicArea.nameAlg with
    | none =>
        rw [hhash] at h
        cases h
    | some hashAlg =>
        rw [hhash] at h
        cases hdata : marshalSensitive nameAlg s with
        | error e =>
            rw [hdata] at h
            cases h
        | ok data =>
            rw [hdata] at h
            obtain rfl := Except.ok.inj h
            obtain ⟨front, hfront, hunwrap⟩ := unwrapOuter_produceOuterWrap hK hpublic none none
              (congrArg Tpm2b.buffer hseed) w w' name hashAlg true data
            rw [if_pos rfl, hpublic] at hfront
            dsimp only
            rw [hunwrap]
            dsimp only
            rw [← hfront, List.drop_left]
            exact unmarshalSensitive_marshalSensitive hdata _ _

/-- The outer wrap of a payload under a seed, as `SensitiveToDuplicate` and `TPM2_Rewrap` apply it. -/
theorem outerUnwrap_produceOuterWrap (hK : K.Lawful) {sender receiver : Object} (hpublic : receiver.publicArea = sender.publicArea)
    {outerHash : HashAlg} (hhash : sender.publicArea.nameAlg = some outerHash) {seed : Bytes} (hseed : seed ≠ [])
    (w w' : Stale) (name : Tpm2bName) (payload : Bytes) :
    outerUnwrap K receiver w' name seed (produceOuterWrap K.wrap sender w name outerHash (some seed) false payload) =
      .ok payload := by
  obtain ⟨front, hfront, hunwrap⟩ := unwrapOuter_produceOuterWrap hK hpublic (some seed) (some seed) rfl
    w w' name outerHash false payload
  unfold outerUnwrap
  rw [if_neg fun hempty => hseed (List.isEmpty_iff.mp hempty), hpublic, hhash]
  dsimp only
  rw [hunwrap]
  change Except.ok _ = _
  rw [if_neg Bool.false_ne_true, Nat.add_zero] at hfront
  rw [← hfront, List.drop_left]

/-- The key of an inner wrap: the one given, or the one that went out. -/
def innerKey (innerSymKey keyOut : Bytes) : Bytes := if innerSymKey.isEmpty then keyOut else innerSymKey

theorem digestSizeOf_le (nameAlg : Option HashAlg) : digestSizeOf nameAlg ≤ 64 := by
  cases nameAlg with
  | none => exact Nat.zero_le 64
  | some h => cases h <;> decide

theorem BlobCrypto.Lawful.innerIntegrity_length (hK : K.Lawful) (nameAlg : Option HashAlg) (name : Tpm2bName) (data : Bytes) :
    (innerIntegrity K nameAlg name data).length = digestSizeOf nameAlg := by
  cases nameAlg with
  | none => rfl
  | some h => exact hK.hash_length h _

theorem checkInnerIntegrity_produceInnerIntegrity (hK : K.Lawful) (nameAlg : Option HashAlg) (name : Tpm2bName) (data : Bytes) :
    checkInnerIntegrity K nameAlg name (produceInnerIntegrity K nameAlg name data) = .ok () := by
  have hlength := hK.innerIntegrity_length nameAlg name data
  have hroom : (innerIntegrity K nameAlg name data).length ≤ 64 := hlength ▸ digestSizeOf_le nameAlg
  have hread := Tpm2b.reads (by decide) (⟨innerIntegrity K nameAlg name data, hroom⟩ : Tpm2b 64) data
  unfold Tpm2b.marshal Tpm2b.size at hread
  unfold checkInnerIntegrity produceInnerIntegrity
  dsimp only
  rw [← List.append_assoc, hread]
  exact if_neg (not_not_intro rfl)

theorem innerUnwrap_cfb (hK : K.Lawful) (name : Tpm2bName) (nameAlg : Option HashAlg) {d : SymDef} {key : Bytes}
    (hkey : key.length = (d.keyBits + 7) / 8) (data : Bytes) :
    innerUnwrap K name nameAlg (some d) key
        (K.ciphers.cfb false d.algorithm key (List.replicate 16 0) (produceInnerIntegrity K nameAlg name data)) =
      .ok data := by
  have hiv : d.algorithm.blockSize ≤ (List.replicate 16 (0 : UInt8)).length := by
    rw [List.length_replicate]
    cases d.algorithm <;> decide
  unfold innerUnwrap
  dsimp only
  rw [if_neg (not_not_intro hkey), (hK.ciphers.cfb hiv key _).2, checkInnerIntegrity_produceInnerIntegrity hK]
  change Except.ok _ = _
  have hfront : produceInnerIntegrity K nameAlg name data =
      (be 2 (innerIntegrity K nameAlg name data).length ++ innerIntegrity K nameAlg name data) ++ data :=
    (List.append_assoc _ _ _).symm
  have hlength : 2 + digestSizeOf nameAlg =
      (be 2 (innerIntegrity K nameAlg name data).length ++ innerIntegrity K nameAlg name data).length := by
    rw [List.length_append, be_length, hK.innerIntegrity_length]
  rw [hfront, hlength, List.drop_left]

theorem innerUnwrap_innerWrap (hK : K.Lawful) {name : Tpm2bName} {nameAlg : Option HashAlg} {symDef : TpmtSymDefObject}
    {innerSymKey data payload keyOut : Bytes} (h : innerWrap K name nameAlg symDef innerSymKey data = .ok (payload, keyOut)) :
    innerUnwrap K name nameAlg symDef (innerKey innerSymKey keyOut) payload = .ok data := by
  cases symDef with
  | none =>
      obtain ⟨rfl, -⟩ := Prod.mk.inj (Except.ok.inj h)
      rfl
  | some d =>
      unfold innerWrap at h
      unfold innerKey
      dsimp only at h
      split at h
      · rename_i hempty
        obtain ⟨rfl, rfl⟩ := Prod.mk.inj (Except.ok.inj h)
        rw [if_pos hempty]
        exact innerUnwrap_cfb hK name nameAlg (hK.random_length _) data
      · rename_i hgiven
        split at h
        · cases h
        · rename_i hkey
          obtain ⟨rfl, -⟩ := Prod.mk.inj (Except.ok.inj h)
          rw [if_neg hgiven]
          exact innerUnwrap_cfb hK name nameAlg (Classical.not_not.mp hkey) data

theorem sensitiveToDuplicate_eq_ok {parent : Option Object} {w : Stale} {name : Tpm2bName} {nameAlg : Option HashAlg}
    {seed innerSymKey duplicate keyOut : Bytes} {symDef : TpmtSymDefObject} {s : TpmtSensitive}
    (h : sensitiveToDuplicate K parent w name nameAlg seed symDef innerSymKey s = .ok (duplicate, keyOut)) :
    ∃ data payload, marshalSensitive nameAlg s = .ok data ∧
      innerWrap K name nameAlg symDef innerSymKey data = .ok (payload, keyOut) ∧
      (seed = [] ∧ duplicate = payload ∨
        seed ≠ [] ∧ ∃ key outerHash, parent = some key ∧ key.publicArea.nameAlg = some outerHash ∧
          duplicate = produceOuterWrap K.wrap key w name outerHash (some seed) false payload) := by
  unfold sensitiveToDuplicate at h
  split at h
  · cases h
  · cases hdata : marshalSensitive nameAlg s with
    | error e =>
        rw [hdata] at h
        cases h
    | ok data =>
        rw [hdata] at h
        dsimp only at h
        cases hinner : innerWrap K name nameAlg symDef innerSymKey data with
        | error e =>
            rw [hinner] at h
            cases h
        | ok inner =>
            obtain ⟨payload, keyOut'⟩ := inner
            rw [hinner] at h
            dsimp only at h
            split at h
            · rename_i hseed
              obtain ⟨hout, rfl⟩ := Prod.mk.inj (Except.ok.inj h)
              exact ⟨data, payload, rfl, hinner, .inl ⟨List.isEmpty_iff.mp hseed, hout.symm⟩⟩
            · rename_i hseed
              cases parent with
              | none => cases h
              | some parent =>
                  dsimp only at h
                  cases hhash : parent.publicArea.nameAlg with
                  | none =>
                      rw [hhash] at h
                      cases h
                  | some outerHash =>
                      rw [hhash] at h
                      obtain ⟨hout, rfl⟩ := Prod.mk.inj (Except.ok.inj h)
                      refine ⟨data, payload, rfl, hinner, .inr ⟨fun hempty => hseed ?_, parent, outerHash, rfl, hhash, hout.symm⟩⟩
                      exact List.isEmpty_iff.mpr hempty

theorem sensitiveToDuplicate_name {parent : Option Object} {w : Stale} {name : Tpm2bName} {nameAlg : Option HashAlg}
    {seed innerSymKey : Bytes} {symDef : TpmtSymDefObject} {s : TpmtSensitive} {out : Bytes × Bytes}
    (h : sensitiveToDuplicate K parent w name nameAlg seed symDef innerSymKey s = .ok out) : name.size ≠ 0 := by
  unfold sensitiveToDuplicate at h
  split at h
  · cases h
  · assumption

theorem innerToSensitive_innerWrap (hK : K.Lawful) {name : Tpm2bName} {nameAlg : Option HashAlg} {symDef : TpmtSymDefObject}
    {innerSymKey data payload keyOut : Bytes} {s : TpmtSensitive} (hdata : marshalSensitive nameAlg s = .ok data)
    (hinner : innerWrap K name nameAlg symDef innerSymKey data = .ok (payload, keyOut)) :
    innerToSensitive K name nameAlg symDef (innerKey innerSymKey keyOut) payload = .ok (s.padded (digestSizeOf nameAlg)) := by
  unfold innerToSensitive
  rw [innerUnwrap_innerWrap hK hinner]
  exact unmarshalSensitive_marshalSensitive hdata _ _

/-- A credential gives the protector the secret back. -/
theorem credentialToSecret_secretToCredential (hK : K.Lawful) {sender receiver : Object}
    (hpublic : receiver.publicArea = sender.publicArea) (w w' : Stale) (name : Tpm2bName) (seed : Bytes) {secret : Tpm2bDigest}
    {idObject : Bytes} (h : secretToCredential K sender w name seed secret = .ok idObject) :
    credentialToSecret K receiver w' name seed idObject = .ok secret := by
  unfold secretToCredential at h
  unfold credentialToSecret
  rw [hpublic]
  cases hhash : sender.publicArea.nameAlg with
  | none =>
      rw [hhash] at h
      cases h
  | some outerHash =>
      rw [hhash] at h
      obtain rfl := Except.ok.inj h
      obtain ⟨front, hfront, hunwrap⟩ := unwrapOuter_produceOuterWrap hK hpublic (some seed) (some seed) rfl
        w w' name outerHash false secret.marshal
      rw [if_neg Bool.false_ne_true, Nat.add_zero] at hfront
      dsimp only
      rw [hunwrap]
      dsimp only
      rw [← hfront, List.drop_left, (Tpm2b.reads (by decide) secret).all]
      rfl

end RoundTrips

end PqcTpm
