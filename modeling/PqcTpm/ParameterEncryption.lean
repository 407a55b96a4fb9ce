import PqcTpm.SymmetricModes

/-!
# Parameter encryption

The first parameter of a command or a response may be encrypted under a session (`CryptUtil.c`): with a mask from
`CryptKDFa` of `CryptHash.c`, or with a block cipher in CFB mode under a key from there. HMAC is the crypto library's.
-/
namespace PqcTpm
open ByteCodec BlockPass

/-- HMAC beside the block ciphers. -/
structure ParmCrypto extends BlockCiphers where
  hmac : HashAlg → Bytes → Bytes → Bytes

structure ParmCrypto.Lawful (C : ParmCrypto) : Prop where
  ciphers : C.toBlockCiphers.Lawful
  hmac : ∀ hashAlg key data, (C.hmac hashAlg key data).length = hashAlg.digestSize

/-! ## Key derivation -/

/-- The loop of `CryptKDFa`: what it writes, and the counter. -/
def kdfaLoop (digestSize : Nat) (block : Nat → Bytes) : Nat → Nat → Nat → Bytes × Nat
  | 0, _, counter => ([], counter)
  | fuel + 1, bytes, counter =>
      if bytes = 0 then ([], counter)
      else
        let rest := kdfaLoop digestSize block fuel (bytes - digestSize) (counter + 1)
        ((block (counter + 1)).take bytes ++ rest.1, rest.2)

def cfbKey : Bytes := [67, 70, 66, 0]

def xorKey : Bytes := [88, 79, 82, 0]

namespace ParmCrypto
variable (C : ParmCrypto)

/-- What a turn of the loop hashes; a label that ends in a zero gets no other. -/
def kdfaBlock (hashAlg : HashAlg) (key label contextU contextV : Bytes) (sizeInBits counter : Nat) : Bytes :=
  C.hmac hashAlg key (be 4 counter ++ (label ++ ((if label.getLastD 1 = 0 then [] else [0]) ++
    (contextU ++ (contextV ++ be 4 sizeInBits)))))

/-- `CryptKDFa`; with `blocks` it writes so many digests, whatever the size asked for. -/
def cryptKdfa (hashAlg : HashAlg) (key label contextU contextV : Bytes) (sizeInBits counter blocks : Nat) :
    Except Fault (Bytes × Nat) :=
  if 32767 < (sizeInBits + 7) / 8 then .error .failureMode
  else
    let bytes := if 0 < blocks then blocks * hashAlg.digestSize else (sizeInBits + 7) / 8
    .ok (kdfaLoop hashAlg.digestSize (C.kdfaBlock hashAlg key label contextU contextV sizeInBits) bytes bytes counter)

/-- A turn of the loop of `CryptXORObfuscation`, which asks for one digest. -/
def xorStep (hashAlg : HashAlg) (block : Nat → Bytes) (counter : Nat) (piece : Bytes) : Bytes × Nat :=
  let mask := kdfaLoop hashAlg.digestSize block hashAlg.digestSize hashAlg.digestSize counter
  (xorBytes piece mask.1, mask.2)

/-- `CryptXORObfuscation`. -/
def cryptXorObfuscation (hash : HashAlg) (key contextU contextV data : Bytes) : Except Fault Bytes :=
  if data.isEmpty then .ok []
  else if 32767 < (data.length * 8 + 7) / 8 then .error .failureMode
  else
    .ok (pass hash.digestSize (xorStep hash (C.kdfaBlock hash key xorKey contextU contextV (data.length * 8))) 0
      data).1

/-! ## The two sides -/

/-- `ParmEncryptSym`. -/
def parmEncryptSym (symAlg : SymCipher) (hash : HashAlg) (keySizeInBits : Nat) (key nonceCaller nonceTpm data : Bytes) :
    Except Fault Bytes :=
  let ivSize := symAlg.cryptGetSymmetricBlockSize keySizeInBits
  if ivSize = 0 then .ok data
  else do
    let symParmString ← C.cryptKdfa hash key cfbKey nonceTpm nonceCaller (keySizeInBits + ivSize * 8) 0 0
    let iv := (symParmString.1.drop ((keySizeInBits + 7) / 8)).take ivSize
    let out ← C.cryptSymmetricEncrypt symAlg keySizeInBits symParmString.1 (some iv) (some .cfb) data
    pure out.1

/-- `ParmDecryptSym`. -/
def parmDecryptSym (symAlg : SymCipher) (hash : HashAlg) (keySizeInBits : Nat) (key nonceCaller nonceTpm data : Bytes) :
    Except Fault Bytes :=
  let ivSize := symAlg.cryptGetSymmetricBlockSize keySizeInBits
  if ivSize = 0 then .ok data
  else do
    let symParmString ← C.cryptKdfa hash key cfbKey nonceCaller nonceTpm (keySizeInBits + ivSize * 8) 0 0
    let iv := (symParmString.1.drop ((keySizeInBits + 7) / 8)).take ivSize
    let out ← C.cryptSymmetricDecrypt symAlg keySizeInBits symParmString.1 (some iv) (some .cfb) data
    pure out.1

end ParmCrypto

/-- `symmetric` of a session that encrypts. -/
inductive ParmCipher where
  | xor
  | block (algorithm : SymCipher) (keyBits : Nat)
  deriving DecidableEq

structure ParmSession where
  authHashAlg : HashAlg
  symmetric : ParmCipher
  sessionKey : Bytes
  nonceTpm : Bytes

namespace ParmCrypto
variable (C : ParmCrypto)

/-- The choice in `CryptParameterEncryption`; the nonce of the TPM is the newer one. -/
def parmEncrypt (session : ParmSession) (key nonceCaller data : Bytes) : Except Fault Bytes :=
  match session.symmetric with
  | .xor => C.cryptXorObfuscation session.authHashAlg key session.nonceTpm nonceCaller data
  | .block symAlg keyBits => C.parmEncryptSym symAlg session.authHashAlg keyBits key nonceCaller session.nonceTpm data

/-- The choice in `CryptParameterDecryption`; the nonce of the caller is the newer one. -/
def parmDecrypt (session : ParmSession) (key nonceCaller data : Bytes) : Except Fault Bytes :=
  match session.symmetric with
  | .xor => C.cryptXorObfuscation session.authHashAlg key nonceCaller session.nonceTpm data
  | .block symAlg keyBits => C.parmDecryptSym symAlg session.authHashAlg keyBits key nonceCaller session.nonceTpm data

/-- `CryptParameterEncryption`. -/
def cryptParameterEncryption (session : ParmSession) (nonceCaller : Bytes) (leadingSizeInByte : Nat)
    (extraKey buffer : Bytes) : Except Fault Bytes :=
  if buffer.length < leadingSizeInByte then .error .failureMode
  else if leadingSizeInByte ≠ 2 then .error .failureMode
  else
    let cipherSize := fromBe (buffer.take 2)
    let rest := buffer.drop 2
    if rest.length < cipherSize then .error .failureMode
    else do
      let out ← C.parmEncrypt session (session.sessionKey ++ extraKey) nonceCaller (rest.take cipherSize)
      pure (buffer.take 2 ++ (out ++ rest.drop cipherSize))

/-- `CryptParameterDecryption`. -/
def cryptParameterDecryption (session : ParmSession) (nonceCaller : Bytes) (leadingSizeInByte : Nat)
    (extraKey buffer : Bytes) : Except Fault Bytes :=
  if buffer.length < leadingSizeInByte then .error (.of .insufficient)
  else if leadingSizeInByte ≠ 2 then .error .failureMode
  else
    let cipherSize := fromBe (buffer.take 2)
    let rest := buffer.drop 2
    if rest.length < cipherSize then .error (.of .size)
    else do
      let out ← C.parmDecrypt session (session.sessionKey ++ extraKey) nonceCaller (rest.take cipherSize)
      pure (buffer.take 2 ++ (out ++ rest.drop cipherSize))

end ParmCrypto

/-! ## The mask -/

section Mask
variable {digestSize : Nat} {block : Nat → Bytes}

theorem kdfaLoop_fuel (hpos : 0 < digestSize) {fuel fuel' bytes : Nat} (h : bytes ≤ fuel) (h' : bytes ≤ fuel')
    (counter : Nat) : kdfaLoop digestSize block fuel bytes counter = kdfaLoop digestSize block fuel' bytes counter := by
  induction fuel generalizing fuel' bytes counter with
  | zero =>
      obtain rfl := Nat.le_zero.mp h
      cases fuel' with
      | zero => rfl
      | succ fuel' => rw [kdfaLoop, kdfaLoop, if_pos rfl]
  | succ fuel ih =>
      by_cases hbytes : bytes = 0
      · subst hbytes
        cases fuel' with
        | zero => rw [kdfaLoop, kdfaLoop, if_pos rfl]
        | succ fuel' => rw [kdfaLoop, kdfaLoop, if_pos rfl, if_pos rfl]
      · obtain ⟨fuel', rfl⟩ : ∃ n, fuel' = n + 1 := ⟨fuel' - 1, by omega⟩
        have hrest : kdfaLoop digestSize block fuel (bytes - digestSize) (counter + 1) =
            kdfaLoop digestSize block fuel' (bytes - digestSize) (counter + 1) := ih (by omega) (by omega) (counter + 1)
        rw [kdfaLoop, kdfaLoop, if_neg hbytes, if_neg hbytes, hrest]

theorem kdfaLoop_length (hpos : 0 < digestSize) (hblock : ∀ c, (block c).length = digestSize) {fuel bytes : Nat}
    (h : bytes ≤ fuel) (counter : Nat) : (kdfaLoop digestSize block fuel bytes counter).1.length = bytes := by
  induction fuel generalizing bytes counter with
  | zero =>
      obtain rfl := Nat.le_zero.mp h
      rfl
  | succ fuel ih =>
      rw [kdfaLoop]
      split
      · rename_i hzero
        rw [hzero]
        rfl
      · rename_i hne
        dsimp only
        rw [List.length_append, ih (by omega), List.length_take, hblock]
        omega

theorem kdfaLoop_once (hpos : 0 < digestSize) (hblock : ∀ c, (block c).length = digestSize) (counter : Nat) :
    kdfaLoop digestSize block digestSize digestSize counter = (block (counter + 1), counter + 1) := by
  obtain ⟨n, rfl⟩ : ∃ n, digestSize = n + 1 := ⟨digestSize - 1, by omega⟩
  have hrest : kdfaLoop (n + 1) block n 0 (counter + 1) = ([], counter + 1) := by
    cases n with
    | zero => rfl
    | succ n => rw [kdfaLoop, if_pos rfl]
  have htake : (block (counter + 1)).take (n + 1) = block (counter + 1) :=
    List.take_of_length_le (Nat.le_of_eq (hblock _))
  rw [kdfaLoop, if_neg (Nat.succ_ne_zero n), Nat.sub_self, hrest]
  dsimp only
  rw [htake, List.append_nil]

theorem xorBytes_take (a b : Bytes) : xorBytes a (b.take a.length) = xorBytes a b := by
  induction a generalizing b with
  | nil => rfl
  | cons x a ih =>
      cases b with
      | nil => rfl
      | cons y b =>
          have htail := ih b
          unfold xorBytes at htail ⊢
          rw [List.length_cons, List.take_succ_cons, List.zipWith_cons_cons, List.zipWith_cons_cons, htail]

theorem xorBytes_append {a b c d : Bytes} (h : a.length = b.length) :
    xorBytes (a ++ c) (b ++ d) = xorBytes a b ++ xorBytes c d := List.zipWith_append h

end Mask

namespace ParmCrypto
variable {C : ParmCrypto}

theorem kdfaBlock_length (hC : C.Lawful) (hashAlg : HashAlg) (key label contextU contextV : Bytes)
    (sizeInBits counter : Nat) :
    (C.kdfaBlock hashAlg key label contextU contextV sizeInBits counter).length = hashAlg.digestSize :=
  hC.hmac _ _ _

/-- The mask taken digest by digest is the mask generated all at once. -/
theorem pass_xorStep {hash : HashAlg} {block : Nat → Bytes} (hblock : ∀ c, (block c).length = hash.digestSize)
    (data : Bytes) (counter : Nat) : (pass hash.digestSize (xorStep hash block) counter data).1 =
      xorBytes data (kdfaLoop hash.digestSize block data.length data.length counter).1 := by
  have hpos := hash.digestSize_pos
  induction data using block_induction hpos generalizing counter with
  | hnil => rfl
  | hstep data hdata ih =>
      have hlength := List.length_pos_of_ne_nil hdata
      obtain ⟨n, hn⟩ : ∃ n, data.length = n + 1 := ⟨data.length - 1, by omega⟩
      have hfuel : kdfaLoop hash.digestSize block n (data.length - hash.digestSize) (counter + 1) =
          kdfaLoop hash.digestSize block (data.drop hash.digestSize).length (data.drop hash.digestSize).length
            (counter + 1) := by
        rw [List.length_drop]
        exact kdfaLoop_fuel hpos (by omega) (Nat.le_refl _) _
      have hwhole : (kdfaLoop hash.digestSize block data.length data.length counter).1 =
          (block (counter + 1)).take data.length ++ (kdfaLoop hash.digestSize block
            (data.drop hash.digestSize).length (data.drop hash.digestSize).length (counter + 1)).1 := by
        rw [hn, kdfaLoop, if_neg (Nat.succ_ne_zero n), ← hn, hfuel]
      have hhead : xorBytes (data.take hash.digestSize) (block (counter + 1)) =
          xorBytes (data.take hash.digestSize) ((block (counter + 1)).take data.length) := by
        rw [← xorBytes_take, ← xorBytes_take (data.take hash.digestSize) ((block (counter + 1)).take data.length),
          List.take_take, List.length_take, Nat.min_assoc, Nat.min_self]
      have hsame : (data.take hash.digestSize).length = ((block (counter + 1)).take data.length).length := by
        rw [List.length_take, List.length_take, hblock, Nat.min_comm]
      rw [pass_eq hpos _ _ hdata, xorStep, kdfaLoop_once hpos hblock]
      dsimp only
      rw [ih, hwhole, hhead, ← xorBytes_append hsame, List.take_append_drop]

/-- **Mask.** What `CryptXORObfuscation` does, with a mask that is generated digest by digest, is what one call of
`CryptKDFa` for all of it would do. -/
theorem cryptXorObfuscation_eq (hC : C.Lawful) {hash : HashAlg} {key contextU contextV data : Bytes} :
    C.cryptXorObfuscation hash key contextU contextV data = (if data.isEmpty then .ok [] else
      (fun mask => xorBytes data mask.1) <$> C.cryptKdfa hash key xorKey contextU contextV (data.length * 8) 0 0) := by
  rw [cryptXorObfuscation, cryptKdfa]
  split
  · rfl
  · split
    · rfl
    · have hbytes : (data.length * 8 + 7) / 8 = data.length := by omega
      rw [pass_xorStep (kdfaBlock_length hC hash key xorKey contextU contextV (data.length * 8)), if_neg (by decide),
        hbytes]
      rfl

/-- Taken twice, the mask is gone. -/
theorem cryptXorObfuscation_twice (hC : C.Lawful) {hash : HashAlg} {key contextU contextV data out : Bytes}
    (h : C.cryptXorObfuscation hash key contextU contextV data = .ok out) :
    out.length = data.length ∧ C.cryptXorObfuscation hash key contextU contextV out = .ok data := by
  have hblock := kdfaBlock_length hC hash key xorKey contextU contextV (data.length * 8)
  rw [cryptXorObfuscation] at h
  split at h
  · rename_i hempty
    obtain rfl := Except.ok.inj h
    rw [List.isEmpty_iff.mp hempty]
    exact ⟨rfl, rfl⟩
  · rename_i hne
    split at h
    · cases h
    · rename_i hsize
      obtain rfl := Except.ok.inj h
      have hmask := kdfaLoop_length hash.digestSize_pos hblock (Nat.le_refl data.length) 0
      rw [pass_xorStep hblock]
      have hlength : (xorBytes data (kdfaLoop hash.digestSize (C.kdfaBlock hash key xorKey contextU contextV
          (data.length * 8)) data.length data.length 0).1).length = data.length := by
        rw [xorBytes_length, hmask, Nat.min_self]
      have hnot : ¬(xorBytes data (kdfaLoop hash.digestSize (C.kdfaBlock hash key xorKey contextU contextV
          (data.length * 8)) data.length data.length 0).1).isEmpty = true := by
        intro hnil
        rw [List.isEmpty_iff.mp hnil] at hlength
        exact hne (List.isEmpty_iff.mpr (List.length_eq_zero_iff.mp hlength.symm))
      refine ⟨hlength, ?_⟩
      rw [cryptXorObfuscation, if_neg hnot, hlength, if_neg hsize, pass_xorStep hblock, hlength,
        xorBytes_cancel (Nat.le_of_eq hmask.symm)]

/-! ## What one side encrypts the other decrypts -/

theorem cryptKdfa_length (hC : C.Lawful) {hash : HashAlg} {key label contextU contextV : Bytes} {sizeInBits : Nat}
    {stream : Bytes × Nat} (h : C.cryptKdfa hash key label contextU contextV sizeInBits 0 0 = .ok stream) :
    stream.1.length = (sizeInBits + 7) / 8 := by
  rw [cryptKdfa] at h
  split at h
  · cases h
  · obtain rfl := Except.ok.inj h
    rw [if_neg (by decide)]
    exact kdfaLoop_length hash.digestSize_pos (kdfaBlock_length hC hash key label contextU contextV sizeInBits)
      (Nat.le_refl _) 0

theorem parmDecryptSym_encrypt (hC : C.Lawful) {symAlg : SymCipher} {hash : HashAlg} {keyBits : Nat}
    {key nonceCaller nonceTpm data out : Bytes}
    (h : C.parmEncryptSym symAlg hash keyBits key nonceCaller nonceTpm data = .ok out) :
    out.length = data.length ∧ C.parmDecryptSym symAlg hash keyBits key nonceTpm nonceCaller out = .ok data := by
  rw [parmEncryptSym] at h
  rw [parmDecryptSym]
  dsimp only at h ⊢
  split at h
  · rename_i hsize
    obtain rfl := Except.ok.inj h
    rw [if_pos hsize]
    exact ⟨rfl, rfl⟩
  · rename_i hsize
    rw [if_neg hsize]
    obtain ⟨stream, hstream, hrest⟩ := Transition.bind_eq_ok h
    obtain ⟨pair, hpair, hpure⟩ := Transition.bind_eq_ok hrest
    obtain rfl := Except.ok.inj hpure
    have hlong := cryptKdfa_length hC hstream
    have hiv : ((stream.1.drop ((keyBits + 7) / 8)).take (symAlg.cryptGetSymmetricBlockSize keyBits)).length =
        symAlg.cryptGetSymmetricBlockSize keyBits := by
      rw [List.length_take, List.length_drop, hlong]
      omega
    obtain ⟨hlength, hback⟩ := cryptSymmetricDecrypt_encrypt hC.ciphers (by
      intro iv hsome _
      obtain rfl := Option.some.inj hsome
      exact hiv) hpair
    refine ⟨hlength, ?_⟩
    rw [hstream]
    show (do
      let out ← C.cryptSymmetricDecrypt symAlg keyBits stream.1 (some _) (some .cfb) pair.1
      pure out.1) = Except.ok data
    rw [hback]
    rfl

theorem parmDecrypt_encrypt (hC : C.Lawful) {session : ParmSession} {key nonceCaller data out : Bytes}
    (h : C.parmEncrypt session key nonceCaller data = .ok out) : out.length = data.length ∧
      C.parmDecrypt { session with nonceTpm := nonceCaller } key session.nonceTpm out = .ok data := by
  rw [parmEncrypt] at h
  rw [parmDecrypt]
  dsimp only
  cases hsymmetric : session.symmetric with
  | xor =>
      rw [hsymmetric] at h
      exact cryptXorObfuscation_twice hC h
  | block symAlg keyBits =>
      rw [hsymmetric] at h
      exact parmDecryptSym_encrypt hC h

/-- **Main result.** A parameter that one side of a session has encrypted, the other decrypts, if it has the same
keys and the nonces the other way round; the size and what follows the parameter stay as they are. -/
theorem cryptParameterDecryption_encryption (hC : C.Lawful) {session : ParmSession} {nonceCaller extraKey : Bytes}
    {leadingSizeInByte : Nat} {buffer out : Bytes}
    (h : C.cryptParameterEncryption session nonceCaller leadingSizeInByte extraKey buffer = .ok out) :
    out.length = buffer.length ∧ out.take 2 = buffer.take 2 ∧
      (out.drop 2).drop (fromBe (buffer.take 2)) = (buffer.drop 2).drop (fromBe (buffer.take 2)) ∧
      C.cryptParameterDecryption { session with nonceTpm := nonceCaller } session.nonceTpm leadingSizeInByte extraKey
        out = .ok buffer := by
  rw [cryptParameterEncryption] at h
  dsimp only at h
  split at h
  · cases h
  · rename_i hshort
    split at h
    · cases h
    · rename_i hleading
      split at h
      · cases h
      · rename_i hcipher
        obtain ⟨piece, hpiece, hpure⟩ := Transition.bind_eq_ok h
        obtain rfl := Except.ok.inj hpure
        have hhead : (buffer.take 2).length = 2 := by
          rw [List.length_take]
          omega
        have hdata : ((buffer.drop 2).take (fromBe (buffer.take 2))).length = fromBe (buffer.take 2) := by
          rw [List.length_take]
          omega
        obtain ⟨hlength, hback⟩ := parmDecrypt_encrypt hC hpiece
        rw [hdata] at hlength
        have hfirst : (buffer.take 2 ++ (piece ++ (buffer.drop 2).drop (fromBe (buffer.take 2)))).take 2 =
            buffer.take 2 := List.take_left' hhead
        have hrest : (buffer.take 2 ++ (piece ++ (buffer.drop 2).drop (fromBe (buffer.take 2)))).drop 2 =
            piece ++ (buffer.drop 2).drop (fromBe (buffer.take 2)) := List.drop_left' hhead
        have hsize : (buffer.take 2 ++ (piece ++ (buffer.drop 2).drop (fromBe (buffer.take 2)))).length =
            buffer.length := by
          rw [List.length_append, List.length_append, hhead, hlength, List.length_drop, List.length_drop]
          rw [List.length_drop] at hcipher
          omega
        refine ⟨hsize, hfirst, ?_, ?_⟩
        · rw [hrest, List.drop_left' hlength]
        · have hfits : ¬(piece ++ (buffer.drop 2).drop (fromBe (buffer.take 2))).length < fromBe (buffer.take 2) := by
            rw [List.length_append, hlength]
            omega
          rw [cryptParameterDecryption, hsize, if_neg hshort, if_neg hleading, hfirst, hrest, if_neg hfits,
            List.take_left' hlength, List.drop_left' hlength, hback]
          show Except.ok (buffer.take 2 ++ ((buffer.drop 2).take _ ++ (buffer.drop 2).drop _)) = Except.ok buffer
          rw [List.take_append_drop, List.take_append_drop]

/-! ## What is refused -/

theorem cryptSymmetricDecrypt_cfb {symAlg : SymCipher} {keyBits : Nat}
    (hsize : symAlg.cryptGetSymmetricBlockSize keyBits ≠ 0) (key iv data : Bytes) :
    ∃ out, C.cryptSymmetricDecrypt symAlg keyBits key (some iv) (some .cfb) data = .ok out := by
  rw [BlockCiphers.cryptSymmetricDecrypt]
  by_cases hempty : data.isEmpty = true
  · rw [if_pos hempty]
    exact ⟨_, rfl⟩
  · have hno : ¬((SymMode.cfb = .cbc ∨ SymMode.cfb = .ecb) ∧
        data.length % symAlg.cryptGetSymmetricBlockSize keyBits ≠ 0) := by
      rintro ⟨hmode, -⟩
      rcases hmode with hmode | hmode
      · cases hmode
      · cases hmode
    rw [if_neg hempty, if_neg hsize, symmetricPass, if_neg hno]
    exact ⟨_, rfl⟩

theorem parmDecryptSym_succeeds (symAlg : SymCipher) (hash : HashAlg) (keyBits : Nat)
    (key nonceCaller nonceTpm data : Bytes) :
    ∃ out, C.parmDecryptSym symAlg hash keyBits key nonceCaller nonceTpm data = .ok out := by
  rw [parmDecryptSym]
  dsimp only
  by_cases hsize : symAlg.cryptGetSymmetricBlockSize keyBits = 0
  · rw [if_pos hsize]
    exact ⟨_, rfl⟩
  · have hmem : keyBits ∈ symAlg.keyBits := by
      by_contra hno
      exact hsize (if_neg hno)
    have hblock := blockSize_of_ne hsize
    have hbits : keyBits ≤ 256 := by
      cases symAlg <;> simp only [SymCipher.keyBits, List.mem_cons, List.not_mem_nil, or_false] at hmem <;> omega
    have hiv : symAlg.blockSize ≤ 16 := by
      cases symAlg <;> decide
    rw [if_neg hsize, hblock, cryptKdfa, if_neg (by omega)]
    obtain ⟨out, hout⟩ := cryptSymmetricDecrypt_cfb hsize _ _ data
    refine ⟨out.1, ?_⟩
    show (do
      let out ← C.cryptSymmetricDecrypt symAlg keyBits _ (some _) (some .cfb) data
      pure out.1) = Except.ok out.1
    rw [hout]
    rfl

theorem parmDecrypt_succeeds_iff {session : ParmSession} {key nonceCaller data : Bytes} :
    (∃ out, C.parmDecrypt session key nonceCaller data = .ok out) ↔
      (session.symmetric = .xor → data.length ≤ 32767) := by
  rw [parmDecrypt]
  cases session.symmetric with
  | block symAlg keyBits => exact iff_of_true (parmDecryptSym_succeeds _ _ _ _ _ _ _) nofun
  | xor =>
      dsimp only
      rw [cryptXorObfuscation]
      split
      · rename_i hempty
        rw [List.isEmpty_iff.mp hempty]
        exact iff_of_true ⟨_, rfl⟩ fun _ => Nat.zero_le _
      · split
        · refine iff_of_false ?_ fun hle => ?_
          · rintro ⟨out, hout⟩
            cases hout
          · have hlen := hle rfl
            omega
        · exact iff_of_true ⟨_, rfl⟩ fun _ => by omega

/-- **Main result.** A command's parameter is decrypted exactly if it is a sized buffer that lies in the parameters;
a mask has to be of a length that `CryptKDFa` can count. -/
theorem cryptParameterDecryption_accepts_iff {session : ParmSession} {nonceCaller extraKey buffer : Bytes}
    {leadingSizeInByte : Nat} :
    (∃ out, C.cryptParameterDecryption session nonceCaller leadingSizeInByte extraKey buffer = .ok out) ↔
      leadingSizeInByte = 2 ∧ 2 + fromBe (buffer.take 2) ≤ buffer.length ∧
        (session.symmetric = .xor → fromBe (buffer.take 2) ≤ 32767) := by
  rw [cryptParameterDecryption]
  dsimp only
  by_cases hshort : buffer.length < leadingSizeInByte
  · rw [if_pos hshort]
    refine iff_of_false ?_ fun hand => ?_
    · rintro ⟨out, hout⟩
      cases hout
    · omega
  · rw [if_neg hshort]
    by_cases hleading : leadingSizeInByte ≠ 2
    · rw [if_pos hleading]
      refine iff_of_false ?_ fun hand => hleading hand.1
      rintro ⟨out, hout⟩
      cases hout
    · rw [if_neg hleading]
      by_cases hcipher : (buffer.drop 2).length < fromBe (buffer.take 2)
      · rw [if_pos hcipher]
        rw [List.length_drop] at hcipher
        refine iff_of_false ?_ fun hand => ?_
        · rintro ⟨out, hout⟩
          cases hout
        · omega
      · rw [if_neg hcipher]
        have hdata : ((buffer.drop 2).take (fromBe (buffer.take 2))).length = fromBe (buffer.take 2) := by
          rw [List.length_take]
          omega
        rw [List.length_drop] at hcipher
        have hpiece : (∃ out, C.parmDecrypt session (session.sessionKey ++ extraKey) nonceCaller
            ((buffer.drop 2).take (fromBe (buffer.take 2))) = .ok out) ↔
              (session.symmetric = .xor → fromBe (buffer.take 2) ≤ 32767) := by
          rw [parmDecrypt_succeeds_iff, hdata]
        constructor
        · rintro ⟨out, hout⟩
          obtain ⟨piece, hok, -⟩ := Transition.bind_eq_ok hout
          exact ⟨not_not.mp hleading, by omega, hpiece.mp ⟨piece, hok⟩⟩
        · rintro ⟨-, -, hxor⟩
          obtain ⟨piece, hok⟩ := hpiece.mpr hxor
          rw [hok]
          exact ⟨_, rfl⟩

end ParmCrypto

/-! ## A mask -/

/-- What HMAC-SHA-256 is asked for a mask of `size` bits under the nonces below. -/
def maskMessage (counter size : Nat) : Bytes :=
  be 4 counter ++ (xorKey ++ (List.replicate 16 0x11 ++ (List.replicate 16 0x22 ++ be 4 size)))

/-- Its values, under the session key below and the authorization value "abc". -/
def maskValues : List (Bytes × Bytes) :=
  [(maskMessage 1 24, be 32 0x808eb58dca1b32c0ab92daeaf668685813982f28fbab2757a8878828673c3643),
   (maskMessage 1 320, be 32 0x847eaed8b6c89f54083fc15fb0a597de14ee08401293d03a6bddea987363d6a0),
   (maskMessage 2 320, be 32 0x98e114db8c884c16b49b4d655764e0bf55d81c07d567e8e22251815b34f30dd1)]

def maskCrypto : ParmCrypto where
  toBlockCiphers := testVectorCiphers
  hmac hashAlg _ data :=
    ((maskValues.lookup data).getD [] ++ List.replicate hashAlg.digestSize 0).take hashAlg.digestSize

theorem maskCrypto_lawful : maskCrypto.Lawful where
  ciphers := testVectorCiphers_lawful
  hmac hashAlg _ data := by simp [maskCrypto]

def xorSession : ParmSession where
  authHashAlg := .sha256
  symmetric := .xor
  sessionKey := (List.range 16).map UInt8.ofNat
  nonceTpm := List.replicate 16 0x11

theorem xorSession_encrypts :
    maskCrypto.cryptParameterEncryption xorSession (List.replicate 16 0x22) 2 [97, 98, 99] [0, 3, 97, 98, 99, 7, 7] =
      .ok [0, 3, 0xe1, 0xec, 0xd6, 7, 7] := by
  decide +kernel

/-- Forty octets take two digests. -/
theorem xorSession_mask :
    maskCrypto.cryptXorObfuscation .sha256 (xorSession.sessionKey ++ [97, 98, 99]) xorSession.nonceTpm
        (List.replicate 16 0x22) ((List.range 40).map UInt8.ofNat) =
      .ok (be 40 0x847facdbb2cd99530036cb54bca899d104ff1a530686c62d73c4f0836f7ec8bfb8c036f8a8ad6a31) ∧
    maskCrypto.cryptXorObfuscation .sha256 (xorSession.sessionKey ++ [97, 98, 99]) xorSession.nonceTpm
        (List.replicate 16 0x22) ((List.range 40).map UInt8.ofNat) =
      (fun mask => xorBytes ((List.range 40).map UInt8.ofNat) mask.1) <$>
        maskCrypto.cryptKdfa .sha256 (xorSession.sessionKey ++ [97, 98, 99]) xorKey xorSession.nonceTpm
          (List.replicate 16 0x22) 320 0 0 :=
  ⟨by decide +kernel, ParmCrypto.cryptXorObfuscation_eq maskCrypto_lawful⟩

theorem xorSession_decrypts :
    maskCrypto.cryptParameterDecryption { xorSession with nonceTpm := List.replicate 16 0x22 } (List.replicate 16 0x11)
      2 [97, 98, 99] [0, 3, 0xe1, 0xec, 0xd6, 7, 7] = .ok [0, 3, 97, 98, 99, 7, 7] :=
  (ParmCrypto.cryptParameterDecryption_encryption maskCrypto_lawful xorSession_encrypts).2.2.2

end PqcTpm
