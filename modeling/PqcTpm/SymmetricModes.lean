import PqcTpm.Lib.BlockPass
import PqcTpm.Protection

/-!
# Symmetric modes

`CryptSymmetricEncrypt` and `CryptSymmetricDecrypt` of `CryptSym.c`, which go over the blocks of their data with the
single block functions of a cipher, and the two commands that give them out (`EncryptDecrypt_spt.c`).
-/
namespace PqcTpm
open ByteCodec BlockPass

/-- The single block functions of the crypto library, for an algorithm, a key size and a key buffer. -/
structure BlockCiphers where
  encrypt : SymCipher → Nat → Bytes → Bytes → Bytes
  decrypt : SymCipher → Nat → Bytes → Bytes → Bytes

/-- Decryption undoes encryption. -/
structure BlockCiphers.Lawful (C : BlockCiphers) : Prop where
  length : ∀ algorithm keyBits key block, block.length = algorithm.blockSize →
    (C.encrypt algorithm keyBits key block).length = algorithm.blockSize
  decrypt_encrypt : ∀ algorithm keyBits key block, block.length = algorithm.blockSize →
    C.decrypt algorithm keyBits key (C.encrypt algorithm keyBits key block) = block

/-- `CryptGetSymmetricBlockSize`. -/
def SymCipher.cryptGetSymmetricBlockSize (algorithm : SymCipher) (keyBits : Nat) : Nat :=
  if keyBits ∈ algorithm.keyBits then algorithm.blockSize else 0

/-! ## One block -/

def xorBytes (a b : Bytes) : Bytes := List.zipWith (· ^^^ ·) a b

/-- The counter is big-endian, so the loop starts at its end. -/
def incrementReversed : Bytes → Bytes
  | [] => []
  | b :: bs => if b + 1 = 0 then 0 :: incrementReversed bs else (b + 1) :: bs

def incrementCounter (iv : Bytes) : Bytes := (incrementReversed iv.reverse).reverse

section Steps
variable (n : Nat) (encrypt decrypt : Bytes → Bytes)

def ctrStep (iv block : Bytes) : Bytes × Bytes := (xorBytes block (encrypt iv), incrementCounter iv)

def ofbStep (iv block : Bytes) : Bytes × Bytes := (xorBytes (encrypt iv) block, encrypt iv)

def cbcEncryptStep (iv block : Bytes) : Bytes × Bytes := (encrypt (xorBytes iv block), encrypt (xorBytes iv block))

def cbcDecryptStep (iv block : Bytes) : Bytes × Bytes := (xorBytes (decrypt block) iv, block)

/-- A short block is padded with zeros in the IV. -/
def cfbEncryptStep (iv block : Bytes) : Bytes × Bytes :=
  (xorBytes (encrypt iv) block, xorBytes (encrypt iv) block ++ List.replicate (n - block.length) 0)

def cfbDecryptStep (iv block : Bytes) : Bytes × Bytes :=
  (xorBytes (encrypt iv) block, block ++ List.replicate (n - block.length) 0)

def ecbStep (iv block : Bytes) : Bytes × Bytes := (encrypt block, iv)

end Steps

/-! ## The modes -/

section Modes
variable (C : BlockCiphers) (algorithm : SymCipher) (keyBits : Nat) (key : Bytes)

/-- The loop of a mode, on the IV of the caller or on zeros; ECB does not touch the caller's. -/
def symmetricPass (mode : SymMode) (step : Bytes → Bytes → Bytes × Bytes) (ivInOut : Option Bytes) (dIn : Bytes) :
    Except Fault (Bytes × Option Bytes) :=
  let blockSize := algorithm.cryptGetSymmetricBlockSize keyBits
  if (mode = .cbc ∨ mode = .ecb) ∧ dIn.length % blockSize ≠ 0 then .error (.of .size)
  else
    let out := pass blockSize step (ivInOut.getD (List.replicate blockSize 0)) dIn
    .ok (out.1, if mode = .ecb then ivInOut else ivInOut.map fun _ => out.2)

/-- `CryptSymmetricEncrypt`; `none` is `TPM_ALG_NULL` for a mode, and `NULL` for an IV. -/
def BlockCiphers.cryptSymmetricEncrypt (ivInOut : Option Bytes) (mode : Option SymMode) (dIn : Bytes) :
    Except Fault (Bytes × Option Bytes) :=
  let blockSize := algorithm.cryptGetSymmetricBlockSize keyBits
  let encrypt := C.encrypt algorithm keyBits key
  if dIn.isEmpty then .ok ([], ivInOut)
  else if blockSize = 0 then .error (.of .failure)
  else
    match mode with
    | some .ctr => symmetricPass algorithm keyBits .ctr (ctrStep encrypt) ivInOut dIn
    | some .ofb => symmetricPass algorithm keyBits .ofb (ofbStep encrypt) ivInOut dIn
    | some .cbc => symmetricPass algorithm keyBits .cbc (cbcEncryptStep encrypt) ivInOut dIn
    | some .cfb => symmetricPass algorithm keyBits .cfb (cfbEncryptStep blockSize encrypt) ivInOut dIn
    | some .ecb => symmetricPass algorithm keyBits .ecb (ecbStep encrypt) ivInOut dIn
    | some .cmac | none => .error (.of .failure)

/-- `CryptSymmetricDecrypt`; the stream modes decrypt with the encryption of the cipher. -/
def BlockCiphers.cryptSymmetricDecrypt (ivInOut : Option Bytes) (mode : Option SymMode) (dIn : Bytes) :
    Except Fault (Bytes × Option Bytes) :=
  let blockSize := algorithm.cryptGetSymmetricBlockSize keyBits
  let encrypt := C.encrypt algorithm keyBits key
  let decrypt := C.decrypt algorithm keyBits key
  if dIn.isEmpty then .ok ([], ivInOut)
  else if blockSize = 0 then .error (.of .failure)
  else
    match mode with
    | some .ctr => symmetricPass algorithm keyBits .ctr (ctrStep encrypt) ivInOut dIn
    | some .ofb => symmetricPass algorithm keyBits .ofb (ofbStep encrypt) ivInOut dIn
    | some .cbc => symmetricPass algorithm keyBits .cbc (cbcDecryptStep decrypt) ivInOut dIn
    | some .cfb => symmetricPass algorithm keyBits .cfb (cfbDecryptStep blockSize encrypt) ivInOut dIn
    | some .ecb => symmetricPass algorithm keyBits .ecb (ecbStep decrypt) ivInOut dIn
    | some .cmac | none => .error (.of .failure)

/-- One of the two. -/
def BlockCiphers.crypt (decryptIn : Bool) (ivInOut : Option Bytes) (mode : Option SymMode) (dIn : Bytes) :
    Except Fault (Bytes × Option Bytes) :=
  if decryptIn then C.cryptSymmetricDecrypt algorithm keyBits key ivInOut mode dIn
  else C.cryptSymmetricEncrypt algorithm keyBits key ivInOut mode dIn

end Modes

/-! ## The commands -/

/-- `parameters.symDetail.sym` of a symmetric key. -/
def TpmtPublic.symDetail : TpmtPublic → Option SymDef
  | ⟨.symcipher, _, _, _, sym, _⟩ => some sym
  | _ => none

/-- The buffer of the sensitive area, which for a symmetric key is `sensitive.sym`. -/
def TpmtSensitive.sensitiveBuffer (s : TpmtSensitive) : Bytes := s.sensitive.elim [] fun c => c.2.buffer

/-- The mode of the key, or the one asked for if the key leaves it open. -/
def selectSymMode (keyMode modeIn : Option SymMode) : Except Fault (Option SymMode) :=
  if keyMode.isSome then
    if modeIn.isSome ∧ modeIn ≠ keyMode then .error (.at .mode 0x240) else .ok keyMode
  else if modeIn.isNone then .error (.at .mode 0x240)
  else .ok modeIn

/-- `EncryptDecryptShared`: data and IV. -/
def encryptDecryptShared (C : BlockCiphers) (symKey : Object) (decryptIn : Bool) (modeIn : Option SymMode) (ivIn inData : Bytes) :
    Except Fault (Bytes × Bytes) :=
  match symKey.publicArea.symDetail with
  | none => .error (.at .key 0x100)
  | some sym =>
      let attributes := symKey.publicArea.objectAttributes
      if attributes.restricted ∨ (if decryptIn then attributes.decrypt else attributes.sign) = false then
        .error (.at .attributes 0x100)
      else if cryptSymModeIsValid sym.mode = false then .error (.at .mode 0x100)
      else do
        let mode ← selectSymMode sym.mode modeIn
        let blockSize := sym.algorithm.cryptGetSymmetricBlockSize sym.keyBits
        if blockSize = 0 then .error (.at .key 0x100)
        else if ivIn.length ≠ (if mode = some .ecb then 0 else blockSize) then .error (.at .size 0x340)
        else if (mode = some .cbc ∨ mode = some .ecb) ∧ inData.length % blockSize ≠ 0 then .error (.at .size 0x440)
        else
          let out ← C.crypt sym.algorithm sym.keyBits symKey.sensitive.sensitiveBuffer decryptIn (some ivIn) mode inData
          pure (out.1, out.2.getD [])

/-- `TPM2_EncryptDecrypt`. -/
def encryptDecrypt := encryptDecryptShared

/-! ## A step and the step back -/

section Xor

theorem xorBytes_length (a b : Bytes) : (xorBytes a b).length = min a.length b.length := List.length_zipWith

theorem xorBytes_comm (a b : Bytes) : xorBytes a b = xorBytes b a := by
  induction a generalizing b with
  | nil => exact (List.zipWith_nil_right).symm
  | cons x a ih =>
      cases b with
      | nil => rfl
      | cons y b =>
          have htail := ih b
          unfold xorBytes at htail ⊢
          rw [List.zipWith_cons_cons, List.zipWith_cons_cons, htail, UInt8.xor_comm]

theorem xorBytes_cancel {a : Bytes} {stream : Bytes} (h : a.length ≤ stream.length) : xorBytes (xorBytes a stream) stream = a := by
  induction a generalizing stream with
  | nil => rfl
  | cons x a ih =>
      cases stream with
      | nil => cases h
      | cons y stream =>
          have htail := ih (Nat.le_of_succ_le_succ h)
          unfold xorBytes at htail ⊢
          rw [List.zipWith_cons_cons, List.zipWith_cons_cons, htail, UInt8.xor_assoc, UInt8.xor_self, UInt8.xor_zero]

theorem xorBytes_cancel_left {a : Bytes} {stream : Bytes} (h : a.length ≤ stream.length) :
    xorBytes stream (xorBytes stream a) = a := by
  rw [xorBytes_comm stream, xorBytes_comm stream, xorBytes_cancel h]

theorem incrementReversed_length (bs : Bytes) : (incrementReversed bs).length = bs.length := by
  induction bs with
  | nil => rfl
  | cons b bs ih =>
      unfold incrementReversed
      split
      · rw [List.length_cons, ih, List.length_cons]
      · rfl

theorem incrementCounter_length (iv : Bytes) : (incrementCounter iv).length = iv.length := by
  rw [incrementCounter, List.length_reverse, incrementReversed_length, List.length_reverse]

end Xor

section StepBack
variable {n : Nat} {encrypt decrypt : Bytes → Bytes}

theorem ctrStep_undoes (hlength : ∀ block, block.length = n → (encrypt block).length = n) :
    Undoes (fun iv => iv.length = n) (fun block => block.length ≤ n) (ctrStep encrypt) (ctrStep encrypt) where
  keeps iv block hiv _ := (incrementCounter_length iv).trans hiv
  length iv block hiv hblock := by
    rw [ctrStep, xorBytes_length, hlength iv hiv]
    exact Nat.min_eq_left hblock
  undo iv block hiv hblock := by
    rw [ctrStep, ctrStep, xorBytes_cancel (by rw [hlength iv hiv]; exact hblock)]

theorem ofbStep_undoes (hlength : ∀ block, block.length = n → (encrypt block).length = n) :
    Undoes (fun iv => iv.length = n) (fun block => block.length ≤ n) (ofbStep encrypt) (ofbStep encrypt) where
  keeps iv block hiv _ := hlength iv hiv
  length iv block hiv hblock := by
    rw [ofbStep, xorBytes_length, hlength iv hiv]
    exact Nat.min_eq_right hblock
  undo iv block hiv hblock := by
    rw [ofbStep, ofbStep, xorBytes_cancel_left (by rw [hlength iv hiv]; exact hblock)]

theorem cfbStep_undoes (hlength : ∀ block, block.length = n → (encrypt block).length = n) :
    Undoes (fun iv => iv.length = n) (fun block => block.length ≤ n) (cfbEncryptStep n encrypt) (cfbDecryptStep n encrypt) where
  keeps iv block hiv hblock := by
    rw [cfbEncryptStep, List.length_append, xorBytes_length, hlength iv hiv, List.length_replicate, Nat.min_eq_right hblock]
    omega
  length iv block hiv hblock := by
    rw [cfbEncryptStep, xorBytes_length, hlength iv hiv]
    exact Nat.min_eq_right hblock
  undo iv block hiv hblock := by
    have hlen : (xorBytes (encrypt iv) block).length = block.length := by
      rw [xorBytes_length, hlength iv hiv, Nat.min_eq_right hblock]
    rw [cfbEncryptStep, cfbDecryptStep, hlen, xorBytes_cancel_left (by rw [hlength iv hiv]; exact hblock)]

theorem cbcStep_undoes (hlength : ∀ block, block.length = n → (encrypt block).length = n)
    (hdecrypt : ∀ block, block.length = n → decrypt (encrypt block) = block) :
    Undoes (fun iv => iv.length = n) (fun block => block.length = n) (cbcEncryptStep encrypt) (cbcDecryptStep decrypt) := by
  have hmixed (iv block : Bytes) (hiv : iv.length = n) (hblock : block.length = n) : (xorBytes iv block).length = n := by
    rw [xorBytes_length, hiv, hblock, Nat.min_self]
  refine ⟨fun iv block hiv hblock => hlength _ (hmixed iv block hiv hblock), ?_, ?_⟩
  · intro iv block hiv hblock
    exact (hlength _ (hmixed iv block hiv hblock)).trans hblock.symm
  · intro iv block hiv hblock
    rw [cbcEncryptStep, cbcDecryptStep, hdecrypt _ (hmixed iv block hiv hblock), xorBytes_comm iv,
      xorBytes_cancel (by rw [hiv, hblock])]

theorem ecbStep_undoes {good : Bytes → Prop} (hlength : ∀ block, block.length = n → (encrypt block).length = n)
    (hdecrypt : ∀ block, block.length = n → decrypt (encrypt block) = block) :
    Undoes good (fun block => block.length = n) (ecbStep encrypt) (ecbStep decrypt) where
  keeps iv block hiv _ := hiv
  length iv block _ hblock := (hlength block hblock).trans hblock.symm
  undo iv block _ hblock := by rw [ecbStep, ecbStep, hdecrypt block hblock]

end StepBack

/-! ## Round trips -/

section RoundTrip
variable {C : BlockCiphers} {algorithm : SymCipher} {keyBits : Nat} {key : Bytes}

theorem blockSize_of_ne (h : algorithm.cryptGetSymmetricBlockSize keyBits ≠ 0) :
    algorithm.cryptGetSymmetricBlockSize keyBits = algorithm.blockSize := by
  unfold SymCipher.cryptGetSymmetricBlockSize at h ⊢
  split
  · rfl
  · rename_i hbits
    exact absurd (if_neg hbits) h

/-- The loop of a mode and the loop back; CBC and ECB are for whole blocks. -/
theorem symmetricPass_undo {good : Bytes → Prop} {whole : Bytes → Prop} {mode : SymMode}
    {step back : Bytes → Bytes → Bytes × Bytes} (hpos : 0 < algorithm.cryptGetSymmetricBlockSize keyBits)
    (hundo : Undoes good whole step back) {ivInOut : Option Bytes}
    (hgood : good (ivInOut.getD (List.replicate (algorithm.cryptGetSymmetricBlockSize keyBits) 0))) {dIn dOut : Bytes}
    (hwhole : (∀ block : Bytes, block.length ≤ algorithm.cryptGetSymmetricBlockSize keyBits → whole block) ∨
      (mode = .cbc ∨ mode = .ecb) ∧ ∀ block : Bytes, block.length = algorithm.cryptGetSymmetricBlockSize keyBits → whole block)
    {ivOut : Option Bytes} (h : symmetricPass algorithm keyBits mode step ivInOut dIn = .ok (dOut, ivOut)) :
    dOut.length = dIn.length ∧ symmetricPass algorithm keyBits mode back ivInOut dOut = .ok (dIn, ivOut) := by
  unfold symmetricPass at h ⊢
  dsimp only at h ⊢
  split at h
  · cases h
  · rename_i hsize
    obtain ⟨hout, hivOut⟩ := Prod.mk.inj (Except.ok.inj h)
    have hblocks : EveryBlock (algorithm.cryptGetSymmetricBlockSize keyBits) whole dIn := by
      rcases hwhole with hany | ⟨hmode, hfull⟩
      · exact everyBlock_of_le hpos (fun block _ hle => hany block hle) dIn
      · refine everyBlock_of_dvd hfull (Nat.dvd_of_mod_eq_zero ?_)
        exact Classical.not_not.mp fun hne => hsize ⟨hmode, hne⟩
    have hlength := hundo.pass_length hpos hgood hblocks
    have hback := hundo.pass hpos hgood hblocks
    rw [hout] at hlength hback
    refine ⟨hlength, ?_⟩
    rw [hlength, if_neg hsize, hback, hivOut]

/-- `CryptSymmetricDecrypt` gives back what `CryptSymmetricEncrypt` was given, and both leave the same IV. -/
theorem cryptSymmetricDecrypt_encrypt (hC : C.Lawful) {ivInOut : Option Bytes} {mode : Option SymMode} {dIn dOut : Bytes}
    {ivOut : Option Bytes}
    (hiv : ∀ iv, ivInOut = some iv → mode ≠ some .ecb → iv.length = algorithm.cryptGetSymmetricBlockSize keyBits)
    (h : C.cryptSymmetricEncrypt algorithm keyBits key ivInOut mode dIn = .ok (dOut, ivOut)) :
    dOut.length = dIn.length ∧ C.cryptSymmetricDecrypt algorithm keyBits key ivInOut mode dOut = .ok (dIn, ivOut) := by
  unfold BlockCiphers.cryptSymmetricEncrypt at h
  dsimp only at h
  split at h
  · rename_i hempty
    obtain ⟨rfl, rfl⟩ := Prod.mk.inj (Except.ok.inj h)
    rw [List.isEmpty_iff.mp hempty]
    exact ⟨rfl, rfl⟩
  · rename_i hne
    split at h
    · cases h
    · rename_i hsize
      have hpos := Nat.pos_of_ne_zero hsize
      have hlength : ∀ block : Bytes, block.length = algorithm.cryptGetSymmetricBlockSize keyBits →
          (C.encrypt algorithm keyBits key block).length = algorithm.cryptGetSymmetricBlockSize keyBits := by
        rw [blockSize_of_ne hsize]
        exact hC.length algorithm keyBits key
      have hdecrypt : ∀ block : Bytes, block.length = algorithm.cryptGetSymmetricBlockSize keyBits →
          C.decrypt algorithm keyBits key (C.encrypt algorithm keyBits key block) = block := by
        rw [blockSize_of_ne hsize]
        exact hC.decrypt_encrypt algorithm keyBits key
      have hgood (hmode : mode ≠ some .ecb) :
          (ivInOut.getD (List.replicate (algorithm.cryptGetSymmetricBlockSize keyBits) 0)).length =
            algorithm.cryptGetSymmetricBlockSize keyBits := by
        cases ivInOut with
        | none => exact List.length_replicate
        | some iv => exact hiv iv rfl hmode
      have hdone {m : SymMode} {back : Bytes → Bytes → Bytes × Bytes} (hback : dOut.length = dIn.length ∧
            symmetricPass algorithm keyBits m back ivInOut dOut = .ok (dIn, ivOut))
          (hmode : C.cryptSymmetricDecrypt algorithm keyBits key ivInOut mode dOut =
            if dOut.isEmpty then .ok ([], ivInOut)
            else if algorithm.cryptGetSymmetricBlockSize keyBits = 0 then .error (.of .failure)
            else symmetricPass algorithm keyBits m back ivInOut dOut) :
          dOut.length = dIn.length ∧ C.cryptSymmetricDecrypt algorithm keyBits key ivInOut mode dOut = .ok (dIn, ivOut) := by
        refine ⟨hback.1, ?_⟩
        have hout : ¬ dOut.isEmpty = true := by
          intro hnil
          have hzero := hback.1
          rw [List.isEmpty_iff.mp hnil] at hzero
          exact hne (List.isEmpty_iff.mpr (List.length_eq_zero_iff.mp hzero.symm))
        rw [hmode, if_neg hout, if_neg hsize, hback.2]
      split at h
      · exact hdone (symmetricPass_undo hpos (ctrStep_undoes hlength) (hgood (by decide)) (.inl fun _ => id) h) rfl
      · exact hdone (symmetricPass_undo hpos (ofbStep_undoes hlength) (hgood (by decide)) (.inl fun _ => id) h) rfl
      · exact hdone (symmetricPass_undo hpos (cbcStep_undoes hlength hdecrypt) (hgood (by decide))
          (.inr ⟨.inl rfl, fun _ => id⟩) h) rfl
      · exact hdone (symmetricPass_undo hpos (cfbStep_undoes hlength) (hgood (by decide)) (.inl fun _ => id) h) rfl
      · have hundo : Undoes (fun _ : Bytes => True)
            (fun block : Bytes => block.length = algorithm.cryptGetSymmetricBlockSize keyBits)
            (ecbStep (C.encrypt algorithm keyBits key)) (ecbStep (C.decrypt algorithm keyBits key)) :=
          ecbStep_undoes hlength hdecrypt
        exact hdone (symmetricPass_undo hpos hundo trivial (.inr ⟨.inr rfl, fun _ => id⟩) h) rfl
      · cases h
      · cases h

end RoundTrip

/-! ## Data in pieces -/

section Pieces
variable {C : BlockCiphers} {algorithm : SymCipher} {keyBits : Nat} {key : Bytes}

/-- What a step leaves of the IV after a whole block. -/
structure KeepsIv (n : Nat) (mode : SymMode) (step : Bytes → Bytes → Bytes × Bytes) : Prop where
  length : ∀ iv block, iv.length = n → block.length = n → (step iv block).2.length = n
  ecb : mode = .ecb → ∀ iv block, (step iv block).2 = iv

/-- In either direction a mode is the loop of one step, or there is no such mode. -/
theorem crypt_shape (hC : C.Lawful) (hsize : algorithm.cryptGetSymmetricBlockSize keyBits ≠ 0) (decryptIn : Bool)
    (mode : Option SymMode) :
    (mode ≠ some .cbc ∧ mode ≠ some .ecb ∧
        ∀ iv dIn, C.crypt algorithm keyBits key decryptIn iv mode dIn =
          if dIn.isEmpty then .ok ([], iv) else .error (.of .failure)) ∨
      ∃ m step, mode = some m ∧ KeepsIv (algorithm.cryptGetSymmetricBlockSize keyBits) m step ∧
        ∀ iv dIn, C.crypt algorithm keyBits key decryptIn iv mode dIn =
          if dIn.isEmpty then .ok ([], iv) else symmetricPass algorithm keyBits m step iv dIn := by
  have hlength : ∀ block : Bytes, block.length = algorithm.cryptGetSymmetricBlockSize keyBits →
      (C.encrypt algorithm keyBits key block).length = algorithm.cryptGetSymmetricBlockSize keyBits := by
    rw [blockSize_of_ne hsize]
    exact hC.length algorithm keyBits key
  have hshape {m : SymMode} {step : Bytes → Bytes → Bytes × Bytes} (iv : Option Bytes) (dIn : Bytes) :
      (if dIn.isEmpty then .ok ([], iv)
        else if algorithm.cryptGetSymmetricBlockSize keyBits = 0 then .error (.of .failure)
        else symmetricPass algorithm keyBits m step iv dIn) =
      (if dIn.isEmpty then .ok ([], iv) else symmetricPass algorithm keyBits m step iv dIn :
        Except Fault (Bytes × Option Bytes)) := by
    rw [if_neg hsize]
  have hfails (iv : Option Bytes) (dIn : Bytes) :
      (if dIn.isEmpty then .ok ([], iv)
        else if algorithm.cryptGetSymmetricBlockSize keyBits = 0 then .error (.of .failure)
        else .error (.of .failure) : Except Fault (Bytes × Option Bytes)) =
      if dIn.isEmpty then .ok ([], iv) else .error (.of .failure) := congrArg (ite _ _) (ite_self _)
  cases mode with
  | none =>
      refine .inl ⟨by decide, by decide, ?_⟩
      cases decryptIn <;> exact hfails
  | some m =>
      cases m with
      | cmac =>
          refine .inl ⟨by decide, by decide, ?_⟩
          cases decryptIn <;> exact hfails
      | ctr =>
          have hstep := ctrStep_undoes hlength
          refine .inr ⟨.ctr, _, rfl, ⟨fun iv block hiv hb => hstep.keeps iv block hiv (Nat.le_of_eq hb), fun hm => ?_⟩, ?_⟩
          · cases hm
          · cases decryptIn <;> exact hshape
      | ofb =>
          have hstep := ofbStep_undoes hlength
          refine .inr ⟨.ofb, _, rfl, ⟨fun iv block hiv hb => hstep.keeps iv block hiv (Nat.le_of_eq hb), fun hm => ?_⟩, ?_⟩
          · cases hm
          · cases decryptIn <;> exact hshape
      | cfb =>
          cases decryptIn
          · have hstep := cfbStep_undoes hlength
            refine .inr ⟨.cfb, _, rfl, ⟨fun iv block hiv hb => hstep.keeps iv block hiv (Nat.le_of_eq hb), fun hm => ?_⟩, hshape⟩
            cases hm
          · refine .inr ⟨.cfb, _, rfl, ⟨fun iv block hiv hb => ?_, fun hm => ?_⟩, hshape⟩
            · rw [cfbDecryptStep, List.length_append, hb, List.length_replicate]
              omega
            · cases hm
      | cbc =>
          cases decryptIn
          · refine .inr ⟨.cbc, _, rfl, ⟨fun iv block hiv hb => hlength _ ?_, fun hm => ?_⟩, hshape⟩
            · rw [xorBytes_length, hiv, hb, Nat.min_self]
            · cases hm
          · refine .inr ⟨.cbc, _, rfl, ⟨fun iv block hiv hb => hb, fun hm => ?_⟩, hshape⟩
            cases hm
      | ecb =>
          cases decryptIn <;>
            exact .inr ⟨.ecb, _, rfl, ⟨fun iv block hiv hb => hiv, fun _ iv block => rfl⟩, hshape⟩

variable {mode : SymMode} {step : Bytes → Bytes → Bytes × Bytes} {iv : Bytes}

theorem pass_ecb {n : Nat} (hpos : 0 < n) (hkeeps : KeepsIv n mode step) (hecb : mode = .ecb) (iv dIn : Bytes) :
    (pass n step iv dIn).2 = iv := by
  induction dIn using block_induction hpos with
  | hnil => rfl
  | hstep dIn hne ih =>
      rw [pass_eq hpos step iv hne, hkeeps.ecb hecb]
      exact ih

/-- The IV that whole blocks leave is one for more data. -/
theorem symmetricPass_iv (hpos : 0 < algorithm.cryptGetSymmetricBlockSize keyBits)
    (hkeeps : KeepsIv (algorithm.cryptGetSymmetricBlockSize keyBits) mode step)
    (hiv : iv.length = if mode = .ecb then 0 else algorithm.cryptGetSymmetricBlockSize keyBits) {dIn : Bytes}
    (hdvd : algorithm.cryptGetSymmetricBlockSize keyBits ∣ dIn.length) :
    symmetricPass algorithm keyBits mode step (some iv) dIn =
        .ok ((pass (algorithm.cryptGetSymmetricBlockSize keyBits) step iv dIn).1,
          some (pass (algorithm.cryptGetSymmetricBlockSize keyBits) step iv dIn).2) ∧
      (pass (algorithm.cryptGetSymmetricBlockSize keyBits) step iv dIn).2.length = iv.length := by
  have hwhole : ¬ ((mode = .cbc ∨ mode = .ecb) ∧ dIn.length % algorithm.cryptGetSymmetricBlockSize keyBits ≠ 0) :=
    fun h => h.2 (Nat.mod_eq_zero_of_dvd hdvd)
  unfold symmetricPass
  dsimp only
  rw [if_neg hwhole, Option.getD_some]
  by_cases hecb : mode = .ecb
  · rw [if_pos hecb, pass_ecb hpos hkeeps hecb]
    exact ⟨rfl, rfl⟩
  · rw [if_neg hecb] at hiv ⊢
    refine ⟨rfl, Eq.trans ?_ hiv.symm⟩
    exact @pass_keeps _ _ _ _ (fun s : Bytes => s.length = algorithm.cryptGetSymmetricBlockSize keyBits) _ hpos hkeeps.length _ _ hiv
      (everyBlock_of_dvd (fun _ => id) hdvd)

theorem symmetricPass_append (hpos : 0 < algorithm.cryptGetSymmetricBlockSize keyBits)
    (hkeeps : KeepsIv (algorithm.cryptGetSymmetricBlockSize keyBits) mode step) {first : Bytes}
    (hdvd : algorithm.cryptGetSymmetricBlockSize keyBits ∣ first.length) (second : Bytes) :
    symmetricPass algorithm keyBits mode step (some iv) (first ++ second) =
      (symmetricPass algorithm keyBits mode step
          (some (pass (algorithm.cryptGetSymmetricBlockSize keyBits) step iv first).2) second).map fun out =>
        ((pass (algorithm.cryptGetSymmetricBlockSize keyBits) step iv first).1 ++ out.1, out.2) := by
  have hmod : (first ++ second).length % algorithm.cryptGetSymmetricBlockSize keyBits =
      second.length % algorithm.cryptGetSymmetricBlockSize keyBits := by
    obtain ⟨count, hcount⟩ := hdvd
    rw [List.length_append, hcount, Nat.mul_add_mod]
  unfold symmetricPass
  dsimp only
  rw [hmod]
  split
  · rfl
  · rw [Option.getD_some, Option.getD_some, pass_append hpos iv hdvd second]
    by_cases hecb : mode = .ecb
    · rw [if_pos hecb, if_pos hecb, pass_ecb hpos hkeeps hecb]
      rfl
    · rw [if_neg hecb, if_neg hecb]
      rfl

/-- Whole blocks first and the rest with the IV that they leave is all at once. -/
theorem crypt_append (hC : C.Lawful) (hsize : algorithm.cryptGetSymmetricBlockSize keyBits ≠ 0) (decryptIn : Bool)
    (mode : Option SymMode) (hiv : iv.length = if mode = some .ecb then 0 else algorithm.cryptGetSymmetricBlockSize keyBits)
    {first : Bytes} (hdvd : algorithm.cryptGetSymmetricBlockSize keyBits ∣ first.length) (second : Bytes) :
    let crypt := C.crypt algorithm keyBits key decryptIn
    (mode ≠ some .cbc ∧ mode ≠ some .ecb ∧
        ∃ e, crypt (some iv) mode first = .error e ∧ crypt (some iv) mode (first ++ second) = .error e) ∨
      ∃ out iv', crypt (some iv) mode first = .ok (out, some iv') ∧ iv'.length = iv.length ∧
        crypt (some iv) mode (first ++ second) = (crypt (some iv') mode second).map fun r => (out ++ r.1, r.2) := by
  intro crypt
  have hpos := Nat.pos_of_ne_zero hsize
  have hid (x : Except Fault (Bytes × Option Bytes)) : x = x.map fun r => ([] ++ r.1, r.2) := by
    cases x <;> rfl
  by_cases hfirst : first = []
  · subst hfirst
    have hnone : crypt (some iv) mode [] = .ok ([], some iv) := by
      cases decryptIn <;> rfl
    exact .inr ⟨[], iv, hnone, rfl, hid _⟩
  · have hempty : ¬ first.isEmpty = true := fun h => hfirst (List.isEmpty_iff.mp h)
    have hempty' : ¬ (first ++ second).isEmpty = true :=
      fun h => hfirst (List.append_eq_nil_iff.mp (List.isEmpty_iff.mp h)).1
    rcases @crypt_shape C algorithm keyBits key hC hsize decryptIn mode with ⟨hcbc, hecb, hfails⟩ | ⟨m, step, rfl, hkeeps, hshape⟩
    · refine .inl ⟨hcbc, hecb, _, (hfails _ _).trans (if_neg hempty), (hfails _ _).trans (if_neg hempty')⟩
    · have hiv' : iv.length = if m = .ecb then 0 else algorithm.cryptGetSymmetricBlockSize keyBits := by
        simpa using hiv
      obtain ⟨hrun, hlength⟩ := symmetricPass_iv hpos hkeeps hiv' hdvd
      have hall := @symmetricPass_append algorithm keyBits m step iv hpos hkeeps first hdvd second
      refine .inr ⟨_, _, ((hshape _ _).trans (if_neg hempty)).trans hrun, hlength, ?_⟩
      refine ((hshape _ _).trans (if_neg hempty')).trans ?_
      by_cases hsecond : second = []
      · subst hsecond
        rw [List.append_nil, hrun, show crypt _ _ [] = _ from hshape _ _]
        exact congrArg (fun out => Except.ok (out, _)) (List.append_nil _).symm
      · have hempty'' : ¬ second.isEmpty = true := fun h => hsecond (List.isEmpty_iff.mp h)
        rw [hall, show crypt _ _ second = _ from hshape _ _, if_neg hempty'']

end Pieces

/-! ## The two commands -/

section Commands
variable {C : BlockCiphers} {symKey : Object} {sym : SymDef} {decryptIn : Bool} {modeIn : Option SymMode} {ivIn inData : Bytes}

/-- What `EncryptDecryptShared` checks, and the mode it selects. -/
structure SymRequest (symKey : Object) (sym : SymDef) (decryptIn : Bool) (modeIn mode : Option SymMode) (ivIn inData : Bytes) :
    Prop where
  symDetail : symKey.publicArea.symDetail = some sym
  attributes : ¬ (symKey.publicArea.objectAttributes.restricted = true ∨
    (if decryptIn then symKey.publicArea.objectAttributes.decrypt else symKey.publicArea.objectAttributes.sign) = false)
  modeIsValid : ¬ cryptSymModeIsValid sym.mode = false
  select : selectSymMode sym.mode modeIn = .ok mode
  blockSize : ¬ sym.algorithm.cryptGetSymmetricBlockSize sym.keyBits = 0
  iv : ivIn.length = if mode = some .ecb then 0 else sym.algorithm.cryptGetSymmetricBlockSize sym.keyBits
  data : ¬ ((mode = some .cbc ∨ mode = some .ecb) ∧
    inData.length % sym.algorithm.cryptGetSymmetricBlockSize sym.keyBits ≠ 0)

theorem SymRequest.shared_eq {mode : Option SymMode} (h : SymRequest symKey sym decryptIn modeIn mode ivIn inData) :
    encryptDecryptShared C symKey decryptIn modeIn ivIn inData =
      (C.crypt sym.algorithm sym.keyBits symKey.sensitive.sensitiveBuffer decryptIn (some ivIn) mode inData).map
        fun out => (out.1, out.2.getD []) := by
  unfold encryptDecryptShared
  rw [h.symDetail]
  dsimp only
  rw [if_neg h.attributes, if_neg h.modeIsValid, h.select]
  change (if _ then _ else _) = _
  rw [if_neg h.blockSize, if_neg (not_not_intro h.iv), if_neg h.data]
  rfl

/-- What is answered has been checked. -/
theorem symRequest_of_ok {r : Bytes × Bytes} (h : encryptDecryptShared C symKey decryptIn modeIn ivIn inData = .ok r) :
    ∃ sym mode, SymRequest symKey sym decryptIn modeIn mode ivIn inData := by
  unfold encryptDecryptShared at h
  split at h
  · cases h
  · rename_i sym hsym
    dsimp only at h
    by_cases hattributes : symKey.publicArea.objectAttributes.restricted = true ∨
        (if decryptIn then symKey.publicArea.objectAttributes.decrypt else symKey.publicArea.objectAttributes.sign) = false
    · rw [if_pos hattributes] at h
      cases h
    · rw [if_neg hattributes] at h
      split at h
      · cases h
      · rename_i hvalid
        obtain ⟨mode, hmode, h⟩ := Transition.bind_eq_ok h
        split at h
        · cases h
        · rename_i hsize
          by_cases hiv : ivIn.length = if mode = some .ecb then 0 else sym.algorithm.cryptGetSymmetricBlockSize sym.keyBits
          · rw [if_neg (not_not_intro hiv)] at h
            split at h
            · cases h
            · rename_i hdata
              exact ⟨sym, mode, hsym, hattributes, hvalid, hmode, hsize, hiv, hdata⟩
          · rw [if_pos hiv] at h
            cases h

/-- A key that may decrypt as well gives back what it has encrypted, under the same mode and IV, and leaves the same IV. -/
theorem encryptDecrypt_decrypts (hC : C.Lawful) {outData ivOut : Bytes}
    (h : encryptDecrypt C symKey false modeIn ivIn inData = .ok (outData, ivOut))
    (hdecrypt : symKey.publicArea.objectAttributes.decrypt = true) :
    encryptDecrypt C symKey true modeIn ivIn outData = .ok (inData, ivOut) := by
  obtain ⟨sym, mode, hrequest⟩ := symRequest_of_ok h
  have hrun := hrequest.shared_eq (C := C).symm.trans h
  cases hcrypt : C.cryptSymmetricEncrypt sym.algorithm sym.keyBits symKey.sensitive.sensitiveBuffer (some ivIn) mode inData with
  | error e =>
      rw [BlockCiphers.crypt, if_neg Bool.false_ne_true, hcrypt] at hrun
      cases hrun
  | ok out =>
      obtain ⟨dOut, ivOut'⟩ := out
      rw [BlockCiphers.crypt, if_neg Bool.false_ne_true, hcrypt] at hrun
      obtain ⟨hout, hiv⟩ := Prod.mk.inj (Except.ok.inj hrun)
      obtain ⟨hlength, hback⟩ := cryptSymmetricDecrypt_encrypt hC (by
        intro iv heq hmode
        have hiv := hrequest.iv
        rw [if_neg hmode] at hiv
        cases heq
        exact hiv) hcrypt
      have hrequest' : SymRequest symKey sym true modeIn mode ivIn outData := by
        refine ⟨hrequest.symDetail, ?_, hrequest.modeIsValid, hrequest.select, hrequest.blockSize, hrequest.iv, ?_⟩
        · rintro (hrestricted | hno)
          · exact hrequest.attributes (.inl hrestricted)
          · rw [if_pos rfl, hdecrypt] at hno
            cases hno
        · rw [← hout, hlength]
          exact hrequest.data
      change encryptDecryptShared C symKey true modeIn ivIn outData = _
      rw [hrequest'.shared_eq, BlockCiphers.crypt, if_pos rfl, ← hout, hback, ← hiv]
      rfl

/-- A request that is refused for anything but the size of its data is refused whatever the data is. -/
theorem shared_refused (hsym : symKey.publicArea.symDetail = some sym)
    (hrefused : ¬ ∃ mode, SymRequest symKey sym decryptIn modeIn mode ivIn []) :
    ∃ e, ∀ inData, encryptDecryptShared C symKey decryptIn modeIn ivIn inData = .error e := by
  by_cases hattributes : symKey.publicArea.objectAttributes.restricted = true ∨
      (if decryptIn then symKey.publicArea.objectAttributes.decrypt else symKey.publicArea.objectAttributes.sign) = false
  · refine ⟨.at .attributes 0x100, fun inData => ?_⟩
    unfold encryptDecryptShared
    rw [hsym]
    exact if_pos hattributes
  by_cases hvalid : cryptSymModeIsValid sym.mode = false
  · refine ⟨.at .mode 0x100, fun inData => ?_⟩
    unfold encryptDecryptShared
    rw [hsym]
    exact (if_neg hattributes).trans (if_pos hvalid)
  cases hselect : selectSymMode sym.mode modeIn with
  | error e =>
      refine ⟨e, fun inData => ?_⟩
      unfold encryptDecryptShared
      rw [hsym]
      dsimp only
      rw [if_neg hattributes, if_neg hvalid, hselect]
      rfl
  | ok mode =>
      have hreduced (inData : Bytes) : encryptDecryptShared C symKey decryptIn modeIn ivIn inData =
          if sym.algorithm.cryptGetSymmetricBlockSize sym.keyBits = 0 then .error (.at .key 0x100)
          else if ivIn.length ≠ (if mode = some .ecb then 0 else sym.algorithm.cryptGetSymmetricBlockSize sym.keyBits) then
            .error (.at .size 0x340)
          else if (mode = some .cbc ∨ mode = some .ecb) ∧
            inData.length % sym.algorithm.cryptGetSymmetricBlockSize sym.keyBits ≠ 0 then .error (.at .size 0x440)
          else
            (C.crypt sym.algorithm sym.keyBits symKey.sensitive.sensitiveBuffer decryptIn (some ivIn) mode inData).map
              fun out => (out.1, out.2.getD []) := by
        unfold encryptDecryptShared
        rw [hsym]
        dsimp only
        rw [if_neg hattributes, if_neg hvalid, hselect]
        rfl
      by_cases hsize : sym.algorithm.cryptGetSymmetricBlockSize sym.keyBits = 0
      · exact ⟨.at .key 0x100, fun inData => (hreduced inData).trans (if_pos hsize)⟩
      by_cases hiv : ivIn.length = if mode = some .ecb then 0 else sym.algorithm.cryptGetSymmetricBlockSize sym.keyBits
      · refine absurd ⟨mode, hsym, hattributes, hvalid, hselect, hsize, hiv, fun h => h.2 ?_⟩ hrefused
        exact Nat.zero_mod _
      · refine ⟨.at .size 0x340, fun inData => (hreduced inData).trans ?_⟩
        rw [if_neg hsize, if_pos hiv]

theorem SymRequest.of_dvd {mode : Option SymMode} (h : SymRequest symKey sym decryptIn modeIn mode ivIn [])
    (hdvd : (mode = some .cbc ∨ mode = some .ecb) → inData.length % sym.algorithm.cryptGetSymmetricBlockSize sym.keyBits = 0) :
    SymRequest symKey sym decryptIn modeIn mode ivIn inData :=
  ⟨h.symDetail, h.attributes, h.modeIsValid, h.select, h.blockSize, h.iv, fun hdata => hdata.2 (hdvd hdata.1)⟩

theorem shared_size {mode : Option SymMode} (h : SymRequest symKey sym decryptIn modeIn mode ivIn [])
    (hsize : (mode = some .cbc ∨ mode = some .ecb) ∧
      inData.length % sym.algorithm.cryptGetSymmetricBlockSize sym.keyBits ≠ 0) :
    encryptDecryptShared C symKey decryptIn modeIn ivIn inData = .error (.at .size 0x440) := by
  unfold encryptDecryptShared
  rw [h.symDetail]
  dsimp only
  rw [if_neg h.attributes, if_neg h.modeIsValid, h.select]
  change (if _ then _ else _) = _
  rw [if_neg h.blockSize, if_neg (not_not_intro h.iv), if_pos hsize]

/-- Data may be given to several commands, each with the IV that the one before has left: as long as all but the last are
of whole blocks, the answer is that of one command for all of it. -/
theorem encryptDecrypt_append (hC : C.Lawful) (hsym : symKey.publicArea.symDetail = some sym) {first : Bytes}
    (hdvd : sym.algorithm.cryptGetSymmetricBlockSize sym.keyBits ∣ first.length) (second : Bytes) :
    encryptDecrypt C symKey decryptIn modeIn ivIn (first ++ second) =
      encryptDecrypt C symKey decryptIn modeIn ivIn first >>= fun a =>
        (encryptDecrypt C symKey decryptIn modeIn a.2 second).map fun b => (a.1 ++ b.1, b.2) := by
  have hmod : (first ++ second).length % sym.algorithm.cryptGetSymmetricBlockSize sym.keyBits =
      second.length % sym.algorithm.cryptGetSymmetricBlockSize sym.keyBits := by
    obtain ⟨count, hcount⟩ := hdvd
    rw [List.length_append, hcount, Nat.mul_add_mod]
  change encryptDecryptShared C symKey decryptIn modeIn ivIn (first ++ second) =
    encryptDecryptShared C symKey decryptIn modeIn ivIn first >>= fun a =>
      (encryptDecryptShared C symKey decryptIn modeIn a.2 second).map fun b => (a.1 ++ b.1, b.2)
  by_cases hrequest : ∃ mode, SymRequest symKey sym decryptIn modeIn mode ivIn []
  · obtain ⟨mode, hempty⟩ := hrequest
    have hfirst : SymRequest symKey sym decryptIn modeIn mode ivIn first :=
      hempty.of_dvd fun _ => Nat.mod_eq_zero_of_dvd hdvd
    rcases @crypt_append C sym.algorithm sym.keyBits symKey.sensitive.sensitiveBuffer ivIn hC hempty.blockSize decryptIn mode
      hempty.iv first hdvd second with ⟨hcbc, hecb, e, hfails, hall⟩ | ⟨out, iv', hrun, hlength, hall⟩
    · have hwhole : SymRequest symKey sym decryptIn modeIn mode ivIn (first ++ second) :=
        hempty.of_dvd fun hmode => absurd hmode (not_or.mpr ⟨hcbc, hecb⟩)
      rw [hfirst.shared_eq, hwhole.shared_eq, hfails, hall]
      rfl
    · have hnext : SymRequest symKey sym decryptIn modeIn mode iv' [] :=
        ⟨hempty.symDetail, hempty.attributes, hempty.modeIsValid, hempty.select, hempty.blockSize,
          hlength.trans hempty.iv, hempty.data⟩
      rw [hfirst.shared_eq, hrun]
      change _ = (encryptDecryptShared C symKey decryptIn modeIn iv' second).map _
      by_cases hsize : (mode = some .cbc ∨ mode = some .ecb) ∧
          second.length % sym.algorithm.cryptGetSymmetricBlockSize sym.keyBits ≠ 0
      · rw [shared_size hnext hsize, shared_size hempty (by rw [hmod]; exact hsize)]
        rfl
      · have hdata : mode = some .cbc ∨ mode = some .ecb →
            second.length % sym.algorithm.cryptGetSymmetricBlockSize sym.keyBits = 0 :=
          fun hmode => Classical.not_not.mp fun hne => hsize ⟨hmode, hne⟩
        rw [(hnext.of_dvd hdata).shared_eq, (hempty.of_dvd (by rw [hmod]; exact hdata)).shared_eq, hall]
        cases C.crypt sym.algorithm sym.keyBits symKey.sensitive.sensitiveBuffer decryptIn (some iv') mode second <;> rfl
  · obtain ⟨e, he⟩ := shared_refused (C := C) hsym hrequest
    rw [he, he]
    rfl

end Commands

/-! ## A test vector -/

/-- `key_AES128` of `SymmetricTestData.h`. -/
def keyAes128 : Tpm2b 32 :=
  .ofBytes [0x2b, 0x7e, 0x15, 0x16, 0x28, 0xae, 0xd2, 0xa6, 0xab, 0xf7, 0x15, 0x88, 0x09, 0xcf, 0x4f, 0x3c]

/-- `MakeIv`. -/
def ivAes128 : Bytes := (List.range 16).map UInt8.ofNat

/-- `dataIn_AES128`, in two blocks. -/
def dataInFirst : Bytes :=
  [0x6b, 0xc1, 0xbe, 0xe2, 0x2e, 0x40, 0x9f, 0x96, 0xe9, 0x3d, 0x7e, 0x11, 0x73, 0x93, 0x17, 0x2a]

def dataInSecond : Bytes :=
  [0xae, 0x2d, 0x8a, 0x57, 0x1e, 0x03, 0xac, 0x9c, 0x9e, 0xb7, 0x6f, 0xac, 0x45, 0xaf, 0x8e, 0x51]

/-- `dataOut_AES128_CBC`. -/
def dataOutFirst : Bytes :=
  [0x76, 0x49, 0xab, 0xac, 0x81, 0x19, 0xb2, 0x46, 0xce, 0xe9, 0x8e, 0x9b, 0x12, 0xe9, 0x19, 0x7d]

def dataOutSecond : Bytes :=
  [0x50, 0x86, 0xcb, 0x9b, 0x50, 0x72, 0x19, 0xee, 0x95, 0xdb, 0x11, 0x3a, 0x91, 0x76, 0x78, 0xb2]

def exchange (a b block : Bytes) : Bytes := if block = a then b else if block = b then a else block

/-- Block functions that agree with AES on the blocks of the test vector. -/
def testVectorCiphers : BlockCiphers where
  encrypt _ _ _ block :=
    exchange (xorBytes dataOutFirst dataInSecond) dataOutSecond (exchange (xorBytes ivAes128 dataInFirst) dataOutFirst block)
  decrypt _ _ _ block :=
    exchange (xorBytes ivAes128 dataInFirst) dataOutFirst (exchange (xorBytes dataOutFirst dataInSecond) dataOutSecond block)

theorem exchange_length {a b : Bytes} (h : a.length = b.length) (block : Bytes) : (exchange a b block).length = block.length := by
  unfold exchange
  split
  · rename_i heq
    rw [heq, h]
  · split
    · rename_i heq
      rw [heq, h]
    · rfl

theorem exchange_exchange (a b block : Bytes) : exchange a b (exchange a b block) = block := by
  unfold exchange
  by_cases ha : block = a
  · by_cases hab : b = a
    · rw [if_pos ha, if_pos hab, hab, ha]
    · rw [if_pos ha, if_neg hab, if_pos rfl, ha]
  · by_cases hb : block = b
    · rw [if_neg ha, if_pos hb, if_pos rfl, hb]
    · rw [if_neg ha, if_neg hb, if_neg ha, if_neg hb]

theorem testVectorCiphers_lawful : testVectorCiphers.Lawful where
  length algorithm keyBits key block hblock := by
    unfold testVectorCiphers
    dsimp only
    rw [exchange_length (by decide), exchange_length (by decide)]
    exact hblock
  decrypt_encrypt algorithm keyBits key block _ := by
    unfold testVectorCiphers
    dsimp only
    rw [exchange_exchange, exchange_exchange]

/-- A key for encryption and decryption that leaves its mode open. -/
def aesKey : Object :=
  { restrictedDecryptKey (t := .symcipher) (⟨.aes, 128, none, aes_keyBits⟩ : SymDef) (Tpm2b.empty : Tpm2bDigest) with
    publicArea :=
      { type := .symcipher
        nameAlg := some .sha256
        objectAttributes := { userWithAuth := true, decrypt := true, sign := true }
        authPolicy := .empty
        parameters := (⟨.aes, 128, none, aes_keyBits⟩ : SymDef)
        unique := (Tpm2b.empty : Tpm2bDigest) }
    sensitive :=
      { authValue := .empty
        seedValue := .empty
        sensitive := some ⟨.symcipher, keyAes128⟩
        public_only := nofun } }

theorem encryptDecrypt_decrypts_vector :
    encryptDecrypt testVectorCiphers aesKey true (some .cbc) ivAes128 (dataOutFirst ++ dataOutSecond) =
      .ok (dataInFirst ++ dataInSecond, dataOutSecond) :=
  encryptDecrypt_decrypts testVectorCiphers_lawful rfl rfl

theorem encryptDecrypt_append_vector :
    encryptDecrypt testVectorCiphers aesKey false (some .cbc) ivAes128 (dataInFirst ++ dataInSecond) =
      encryptDecrypt testVectorCiphers aesKey false (some .cbc) ivAes128 dataInFirst >>= fun a =>
        (encryptDecrypt testVectorCiphers aesKey false (some .cbc) a.2 dataInSecond).map fun b => (a.1 ++ b.1, b.2) :=
  encryptDecrypt_append testVectorCiphers_lawful
    (show aesKey.publicArea.symDetail = some ⟨.aes, 128, none, aes_keyBits⟩ from rfl) ⟨1, rfl⟩ dataInSecond

end PqcTpm
