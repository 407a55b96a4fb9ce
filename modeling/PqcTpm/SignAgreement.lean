import PqcTpm.SignatureBinding

/-!
# Signing and verifying with one key

The two branches of `CryptMlDsaSign` and `CryptMlDsaSignMessage`, the commands that sign with an ML-DSA key
and the commands that verify what they have signed. The native branch asks OpenSSL, with the instance and the
context; the branch for Emscripten asks a bridge, which takes neither, and fills in a placeholder where there
is no bridge. Verification is OpenSSL's in both.
-/
namespace PqcTpm
open ByteCodec Transition

/-- Whether `__EMSCRIPTEN__` is defined. -/
inductive Build
  | native | emscripten
  deriving DecidableEq

/-- The EVP calls on a private key, and `pqc_bridge_mldsa_sign`, which fills the buffer of the signature or
fails, as it does where no bridge is registered. -/
structure MlDsaSigner where
  pkeyFromSeed : MldsaParameterSet → Bytes → Bool
  digestSign : MldsaParameterSet → Bytes → Option HashAlg → Bytes → Bytes → Option Bytes
  bridgeSign : (set : MldsaParameterSet) → Bytes → Bytes → Option { sig : Bytes // sig.length = set.sigSize }

/-- `sensitive.mldsa`, which is empty where only the public area is loaded. -/
def TpmtSensitive.mldsaSeed (x : TpmtSensitive) : Bytes :=
  match x.sensitive with
  | some ⟨.mldsa, seed⟩ => seed.buffer
  | some ⟨.hashMldsa, seed⟩ => seed.buffer
  | _ => []

theorem MldsaParameterSet.sigSize_le (set : MldsaParameterSet) : set.sigSize ≤ 4627 := by
  cases set <;> decide

namespace MlDsaSigner
variable {σ : Type} (L : MlDsaSigner) (C : SeqCrypto σ)

/-- The crypto library whose EVP calls on private keys are these. -/
def within : SeqCrypto σ :=
  { C with
    pkeyFromSeed := fun key =>
      match key.publicArea.mldsaParameterSet? with
      | some set => L.pkeyFromSeed set key.sensitive.mldsaSeed
      | none => false
    evpSign := fun key msg ctx =>
      match key.publicArea.mldsaParameterSet? with
      | some set =>
          -- the size is the one that the first call has asked for
          (L.digestSign set key.sensitive.mldsaSeed key.publicArea.usedHash ctx msg).filter
            fun sig => decide (sig.length = set.sigSize)
      | none => none }

/-- The octets that the branch for Emscripten returns; it has no error of its own. -/
def bridged (set : MldsaParameterSet) (key : Object) (msg : Bytes) : Tpm2b 4627 :=
  match L.bridgeSign set key.sensitive.mldsaSeed msg with
  | some sig => ⟨sig.1, by rw [sig.2]; exact set.sigSize_le⟩
  | none => ⟨List.replicate set.sigSize 0xEE, by rw [List.length_replicate]; exact set.sigSize_le⟩

/-- The branch for Emscripten of `CryptMlDsaSign` and `CryptMlDsaSignMessage`. -/
def emscriptenSign (key : Object) (msg : Bytes) : Except Fault WireSignature :=
  match key.publicArea.mldsaParameterSet? with
  | none => .error (.of .scheme)
  | some set =>
      let sig := L.bridged set key msg
      if key.publicArea.type = .mldsa then .ok (some ⟨.mldsa, sig⟩)
      else .ok (some ⟨.hashMldsa, (⟨hashId key.publicArea.nameAlg, sig⟩ : SignatureHashMldsa)⟩)

/-- `CryptMlDsaSign` and `CryptMlDsaSignMessage`; `hash` is what the hash of the signature was before. -/
def sign (b : Build) (hash : UInt16) (key : Object) (msg ctx : Bytes) : Except Fault WireSignature :=
  match b with
  | .native => cryptMlDsaSignInto (L.within C) hash key msg ctx
  -- the bridge does not forward the context
  | .emscripten => L.emscriptenSign key msg

end MlDsaSigner

/-! ## The commands that sign -/

/-- What a signature was made over: a message with its context, the digest of `TPM2_SignDigest` with its
context, or the digest of `TPM2_Sign`. -/
inductive SignedData
  | message (msg ctx : Bytes)
  | externalMu (digest ctx : Bytes)
  | digest (digest : Bytes)

namespace SignedData

/-- The octets that reach the primitive. -/
def octets : SignedData → Bytes
  | .message m _ | .externalMu m _ | .digest m => m

def context : SignedData → Bytes
  | .message _ c | .externalMu _ c => c
  | .digest _ => []

end SignedData

/-- The signature in a response, and what it was made over. -/
structure Signed where
  signature : WireSignature
  data : SignedData

/-- What a caller can ask an ML-DSA key to sign, with the attestation commands by what they attest. -/
inductive SigningRequest
  | signSequenceComplete (sequenceHandle : TpmHandle) (buffer : Tpm2b 1024)
  | signDigest (context : Tpm2b 255) (digest : Tpm2bDigest) (validation : Ticket)
  | sign (digest : Tpm2bDigest) (inScheme : TpmtSigScheme) (validation : Ticket)
  | attest (signHandle inSchemeLoc : Nat) (input : SignInput)
      (attested : AttestState → TpmtSigScheme → Except Fault Attested)
  | certifyX509 (object : Object) (reserved : Bytes) (inScheme : TpmtSigScheme) (partialCertificate : Bytes)

section
variable {σ : Type} (C : SeqCrypto σ) (O : OtherSchemes) (H : PolicyHash)
  (kdfa : Bytes → Bytes → UInt64 × UInt64)
  -- `CryptMlDsaSign` and `CryptMlDsaSignMessage`
  (sign : UInt16 → Object → Bytes → Bytes → Except Fault WireSignature)
  -- `CryptSign` on the keys of other types
  (other : Object → TpmtSigScheme → Bytes → Except Fault WireSignature)

/-- `CryptSign`. -/
def cryptSignWith (key : Object) (scheme : TpmtSigScheme) (digest : Bytes) : Except Fault WireSignature :=
  if key.publicArea.isMldsa then sign (UInt16.ofNat scheme.hashAlg) key digest [] else other key scheme digest

/-- `TPM2_SignSequenceComplete`. -/
def signSequenceCompleteWith (sequenceHandle keyHandle : TpmHandle) (buffer : Tpm2b 1024) (s : TpmState σ) :
    Except Fault Signed :=
  match pqcSequenceFromHandle s sequenceHandle with
  | none => .error (.at .handle 0x100)
  | some (_, _, q) =>
      if !q.isSign then .error (.at .mode 0x100)
      else if keyHandle ≠ q.keyHandle then .error (.at .handle 0x200)
      else if q.buffer.length ≠ 0 then .error (.of .oneShotSignature)
      else match keyObject s keyHandle with
        | .error e => .error e
        | .ok none => .error (.at .handle 0x200)
        | .ok (some (.object key)) => do
            let signature ← sign 0 key buffer.buffer q.context.buffer
            pure ⟨signature, .message buffer.buffer q.context.buffer⟩
        | .ok (some _) => .error (.of .scheme)

/-- `TPM2_SignDigest`. -/
def signDigestWith (keyHandle : TpmHandle) (context : Tpm2b 255) (digest : Tpm2bDigest) (validation : Ticket)
    (s : TpmState σ) : Except Fault Signed :=
  match keyObject s keyHandle with
  | .error e => .error e
  | .ok (some (.object key)) => do
      demand (isSigningObject key) (.at .key 0x100)
      demand key.publicArea.isMldsa (.at .attributes 0x100)
      demand key.publicArea.allowExternalMu (.at .attributes 0x100)
      demand (!key.publicArea.objectAttributes.restricted || decide (validation.hierarchy ≠ .null))
        (.at .ticket 0x340)
      let signature ← sign 0 key digest.buffer context.buffer
      pure ⟨signature, .externalMu digest.buffer context.buffer⟩
  | .ok (some _) => .error (.at .key 0x100)
  | .ok none => .error .failureMode

/-- `TPM2_Sign`. -/
def tpm2SignWith (keyHandle : TpmHandle) (digest : Tpm2bDigest) (inScheme : TpmtSigScheme) (validation : Ticket)
    (s : TpmState σ) : Except Fault Signed :=
  match keyObject s keyHandle with
  | .error e => .error e
  | .ok (some (.object key)) => do
      demand (isSigningObject key) (.at .key 0x100)
      demand (!key.publicArea.objectAttributes.x509sign) (.at .attributes 0x100)
      let some scheme := cryptSelectSignScheme O key inScheme | .error (.at .scheme 0x240)
      signTicketCheck C s key scheme digest.buffer validation
      let signature ← cryptSignWith sign other key scheme digest.buffer
      pure ⟨signature, .digest digest.buffer⟩
  | .ok (some _) => .error (.at .key 0x100)
  | .ok none => .error .failureMode

/-- `SignAttestInfo`, which signs all of the attestation with an ML-DSA key. -/
def signAttestInfoWith (key : Object) (scheme : TpmtSigScheme) (qualifyingData : Bytes) (certifyInfo : TpmsAttest)
    (s : AttestState) : Except Fault Signed :=
  let attest := certifyInfo.marshal
  let digest := attestDigest H scheme.hashAlg qualifyingData attest
  let signed :=
    if key.publicArea.isMldsa then sign 0 key attest [] else cryptSignWith sign other key scheme digest
  match signed, s.device.orderly, s.device.nv.nvStatus with
  | .error e, _, _ => .error e
  | .ok _, true, some rc => .error (.rc rc)
  | .ok signature, _, _ => .ok ⟨signature, if key.publicArea.isMldsa then .message attest [] else .digest digest⟩

/-- The seven commands that end in `SignAttestInfo`. -/
def attestWith (signHandle inSchemeLoc : Nat) (key : Object) (input : SignInput)
    (attested : TpmtSigScheme → Except Fault Attested) (s : AttestState) : Except Fault Signed := do
  let scheme ← attestScheme O signHandle inSchemeLoc (some key) input.inScheme
  let attested ← attested scheme
  let (certifyInfo, qualifyingData) := fillInAttestInfo kdfa (some key) scheme input.qualifyingData.buffer attested s
  signAttestInfoWith H sign other key scheme qualifyingData certifyInfo s

/-- `TPM2_CertifyX509`. -/
def certifyX509With (key object : Object) (reserved : Bytes) (inScheme : TpmtSigScheme)
    (partialCertificate : Bytes) : Except Fault Signed := do
  demand (reserved == []) (.at .size 0x140)
  let scheme ← attestScheme O 0x100 0x240 (some key) inScheme
  let tbs ← certificateToBeSigned H key object scheme partialCertificate
  let tbsDigest := cryptHashBlock H scheme.hashAlg tbs
  let signature ← cryptSignWith sign other key scheme tbsDigest
  pure ⟨signature, .digest tbsDigest⟩

/-- The response to a request; the attestation commands have the object behind the handle. -/
def SigningRequest.respond (keyHandle : TpmHandle) (key : Object) (s : TpmState σ) (t : AttestState) :
    SigningRequest → Except Fault Signed
  | .signSequenceComplete sequenceHandle buffer => signSequenceCompleteWith sign sequenceHandle keyHandle buffer s
  | .signDigest context digest validation => signDigestWith sign keyHandle context digest validation s
  | .sign digest inScheme validation => tpm2SignWith C O sign other keyHandle digest inScheme validation s
  | .attest signHandle inSchemeLoc input attested =>
      attestWith O H kdfa sign other signHandle inSchemeLoc key input (attested t) t
  | .certifyX509 object reserved inScheme partialCertificate =>
      certifyX509With O H sign other key object reserved inScheme partialCertificate

end

/-! ## The commands that verify -/

inductive VerifyingRequest
  | verifySequenceComplete (sequenceHandle : TpmHandle)
  | verifyDigestSignature (context : Tpm2b 255) (digest : Tpm2bDigest)
  | verifySignature (digest : Tpm2bDigest)

section
variable {σ : Type} (V : MlDsaProvider) (C : SeqCrypto σ)
  -- the verification with the keys of other types
  (other : Object → Bytes → WireSignature → Option RcCode)

/-- `TPM2_VerifySequenceComplete`. -/
def verifySequenceCompleteWire (sequenceHandle keyHandle : TpmHandle) (signature : WireSignature)
    (s : TpmState σ) : Outcome σ :=
  match pqcSequenceFromHandle s sequenceHandle with
  | none => (.error (.at .handle 0x100), s)
  | some (i, _, q) =>
      if q.isSign then (.error (.at .mode 0x100), s)
      else if keyHandle ≠ q.keyHandle then (.error (.at .handle 0x200), s.flushObject i)
      else match keyObject s keyHandle with
        | .error e => (.error e, s)
        | .ok none => (.error (.at .handle 0x200), s.flushObject i)
        | .ok (some (.object key)) =>
            match validateSignatureMessage V signature key.publicArea q.buffer q.context.buffer with
            | some c => (.error (.at c 0x140), s.flushObject i)
            | none => (.ok (.verified (ticketMessageVerified C s key)), s.flushObject i)
        | .ok (some _) => (.error (.at .scheme 0x140), s.flushObject i)

/-- `CryptValidateSignature`. -/
def cryptValidateSignatureWire (key : Object) (digest : Bytes) (signature : WireSignature) : Option RcCode :=
  if key.publicArea.isMldsa then validateSignatureMessage V signature key.publicArea digest []
  else other key digest signature

/-- `TPM2_VerifySignature`. -/
def verifySignatureWire (keyHandle : TpmHandle) (digest : Tpm2bDigest) (signature : WireSignature)
    (s : TpmState σ) : Except Fault TpmtTkVerified :=
  match keyObject s keyHandle with
  | .error e => .error e
  | .ok (some (.object key)) =>
      if !key.publicArea.objectAttributes.sign then .error (.at .attributes 0x100)
      else match cryptValidateSignatureWire V other key digest.buffer signature with
        | some c => .error (rcSafeAddToResult 0x240 (.of c))
        | none =>
            .ok (if key.unticketed then { tag := TpmSt.verified, hierarchy := .null, hmac := [] }
              else ticketComputeVerified C s key.hierarchy digest.buffer key.name.buffer)
  | .ok (some _) => .error (.at .attributes 0x100)
  | .ok none => .error .failureMode

/-- The ticket of a command that verifies, with the octets of the signature parameter. -/
inductive VerifiedTicket
  | message (t : Response)
  | digest (t : TkDigestVerified)
  | verified (t : TpmtTkVerified)

/-- A command that verifies, from the octets of its signature on; no parameter follows them. -/
def VerifyingRequest.respond (p : RuntimeProfile) (keyHandle : TpmHandle) (signature : Bytes) (s : TpmState σ)
    (r : VerifyingRequest) : Except Fault VerifiedTicket := do
  let (sig, rest) ← WireSignature.unmarshal p false signature
  demand (rest == []) (.of .size)
  match r with
  | .verifySequenceComplete sequenceHandle =>
      VerifiedTicket.message <$> (verifySequenceCompleteWire V C sequenceHandle keyHandle sig s).1
  | .verifyDigestSignature context digest =>
      VerifiedTicket.digest <$> verifyDigestSignatureWire V C keyHandle context digest sig s
  | .verifySignature digest => VerifiedTicket.verified <$> verifySignatureWire V C other keyHandle digest sig s

/-- The command verifies signatures over these data with the key given: a verify sequence of the key that has
taken the message under the context, or the digest itself. -/
def VerifyingRequest.Matches (data : SignedData) (s : TpmState σ) (keyHandle : TpmHandle) :
    VerifyingRequest → Prop
  | .verifySequenceComplete sequenceHandle =>
      ∃ i x q, pqcSequenceFromHandle s sequenceHandle = some (i, x, q) ∧ q.isSign = false ∧
        q.keyHandle = keyHandle ∧ data = .message q.buffer q.context.buffer
  | .verifyDigestSignature context digest => data = .externalMu digest.buffer context.buffer
  | .verifySignature digest => data = .digest digest.buffer

end

/-! ## The native commands are those of the model without builds -/

section
variable {σ : Type} {L : MlDsaSigner} {C : SeqCrypto σ} {key : Object}

theorem mldsaParameterSet?_type {a : TpmtPublic} {set : MldsaParameterSet} (h : a.mldsaParameterSet? = some set) :
    a.type = .mldsa ∨ a.type = .hashMldsa := by
  unfold TpmtPublic.mldsaParameterSet? at h
  split at h
  · exact .inl rfl
  · exact .inr rfl
  · cases h

/-- What the native branch has asked the provider for. -/
theorem MlDsaSigner.within_ok {msg ctx : Bytes} {sig : TpmtSignature}
    (h : cryptMlDsaSignMessage (L.within C) key msg ctx = .ok sig) :
    ∃ set, key.publicArea.mldsaParameterSet? = some set ∧ sig.sigAlg = key.publicArea.type ∧
      L.pkeyFromSeed set key.sensitive.mldsaSeed = true ∧
      L.digestSign set key.sensitive.mldsaSeed key.publicArea.usedHash ctx msg = some sig.signature ∧
      sig.signature.length = set.sigSize := by
  unfold cryptMlDsaSignMessage at h
  cases hset : key.publicArea.mldsaParameterSet? with
  | none =>
      rw [hset] at h
      cases h
  | some set =>
      simp only [hset, within] at h
      split at h
      · cases h
      · rename_i hseed
        split at h
        · cases h
        · split at h
          · rename_i octets hsign
            cases h
            obtain ⟨hsign, hlen⟩ := Option.filter_eq_some_iff.mp hsign
            exact ⟨set, rfl, rfl, by simpa using hseed, hsign, of_decide_eq_true hlen⟩
          · cases h

/-- The signature in a response of the model without builds. -/
def Response.signature? : Response → Option TpmtSignature
  | .signature x => some x
  | _ => none

/-- The signature in the response, as far as the functions of sequences know signatures. -/
def Signed.parts (x : Signed) : Option TpmtSignature := MlDsaProvider.parts x.signature

theorem MlDsaSigner.sign_native (hash : UInt16) (key : Object) (msg ctx : Bytes) :
    (L.sign C .native hash key msg ctx).map MlDsaProvider.parts =
      (cryptMlDsaSignMessage (L.within C) key msg ctx).map some := by
  unfold MlDsaSigner.sign cryptMlDsaSignInto
  cases h : cryptMlDsaSignMessage (L.within C) key msg ctx with
  | error e => rfl
  | ok sig =>
      obtain ⟨set, hset, halg, -, -, hlen⟩ := within_ok h
      obtain ⟨alg, octets⟩ := sig
      have hle : octets.length ≤ 4627 := hlen ▸ set.sigSize_le
      obtain rfl : alg = key.publicArea.type := halg
      have hbind : ∀ f : TpmtSignature → Except Fault WireSignature,
          (Except.ok ⟨key.publicArea.type, octets⟩ >>= f) = f ⟨key.publicArea.type, octets⟩ := fun f => rfl
      rw [hbind, dif_pos hle]
      rcases mldsaParameterSet?_type hset with htype | htype
      · rw [htype]
        rfl
      · rw [htype]
        rfl

end

section
variable {σ : Type} {L : MlDsaSigner} {C : SeqCrypto σ} {O : OtherSchemes} {H : PolicyHash}
  {kdfa : Bytes → Bytes → UInt64 × UInt64} {other : Object → TpmtSigScheme → Bytes → Except Fault WireSignature}
  {key : Object} {s : TpmState σ}

theorem map_signed {x : Except Fault WireSignature} {y : Except Fault TpmtSignature}
    (h : x.map MlDsaProvider.parts = y.map some) (data : SignedData) :
    (x >>= fun signature => pure (⟨signature, data⟩ : Signed)).map Signed.parts =
      (Response.signature <$> y).map Response.signature? := by
  cases x with
  | error e =>
      cases y with
      | error e' =>
          cases h
          rfl
      | ok _ => cases h
  | ok sig =>
      cases y with
      | error e => cases h
      | ok x => exact congrArg Except.ok (Except.ok.inj h)

theorem signDigestWith_native (keyHandle : TpmHandle) (context : Tpm2b 255) (digest : Tpm2bDigest)
    (validation : Ticket) :
    (signDigestWith (L.sign C .native) keyHandle context digest validation s).map Signed.parts =
      (signDigest (L.within C) keyHandle context digest validation s).map Response.signature? := by
  unfold signDigestWith signDigest
  cases keyObject s keyHandle with
  | error e => rfl
  | ok slot =>
      match slot with
      | none => rfl
      | some .vacant => rfl
      | some (.sequence x h) => rfl
      | some (.object key) =>
          have hsigned := map_signed (L.sign_native (C := C) 0 key digest.buffer context.buffer)
            (.externalMu digest.buffer context.buffer)
          dsimp only
          cases isSigningObject key with
          | false => rfl
          | true =>
              cases key.publicArea.isMldsa with
              | false => rfl
              | true =>
                  cases key.publicArea.allowExternalMu with
                  | false => rfl
                  | true =>
                      cases key.publicArea.objectAttributes.restricted with
                      | false => exact hsigned
                      | true =>
                          by_cases hnull : validation.hierarchy = .null
                          · rw [if_neg (by decide), if_neg (by decide), if_neg (by decide), if_pos ⟨rfl, hnull⟩]
                            rw [hnull]
                            rfl
                          · rw [if_neg (by decide), if_neg (by decide), if_neg (by decide),
                              if_neg (fun h => hnull h.2)]
                            simp only [ne_eq, hnull, not_false_eq_true, decide_true, Bool.or_true]
                            exact hsigned

theorem signSequenceCompleteWith_native (sequenceHandle keyHandle : TpmHandle) (buffer : Tpm2b 1024) :
    (signSequenceCompleteWith (L.sign C .native) sequenceHandle keyHandle buffer s).map Signed.parts =
      (signSequenceComplete (L.within C) sequenceHandle keyHandle buffer s).1.map Response.signature? := by
  unfold signSequenceCompleteWith signSequenceComplete
  cases pqcSequenceFromHandle s sequenceHandle with
  | none => rfl
  | some found =>
      obtain ⟨i, x, q⟩ := found
      dsimp only
      split
      · rfl
      split
      · rfl
      split
      · rfl
      cases keyObject s keyHandle with
      | error e => rfl
      | ok slot =>
          match slot with
          | none => rfl
          | some .vacant => rfl
          | some (.sequence x h) => rfl
          | some (.object key) =>
              have hsigned := map_signed (L.sign_native (C := C) 0 key buffer.buffer q.context.buffer)
                (.message buffer.buffer q.context.buffer)
              dsimp only
              refine hsigned.trans ?_
              cases cryptMlDsaSignMessage (L.within C) key buffer.buffer q.context.buffer with
              | error e => rfl
              | ok sig => rfl

/-- The keys of other types sign alike. -/
def SameOthers (O : OtherSchemes) (other : Object → TpmtSigScheme → Bytes → Except Fault WireSignature) : Prop :=
  ∀ key scheme digest, (other key scheme digest).map MlDsaProvider.parts = (O.sign key scheme digest).map some

theorem cryptSignWith_native (hother : SameOthers O other) (key : Object) (scheme : TpmtSigScheme) (digest : Bytes) :
    (cryptSignWith (L.sign C .native) other key scheme digest).map MlDsaProvider.parts =
      (cryptSign (L.within C) O key scheme digest).map some := by
  unfold cryptSignWith cryptSign
  cases key.publicArea.isMldsa with
  | true => exact L.sign_native (UInt16.ofNat scheme.hashAlg) key digest []
  | false => exact hother key scheme digest

theorem tpm2SignWith_native (hother : SameOthers O other) (keyHandle : TpmHandle) (digest : Tpm2bDigest)
    (inScheme : TpmtSigScheme) (validation : Ticket) :
    (tpm2SignWith C O (L.sign C .native) other keyHandle digest inScheme validation s).map Signed.parts =
      (tpm2Sign (L.within C) O keyHandle digest inScheme validation s).map Response.signature? := by
  unfold tpm2SignWith tpm2Sign
  cases keyObject s keyHandle with
  | error e => rfl
  | ok slot =>
      match slot with
      | none => rfl
      | some .vacant => rfl
      | some (.sequence x h) => rfl
      | some (.object key) =>
          dsimp only
          cases isSigningObject key with
          | false => rfl
          | true =>
              cases key.publicArea.objectAttributes.x509sign with
              | true => rfl
              | false =>
                  cases cryptSelectSignScheme O key inScheme with
                  | none => rfl
                  | some scheme =>
                      have hcheck : signTicketCheck (L.within C) s key scheme digest.buffer validation =
                          signTicketCheck C s key scheme digest.buffer validation := rfl
                      rw [if_neg (by decide), if_neg (by decide)]
                      dsimp only
                      rw [hcheck]
                      cases signTicketCheck C s key scheme digest.buffer validation with
                      | error e => rfl
                      | ok _ => exact map_signed (cryptSignWith_native hother key scheme digest.buffer) _

theorem map_attestation {x : Except Fault WireSignature} {y : Except Fault TpmtSignature}
    (h : x.map MlDsaProvider.parts = y.map some) (data : SignedData) (content handed : Bytes) :
    (x >>= fun signature => pure (⟨signature, data⟩ : Signed)).map Signed.parts =
      (y >>= fun signature => pure (⟨content, handed, some signature⟩ : Attestation)).map
        Attestation.signature := by
  cases x with
  | error e =>
      cases y with
      | error e' =>
          cases h
          rfl
      | ok _ => cases h
  | ok sig =>
      cases y with
      | error e => cases h
      | ok x => exact congrArg Except.ok (Except.ok.inj h)

theorem signAttestInfoWith_native (hother : SameOthers O other) (scheme : TpmtSigScheme) (qualifyingData : Bytes)
    (certifyInfo : TpmsAttest) (t : AttestState) :
    (signAttestInfoWith H (L.sign C .native) other key scheme qualifyingData certifyInfo t).map Signed.parts =
      (signAttestInfo (L.within C) O H key scheme qualifyingData certifyInfo t).1.map Attestation.signature := by
  unfold signAttestInfoWith signAttestInfo
  have hsigned : (if key.publicArea.isMldsa then L.sign C .native 0 key certifyInfo.marshal []
      else cryptSignWith (L.sign C .native) other key scheme
        (attestDigest H scheme.hashAlg qualifyingData certifyInfo.marshal)).map MlDsaProvider.parts =
      (if key.publicArea.isMldsa then cryptMlDsaSignMessage (L.within C) key certifyInfo.marshal []
        else cryptSign (L.within C) O key scheme (if key.publicArea.isMldsa then certifyInfo.marshal
          else attestDigest H scheme.hashAlg qualifyingData certifyInfo.marshal)).map some := by
    cases key.publicArea.isMldsa with
    | true => exact L.sign_native 0 key certifyInfo.marshal []
    | false => exact cryptSignWith_native hother key scheme _
  dsimp only
  generalize (if key.publicArea.isMldsa then L.sign C .native 0 key certifyInfo.marshal [] else _) = x at hsigned ⊢
  generalize (if key.publicArea.isMldsa then cryptMlDsaSignMessage (L.within C) key certifyInfo.marshal [] else _) = y
    at hsigned ⊢
  cases x with
  | error e =>
      cases y with
      | error e' =>
          cases hsigned
          rfl
      | ok _ => cases hsigned
  | ok sig =>
      cases y with
      | error e => cases hsigned
      | ok z =>
          have hz := Except.ok.inj hsigned
          cases t.device.orderly with
          | false => exact congrArg Except.ok hz
          | true =>
              cases t.device.nv.nvStatus with
              | none => exact congrArg Except.ok hz
              | some rc => rfl

theorem attestWith_native (hother : SameOthers O other) (signHandle inSchemeLoc : Nat) (input : SignInput)
    (attested : TpmtSigScheme → Except Fault Attested) (t : AttestState) :
    (attestWith O H kdfa (L.sign C .native) other signHandle inSchemeLoc key input attested t).map Signed.parts =
      (attest (L.within C) O H kdfa signHandle inSchemeLoc (some key) input attested t).1.map
        Attestation.signature := by
  unfold attestWith attest
  cases attestScheme O signHandle inSchemeLoc (some key) input.inScheme with
  | error e => rfl
  | ok scheme =>
      dsimp only [bind, Except.bind]
      cases attested scheme with
      | error e => rfl
      | ok x => exact signAttestInfoWith_native hother scheme _ _ t

theorem certifyX509With_native (hother : SameOthers O other) (object : Object) (reserved : Bytes)
    (inScheme : TpmtSigScheme) (partialCertificate : Bytes) (t : AttestState) :
    (certifyX509With O H (L.sign C .native) other key object reserved inScheme partialCertificate).map
        Signed.parts =
      (tpm2CertifyX509 (L.within C) O H key object reserved inScheme partialCertificate t).1.map
        Attestation.signature := by
  unfold certifyX509With tpm2CertifyX509
  dsimp only
  cases demand (reserved == []) (.at .size 0x140) with
  | error e => rfl
  | ok _ =>
      cases attestScheme O 0x100 0x240 (some key) inScheme with
      | error e => rfl
      | ok scheme =>
          dsimp only [bind, Except.bind]
          cases certificateToBeSigned H key object scheme partialCertificate with
          | error e => rfl
          | ok tbs =>
              have hsign := cryptSignWith_native (L := L) (C := C) hother key scheme
                (cryptHashBlock H scheme.hashAlg tbs)
              exact map_attestation hsign _ _ _

end

/-! ## What is verified -/

/-- What OpenSSL and the bridge promise; `publicKey` belongs to a seed. A signature is accepted under the key,
the context and the message that it was made with; it is not accepted under another public key, nor one of the
bridge under a context; and the placeholder is none. -/
structure MlDsaLaws (V : MlDsaProvider) (L : MlDsaSigner) (publicKey : MldsaParameterSet → Bytes → Bytes) :
    Prop where
  loads : ∀ set seed, L.pkeyFromSeed set seed = true → V.pkeyFromPub set (publicKey set seed) = true
  verifies : ∀ set seed inst ctx msg sig, L.digestSign set seed inst ctx msg = some sig →
    V.digestVerify set (publicKey set seed) inst ctx sig msg = none
  own : ∀ set seed inst ctx msg sig pub, L.digestSign set seed inst ctx msg = some sig →
    V.digestVerify set pub inst ctx sig msg = none → pub = publicKey set seed
  bridge_loads : ∀ set seed msg sig, L.bridgeSign set seed msg = some sig →
    V.pkeyFromPub set (publicKey set seed) = true
  bridge_verifies : ∀ set seed msg sig, L.bridgeSign set seed msg = some sig →
    V.digestVerify set (publicKey set seed) none [] sig.1 msg = none
  bridge_own : ∀ set seed msg sig pub ctx, L.bridgeSign set seed msg = some sig →
    V.digestVerify set pub none ctx sig.1 msg = none → pub = publicKey set seed ∧ ctx = []
  placeholder : ∀ (set : MldsaParameterSet) pub inst ctx msg,
    V.digestVerify set pub inst ctx (List.replicate set.sigSize 0xEE) msg ≠ none

/-- The public area holds the public key of the seed. -/
def Object.IsPair (publicKey : MldsaParameterSet → Bytes → Bytes) (key : Object) : Prop :=
  ∃ set, key.publicArea.mldsaParameterSet? = some set ∧
    key.publicArea.mldsaUnique = publicKey set key.sensitive.mldsaSeed

/-- A bridge is registered and signs. -/
def MlDsaSigner.BridgeSigns (L : MlDsaSigner) (key : Object) (msg : Bytes) : Prop :=
  ∃ set, key.publicArea.mldsaParameterSet? = some set ∧
    (L.bridgeSign set key.sensitive.mldsaSeed msg).isSome = true

section
variable {σ : Type} {V : MlDsaProvider} {L : MlDsaSigner} {publicKey : MldsaParameterSet → Bytes → Bytes}
  {C : SeqCrypto σ} {key : Object}

theorem validateSignatureMessage_mldsa_iff {a : TpmtPublic} {set : MldsaParameterSet} {x : Tpm2b 4627}
    {msg ctx : Bytes} (htype : a.type = .mldsa) (hset : a.mldsaParameterSet? = some set)
    (hlen : x.buffer.length = set.sigSize) :
    validateSignatureMessage V (some ⟨.mldsa, x⟩) a msg ctx = none ↔
      V.pkeyFromPub set a.mldsaUnique = true ∧ V.digestVerify set a.mldsaUnique none ctx x.buffer msg = none := by
  have hbuf : WireSignature.sigBuf (some ⟨.mldsa, x⟩) = some x.buffer := rfl
  have hinst : a.evpInstance = some none := by rw [TpmtPublic.evpInstance, htype, if_neg nofun]
  simp only [validateSignatureMessage, hset, hbuf, hlen, ne_eq, not_true, if_false, hinst]
  cases V.pkeyFromPub set a.mldsaUnique with
  | true => simp only [Bool.not_true, Bool.false_eq_true, if_false, true_and]
  | false => simp only [Bool.not_false, if_true, reduceCtorEq, Bool.false_eq_true, false_and]

theorem sign_native_ok {hash : UInt16} {msg ctx : Bytes} {sig : WireSignature} (htype : key.publicArea.type = .mldsa)
    (h : L.sign C .native hash key msg ctx = .ok sig) :
    ∃ set, ∃ x : Tpm2b 4627, key.publicArea.mldsaParameterSet? = some set ∧ sig = some ⟨.mldsa, x⟩ ∧
      L.pkeyFromSeed set key.sensitive.mldsaSeed = true ∧
      L.digestSign set key.sensitive.mldsaSeed none ctx msg = some x.buffer ∧ x.buffer.length = set.sigSize := by
  have hused : key.publicArea.usedHash = none := by rw [TpmtPublic.usedHash, htype, if_neg nofun]
  obtain ⟨signed, hsigned, h⟩ := Transition.bind_eq_ok h
  obtain ⟨set, hset, halg, hseed, hsign, hlen⟩ := MlDsaSigner.within_ok hsigned
  rw [hused] at hsign
  split at h
  · rename_i hle
    rw [halg, htype] at h
    exact ⟨set, ⟨signed.signature, hle⟩, hset, (Except.ok.inj h).symm, hseed, hsign, hlen⟩
  · cases h

theorem sign_emscripten_ok {hash : UInt16} {msg ctx : Bytes} {sig : WireSignature}
    (htype : key.publicArea.type = .mldsa) (h : L.sign C .emscripten hash key msg ctx = .ok sig) :
    ∃ set, key.publicArea.mldsaParameterSet? = some set ∧ sig = some ⟨.mldsa, L.bridged set key msg⟩ := by
  unfold MlDsaSigner.sign MlDsaSigner.emscriptenSign at h
  cases hset : key.publicArea.mldsaParameterSet? with
  | none =>
      rw [hset] at h
      cases h
  | some set =>
      simp only [hset, htype, if_true] at h
      exact ⟨set, rfl, (Except.ok.inj h).symm⟩

/-- A signature of either build holds under the public area of its key exactly where that is the key of the
seed and, in a build for Emscripten, the bridge has signed and there is no context. -/
theorem sign_validates_iff (laws : MlDsaLaws V L publicKey) {b : Build} {hash : UInt16} {msg ctx : Bytes}
    {sig : WireSignature} (htype : key.publicArea.type = .mldsa) (h : L.sign C b hash key msg ctx = .ok sig) :
    validateSignatureMessage V sig key.publicArea msg ctx = none ↔
      key.IsPair publicKey ∧ (b = .native ∨ L.BridgeSigns key msg ∧ ctx = []) := by
  cases b with
  | native =>
      obtain ⟨set, x, hset, rfl, hseed, hsign, hlen⟩ := sign_native_ok htype h
      rw [validateSignatureMessage_mldsa_iff htype hset hlen]
      constructor
      · rintro ⟨-, hverify⟩
        exact ⟨⟨set, hset, laws.own _ _ _ _ _ _ _ hsign hverify⟩, .inl rfl⟩
      · rintro ⟨⟨set', hset', hpair⟩, -⟩
        obtain rfl := Option.some.inj (hset.symm.trans hset')
        rw [hpair]
        exact ⟨laws.loads _ _ hseed, laws.verifies _ _ _ _ _ _ hsign⟩
  | emscripten =>
      obtain ⟨set, hset, rfl⟩ := sign_emscripten_ok htype h
      cases hbridge : L.bridgeSign set key.sensitive.mldsaSeed msg with
      | none =>
          have hplaceholder : (L.bridged set key msg).buffer = List.replicate set.sigSize 0xEE := by
            simp only [MlDsaSigner.bridged, hbridge]
          rw [validateSignatureMessage_mldsa_iff htype hset (by rw [hplaceholder, List.length_replicate]),
            hplaceholder]
          refine iff_of_false (fun h => laws.placeholder _ _ _ _ _ h.2) ?_
          rintro ⟨-, hnative | ⟨⟨set', hset', hsome⟩, -⟩⟩
          · cases hnative
          · obtain rfl := Option.some.inj (hset.symm.trans hset')
            rw [hbridge] at hsome
            cases hsome
      | some y =>
          have hoctets : (L.bridged set key msg).buffer = y.1 := by
            simp only [MlDsaSigner.bridged, hbridge]
          rw [validateSignatureMessage_mldsa_iff htype hset (by rw [hoctets, y.2]), hoctets]
          constructor
          · rintro ⟨-, hverify⟩
            obtain ⟨hpair, hctx⟩ := laws.bridge_own _ _ _ _ _ _ hbridge hverify
            exact ⟨⟨set, hset, hpair⟩, .inr ⟨⟨set, hset, by rw [hbridge]; rfl⟩, hctx⟩⟩
          · rintro ⟨⟨set', hset', hpair⟩, hnative | ⟨-, rfl⟩⟩
            · cases hnative
            · obtain rfl := Option.some.inj (hset.symm.trans hset')
              rw [hpair]
              exact ⟨laws.bridge_loads _ _ _ _ hbridge, laws.bridge_verifies _ _ _ _ hbridge⟩

end

/-- What the commands that sign have asked of the key, and those that verify ask again. -/
def SignedData.Admitted (a : TpmtPublic) : SignedData → Prop
  | .message _ _ => True
  | .externalMu _ _ => a.objectAttributes.sign = true ∧ a.allowExternalMu = true
  | .digest _ => a.objectAttributes.sign = true

section
variable {σ : Type} {C : SeqCrypto σ} {O : OtherSchemes} {H : PolicyHash} {kdfa : Bytes → Bytes → UInt64 × UInt64}
  {sign : UInt16 → Object → Bytes → Bytes → Except Fault WireSignature}
  {other : Object → TpmtSigScheme → Bytes → Except Fault WireSignature}
  {keyHandle : TpmHandle} {key : Object} {s : TpmState σ} {signed : Signed}

/-- The signature is one of the primitive over the data, and the key was fit for them. -/
structure SignedWith (sign : UInt16 → Object → Bytes → Bytes → Except Fault WireSignature) (key : Object)
    (signed : Signed) : Prop where
  admitted : signed.data.Admitted key.publicArea
  made : ∃ hash, sign hash key signed.data.octets signed.data.context = .ok signed.signature

theorem sign_of_isSigningObject (h : isSigningObject key = true) : key.publicArea.objectAttributes.sign = true :=
  (Bool.and_eq_true_iff.mp h).1

theorem attestScheme_signs {signHandle loc : Nat} {inScheme scheme : TpmtSigScheme}
    (h : attestScheme O signHandle loc (some key) inScheme = .ok scheme) :
    key.publicArea.objectAttributes.sign = true := by
  obtain ⟨_, hsigning, -⟩ := Transition.bind_eq_ok h
  exact sign_of_isSigningObject (demand_eq_ok hsigning)

theorem signSequenceCompleteWith_signed (hgiven : keyGiven s keyHandle = some key) {sequenceHandle : TpmHandle}
    {buffer : Tpm2b 1024} (h : signSequenceCompleteWith sign sequenceHandle keyHandle buffer s = .ok signed) :
    SignedWith sign key signed := by
  unfold signSequenceCompleteWith at h
  split at h
  · cases h
  · split at h
    · cases h
    · split at h
      · cases h
      · split at h
        · cases h
        · rw [keyGiven_eq_some hgiven] at h
          obtain ⟨signature, hsign, h⟩ := Transition.bind_eq_ok h
          cases h
          exact ⟨trivial, 0, hsign⟩

theorem signDigestWith_signed (hgiven : keyGiven s keyHandle = some key) {context : Tpm2b 255}
    {digest : Tpm2bDigest} {validation : Ticket}
    (h : signDigestWith sign keyHandle context digest validation s = .ok signed) : SignedWith sign key signed := by
  unfold signDigestWith at h
  rw [keyGiven_eq_some hgiven] at h
  obtain ⟨_, hsigning, h⟩ := Transition.bind_eq_ok h
  obtain ⟨_, -, h⟩ := Transition.bind_eq_ok h
  obtain ⟨_, hmu, h⟩ := Transition.bind_eq_ok h
  obtain ⟨_, -, h⟩ := Transition.bind_eq_ok h
  obtain ⟨signature, hsign, h⟩ := Transition.bind_eq_ok h
  cases h
  exact ⟨⟨sign_of_isSigningObject (demand_eq_ok hsigning), demand_eq_ok hmu⟩, 0, hsign⟩

theorem tpm2SignWith_signed (hgiven : keyGiven s keyHandle = some key) (hmldsa : key.publicArea.isMldsa = true)
    {digest : Tpm2bDigest} {inScheme : TpmtSigScheme} {validation : Ticket}
    (h : tpm2SignWith C O sign other keyHandle digest inScheme validation s = .ok signed) :
    SignedWith sign key signed := by
  unfold tpm2SignWith at h
  rw [keyGiven_eq_some hgiven] at h
  obtain ⟨_, hsigning, h⟩ := Transition.bind_eq_ok h
  obtain ⟨_, -, h⟩ := Transition.bind_eq_ok h
  split at h
  · obtain ⟨_, -, h⟩ := Transition.bind_eq_ok h
    obtain ⟨signature, hsign, h⟩ := Transition.bind_eq_ok h
    cases h
    rw [cryptSignWith, if_pos hmldsa] at hsign
    exact ⟨sign_of_isSigningObject (demand_eq_ok hsigning), _, hsign⟩
  · cases h

theorem attestWith_signed (hmldsa : key.publicArea.isMldsa = true) {signHandle inSchemeLoc : Nat}
    {input : SignInput} {attested : TpmtSigScheme → Except Fault Attested} {t : AttestState}
    (h : attestWith O H kdfa sign other signHandle inSchemeLoc key input attested t = .ok signed) :
    SignedWith sign key signed := by
  obtain ⟨scheme, -, h⟩ := Transition.bind_eq_ok h
  obtain ⟨x, -, h⟩ := Transition.bind_eq_ok h
  unfold signAttestInfoWith at h
  simp only [hmldsa, if_true] at h
  split at h
  · cases h
  · cases h
  · rename_i signature hsign _
    cases h
    exact ⟨trivial, 0, hsign⟩

theorem certifyX509With_signed (hmldsa : key.publicArea.isMldsa = true) {object : Object} {reserved : Bytes}
    {inScheme : TpmtSigScheme} {partialCertificate : Bytes}
    (h : certifyX509With O H sign other key object reserved inScheme partialCertificate = .ok signed) :
    SignedWith sign key signed := by
  obtain ⟨_, -, h⟩ := Transition.bind_eq_ok h
  obtain ⟨scheme, hscheme, h⟩ := Transition.bind_eq_ok h
  obtain ⟨tbs, -, h⟩ := Transition.bind_eq_ok h
  obtain ⟨signature, hsign, h⟩ := Transition.bind_eq_ok h
  cases h
  rw [cryptSignWith, if_pos hmldsa] at hsign
  exact ⟨attestScheme_signs hscheme, _, hsign⟩

/-- Whatever the command, the signature in a response is one of the primitive over the data. -/
theorem SigningRequest.respond_signed (hgiven : keyGiven s keyHandle = some key)
    (hmldsa : key.publicArea.isMldsa = true) {t : AttestState} {r : SigningRequest}
    (h : r.respond C O H kdfa sign other keyHandle key s t = .ok signed) : SignedWith sign key signed := by
  cases r with
  | signSequenceComplete sequenceHandle buffer => exact signSequenceCompleteWith_signed hgiven h
  | signDigest context digest validation => exact signDigestWith_signed hgiven h
  | sign digest inScheme validation => exact tpm2SignWith_signed hgiven hmldsa h
  | attest signHandle inSchemeLoc input attested => exact attestWith_signed hmldsa h
  | certifyX509 object reserved inScheme partialCertificate => exact certifyX509With_signed hmldsa h

end

section
variable {σ : Type} {V : MlDsaProvider} {C : SeqCrypto σ} {other : Object → Bytes → WireSignature → Option RcCode}
  {p : RuntimeProfile} {keyHandle : TpmHandle} {key : Object} {s : TpmState σ} {sig : WireSignature}

theorem verifySequenceCompleteWire_ok_iff (hgiven : keyGiven s keyHandle = some key) {sequenceHandle : TpmHandle}
    {i : SlotIndex} {x : HashObject σ} {q : PqcSeqState}
    (hfind : pqcSequenceFromHandle s sequenceHandle = some (i, x, q)) (hsign : q.isSign = false)
    (hkey : q.keyHandle = keyHandle) :
    (∃ t, (verifySequenceCompleteWire V C sequenceHandle keyHandle sig s).1 = .ok t) ↔
      validateSignatureMessage V sig key.publicArea q.buffer q.context.buffer = none := by
  simp only [verifySequenceCompleteWire, hfind, hsign, hkey, keyGiven_eq_some hgiven, Bool.false_eq_true, if_false,
    ne_eq, not_true]
  cases validateSignatureMessage V sig key.publicArea q.buffer q.context.buffer with
  | some c => exact iff_of_false nofun nofun
  | none => exact iff_of_true ⟨_, rfl⟩ rfl

theorem verifyDigestSignatureWire_succeeds_iff (hgiven : keyGiven s keyHandle = some key) {context : Tpm2b 255}
    {digest : Tpm2bDigest} (hsign : key.publicArea.objectAttributes.sign = true)
    (hmu : key.publicArea.allowExternalMu = true) :
    (∃ t, verifyDigestSignatureWire V C keyHandle context digest sig s = .ok t) ↔
      validateSignatureMessage V sig key.publicArea digest.buffer context.buffer = none := by
  simp only [verifyDigestSignatureWire, keyGiven_eq_some hgiven, hsign, hmu, Bool.not_true, Bool.false_eq_true,
    if_false, validateSignature]
  cases validateSignatureMessage V sig key.publicArea digest.buffer context.buffer with
  | some c =>
      refine iff_of_false ?_ (Option.some_ne_none c)
      rintro ⟨t, ht⟩
      cases ht
  | none => exact iff_of_true ⟨_, rfl⟩ rfl

theorem verifySignatureWire_succeeds_iff (hgiven : keyGiven s keyHandle = some key)
    (hmldsa : key.publicArea.isMldsa = true) {digest : Tpm2bDigest}
    (hsign : key.publicArea.objectAttributes.sign = true) :
    (∃ t, verifySignatureWire V C other keyHandle digest sig s = .ok t) ↔
      validateSignatureMessage V sig key.publicArea digest.buffer [] = none := by
  simp only [verifySignatureWire, keyGiven_eq_some hgiven, hsign, Bool.not_true, Bool.false_eq_true, if_false,
    cryptValidateSignatureWire, hmldsa, if_true]
  cases validateSignatureMessage V sig key.publicArea digest.buffer [] with
  | some c => exact iff_of_false nofun nofun
  | none => exact iff_of_true ⟨_, rfl⟩ rfl

theorem exists_map_ok {α β : Type} {f : α → β} {x : Except Fault α} :
    (∃ b, f <$> x = .ok b) ↔ ∃ a, x = .ok a := by
  cases x with
  | error e => exact iff_of_false nofun nofun
  | ok a => exact iff_of_true ⟨f a, rfl⟩ ⟨a, rfl⟩

theorem VerifyingRequest.respond_ok_iff (hgiven : keyGiven s keyHandle = some key)
    (hmldsa : key.publicArea.isMldsa = true) {data : SignedData} (hadmitted : data.Admitted key.publicArea)
    {r : VerifyingRequest} (hmatches : r.Matches data s keyHandle) {octets : Bytes}
    (hread : WireSignature.unmarshal p false octets = .ok (sig, [])) :
    (∃ t, r.respond V C other p keyHandle octets s = .ok t) ↔
      validateSignatureMessage V sig key.publicArea data.octets data.context = none := by
  unfold VerifyingRequest.respond
  rw [hread]
  cases r with
  | verifySequenceComplete sequenceHandle =>
      obtain ⟨i, x, q, hfind, hsign, hkey, rfl⟩ := hmatches
      exact exists_map_ok.trans (verifySequenceCompleteWire_ok_iff hgiven hfind hsign hkey)
  | verifyDigestSignature context digest =>
      obtain rfl : data = _ := hmatches
      exact exists_map_ok.trans (verifyDigestSignatureWire_succeeds_iff hgiven hadmitted.1 hadmitted.2)
  | verifySignature digest =>
      obtain rfl : data = _ := hmatches
      exact exists_map_ok.trans (verifySignatureWire_succeeds_iff hgiven hmldsa hadmitted)

theorem mldsa_signature_reads (henabled : p.checkEnabled TpmAlg.mldsa = true) (x : Tpm2b 4627) :
    WireSignature.unmarshal p false (WireSignature.marshal (some ⟨.mldsa, x⟩)) = .ok (some ⟨.mldsa, x⟩, []) := by
  have halg : WireSignature.AlgEnabled p (some ⟨.mldsa, x⟩) := by
    intro y hy
    obtain rfl := Option.some.inj hy
    exact henabled
  have hhash : WireSignature.HashAdmitted p (some ⟨.mldsa, x⟩) := by
    intro y hy hash h
    obtain rfl := Option.some.inj hy
    cases h
  have hreads : Reads (WireSignature.unmarshal p false) _ _ := WireSignature.reads rfl halg hhash
  have h := hreads []
  rwa [List.append_nil] at h

end

section
variable {σ : Type} {V : MlDsaProvider} {L : MlDsaSigner} {publicKey : MldsaParameterSet → Bytes → Bytes}
  {C : SeqCrypto σ} {O : OtherSchemes} {H : PolicyHash} {kdfa : Bytes → Bytes → UInt64 × UInt64}
  {other : Object → TpmtSigScheme → Bytes → Except Fault WireSignature}
  {check : Object → Bytes → WireSignature → Option RcCode}

theorem SignedWith.verifies_iff (laws : MlDsaLaws V L publicKey) {p : RuntimeProfile}
    (henabled : p.checkEnabled TpmAlg.mldsa = true) {b : Build} {key key' : Object} {signed : Signed}
    (hsigned : SignedWith (L.sign C b) key signed) (htype : key.publicArea.type = .mldsa) {s : TpmState σ}
    {keyHandle : TpmHandle} (hgiven : keyGiven s keyHandle = some key') (hpublic : key'.publicArea = key.publicArea)
    {verifying : VerifyingRequest} (hmatches : verifying.Matches signed.data s keyHandle) :
    (∃ ticket, verifying.respond V C check p keyHandle signed.signature.marshal s = .ok ticket) ↔
      key.IsPair publicKey ∧
        (b = .native ∨ L.BridgeSigns key signed.data.octets ∧ signed.data.context = []) := by
  obtain ⟨hadmitted, hash, hmade⟩ := hsigned
  have hsignature : ∃ x : Tpm2b 4627, signed.signature = some ⟨.mldsa, x⟩ := by
    cases b with
    | native =>
        obtain ⟨_, x, _, hx, _⟩ := sign_native_ok htype hmade
        exact ⟨x, hx⟩
    | emscripten =>
        obtain ⟨_, _, hx⟩ := sign_emscripten_ok htype hmade
        exact ⟨_, hx⟩
  obtain ⟨x, hx⟩ := hsignature
  have hread := mldsa_signature_reads henabled x
  rw [← hx] at hread
  have hmldsa : key'.publicArea.isMldsa = true := by
    simp only [TpmtPublic.isMldsa, hpublic, htype, decide_true, Bool.true_or]
  rw [← hpublic] at hadmitted
  rw [verifying.respond_ok_iff hgiven hmldsa hadmitted hmatches hread, hpublic]
  exact sign_validates_iff laws htype hmade

/-- What an ML-DSA key has signed verifies under its public area exactly where that holds the public key of the
seed and, in a build for Emscripten, the bridge has signed and there is no context. -/
theorem signature_verifies_iff (laws : MlDsaLaws V L publicKey) {p : RuntimeProfile}
    (henabled : p.checkEnabled TpmAlg.mldsa = true) {b : Build} {s s' : TpmState σ} {t : AttestState}
    {keyHandle keyHandle' : TpmHandle} {key key' : Object} (hgiven : keyGiven s keyHandle = some key)
    (htype : key.publicArea.type = .mldsa) {request : SigningRequest} {signed : Signed}
    (hsigned : request.respond C O H kdfa (L.sign C b) other keyHandle key s t = .ok signed)
    (hgiven' : keyGiven s' keyHandle' = some key') (hpublic : key'.publicArea = key.publicArea)
    {verifying : VerifyingRequest} (hmatches : verifying.Matches signed.data s' keyHandle') :
    (∃ ticket, verifying.respond V C check p keyHandle' signed.signature.marshal s' = .ok ticket) ↔
      key.IsPair publicKey ∧
        (b = .native ∨ L.BridgeSigns key signed.data.octets ∧ signed.data.context = []) := by
  have hmldsa : key.publicArea.isMldsa = true := by simp only [TpmtPublic.isMldsa, htype, decide_true, Bool.true_or]
  exact (request.respond_signed hgiven hmldsa hsigned).verifies_iff laws henabled htype hgiven' hpublic hmatches

end

/-! ## A message signed natively and in a browser -/

theorem taggedSignature_length (tag : UInt8) (set : MldsaParameterSet) (msg : Bytes) :
    (tag :: (msg ++ List.replicate set.sigSize 0).take (set.sigSize - 1)).length = set.sigSize := by
  rw [List.length_cons, List.length_take, List.length_append, List.length_replicate]
  cases set <;> simp only [MldsaParameterSet.sigSize] <;> omega

def taggedSignature (tag : UInt8) (set : MldsaParameterSet) (msg : Bytes) :
    { sig : Bytes // sig.length = set.sigSize } :=
  ⟨tag :: (msg ++ List.replicate set.sigSize 0).take (set.sigSize - 1), taggedSignature_length tag set msg⟩

def browserProvider : MlDsaProvider where
  pkeyFromPub _ _ := true
  digestVerify set pub inst ctx sig msg :=
    if pub = [] ∧ (sig = (taggedSignature 1 set (ctx ++ msg)).1 ∨
      inst = none ∧ ctx = [] ∧ sig = (taggedSignature 2 set msg).1) then none
    else some .signature

def browserSigner (bridge : Bool) : MlDsaSigner where
  pkeyFromSeed _ _ := true
  digestSign set _ _ ctx msg := some (taggedSignature 1 set (ctx ++ msg)).1
  bridgeSign set _ msg := if bridge then some (taggedSignature 2 set msg) else none

theorem browserProvider_accepts_iff {set : MldsaParameterSet} {pub ctx sig msg : Bytes} {inst : Option HashAlg} :
    browserProvider.digestVerify set pub inst ctx sig msg = none ↔
      pub = [] ∧ (sig = (taggedSignature 1 set (ctx ++ msg)).1 ∨
        inst = none ∧ ctx = [] ∧ sig = (taggedSignature 2 set msg).1) := by
  simp only [browserProvider]
  split
  · rename_i h
    exact iff_of_true rfl h
  · rename_i h
    exact iff_of_false nofun h

theorem browser_laws (bridge : Bool) : MlDsaLaws browserProvider (browserSigner bridge) fun _ _ => [] where
  loads _ _ _ := rfl
  verifies _ _ _ _ _ _ h := browserProvider_accepts_iff.mpr ⟨rfl, .inl (Option.some.inj h).symm⟩
  own _ _ _ _ _ _ _ _ h := (browserProvider_accepts_iff.mp h).1
  bridge_loads _ _ _ _ _ := rfl
  bridge_verifies set seed msg sig h := by
    cases bridge with
    | false => cases h
    | true => exact browserProvider_accepts_iff.mpr ⟨rfl, .inr ⟨rfl, rfl, by rw [← Option.some.inj h]⟩⟩
  bridge_own set seed msg sig pub ctx h haccepts := by
    cases bridge with
    | false => cases h
    | true =>
        obtain rfl := Option.some.inj h
        obtain ⟨hpub, htag | ⟨-, hctx, -⟩⟩ := browserProvider_accepts_iff.mp haccepts
        · exact absurd (List.cons.inj htag).1 (by decide)
        · exact ⟨hpub, hctx⟩
  placeholder set pub inst ctx msg h := by
    have htag : ∀ (tag : UInt8) (m : Bytes), List.replicate set.sigSize 0xEE = (taggedSignature tag set m).1 →
        0xEE = tag := by
      intro tag m h
      cases set <;> exact (List.cons.inj h).1
    obtain ⟨-, h | ⟨-, -, h⟩⟩ := browserProvider_accepts_iff.mp h
    · exact absurd (htag _ _ h) (by decide)
    · exact absurd (htag _ _ h) (by decide)

/-- A key is loaded and a sequence started on it, which signs or verifies. -/
def contextStarted (context : Tpm2b 255) : TpmState Unit :=
  run (step toyPlatform toyCrypto) {}
    [.command ⟨.load (mldsaKey firstName false), []⟩,
     .command ⟨.signSequenceStart .empty context, [slotHandle 0]⟩]

def verifyUpdated (context : Tpm2b 255) : TpmState Unit :=
  run (step toyPlatform toyCrypto) {}
    [.command ⟨.load (mldsaKey firstName false), []⟩,
     .command ⟨.verifySequenceStart .empty .empty context, [slotHandle 0]⟩,
     .command ⟨.sequenceUpdate plainMessage, [slotHandle 1]⟩]

def someContext : Tpm2b 255 := ⟨[0x01], by decide⟩

/-- `TPM2_SignSequenceComplete` on the message. -/
def signPlain : SigningRequest := .signSequenceComplete (slotHandle 1) plainMessage

def verifyPlain : VerifyingRequest := .verifySequenceComplete (slotHandle 1)

theorem verifyPlain_matches (context : Tpm2b 255) :
    verifyPlain.Matches (.message plainMessage.buffer context.buffer) (verifyUpdated context) (slotHandle 0) :=
  ⟨_, _, _, rfl, rfl, rfl, rfl⟩

/-- No keys but those of ML-DSA sign. -/
def noOtherKeys : Object → TpmtSigScheme → Bytes → Except Fault WireSignature := fun _ _ _ => .error .failureMode

/-- The response to the request in each build. -/
def plainSigned (b : Build) (bridge : Bool) (context : Tpm2b 255) : Except Fault Signed :=
  signPlain.respond toyCrypto noOtherSchemes zerosHash (fun _ _ => (0, 0)) ((browserSigner bridge).sign toyCrypto b)
    noOtherKeys (slotHandle 0) (mldsaKey firstName false).asLoaded (contextStarted context) {}

def plainVerified (context : Tpm2b 255) (signed : Signed) : Except Fault VerifiedTicket :=
  verifyPlain.respond browserProvider toyCrypto (fun _ _ _ => none) (RuntimeProfile.default 7) (slotHandle 0)
    signed.signature.marshal (verifyUpdated context)

theorem plainSigned_native (context : Tpm2b 255) :
    ∃ x : Tpm2b 4627, plainSigned .native true context =
      .ok ⟨some ⟨.mldsa, x⟩, .message plainMessage.buffer context.buffer⟩ := by
  have hsign : cryptMlDsaSignMessage ((browserSigner true).within toyCrypto) (mldsaKey firstName false).asLoaded
      plainMessage.buffer context.buffer =
        .ok ⟨.mldsa, (taggedSignature 1 .mldsa44 (context.buffer ++ plainMessage.buffer)).1⟩ := by
    have hfilter : (some (taggedSignature 1 .mldsa44 (context.buffer ++ plainMessage.buffer)).1).filter
        (fun sig => decide (sig.length = MldsaParameterSet.sigSize .mldsa44)) =
          some (taggedSignature 1 .mldsa44 (context.buffer ++ plainMessage.buffer)).1 :=
      Option.filter_eq_some_iff.mpr ⟨rfl, decide_eq_true (taggedSignature 1 .mldsa44 _).2⟩
    have hset : (mldsaKey firstName false).asLoaded.publicArea.mldsaParameterSet? = some .mldsa44 := rfl
    unfold cryptMlDsaSignMessage
    simp only [hset, MlDsaSigner.within, browserSigner, hfilter]
    rfl
  have hle : (taggedSignature 1 .mldsa44 (context.buffer ++ plainMessage.buffer)).1.length ≤ 4627 := by
    rw [(taggedSignature 1 .mldsa44 _).2]
    decide
  refine ⟨⟨_, hle⟩, ?_⟩
  change (cryptMlDsaSignInto ((browserSigner true).within toyCrypto) 0 (mldsaKey firstName false).asLoaded
    plainMessage.buffer context.buffer >>= fun signature =>
      pure (⟨signature, .message plainMessage.buffer context.buffer⟩ : Signed)) = _
  rw [cryptMlDsaSignInto_mldsa hsign hle]
  rfl

theorem plainSigned_emscripten (bridge : Bool) (context : Tpm2b 255) :
    plainSigned .emscripten bridge context =
      .ok ⟨some ⟨.mldsa, (browserSigner bridge).bridged .mldsa44 (mldsaKey firstName false).asLoaded
        plainMessage.buffer⟩, .message plainMessage.buffer context.buffer⟩ := rfl

/-- A native signature with a context verifies. -/
theorem native_signature_verifies :
    ∃ signed, plainSigned .native true someContext = .ok signed ∧
      ∃ ticket, plainVerified someContext signed = .ok ticket := by
  obtain ⟨x, hsigned⟩ := plainSigned_native someContext
  refine ⟨_, hsigned, ?_⟩
  refine (signature_verifies_iff (browser_laws true) (by decide) rfl rfl hsigned rfl rfl
    (verifyPlain_matches someContext)).mpr ?_
  exact ⟨⟨.mldsa44, rfl, rfl⟩, .inl rfl⟩

/-- In a browser the signature does not verify without a bridge, nor with one under a context. -/
theorem emscripten_signature_refused :
    (∃ signed, plainSigned .emscripten false .empty = .ok signed ∧
        ¬ ∃ ticket, plainVerified .empty signed = .ok ticket) ∧
      ∃ signed, plainSigned .emscripten true someContext = .ok signed ∧
        ¬ ∃ ticket, plainVerified someContext signed = .ok ticket := by
  have hmade : ∀ bridge context signed, plainSigned .emscripten bridge context = .ok signed →
      SignedWith ((browserSigner bridge).sign toyCrypto .emscripten) (mldsaKey firstName false).asLoaded signed :=
    fun bridge context signed h => signPlain.respond_signed rfl rfl h
  refine ⟨⟨_, plainSigned_emscripten false .empty, fun h => ?_⟩,
    ⟨_, plainSigned_emscripten true someContext, fun h => ?_⟩⟩
  · have hiff := ((hmade false .empty _ rfl).verifies_iff (browser_laws false) (by decide) rfl rfl rfl
      (verifyPlain_matches .empty)).mp h
    obtain ⟨-, hnative | ⟨⟨_, _, hbridge⟩, -⟩⟩ := hiff
    · cases hnative
    · cases hbridge
  · have hiff := ((hmade true someContext _ rfl).verifies_iff (browser_laws true) (by decide) rfl rfl rfl
      (verifyPlain_matches someContext)).mp h
    obtain ⟨-, hnative | ⟨-, hcontext⟩⟩ := hiff
    · cases hnative
    · cases hcontext

end PqcTpm
