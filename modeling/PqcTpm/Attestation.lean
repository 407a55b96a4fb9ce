import Mathlib.Data.Set.Function
import PqcTpm.X509
import PqcTpm.Signing
import PqcTpm.NvCommands

/-!
# Attestation

`Attest_spt.c`, `AttestationCommands.c`, `TPM2_NV_Certify` and the selection of a scheme in
`CryptUtil.c`. Seven commands marshal a `TPMS_ATTEST` and sign its digest, or all of it if the key is one
of ML-DSA; `TPM2_CertifyX509` signs the digest of a certificate. The digest is made with the hash of the
scheme, and the scheme of an ML-DSA key has none.
-/
namespace PqcTpm
open ByteCodec Transition

/-! ## Schemes -/

def hashOfId (hashAlg : Nat) : Option HashAlg :=
  hashSelector.all.find? fun h => hashSelector.algId h == hashAlg

/-- `CryptIsSchemeAnonymous`, which is also `CryptIsSplitSign`. -/
def cryptIsSchemeAnonymous (scheme : Nat) : Bool := scheme == TpmAlg.ecdaa

/-- The scheme in the public area, under the union of all signature schemes. -/
def TpmtPublic.sigScheme (a : TpmtPublic) : Option TpmtSigScheme :=
  match a with
  | { type := .rsa, parameters := q, .. } =>
      let scheme := RsaParms.scheme q
      some ⟨rsaSchemeSelector.algIdOrNull scheme.scheme, hashSelector.algIdOrNull scheme.hashAlg⟩
  | { type := .ecc, parameters := q, .. } =>
      let scheme := EccParms.scheme q
      some ⟨eccSchemeSelector.algIdOrNull scheme.scheme, hashSelector.algIdOrNull scheme.hashAlg⟩
  | { type := .keyedhash, parameters := q, .. } =>
      match q with
      | .hmac h => some ⟨TpmAlg.hmac, hashSelector.algId h⟩
      | .xor h _ => some ⟨TpmAlg.xor, hashSelector.algId h⟩
      | .null => some ⟨TpmAlg.null, TpmAlg.null⟩
  | _ => none

/-- `CryptIsValidSignScheme` for keys of other types than the two of ML-DSA. -/
def cryptIsValidSignScheme (type : ObjectType) (scheme : TpmtSigScheme) : Bool :=
  (match type with
    | .rsa => [TpmAlg.rsassa, TpmAlg.rsapss].contains scheme.scheme
    | .ecc => [TpmAlg.ecdsa, TpmAlg.ecdaa, TpmAlg.ecschnorr, TpmAlg.sm2].contains scheme.scheme
    | .keyedhash => scheme.scheme == TpmAlg.hmac
    | _ => false) && (hashOfId scheme.hashAlg).isSome

/-- The choice between the scheme of the key and the scheme of the caller. -/
def chooseScheme (objectScheme inScheme : TpmtSigScheme) : Option TpmtSigScheme :=
  if objectScheme.scheme = TpmAlg.null then
    if inScheme.scheme = TpmAlg.null then none else some inScheme
  else if inScheme.scheme = TpmAlg.null then
    if cryptIsSchemeAnonymous objectScheme.scheme then none else some objectScheme
  else if objectScheme = inScheme then some inScheme
  else none

/-- `CryptSelectSignScheme` for keys of other types than the two of ML-DSA. -/
def selectSignScheme (key : Object) (inScheme : TpmtSigScheme) : Option TpmtSigScheme := do
  let objectScheme ← key.publicArea.sigScheme
  let scheme ← chooseScheme objectScheme inScheme
  if cryptIsValidSignScheme key.publicArea.type scheme then some scheme else none

/-! ## Structures -/

/-- `TPMS_PCR_SELECTION`. -/
structure PcrSelection where
  hash : HashAlg
  pcrSelect : Bytes
  deriving DecidableEq

/-- `TPMS_CLOCK_INFO`. -/
structure ClockInfo where
  clock : UInt64
  resetCount : UInt32
  restartCount : UInt32
  safe : Bool
  deriving DecidableEq

def ClockInfo.marshal (c : ClockInfo) : Bytes :=
  be 8 c.clock.toNat ++ (be 4 c.resetCount.toNat ++ (be 4 c.restartCount.toNat ++ be 1 c.safe.toNat))

def sized (bs : Bytes) : Bytes := be 2 bs.length ++ bs

/-- `TPMU_ATTEST`. -/
inductive Attested
  | nv (indexName : Bytes) (offset : Nat) (nvContents : Bytes)
  | commandAudit (auditCounter : UInt64) (digestAlg : HashAlg) (auditDigest commandDigest : Bytes)
  | sessionAudit (exclusiveSession : Bool) (sessionDigest : Bytes)
  | certify (name qualifiedName : Bytes)
  | quote (pcrSelect : List PcrSelection) (pcrDigest : Bytes)
  | time (time : UInt64) (clockInfo : ClockInfo) (firmwareVersion : UInt64)
  | creation (objectName creationHash : Bytes)
  | nvDigest (indexName nvDigest : Bytes)

namespace Attested

/-- `TPMI_ST_ATTEST`. -/
def type : Attested → Nat
  | .nv .. => 0x8014
  | .commandAudit .. => 0x8015
  | .sessionAudit .. => 0x8016
  | .certify .. => 0x8017
  | .quote .. => 0x8018
  | .time .. => 0x8019
  | .creation .. => 0x801A
  | .nvDigest .. => 0x801C

/-- `TPMU_ATTEST_Marshal`. -/
def marshal : Attested → Bytes
  | .nv indexName offset nvContents => sized indexName ++ (be 2 offset ++ sized nvContents)
  | .commandAudit auditCounter digestAlg auditDigest commandDigest =>
      be 8 auditCounter.toNat ++ (digestAlg.marshal ++ (sized auditDigest ++ sized commandDigest))
  | .sessionAudit exclusiveSession sessionDigest => be 1 exclusiveSession.toNat ++ sized sessionDigest
  | .certify name qualifiedName => sized name ++ sized qualifiedName
  | .quote pcrSelect pcrDigest =>
      be 4 pcrSelect.length ++
        ((pcrSelect.flatMap fun s => s.hash.marshal ++ (be 1 s.pcrSelect.length ++ s.pcrSelect)) ++ sized pcrDigest)
  | .time now clockInfo firmwareVersion => be 8 now.toNat ++ (clockInfo.marshal ++ be 8 firmwareVersion.toNat)
  | .creation objectName creationHash => sized objectName ++ sized creationHash
  | .nvDigest indexName digest => sized indexName ++ sized digest

end Attested

/-- `TPMS_ATTEST`. -/
structure TpmsAttest where
  qualifiedSigner : Bytes
  extraData : Bytes
  clockInfo : ClockInfo
  firmwareVersion : UInt64
  attested : Attested

/-- `TPMS_ATTEST_Marshal`. -/
def TpmsAttest.marshal (x : TpmsAttest) : Bytes :=
  tpmGeneratedValue ++ (be 2 x.attested.type ++ (sized x.qualifiedSigner ++ (sized x.extraData ++
    (x.clockInfo.marshal ++ (be 8 x.firmwareVersion.toNat ++ x.attested.marshal)))))

/-- What the commands read. -/
structure AttestState where
  device : NvDevice := {}
  proof : Hierarchy → Bytes := fun _ => []
  clock : UInt64 := 0
  clockSafe : Bool := true
  resetCount : UInt32 := 0
  restartCount : UInt32 := 0
  time : UInt64 := 0
  firmwareV1 : UInt32 := 0
  firmwareV2 : UInt32 := 0
  auditHashAlg : HashAlg := .sha256
  auditCounter : UInt64 := 0
  commandAuditDigest : Bytes := []
  /-- The codes of the commands that are audited, in the order of the command table. -/
  auditCommands : List Nat := []
  exclusiveAuditSession : TpmHandle := TpmHandle.rhUnassigned
  pcrAllocated : List PcrSelection := []
  pcrs : HashAlg → Nat → Bytes := fun _ _ => []

/-- What a command has signed. -/
structure Attestation where
  /-- The `TPMS_ATTEST`, or the certificate to be signed. -/
  content : Bytes
  /-- The octets that reach the signing primitive. -/
  handed : Bytes
  /-- There is none for the key `TPM_RH_NULL`. -/
  signature : Option TpmtSignature

abbrev AttestOutcome := Except Fault Attestation × AttestState

/-- `inScheme` and `qualifyingData` of the seven commands. -/
structure SignInput where
  inScheme : TpmtSigScheme
  qualifyingData : Tpm2b 66

namespace AttestState

/-- `TimeFillInfo`. -/
def timeFillInfo (s : AttestState) : ClockInfo where
  clock := s.clock
  resetCount := s.resetCount
  restartCount := s.restartCount
  safe := s.device.nv.nvStatus.isNone && s.clockSafe

def firmwareVersion (s : AttestState) : UInt64 :=
  UInt64.ofNat (s.firmwareV1.toNat * 2 ^ 32 + s.firmwareV2.toNat)

/-- `FilterPcr`. -/
def filterPcr (s : AttestState) (selection : PcrSelection) : PcrSelection :=
  match s.pcrAllocated.find? fun a => a.hash == selection.hash with
  | some allocated => { selection with pcrSelect := selection.pcrSelect.zipWith (· &&& ·) allocated.pcrSelect }
  | none => { selection with pcrSelect := selection.pcrSelect.map fun _ => 0 }

end AttestState

/-- `IsPcrSelected`. -/
def isPcrSelected (pcr : Nat) (selection : PcrSelection) : Bool :=
  (selection.pcrSelect.getD (pcr / 8) 0).toNat.testBit (pcr % 8)

section
variable {σ : Type} (C : SeqCrypto σ) (O : OtherSchemes) (H : PolicyHash)
  /- `CryptKDFa` with the owner's proof and the label of the obfuscation -/
  (kdfa : Bytes → Bytes → UInt64 × UInt64)

/-- `CryptHashBlock`; without a hash algorithm nothing comes out. -/
def cryptHashBlock (hashAlg : Nat) (data : Bytes) : Bytes :=
  match hashOfId hashAlg with
  | some h => H.hash h data
  | none => []

/-- `PCRComputeCurrentDigest`: the selection as it is filtered, and the digest. -/
def pcrComputeCurrentDigest (s : AttestState) (hashAlg : HashAlg) (selection : List PcrSelection) :
    List PcrSelection × Bytes :=
  let selection := selection.map s.filterPcr
  (selection, H.hash hashAlg (selection.flatMap fun select =>
    ((List.range 24).filter fun pcr => isPcrSelected pcr select).flatMap fun pcr => s.pcrs select.hash pcr))

/-- `NvGetIndexName`. -/
def nvGetIndexName (i : NvIndex) : Bytes :=
  let a := i.publicArea
  a.nameAlg.marshal ++ H.hash a.nameAlg (writeUint32 a.nvIndex ++ (a.nameAlg.marshal ++
    (writeUint32 a.attributes ++ (a.authPolicy.marshal ++ be 2 a.dataSize))))

/-! ## Filling in and signing -/

/-- `FillInAttestInfo`, and the qualifying data that is left for the signature. -/
def fillInAttestInfo (key : Option Object) (scheme : TpmtSigScheme) (data : Bytes) (attested : Attested)
    (s : AttestState) : TpmsAttest × Bytes :=
  let anonymous := cryptIsSchemeAnonymous scheme.scheme
  let qualifiedSigner :=
    match key with
    | none => writeUint32 TpmHandle.rhNull
    | some key => if anonymous then [] else key.qualifiedName.buffer
  let clear := key.any fun key => key.attributes.epsHierarchy || key.attributes.ppsHierarchy
  let (version, counts) := if clear then (0, 0) else kdfa (s.proof .owner) qualifiedSigner
  let clockInfo :=
    { s.timeFillInfo with
      resetCount := s.resetCount + (counts >>> 32).toUInt32
      restartCount := s.restartCount + counts.toUInt32 }
  ({ qualifiedSigner
     extraData := if anonymous then [] else data
     clockInfo
     firmwareVersion := s.firmwareVersion + version
     attested }, if anonymous then data else [])

/-- The digest of `SignAttestInfo`: it is taken once more if there is qualifying data left. -/
def attestDigest (hashAlg : Nat) (qualifyingData attest : Bytes) : Bytes :=
  let digest := cryptHashBlock H hashAlg attest
  if qualifyingData = [] then digest else cryptHashBlock H hashAlg (qualifyingData ++ digest)

/-- `SignAttestInfo` with a key. -/
def signAttestInfo (key : Object) (scheme : TpmtSigScheme) (qualifyingData : Bytes) (certifyInfo : TpmsAttest)
    (s : AttestState) : AttestOutcome :=
  let attest := certifyInfo.marshal
  let handed := if key.publicArea.isMldsa then attest else attestDigest H scheme.hashAlg qualifyingData attest
  let signed :=
    if key.publicArea.isMldsa then cryptMlDsaSignMessage C key attest [] else cryptSign C O key scheme handed
  match signed, s.device.orderly, s.device.nv.nvStatus with
  | .error e, _, _ => (.error e, s)
  -- NvClearOrderly
  | .ok _, true, some rc => (.error (.rc rc), s)
  | .ok signature, _, _ =>
      (.ok ⟨attest, handed, some signature⟩, { s with device := { s.device with orderly := false } })

/-- `IsSigningObject` and `CryptSelectSignScheme`, which every command begins with. -/
def attestScheme (signHandle inSchemeLoc : Nat) (key : Option Object) (inScheme : TpmtSigScheme) :
    Except Fault TpmtSigScheme :=
  match key with
  | none => .ok ⟨TpmAlg.null, TpmAlg.null⟩
  | some key => do
      demand (isSigningObject key) (.at .key signHandle)
      match cryptSelectSignScheme O key inScheme with
      | some scheme => .ok scheme
      | none => .error (.at .scheme inSchemeLoc)

/-- The seven commands: the scheme, what is attested and the checks before it, the signature. -/
def attest (signHandle inSchemeLoc : Nat) (key : Option Object) (input : SignInput)
    (attested : TpmtSigScheme → Except Fault Attested) (s : AttestState) : AttestOutcome :=
  let begun : Except Fault (TpmtSigScheme × Attested) := do
    let scheme ← attestScheme O signHandle inSchemeLoc key input.inScheme
    let attested ← attested scheme
    pure (scheme, attested)
  match begun with
  | .error e => (.error e, s)
  | .ok (scheme, attested) =>
      let (certifyInfo, qualifyingData) := fillInAttestInfo kdfa key scheme input.qualifyingData.buffer attested s
      match key with
      | none => (.ok ⟨certifyInfo.marshal, [], none⟩, s)
      | some key => signAttestInfo C O H key scheme qualifyingData certifyInfo s

/-- The hash that a quote and a digest of NV are made with: the one of the scheme, else the name algorithm of an
ML-DSA key. Without a key there is nothing to look at. -/
def attestHash (inSchemeLoc : Nat) (key : Option Object) (scheme : TpmtSigScheme) : Except Fault HashAlg :=
  match hashOfId scheme.hashAlg, key with
  | some h, _ => .ok h
  | none, none => .error .overrun
  | none, some key =>
      match if key.publicArea.isMldsa then key.publicArea.nameAlg else none with
      | some h => .ok h
      | none => .error (.at .scheme inSchemeLoc)

/-! ## The commands -/

/-- `TPM2_Certify`. -/
def tpm2Certify (key : Option Object) (object : Object) (input : SignInput) (s : AttestState) : AttestOutcome :=
  attest C O H kdfa 0x200 0x240 key input
    (fun scheme => .ok (.certify object.name.buffer
      (if cryptIsSchemeAnonymous scheme.scheme then [] else object.qualifiedName.buffer))) s

/-- `TPM2_CertifyCreation`, with `TicketComputeCreation`. -/
def tpm2CertifyCreation (key : Option Object) (object : Object) (creationHash : Tpm2bDigest)
    (creationTicket : Ticket) (input : SignInput) (s : AttestState) : AttestOutcome :=
  attest C O H kdfa 0x100 0x340 key input
    (fun _ => do
      let ticket := C.hmac (s.proof creationTicket.hierarchy)
        (be 2 0x8021 ++ (object.name.buffer ++ creationHash.buffer))
      demand (ticket == creationTicket.hmac) (.at .ticket 0x440)
      pure (.creation object.name.buffer creationHash.buffer)) s

/-- `TPM2_Quote`. -/
def tpm2Quote (key : Option Object) (pcrSelect : List PcrSelection) (input : SignInput) (s : AttestState) :
    AttestOutcome :=
  attest C O H kdfa 0x100 0x240 key input
    (fun scheme => do
      let hashAlg ← attestHash 0x240 key scheme
      let (pcrSelect, pcrDigest) := pcrComputeCurrentDigest H s hashAlg pcrSelect
      pure (.quote pcrSelect pcrDigest)) s

/-- `TPM2_GetSessionAuditDigest`. -/
def tpm2GetSessionAuditDigest (key : Option Object) (sessionHandle : TpmHandle) (session : Session)
    (input : SignInput) (s : AttestState) : AttestOutcome :=
  attest C O H kdfa 0x200 0x240 key input
    (fun _ => do
      demand session.attributes.isAudit (.at .type 0x300)
      pure (.sessionAudit (s.exclusiveAuditSession == sessionHandle) session.policyDigest)) s

/-- `TPM2_GetCommandAuditDigest`: the log starts anew once it has been signed. -/
def tpm2GetCommandAuditDigest (key : Option Object) (input : SignInput) (s : AttestState) : AttestOutcome :=
  let commandDigest := H.hash s.auditHashAlg (s.auditCommands.flatMap (be 4))
  match attest C O H kdfa 0x200 0x240 key input
    (fun _ => .ok (.commandAudit s.auditCounter s.auditHashAlg s.commandAuditDigest commandDigest)) s with
  | (.ok a, s) => (.ok a, if key.isSome then { s with commandAuditDigest := [] } else s)
  | (.error e, s) => (.error e, s)

/-- `TPM2_GetTime`. -/
def tpm2GetTime (key : Option Object) (input : SignInput) (s : AttestState) : AttestOutcome :=
  attest C O H kdfa 0x200 0x240 key input
    (fun _ => .ok (.time s.time s.timeFillInfo s.firmwareVersion)) s

/-- `TPM2_NV_Certify`; nothing at offset 0 asks for the digest of the whole. -/
def nvCertify (key : Option Object) (authHandle nvIndex : TpmHandle) (size offset : Nat) (input : SignInput)
    (s : AttestState) : AttestOutcome :=
  attest C O H kdfa 0x100 0x240 key input
    (fun scheme => do
      let (i, data) ← s.device.index nvIndex
      nvReadAccessChecks authHandle nvIndex i
      demand (decide (size + offset ≤ i.publicArea.dataSize)) (.of .nvRange)
      demand (decide (size ≤ 1024)) (.at .value 0x340)
      let octets ← s.device.octets i data
      if size ≠ 0 ∨ offset ≠ 0 then do
        demand (decide (offset + size ≤ octets.length)) .failureMode
        pure (.nv (nvGetIndexName H i) offset ((octets.drop offset).take size))
      else do
        let hashAlg ← attestHash 0x240 key scheme
        demand (decide (i.publicArea.dataSize ≤ octets.length)) .failureMode
        pure (.nvDigest (nvGetIndexName H i) (H.hash hashAlg (octets.take i.publicArea.dataSize)))) s

/-! ## Certificates -/

/-- The parts of the certificate from the algorithm of the signature on, in their order. -/
def certificateParts (fields : CertificateFields) (signature publicKey : Bytes) : Bytes :=
  signature ++ (fields.issuer ++ (fields.validity ++ (fields.subject ++ (publicKey ++ fields.extensions))))

/-- The serial number: at most 20 octets of a digest over the parts and the two names. -/
def serialNumber (nameAlg : HashAlg) (parts signerName objectName : Bytes) : Bytes :=
  Asn1.pushInteger ((H.hash nameAlg (parts ++ (signerName ++ objectName))).take 20)

/-- The certificate to be signed: the version, which is 2 for v3, the serial number and the parts. -/
def tbsCertificate (serial parts : Bytes) : Bytes :=
  Asn1.encapsulate Asn1.constructedSequence
    (Asn1.encapsulate Asn1.applicationSpecific (Asn1.pushInteger (be 4 2)) ++ (serial ++ parts))

/-- The octets that the TPM adds to the certificate, its tag and length included. -/
def addedSize (fields : CertificateFields) (publicKey signature serial : Bytes) : Nat :=
  let parts := certificateParts fields signature publicKey
  publicKey.length + (if fields.signature.isNone then signature.length else 0) + serial.length + 5 +
    ((tbsCertificate serial parts).length - (serial.length + parts.length + 5))

/-- The checks of `TPM2_CertifyX509` and the certificate that is made of the parameters. -/
def certificateToBeSigned (key object : Object) (scheme : TpmtSigScheme) (partialCertificate : Bytes) :
    Except Fault Bytes := do
  let some publicKey := x509AddPublicKey object.publicArea | .error (.at .asymmetric 0x200)
  let fields ← parsePartialCertificate partialCertificate
  let some signature := fields.signature <|>
      (hashOfId scheme.hashAlg).bind (x509AddSigningAlgorithm key.publicArea scheme.scheme)
    | .error (.at .scheme 0x100)
  match Asn1.processExtensions object.publicArea.objectAttributes fields.extensions with
  | .error (.rc rc) => .error (.rc { rc with loc := if rc.code = .attributes then 0x200 else 0x340 })
  | .error e => .error e
  | .ok _ =>
      let some nameAlg := key.publicArea.nameAlg | .error .failureMode
      let parts := certificateParts fields signature publicKey
      let serial := serialNumber H nameAlg parts key.name.buffer object.name.buffer
      -- it has to find room in the output
      demand (decide (addedSize fields publicKey signature serial ≤ 1024)) (.of .failure)
      pure (tbsCertificate serial parts)

/-- `TPM2_CertifyX509`. -/
def tpm2CertifyX509 (key object : Object) (reserved : Bytes) (inScheme : TpmtSigScheme)
    (partialCertificate : Bytes) (s : AttestState) : AttestOutcome :=
  let signed : Except Fault Attestation := do
    demand (reserved == []) (.at .size 0x140)
    let scheme ← attestScheme O 0x100 0x240 (some key) inScheme
    let tbs ← certificateToBeSigned H key object scheme partialCertificate
    let tbsDigest := cryptHashBlock H scheme.hashAlg tbs
    let signature ← cryptSign C O key scheme tbsDigest
    pure ⟨tbs, tbsDigest, some signature⟩
  (signed, s)

end

/-! ## Requests -/

inductive AttestRequest
  | certify (object : Object) (input : SignInput)
  | certifyCreation (object : Object) (creationHash : Tpm2bDigest) (creationTicket : Ticket) (input : SignInput)
  | quote (pcrSelect : List PcrSelection) (input : SignInput)
  | getSessionAuditDigest (sessionHandle : TpmHandle) (session : Session) (input : SignInput)
  | getCommandAuditDigest (input : SignInput)
  | getTime (input : SignInput)
  | nvCertify (authHandle nvIndex : TpmHandle) (size offset : Nat) (input : SignInput)
  | certifyX509 (object : Object) (reserved : Bytes) (inScheme : TpmtSigScheme) (partialCertificate : Bytes)

namespace AttestRequest

def isCertificate : AttestRequest → Bool
  | .certifyX509 .. => true
  | _ => false

/-- `TPM2_CertifyX509` has no qualifying data. -/
def input : AttestRequest → SignInput
  | .certify _ input | .certifyCreation _ _ _ input | .quote _ input | .getSessionAuditDigest _ _ input
  | .getCommandAuditDigest input | .getTime input | .nvCertify _ _ _ _ input => input
  | .certifyX509 _ _ inScheme _ => ⟨inScheme, .empty⟩

section
variable {σ : Type} (C : SeqCrypto σ) (O : OtherSchemes) (H : PolicyHash)
  (kdfa : Bytes → Bytes → UInt64 × UInt64)

def respond (key : Object) (s : AttestState) : AttestRequest → AttestOutcome
  | .certify object input => tpm2Certify C O H kdfa (some key) object input s
  | .certifyCreation object creationHash creationTicket input =>
      tpm2CertifyCreation C O H kdfa (some key) object creationHash creationTicket input s
  | .quote pcrSelect input => tpm2Quote C O H kdfa (some key) pcrSelect input s
  | .getSessionAuditDigest sessionHandle session input =>
      tpm2GetSessionAuditDigest C O H kdfa (some key) sessionHandle session input s
  | .getCommandAuditDigest input => tpm2GetCommandAuditDigest C O H kdfa (some key) input s
  | .getTime input => tpm2GetTime C O H kdfa (some key) input s
  | .nvCertify authHandle nvIndex size offset input =>
      PqcTpm.nvCertify C O H kdfa (some key) authHandle nvIndex size offset input s
  | .certifyX509 object reserved inScheme partialCertificate =>
      tpm2CertifyX509 C O H key object reserved inScheme partialCertificate s

/-- The hash of the scheme that is selected. -/
def hashAlg (key : Object) (r : AttestRequest) : Option HashAlg :=
  (cryptSelectSignScheme O key r.input.inScheme).bind fun scheme => hashOfId scheme.hashAlg

/-- The qualifying data that is not in the content but beside it: there is some under the anonymous scheme. -/
def beside (key : Object) (r : AttestRequest) : Bytes :=
  if (cryptSelectSignScheme O key r.input.inScheme).any fun scheme => cryptIsSchemeAnonymous scheme.scheme then
    r.input.qualifyingData.buffer
  else []

/-- The octets that a run hashes for its signature. -/
def hashed (key : Object) (r : AttestRequest) (content : Bytes) : Set Bytes :=
  {m | m = content ∨ r.beside O key ≠ [] ∧ ∃ h, r.hashAlg O key = some h ∧ m = r.beside O key ++ H.hash h content}

/-- The content of the second run is what the first one hashes last: its qualifying data with the digest
of its own content behind it. -/
def Ambiguous (key : Object) (r r' : AttestRequest) (content content' : Bytes) : Prop :=
  r.beside O key ≠ [] ∧ r'.beside O key = [] ∧
    ∃ h, r.hashAlg O key = some h ∧ r'.hashAlg O key = some h ∧ content' = r.beside O key ++ H.hash h content

end

end AttestRequest

/-- The selection of a scheme with the primitives of RSA, ECC and HMAC. -/
def attestSchemes (sign : Object → TpmtSigScheme → Bytes → Except Fault TpmtSignature) : OtherSchemes :=
  ⟨selectSignScheme, sign⟩

/-! ## What is handed to the primitive -/

section
variable {σ : Type} {C : SeqCrypto σ} {O : OtherSchemes} {H : PolicyHash}
  {kdfa : Bytes → Bytes → UInt64 × UInt64} {key : Object} {s s' : AttestState}

theorem attestScheme_eq_ok {signHandle loc : Nat} {inScheme scheme : TpmtSigScheme}
    (h : attestScheme O signHandle loc (some key) inScheme = .ok scheme) :
    cryptSelectSignScheme O key inScheme = some scheme := by
  unfold attestScheme at h
  obtain ⟨_, _, h⟩ := bind_eq_ok h
  cases hsel : cryptSelectSignScheme O key inScheme with
  | none =>
      rw [hsel] at h
      cases h
  | some selected =>
      rw [hsel] at h
      cases h
      rfl

theorem signAttestInfo_eq_ok {scheme : TpmtSigScheme} {qualifyingData : Bytes} {certifyInfo : TpmsAttest}
    {a : Attestation} (h : (signAttestInfo C O H key scheme qualifyingData certifyInfo s).1 = .ok a) :
    a.content = certifyInfo.marshal ∧
      a.handed = if key.publicArea.isMldsa then certifyInfo.marshal
        else attestDigest H scheme.hashAlg qualifyingData certifyInfo.marshal := by
  unfold signAttestInfo at h
  dsimp only at h
  split at h
  · cases h
  · cases h
  · cases h
    exact ⟨rfl, rfl⟩

/-- What a run of one of the eight commands has handed over. -/
structure Handed (O : OtherSchemes) (H : PolicyHash) (key : Object) (r : AttestRequest) (a : Attestation) : Prop where
  selected : ∃ scheme, cryptSelectSignScheme O key r.input.inScheme = some scheme ∧
    a.handed = if key.publicArea.isMldsa && !r.isCertificate then a.content
      else attestDigest H scheme.hashAlg (r.beside O key) a.content
  content_ne : a.content ≠ []

theorem attest_handed {r : AttestRequest} (hr : r.isCertificate = false) {signHandle loc : Nat}
    {attested : TpmtSigScheme → Except Fault Attested} {a : Attestation}
    (h : (attest C O H kdfa signHandle loc (some key) r.input attested s).1 = .ok a) :
    Handed O H key r a := by
  unfold attest at h
  dsimp only at h
  split at h
  · cases h
  · rename_i scheme x hbegun
    obtain ⟨scheme', hscheme, hbegun⟩ := bind_eq_ok hbegun
    obtain ⟨x', _, hbegun⟩ := bind_eq_ok hbegun
    cases hbegun
    obtain ⟨hcontent, hhanded⟩ := signAttestInfo_eq_ok h
    have hsel := attestScheme_eq_ok hscheme
    have hbeside : r.beside O key =
        if cryptIsSchemeAnonymous scheme.scheme then r.input.qualifyingData.buffer else [] := by
      simp [AttestRequest.beside, hsel]
    refine ⟨⟨scheme, hsel, ?_⟩, ?_⟩
    · rw [hhanded, ← hcontent, hr, hbeside, Bool.not_false, Bool.and_true]
      rfl
    · rw [hcontent]
      simp [TpmsAttest.marshal, tpmGeneratedValue]

theorem certificateToBeSigned_ne_nil {object : Object} {scheme : TpmtSigScheme} {bs tbs : Bytes}
    (h : certificateToBeSigned H key object scheme bs = .ok tbs) : tbs ≠ [] := by
  unfold certificateToBeSigned at h
  dsimp only at h
  split at h
  · obtain ⟨fields, _, h⟩ := bind_eq_ok h
    split at h
    · split at h
      · cases h
      · cases h
      · split at h
        · obtain ⟨_, _, h⟩ := bind_eq_ok h
          cases h
          exact List.cons_ne_nil _ _
        · cases h
    · cases h
  · cases h

theorem certificateToBeSigned_of_fields {object : Object} {scheme : TpmtSigScheme} {bs publicKey signature : Bytes}
    {fields : CertificateFields} {nameAlg : HashAlg}
    (hpublic : x509AddPublicKey object.publicArea = some publicKey)
    (hparse : parsePartialCertificate bs = .ok fields) (hsignature : fields.signature = some signature)
    (hextensions : Asn1.processExtensions object.publicArea.objectAttributes fields.extensions = .ok ())
    (hname : key.publicArea.nameAlg = some nameAlg)
    (hroom : addedSize fields publicKey signature
      (serialNumber H nameAlg (certificateParts fields signature publicKey) key.name.buffer object.name.buffer)
      ≤ 1024) :
    certificateToBeSigned H key object scheme bs =
      .ok (tbsCertificate
        (serialNumber H nameAlg (certificateParts fields signature publicKey) key.name.buffer object.name.buffer)
        (certificateParts fields signature publicKey)) := by
  simp only [certificateToBeSigned, hpublic, hparse]
  change (match fields.signature <|> _ with | some signature => _ | _ => _) = _
  have hchosen : (some signature <|> (hashOfId scheme.hashAlg).bind (x509AddSigningAlgorithm key.publicArea scheme.scheme)) =
      some signature := rfl
  simp only [hsignature, hchosen, hextensions, hname]
  rw [decide_eq_true hroom]
  rfl

theorem certifyX509_handed {object : Object} {reserved : Bytes} {inScheme : TpmtSigScheme}
    {partialCertificate : Bytes} {a : Attestation}
    (h : (tpm2CertifyX509 C O H key object reserved inScheme partialCertificate s).1 = .ok a) :
    Handed O H key (.certifyX509 object reserved inScheme partialCertificate) a := by
  unfold tpm2CertifyX509 at h
  obtain ⟨_, _, h⟩ := bind_eq_ok h
  obtain ⟨scheme, hscheme, h⟩ := bind_eq_ok h
  obtain ⟨tbs, htbs, h⟩ := bind_eq_ok h
  obtain ⟨signature, _, h⟩ := bind_eq_ok h
  cases h
  refine ⟨⟨scheme, attestScheme_eq_ok hscheme, ?_⟩, certificateToBeSigned_ne_nil htbs⟩
  have hbeside : (AttestRequest.certifyX509 object reserved inScheme partialCertificate).beside O key = [] :=
    ite_self []
  rw [hbeside]
  simp [AttestRequest.isCertificate, attestDigest]

theorem certifyX509_of_tbs {object : Object} {inScheme scheme : TpmtSigScheme} {partialCertificate tbs : Bytes}
    {signature : TpmtSignature} (hscheme : attestScheme O 0x100 0x240 (some key) inScheme = .ok scheme)
    (htbs : certificateToBeSigned H key object scheme partialCertificate = .ok tbs)
    (hsign : cryptSign C O key scheme (cryptHashBlock H scheme.hashAlg tbs) = .ok signature) :
    (tpm2CertifyX509 C O H key object [] inScheme partialCertificate s).1 =
      .ok ⟨tbs, cryptHashBlock H scheme.hashAlg tbs, some signature⟩ := by
  simp only [tpm2CertifyX509, hscheme]
  change (certificateToBeSigned H key object scheme partialCertificate >>= fun tbs =>
    cryptSign C O key scheme (cryptHashBlock H scheme.hashAlg tbs) >>= fun signature => pure _) = _
  rw [htbs]
  change (cryptSign C O key scheme (cryptHashBlock H scheme.hashAlg tbs) >>= fun signature => pure _) = _
  rw [hsign]
  rfl

theorem respond_handed {r : AttestRequest} {a : Attestation} (h : (r.respond C O H kdfa key s).1 = .ok a) :
    Handed O H key r a := by
  cases r with
  | certify object input => exact attest_handed rfl h
  | certifyCreation object creationHash creationTicket input => exact attest_handed rfl h
  | quote pcrSelect input => exact attest_handed rfl h
  | getSessionAuditDigest sessionHandle session input => exact attest_handed rfl h
  | getCommandAuditDigest input =>
      simp only [AttestRequest.respond, tpm2GetCommandAuditDigest] at h
      split at h
      · rename_i heq
        cases h
        exact attest_handed rfl (congrArg Prod.fst heq)
      · cases h
  | getTime input => exact attest_handed rfl h
  | nvCertify authHandle nvIndex size offset input => exact attest_handed rfl h
  | certifyX509 object reserved inScheme partialCertificate => exact certifyX509_handed h

theorem hashOfId_of_isMldsa {inScheme scheme : TpmtSigScheme} (hk : key.publicArea.isMldsa = true)
    (h : cryptSelectSignScheme O key inScheme = some scheme) : hashOfId scheme.hashAlg = none := by
  unfold cryptSelectSignScheme at h
  rw [if_pos hk] at h
  dsimp only at h
  split at h
  · cases h
    rfl
  · split at h
    · rename_i heq
      cases h
      rw [← heq]
      rfl
    · cases h

theorem hashOfId_isSome {sign : Object → TpmtSigScheme → Bytes → Except Fault TpmtSignature}
    {inScheme scheme : TpmtSigScheme} (hk : key.publicArea.isMldsa = false)
    (h : cryptSelectSignScheme (attestSchemes sign) key inScheme = some scheme) :
    ∃ hash, hashOfId scheme.hashAlg = some hash := by
  unfold cryptSelectSignScheme at h
  rw [hk, if_neg Bool.false_ne_true] at h
  obtain ⟨objectScheme, _, h⟩ := Option.bind_eq_some_iff.mp h
  obtain ⟨selected, _, h⟩ := Option.bind_eq_some_iff.mp h
  split at h
  · rename_i hvalid
    cases h
    simp only [cryptIsValidSignScheme, Bool.and_eq_true] at hvalid
    exact Option.isSome_iff_exists.mp hvalid.2
  · cases h

theorem digestSize_inj {h h' : HashAlg} (heq : h.digestSize = h'.digestSize) : h = h' := by
  cases h <;> cases h' <;> first | rfl | cases heq

/-- Digests of two hash functions differ in their length. -/
theorem hash_alg_eq {h h' : HashAlg} {x y : Bytes} (heq : H.hash h x = H.hash h' y) : h = h' := by
  apply digestSize_inj
  rw [← H.length_eq h x, heq, H.length_eq]

theorem Handed.mldsa {r : AttestRequest} {a : Attestation} (h : Handed O H key r a)
    (hk : key.publicArea.isMldsa = true) : a.handed = if r.isCertificate then [] else a.content := by
  obtain ⟨scheme, hsel, hhanded⟩ := h.selected
  have hnone := hashOfId_of_isMldsa hk hsel
  rw [hhanded, hk, Bool.true_and]
  cases r.isCertificate with
  | true => simp [attestDigest, cryptHashBlock, hnone]
  | false => rfl

theorem Handed.digest {sign : Object → TpmtSigScheme → Bytes → Except Fault TpmtSignature} {r : AttestRequest}
    {a : Attestation} (h : Handed (attestSchemes sign) H key r a) (hk : key.publicArea.isMldsa = false) :
    ∃ hash, r.hashAlg (attestSchemes sign) key = some hash ∧
      a.handed = if r.beside (attestSchemes sign) key = [] then H.hash hash a.content
        else H.hash hash (r.beside (attestSchemes sign) key ++ H.hash hash a.content) := by
  obtain ⟨scheme, hsel, hhanded⟩ := h.selected
  obtain ⟨hash, hhash⟩ := hashOfId_isSome hk hsel
  refine ⟨hash, ?_, ?_⟩
  · rw [AttestRequest.hashAlg, hsel]
    exact hhash
  · rw [hhanded, hk, Bool.false_and, if_neg Bool.false_ne_true]
    simp only [attestDigest, cryptHashBlock, hhash]

/-- With a key of another type than those of ML-DSA, digests that agree come from the same content or from an
ambiguous pair. -/
theorem digest_eq_iff {sign : Object → TpmtSigScheme → Bytes → Except Fault TpmtSignature}
    {r r' : AttestRequest} {a a' : Attestation} (hk : key.publicArea.isMldsa = false)
    (h : Handed (attestSchemes sign) H key r a) (h' : Handed (attestSchemes sign) H key r' a')
    (hfree : ∀ alg, Set.InjOn (H.hash alg) (r.hashed (attestSchemes sign) H key a.content ∪
      r'.hashed (attestSchemes sign) H key a'.content)) (hne : a.content ≠ a'.content) :
    a.handed = a'.handed ↔
      AttestRequest.Ambiguous (attestSchemes sign) H key r r' a.content a'.content ∨
        AttestRequest.Ambiguous (attestSchemes sign) H key r' r a'.content a.content := by
  obtain ⟨alg, halg, hhanded⟩ := h.digest hk
  obtain ⟨alg', halg', hhanded'⟩ := h'.digest hk
  have hmem : a.content ∈ r.hashed (attestSchemes sign) H key a.content := .inl rfl
  have hmem' : a'.content ∈ r'.hashed (attestSchemes sign) H key a'.content := .inl rfl
  by_cases hq : r.beside (attestSchemes sign) key = []
  · rw [if_pos hq] at hhanded
    by_cases hq' : r'.beside (attestSchemes sign) key = []
    · rw [if_pos hq'] at hhanded'
      constructor
      · intro heq
        rw [hhanded, hhanded'] at heq
        cases hash_alg_eq heq
        exact absurd (hfree alg (.inl hmem) (.inr hmem') heq) hne
      · rintro (hamb | hamb)
        · exact absurd hq hamb.1
        · exact absurd hq' hamb.1
    · rw [if_neg hq'] at hhanded'
      constructor
      · intro heq
        rw [hhanded, hhanded'] at heq
        cases hash_alg_eq heq
        have hlast := hfree alg (.inl hmem) (.inr (.inr ⟨hq', alg, halg', rfl⟩)) heq
        exact .inr ⟨hq', hq, alg, halg', halg, hlast⟩
      · rintro (hamb | ⟨_, _, both, hboth', hboth, hcontent⟩)
        · exact absurd hq hamb.1
        · rw [halg] at hboth
          rw [halg'] at hboth'
          cases hboth
          cases hboth'
          rw [hhanded, hhanded', hcontent]
  · rw [if_neg hq] at hhanded
    by_cases hq' : r'.beside (attestSchemes sign) key = []
    · rw [if_pos hq'] at hhanded'
      constructor
      · intro heq
        rw [hhanded, hhanded'] at heq
        cases hash_alg_eq heq
        have hlast := hfree alg (.inl (.inr ⟨hq, alg, halg, rfl⟩)) (.inr hmem') heq
        exact .inl ⟨hq, hq', alg, halg, halg', hlast.symm⟩
      · rintro (⟨_, _, both, hboth, hboth', hcontent⟩ | hamb)
        · rw [halg] at hboth
          rw [halg'] at hboth'
          cases hboth
          cases hboth'
          rw [hhanded, hhanded', hcontent]
        · exact absurd hq' hamb.1
    · rw [if_neg hq'] at hhanded'
      constructor
      · intro heq
        rw [hhanded, hhanded'] at heq
        cases hash_alg_eq heq
        have hlast := hfree alg (.inl (.inr ⟨hq, alg, halg, rfl⟩)) (.inr (.inr ⟨hq', alg, halg', rfl⟩)) heq
        have hlength : (H.hash alg a.content).length = (H.hash alg a'.content).length := by
          rw [H.length_eq, H.length_eq]
        have hdigest := (List.append_inj' hlast hlength).2
        exact absurd (hfree alg (.inl hmem) (.inr hmem') hdigest) hne
      · rintro (hamb | hamb)
        · exact absurd hamb.2.1 hq'
        · exact absurd hamb.2.1 hq

theorem mldsa_handed_eq_iff {r r' : AttestRequest} {a a' : Attestation} (hk : key.publicArea.isMldsa = true)
    (h : Handed O H key r a) (h' : Handed O H key r' a') (hne : a.content ≠ a'.content) :
    a.handed = a'.handed ↔ r.isCertificate = true ∧ r'.isCertificate = true := by
  rw [h.mldsa hk, h'.mldsa hk]
  cases r.isCertificate with
  | true =>
      cases r'.isCertificate with
      | true => simp
      | false => simpa using h'.content_ne.symm
  | false =>
      cases r'.isCertificate with
      | true => simpa using h.content_ne
      | false => simpa using hne

theorem not_ambiguous_of_isMldsa {r r' : AttestRequest} {content content' : Bytes}
    (hk : key.publicArea.isMldsa = true) : ¬ AttestRequest.Ambiguous O H key r r' content content' := by
  rintro ⟨_, _, h, halg, _⟩
  obtain ⟨scheme, hsel, hhash⟩ := Option.bind_eq_some_iff.mp halg
  rw [hashOfId_of_isMldsa hk hsel] at hhash
  cases hhash

/-- Two runs with the same key and different contents hand over different octets, unless both have made a
certificate with an ML-DSA key, or the content of one is what the other, under the anonymous scheme,
hashes last. -/
theorem handed_ne_iff {sign : Object → TpmtSigScheme → Bytes → Except Fault TpmtSignature}
    {r r' : AttestRequest} {a a' : Attestation}
    (h : (r.respond C (attestSchemes sign) H kdfa key s).1 = .ok a)
    (h' : (r'.respond C (attestSchemes sign) H kdfa key s').1 = .ok a')
    (hfree : ∀ alg, Set.InjOn (H.hash alg) (r.hashed (attestSchemes sign) H key a.content ∪
      r'.hashed (attestSchemes sign) H key a'.content)) (hne : a.content ≠ a'.content) :
    a.handed ≠ a'.handed ↔
      ¬ (key.publicArea.isMldsa = true ∧ r.isCertificate = true ∧ r'.isCertificate = true) ∧
        ¬ AttestRequest.Ambiguous (attestSchemes sign) H key r r' a.content a'.content ∧
        ¬ AttestRequest.Ambiguous (attestSchemes sign) H key r' r a'.content a.content := by
  have hhanded := respond_handed h
  have hhanded' := respond_handed h'
  cases hk : key.publicArea.isMldsa with
  | true =>
      rw [ne_eq, mldsa_handed_eq_iff hk hhanded hhanded' hne]
      simp [not_ambiguous_of_isMldsa hk]
  | false =>
      rw [ne_eq, digest_eq_iff hk hhanded hhanded' hfree hne, not_or]
      simp

end

/-! ## Certificates under an ML-DSA key -/

/-- The last octets, from behind. -/
def tailHash : PolicyHash where
  hash alg data := (data.reverse ++ List.replicate alg.digestSize 0).take alg.digestSize
  length_eq alg data := by simp

/-- A signing key on P-256 whose private part is 1. -/
def eccKey : Object where
  attributes := { spsHierarchy := true }
  publicArea :=
    { type := .ecc
      nameAlg := some .sha256
      objectAttributes := { userWithAuth := true, sign := true }
      authPolicy := .empty
      parameters := (⟨none, .null, .nistP256, none⟩ : EccParms)
      unique :=
        ((.ofBytes (be 32 0x6B17D1F2E12C4247F8BCE6E563A440F277037D812DEB33A0F4A13945D898C296),
          .ofBytes (be 32 0x4FE342E2FE1A7F9B8EE7EB4A7C0F9E162BCE33576B315ECECBB6406837BF51F5)) :
          Tpm2bEccParameter × Tpm2bEccParameter) }
  sensitive :=
    { authValue := .empty
      seedValue := .empty
      sensitive := some ⟨.ecc, .empty⟩
      public_only := nofun }
  privateExponent := .zero
  qualifiedName := .empty
  evictHandle := 0
  name := secondName
  seedCompatLevel := .original
  hierarchy := .owner

/-- The algorithm ML-DSA-44, an issuer, a validity and a subject that are empty. -/
def certificateHead : Bytes :=
  Asn1.encapsulate Asn1.constructedSequence [0x06, 0x09, 0x60, 0x86, 0x48, 0x01, 0x65, 0x03, 0x04, 0x03, 0x11] ++
    [0x30, 0x00, 0x30, 0x00, 0x30, 0x00]

/-- The extension for the use of the key, a bit string of one octet. -/
def usageExtension (unused usage : UInt8) : Bytes :=
  Asn1.encapsulate Asn1.x509Extensions (Asn1.encapsulate Asn1.constructedSequence
    (Asn1.encapsulate Asn1.constructedSequence
      (Asn1.oidKeyUsageExtension ++ [0x04, 0x04, 0x03, 0x02, unused, usage])))

def certifyKey (unused usage : UInt8) : AttestRequest :=
  .certifyX509 eccKey [] ⟨TpmAlg.null, TpmAlg.null⟩
    (Asn1.encapsulate Asn1.constructedSequence (certificateHead ++ usageExtension unused usage))

def certifiedFields (unused usage : UInt8) : CertificateFields :=
  ⟨some (certificateHead.take 13), [0x30, 0x00], [0x30, 0x00], [0x30, 0x00], usageExtension unused usage⟩

def certifiedPoint : Bytes := (x509AddPublicKey eccKey.publicArea).getD []

def certifiedParts (unused usage : UInt8) : Bytes :=
  certificateParts (certifiedFields unused usage) (certificateHead.take 13) certifiedPoint

def certifiedSerial (unused usage : UInt8) : Bytes :=
  serialNumber tailHash .sha256 (certifiedParts unused usage) firstName.buffer secondName.buffer

/-- The certificate that `certifyKey` asks for. -/
def toBeSigned (unused usage : UInt8) : Bytes :=
  tbsCertificate (certifiedSerial unused usage) (certifiedParts unused usage)

def mldsaOnly : OtherSchemes := attestSchemes fun _ _ _ => .error .failureMode

def attestWithMldsa (s : AttestState) (r : AttestRequest) : Except Fault Attestation :=
  (r.respond toyCrypto mldsaOnly tailHash (fun _ _ => (0, 0)) (mldsaKey firstName false) s).1

/-- A key that signs data, with 0x80 and 7 unused bits, and one that also signs certificates. -/
def usages : List (UInt8 × UInt8) := [(7, 0x80), (2, 0x84)]

theorem usages_cases {u : UInt8 × UInt8} (hu : u ∈ usages) : u = (7, 0x80) ∨ u = (2, 0x84) := by
  simpa [usages] using hu

theorem parse_usages {u : UInt8 × UInt8} (hu : u ∈ usages) :
    parsePartialCertificate
      (Asn1.encapsulate Asn1.constructedSequence (certificateHead ++ usageExtension u.1 u.2)) =
        .ok (certifiedFields u.1 u.2) := by
  obtain rfl | rfl := usages_cases hu <;> decide +kernel

theorem extensions_usages {u : UInt8 × UInt8} (hu : u ∈ usages) :
    Asn1.processExtensions eccKey.publicArea.objectAttributes (usageExtension u.1 u.2) = .ok () := by
  obtain rfl | rfl := usages_cases hu <;> decide +kernel

theorem room_usages {u : UInt8 × UInt8} (hu : u ∈ usages) :
    addedSize (certifiedFields u.1 u.2) certifiedPoint (certificateHead.take 13) (certifiedSerial u.1 u.2) ≤ 1024 := by
  obtain rfl | rfl := usages_cases hu <;> decide +kernel

theorem certificateToBeSigned_usages {u : UInt8 × UInt8} (hu : u ∈ usages) :
    certificateToBeSigned tailHash (mldsaKey firstName false) eccKey ⟨TpmAlg.mldsa, TpmAlg.null⟩
      (Asn1.encapsulate Asn1.constructedSequence (certificateHead ++ usageExtension u.1 u.2)) =
        .ok (toBeSigned u.1 u.2) := by
  have hpublic : x509AddPublicKey eccKey.publicArea = some certifiedPoint := rfl
  exact certificateToBeSigned_of_fields hpublic (parse_usages hu) rfl (extensions_usages hu) rfl (room_usages hu)

theorem certifyKey_signs_nothing {u : UInt8 × UInt8} (hu : u ∈ usages) :
    attestWithMldsa {} (certifyKey u.1 u.2) = .ok ⟨toBeSigned u.1 u.2, [], some ⟨.mldsa, toySignature [] []⟩⟩ :=
  certifyX509_of_tbs rfl (certificateToBeSigned_usages hu) rfl

theorem hashed_of_beside {O : OtherSchemes} {H : PolicyHash} {key : Object} {r : AttestRequest} {content : Bytes}
    (h : r.beside O key = []) : r.hashed O H key content = {content} := by
  ext m
  simp [AttestRequest.hashed, h]

theorem injOn_hashed {key : Object} {r r' : AttestRequest} {content content' : Bytes}
    (hr : r.beside mldsaOnly key = []) (hr' : r'.beside mldsaOnly key = [])
    (hne : ∀ alg, tailHash.hash alg content ≠ tailHash.hash alg content') (alg : HashAlg) :
    Set.InjOn (tailHash.hash alg) (r.hashed mldsaOnly tailHash key content ∪
      r'.hashed mldsaOnly tailHash key content') := by
  rw [hashed_of_beside hr, hashed_of_beside hr']
  rintro x (rfl | rfl) y (rfl | rfl) heq
  · rfl
  · exact absurd heq (hne alg)
  · exact absurd heq.symm (hne alg)
  · rfl

theorem toBeSigned_digests (alg : HashAlg) :
    tailHash.hash alg (toBeSigned 7 0x80) ≠ tailHash.hash alg (toBeSigned 2 0x84) := by
  cases alg <;> decide +kernel

/-- The ML-DSA key gives one signature to a certificate for a signing key and to one for a key that signs
certificates: it signs the empty string. -/
theorem certificates_signed_alike :
    ∃ a a', attestWithMldsa {} (certifyKey 7 0x80) = .ok a ∧ attestWithMldsa {} (certifyKey 2 0x84) = .ok a' ∧
      (∀ alg, Set.InjOn (tailHash.hash alg)
        ((certifyKey 7 0x80).hashed mldsaOnly tailHash (mldsaKey firstName false) a.content ∪
          (certifyKey 2 0x84).hashed mldsaOnly tailHash (mldsaKey firstName false) a'.content)) ∧
      a.content ≠ a'.content ∧ a.handed = [] ∧ a'.handed = [] := by
  refine ⟨_, _, certifyKey_signs_nothing (u := (7, 0x80)) (by decide),
    certifyKey_signs_nothing (u := (2, 0x84)) (by decide), injOn_hashed rfl rfl toBeSigned_digests, ?_, rfl, rfl⟩
  intro heq
  exact toBeSigned_digests .sha256 (congrArg _ heq)

def askTime : AttestRequest := .getTime ⟨⟨TpmAlg.null, TpmAlg.null⟩, .empty⟩

/-- The `TPMS_ATTEST` that answers it. -/
def askedTime (s : AttestState) : Bytes :=
  (fillInAttestInfo (fun _ _ => (0, 0)) (some (mldsaKey firstName false)) ⟨TpmAlg.mldsa, TpmAlg.null⟩ []
    (.time s.time s.timeFillInfo s.firmwareVersion) s).1.marshal

theorem askTime_signed (clock : UInt64) :
    attestWithMldsa { clock } askTime =
      .ok ⟨askedTime { clock }, askedTime { clock }, some ⟨.mldsa, toySignature (askedTime { clock }) []⟩⟩ := rfl

/-- `TPM2_GetTime` at two times: both contents are signed as they are. -/
theorem times_signed_apart :
    ∃ a a', attestWithMldsa { clock := 0 } askTime = .ok a ∧ attestWithMldsa { clock := 1 } askTime = .ok a' ∧
      a.content ≠ a'.content ∧ a.handed ≠ a'.handed := by
  have hdigests : ∀ alg, tailHash.hash alg (askedTime { clock := 0 }) ≠ tailHash.hash alg (askedTime { clock := 1 }) := by
    intro alg
    cases alg <;> decide +kernel
  have hne : askedTime { clock := 0 } ≠ askedTime { clock := 1 } := fun heq => hdigests .sha256 (congrArg _ heq)
  have hfree := @injOn_hashed (mldsaKey firstName false) askTime askTime _ _ rfl rfl hdigests
  refine ⟨_, _, askTime_signed 0, askTime_signed 1, hne, ?_⟩
  refine (handed_ne_iff (askTime_signed 0) (askTime_signed 1) hfree hne).mpr ⟨?_, ?_, ?_⟩
  · rintro ⟨_, hcert, _⟩
    cases hcert
  · exact not_ambiguous_of_isMldsa rfl
  · exact not_ambiguous_of_isMldsa rfl

end PqcTpm
