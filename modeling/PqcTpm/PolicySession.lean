import PqcTpm.Algorithms
import PqcTpm.CommandTable
import PqcTpm.Lib.Transition

/-!
# Policy sessions

`SESSION` of `Global.h`, the policy commands of `EACommands.c` with `Policy_spt.c`, and
`CheckPolicyAuthSession` of `SessionProcess.c`. A policy command extends the policy digest
and may leave a restriction in the session; the check compares the digest with the
entity's policy and the command with the restrictions. What a command asks other modules
(a signature, a ticket, the contents of an NV index, a PCR digest) comes with the command
as their answer.
-/
namespace PqcTpm
open ByteCodec Transition

/-- `TPM_SE`. -/
inductive SessionType
  | hmac | policy | trial
  deriving DecidableEq

/-- `SESSION_ATTRIBUTES`. -/
structure SessionAttributes where
  isPolicy : Bool := false
  isAudit : Bool := false
  isBound : Bool := false
  isCpHashDefined : Bool := false
  isAuthValueNeeded : Bool := false
  isPasswordNeeded : Bool := false
  isPPRequired : Bool := false
  isTrialPolicy : Bool := false
  isDaBound : Bool := false
  isLockoutBound : Bool := false
  includeAuth : Bool := false
  checkNvWritten : Bool := false
  nvWrittenState : Bool := false
  isTemplateHashDefined : Bool := false
  isNameHashDefined : Bool := false
  isParametersHashDefined : Bool := false
  deriving DecidableEq

/-- `SESSION`; `u1` holds one of five digests or names, and its size is its length. -/
structure Session where
  attributes : SessionAttributes := {}
  pcrCounter : Nat := 0
  startTime : Nat := 0
  timeout : Nat := 0
  epoch : Nat := 0
  commandCode : Nat := 0
  authHashAlg : HashAlg
  commandLocality : UInt8 := 0
  nonceTpm : Bytes := []
  u1 : Bytes := []
  policyDigest : Bytes
  deriving DecidableEq

/-- What the TPM knows of the world at the time of a command. -/
structure Circumstances where
  pcrCounter : Nat
  time : Nat
  timeEpoch : Nat
  nvAvailable : Bool
  locality : UInt8
  physicalPresence : Bool
  enabledCommands : Nat → Bool

/-- The hash functions. -/
structure PolicyHash where
  hash : HashAlg → Bytes → Bytes
  length_eq : ∀ alg data, (hash alg data).length = alg.digestSize

/-- A hash by the table of its values, with zeros for what the table leaves out. -/
def PolicyHash.tabulated (values : List (Bytes × Bytes)) : PolicyHash where
  hash alg data := ((values.lookup data).getD [] ++ List.replicate alg.digestSize 0).take alg.digestSize
  length_eq alg data := by simp

theorem zeroDigest_length (alg : HashAlg) (_ : Bytes) :
    (List.replicate alg.digestSize (0 : UInt8)).length = alg.digestSize := List.length_replicate

def demand (c : Bool) (e : Fault) : Except Fault Unit := if c then .ok () else .error e

theorem demand_eq_ok {c : Bool} {e : Fault} {u : Unit} (h : demand c e = .ok u) : c = true := by
  cases c with
  | true => rfl
  | false => cases h

section
variable (H : PolicyHash) (level : Nat) (w : Circumstances)

/-! ## Starting over -/

/-- `SessionSetStartTime`. -/
def Session.setStartTime (s : Session) : Session :=
  { s with startTime := w.time, epoch := w.timeEpoch, timeout := 0 }

/-- `SessionCreate` for `TPM_SE_POLICY`, and for `TPM_SE_TRIAL`. -/
def Session.createPolicy (authHash : HashAlg) (nonceTpm : Bytes) (trial isDaBound isLockoutBound : Bool) : Session :=
  Session.setStartTime w
    { attributes := { isPolicy := true, isTrialPolicy := trial, isDaBound, isLockoutBound }
      authHashAlg := authHash
      nonceTpm
      policyDigest := List.replicate authHash.digestSize 0 }

/-- `SessionResetPolicyData`. -/
def Session.resetPolicyData (s : Session) : Session :=
  { s with
    commandCode := 0
    commandLocality := 0
    u1 := []
    timeout := 0
    pcrCounter := 0
    policyDigest := List.replicate s.policyDigest.length 0
    attributes :=
      { isPolicy := true
        isTrialPolicy := s.attributes.isTrialPolicy
        isDaBound := s.attributes.isDaBound
        isLockoutBound := s.attributes.isLockoutBound } }

/-! ## What the commands share -/

/-- `IsCpHashUnionOccupied`. -/
def SessionAttributes.isCpHashUnionOccupied (a : SessionAttributes) : Bool :=
  a.isBound || a.isCpHashDefined || a.isNameHashDefined || a.isParametersHashDefined || a.isTemplateHashDefined

/-- The policy digest, extended by a command code and what goes with it. -/
def Session.extend (s : Session) (commandCode : Nat) (data : Bytes) : Session :=
  { s with policyDigest := H.hash s.authHashAlg (s.policyDigest ++ be 4 commandCode ++ data) }

/-- `PolicyDigestClear`. -/
def Session.policyDigestClear (s : Session) : Session :=
  { s with policyDigest := List.replicate s.authHashAlg.digestSize 0 }

/-- `ComputeAuthTimeout`: milliseconds in 64 bits. -/
def computeAuthTimeout (s : Session) (expiration : Int) (nonce : Bytes) : Nat :=
  if expiration = 0 then 0
  else
    let seconds := if expiration = -2 ^ 31 then 2 ^ 31 - 1 else expiration.natAbs
    if nonce = [] then (seconds * 1000 + w.time % 1000) % 2 ^ 64
    else (s.startTime + seconds * 1000) % 2 ^ 64

/-- `PolicyParameterChecks`. -/
def policyParameterChecks (s : Session) (authTimeout : Nat) (cpHashA : Bytes) (nonce : Option Bytes)
    (blameNonce blameCpHash blameExpiration : Nat) : Except Fault Unit := do
  demand (nonce.all fun n => n == [] || n == s.nonceTpm) (.at .nonce blameNonce)
  demand (authTimeout == 0 || w.nvAvailable) (.of .nvUnavailable)
  demand (authTimeout == 0 || (decide (w.time ≤ authTimeout) && s.epoch == w.timeEpoch)) (.at .expired blameExpiration)
  demand (cpHashA == [] || cpHashA.length == s.policyDigest.length) (.at .size blameCpHash)
  demand (cpHashA == [] || (s.u1 == [] || cpHashA == s.u1)) (.of .cphash)

/-- The last part of `PolicyContextUpdate`. -/
def Session.limit (s : Session) (cpHash : Bytes) (policyTimeout : Nat) : Session :=
  { s with
    u1 := if cpHash = [] then s.u1 else cpHash
    attributes := { s.attributes with isCpHashDefined := s.attributes.isCpHashDefined || decide (cpHash ≠ []) }
    timeout :=
      if policyTimeout ≠ 0 ∧ (s.timeout = 0 ∨ policyTimeout < s.timeout) then policyTimeout else s.timeout }

/-- `PolicyContextUpdate`. -/
def policyContextUpdate (commandCode : Nat) (name : Bytes) (ref : Option Bytes) (cpHash : Bytes)
    (policyTimeout : Nat) (s : Session) : Session :=
  let s := s.extend H commandCode name
  let s := match ref with
    | none => s
    | some ref => { s with policyDigest := H.hash s.authHashAlg (s.policyDigest ++ ref) }
  s.limit cpHash policyTimeout

/-! ## The commands -/

/-- The parameters that `TPM2_PolicySigned` and `TPM2_PolicySecret` share. -/
structure PolicyAuthorization where
  name : Bytes
  policyRef : Bytes
  cpHashA : Bytes
  nonceTpm : Bytes
  expiration : Int

abbrev PolicyOutcome := Except Fault Unit × Session

/-- `TPM2_PolicySigned`; `signature` is what `CryptValidateSignature` says, `ticket` what
`TicketComputeAuth` does, which is asked after the session is changed. -/
def policySigned (a : PolicyAuthorization) (signature ticket : Except Fault Unit) (s : Session) : PolicyOutcome :=
  let authTimeout := if s.attributes.isTrialPolicy then 0 else computeAuthTimeout w s a.expiration a.nonceTpm
  let checks : Except Fault Unit :=
    if s.attributes.isTrialPolicy then .ok ()
    else do
      policyParameterChecks w s authTimeout a.cpHashA (some a.nonceTpm) 0x140 0x240 0x440
      signature
  match checks with
  | .error e => (.error e, s)
  | .ok _ =>
      let s' := policyContextUpdate H 0x160 a.name (some a.policyRef) a.cpHashA authTimeout s
      (if a.expiration < 0 ∧ s.attributes.isTrialPolicy = false then ticket else .ok (), s')

/-- `TPM2_PolicySecret`; `pinPass` is `NvIsPinPassIndex`. -/
def policySecret (a : PolicyAuthorization) (pinPass : Bool) (ticket : Except Fault Unit) (s : Session) :
    PolicyOutcome :=
  let authTimeout := if s.attributes.isTrialPolicy then 0 else computeAuthTimeout w s a.expiration a.nonceTpm
  let checks : Except Fault Unit :=
    if s.attributes.isTrialPolicy then .ok ()
    else policyParameterChecks w s authTimeout a.cpHashA (some a.nonceTpm) 0x140 0x240 0x440
  match checks with
  | .error e => (.error e, s)
  | .ok _ =>
      let s' := policyContextUpdate H 0x151 a.name (some a.policyRef) a.cpHashA authTimeout s
      (if a.expiration < 0 ∧ s.attributes.isTrialPolicy = false ∧ pinPass = false then ticket else .ok (), s')

/-- The timeout of a ticket without `EXPIRATION_BIT`. -/
def ticketTimeout (timeout : Bytes) : Nat := fromBe timeout % 2 ^ 63

/-- `TPM2_PolicyTicket`; `signed` is the tag, `ticket` the comparison with the ticket computed anew. -/
def policyTicket (timeout cpHashA policyRef authName : Bytes) (signed : Bool) (ticket : Except Fault Unit)
    (s : Session) : PolicyOutcome :=
  if s.attributes.isTrialPolicy then (.error (.at .attributes 0x100), s)
  else if timeout.length ≠ 8 then (.error (.at .size 0x140), s)
  else
    match policyParameterChecks w s (ticketTimeout timeout) cpHashA none 0 0x240 0x140 with
    | .error e => (.error e, s)
    | .ok _ =>
        match ticket with
        | .error e => (.error e, s)
        | .ok _ =>
            (.ok (), policyContextUpdate H (if signed then 0x160 else 0x151) authName (some policyRef) cpHashA
              (ticketTimeout timeout) s)

/-- `TPM2_PolicyOR`. -/
def policyOR (pHashList : List Bytes) (s : Session) : PolicyOutcome :=
  if (s.attributes.isTrialPolicy && decide (pHashList ≠ [])) || pHashList.contains s.policyDigest then
    (.ok (), s.policyDigestClear.extend H 0x171 pHashList.flatten)
  else (.error (.at .value 0x140), s)

/-- `TPM2_PolicyPCR`; `current` is what `PCRComputeCurrentDigest` gives for the selection. -/
def policyPCR (pcrs current pcrDigest : Bytes) (s : Session) : PolicyOutcome :=
  if s.attributes.isTrialPolicy then
    (.ok (), s.extend H 0x17F (pcrs ++ if pcrDigest = [] then current else pcrDigest))
  else if s.pcrCounter ≠ 0 ∧ s.pcrCounter ≠ w.pcrCounter then (.error (.of .pcrChanged), s)
  else if pcrDigest ≠ [] ∧ pcrDigest ≠ current then (.error (.at .value 0x140), s)
  else (.ok (), { s.extend H 0x17F (pcrs ++ current) with pcrCounter := w.pcrCounter })

/-- `TPM2_PolicyPhysicalPresence`. -/
def policyPhysicalPresence (s : Session) : PolicyOutcome :=
  (.ok (), { s.extend H 0x187 [] with attributes := { s.attributes with isPPRequired := true } })

/-- The localities that a session keeps when `TPM2_PolicyLocality` adds some: a bit set below 32, one
extended locality from there on. -/
def combineLocality (previous locality : UInt8) : Option UInt8 :=
  if locality = 0 then none
  else if previous ≠ 0 ∧ (previous < 32) ≠ (locality < 32) then none
  else if locality < 32 then
    let setting := (if previous = 0 then 0x1F else previous) &&& locality
    if setting = 0 then none else some setting
  else if previous ≠ 0 ∧ previous ≠ locality then none
  else some locality

/-- `TPM2_PolicyLocality`. -/
def policyLocality (locality : UInt8) (s : Session) : PolicyOutcome :=
  match combineLocality s.commandLocality locality with
  | none => (.error (.at .range 0x140), s)
  | some setting => (.ok (), { s.extend H 0x16F [locality] with commandLocality := setting })

/-- The shape of `TPM2_PolicyNV`, `TPM2_PolicyCounterTimer` and `TPM2_PolicyCapability`: the limits of the
operand, a comparison that a trial session does without, and an argument hash. -/
def policyCompare (commandCode : Nat) (argument name : Bytes) (limits comparison : Except Fault Unit)
    (s : Session) : PolicyOutcome :=
  match limits with
  | .error e => (.error e, s)
  | .ok _ =>
      match if s.attributes.isTrialPolicy then .ok () else comparison with
      | .error e => (.error e, s)
      | .ok _ => (.ok (), s.extend H commandCode (H.hash s.authHashAlg argument ++ name))

/-- `TPM2_PolicyNV`: the argument is `operandB`, `offset` and `operation`. -/
def policyNV (argument nvName : Bytes) (comparison : Except Fault Unit) : Session → PolicyOutcome :=
  policyCompare H 0x149 argument nvName (.ok ()) comparison

/-- `TPM2_PolicyCounterTimer`. -/
def policyCounterTimer (argument : Bytes) (limits comparison : Except Fault Unit) : Session → PolicyOutcome :=
  policyCompare H 0x16D argument [] limits comparison

/-- `TPM2_PolicyCapability`: the argument also has `capability` and `property`. -/
def policyCapability (argument : Bytes) (comparison : Except Fault Unit) : Session → PolicyOutcome :=
  policyCompare H 0x19B argument [] (.ok ()) comparison

/-- `TPM2_PolicyCommandCode`. -/
def policyCommandCode (code : Nat) (s : Session) : PolicyOutcome :=
  if s.commandCode ≠ 0 ∧ s.commandCode ≠ code then (.error (.at .value 0x140), s)
  else if (commandCodeToCommandIndex w.enabledCommands code).isNone then (.error (.at .policyCc 0x140), s)
  else (.ok (), { s.extend H 0x16C (be 4 code) with commandCode := code })

/-- `TPM2_PolicyCpHash`. -/
def policyCpHash (cpHashA : Bytes) (s : Session) : PolicyOutcome :=
  if cpHashA.length ≠ s.authHashAlg.digestSize then (.error (.at .size 0x140), s)
  else if s.attributes.isCpHashUnionOccupied ∧ (s.attributes.isCpHashDefined = false ∨ cpHashA ≠ s.u1) then
    (.error (.of .cphash), s)
  else
    (.ok (), { s.extend H 0x16E cpHashA with
      u1 := cpHashA
      attributes := { s.attributes with isCpHashDefined := true } })

/-- `TPM2_PolicyNameHash`. -/
def policyNameHash (nameHash : Bytes) (s : Session) : PolicyOutcome :=
  if nameHash.length ≠ s.authHashAlg.digestSize then (.error (.at .size 0x140), s)
  else if s.attributes.isCpHashUnionOccupied then (.error (.of .cphash), s)
  else
    (.ok (), { s.extend H 0x170 nameHash with
      u1 := nameHash
      attributes := { s.attributes with isNameHashDefined := s.attributes.isNameHashDefined || decide (4 ≤ level) } })

/-- `TPM2_PolicyDuplicationSelect`. -/
def policyDuplicationSelect (objectName newParentName : Bytes) (includeObject : Bool) (s : Session) :
    PolicyOutcome :=
  if s.u1 ≠ [] then (.error (.of .cphash), s)
  else if s.commandCode ≠ 0 then (.error (.of .commandCode), s)
  else
    let selected := if includeObject then objectName ++ newParentName else newParentName
    (.ok (), { s.extend H 0x188 (selected ++ be 1 includeObject.toNat) with
      u1 := H.hash s.authHashAlg (objectName ++ newParentName)
      attributes := { s.attributes with isNameHashDefined := s.attributes.isNameHashDefined || decide (4 ≤ level) }
      commandCode := 0x14B })

/-- `TPM2_PolicyAuthorize`; `keySign` is checked by its size and algorithm, `ticket` is the comparison
with the ticket computed anew. -/
def policyAuthorize (approvedPolicy policyRef keySign : Bytes) (keyName ticket : Except Fault Unit) (s : Session) :
    PolicyOutcome :=
  let checks : Except Fault Unit := do
    keyName
    if s.attributes.isTrialPolicy then pure ()
    else do
      demand (s.policyDigest == approvedPolicy) (.at .value 0x140)
      ticket
  match checks with
  | .error e => (.error e, s)
  | .ok _ => (.ok (), policyContextUpdate H 0x16A keySign (some policyRef) [] 0 s.policyDigestClear)

/-- `TPM2_PolicyAuthValue`; `TPM2_PolicyPassword` uses its command code. -/
def policyAuthValue (s : Session) : PolicyOutcome :=
  (.ok (), { s.extend H 0x16B [] with
    attributes := { s.attributes with isAuthValueNeeded := true, isPasswordNeeded := false } })

/-- `TPM2_PolicyPassword`. -/
def policyPassword (s : Session) : PolicyOutcome :=
  (.ok (), { s.extend H 0x16B [] with
    attributes := { s.attributes with isPasswordNeeded := true, isAuthValueNeeded := false } })

/-- `TPM2_PolicyNvWritten`. -/
def policyNvWritten (writtenSet : Bool) (s : Session) : PolicyOutcome :=
  if s.attributes.checkNvWritten ∧ s.attributes.nvWrittenState ≠ writtenSet then (.error (.at .value 0x140), s)
  else
    (.ok (), { s.extend H 0x18F (be 1 writtenSet.toNat) with
      attributes := { s.attributes with checkNvWritten := true, nvWrittenState := writtenSet } })

/-- `TPM2_PolicyTemplate`. -/
def policyTemplate (templateHash : Bytes) (s : Session) : PolicyOutcome :=
  if s.attributes.isCpHashUnionOccupied ∧ (s.attributes.isTemplateHashDefined = false ∨ templateHash ≠ s.u1) then
    (.error (.of .cphash), s)
  else if templateHash.length ≠ s.authHashAlg.digestSize then (.error (.at .size 0x140), s)
  else
    (.ok (), { s.extend H 0x190 templateHash with
      u1 := templateHash
      attributes := { s.attributes with isTemplateHashDefined := true } })

/-- `TPM2_PolicyAuthorizeNV`; `policyInNv` is what `NvReadAccessChecks` and `TPMT_HA_Unmarshal` give. -/
def policyAuthorizeNV (name : Bytes) (policyInNv : Except Fault (HashAlg × Bytes)) (s : Session) : PolicyOutcome :=
  let checks : Except Fault Unit :=
    if s.attributes.isTrialPolicy then .ok ()
    else do
      let (hashAlg, digest) ← policyInNv
      demand (hashAlg == s.authHashAlg) (.of .hash)
      demand (digest == s.policyDigest) (.of .value)
  match checks with
  | .error e => (.error e, s)
  | .ok _ => (.ok (), policyContextUpdate H 0x192 name none [] 0 s.policyDigestClear)

/-- `TPM2_PolicyParameters`. -/
def policyParameters (pHash : Bytes) (s : Session) : PolicyOutcome :=
  if pHash.length ≠ s.authHashAlg.digestSize then (.error (.at .size 0x140), s)
  else if s.attributes.isCpHashUnionOccupied then (.error (.of .cphash), s)
  else
    (.ok (), { s.extend H 0x19C pHash with
      u1 := pHash
      attributes := { s.attributes with isParametersHashDefined := true } })

/-- A policy command on a session. -/
inductive PolicyCommand
  | policySigned (a : PolicyAuthorization) (signature ticket : Except Fault Unit)
  | policySecret (a : PolicyAuthorization) (pinPass : Bool) (ticket : Except Fault Unit)
  | policyTicket (timeout cpHashA policyRef authName : Bytes) (signed : Bool) (ticket : Except Fault Unit)
  | policyOR (pHashList : List Bytes)
  | policyPCR (pcrs current pcrDigest : Bytes)
  | policyPhysicalPresence
  | policyLocality (locality : UInt8)
  | policyNV (argument nvName : Bytes) (comparison : Except Fault Unit)
  | policyCounterTimer (argument : Bytes) (limits comparison : Except Fault Unit)
  | policyCapability (argument : Bytes) (comparison : Except Fault Unit)
  | policyCommandCode (code : Nat)
  | policyCpHash (cpHashA : Bytes)
  | policyNameHash (nameHash : Bytes)
  | policyDuplicationSelect (objectName newParentName : Bytes) (includeObject : Bool)
  | policyAuthorize (approvedPolicy policyRef keySign : Bytes) (keyName ticket : Except Fault Unit)
  | policyAuthorizeNV (name : Bytes) (policyInNv : Except Fault (HashAlg × Bytes))
  | policyAuthValue
  | policyPassword
  | policyGetDigest
  | policyNvWritten (writtenSet : Bool)
  | policyTemplate (templateHash : Bytes)
  | policyParameters (pHash : Bytes)

def PolicyCommand.act (s : Session) : PolicyCommand → PolicyOutcome
  | .policySigned a signature ticket => PqcTpm.policySigned H w a signature ticket s
  | .policySecret a pinPass ticket => PqcTpm.policySecret H w a pinPass ticket s
  | .policyTicket timeout cpHashA policyRef authName signed ticket =>
      PqcTpm.policyTicket H w timeout cpHashA policyRef authName signed ticket s
  | .policyOR pHashList => PqcTpm.policyOR H pHashList s
  | .policyPCR pcrs current pcrDigest => PqcTpm.policyPCR H w pcrs current pcrDigest s
  | .policyPhysicalPresence => PqcTpm.policyPhysicalPresence H s
  | .policyLocality locality => PqcTpm.policyLocality H locality s
  | .policyNV argument nvName comparison => PqcTpm.policyNV H argument nvName comparison s
  | .policyCounterTimer argument limits comparison => PqcTpm.policyCounterTimer H argument limits comparison s
  | .policyCapability argument comparison => PqcTpm.policyCapability H argument comparison s
  | .policyCommandCode code => PqcTpm.policyCommandCode H w code s
  | .policyCpHash cpHashA => PqcTpm.policyCpHash H cpHashA s
  | .policyNameHash nameHash => PqcTpm.policyNameHash H level nameHash s
  | .policyDuplicationSelect objectName newParentName includeObject =>
      PqcTpm.policyDuplicationSelect H level objectName newParentName includeObject s
  | .policyAuthorize approvedPolicy policyRef keySign keyName ticket =>
      PqcTpm.policyAuthorize H approvedPolicy policyRef keySign keyName ticket s
  | .policyAuthorizeNV name policyInNv => PqcTpm.policyAuthorizeNV H name policyInNv s
  | .policyAuthValue => PqcTpm.policyAuthValue H s
  | .policyPassword => PqcTpm.policyPassword H s
  | .policyGetDigest => (.ok (), s)
  | .policyNvWritten writtenSet => PqcTpm.policyNvWritten H writtenSet s
  | .policyTemplate templateHash => PqcTpm.policyTemplate H templateHash s
  | .policyParameters pHash => PqcTpm.policyParameters H pHash s

/-! ## The check -/

/-- `AUTH_ROLE`. -/
inductive AuthRole
  | none | user | admin | dup
  deriving DecidableEq

/-- The command that a policy session is to authorize, and the entity it stands for: its policy, and
whether it is an NV index that has been written. -/
structure AuthorizedCommand where
  code : Nat
  handleNames : List Bytes
  parameters : Bytes
  role : AuthRole
  authPolicy : Bytes
  policyAlg : Option HashAlg
  nvWritten : Option Bool

namespace AuthorizedCommand
variable (x : AuthorizedCommand)

/-- `ComputeCpHash`. -/
def cpHash (alg : HashAlg) : Bytes := H.hash alg (be 4 x.code ++ x.handleNames.flatten ++ x.parameters)

/-- The digest of `CompareNameHash`. -/
def nameHash (alg : HashAlg) : Bytes := H.hash alg x.handleNames.flatten

/-- The digest of `CompareParametersHash`. -/
def pHash (alg : HashAlg) : Bytes := H.hash alg (be 4 x.code ++ x.parameters)

def readSized : Reader Unit Bytes := do
  let size ← Reader.word 2 ()
  Reader.take size ()

/-- The second parameter of the three commands that create an object. -/
def template : Option Bytes :=
  if x.code = 0x153 ∨ x.code = 0x131 ∨ x.code = 0x191 then
    match readSized x.parameters with
    | .error _ => none
    | .ok (_, rest) =>
        match readSized rest with
        | .error _ => none
        | .ok (template, _) => some template
  else none

/-- The digest of `CompareTemplateHash`, if there is one. -/
def templateHash (alg : HashAlg) : Option Bytes := x.template.map (H.hash alg)

end AuthorizedCommand

/-- `SessionPCRValueIsCurrent`. -/
def sessionPCRValueIsCurrent (s : Session) : Bool := s.pcrCounter == 0 || s.pcrCounter == w.pcrCounter

/-- The locality check of `CheckPolicyAuthSession`. -/
def localityAllowed (sessionLocality locality : UInt8) : Bool :=
  if sessionLocality = 0 then true
  else if locality < 5 then sessionLocality.toNat.testBit locality.toNat && decide (sessionLocality ≤ 31)
  else if 31 < locality then sessionLocality == locality
  else false

/-- Which of the digests the union is taken for. -/
inductive UnionKind
  | cpHash | nameHash | pHash | templateHash
  deriving DecidableEq

def Session.unionKind (s : Session) : Option UnionKind :=
  if s.attributes.isCpHashDefined then some .cpHash
  else if 4 ≤ level ∧ s.attributes.isNameHashDefined then some .nameHash
  else if s.attributes.isParametersHashDefined then some .pHash
  else if s.attributes.isTemplateHashDefined then some .templateHash
  else if level < 4 then some .nameHash
  else none

/-- The digest of the command that the union is compared with. -/
def AuthorizedCommand.unionDigest (x : AuthorizedCommand) (alg : HashAlg) : UnionKind → Option Bytes
  | .cpHash => some (x.cpHash H alg)
  | .nameHash => some (x.nameHash H alg)
  | .pHash => some (x.pHash H alg)
  | .templateHash => x.templateHash H alg

/-- The comparison of the union. `CompareNameHash` compares as many octets as the digest has. -/
def unionAccepts (x : AuthorizedCommand) (s : Session) : Bool :=
  match s.unionKind level with
  | none => false
  | some .nameHash => s.u1.take s.authHashAlg.digestSize == x.nameHash H s.authHashAlg
  | some kind => x.unionDigest H s.authHashAlg kind == some s.u1

/-- `CheckPolicyAuthSession`. -/
def checkPolicyAuthSession (x : AuthorizedCommand) (s : Session) : Except Fault Unit := do
  demand (!(x.code == 0x151) || s.attributes.isPasswordNeeded || s.attributes.isAuthValueNeeded) (.of .mode)
  demand (sessionPCRValueIsCurrent w s) (.of .pcrChanged)
  demand (s.policyDigest == x.authPolicy) (.of .policyFail)
  demand (x.policyAlg == some s.authHashAlg) (.of .policyFail)
  demand (s.timeout == 0 || w.nvAvailable) (.of .nvUnavailable)
  demand (s.timeout == 0 || (decide (w.time ≤ s.timeout) && s.epoch == w.timeEpoch)) (.of .expired)
  demand (s.commandCode == 0 || s.commandCode == x.code) (.of .policyCc)
  demand (!(s.commandCode == 0) || !(x.role == .admin || x.role == .dup)) (.of .policyFail)
  demand (localityAllowed s.commandLocality w.locality) (.of .locality)
  demand (!s.attributes.isPPRequired || w.physicalPresence) (.of .pp)
  demand (s.u1 == [] || unionAccepts H level x s) (.of .policyFail)
  demand (!s.attributes.checkNvWritten || x.nvWritten == some s.attributes.nvWrittenState) (.of .policyFail)

end
end PqcTpm
