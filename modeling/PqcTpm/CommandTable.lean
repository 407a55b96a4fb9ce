import PqcTpm.Types

/-!
# The command tables

`s_commandAttributes` of `CommandAttributeData.h` and `s_CommandDataArray` of
`CommandDispatchData.h`, row by row, for the commands that are compiled in. The two
tables are written down independently of each other in the source; here they are the two
halves of a row.
-/
namespace PqcTpm

/-- A bit of `COMMAND_ATTRIBUTES`; `IS_IMPLEMENTED` is having a row. -/
inductive CommandAttribute
  | encrypt2 | decrypt2 | handle1User | handle1Admin | handle1Dup | handle2User | ppCommand
  | noSessions | ppRequired | rHandle | allowTrial
  deriving DecidableEq, Repr

/-- The types of handles in a command, `*_H_UNMARSHAL`; `orNull` is `ADD_FLAG`. -/
inductive HandleType
  | tpmiDhContext | tpmiRhAc | tpmiRhAct | tpmiRhClear | tpmiRhHierarchyAuth | tpmiRhHierarchyPolicy
  | tpmiRhLockout | tpmiRhNvAuth | tpmiRhNvIndex | tpmiRhPlatform | tpmiRhProvision | tpmiShHmac
  | tpmiShPolicy | tpmiDhEntity | tpmiDhObject | tpmiDhParent | tpmiDhPcr | tpmiRhEndorsement
  | tpmiRhHierarchy | orNull (t : HandleType)
  deriving DecidableEq, Repr

/-- The types of parameters in a command, `*_P_UNMARSHAL`; aliases are under the type they stand for. -/
inductive ParameterType
  | tpm2bData | tpm2bDigest | tpm2bEccParameter | tpm2bEccPoint | tpm2bEncryptedSecret | tpm2bEvent
  | tpm2bIdObject | tpm2bIv | tpm2bMaxBuffer | tpm2bMaxNvBuffer | tpm2bName | tpm2bNvPublic
  | tpm2bNvPublic2 | tpm2bPrivate | tpm2bPublicKeyRsa | tpm2bSensitive | tpm2bSensitiveCreate
  | tpm2bSensitiveData | tpm2bSetCapabilityData | tpm2bTemplate | tpm2bTimeout | tpmiDhContext
  | tpmiDhPersistent | tpmiYesNo | tpmlAlg | tpmlCc | tpmlDigest | tpmlDigestValues
  | tpmlPcrSelection | tpmsContext | tpmtPublicParms | tpmtTkAuth | tpmtTkCreation | tpmtTkHashcheck
  | tpmtTkVerified | tpmAt | tpmCap | tpmClockAdjust | tpmEo | tpmSe | tpmSu | uint16 | uint32
  | uint64 | uint8 | tpm2bPublic | tpmiAlgCipherMode | tpmiAlgHash | tpmiAlgMacScheme | tpmiDhPcr
  | tpmiEccCurve | tpmiEccKeyExchange | tpmiRhEnables | tpmiRhHierarchy | tpmtKdfScheme
  | tpmtRsaDecrypt | tpmtSignature | tpmtSigScheme | tpmtSymDef | tpmtSymDefObject
  | tpm2bKemCiphertext | tpm2bSignatureCtx | tpm2bSignatureHint | orNull (t : ParameterType)
  deriving DecidableEq, Repr

/-- The types of a response, `*_MARSHAL`; `handle` is `UINT32_H_MARSHAL`. -/
inductive ResponseType
  | handle | tpm2bAttest | tpm2bCreationData | tpm2bData | tpm2bDigest | tpm2bEccPoint
  | tpm2bEncryptedSecret | tpm2bIdObject | tpm2bIv | tpm2bMaxBuffer | tpm2bMaxNvBuffer | tpm2bName
  | tpm2bNvPublic | tpm2bNvPublic2 | tpm2bPrivate | tpm2bPublic | tpm2bPublicKeyRsa
  | tpm2bSensitiveData | tpm2bTimeout | uint8 | tpmlAcCapabilities | tpmlAlg | tpmlDigest
  | tpmlDigestValues | tpmlPcrSelection | tpmsAcOutput | tpmsAlgorithmDetailEcc | tpmsCapabilityData
  | tpmsContext | tpmsTimeInfo | tpmtHa | tpmtSignature | tpmtTkAuth | tpmtTkCreation
  | tpmtTkHashcheck | tpmtTkVerified | uint32 | uint16 | tpm2bKemCiphertext | tpm2bSharedSecret
  deriving DecidableEq, Repr

/-- A command of the two tables. `response` is what stands between the two `END_OF_LIST`. -/
structure CommandRow where
  code : Nat
  attributes : List CommandAttribute
  handles : List HandleType
  parameters : List ParameterType
  response : List ResponseType
  outSize : Nat
  deriving DecidableEq, Repr

/-- The rows in the order of their codes. -/
def commandTable : List CommandRow :=
  [⟨0x11f, [.handle1Admin, .handle2User, .ppCommand], [.tpmiRhNvIndex, .tpmiRhPlatform], [], [], 0⟩,  -- NV_UndefineSpaceSpecial
   ⟨0x120, [.handle1User, .ppCommand], [.tpmiRhProvision, .tpmiDhObject], [.tpmiDhPersistent], [], 0⟩,  -- EvictControl
   ⟨0x121, [.handle1User, .ppCommand], [.tpmiRhHierarchy], [.tpmiRhEnables, .tpmiYesNo], [], 0⟩,  -- HierarchyControl
   ⟨0x122, [.handle1User, .ppCommand], [.tpmiRhProvision, .tpmiRhNvIndex], [], [], 0⟩,  -- NV_UndefineSpace
   ⟨0x124, [.handle1User, .ppCommand], [.tpmiRhPlatform], [], [], 0⟩,  -- ChangeEPS
   ⟨0x125, [.handle1User, .ppCommand], [.tpmiRhPlatform], [], [], 0⟩,  -- ChangePPS
   ⟨0x126, [.handle1User, .ppCommand], [.tpmiRhClear], [], [], 0⟩,  -- Clear
   ⟨0x127, [.handle1User, .ppCommand], [.tpmiRhClear], [.tpmiYesNo], [], 0⟩,  -- ClearControl
   ⟨0x128, [.handle1User, .ppCommand], [.tpmiRhProvision], [.uint64], [], 0⟩,  -- ClockSet
   ⟨0x129, [.decrypt2, .handle1User, .ppCommand], [.tpmiRhHierarchyAuth], [.tpm2bDigest], [], 0⟩,  -- HierarchyChangeAuth
   ⟨0x12a, [.decrypt2, .handle1User, .ppCommand], [.tpmiRhProvision], [.tpm2bDigest, .tpm2bNvPublic], [],
    0⟩,  -- NV_DefineSpace
   ⟨0x12b, [.handle1User, .ppCommand], [.tpmiRhPlatform], [.tpmlPcrSelection],
    [.uint8, .uint32, .uint32, .uint32], 16⟩,  -- PCR_Allocate
   ⟨0x12c, [.decrypt2, .handle1User, .ppCommand], [.tpmiRhPlatform],
    [.tpm2bDigest, .orNull .tpmiAlgHash, .tpmiDhPcr], [], 0⟩,  -- PCR_SetAuthPolicy
   ⟨0x12d, [.handle1User, .ppRequired], [.tpmiRhPlatform], [.tpmlCc, .tpmlCc], [], 0⟩,  -- PP_Commands
   ⟨0x12e, [.decrypt2, .handle1User, .ppCommand], [.tpmiRhHierarchyPolicy],
    [.tpm2bDigest, .orNull .tpmiAlgHash], [], 0⟩,  -- SetPrimaryPolicy
   ⟨0x130, [.handle1User, .ppCommand], [.tpmiRhProvision], [.tpmClockAdjust], [], 0⟩,  -- ClockRateAdjust
   ⟨0x131, [.encrypt2, .decrypt2, .handle1User, .ppCommand, .rHandle], [.orNull .tpmiRhHierarchy],
    [.tpm2bSensitiveCreate, .tpm2bPublic, .tpm2bData, .tpmlPcrSelection],
    [.handle, .tpm2bPublic, .tpm2bCreationData, .tpm2bDigest, .tpmtTkCreation, .tpm2bName], 3228⟩,  -- CreatePrimary
   ⟨0x132, [.handle1User, .ppCommand], [.tpmiRhProvision], [], [], 0⟩,  -- NV_GlobalWriteLock
   ⟨0x133, [.encrypt2, .decrypt2, .handle1User, .handle2User], [.tpmiRhEndorsement, .orNull .tpmiDhObject],
    [.tpm2bData, .orNull .tpmtSigScheme], [.tpm2bAttest, .tpmtSignature], 5916⟩,  -- GetCommandAuditDigest
   ⟨0x134, [.handle1User], [.tpmiRhNvAuth, .tpmiRhNvIndex], [], [], 0⟩,  -- NV_Increment
   ⟨0x135, [.handle1User], [.tpmiRhNvAuth, .tpmiRhNvIndex], [.uint64], [], 0⟩,  -- NV_SetBits
   ⟨0x136, [.decrypt2, .handle1User], [.tpmiRhNvAuth, .tpmiRhNvIndex], [.tpm2bMaxNvBuffer], [], 0⟩,  -- NV_Extend
   ⟨0x137, [.decrypt2, .handle1User], [.tpmiRhNvAuth, .tpmiRhNvIndex], [.tpm2bMaxNvBuffer, .uint16], [],
    0⟩,  -- NV_Write
   ⟨0x138, [.handle1User], [.tpmiRhNvAuth, .tpmiRhNvIndex], [], [], 0⟩,  -- NV_WriteLock
   ⟨0x139, [.handle1User], [.tpmiRhLockout], [], [], 0⟩,  -- DictionaryAttackLockReset
   ⟨0x13a, [.handle1User], [.tpmiRhLockout], [.uint32, .uint32, .uint32], [], 0⟩,  -- DictionaryAttackParameters
   ⟨0x13b, [.decrypt2, .handle1Admin], [.tpmiRhNvIndex], [.tpm2bDigest], [], 0⟩,  -- NV_ChangeAuth
   ⟨0x13c, [.decrypt2, .handle1User], [.orNull .tpmiDhPcr], [.tpm2bEvent], [.tpmlDigestValues], 268⟩,  -- PCR_Event
   ⟨0x13d, [.handle1User], [.tpmiDhPcr], [], [], 0⟩,  -- PCR_Reset
   ⟨0x13e, [.encrypt2, .decrypt2, .handle1User], [.tpmiDhObject],
    [.tpm2bMaxBuffer, .orNull .tpmiRhHierarchy], [.tpm2bDigest, .tpmtTkHashcheck], 144⟩,  -- SequenceComplete
   ⟨0x13f, [.handle1User], [.tpmiRhPlatform], [.uint32], [], 0⟩,  -- SetAlgorithmSet
   ⟨0x140, [.handle1User, .ppCommand], [.tpmiRhProvision], [.orNull .tpmiAlgHash, .tpmlCc, .tpmlCc], [],
    0⟩,  -- SetCommandCodeAuditStatus
   ⟨0x142, [], [], [.tpmlAlg], [.tpmlAlg], 132⟩,  -- IncrementalSelfTest
   ⟨0x143, [], [], [.tpmiYesNo], [], 0⟩,  -- SelfTest
   ⟨0x144, [.noSessions], [], [.tpmSu], [], 0⟩,  -- Startup
   ⟨0x145, [], [], [.tpmSu], [], 0⟩,  -- Shutdown
   ⟨0x146, [.decrypt2], [], [.tpm2bSensitiveData], [], 0⟩,  -- StirRandom
   ⟨0x147, [.encrypt2, .decrypt2, .handle1Admin, .handle2User], [.tpmiDhObject, .tpmiDhObject],
    [.tpm2bIdObject, .tpm2bEncryptedSecret], [.tpm2bDigest], 66⟩,  -- ActivateCredential
   ⟨0x148, [.encrypt2, .decrypt2, .handle1Admin, .handle2User], [.tpmiDhObject, .orNull .tpmiDhObject],
    [.tpm2bData, .orNull .tpmtSigScheme], [.tpm2bAttest, .tpmtSignature], 5916⟩,  -- Certify
   ⟨0x149, [.decrypt2, .handle1User, .allowTrial], [.tpmiRhNvAuth, .tpmiRhNvIndex, .tpmiShPolicy],
    [.tpm2bDigest, .uint16, .tpmEo], [], 0⟩,  -- PolicyNV
   ⟨0x14a, [.encrypt2, .decrypt2, .handle1User], [.orNull .tpmiDhObject, .tpmiDhObject],
    [.tpm2bData, .tpm2bDigest, .orNull .tpmtSigScheme, .tpmtTkCreation], [.tpm2bAttest, .tpmtSignature],
    5916⟩,  -- CertifyCreation
   ⟨0x14b, [.encrypt2, .decrypt2, .handle1Dup], [.tpmiDhObject, .orNull .tpmiDhObject],
    [.tpm2bData, .orNull .tpmtSymDefObject], [.tpm2bData, .tpm2bPrivate, .tpm2bEncryptedSecret], 2870⟩,  -- Duplicate
   ⟨0x14c, [.encrypt2, .decrypt2, .handle1User, .handle2User], [.tpmiRhEndorsement, .orNull .tpmiDhObject],
    [.tpm2bData, .orNull .tpmtSigScheme], [.tpm2bAttest, .tpmtSignature], 5916⟩,  -- GetTime
   ⟨0x14d, [.encrypt2, .decrypt2, .handle1User, .handle2User],
    [.tpmiRhEndorsement, .orNull .tpmiDhObject, .tpmiShHmac], [.tpm2bData, .orNull .tpmtSigScheme],
    [.tpm2bAttest, .tpmtSignature], 5916⟩,  -- GetSessionAuditDigest
   ⟨0x14e, [.encrypt2, .handle1User], [.tpmiRhNvAuth, .tpmiRhNvIndex], [.uint16, .uint16],
    [.tpm2bMaxNvBuffer], 1026⟩,  -- NV_Read
   ⟨0x14f, [.handle1User], [.tpmiRhNvAuth, .tpmiRhNvIndex], [], [], 0⟩,  -- NV_ReadLock
   ⟨0x150, [.encrypt2, .decrypt2, .handle1Admin], [.tpmiDhObject, .tpmiDhObject], [.tpm2bDigest],
    [.tpm2bPrivate], 1232⟩,  -- ObjectChangeAuth
   ⟨0x151, [.encrypt2, .decrypt2, .handle1User, .allowTrial], [.tpmiDhEntity, .tpmiShPolicy],
    [.tpm2bDigest, .tpm2bDigest, .tpm2bDigest, .uint32], [.tpm2bTimeout, .tpmtTkAuth], 88⟩,  -- PolicySecret
   ⟨0x152, [.encrypt2, .decrypt2, .handle1User], [.orNull .tpmiDhObject, .orNull .tpmiDhObject],
    [.tpm2bPrivate, .tpm2bName, .tpm2bEncryptedSecret], [.tpm2bPrivate, .tpm2bEncryptedSecret], 2802⟩,  -- Rewrap
   ⟨0x153, [.encrypt2, .decrypt2, .handle1User], [.tpmiDhObject],
    [.tpm2bSensitiveCreate, .tpm2bPublic, .tpm2bData, .tpmlPcrSelection],
    [.tpm2bPrivate, .tpm2bPublic, .tpm2bCreationData, .tpm2bDigest, .tpmtTkCreation], 4384⟩,  -- Create
   ⟨0x154, [.encrypt2, .decrypt2, .handle1User], [.tpmiDhObject], [.tpm2bEccPoint], [.tpm2bEccPoint], 166⟩,  -- ECDH_ZGen
   ⟨0x155, [.encrypt2, .decrypt2, .handle1User], [.tpmiDhObject],
    [.tpm2bMaxBuffer, .orNull .tpmiAlgMacScheme], [.tpm2bDigest], 1026⟩,  -- MAC
   ⟨0x156, [.encrypt2, .decrypt2, .handle1User], [.tpmiDhObject],
    [.tpm2bData, .tpm2bPublic, .tpm2bPrivate, .tpm2bEncryptedSecret, .orNull .tpmtSymDefObject],
    [.tpm2bPrivate], 1232⟩,  -- Import
   ⟨0x157, [.encrypt2, .decrypt2, .handle1User, .rHandle], [.tpmiDhObject], [.tpm2bPrivate, .tpm2bPublic],
    [.handle, .tpm2bName], 76⟩,  -- Load
   ⟨0x158, [.encrypt2, .decrypt2, .handle1User], [.orNull .tpmiDhObject],
    [.tpm2bData, .orNull .tpmtSigScheme, .tpmlPcrSelection], [.tpm2bAttest, .tpmtSignature], 5916⟩,  -- Quote
   ⟨0x159, [.encrypt2, .decrypt2, .handle1User], [.tpmiDhObject],
    [.tpm2bPublicKeyRsa, .orNull .tpmtRsaDecrypt, .tpm2bData], [.tpm2bPublicKeyRsa], 386⟩,  -- RSA_Decrypt
   ⟨0x15b, [.decrypt2, .handle1User, .rHandle], [.tpmiDhObject], [.tpm2bDigest, .orNull .tpmiAlgMacScheme],
    [.handle], 4⟩,  -- MAC_Start
   ⟨0x15c, [.decrypt2, .handle1User], [.tpmiDhObject], [.tpm2bMaxBuffer], [], 0⟩,  -- SequenceUpdate
   ⟨0x15d, [.decrypt2, .handle1User], [.tpmiDhObject],
    [.tpm2bDigest, .orNull .tpmtSigScheme, .tpmtTkHashcheck], [.tpmtSignature], 4634⟩,  -- Sign
   ⟨0x15e, [.encrypt2, .handle1User], [.tpmiDhObject], [], [.tpm2bSensitiveData], 130⟩,  -- Unseal
   ⟨0x160, [.encrypt2, .decrypt2, .allowTrial], [.tpmiDhObject, .tpmiShPolicy],
    [.tpm2bDigest, .tpm2bDigest, .tpm2bDigest, .uint32, .tpmtSignature], [.tpm2bTimeout, .tpmtTkAuth], 88⟩,  -- PolicySigned
   ⟨0x161, [.noSessions, .rHandle], [], [.tpmsContext], [.handle], 4⟩,  -- ContextLoad
   ⟨0x162, [.noSessions], [.tpmiDhContext], [], [.tpmsContext], 6232⟩,  -- ContextSave
   ⟨0x163, [.encrypt2], [.tpmiDhObject], [], [.tpm2bEccPoint, .tpm2bEccPoint], 332⟩,  -- ECDH_KeyGen
   ⟨0x164, [.encrypt2, .handle1User], [.tpmiDhObject],
    [.tpmiYesNo, .orNull .tpmiAlgCipherMode, .tpm2bIv, .tpm2bMaxBuffer], [.tpm2bMaxBuffer, .tpm2bIv],
    1044⟩,  -- EncryptDecrypt
   ⟨0x165, [.noSessions], [], [.tpmiDhContext], [], 0⟩,  -- FlushContext
   ⟨0x167, [.encrypt2, .decrypt2, .rHandle], [],
    [.tpm2bSensitive, .orNull .tpm2bPublic, .orNull .tpmiRhHierarchy], [.handle, .tpm2bName], 76⟩,  -- LoadExternal
   ⟨0x168, [.encrypt2, .decrypt2], [.tpmiDhObject], [.tpm2bDigest, .tpm2bName],
    [.tpm2bIdObject, .tpm2bEncryptedSecret], 1704⟩,  -- MakeCredential
   ⟨0x169, [.encrypt2], [.tpmiRhNvIndex], [], [.tpm2bNvPublic, .tpm2bName], 156⟩,  -- NV_ReadPublic
   ⟨0x16a, [.decrypt2, .allowTrial], [.tpmiShPolicy],
    [.tpm2bDigest, .tpm2bDigest, .tpm2bName, .tpmtTkVerified], [], 0⟩,  -- PolicyAuthorize
   ⟨0x16b, [.allowTrial], [.tpmiShPolicy], [], [], 0⟩,  -- PolicyAuthValue
   ⟨0x16c, [.allowTrial], [.tpmiShPolicy], [.uint32], [], 0⟩,  -- PolicyCommandCode
   ⟨0x16d, [.decrypt2, .allowTrial], [.tpmiShPolicy], [.tpm2bDigest, .uint16, .tpmEo], [], 0⟩,  -- PolicyCounterTimer
   ⟨0x16e, [.decrypt2, .allowTrial], [.tpmiShPolicy], [.tpm2bDigest], [], 0⟩,  -- PolicyCpHash
   ⟨0x16f, [.allowTrial], [.tpmiShPolicy], [.uint8], [], 0⟩,  -- PolicyLocality
   ⟨0x170, [.decrypt2, .allowTrial], [.tpmiShPolicy], [.tpm2bDigest], [], 0⟩,  -- PolicyNameHash
   ⟨0x171, [.allowTrial], [.tpmiShPolicy], [.tpmlDigest], [], 0⟩,  -- PolicyOR
   ⟨0x172, [.decrypt2, .allowTrial], [.tpmiShPolicy],
    [.tpm2bTimeout, .tpm2bDigest, .tpm2bDigest, .tpm2bName, .tpmtTkAuth], [], 0⟩,  -- PolicyTicket
   ⟨0x173, [.encrypt2], [.tpmiDhObject], [], [.tpm2bPublic, .tpm2bName, .tpm2bName], 2836⟩,  -- ReadPublic
   ⟨0x174, [.encrypt2, .decrypt2], [.tpmiDhObject],
    [.tpm2bPublicKeyRsa, .orNull .tpmtRsaDecrypt, .tpm2bData], [.tpm2bPublicKeyRsa], 386⟩,  -- RSA_Encrypt
   ⟨0x176, [.encrypt2, .decrypt2, .rHandle], [.orNull .tpmiDhObject, .orNull .tpmiDhEntity],
    [.tpm2bDigest, .tpm2bEncryptedSecret, .tpmSe, .orNull .tpmtSymDef, .tpmiAlgHash],
    [.handle, .tpm2bDigest], 72⟩,  -- StartAuthSession
   ⟨0x177, [.decrypt2], [.tpmiDhObject], [.tpm2bDigest, .tpmtSignature], [.tpmtTkVerified], 76⟩,  -- VerifySignature
   ⟨0x178, [], [], [.tpmiEccCurve], [.tpmsAlgorithmDetailEcc], 588⟩,  -- ECC_Parameters
   ⟨0x17a, [], [], [.tpmCap, .uint32, .uint32], [.uint8, .tpmsCapabilityData], 1028⟩,  -- GetCapability
   ⟨0x17b, [.encrypt2], [], [.uint16], [.tpm2bDigest], 66⟩,  -- GetRandom
   ⟨0x17c, [.encrypt2], [], [], [.tpm2bMaxBuffer, .uint32], 1032⟩,  -- GetTestResult
   ⟨0x17d, [.encrypt2, .decrypt2], [], [.tpm2bMaxBuffer, .tpmiAlgHash, .orNull .tpmiRhHierarchy],
    [.tpm2bDigest, .tpmtTkHashcheck], 144⟩,  -- Hash
   ⟨0x17e, [], [], [.tpmlPcrSelection], [.uint32, .tpmlPcrSelection, .tpmlDigest], 564⟩,  -- PCR_Read
   ⟨0x17f, [.decrypt2, .allowTrial], [.tpmiShPolicy], [.tpm2bDigest, .tpmlPcrSelection], [], 0⟩,  -- PolicyPCR
   ⟨0x180, [.allowTrial], [.tpmiShPolicy], [], [], 0⟩,  -- PolicyRestart
   ⟨0x181, [], [], [], [.tpmsTimeInfo], 32⟩,  -- ReadClock
   ⟨0x182, [.handle1User], [.orNull .tpmiDhPcr], [.tpmlDigestValues], [], 0⟩,  -- PCR_Extend
   ⟨0x183, [.decrypt2, .handle1User], [.tpmiDhPcr], [.tpm2bDigest], [], 0⟩,  -- PCR_SetAuthValue
   ⟨0x184, [.encrypt2, .decrypt2, .handle1User, .handle2User],
    [.orNull .tpmiDhObject, .tpmiRhNvAuth, .tpmiRhNvIndex],
    [.tpm2bData, .orNull .tpmtSigScheme, .uint16, .uint16], [.tpm2bAttest, .tpmtSignature], 5916⟩,  -- NV_Certify
   ⟨0x185, [.decrypt2, .handle1User, .handle2User], [.orNull .tpmiDhPcr, .tpmiDhObject], [.tpm2bMaxBuffer],
    [.tpmlDigestValues], 268⟩,  -- EventSequenceComplete
   ⟨0x186, [.decrypt2, .rHandle], [], [.tpm2bDigest, .orNull .tpmiAlgHash], [.handle], 4⟩,  -- HashSequenceStart
   ⟨0x187, [.allowTrial], [.tpmiShPolicy], [], [], 0⟩,  -- PolicyPhysicalPresence
   ⟨0x188, [.decrypt2, .allowTrial], [.tpmiShPolicy], [.tpm2bName, .tpm2bName, .tpmiYesNo], [], 0⟩,  -- PolicyDuplicationSelect
   ⟨0x189, [.encrypt2, .allowTrial], [.tpmiShPolicy], [], [.tpm2bDigest], 66⟩,  -- PolicyGetDigest
   ⟨0x18a, [], [], [.tpmtPublicParms], [], 0⟩,  -- TestParms
   ⟨0x18b, [.encrypt2, .decrypt2, .handle1User], [.tpmiDhObject],
    [.tpm2bEccPoint, .tpm2bSensitiveData, .tpm2bEccParameter],
    [.tpm2bEccPoint, .tpm2bEccPoint, .tpm2bEccPoint, .uint16], 500⟩,  -- Commit
   ⟨0x18c, [.allowTrial], [.tpmiShPolicy], [], [], 0⟩,  -- PolicyPassword
   ⟨0x18d, [.encrypt2, .decrypt2, .handle1User], [.tpmiDhObject],
    [.tpm2bEccPoint, .tpm2bEccPoint, .tpmiEccKeyExchange, .uint16], [.tpm2bEccPoint, .tpm2bEccPoint], 332⟩,  -- ZGen_2Phase
   ⟨0x18e, [.encrypt2], [], [.tpmiEccCurve], [.tpm2bEccPoint, .uint16], 168⟩,  -- EC_Ephemeral
   ⟨0x18f, [.allowTrial], [.tpmiShPolicy], [.tpmiYesNo], [], 0⟩,  -- PolicyNvWritten
   ⟨0x190, [.decrypt2, .allowTrial], [.tpmiShPolicy], [.tpm2bDigest], [], 0⟩,  -- PolicyTemplate
   ⟨0x191, [.encrypt2, .decrypt2, .handle1User, .ppCommand, .rHandle], [.orNull .tpmiDhParent],
    [.tpm2bSensitiveCreate, .tpm2bTemplate], [.handle, .tpm2bPrivate, .tpm2bPublic, .tpm2bName], 4004⟩,  -- CreateLoaded
   ⟨0x192, [.handle1User, .allowTrial], [.tpmiRhNvAuth, .tpmiRhNvIndex, .tpmiShPolicy], [], [], 0⟩,  -- PolicyAuthorizeNV
   ⟨0x193, [.encrypt2, .decrypt2, .handle1User], [.tpmiDhObject],
    [.tpm2bMaxBuffer, .tpmiYesNo, .orNull .tpmiAlgCipherMode, .tpm2bIv], [.tpm2bMaxBuffer, .tpm2bIv],
    1044⟩,  -- EncryptDecrypt2
   ⟨0x197, [.encrypt2, .decrypt2, .handle1Admin, .handle2User], [.tpmiDhObject, .tpmiDhObject],
    [.tpm2bData, .orNull .tpmtSigScheme, .tpm2bMaxBuffer], [.tpm2bMaxBuffer, .tpm2bDigest, .tpmtSignature],
    5726⟩,  -- CertifyX509
   ⟨0x199, [.encrypt2, .decrypt2], [.tpmiDhObject], [.tpm2bMaxBuffer, .orNull .tpmtKdfScheme],
    [.tpm2bEccPoint, .tpm2bMaxBuffer, .tpm2bDigest], 1258⟩,  -- ECC_Encrypt
   ⟨0x19a, [.encrypt2, .decrypt2, .handle1User], [.tpmiDhObject],
    [.tpm2bEccPoint, .tpm2bMaxBuffer, .tpm2bDigest, .orNull .tpmtKdfScheme], [.tpm2bMaxBuffer], 1026⟩,  -- ECC_Decrypt
   ⟨0x19b, [.decrypt2, .allowTrial], [.tpmiShPolicy], [.tpm2bDigest, .uint16, .tpmEo, .tpmCap, .uint32],
    [], 0⟩,  -- PolicyCapability
   ⟨0x19c, [.decrypt2, .allowTrial], [.tpmiShPolicy], [.tpm2bDigest], [], 0⟩,  -- PolicyParameters
   ⟨0x1a3, [.decrypt2, .handle1User], [.tpmiDhObject, .tpmiDhObject], [.tpmtSignature], [.tpmtTkVerified],
    76⟩,  -- VerifySequenceComplete
   ⟨0x1a4, [.decrypt2, .handle1User, .handle2User], [.tpmiDhObject, .tpmiDhObject], [.tpm2bMaxBuffer],
    [.tpmtSignature], 4634⟩,  -- SignSequenceComplete
   ⟨0x1a5, [.decrypt2], [.tpmiDhObject], [.tpm2bSignatureCtx, .tpm2bDigest, .tpmtSignature],
    [.tpmtTkVerified], 76⟩,  -- VerifyDigestSignature
   ⟨0x1a6, [.decrypt2, .handle1User], [.tpmiDhObject],
    [.tpm2bSignatureCtx, .tpm2bDigest, .tpmtTkHashcheck], [.tpmtSignature], 4634⟩,  -- SignDigest
   ⟨0x1a7, [.encrypt2], [.tpmiDhObject], [], [.tpm2bSharedSecret, .tpm2bKemCiphertext], 1604⟩,  -- Encapsulate
   ⟨0x1a8, [.encrypt2, .decrypt2, .handle1User], [.tpmiDhObject], [.tpm2bKemCiphertext],
    [.tpm2bSharedSecret], 34⟩,  -- Decapsulate
   ⟨0x1a9, [], [.tpmiDhObject], [.tpm2bDigest, .tpm2bSignatureHint, .tpm2bSignatureCtx], [.handle], 4⟩,  -- VerifySequenceStart
   ⟨0x1aa, [], [.tpmiDhObject], [.tpm2bDigest, .tpm2bSignatureCtx], [.handle], 4⟩]  -- SignSequenceStart

namespace CommandRow

/-- `IsHandleInResponse`. -/
def isHandleInResponse (c : CommandRow) : Bool := c.attributes.contains .rHandle

/-- The dispatcher has a handle to put into the response. -/
def marshalsHandle (c : CommandRow) : Bool := c.response.head? == some .handle

/-- What the dispatcher marshals behind the handle. -/
def responseParameters (c : CommandRow) : List ResponseType :=
  if c.marshalsHandle then c.response.tail else c.response

end CommandRow

/-- `RuntimeCommandsCheckEnabled`. -/
def runtimeCommandsCheckEnabled (enabledCommands : Nat → Bool) (commandCode : Nat) : Bool :=
  decide (0x11f ≤ commandCode) && decide (commandCode - 0x11f < 140) && enabledCommands commandCode

/-- `CommandCodeToCommandIndex`; `none` is `UNIMPLEMENTED_COMMAND_INDEX`. There are no vendor commands. -/
def commandCodeToCommandIndex (enabledCommands : Nat → Bool) (commandCode : Nat) : Option CommandRow :=
  if commandCode.testBit 29 then none
  else
    match commandTable.find? fun c => c.code == commandCode % 2 ^ 16 with
    | none => none
    | some c => if runtimeCommandsCheckEnabled enabledCommands commandCode then some c else none

theorem commandCodeToCommandIndex_eq_some {enabledCommands : Nat → Bool} {commandCode : Nat} {c : CommandRow}
    (h : commandCodeToCommandIndex enabledCommands commandCode = some c) :
    c ∈ commandTable ∧ c.code = commandCode := by
  unfold commandCodeToCommandIndex at h
  split at h
  · cases h
  · split at h
    · cases h
    · rename_i c' hfind
      split at h
      · rename_i henabled
        cases h
        refine ⟨List.mem_of_find?_eq_some hfind, ?_⟩
        have hcode := List.find?_some hfind
        simp only [runtimeCommandsCheckEnabled, Bool.and_eq_true, decide_eq_true_eq] at henabled
        rw [beq_iff_eq, Nat.mod_eq_of_lt (by omega)] at hcode
        exact hcode
      · cases h

/-- The two tables disagree on the two sequence starts of ML-DSA, and on nothing else. -/
theorem isHandleInResponse_iff {c : CommandRow} (hc : c ∈ commandTable) :
    c.isHandleInResponse = c.marshalsHandle ↔ c.code ≠ 0x1a9 ∧ c.code ≠ 0x1aa := by
  revert c
  decide

theorem marshalsHandle_of_isHandleInResponse {c : CommandRow} (hc : c ∈ commandTable)
    (h : c.isHandleInResponse = true) : c.marshalsHandle = true := by
  revert c
  decide +kernel

theorem handle_fits {c : CommandRow} (hc : c ∈ commandTable) (h : c.marshalsHandle = true) : 4 ≤ c.outSize := by
  revert c
  decide +kernel

theorem responseParameters_of_sequenceStart {c : CommandRow} (hc : c ∈ commandTable)
    (h : ¬ (c.code ≠ 0x1a9 ∧ c.code ≠ 0x1aa)) : c.responseParameters = [] := by
  revert c
  decide +kernel

theorem outSize_lt {c : CommandRow} (hc : c ∈ commandTable) : c.outSize < 65536 := by
  have hall : commandTable.all (fun c => Nat.blt c.outSize 65536) = true := by
    decide +kernel
  exact Nat.le_of_ble_eq_true (List.all_eq_true.1 hall c hc)

end PqcTpm
