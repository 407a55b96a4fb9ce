import PqcTpm.Protection
import PqcTpm.Signing
import PqcTpm.ResponseFraming
import PqcTpm.PolicyRestrictions
import PqcTpm.DictionaryAttack
import PqcTpm.NvCounters
import PqcTpm.PinIndex
import PqcTpm.SessionContexts
import PqcTpm.Attestation
import PqcTpm.OrderlyRam
import PqcTpm.AuthTickets
import PqcTpm.ProfileTest
import PqcTpm.ProfileSaving
import PqcTpm.SignatureCodec
import PqcTpm.NullSigner
import PqcTpm.NvLocks
import PqcTpm.PcrPolicy
import PqcTpm.ResumeState
import PqcTpm.SessionStore
import PqcTpm.AuditRuns
import PqcTpm.Decapsulation
import PqcTpm.X509Keys
import PqcTpm.TemplateHash
import PqcTpm.DerCodec
import PqcTpm.CertificateScan
import PqcTpm.PcrRead
import PqcTpm.HashTickets
import PqcTpm.KeyValidation
import PqcTpm.FailedTries
import PqcTpm.SelfHeal
import PqcTpm.PowerCuts
import PqcTpm.PolicyComparison
import PqcTpm.CompressedCodec
import PqcTpm.NvCapabilities
import PqcTpm.CommandCodes
import PqcTpm.CommandPrint
import PqcTpm.ProfileDedup
import PqcTpm.StoredObjects
import PqcTpm.SignAgreement
import PqcTpm.UserNvram
import PqcTpm.PlatformTimer
import PqcTpm.TpmClock
import PqcTpm.NvMemory
import PqcTpm.SymmetricModes
import PqcTpm.BlobProtection
import PqcTpm.BlobCommands
import PqcTpm.LinearStore
import PqcTpm.LinearRuns
import PqcTpm.StateBlob
import PqcTpm.StateRuns
import PqcTpm.ParameterEncryption
