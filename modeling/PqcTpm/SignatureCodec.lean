import PqcTpm.Attestation
import PqcTpm.VerifiedTickets
import PqcTpm.WireCodec

/-!
# Signatures on the wire

`TPMT_SIGNATURE` with the hash that most members of its union start with, and the functions
that fill it in: `CryptSign`, which sets the hash to the one of the scheme before it signs, and
the functions of `CryptMlDsa.c`, which set the selector and the signature.
-/
namespace PqcTpm
open ByteCodec Reader Transition

/-- `TPMI_ALG_SIG_SCHEME`. -/
inductive SigAlg
  | hmac | rsassa | rsapss | ecdsa | ecdaa | sm2 | ecschnorr | mldsa | hashMldsa
  deriving DecidableEq, Repr

def sigSelector : Selector SigAlg where
  algId
    | .hmac => TpmAlg.hmac
    | .rsassa => TpmAlg.rsassa
    | .rsapss => TpmAlg.rsapss
    | .ecdsa => TpmAlg.ecdsa
    | .ecdaa => TpmAlg.ecdaa
    | .sm2 => TpmAlg.sm2
    | .ecschnorr => TpmAlg.ecschnorr
    | .mldsa => TpmAlg.mldsa
    | .hashMldsa => TpmAlg.hashMldsa
  all := [.hmac, .rsassa, .rsapss, .ecdsa, .ecdaa, .sm2, .ecschnorr, .mldsa, .hashMldsa]
  mem_all a := by cases a <;> decide
  lt a := by cases a <;> decide
  inj a b := by cases a <;> cases b <;> decide
  ne_null a := by cases a <;> decide

/-- `TPMT_HA`. -/
structure TpmtHa where
  hashAlg : HashAlg
  digest : Bytes
  length_eq : digest.length = hashAlg.digestSize
  deriving DecidableEq

/-- `TPMS_SIGNATURE_RSA`; the writers take any number for the hash. -/
structure SignatureRsa where
  hash : UInt16
  sig : Tpm2b 384
  deriving DecidableEq

/-- `TPMS_SIGNATURE_ECC`. -/
structure SignatureEcc where
  hash : UInt16
  signatureR : Tpm2bEccParameter
  signatureS : Tpm2bEccParameter
  deriving DecidableEq

/-- `TPMS_SIGNATURE_HASH_MLDSA`. -/
structure SignatureHashMldsa where
  hash : UInt16
  signature : Tpm2b 4627
  deriving DecidableEq

/-- `TPMU_SIGNATURE`. -/
def SignatureDetails : SigAlg → Type
  | .hmac => TpmtHa
  | .rsassa | .rsapss => SignatureRsa
  | .ecdsa | .ecdaa | .sm2 | .ecschnorr => SignatureEcc
  | .mldsa => Tpm2b 4627
  | .hashMldsa => SignatureHashMldsa

/-- `TPMT_SIGNATURE`; `none` is `TPM_ALG_NULL`. -/
abbrev WireSignature := Option ((a : SigAlg) × SignatureDetails a)

/-! ## The codec -/

/-- `TPMI_ALG_HASH_Unmarshal` into the field of a signature. -/
def unmarshalHash (p : RuntimeProfile) : Unmarshal UInt16 :=
  (fun h => UInt16.ofNat (hashSelector.algId h)) <$> HashAlg.unmarshal p

/-- The number is one of a hash algorithm, which the profile enables. -/
def HashEnabled (p : RuntimeProfile) (hash : UInt16) : Prop :=
  ∃ h : HashAlg, hash.toNat = hashSelector.algId h ∧ h.enabled p = true

namespace TpmtHa

def marshal (x : TpmtHa) : Bytes := x.hashAlg.marshal ++ x.digest

/-- `TPMT_HA_Unmarshal` without `allowNull`; `TPMU_HA_Unmarshal` asks the profile again. -/
def unmarshal (p : RuntimeProfile) : Unmarshal TpmtHa := do
  let hashAlg ← HashAlg.unmarshal p
  check (hashAlg.enabled p) (.of .selector)
  let digest ← take hashAlg.digestSize (.of .insufficient)
  if h : digest.length = hashAlg.digestSize then pure ⟨hashAlg, digest, h⟩ else fail (.of .insufficient)

end TpmtHa

namespace SignatureDetails

def marshal : (a : SigAlg) → SignatureDetails a → Bytes
  | .hmac, x => TpmtHa.marshal x
  | .rsassa, x | .rsapss, x => be 2 (SignatureRsa.hash x).toNat ++ (SignatureRsa.sig x).marshal
  | .ecdsa, x | .ecdaa, x | .sm2, x | .ecschnorr, x =>
      be 2 (SignatureEcc.hash x).toNat ++
        ((SignatureEcc.signatureR x).marshal ++ (SignatureEcc.signatureS x).marshal)
  | .mldsa, x => Tpm2b.marshal x
  | .hashMldsa, x => be 2 (SignatureHashMldsa.hash x).toNat ++ (SignatureHashMldsa.signature x).marshal

def unmarshalRsa (p : RuntimeProfile) : Unmarshal SignatureRsa := do
  let hash ← unmarshalHash p
  let sig ← Tpm2b.unmarshal 384
  pure ⟨hash, sig⟩

def unmarshalEcc (p : RuntimeProfile) : Unmarshal SignatureEcc := do
  let hash ← unmarshalHash p
  let signatureR ← Tpm2b.unmarshal 80
  let signatureS ← Tpm2b.unmarshal 80
  pure ⟨hash, signatureR, signatureS⟩

def unmarshalHashMldsa (p : RuntimeProfile) : Unmarshal SignatureHashMldsa := do
  let hash ← unmarshalHash p
  let signature ← Tpm2b.unmarshal 4627
  pure ⟨hash, signature⟩

def unmarshal (p : RuntimeProfile) : (a : SigAlg) → Unmarshal (SignatureDetails a)
  | .hmac => TpmtHa.unmarshal p
  | .rsassa | .rsapss => unmarshalRsa p
  | .ecdsa | .ecdaa | .sm2 | .ecschnorr => unmarshalEcc p
  | .mldsa => Tpm2b.unmarshal 4627
  | .hashMldsa => unmarshalHashMldsa p

/-- The hash that is read from the wire. -/
def hash? : (a : SigAlg) → SignatureDetails a → Option UInt16
  | .hmac, x => some (UInt16.ofNat (hashSelector.algId (TpmtHa.hashAlg x)))
  | .rsassa, x | .rsapss, x => some (SignatureRsa.hash x)
  | .ecdsa, x | .ecdaa, x | .sm2, x | .ecschnorr, x => some (SignatureEcc.hash x)
  | .mldsa, _ => none
  | .hashMldsa, x => some (SignatureHashMldsa.hash x)

end SignatureDetails

namespace WireSignature

/-- `TPMT_SIGNATURE_Marshal`. -/
def marshal : WireSignature → Bytes
  | none => be 2 TpmAlg.null
  | some s => be 2 (sigSelector.algId s.1) ++ SignatureDetails.marshal s.1 s.2

/-- `TPMT_SIGNATURE_Unmarshal`. -/
def unmarshal (p : RuntimeProfile) (allowNull : Bool) : Unmarshal WireSignature := do
  let sigAlg ← sigSelector.unmarshalNull (fun a => p.checkEnabled (sigSelector.algId a)) .scheme
  check (allowNull || sigAlg.isSome) (.of .scheme)
  -- `TPMU_SIGNATURE_Unmarshal` asks the profile again
  check (p.checkEnabled (sigSelector.algIdOrNull sigAlg)) (.of .selector)
  match sigAlg with
  | none => pure none
  | some a => (fun x => some ⟨a, x⟩) <$> SignatureDetails.unmarshal p a

end WireSignature

section
variable {p : RuntimeProfile}

theorem reads_hash {hash : UInt16} (h : HashEnabled p hash) : Reads (unmarshalHash p) (be 2 hash.toNat) hash := by
  obtain ⟨alg, hid, he⟩ := h
  have hhash : hash = UInt16.ofNat (hashSelector.algId alg) := by
    rw [← hid, UInt16.ofNat_toNat]
  have hreads := (HashAlg.reads he).map fun h => UInt16.ofNat (hashSelector.algId h)
  rw [← hhash] at hreads
  rw [hid]
  exact hreads

theorem toNat_hashId (h : HashAlg) : (UInt16.ofNat (hashSelector.algId h)).toNat = hashSelector.algId h := by
  cases h <;> rfl

theorem hashEnabled_of_ok {hash : UInt16} {bs rest : Bytes} (h : unmarshalHash p bs = .ok (hash, rest)) :
    HashEnabled p hash := by
  obtain ⟨alg, halg, rfl⟩ := map_eq_ok h
  obtain ⟨_, _, _, h⟩ := bind_eq_ok halg
  obtain ⟨he, h⟩ := check_bind_eq_ok h
  obtain ⟨rfl, rfl⟩ := Prod.mk.inj (Except.ok.inj h)
  exact ⟨_, toNat_hashId _, he⟩

theorem unmarshalHash_rewrites : Rewrites (unmarshalHash p) fun hash => be 2 hash.toNat := by
  intro bs hash rest h
  obtain ⟨alg, halg, rfl⟩ := map_eq_ok h
  simp only [toNat_hashId]
  exact HashAlg.rewrites p halg

namespace TpmtHa

theorem reads {x : TpmtHa} (h : x.hashAlg.enabled p = true) : Reads (unmarshal p) x.marshal x := by
  refine (HashAlg.reads h).bind ?_
  refine (Reads.check h).bind_nil ?_
  have htake : Reads (Reader.take x.hashAlg.digestSize (Fault.of .insufficient)) x.digest x.digest := by
    rw [← x.length_eq]
    exact Reads.take x.digest _
  refine htake.bind_last ?_
  rw [dif_pos x.length_eq]
  exact Reads.pure x

theorem enabled_of_ok {x : TpmtHa} {bs rest : Bytes} (h : unmarshal p bs = .ok (x, rest)) :
    x.hashAlg.enabled p = true := by
  obtain ⟨alg, _, _, h⟩ := bind_eq_ok h
  obtain ⟨he, h⟩ := check_bind_eq_ok h
  obtain ⟨digest, _, _, h⟩ := bind_eq_ok h
  split at h
  · obtain ⟨rfl, rfl⟩ := Prod.mk.inj (Except.ok.inj h)
    exact he
  · cases h

theorem rewrites : Rewrites (unmarshal p) marshal := by
  intro bs x rest h
  obtain ⟨alg, r₁, halg, h⟩ := bind_eq_ok h
  obtain ⟨-, h⟩ := check_bind_eq_ok h
  obtain ⟨digest, r₂, htake, h⟩ := bind_eq_ok h
  rw [HashAlg.rewrites p halg, (take_eq_ok htake).2]
  split at h
  · obtain ⟨rfl, rfl⟩ := Prod.mk.inj (Except.ok.inj h)
    simp only [marshal, List.append_assoc]
  · cases h

end TpmtHa

namespace SignatureDetails

/-- The hash of the signature is one that the reader admits. -/
def HashAdmitted (p : RuntimeProfile) (a : SigAlg) (x : SignatureDetails a) : Prop :=
  ∀ hash, hash? a x = some hash → HashEnabled p hash

theorem reads_rsa {x : SignatureRsa} (h : HashEnabled p x.hash) :
    Reads (unmarshalRsa p) (be 2 x.hash.toNat ++ x.sig.marshal) x := by
  refine (reads_hash h).bind ?_
  exact (Tpm2b.reads (by decide) x.sig).bind_last (Reads.pure x)

theorem reads_ecc {x : SignatureEcc} (h : HashEnabled p x.hash) :
    Reads (unmarshalEcc p) (be 2 x.hash.toNat ++ (x.signatureR.marshal ++ x.signatureS.marshal)) x := by
  refine (reads_hash h).bind ?_
  refine (Tpm2b.reads (by decide) x.signatureR).bind ?_
  exact (Tpm2b.reads (by decide) x.signatureS).bind_last (Reads.pure x)

theorem reads {a : SigAlg} {x : SignatureDetails a} (h : HashAdmitted p a x) :
    Reads (unmarshal p a) (marshal a x) x := by
  cases a with
  | hmac =>
      obtain ⟨alg, hid, he⟩ := h _ rfl
      rw [toNat_hashId] at hid
      exact TpmtHa.reads (hashSelector.inj _ _ hid ▸ he)
  | rsassa => exact reads_rsa (h _ rfl)
  | rsapss => exact reads_rsa (h _ rfl)
  | ecdsa => exact reads_ecc (h _ rfl)
  | ecdaa => exact reads_ecc (h _ rfl)
  | sm2 => exact reads_ecc (h _ rfl)
  | ecschnorr => exact reads_ecc (h _ rfl)
  | mldsa => exact Tpm2b.reads (by decide) x
  | hashMldsa =>
      refine (reads_hash (h _ rfl)).bind ?_
      exact (Tpm2b.reads (by decide) (SignatureHashMldsa.signature x)).bind_last (Reads.pure x)

theorem hash_of_rsa {x : SignatureRsa} {bs rest : Bytes} (h : unmarshalRsa p bs = .ok (x, rest)) :
    HashEnabled p x.hash := by
  obtain ⟨hash, _, hhash, h⟩ := bind_eq_ok h
  obtain ⟨sig, _, _, h⟩ := bind_eq_ok h
  obtain ⟨rfl, rfl⟩ := Prod.mk.inj (Except.ok.inj h)
  exact hashEnabled_of_ok hhash

theorem hash_of_ecc {x : SignatureEcc} {bs rest : Bytes} (h : unmarshalEcc p bs = .ok (x, rest)) :
    HashEnabled p x.hash := by
  obtain ⟨hash, _, hhash, h⟩ := bind_eq_ok h
  obtain ⟨signatureR, _, _, h⟩ := bind_eq_ok h
  obtain ⟨signatureS, _, _, h⟩ := bind_eq_ok h
  obtain ⟨rfl, rfl⟩ := Prod.mk.inj (Except.ok.inj h)
  exact hashEnabled_of_ok hhash

theorem hashAdmitted_of_ok {a : SigAlg} {x : SignatureDetails a} {bs rest : Bytes}
    (h : unmarshal p a bs = .ok (x, rest)) : HashAdmitted p a x := by
  intro hash hhash
  cases a with
  | hmac =>
      obtain rfl := Option.some.inj hhash
      exact ⟨_, toNat_hashId _, TpmtHa.enabled_of_ok h⟩
  | rsassa => exact Option.some.inj hhash ▸ hash_of_rsa h
  | rsapss => exact Option.some.inj hhash ▸ hash_of_rsa h
  | ecdsa => exact Option.some.inj hhash ▸ hash_of_ecc h
  | ecdaa => exact Option.some.inj hhash ▸ hash_of_ecc h
  | sm2 => exact Option.some.inj hhash ▸ hash_of_ecc h
  | ecschnorr => exact Option.some.inj hhash ▸ hash_of_ecc h
  | mldsa => cases hhash
  | hashMldsa =>
      obtain ⟨hash', _, hread, h⟩ := bind_eq_ok h
      obtain ⟨signature, _, _, h⟩ := bind_eq_ok h
      obtain ⟨rfl, rfl⟩ := Prod.mk.inj (Except.ok.inj h)
      exact Option.some.inj hhash ▸ hashEnabled_of_ok hread

theorem rewrites_rsa : Rewrites (unmarshalRsa p) fun x => be 2 x.hash.toNat ++ x.sig.marshal := by
  intro bs x rest h
  obtain ⟨hash, r₁, hhash, h⟩ := bind_eq_ok h
  obtain ⟨sig, r₂, hsig, h⟩ := bind_eq_ok h
  obtain ⟨rfl, rfl⟩ := Prod.mk.inj (Except.ok.inj h)
  rw [unmarshalHash_rewrites hhash, Tpm2b.rewrites 384 hsig, List.append_assoc]

theorem rewrites_ecc : Rewrites (unmarshalEcc p) fun x =>
    be 2 x.hash.toNat ++ (x.signatureR.marshal ++ x.signatureS.marshal) := by
  intro bs x rest h
  obtain ⟨hash, r₁, hhash, h⟩ := bind_eq_ok h
  obtain ⟨signatureR, r₂, hr, h⟩ := bind_eq_ok h
  obtain ⟨signatureS, r₃, hs, h⟩ := bind_eq_ok h
  obtain ⟨rfl, rfl⟩ := Prod.mk.inj (Except.ok.inj h)
  rw [unmarshalHash_rewrites hhash, Tpm2b.rewrites 80 hr, Tpm2b.rewrites 80 hs, List.append_assoc, List.append_assoc]

theorem rewrites (a : SigAlg) : Rewrites (unmarshal p a) (marshal a) := by
  cases a with
  | hmac => exact TpmtHa.rewrites
  | rsassa => exact rewrites_rsa
  | rsapss => exact rewrites_rsa
  | ecdsa => exact rewrites_ecc
  | ecdaa => exact rewrites_ecc
  | sm2 => exact rewrites_ecc
  | ecschnorr => exact rewrites_ecc
  | mldsa => exact Tpm2b.rewrites 4627
  | hashMldsa =>
      intro bs x rest h
      obtain ⟨hash, r₁, hhash, h⟩ := bind_eq_ok h
      obtain ⟨signature, r₂, hsig, h⟩ := bind_eq_ok h
      obtain ⟨rfl, rfl⟩ := Prod.mk.inj (Except.ok.inj h)
      rw [unmarshalHash_rewrites hhash, Tpm2b.rewrites 4627 hsig]
      simp only [marshal, List.append_assoc]

end SignatureDetails

namespace WireSignature
variable {allowNull : Bool} {sig : WireSignature}

/-- The profile enables the algorithm of the signature. -/
def AlgEnabled (p : RuntimeProfile) (sig : WireSignature) : Prop :=
  ∀ s, sig = some s → p.checkEnabled (sigSelector.algId s.1) = true

def HashAdmitted (p : RuntimeProfile) (sig : WireSignature) : Prop :=
  ∀ s, sig = some s → SignatureDetails.HashAdmitted p s.1 s.2

theorem reads (hn : (allowNull || sig.isSome) = true) (ha : sig.AlgEnabled p) (hh : sig.HashAdmitted p) :
    Reads (unmarshal p allowNull) sig.marshal sig := by
  cases sig with
  | none =>
      refine Reads.bind_last (sigSelector.readsNull (a := none) rfl) ?_
      refine (Reads.check hn).bind_nil ?_
      exact (Reads.check p.null_enabled).bind_nil (Reads.pure none)
  | some s =>
      refine Reads.bind (sigSelector.readsNull (a := some s.1) (ha s rfl)) ?_
      refine (Reads.check (Bool.or_true allowNull)).bind_nil ?_
      refine (Reads.check (ha s rfl)).bind_nil ?_
      exact (SignatureDetails.reads (hh s rfl)).map _

theorem hashAdmitted_of_ok {bs rest : Bytes} (h : unmarshal p allowNull bs = .ok (sig, rest)) :
    sig.HashAdmitted p := by
  obtain ⟨sigAlg, r₁, _, h⟩ := bind_eq_ok h
  obtain ⟨-, h⟩ := check_bind_eq_ok h
  obtain ⟨-, h⟩ := check_bind_eq_ok h
  cases sigAlg with
  | none =>
      obtain ⟨rfl, rfl⟩ := Prod.mk.inj (Except.ok.inj h)
      exact fun s hs => nomatch hs
  | some a =>
      obtain ⟨x, hx, rfl⟩ := map_eq_ok h
      intro s hs
      obtain rfl := Option.some.inj hs
      exact SignatureDetails.hashAdmitted_of_ok hx

theorem reads_iff (hn : (allowNull || sig.isSome) = true) (ha : sig.AlgEnabled p) :
    Reads (unmarshal p allowNull) sig.marshal sig ↔ sig.HashAdmitted p :=
  ⟨fun h => hashAdmitted_of_ok (h []), reads hn ha⟩

theorem rewrites : Rewrites (unmarshal p allowNull) marshal := by
  intro bs sig rest h
  obtain ⟨sigAlg, r₁, halg, h⟩ := bind_eq_ok h
  obtain ⟨-, h⟩ := check_bind_eq_ok h
  obtain ⟨-, h⟩ := check_bind_eq_ok h
  rw [sigSelector.rewritesNull _ _ halg]
  cases sigAlg with
  | none =>
      obtain ⟨rfl, rfl⟩ := Prod.mk.inj (Except.ok.inj h)
      rfl
  | some a =>
      obtain ⟨x, hx, rfl⟩ := map_eq_ok h
      rw [SignatureDetails.rewrites a hx, ← List.append_assoc]
      rfl

end WireSignature

end

/-! ## The signers -/

/-- The primitives under `CryptRsaSign`, `CryptEccSign` and `CryptHmacSign`, with the checks of the
profile before them. -/
structure SignaturePrimitives where
  rsa : Object → TpmtSigScheme → Bytes → Except Fault (Tpm2b 384)
  ecc : Object → TpmtSigScheme → Bytes → Except Fault (Tpm2bEccParameter × Tpm2bEccParameter)
  hmac : Object → (h : HashAlg) → Bytes → Except Fault { digest : Bytes // digest.length = h.digestSize }

/-- What is signed with a key. -/
inductive SignerRequest
  /-- `TPM2_Sign` and `TPM2_CertifyX509`. -/
  | sign (inScheme : TpmtSigScheme) (digest : Bytes)
  /-- The commands that end in `SignAttestInfo`. -/
  | attest (inScheme : TpmtSigScheme) (attestation digest : Bytes)
  | signDigest (digest : Bytes) (context : Tpm2b 255)
  | signSequenceComplete (message : Bytes) (context : Tpm2b 255)

section
variable {σ : Type} (C : SeqCrypto σ) (S : SignaturePrimitives)

/-- `CryptMlDsaSignMessage` and `CryptMlDsaSign`; `hash` is what the hash of the signature was before. -/
def cryptMlDsaSignInto (hash : UInt16) (key : Object) (msg ctx : Bytes) : Except Fault WireSignature := do
  let sig ← cryptMlDsaSignMessage C key msg ctx
  -- the length is the one of the parameter set
  if h : sig.signature.length ≤ 4627 then
    match sig.sigAlg with
    | .mldsa => .ok (some ⟨.mldsa, (⟨sig.signature, h⟩ : Tpm2b 4627)⟩)
    | .hashMldsa => .ok (some ⟨.hashMldsa, (⟨hash, ⟨sig.signature, h⟩⟩ : SignatureHashMldsa)⟩)
    | _ => .error (.of .scheme)
  else .error (.of .failure)

def cryptRsaSign (key : Object) (scheme : TpmtSigScheme) (digest : Bytes) : Except Fault WireSignature := do
  let sig ← S.rsa key scheme digest
  let x : SignatureRsa := ⟨UInt16.ofNat scheme.hashAlg, sig⟩
  if scheme.scheme = TpmAlg.rsassa then .ok (some ⟨.rsassa, x⟩)
  else if scheme.scheme = TpmAlg.rsapss then .ok (some ⟨.rsapss, x⟩)
  else .error (.of .scheme)

def cryptEccSign (key : Object) (scheme : TpmtSigScheme) (digest : Bytes) : Except Fault WireSignature := do
  let (r, s) ← S.ecc key scheme digest
  let x : SignatureEcc := ⟨UInt16.ofNat scheme.hashAlg, r, s⟩
  if scheme.scheme = TpmAlg.ecdsa then .ok (some ⟨.ecdsa, x⟩)
  else if scheme.scheme = TpmAlg.ecdaa then .ok (some ⟨.ecdaa, x⟩)
  else if scheme.scheme = TpmAlg.ecschnorr then .ok (some ⟨.ecschnorr, x⟩)
  else if scheme.scheme = TpmAlg.sm2 then .ok (some ⟨.sm2, x⟩)
  else .error (.of .scheme)

def cryptHmacSign (key : Object) (scheme : TpmtSigScheme) (digest : Bytes) : Except Fault WireSignature :=
  match hashOfId scheme.hashAlg with
  | some h =>
      if scheme.scheme = TpmAlg.hmac then do
        let mac ← S.hmac key h digest
        pure (some ⟨.hmac, (⟨h, mac.1, mac.2⟩ : TpmtHa)⟩)
      else .error (.of .scheme)
  -- `CryptIsValidSignScheme` has refused the scheme
  | none => .error .failureMode

/-- `CryptSign`, which sets the hash of the signature to the one of the scheme. -/
def cryptSignInto (key : Object) (scheme : TpmtSigScheme) (digest : Bytes) : Except Fault WireSignature :=
  if scheme.scheme = TpmAlg.null then .ok none
  else match key.publicArea.type with
    | .rsa => cryptRsaSign S key scheme digest
    | .ecc => cryptEccSign S key scheme digest
    | .mldsa | .hashMldsa => cryptMlDsaSignInto C (UInt16.ofNat scheme.hashAlg) key digest []
    | .keyedhash => cryptHmacSign S key scheme digest
    | _ => .error .failureMode

/-- `CryptSelectSignScheme` as the commands use it. -/
def selectedScheme (key : Object) (inScheme : TpmtSigScheme) : Except Fault TpmtSigScheme :=
  match cryptSelectSignScheme (attestSchemes fun _ _ _ => .error .failureMode) key inScheme with
  | some scheme => .ok scheme
  | none => .error (.of .scheme)

/-- The signature in the response of a command, whose buffer holds zeros at first. -/
def SignerRequest.signature (key : Option Object) (r : SignerRequest) : Except Fault WireSignature :=
  match key, r with
  | some key, .sign inScheme digest => do
      let scheme ← selectedScheme key inScheme
      cryptSignInto C S key scheme digest
  | some key, .attest inScheme attestation digest => do
      let scheme ← selectedScheme key inScheme
      if key.publicArea.isMldsa then cryptMlDsaSignInto C 0 key attestation []
      else cryptSignInto C S key scheme digest
  | some key, .signDigest digest context => cryptMlDsaSignInto C 0 key digest context.buffer
  | some key, .signSequenceComplete message context => cryptMlDsaSignInto C 0 key message context.buffer
  -- only the commands of attestation take `TPM_RH_NULL` for the key
  | none, .attest .. => .ok none
  | none, _ => .error (.of .handle)

end

namespace WireSignature

/-- The profile enables the algorithm of the signature and its hash, if that is the number of one. -/
structure Enabled (p : RuntimeProfile) (sig : WireSignature) : Prop where
  alg : sig.AlgEnabled p
  hash : ∀ s, sig = some s → ∀ h : HashAlg,
    SignatureDetails.hash? s.1 s.2 = some (UInt16.ofNat (hashSelector.algId h)) → h.enabled p = true

/-- The hash of the signature is the number of a hash algorithm. -/
def HashKnown (sig : WireSignature) : Prop :=
  ∀ s hash, sig = some s → SignatureDetails.hash? s.1 s.2 = some hash →
    ∃ h : HashAlg, hash.toNat = hashSelector.algId h

theorem Enabled.hashAdmitted_iff {p : RuntimeProfile} {sig : WireSignature} (he : sig.Enabled p) :
    sig.HashAdmitted p ↔ sig.HashKnown := by
  constructor
  · intro h s hash hs hhash
    obtain ⟨alg, hid, _⟩ := h s hs hash hhash
    exact ⟨alg, hid⟩
  · intro h s hs hash hhash
    obtain ⟨alg, hid⟩ := h s hash hs hhash
    have hofNat : hash = UInt16.ofNat (hashSelector.algId alg) := by
      rw [← hid, UInt16.ofNat_toNat]
    exact ⟨alg, hid, he.hash s hs alg (hofNat ▸ hhash)⟩

end WireSignature

/-! ## The hash that a signature is given -/

section
variable {σ : Type} {C : SeqCrypto σ} {S : SignaturePrimitives} {key : Object} {sig : WireSignature}

theorem hashOfId_eq {n : Nat} {h : HashAlg} (hn : hashOfId n = some h) : hashSelector.algId h = n := by
  have hfound := List.find?_some (p := fun h => hashSelector.algId h == n) hn
  exact beq_iff_eq.mp hfound

theorem toNat_of_hashOfId {n : Nat} {h : HashAlg} (hn : hashOfId n = some h) :
    (UInt16.ofNat n).toNat = hashSelector.algId h := by
  rw [← hashOfId_eq hn, toNat_hashId]

/-- A signature of `CryptMlDsa.c` has the type of its key, and keeps the hash that was there. -/
theorem cryptMlDsaSignInto_ok {hash : UInt16} {msg ctx : Bytes}
    (h : cryptMlDsaSignInto C hash key msg ctx = .ok sig) :
    (key.publicArea.type = .mldsa ∧ ∃ x : Tpm2b 4627, sig = some ⟨.mldsa, x⟩) ∨
      (key.publicArea.type = .hashMldsa ∧
        ∃ x : Tpm2b 4627, sig = some ⟨.hashMldsa, (⟨hash, x⟩ : SignatureHashMldsa)⟩) := by
  obtain ⟨signed, hsigned, h⟩ := Transition.bind_eq_ok h
  have htype : signed.sigAlg = key.publicArea.type := by
    unfold cryptMlDsaSignMessage at hsigned
    repeat' split at hsigned
    all_goals cases hsigned
    rfl
  split at h
  · rename_i hlen
    split at h
    · rename_i halg
      cases h
      exact .inl ⟨htype ▸ halg, _, rfl⟩
    · rename_i halg
      cases h
      exact .inr ⟨htype ▸ halg, _, rfl⟩
    · cases h
  · cases h

theorem cryptMlDsaSignInto_hashKnown {hash : UInt16} {msg ctx : Bytes} (hk : key.publicArea.type ≠ .hashMldsa)
    (h : cryptMlDsaSignInto C hash key msg ctx = .ok sig) : sig.HashKnown := by
  rcases cryptMlDsaSignInto_ok h with ⟨-, x, rfl⟩ | ⟨hhash, _⟩
  · intro s hash hs hhash
    obtain rfl := Option.some.inj hs
    cases hhash
  · exact absurd hhash hk

theorem cryptRsaSign_hashKnown {scheme : TpmtSigScheme} {digest : Bytes} {alg : HashAlg}
    (halg : hashOfId scheme.hashAlg = some alg) (h : cryptRsaSign S key scheme digest = .ok sig) :
    sig.HashKnown := by
  obtain ⟨x, -, h⟩ := Transition.bind_eq_ok h
  intro s hash hs hhash
  refine ⟨alg, ?_⟩
  rw [← toNat_of_hashOfId halg]
  repeat' split at h
  all_goals first
    | cases h
      obtain rfl := Option.some.inj hs
      obtain rfl := Option.some.inj hhash
      rfl
    | cases h

theorem cryptEccSign_hashKnown {scheme : TpmtSigScheme} {digest : Bytes} {alg : HashAlg}
    (halg : hashOfId scheme.hashAlg = some alg) (h : cryptEccSign S key scheme digest = .ok sig) :
    sig.HashKnown := by
  obtain ⟨x, -, h⟩ := Transition.bind_eq_ok h
  intro s hash hs hhash
  refine ⟨alg, ?_⟩
  rw [← toNat_of_hashOfId halg]
  dsimp only at h
  repeat' split at h
  all_goals first
    | cases h
      obtain rfl := Option.some.inj hs
      obtain rfl := Option.some.inj hhash
      rfl
    | cases h

theorem cryptHmacSign_hashKnown {scheme : TpmtSigScheme} {digest : Bytes}
    (h : cryptHmacSign S key scheme digest = .ok sig) : sig.HashKnown := by
  intro s hash hs hhash
  unfold cryptHmacSign at h
  split at h
  · rename_i alg _
    split at h
    · obtain ⟨mac, -, h⟩ := Transition.bind_eq_ok h
      cases h
      obtain rfl := Option.some.inj hs
      obtain rfl := Option.some.inj hhash
      exact ⟨alg, toNat_hashId alg⟩
    · cases h
  · cases h

/-- `CryptSign` gives the hash of the scheme, which is one if the key is none of ML-DSA. -/
theorem cryptSignInto_hashKnown {scheme : TpmtSigScheme} {digest : Bytes} (hk : key.publicArea.type ≠ .hashMldsa)
    (hscheme : key.publicArea.isMldsa = false → ∃ alg, hashOfId scheme.hashAlg = some alg)
    (h : cryptSignInto C S key scheme digest = .ok sig) : sig.HashKnown := by
  unfold cryptSignInto at h
  split at h
  · cases h
    exact fun s hash hs => nomatch hs
  · split at h
    · rename_i htype
      obtain ⟨alg, halg⟩ := hscheme (by simp [TpmtPublic.isMldsa, htype])
      exact cryptRsaSign_hashKnown halg h
    · rename_i htype
      obtain ⟨alg, halg⟩ := hscheme (by simp [TpmtPublic.isMldsa, htype])
      exact cryptEccSign_hashKnown halg h
    · exact cryptMlDsaSignInto_hashKnown hk h
    · exact cryptMlDsaSignInto_hashKnown hk h
    · exact cryptHmacSign_hashKnown h
    · cases h

theorem selectedScheme_ok {inScheme scheme : TpmtSigScheme} (h : selectedScheme key inScheme = .ok scheme) :
    cryptSelectSignScheme (attestSchemes fun _ _ _ => .error .failureMode) key inScheme = some scheme := by
  unfold selectedScheme at h
  split at h
  · rename_i hsel
    cases h
    exact hsel
  · cases h

theorem selectedScheme_mldsa {inScheme scheme : TpmtSigScheme} (hk : key.publicArea.isMldsa = true)
    (h : selectedScheme key inScheme = .ok scheme) :
    scheme = ⟨publicSelector.algId key.publicArea.type, TpmAlg.null⟩ := by
  have hsel := selectedScheme_ok h
  unfold cryptSelectSignScheme at hsel
  rw [if_pos hk] at hsel
  dsimp only at hsel
  split at hsel
  · exact (Option.some.inj hsel).symm
  · split at hsel
    · rename_i heq
      rw [← Option.some.inj hsel, ← heq]
    · cases hsel

/-- The hash of a signature made with a HashML-DSA key is the one of no algorithm. -/
theorem signature_hashMldsa {r : SignerRequest} (hk : key.publicArea.type = .hashMldsa)
    (h : r.signature C S (some key) = .ok sig) :
    ∃ (hash : UInt16) (x : Tpm2b 4627), sig = some ⟨.hashMldsa, (⟨hash, x⟩ : SignatureHashMldsa)⟩ ∧
      (hash = 0 ∨ hash.toNat = TpmAlg.null) := by
  have hmldsa : key.publicArea.isMldsa = true := by simp [TpmtPublic.isMldsa, hk]
  have hinto : ∀ {hash : UInt16} {msg ctx : Bytes}, cryptMlDsaSignInto C hash key msg ctx = .ok sig →
      ∃ x : Tpm2b 4627, sig = some ⟨.hashMldsa, (⟨hash, x⟩ : SignatureHashMldsa)⟩ := by
    intro hash msg ctx h
    rcases cryptMlDsaSignInto_ok h with ⟨htype, _⟩ | ⟨-, hx⟩
    · cases htype.symm.trans hk
    · exact hx
  cases r with
  | sign inScheme digest =>
      obtain ⟨scheme, hsel, h⟩ := Transition.bind_eq_ok h
      obtain rfl := selectedScheme_mldsa hmldsa hsel
      unfold cryptSignInto at h
      rw [hk, if_neg (by decide)] at h
      obtain ⟨x, hx⟩ := hinto h
      exact ⟨_, x, hx, .inr rfl⟩
  | attest inScheme attestation digest =>
      obtain ⟨scheme, -, h⟩ := Transition.bind_eq_ok h
      rw [if_pos hmldsa] at h
      obtain ⟨x, hx⟩ := hinto h
      exact ⟨0, x, hx, .inl rfl⟩
  | signDigest digest context =>
      obtain ⟨x, hx⟩ := hinto h
      exact ⟨0, x, hx, .inl rfl⟩
  | signSequenceComplete message context =>
      obtain ⟨x, hx⟩ := hinto h
      exact ⟨0, x, hx, .inl rfl⟩

/-- The hash of a signature is one of the known ones unless a HashML-DSA key has made it. -/
theorem signature_hashKnown_iff {key : Option Object} {r : SignerRequest} (h : r.signature C S key = .ok sig) :
    sig.HashKnown ↔ ∀ k, key = some k → k.publicArea.type ≠ .hashMldsa := by
  constructor
  · rintro hknown key rfl hk
    obtain ⟨hash, x, rfl, hhash⟩ := signature_hashMldsa hk h
    obtain ⟨alg, hid⟩ := hknown _ hash rfl rfl
    rcases hhash with rfl | hnull
    · cases alg <;> cases hid
    · rw [hnull] at hid
      cases alg <;> cases hid
  · intro hk
    cases key with
    | none =>
        cases r with
        | attest =>
            cases h
            exact fun s hash hs => nomatch hs
        | _ => cases h
    | some key =>
        have hne := hk key rfl
        cases r with
        | sign inScheme digest =>
            obtain ⟨scheme, hsel, h⟩ := Transition.bind_eq_ok h
            exact cryptSignInto_hashKnown hne (fun hm => hashOfId_isSome hm (selectedScheme_ok hsel)) h
        | attest inScheme attestation digest =>
            obtain ⟨scheme, hsel, h⟩ := Transition.bind_eq_ok h
            split at h
            · exact cryptMlDsaSignInto_hashKnown hne h
            · exact cryptSignInto_hashKnown hne (fun hm => hashOfId_isSome hm (selectedScheme_ok hsel)) h
        | signDigest digest context => exact cryptMlDsaSignInto_hashKnown hne h
        | signSequenceComplete message context => exact cryptMlDsaSignInto_hashKnown hne h

end

/-- The codecs of public areas, sensitive areas and signatures agree on what the TPM writes, of signatures on the
one given, and accept it as the parameter of a command. -/
structure CodecAgrees (p : RuntimeProfile) (sig : WireSignature) : Prop where
  public_reads : ∀ (a : TpmtPublic) (allowNull : Bool), a.enabled p = true →
    (allowNull || a.nameAlg.isSome) = true → Reads (TpmtPublic.unmarshal p allowNull) a.marshal a
  public_rewrites : ∀ allowNull, Rewrites (TpmtPublic.unmarshal p allowNull) TpmtPublic.marshal
  sensitive_reads : ∀ s : TpmtSensitive, s.sensitive.isSome = true →
    ∃ x, s.marshalWire = .ok x ∧ Reads TpmtSensitive.unmarshalWire x s
  sensitive_rewrites : ∀ (bs rest : Bytes) (s : TpmtSensitive), TpmtSensitive.unmarshalWire bs = .ok (s, rest) →
    ∃ x, s.marshalWire = .ok x ∧ bs = x ++ rest
  signature_reads : Reads (WireSignature.unmarshal p true) sig.marshal sig
  signature_rewrites : ∀ allowNull, Rewrites (WireSignature.unmarshal p allowNull) WireSignature.marshal
  /-- `TPM2_VerifySignature` and `TPM2_VerifyDigestSignature` do not take `TPM_ALG_NULL`. -/
  signature_input : sig.isSome = true → Reads (WireSignature.unmarshal p false) sig.marshal sig

theorem WireSignature.Enabled.codecAgrees_iff {p : RuntimeProfile} {sig : WireSignature} (he : sig.Enabled p) :
    CodecAgrees p sig ↔ sig.HashKnown := by
  rw [← he.hashAdmitted_iff]
  constructor
  · intro h
    exact (WireSignature.reads_iff rfl he.alg).mp h.signature_reads
  · intro h
    exact
      { public_reads := fun a allowNull ha hn => TpmtPublic.reads hn ha
        public_rewrites := TpmtPublic.rewrites p
        sensitive_reads := fun s hs => TpmtSensitive.readsWire hs
        sensitive_rewrites := fun bs rest s hs => TpmtSensitive.rewritesWire hs
        signature_reads := WireSignature.reads rfl he.alg h
        signature_rewrites := fun allowNull => WireSignature.rewrites
        signature_input := fun hsome => WireSignature.reads hsome he.alg h }

/-- The codecs agree on a signature of the TPM unless it is made with a HashML-DSA key. -/
theorem signature_codecAgrees_iff {σ : Type} {C : SeqCrypto σ} {S : SignaturePrimitives} {p : RuntimeProfile}
    {key : Option Object} {r : SignerRequest} {sig : WireSignature} (h : r.signature C S key = .ok sig)
    (he : sig.Enabled p) : CodecAgrees p sig ↔ ∀ k, key = some k → k.publicArea.type ≠ .hashMldsa := by
  rw [he.codecAgrees_iff, signature_hashKnown_iff h]

/-! ## A signature with each of the two keys -/

/-- No keys but those of ML-DSA. -/
def mldsaPrimitives : SignaturePrimitives where
  rsa _ _ _ := .error .failureMode
  ecc _ _ _ := .error .failureMode
  hmac _ _ _ := .error .failureMode

theorem toySignature_le (msg ctx : Bytes) : (toySignature msg ctx).length ≤ 4627 :=
  Nat.le_trans (List.length_take_le _ _) (by decide)

/-- `TPM2_SignSequenceComplete` on an empty message. -/
def signEmpty : SignerRequest := .signSequenceComplete [] .empty

def mldsaSigned : WireSignature :=
  some ⟨.mldsa, (⟨toySignature [] [], toySignature_le [] []⟩ : Tpm2b 4627)⟩

def hashMldsaSigned : WireSignature :=
  some ⟨.hashMldsa, (⟨0, ⟨toySignature [] [], toySignature_le [] []⟩⟩ : SignatureHashMldsa)⟩

theorem cryptMlDsaSignInto_mldsa {σ : Type} {C : SeqCrypto σ} {hash : UInt16} {key : Object} {msg ctx x : Bytes}
    (h : cryptMlDsaSignMessage C key msg ctx = .ok ⟨.mldsa, x⟩) (hx : x.length ≤ 4627) :
    cryptMlDsaSignInto C hash key msg ctx = .ok (some ⟨.mldsa, (⟨x, hx⟩ : Tpm2b 4627)⟩) := by
  unfold cryptMlDsaSignInto
  rw [h]
  exact dif_pos hx

theorem cryptMlDsaSignInto_hashMldsa {σ : Type} {C : SeqCrypto σ} {hash : UInt16} {key : Object}
    {msg ctx x : Bytes} (h : cryptMlDsaSignMessage C key msg ctx = .ok ⟨.hashMldsa, x⟩) (hx : x.length ≤ 4627) :
    cryptMlDsaSignInto C hash key msg ctx =
      .ok (some ⟨.hashMldsa, (⟨hash, ⟨x, hx⟩⟩ : SignatureHashMldsa)⟩) := by
  unfold cryptMlDsaSignInto
  rw [h]
  exact dif_pos hx

theorem mldsaKey_signs :
    signEmpty.signature toyCrypto mldsaPrimitives (some (mldsaKey firstName false)) = .ok mldsaSigned :=
  cryptMlDsaSignInto_mldsa rfl (toySignature_le [] [])

theorem hashMldsaKey_signs :
    signEmpty.signature toyCrypto mldsaPrimitives (some hashMldsaKey) = .ok hashMldsaSigned :=
  cryptMlDsaSignInto_hashMldsa rfl (toySignature_le [] [])

theorem mldsaSigned_agrees :
    signEmpty.signature toyCrypto mldsaPrimitives (some (mldsaKey firstName false)) = .ok mldsaSigned ∧
      CodecAgrees (RuntimeProfile.default 7) mldsaSigned := by
  have he : mldsaSigned.Enabled (RuntimeProfile.default 7) :=
    { alg := by
        intro s hs
        obtain rfl := Option.some.inj hs
        decide
      hash := by
        intro s hs h hhash
        obtain rfl := Option.some.inj hs
        cases hhash }
  refine ⟨mldsaKey_signs, (signature_codecAgrees_iff mldsaKey_signs he).mpr ?_⟩
  intro k hk
  obtain rfl := Option.some.inj hk
  nofun

theorem unmarshalHash_zero {p : RuntimeProfile} (rest : Bytes) :
    unmarshalHash p (be 2 0 ++ rest) = .error (.of .hash) := by
  have henum : Reader.enum 2 hashSelector.algId hashSelector.all (Fault.of .insufficient) (.of .hash)
      (be 2 0 ++ rest) = .error (.of .hash) :=
    (Reads.word (w := 2) (n := 0) _ (by decide)).bind_error rfl
  exact Reader.map_error _ (Reader.bind_error henum)

theorem unmarshal_error {p : RuntimeProfile} {allowNull : Bool} {s : (a : SigAlg) × SignatureDetails a} {e : Fault}
    (ha : p.checkEnabled (sigSelector.algId s.1) = true)
    (h : SignatureDetails.unmarshal p s.1 (SignatureDetails.marshal s.1 s.2) = .error e) :
    WireSignature.unmarshal p allowNull (WireSignature.marshal (some s)) = .error e := by
  have hsel : Reads (sigSelector.unmarshalNull (fun a => p.checkEnabled (sigSelector.algId a)) .scheme)
      (be 2 (sigSelector.algId s.1)) (some s.1) := sigSelector.readsNull (a := some s.1) ha
  refine hsel.bind_error ?_
  refine Reads.bind_error (x := []) (Reads.check (Bool.or_true allowNull)) ?_
  exact Reads.bind_error (x := []) (Reads.check ha) (Reader.map_error _ h)

theorem unmarshal_zeroHash (x : Tpm2b 4627) :
    WireSignature.unmarshal (RuntimeProfile.default 7) false
      (WireSignature.marshal (some ⟨.hashMldsa, (⟨0, x⟩ : SignatureHashMldsa)⟩)) = .error (.of .hash) := by
  have hread := unmarshalHash_zero (p := RuntimeProfile.default 7) x.marshal
  exact unmarshal_error rfl (Reader.bind_error hread)

/-- The hash of a signature with a HashML-DSA key is 0, which the readers refuse. -/
theorem hashMldsaSigned_refused :
    signEmpty.signature toyCrypto mldsaPrimitives (some hashMldsaKey) = .ok hashMldsaSigned ∧
      hashMldsaSigned.Enabled (RuntimeProfile.default 7) ∧
      WireSignature.unmarshal (RuntimeProfile.default 7) false hashMldsaSigned.marshal = .error (.of .hash) ∧
      ¬ CodecAgrees (RuntimeProfile.default 7) hashMldsaSigned := by
  have he : hashMldsaSigned.Enabled (RuntimeProfile.default 7) :=
    { alg := by
        intro s hs
        obtain rfl := Option.some.inj hs
        decide
      hash := by
        intro s hs h hhash
        obtain rfl := Option.some.inj hs
        cases h <;> cases hhash }
  refine ⟨hashMldsaKey_signs, he, unmarshal_zeroHash _, fun h => ?_⟩
  obtain ⟨h, hid⟩ := he.codecAgrees_iff.mp h _ 0 rfl rfl
  cases h <;> cases hid

end PqcTpm
