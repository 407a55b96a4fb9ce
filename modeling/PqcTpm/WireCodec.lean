import PqcTpm.Object

/-!
# What the readers accept is what the writers write

The other direction of the codecs of `TPMT_PUBLIC` and `TPMT_SENSITIVE`: the octets that an
`Unmarshal` function takes are the ones that the `Marshal` function writes for its result.
-/
namespace PqcTpm
open ByteCodec Reader

/-! ## Leaves -/

namespace Tpm2b

theorem rewrites (max : Nat) : Rewrites (unmarshal max) marshal := by
  intro bs b rest h
  obtain ⟨n, r₁, hn, h⟩ := bind_eq_ok h
  obtain ⟨hle, h⟩ := check_bind_eq_ok h
  obtain ⟨x, r₂, htake, h⟩ := bind_eq_ok h
  obtain ⟨rfl, rfl⟩ := Prod.mk.inj (Except.ok.inj h)
  obtain ⟨hx, hr₁⟩ := take_eq_ok htake
  have hbuffer : (ofBytes x : Tpm2b max).buffer = x := by
    apply List.take_of_length_le
    rw [hx]
    exact of_decide_eq_true hle
  rw [Rewrites.word 2 _ hn, hr₁]
  simp only [marshal, size, hbuffer, hx, List.append_assoc]

end Tpm2b

theorem readUint16_rewrites : Rewrites readUint16 (be 2) := Rewrites.word 2 _

theorem readUint32_rewrites : Rewrites readUint32 writeUint32 := by
  intro bs n rest h
  obtain ⟨m, hm, rfl⟩ := map_eq_ok h
  rw [Rewrites.word 4 _ hm]
  simp only [writeUint32, UInt32.toNat_ofNat']
  rw [← be_mod 4 m]
  rfl

namespace Selector
variable {α : Type} (S : Selector α) (enabled : α → Bool) (bad : RcCode)

theorem rewrites : Rewrites (S.unmarshal enabled bad) fun a => be 2 (S.algId a) := by
  intro bs a rest h
  obtain ⟨b, r₁, hb, h⟩ := bind_eq_ok h
  obtain ⟨-, h⟩ := check_bind_eq_ok h
  obtain ⟨rfl, rfl⟩ := Prod.mk.inj (Except.ok.inj h)
  exact Rewrites.enum 2 S.algId _ _ _ hb

theorem rewritesNull : Rewrites (S.unmarshalNull enabled bad) fun a => be 2 (S.algIdOrNull a) := by
  intro bs a rest h
  obtain ⟨b, r₁, hb, h⟩ := bind_eq_ok h
  obtain ⟨-, h⟩ := check_bind_eq_ok h
  obtain ⟨rfl, rfl⟩ := Prod.mk.inj (Except.ok.inj h)
  exact Rewrites.enum 2 S.algIdOrNull _ _ _ hb

end Selector

namespace HashAlg
variable (p : RuntimeProfile)

theorem rewrites : Rewrites (unmarshal p) marshal := hashSelector.rewrites _ _

theorem rewritesNull (allowNull : Bool) :
    Rewrites (unmarshalNull p allowNull) fun h => be 2 (hashSelector.algIdOrNull h) := by
  intro bs a rest h
  obtain ⟨b, r₁, hb, h⟩ := bind_eq_ok h
  obtain ⟨-, h⟩ := check_bind_eq_ok h
  obtain ⟨rfl, rfl⟩ := Prod.mk.inj (Except.ok.inj h)
  exact hashSelector.rewritesNull _ _ hb

end HashAlg

/-! ## Schemes -/

variable (p : RuntimeProfile)

theorem TpmtSymDefObject.rewrites (allowNull : Bool) : Rewrites (unmarshal p allowNull) marshal := by
  intro bs d rest h
  obtain ⟨alg, r₁, halg, h⟩ := bind_eq_ok h
  obtain ⟨-, h⟩ := check_bind_eq_ok h
  obtain ⟨-, h⟩ := check_bind_eq_ok h
  rw [symSelector.rewritesNull _ _ halg]
  cases alg with
  | none =>
      obtain ⟨rfl, rfl⟩ := Prod.mk.inj (Except.ok.inj h)
      rfl
  | some a =>
      obtain ⟨keyBits, r₂, hbits, h⟩ := bind_eq_ok h
      rw [readUint16_rewrites hbits]
      split at h
      · obtain ⟨-, h⟩ := check_bind_eq_ok h
        obtain ⟨mode, r₃, hmode, h⟩ := bind_eq_ok h
        obtain ⟨rfl, rfl⟩ := Prod.mk.inj (Except.ok.inj h)
        rw [symModeSelector.rewritesNull _ _ hmode]
        simp only [marshal, Selector.algIdOrNull, List.append_assoc]
      · cases h

theorem TpmtKeyedhashScheme.rewrites : Rewrites (unmarshal p) marshal := by
  intro bs s rest h
  obtain ⟨scheme, r₁, hscheme, h⟩ := bind_eq_ok h
  rw [keyedhashSelector.rewritesNull _ _ hscheme]
  cases scheme with
  | none =>
      obtain ⟨rfl, rfl⟩ := Prod.mk.inj (Except.ok.inj h)
      rfl
  | some scheme =>
      cases scheme with
      | hmac =>
          obtain ⟨a, ha, rfl⟩ := map_eq_ok h
          rw [HashAlg.rewrites p ha]
          rfl
      | xor =>
          obtain ⟨a, r₂, ha, h⟩ := bind_eq_ok h
          obtain ⟨kdf, r₃, hkdf, h⟩ := bind_eq_ok h
          obtain ⟨rfl, rfl⟩ := Prod.mk.inj (Except.ok.inj h)
          rw [HashAlg.rewrites p ha, kdfSelector.rewritesNull _ _ hkdf]
          simp only [marshal, List.append_assoc]
          rfl

theorem TpmtKdfScheme.rewrites : Rewrites (unmarshal p) marshal := by
  intro bs s rest h
  obtain ⟨scheme, r₁, hscheme, h⟩ := bind_eq_ok h
  rw [kdfSelector.rewritesNull _ _ hscheme]
  cases scheme with
  | none =>
      obtain ⟨rfl, rfl⟩ := Prod.mk.inj (Except.ok.inj h)
      rfl
  | some k =>
      obtain ⟨a, ha, rfl⟩ := map_eq_ok h
      rw [HashAlg.rewrites p ha]
      simp only [marshal, List.append_assoc]
      rfl

theorem TpmtRsaScheme.rewrites : Rewrites (unmarshal p) marshal := by
  intro bs s rest h
  obtain ⟨scheme, r₁, hscheme, h⟩ := bind_eq_ok h
  obtain ⟨-, h⟩ := check_bind_eq_ok h
  rw [rsaSchemeSelector.rewritesNull _ _ hscheme]
  cases scheme with
  | none =>
      obtain ⟨rfl, rfl⟩ := Prod.mk.inj (Except.ok.inj h)
      rfl
  | some scheme =>
      cases scheme with
      | rsaes =>
          obtain ⟨rfl, rfl⟩ := Prod.mk.inj (Except.ok.inj h)
          rfl
      | _ =>
          obtain ⟨a, ha, rfl⟩ := map_eq_ok h
          rw [HashAlg.rewrites p ha]
          rfl

theorem TpmtEccScheme.rewrites : Rewrites (unmarshal p) marshal := by
  intro bs s rest h
  obtain ⟨scheme, r₁, hscheme, h⟩ := bind_eq_ok h
  obtain ⟨-, h⟩ := check_bind_eq_ok h
  rw [eccSchemeSelector.rewritesNull _ _ hscheme]
  cases scheme with
  | none =>
      obtain ⟨rfl, rfl⟩ := Prod.mk.inj (Except.ok.inj h)
      rfl
  | some scheme =>
      cases scheme with
      | ecdaa =>
          obtain ⟨a, r₂, ha, h⟩ := bind_eq_ok h
          obtain ⟨count, r₃, hcount, h⟩ := bind_eq_ok h
          obtain ⟨rfl, rfl⟩ := Prod.mk.inj (Except.ok.inj h)
          rw [HashAlg.rewrites p ha, readUint16_rewrites hcount, ← be_mod 2 count]
          simp only [marshal, details, UInt16.toNat_ofNat', List.append_assoc]
          rfl
      | _ =>
          obtain ⟨a, ha, rfl⟩ := map_eq_ok h
          rw [HashAlg.rewrites p ha]
          rfl

/-! ## Public areas -/

theorem EccCurve.rewrites : Rewrites (EccCurve.unmarshal p) fun c => be 2 c.id := by
  intro bs c rest h
  obtain ⟨d, r₁, hd, h⟩ := bind_eq_ok h
  obtain ⟨-, h⟩ := check_bind_eq_ok h
  obtain ⟨rfl, rfl⟩ := Prod.mk.inj (Except.ok.inj h)
  exact Rewrites.enum 2 EccCurve.id _ _ _ hd

theorem RsaParms.rewrites : Rewrites (unmarshal p) marshal := by
  intro bs q rest h
  obtain ⟨symmetric, r₁, hsym, h⟩ := bind_eq_ok h
  obtain ⟨scheme, r₂, hscheme, h⟩ := bind_eq_ok h
  obtain ⟨keyBits, r₃, hbits, h⟩ := bind_eq_ok h
  rw [TpmtSymDefObject.rewrites p true hsym, TpmtRsaScheme.rewrites p hscheme, readUint16_rewrites hbits]
  split at h
  · obtain ⟨-, h⟩ := check_bind_eq_ok h
    obtain ⟨exponent, r₄, hexp, h⟩ := bind_eq_ok h
    obtain ⟨rfl, rfl⟩ := Prod.mk.inj (Except.ok.inj h)
    rw [readUint32_rewrites hexp]
    simp only [marshal, List.append_assoc]
  · cases h

theorem EccParms.rewrites : Rewrites (unmarshal p) marshal := by
  intro bs q rest h
  obtain ⟨symmetric, r₁, hsym, h⟩ := bind_eq_ok h
  obtain ⟨scheme, r₂, hscheme, h⟩ := bind_eq_ok h
  obtain ⟨curveID, r₃, hcurve, h⟩ := bind_eq_ok h
  obtain ⟨kdf, r₄, hkdf, h⟩ := bind_eq_ok h
  obtain ⟨rfl, rfl⟩ := Prod.mk.inj (Except.ok.inj h)
  rw [TpmtSymDefObject.rewrites p true hsym, TpmtEccScheme.rewrites p hscheme, EccCurve.rewrites p hcurve,
    TpmtKdfScheme.rewrites p hkdf]
  simp only [marshal, List.append_assoc]

theorem MldsaParms.rewrites : Rewrites unmarshal marshal := by
  intro bs q rest h
  obtain ⟨parameterSet, r₁, hset, h⟩ := bind_eq_ok h
  obtain ⟨mu, r₂, hmu, h⟩ := bind_eq_ok h
  obtain ⟨hyesNo, h⟩ := check_bind_eq_ok h
  obtain ⟨rfl, rfl⟩ := Prod.mk.inj (Except.ok.inj h)
  have hset := Rewrites.enum 2 MldsaParameterSet.id _ _ _ hset
  rw [hset, Rewrites.word 1 _ hmu]
  simp only [marshal, List.append_assoc]
  rcases of_decide_eq_true hyesNo with rfl | rfl
  · rfl
  · rfl

theorem HashMldsaParms.rewrites : Rewrites (unmarshal p) marshal := by
  intro bs q rest h
  obtain ⟨parameterSet, r₁, hset, h⟩ := bind_eq_ok h
  obtain ⟨hashAlg, r₂, hhash, h⟩ := bind_eq_ok h
  obtain ⟨rfl, rfl⟩ := Prod.mk.inj (Except.ok.inj h)
  have hset := Rewrites.enum 2 MldsaParameterSet.id _ _ _ hset
  rw [hset, HashAlg.rewrites p hhash]
  simp only [marshal, List.append_assoc]

theorem MlkemParms.rewrites : Rewrites (unmarshal p) marshal := by
  intro bs q rest h
  obtain ⟨symmetric, r₁, hsym, h⟩ := bind_eq_ok h
  obtain ⟨parameterSet, r₂, hset, h⟩ := bind_eq_ok h
  obtain ⟨rfl, rfl⟩ := Prod.mk.inj (Except.ok.inj h)
  have hset := Rewrites.enum 2 MlkemParameterSet.id _ _ _ hset
  rw [TpmtSymDefObject.rewrites p true hsym, hset]
  simp only [marshal, List.append_assoc]

theorem PublicParms.rewrites (t : ObjectType) : Rewrites (unmarshal p t) (marshal t) := by
  cases t with
  | keyedhash => exact TpmtKeyedhashScheme.rewrites p
  | symcipher =>
      intro bs q rest h
      obtain ⟨d, r₁, hd, h⟩ := bind_eq_ok h
      rw [TpmtSymDefObject.rewrites p false hd]
      cases d with
      | none => cases h
      | some d =>
          obtain ⟨rfl, rfl⟩ := Prod.mk.inj (Except.ok.inj h)
          rfl
  | rsa => exact RsaParms.rewrites p
  | ecc => exact EccParms.rewrites p
  | mldsa => exact MldsaParms.rewrites
  | hashMldsa => exact HashMldsaParms.rewrites p
  | mlkem => exact MlkemParms.rewrites p

theorem PublicId.rewrites (t : ObjectType) : Rewrites (unmarshal t) (marshal t) := by
  cases t with
  | ecc =>
      intro bs u rest h
      obtain ⟨x, r₁, hx, h⟩ := bind_eq_ok h
      obtain ⟨y, r₂, hy, h⟩ := bind_eq_ok h
      obtain ⟨rfl, rfl⟩ := Prod.mk.inj (Except.ok.inj h)
      rw [Tpm2b.rewrites 80 hx, Tpm2b.rewrites 80 hy]
      simp only [marshal, List.append_assoc]
  | _ => exact Tpm2b.rewrites _

namespace TpmaObject

theorem toWord_ofWord {n : Nat} (hn : n < 256 ^ 4) (h : n &&& reserved = 0) : (ofWord n).toWord = n := by
  have hbit : ∀ i, reserved.testBit i = true → n.testBit i = false := by
    intro i hi
    have hand := congrArg (Nat.testBit · i) h
    simpa only [Nat.testBit_and, hi, Bool.and_true, Nat.zero_testBit] using hand
  apply Nat.eq_of_testBit_eq
  intro i
  rw [toWord, testBit_ofBits]
  by_cases hi : i < 20
  · interval_cases i <;> first | rfl | exact (hbit _ (by decide)).symm
  · have hnone : (ofWord n).flags[i]? = none := List.getElem?_eq_none (Nat.le_of_not_lt hi)
    rw [List.getD_eq_getElem?_getD, hnone, Option.getD_none]
    by_cases h32 : i < 32
    · have hres : ∀ i < 32, 20 ≤ i → reserved.testBit i = true := by decide
      exact (hbit i (hres i h32 (Nat.le_of_not_lt hi))).symm
    · have hlt : n < 2 ^ i :=
        Nat.lt_of_lt_of_le (m := 2 ^ 32) hn (Nat.pow_le_pow_right Nat.two_pos (Nat.le_of_not_lt h32))
      exact (Nat.testBit_lt_two_pow hlt).symm

theorem rewrites : Rewrites unmarshal marshal := by
  intro bs a rest h
  obtain ⟨n, r₁, hn, h⟩ := bind_eq_ok h
  obtain ⟨hres, h⟩ := check_bind_eq_ok h
  obtain ⟨rfl, rfl⟩ := Prod.mk.inj (Except.ok.inj h)
  have hlt : n < 256 ^ 4 := word_lt hn
  rw [Rewrites.word 4 _ hn, marshal, toWord_ofWord hlt (of_decide_eq_true hres)]

end TpmaObject

theorem TpmtPublic.rewrites (allowNull : Bool) : Rewrites (unmarshal p allowNull) marshal := by
  intro bs a rest h
  obtain ⟨type, r₁, htype, h⟩ := bind_eq_ok h
  obtain ⟨nameAlg, r₂, hname, h⟩ := bind_eq_ok h
  obtain ⟨objectAttributes, r₃, hatt, h⟩ := bind_eq_ok h
  obtain ⟨authPolicy, r₄, hpolicy, h⟩ := bind_eq_ok h
  obtain ⟨parameters, r₅, hparms, h⟩ := bind_eq_ok h
  obtain ⟨unique, r₆, hunique, h⟩ := bind_eq_ok h
  obtain ⟨rfl, rfl⟩ := Prod.mk.inj (Except.ok.inj h)
  rw [publicSelector.rewrites _ _ htype, HashAlg.rewritesNull p allowNull hname, TpmaObject.rewrites hatt,
    Tpm2b.rewrites 64 hpolicy, PublicParms.rewrites p type hparms, PublicId.rewrites type hunique]
  simp only [marshal, List.append_assoc]

/-! ## Sensitive areas on the wire -/

namespace TpmtSensitive

/-- `TPMT_SENSITIVE_Marshal`, which asserts that there is a sensitive part. -/
def marshalWire (s : TpmtSensitive) : Except Fault Bytes :=
  match s.sensitive with
  | none => .error .failureMode
  | some c => .ok (be 2 (publicSelector.algId c.1) ++ (s.authValue.marshal ++ (s.seedValue.marshal ++ c.2.marshal)))

/-- `TPMT_SENSITIVE_Unmarshal`. -/
def unmarshalWire : Unmarshal TpmtSensitive := do
  let type ← publicSelector.unmarshal (fun _ => true) .type
  let authValue ← Tpm2b.unmarshal 64
  let seedValue ← Tpm2b.unmarshal 64
  let c ← Tpm2b.unmarshal (sensitiveSize type)
  pure ⟨authValue, seedValue, some ⟨type, c⟩, nofun⟩

theorem readsWire {s : TpmtSensitive} (h : s.sensitive.isSome = true) :
    ∃ x, s.marshalWire = .ok x ∧ Reads unmarshalWire x s := by
  obtain ⟨authValue, seedValue, c, hpub⟩ := s
  obtain ⟨⟨type, c⟩, rfl⟩ := Option.isSome_iff_exists.mp h
  have hsize : sensitiveSize type < 256 ^ 2 := by cases type <;> decide
  refine ⟨_, rfl, (publicSelector.reads (a := type) rfl).bind ?_⟩
  refine (Tpm2b.reads (by decide) authValue).bind ?_
  refine (Tpm2b.reads (by decide) seedValue).bind ?_
  exact (Tpm2b.reads hsize c).bind_last (Reads.pure _)

theorem rewritesWire {bs rest : Bytes} {s : TpmtSensitive} (h : unmarshalWire bs = .ok (s, rest)) :
    ∃ x, s.marshalWire = .ok x ∧ bs = x ++ rest := by
  obtain ⟨type, r₁, htype, h⟩ := bind_eq_ok h
  obtain ⟨authValue, r₂, hauth, h⟩ := bind_eq_ok h
  obtain ⟨seedValue, r₃, hseed, h⟩ := bind_eq_ok h
  obtain ⟨c, r₄, hc, h⟩ := bind_eq_ok h
  obtain ⟨rfl, rfl⟩ := Prod.mk.inj (Except.ok.inj h)
  refine ⟨_, rfl, ?_⟩
  rw [publicSelector.rewrites _ _ htype, Tpm2b.rewrites 64 hauth, Tpm2b.rewrites 64 hseed, Tpm2b.rewrites _ hc]
  simp only [List.append_assoc]

end TpmtSensitive

end PqcTpm
