import PqcTpm.Lib.TracedReads
import PqcTpm.PolicySession

/-!
# The template check of a policy

`CompareTemplateHash` of `SessionProcess.c` on the octets of a command as they lie in memory. The size that is
left is a signed number, and `UINT16_Unmarshal` compares it as an unsigned one.
-/
namespace PqcTpm
open ByteCodec TracedReads Traced

/-- `BYTE **buffer` and `INT32 *size`. -/
structure UnmarshalCursor where
  buffer : Int
  size : Int

/-- The conversion of an `INT32` to `UINT32`. -/
def asUint32 (x : Int) : Int := x % 2 ^ 32

/-- `UINT16_Unmarshal`; `none` is `TPM_RC_INSUFFICIENT`. -/
def uint16Unmarshal (m : Int → UInt8) (c : UnmarshalCursor) : Traced (Option (Nat × UnmarshalCursor)) :=
  if asUint32 c.size < 2 then pure none
  else do
    let high ← read m c.buffer
    let low ← read m (c.buffer + 1)
    pure (some (high.toNat * 256 + low.toNat, ⟨c.buffer + 2, c.size - 2⟩))

/-- The commands that have a template: `TPM2_Create`, `TPM2_CreatePrimary` and `TPM2_CreateLoaded`. -/
def hasTemplate (code : Nat) : Prop := code = 0x153 ∨ code = 0x131 ∨ code = 0x191

instance (code : Nat) : Decidable (hasTemplate code) := inferInstanceAs (Decidable (_ ∨ _))

section
variable (H : PolicyHash) (m : Int → UInt8)

/-- `CompareTemplateHash` with the parameters from address 0 on. -/
def compareTemplateHash (code : Nat) (parameterSize : Int) (session : Session) : Traced Bool :=
  if ¬ hasTemplate code then pure false
  else do
    match ← uint16Unmarshal m ⟨0, parameterSize⟩ with
    | none => pure false
    | some (size, c) =>
        match ← uint16Unmarshal m ⟨c.buffer + size, c.size - size⟩ with
        | none => pure false
        | some (size, c) =>
            if c.size < size then pure false
            else do
              let template ← readBlock m c.buffer size
              pure (decide (session.u1 = H.hash session.authHashAlg template))

end

/-- The parameters begin with two `TPM2B`s that fit, and this is in the second. -/
def TemplateIn (area template : Bytes) : Prop :=
  ∃ first rest : Bytes, first.length < 2 ^ 16 ∧ template.length < 2 ^ 16 ∧
    area = be 2 first.length ++ (first ++ (be 2 template.length ++ (template ++ rest)))

/-- The first size does not lead out of the parameters, where there is one. -/
def FirstFits (area : Bytes) : Prop := area.length < 2 ∨ 2 + fromBe (area.take 2) ≤ area.length

/-! ## Reading a size -/

section
variable {m : Int → UInt8} {at' size : Int}

theorem asUint32_of_nonneg (h : 0 ≤ size) (hlt : size < 2 ^ 31) : asUint32 size = size :=
  Int.emod_eq_of_lt h (by omega)

theorem asUint32_of_neg (size : Int) (h : size < 0) (hlt : -(2 ^ 31) ≤ size) : ¬ asUint32 size < 2 := by
  have heq : asUint32 size = size + 2 ^ 32 := by
    unfold asUint32
    omega
  omega

theorem uint16Unmarshal_short (h : 0 ≤ size) (hlt : size < 2) : uint16Unmarshal m ⟨at', size⟩ = pure none := by
  have hcast := asUint32_of_nonneg h (by omega)
  exact if_pos (by dsimp only; omega)

theorem uint16Unmarshal_reads {high low : UInt8} (h : ¬ asUint32 size < 2) (hhigh : m at' = high)
    (hlow : m (at' + 1) = low) :
    (uint16Unmarshal m ⟨at', size⟩).value = some (high.toNat * 256 + low.toNat, ⟨at' + 2, size - 2⟩) := by
  rw [uint16Unmarshal, if_neg h, ← hhigh, ← hlow]
  rfl

theorem uint16Unmarshal_within (lo hi : Int) (h : ¬ asUint32 size < 2) :
    (uint16Unmarshal m ⟨at', size⟩).Within lo hi ↔ lo ≤ at' ∧ at' + 1 < hi := by
  simp only [uint16Unmarshal, if_neg h, within_bind, within_read, within_pure, and_true, value_read]
  omega

end

theorem two_octets (high low : UInt8) : be 2 (high.toNat * 256 + low.toNat) = [high, low] := by
  have h := be_fromBe [high, low]
  rwa [fromBe_cons, fromBe_cons, List.length_singleton, List.length_cons, List.length_nil, pow_one,
    Nat.mul_comm 256, pow_zero, Nat.one_mul, show fromBe [] = 0 from rfl, Nat.add_zero] at h

theorem fromBe_two (high low : UInt8) (rest : Bytes) :
    fromBe ((high :: low :: rest).take 2) = high.toNat * 256 + low.toNat := by
  have hlt : high.toNat * 256 + low.toNat < 256 ^ 2 := by
    have h₁ := high.toNat_lt
    have h₂ := low.toNat_lt
    omega
  rw [List.take_succ_cons, List.take_succ_cons, List.take_zero, ← two_octets, fromBe_be hlt]

theorem sized_eq {high low : UInt8} {left x rest : Bytes} (hx : x.length < 2 ^ 16)
    (h : high :: low :: left = be 2 x.length ++ (x ++ rest)) :
    high.toNat * 256 + low.toNat = x.length ∧ left = x ++ rest := by
  have happend : [high, low] ++ left = be 2 x.length ++ (x ++ rest) := h
  obtain ⟨hpair, hrest⟩ := List.append_inj happend (by simp only [be_length]; rfl)
  refine ⟨?_, hrest⟩
  rw [← fromBe_be (w := 2) (n := x.length) (by omega), ← hpair, ← two_octets, fromBe_be]
  have h₁ := high.toNat_lt
  have h₂ := low.toNat_lt
  omega

/-! ## The whole check -/

section
variable (H : PolicyHash) {m : Int → UInt8} {code : Nat} {session : Session}

/-- The check behind the first parameter, of which `size` octets are left. -/
def afterFirst (m : Int → UInt8) (session : Session) (at' size : Int) : Traced Bool := do
  match ← uint16Unmarshal m ⟨at', size⟩ with
  | none => pure false
  | some (size, c) =>
      if c.size < size then pure false
      else do
        let template ← readBlock m c.buffer size
        pure (decide (session.u1 = H.hash session.authHashAlg template))

/-- The second parameter fits into what is left. -/
def TemplateFirst (left template : Bytes) : Prop :=
  ∃ rest, template.length < 2 ^ 16 ∧ left = be 2 template.length ++ (template ++ rest)

theorem afterFirst_short {at' : Int} {left : Bytes} (h : left.length < 2) :
    afterFirst H m session at' left.length = pure false := by
  rw [afterFirst, uint16Unmarshal_short (by omega) (by omega)]
  rfl

theorem not_templateFirst {left : Bytes} (h : left.length < 2) (template : Bytes) : ¬ TemplateFirst left template := by
  rintro ⟨rest, -, heq⟩
  have hlen := congrArg List.length heq
  simp only [List.length_append, be_length] at hlen
  omega

/-- Nothing outside of what is left is read, and the answer is about the second parameter. -/
theorem afterFirst_spec (session : Session) {at' : Int} {left : Bytes} (hm : Holds m at' left) (hlt : left.length < 2 ^ 31)
    (hat : 0 ≤ at') :
    (afterFirst H m session at' left.length).Within 0 (at' + left.length) ∧
      ((afterFirst H m session at' left.length).value = true ↔
        ∃ template, TemplateFirst left template ∧ session.u1 = H.hash session.authHashAlg template) := by
  by_cases hshort : left.length < 2
  · rw [afterFirst_short H hshort]
    exact ⟨within_pure _, iff_of_false nofun fun ⟨template, h, _⟩ => not_templateFirst hshort template h⟩
  match left, hm, hlt with
  | [], _, _ => exact absurd Nat.two_pos hshort
  | [_], _, _ => exact absurd Nat.one_lt_two hshort
  | high :: low :: left, hm, hlt =>
      obtain ⟨hhigh, hm⟩ := holds_cons.mp hm
      obtain ⟨hlow, hm⟩ := holds_cons.mp hm
      set size := high.toNat * 256 + low.toNat with hsize
      have hlen : (high :: low :: left).length = left.length + 2 := rfl
      have hlt₁ := high.toNat_lt
      have hlt₂ := low.toNat_lt
      have hnot : ¬ asUint32 ((high :: low :: left).length : Int) < 2 := by
        rw [asUint32_of_nonneg (by omega) (by omega)]
        omega
      have hvalue := uint16Unmarshal_reads hnot hhigh hlow
      have hwithin := (uint16Unmarshal_within (m := m) 0 (at' + (high :: low :: left).length) hnot).mpr
        ⟨hat, by omega⟩
      simp only [afterFirst, within_bind, value_bind, hvalue, hwithin, true_and]
      by_cases hfit : left.length < size
      · have hout : ((high :: low :: left).length : Int) - 2 < (size : Int) := by omega
        simp only [← hsize, if_pos hout, within_pure, value_pure, true_and]
        refine iff_of_false (by decide) ?_
        rintro ⟨template, ⟨rest, htemplate, heq⟩, -⟩
        obtain ⟨hsame, hrest⟩ := sized_eq htemplate heq
        rw [hrest, List.length_append] at hfit
        omega
      · have hin : ¬ ((high :: low :: left).length : Int) - 2 < (size : Int) := by omega
        have htake : (left.take size).length = size := List.length_take_of_le (by omega)
        have hblock : (readBlock m (at' + 2) size).value = left.take size := by
          have hholds : Holds m (at' + 1 + 1) (left.take size) := by
            rw [← List.take_append_drop size left] at hm
            exact (holds_append.mp hm).1
          have h := value_readBlock hholds
          rwa [htake, Int.add_assoc] at h
        simp only [← hsize, if_neg hin, within_bind, within_pure, and_true, value_bind, value_pure,
          decide_eq_true_eq, hblock]
        refine ⟨within_readBlock m (by omega) (by omega), ?_⟩
        constructor
        · intro h
          refine ⟨left.take size, ⟨left.drop size, by omega, ?_⟩, h⟩
          rw [htake, List.take_append_drop, hsize, two_octets]
          rfl
        · rintro ⟨template, ⟨rest, htemplate, heq⟩, h⟩
          obtain ⟨hsame, hrest⟩ := sized_eq htemplate heq
          rw [hrest, hsize, hsame, List.take_left]
          exact h

/-- What the claimed check is about: two sizes that fit, and the digest of the second content. -/
def TemplateMatches (session : Session) (area : Bytes) : Prop :=
  ∃ template, TemplateIn area template ∧ session.u1 = H.hash session.authHashAlg template

theorem templateMatches_iff {first left : Bytes} (hfirst : first.length < 2 ^ 16) :
    TemplateMatches H session (be 2 first.length ++ (first ++ left)) ↔
      ∃ template, TemplateFirst left template ∧ session.u1 = H.hash session.authHashAlg template := by
  constructor
  · rintro ⟨template, ⟨first', rest, hfirst', htemplate, heq⟩, h⟩
    obtain ⟨hsize, heq⟩ := List.append_inj heq (by simp only [be_length])
    have hlen : first.length = first'.length := by
      rw [← fromBe_be (w := 2) (n := first.length) (by omega), hsize, fromBe_be (by omega)]
    exact ⟨template, ⟨rest, htemplate, (List.append_inj heq hlen).2⟩, h⟩
  · rintro ⟨template, ⟨rest, htemplate, rfl⟩, h⟩
    exact ⟨template, ⟨first, rest, hfirst, htemplate, rfl⟩, h⟩

/-- The answer is the right one and nothing outside of the parameters is read, exactly where the size of the
first parameter does not lead out of them. -/
theorem compareTemplateHash_iff (area : Bytes) (beyond : Int → UInt8) (hcode : hasTemplate code)
    (hsize : area.length < 2 ^ 31) :
    ((compareTemplateHash H (layout area beyond) code area.length session).Within 0 area.length ∧
        ((compareTemplateHash H (layout area beyond) code area.length session).value = true ↔
          TemplateMatches H session area)) ↔ FirstFits area := by
  have hm := layout_holds area beyond
  generalize layout area beyond = m at hm
  have hdef : compareTemplateHash H m code area.length session = (do
      match ← uint16Unmarshal m ⟨0, area.length⟩ with
      | none => pure false
      | some (size, c) => afterFirst H m session (c.buffer + size) (c.size - size)) := by
    rw [compareTemplateHash, if_neg (not_not.mpr hcode)]
    rfl
  rw [hdef]
  match area, hm, hsize with
  | [], _, _ | [_], _, _ =>
      rw [uint16Unmarshal_short (by simp) (by simp)]
      refine iff_of_true ⟨within_pure _, iff_of_false nofun ?_⟩ (.inl (by simp))
      rintro ⟨template, ⟨first, rest, -, -, heq⟩, -⟩
      have hlen := congrArg List.length heq
      simp only [List.length_append, be_length, List.length_cons, List.length_nil] at hlen
      omega
  | high :: low :: left, hm, hsize =>
      obtain ⟨hhigh, hm⟩ := holds_cons.mp hm
      obtain ⟨hlow, hm⟩ := holds_cons.mp hm
      have hlen : (high :: low :: left).length = left.length + 2 := rfl
      have hlt₁ := high.toNat_lt
      have hlt₂ := low.toNat_lt
      have hnot : ¬ asUint32 ((high :: low :: left).length : Int) < 2 := by
        rw [asUint32_of_nonneg (by omega) (by omega)]
        omega
      have hvalue := uint16Unmarshal_reads hnot hhigh hlow
      have hwithin := (uint16Unmarshal_within (m := m) 0 (high :: low :: left).length hnot).mpr
        ⟨Int.le_refl 0, by omega⟩
      simp only [within_bind, value_bind, hvalue, hwithin, true_and, FirstFits, fromBe_two]
      by_cases hfit : high.toNat * 256 + low.toNat ≤ left.length
      · -- the first parameter fits, and the rest of the check stays behind it
        obtain ⟨first, rest, rfl, hfirst⟩ : ∃ first rest, left = first ++ rest ∧
            high.toNat * 256 + low.toNat = first.length :=
          ⟨_, _, (List.take_append_drop _ left).symm, (List.length_take_of_le hfit).symm⟩
        have hrest := (holds_append.mp hm).2
        have hspec := afterFirst_spec H session hrest
          (by rw [List.length_cons, List.length_cons, List.length_append] at hsize; omega) (by omega)
        have hat : (0 : Int) + 2 + ((high.toNat * 256 + low.toNat : Nat) : Int) = 0 + 1 + 1 + first.length := by
          omega
        have hleft : ((high :: low :: (first ++ rest)).length : Int) - 2 -
            ((high.toNat * 256 + low.toNat : Nat) : Int) = rest.length := by
          rw [List.length_append] at hlen
          omega
        have hend : (0 : Int) + 1 + 1 + first.length + rest.length = ((high :: low :: (first ++ rest)).length : Int) := by
          rw [List.length_append] at hlen
          omega
        rw [hat, hleft]
        rw [hend] at hspec
        refine iff_of_true ⟨hspec.1, hspec.2.trans ?_⟩ (.inr (by omega))
        have hpair : high :: low :: (first ++ rest) = be 2 first.length ++ (first ++ rest) := by
          rw [← hfirst, two_octets]
          rfl
        rw [hpair]
        exact (templateMatches_iff H (by omega)).symm
      · -- the size that is left is negative, and the next size is read at the pointer all the same
        refine iff_of_false ?_ (by omega)
        rintro ⟨hin, -⟩
        have hneg := asUint32_of_neg (((high :: low :: left).length : Int) - 2 -
          ((high.toNat * 256 + low.toNat : Nat) : Int)) (by omega) (by omega)
        have hout := (uint16Unmarshal_within _ _ hneg).mp (within_bind.mp hin).1
        omega

/-! ## The check in the model of policy sessions -/

theorem readSized_ok_iff {bs x rest : Bytes} :
    AuthorizedCommand.readSized bs = .ok (x, rest) ↔ x.length < 2 ^ 16 ∧ bs = be 2 x.length ++ (x ++ rest) := by
  constructor
  · intro h
    obtain ⟨size, left, hword, htake⟩ := Reader.bind_eq_ok h
    have hlt := Reader.word_lt hword
    obtain ⟨rfl, hleft⟩ := Reader.take_eq_ok htake
    exact ⟨hlt, by rw [Rewrites.word 2 () hword, hleft]⟩
  · rintro ⟨hlt, rfl⟩
    have hreads : Reads AuthorizedCommand.readSized (be 2 x.length ++ x) x :=
      (Reads.word () (by omega)).bind (Reads.take x ())
    rw [← List.append_assoc]
    exact hreads rest

/-- The template that the check of a policy session takes its digest of. -/
theorem template_eq_some_iff (x : AuthorizedCommand) (template : Bytes) :
    x.template = some template ↔ hasTemplate x.code ∧ TemplateIn x.parameters template := by
  by_cases hcode : hasTemplate x.code
  · have hcodes : x.code = 0x153 ∨ x.code = 0x131 ∨ x.code = 0x191 := hcode
    unfold AuthorizedCommand.template
    rw [if_pos hcodes]
    constructor
    · intro h
      cases hfirst : AuthorizedCommand.readSized x.parameters with
      | error e => rw [hfirst] at h; cases h
      | ok p =>
          obtain ⟨first, rest⟩ := p
          cases hsecond : AuthorizedCommand.readSized rest with
          | error e => simp only [hfirst, hsecond] at h; cases h
          | ok q =>
              obtain ⟨second, left⟩ := q
              simp only [hfirst, hsecond] at h
              obtain rfl := Option.some.inj h
              obtain ⟨hlt₁, heq₁⟩ := readSized_ok_iff.mp hfirst
              obtain ⟨hlt₂, heq₂⟩ := readSized_ok_iff.mp hsecond
              exact ⟨hcode, first, left, hlt₁, hlt₂, by rw [heq₁, heq₂]⟩
    · rintro ⟨-, first, rest, hlt₁, hlt₂, heq⟩
      rw [readSized_ok_iff.mpr ⟨hlt₁, heq⟩]
      dsimp only
      rw [readSized_ok_iff.mpr ⟨hlt₂, rfl⟩]
  · refine iff_of_false ?_ fun h => hcode h.1
    rw [show x.template = none from if_neg hcode]
    exact (Option.some_ne_none template).symm

end

/-! ## Five octets -/

def toyPolicyHash : PolicyHash where
  hash alg _ := List.replicate alg.digestSize 0
  length_eq := zeroDigest_length

/-- `TPM2_Create` with a first parameter of one octet and an empty template. -/
def emptyTemplate : Bytes := [0, 1, 0x5A, 0, 0]

theorem emptyTemplate_compared :
    (compareTemplateHash toyPolicyHash (layout emptyTemplate fun _ => 0) 0x153 emptyTemplate.length
        { authHashAlg := .sha256, policyDigest := [], u1 := List.replicate 32 0 }).Within 0 5 ∧
      ((compareTemplateHash toyPolicyHash (layout emptyTemplate fun _ => 0) 0x153 emptyTemplate.length
        { authHashAlg := .sha256, policyDigest := [], u1 := List.replicate 32 0 }).value = true ↔
        TemplateMatches toyPolicyHash { authHashAlg := .sha256, policyDigest := [], u1 := List.replicate 32 0 }
          emptyTemplate) :=
  (compareTemplateHash_iff toyPolicyHash emptyTemplate (fun _ => 0) (.inl rfl) (by decide)).mpr (.inr (by decide))

/-- The first size is one too large, and two octets behind the parameters are read. -/
theorem oversized_first_reads_beyond :
    ¬ (compareTemplateHash toyPolicyHash (layout [0, 4, 0x5A, 0, 0] fun _ => 0) 0x153 5
        { authHashAlg := .sha256, policyDigest := [] }).Within 0 5 ∧
      (compareTemplateHash toyPolicyHash (layout [0, 4, 0x5A, 0, 0] fun _ => 0) 0x153 5
        { authHashAlg := .sha256, policyDigest := [] }).reads = [0, 1, 6, 7] := by
  have hreads : (compareTemplateHash toyPolicyHash (layout [0, 4, 0x5A, 0, 0] fun _ => 0) 0x153 5
      { authHashAlg := .sha256, policyDigest := [] }).reads = [0, 1, 6, 7] := by decide
  refine ⟨fun h => ?_, hreads⟩
  have h6 := h 6 (by rw [hreads]; decide)
  omega

end PqcTpm
