import PqcTpm.RuntimeAlgorithm

/-!
# Attribute lists

`RuntimeAttributes.c`: restrictions that a profile may switch on. All of them came with the
same `stateFormatLevel`.
-/
namespace PqcTpm
open LevelScan

/-- A row of `s_AttributeProperties`. -/
structure AttributeProperty where
  idx : Nat
  name : CString
  attributeFlags : UInt32
  stateFormatLevel : Nat
  deriving DecidableEq, Repr

/-- `RUNTIME_ATTRIBUTE_*`, by the number of the bit. -/
def attributeFlag (n : UInt32) : UInt32 := 1 <<< n

def attributeProperties : List AttributeProperty :=
  [⟨0, "no-unpadded-encryption".toList, attributeFlag 0, 7⟩,
   ⟨1, "no-sha1-signing".toList, attributeFlag 1, 7⟩,
   ⟨2, "no-sha1-verification".toList, attributeFlag 2, 7⟩,
   ⟨3, "no-sha1-hmac-creation".toList, attributeFlag 3, 7⟩,
   ⟨4, "no-sha1-hmac-verification".toList, attributeFlag 4, 7⟩,
   ⟨5, "no-sha1-hmac".toList, attributeFlag 4 ||| attributeFlag 3, 7⟩,
   ⟨6, "fips-host".toList, attributeFlag 0 ||| attributeFlag 1 ||| attributeFlag 2, 7⟩,
   ⟨7, "drbg-continous-test".toList, attributeFlag 5, 7⟩,
   ⟨8, "pct".toList, attributeFlag 6, 7⟩,
   ⟨9, "no-ecc-key-derivation".toList, attributeFlag 7, 7⟩]

/-- `struct RuntimeAttributes`. -/
@[ext]
structure RuntimeAttributes where
  attributeFlags : UInt32
  enabledAttributesPrint : Nat → Bool
  attributesProfile : Option CString

namespace RuntimeAttributes

/-- `RuntimeAttributesInit`, which frees the stored list. -/
def init : RuntimeAttributes where
  attributeFlags := 0
  enabledAttributesPrint _ := false
  attributesProfile := none

def setAttribute (ra : RuntimeAttributes) (e : AttributeProperty) : RuntimeAttributes :=
  { ra with enabledAttributesPrint := Function.update ra.enabledAttributesPrint e.idx true
            attributeFlags := ra.attributeFlags ||| e.attributeFlags }

/-- One turn of the loop in `RuntimeAttributesSetProfile`. -/
def tokenStep (max : Nat) (token : CString) (ra : RuntimeAttributes) (level : Nat) :
    Result RuntimeAttributes RcCode :=
  match attributeProperties.find? (·.name == token) with
  | none => ⟨ra, level, some .failure⟩
  | some e =>
    if e.stateFormatLevel > max then ⟨ra, level, some .value⟩
    else ⟨ra.setAttribute e, Nat.max level e.stateFormatLevel, none⟩

/-- `RuntimeAttributesSetProfile`. The object it is called on is cleared first. -/
def setProfile (_ra : RuntimeAttributes) (newProfile : Option CString) (level max : Nat) :
    Result RuntimeAttributes RcCode :=
  match newProfile with
  | none => ⟨init, level, none⟩
  | some [] => ⟨init, level, none⟩
  | some (c :: p) =>
    let r := scan (tokenStep max) ((c :: p).splitOn ',') init level
    match r.error with
    | some e => ⟨init, r.level, some e⟩
    | none => ⟨{ r.state with attributesProfile := some (c :: p) }, r.level, none⟩

/-- `RuntimeAttributesSwitchProfile`. -/
def switchProfile (ra : RuntimeAttributes) (newProfile : Option CString) (max : Nat) :
    Option RcCode × RuntimeAttributes × Option CString :=
  let r := { ra with attributesProfile := none }.setProfile newProfile 0 max
  match r.error with
  | none => (none, r.state, ra.attributesProfile)
  | some e => (some e, (r.state.setProfile ra.attributesProfile r.level max).state, none)

/-- `RuntimeAttributeCheckRequired`. -/
def checkRequired (ra : RuntimeAttributes) (flags : UInt32) : Bool :=
  ra.attributeFlags &&& flags == flags

theorem tokenStep_settles (token : CString) :
    Settles fun max ra level => tokenStep max token ra level := by
  intro max ra level h
  unfold tokenStep at h ⊢
  cases hf : attributeProperties.find? (·.name == token) with
  | none => rw [hf] at h; exact absurd h (Option.some_ne_none _)
  | some e =>
      simp only [hf] at h ⊢
      split at h
      · exact absurd h (Option.some_ne_none _)
      · rename_i he
        rw [if_neg he]
        refine ⟨Nat.le_max_left _ _, fun m k hl _ hk => ?_⟩
        have hem : e.stateFormatLevel ≤ m := Nat.le_trans (Nat.le_max_right _ _) hl
        rw [if_neg (Nat.not_lt_of_le hem)]
        exact ⟨rfl, rfl, Nat.le_max_left _ _, Nat.max_le.mpr ⟨hk, hem⟩⟩

theorem setProfile_settles (newProfile : Option CString) :
    Settles fun max ra level => setProfile ra newProfile level max := by
  intro max ra level h
  cases newProfile with
  | none => exact ⟨Nat.le_refl level, fun m k _ _ hk => ⟨rfl, rfl, Nat.le_refl k, hk⟩⟩
  | some p =>
      cases p with
      | nil => exact ⟨Nat.le_refl level, fun m k _ _ hk => ⟨rfl, rfl, Nat.le_refl k, hk⟩⟩
      | cons c p =>
          simp only [setProfile] at h ⊢
          cases hs : (scan (tokenStep max) ((c :: p).splitOn ',') init level).error with
          | some e => rw [hs] at h; exact absurd h (Option.some_ne_none e)
          | none =>
              simp only
              obtain ⟨hl, hagain⟩ :=
                Settles.scan (f := tokenStep) (fun token _ => tokenStep_settles token) hs
              refine ⟨hl, fun m k hm hmax hk => ?_⟩
              obtain ⟨hok, hst, hkl, hlm⟩ := hagain m k hm hmax hk
              simp only [hok, hst]
              exact ⟨trivial, trivial, hkl, hlm⟩

theorem tokenStep_bound {max : Nat} {token : CString} {ra : RuntimeAttributes} {level : Nat} (h : level ≤ 7) :
    (tokenStep max token ra level).level ≤ 7 := by
  have hrows : ∀ e ∈ attributeProperties, e.stateFormatLevel ≤ 7 := by decide
  unfold tokenStep
  split
  · exact h
  · rename_i e he
    split
    · exact h
    · exact Nat.max_le.mpr ⟨h, hrows e (List.mem_of_find?_eq_some he)⟩

theorem setProfile_bound (ra : RuntimeAttributes) (newProfile : Option CString) (max : Nat) {level : Nat}
    (h : level ≤ 7) : (ra.setProfile newProfile level max).level ≤ 7 := by
  cases newProfile with
  | none => exact h
  | some p =>
      cases p with
      | nil => exact h
      | cons c p =>
          have hscan : (scan (tokenStep max) ((c :: p).splitOn ',') init level).level ≤ 7 :=
            scan_keeps (P := fun (_ : RuntimeAttributes) l => l ≤ 7)
              (fun _ _ _ _ hl => tokenStep_bound hl) h
          simp only [setProfile]
          split
          · exact hscan
          · exact hscan

theorem setProfile_eq (ra ra' : RuntimeAttributes) (newProfile : Option CString) (level max : Nat) :
    ra.setProfile newProfile level max = ra'.setProfile newProfile level max := rfl

/-! ## What a list stands for -/

/-- The list names rows of the table that the maximum admits. -/
def accepts (max : Nat) (p : CString) : Prop :=
  p = [] ∨ ∀ token ∈ p.splitOn ',', ∃ e, attributeProperties.find? (·.name == token) = some e ∧
    e.stateFormatLevel ≤ max

/-- The row that a token names is switched on. -/
def setToken (ra : RuntimeAttributes) (token : CString) : RuntimeAttributes :=
  match attributeProperties.find? (·.name == token) with
  | none => ra
  | some e => ra.setAttribute e

/-- The object that a list stands for; the empty list is not kept. -/
def listed (p : CString) : RuntimeAttributes :=
  if p = [] then init else { (p.splitOn ',').foldl setToken init with attributesProfile := some p }

theorem tokenStep_ok_iff {max : Nat} {token : CString} {ra : RuntimeAttributes} {level : Nat} :
    (tokenStep max token ra level).error = none ↔
      ∃ e, attributeProperties.find? (·.name == token) = some e ∧ e.stateFormatLevel ≤ max := by
  unfold tokenStep
  cases attributeProperties.find? (·.name == token) with
  | none => exact ⟨fun h => absurd h (Option.some_ne_none _), fun ⟨e, he, _⟩ => by cases he⟩
  | some e =>
      simp only [Option.some.injEq, exists_eq_left']
      split
      · rename_i he
        exact ⟨fun h => absurd h (Option.some_ne_none _), fun h => absurd he (Nat.not_lt_of_le h)⟩
      · rename_i he
        exact ⟨fun _ => Nat.le_of_not_lt he, fun _ => rfl⟩

theorem tokenStep_state {max : Nat} {token : CString} {ra : RuntimeAttributes} {level : Nat}
    (h : (tokenStep max token ra level).error = none) :
    (tokenStep max token ra level).state = ra.setToken token := by
  obtain ⟨e, he, hle⟩ := tokenStep_ok_iff.mp h
  unfold tokenStep setToken
  simp only [he, if_neg (Nat.not_lt_of_le hle)]

theorem setProfile_ok_iff (ra : RuntimeAttributes) (p : CString) (level max : Nat) :
    (ra.setProfile (some p) level max).error = none ↔ accepts max p := by
  unfold accepts
  cases p with
  | nil => exact ⟨fun _ => .inl rfl, fun _ => rfl⟩
  | cons c p =>
      have hscan : (scan (tokenStep max) ((c :: p).splitOn ',') init level).error = none ↔ _ :=
        scan_ok_iff fun t s l => tokenStep_ok_iff
      simp only [List.cons_ne_nil, false_or, ← hscan, setProfile]
      cases (scan (tokenStep max) ((c :: p).splitOn ',') init level).error with
      | none => exact Iff.rfl
      | some e => exact Iff.rfl

theorem setProfile_listed {ra : RuntimeAttributes} {p : CString} {level max : Nat} (h : accepts max p) :
    (ra.setProfile (some p) level max).state = listed p := by
  cases p with
  | nil => rfl
  | cons c p =>
      have hok := (setProfile_ok_iff ra (c :: p) level max).mpr h
      simp only [setProfile] at hok ⊢
      cases he : (scan (tokenStep max) ((c :: p).splitOn ',') init level).error with
      | some e => rw [he] at hok; exact absurd hok (Option.some_ne_none e)
      | none =>
          have hstate := scan_state (f := tokenStep max) (g := setToken) (fun _ _ _ => tokenStep_state) he
          rw [listed, if_neg (List.cons_ne_nil c p), ← hstate]

theorem setProfile_refused {ra : RuntimeAttributes} {p : CString} {level max : Nat} (h : ¬accepts max p) :
    (ra.setProfile (some p) level max).state = init := by
  cases p with
  | nil => rfl
  | cons c p =>
      have hok := mt (setProfile_ok_iff ra (c :: p) level max).mp h
      simp only [setProfile] at hok ⊢
      cases he : (scan (tokenStep max) ((c :: p).splitOn ',') init level).error with
      | some e => rfl
      | none => rw [he] at hok; exact absurd rfl hok

end RuntimeAttributes

end PqcTpm
