import PqcTpm.Lib.LevelScan
import PqcTpm.Lib.TextFields
import PqcTpm.Types

/-!
# Algorithm profiles

`RuntimeAlgorithm.c`: the algorithms, key sizes and curves that a profile enables, read from
a list of names. Only what is compiled in has a row here (`.name != NULL`).
-/
namespace PqcTpm
open LevelScan TextFields

/-- A C string, without the terminating zero. -/
abbrev CString := List Char

/-- `.u` in `s_AlgorithmProperties`. -/
inductive KeySizeRule
  | none
  | keySizes
  | minKeySize (stateFormatLevel : Nat)
  deriving DecidableEq, Repr

structure AlgorithmProperty where
  algId : Nat
  name : CString
  u : KeySizeRule
  canBeDisabled : Bool
  stateFormatLevel : Nat
  deriving DecidableEq, Repr

def algorithmProperties : List AlgorithmProperty :=
  [⟨TpmAlg.rsa, "rsa".toList, .keySizes, false, 1⟩,
   ⟨TpmAlg.tdes, "tdes".toList, .keySizes, true, 1⟩,
   ⟨TpmAlg.sha1, "sha1".toList, .none, true, 1⟩,
   ⟨TpmAlg.hmac, "hmac".toList, .minKeySize 7, false, 1⟩,
   ⟨TpmAlg.aes, "aes".toList, .keySizes, false, 1⟩,
   ⟨TpmAlg.mgf1, "mgf1".toList, .none, false, 1⟩,
   ⟨TpmAlg.keyedhash, "keyedhash".toList, .none, false, 1⟩,
   ⟨TpmAlg.xor, "xor".toList, .none, false, 1⟩,
   ⟨TpmAlg.sha256, "sha256".toList, .none, false, 1⟩,
   ⟨TpmAlg.sha384, "sha384".toList, .none, false, 1⟩,
   ⟨TpmAlg.sha512, "sha512".toList, .none, true, 1⟩,
   ⟨TpmAlg.null, "null".toList, .none, false, 1⟩,
   ⟨TpmAlg.rsassa, "rsassa".toList, .none, true, 1⟩,
   ⟨TpmAlg.rsaes, "rsaes".toList, .none, true, 1⟩,
   ⟨TpmAlg.rsapss, "rsapss".toList, .none, true, 1⟩,
   ⟨TpmAlg.oaep, "oaep".toList, .none, false, 1⟩,
   ⟨TpmAlg.ecdsa, "ecdsa".toList, .none, false, 1⟩,
   ⟨TpmAlg.ecdh, "ecdh".toList, .none, false, 1⟩,
   ⟨TpmAlg.ecdaa, "ecdaa".toList, .none, true, 1⟩,
   ⟨TpmAlg.sm2, "sm2".toList, .none, true, 1⟩,
   ⟨TpmAlg.ecschnorr, "ecschnorr".toList, .none, true, 1⟩,
   ⟨TpmAlg.ecmqv, "ecmqv".toList, .none, true, 1⟩,
   ⟨TpmAlg.kdf1Sp80056a, "kdf1-sp800-56a".toList, .none, false, 1⟩,
   ⟨TpmAlg.kdf2, "kdf2".toList, .none, false, 1⟩,
   ⟨TpmAlg.kdf1Sp800108, "kdf1-sp800-108".toList, .none, false, 1⟩,
   ⟨TpmAlg.ecc, "ecc".toList, .keySizes, false, 1⟩,
   ⟨TpmAlg.symcipher, "symcipher".toList, .none, false, 1⟩,
   ⟨TpmAlg.camellia, "camellia".toList, .keySizes, true, 1⟩,
   ⟨TpmAlg.cmac, "cmac".toList, .none, true, 1⟩,
   ⟨TpmAlg.ctr, "ctr".toList, .none, true, 1⟩,
   ⟨TpmAlg.ofb, "ofb".toList, .none, true, 1⟩,
   ⟨TpmAlg.cbc, "cbc".toList, .none, true, 1⟩,
   ⟨TpmAlg.cfb, "cfb".toList, .none, false, 1⟩,
   ⟨TpmAlg.ecb, "ecb".toList, .none, true, 1⟩,
   ⟨TpmAlg.mlkem, "mlkem".toList, .none, true, 1⟩,
   ⟨TpmAlg.mldsa, "mldsa".toList, .none, true, 1⟩,
   ⟨TpmAlg.hashMldsa, "hash-mldsa".toList, .none, true, 1⟩]

/-- A row of `s_EccAlgorithmProperties`. -/
structure EccAlgorithmProperty where
  curve : EccCurve
  name : CString
  canBeDisabled : Bool
  stateFormatLevel : Nat
  deriving DecidableEq, Repr

def eccAlgorithmProperties : List EccAlgorithmProperty :=
  [⟨.nistP192, "ecc-nist-p192".toList, true, 1⟩,
   ⟨.nistP224, "ecc-nist-p224".toList, true, 1⟩,
   ⟨.nistP256, "ecc-nist-p256".toList, false, 1⟩,
   ⟨.nistP384, "ecc-nist-p384".toList, false, 1⟩,
   ⟨.nistP521, "ecc-nist-p521".toList, true, 1⟩,
   ⟨.bnP256, "ecc-bn-p256".toList, true, 1⟩,
   ⟨.bnP638, "ecc-bn-p638".toList, true, 1⟩,
   ⟨.sm2P256, "ecc-sm2-p256".toList, true, 1⟩]

/-- `s_EccShortcuts`: the bit, the name and the start of the names it stands for. -/
def eccShortcuts : List (Nat × CString × CString) :=
  [(0, "ecc-nist".toList, "ecc-nist-p".toList), (1, "ecc-bn".toList, "ecc-bn-p".toList)]

/-- `struct RuntimeAlgorithm`. -/
@[ext]
structure RuntimeAlgorithm where
  algosMinimumKeySizes : Nat → Nat
  enabledAlgorithms : Nat → Bool
  enabledEccShortcuts : Nat → Bool
  enabledEccCurves : Nat → Bool
  algorithmProfile : Option CString

namespace RuntimeAlgorithm

/-- The object in zeroed memory. -/
def zero : RuntimeAlgorithm where
  algosMinimumKeySizes _ := 0
  enabledAlgorithms _ := false
  enabledEccShortcuts _ := false
  enabledEccCurves _ := false
  algorithmProfile := none

/-- `algsWithKeySizes`; SM4 is not compiled in and has the minimum 0. -/
def algsWithKeySizes : List Nat := [TpmAlg.rsa, TpmAlg.tdes, TpmAlg.aes, TpmAlg.camellia]

/-- `KeySizesGetMinimum`. -/
def keySizesGetMinimum (sizes : List (Nat × Nat)) : Nat := (sizes.head?.map Prod.fst).getD 0

/-- What `RuntimeAlgorithmInit` writes to `algosMinimumKeySizes`. -/
def initialKeySizes (algId : Nat) : Nat :=
  if algId ∈ algsWithKeySizes then keySizesGetMinimum (RuntimeProfile.keySizes algId) else 0

/-- `RuntimeAlgorithmInit`. -/
def init (ra : RuntimeAlgorithm) : RuntimeAlgorithm :=
  { ra with algosMinimumKeySizes := initialKeySizes }

/-- `RuntimeAlgorithmSetDefault`. -/
def setDefault (ra : RuntimeAlgorithm) : RuntimeAlgorithm :=
  { ra.init with
    algorithmProfile := none
    enabledAlgorithms := fun algId => algorithmProperties.any (·.algId == algId)
    enabledEccCurves := fun curveId => eccAlgorithmProperties.any (·.curve.id == curveId) }

def setAlgorithm (ra : RuntimeAlgorithm) (algId : Nat) : RuntimeAlgorithm :=
  { ra with enabledAlgorithms := Function.update ra.enabledAlgorithms algId true }

def setMinimum (ra : RuntimeAlgorithm) (algId size : Nat) : RuntimeAlgorithm :=
  { ra with algosMinimumKeySizes := Function.update ra.algosMinimumKeySizes algId size }

def setShortcut (ra : RuntimeAlgorithm) (idx : Nat) : RuntimeAlgorithm :=
  { ra with enabledEccShortcuts := Function.update ra.enabledEccShortcuts idx true }

def setCurve (ra : RuntimeAlgorithm) (curveId : Nat) : RuntimeAlgorithm :=
  { ra with enabledEccCurves := Function.update ra.enabledEccCurves curveId true }

end RuntimeAlgorithm

/-! ## A token of the list -/

/-- What a token asks for. -/
inductive AlgorithmRequest
  | algorithm (e : AlgorithmProperty)
  /-- `hmac-min-key-size=`. -/
  | minKeySize (algId stateFormatLevel : Nat) (arg : Strtoul)
  /-- `<name>-min-size=`. -/
  | minSize (algId : Nat) (arg : Strtoul)
  | eccShortcut (idx : Nat) (start : CString)
  | ecc (name : CString)
  deriving DecidableEq, Repr

/-- The text behind `start`. -/
def afterStart (start token : CString) : Option CString :=
  if start.isPrefixOf token then some (token.drop start.length) else none

def AlgorithmProperty.request? (e : AlgorithmProperty) (token : CString) : Option AlgorithmRequest :=
  if token = e.name then some (.algorithm e)
  else match e.u with
    | .minKeySize level =>
      (afterStart (e.name ++ "-min-key-size=".toList) token).map fun s => .minKeySize e.algId level (strtoul s 10)
    | .keySizes =>
      (afterStart (e.name ++ "-min-size=".toList) token).map fun s => .minSize e.algId (strtoul s 10)
    | .none => none

def algorithmRequest (token : CString) : AlgorithmRequest :=
  match algorithmProperties.findSome? (·.request? token) with
  | some r => r
  | none =>
    match eccShortcuts.find? (fun s => s.2.1 == token) with
    | some (idx, _, start) => .eccShortcut idx start
    | none => .ecc token

namespace AlgorithmRequest
open RuntimeAlgorithm

/-- A curve in the loop over `s_EccAlgorithmProperties`; `one` is `match_one`. -/
def curveStep (one : Bool) (found : EccAlgorithmProperty → Bool) (max : Nat) (c : EccAlgorithmProperty)
    (ra : RuntimeAlgorithm) (level : Nat) : Result RuntimeAlgorithm RcCode :=
  if found c then
    if c.stateFormatLevel > max then ⟨ra, level, if one then some .value else none⟩
    else ⟨ra.setCurve c.curve.id, Nat.max level c.stateFormatLevel, none⟩
  else ⟨ra, level, none⟩

def curves (one : Bool) (found : EccAlgorithmProperty → Bool) (max : Nat) (ra : RuntimeAlgorithm)
    (level : Nat) : Result RuntimeAlgorithm RcCode :=
  let r := scan (curveStep one found max) eccAlgorithmProperties ra level
  match r.error with
  | some e => ⟨r.state, r.level, some e⟩
  | none =>
    if eccAlgorithmProperties.any (fun c => found c && decide (c.stateFormatLevel ≤ max)) then r
    else ⟨r.state, r.level, some .value⟩

/-- The key sizes from `size` on that the maximum admits push the level up. -/
def sizesLevel (algId size max level : Nat) : Nat :=
  (RuntimeProfile.keySizes algId).foldl
    (fun l k => if size ≤ k.1 ∧ k.2 ≤ max then Nat.max l k.2 else l) level

/-- One turn of the loop in `RuntimeAlgorithmSetProfile`. -/
def perform (max : Nat) (r : AlgorithmRequest) (ra : RuntimeAlgorithm) (level : Nat) :
    Result RuntimeAlgorithm RcCode :=
  match r with
  | .algorithm e =>
    if e.stateFormatLevel > max then ⟨ra, level, some .value⟩
    else ⟨ra.setAlgorithm e.algId, Nat.max level e.stateFormatLevel, none⟩
  | .minKeySize algId need arg =>
    -- MAX_SYM_DATA * 8; the level is not compared with the maximum
    if arg.endptr ≠ [] ∨ arg.value > 1024 then ⟨ra, level, some .keySize⟩
    else ⟨ra.setMinimum algId arg.value, Nat.max level need, none⟩
  | .minSize algId arg =>
    if arg.endptr ≠ [] ∨ arg.value > 4096 then ⟨ra, level, some .keySize⟩
    else ⟨ra.setMinimum algId arg.value, sizesLevel algId arg.value max level, none⟩
  | .eccShortcut idx start => curves false (fun c => start.isPrefixOf c.name) max (ra.setShortcut idx) level
  | .ecc name => curves true (fun c => c.name == name) max ra level

/-- The algorithm whose minimum key size the request sets, and the size. -/
def size? : AlgorithmRequest → Option (Nat × Nat)
  | .minKeySize algId _ arg => some (algId, arg.value)
  | .minSize algId arg => some (algId, arg.value)
  | _ => none

end AlgorithmRequest

namespace RuntimeAlgorithm

/-- `c` is the curve `curveId`, it can be switched off, and its keys are too small. -/
def belowMinimum (ra : RuntimeAlgorithm) (curveId : Nat) (c : EccAlgorithmProperty) : Bool :=
  c.curve.id == curveId && c.canBeDisabled &&
    decide (ra.algosMinimumKeySizes TpmAlg.ecc > c.curve.keySize)

/-- The checks behind the loop, with the curves below the minimum key size switched off. -/
def reconcile (ra : RuntimeAlgorithm) : Except RcCode RuntimeAlgorithm :=
  if algorithmProperties.any (fun e => !e.canBeDisabled && !ra.enabledAlgorithms e.algId) then
    .error .value
  else if eccAlgorithmProperties.any (fun c => !c.canBeDisabled && !ra.enabledEccCurves c.curve.id) then
    .error .value
  else if ra.algosMinimumKeySizes TpmAlg.aes > 128 ∧ ra.algosMinimumKeySizes TpmAlg.rsa = 2048 then
    .error .keySize
  else .ok { ra with enabledEccCurves := fun curveId =>
      ra.enabledEccCurves curveId && !eccAlgorithmProperties.any (ra.belowMinimum curveId) }

def tokenStep (max : Nat) (token : CString) (ra : RuntimeAlgorithm) (level : Nat) :
    Result RuntimeAlgorithm RcCode :=
  (algorithmRequest token).perform max ra level

/-- The list of tokens carried out on cleared bit maps. -/
def scanTokens (ra : RuntimeAlgorithm) (newProfile : CString) (level max : Nat) :
    Result RuntimeAlgorithm RcCode :=
  scan (tokenStep max) (newProfile.splitOn ',')
    { ra with enabledAlgorithms := fun _ => false
              enabledEccCurves := fun _ => false
              enabledEccShortcuts := fun _ => false } level

/-- `RuntimeAlgorithmSetProfile`. -/
def setProfile (ra : RuntimeAlgorithm) (newProfile : Option CString) (level max : Nat) :
    Result RuntimeAlgorithm RcCode :=
  match newProfile with
  | none => ⟨ra.setDefault, level, none⟩
  | some p =>
    let r := ra.scanTokens p level max
    match r.error with
    | some e => ⟨r.state.setDefault, r.level, some e⟩
    | none =>
      match r.state.reconcile with
      | .error e => ⟨r.state.setDefault, r.level, some e⟩
      | .ok ra => ⟨{ ra with algorithmProfile := some p }, r.level, none⟩

/-- `RuntimeAlgorithmSwitchProfile`, with the old profile that is handed back. -/
def switchProfile (ra : RuntimeAlgorithm) (newProfile : Option CString) (max : Nat) :
    Option RcCode × RuntimeAlgorithm × Option CString :=
  let r := { ra with algorithmProfile := none }.setProfile newProfile 0 max
  match r.error with
  | none => (none, r.state, ra.algorithmProfile)
  | some e => (some e, (r.state.setProfile ra.algorithmProfile r.level max).state, none)

/-- `RuntimeAlgorithmCheckEnabled`; an identifier behind the bit map has no bit. -/
def checkEnabled (ra : RuntimeAlgorithm) (algId : Nat) : Bool := ra.enabledAlgorithms algId

/-- `RuntimeAlgorithmKeySizeCheckEnabled`. An algorithm without a table of key sizes is asked for
through a null pointer. -/
def keySizeCheckEnabled (ra : RuntimeAlgorithm) (algId keySizeInBits curveId max : Nat) :
    Except Fault Bool :=
  if !ra.checkEnabled algId then .ok false
  else if ra.algosMinimumKeySizes algId > keySizeInBits then .ok false
  else match (algorithmProperties.find? (·.algId == algId)).map AlgorithmProperty.u with
    | some (.minKeySize _) => .ok true
    | some .keySizes =>
      if algId = TpmAlg.ecc ∧ ra.enabledEccCurves curveId = false then .ok false
      else match (RuntimeProfile.keySizes algId).find? (·.1 == keySizeInBits) with
        | some k => .ok (decide (k.2 ≤ max))
        | none => .ok true
    | _ => .error .overrun

end RuntimeAlgorithm

/-! ## Under a smaller maximum -/

namespace AlgorithmRequest

theorem curveStep_settles (one : Bool) (found : EccAlgorithmProperty → Bool) (c : EccAlgorithmProperty) :
    Settles fun max ra level => curveStep one found max c ra level := by
  intro max ra level h
  unfold curveStep at h ⊢
  cases hf : found c with
  | false =>
      simp only [Bool.false_eq_true, if_false]
      exact ⟨Nat.le_refl level, fun m k _ _ hk => ⟨trivial, trivial, Nat.le_refl k, hk⟩⟩
  | true =>
      simp only [hf, if_true] at h ⊢
      by_cases hc : c.stateFormatLevel > max
      · simp only [if_pos hc] at h ⊢
        refine ⟨Nat.le_refl level, fun m k _ hm hk => ?_⟩
        rw [if_pos (Nat.lt_of_le_of_lt hm hc)]
        exact ⟨h, rfl, Nat.le_refl k, hk⟩
      · simp only [if_neg hc]
        refine ⟨Nat.le_max_left _ _, fun m k hl _ hk => ?_⟩
        have hcm : c.stateFormatLevel ≤ m := Nat.le_trans (Nat.le_max_right _ _) hl
        rw [if_neg (Nat.not_lt_of_le hcm)]
        exact ⟨rfl, rfl, Nat.le_max_left _ _, Nat.max_le.mpr ⟨hk, hcm⟩⟩

theorem curves_ok {one : Bool} {found : EccAlgorithmProperty → Bool} {max : Nat} {ra : RuntimeAlgorithm}
    {level : Nat} (h : (curves one found max ra level).error = none) :
    (scan (curveStep one found max) eccAlgorithmProperties ra level).error = none ∧
      (∃ c ∈ eccAlgorithmProperties, found c = true ∧ c.stateFormatLevel ≤ max) ∧
      curves one found max ra level = scan (curveStep one found max) eccAlgorithmProperties ra level := by
  unfold curves at h ⊢
  cases hs : (scan (curveStep one found max) eccAlgorithmProperties ra level).error with
  | some e => simp only [hs] at h; exact absurd h (Option.some_ne_none e)
  | none =>
      simp only [hs] at h ⊢
      split at h
      · rename_i hany
        rw [if_pos hany]
        obtain ⟨c, hc, hfc⟩ := List.any_eq_true.mp hany
        rw [Bool.and_eq_true, decide_eq_true_eq] at hfc
        exact ⟨trivial, ⟨c, hc, hfc⟩, rfl⟩
      · exact absurd h (Option.some_ne_none _)

theorem curves_of_scan {one : Bool} {found : EccAlgorithmProperty → Bool} {max : Nat}
    {ra : RuntimeAlgorithm} {level : Nat}
    (hs : (scan (curveStep one found max) eccAlgorithmProperties ra level).error = none)
    (hc : ∃ c ∈ eccAlgorithmProperties, found c = true ∧ c.stateFormatLevel ≤ max) :
    curves one found max ra level = scan (curveStep one found max) eccAlgorithmProperties ra level := by
  obtain ⟨c, hc, hf, hle⟩ := hc
  have hany : eccAlgorithmProperties.any (fun c => found c && decide (c.stateFormatLevel ≤ max)) = true :=
    List.any_eq_true.mpr ⟨c, hc, by rw [hf, decide_eq_true hle]; rfl⟩
  unfold curves
  simp only [hs]
  rw [if_pos hany]

theorem curve_level {one : Bool} {found : EccAlgorithmProperty → Bool} {max : Nat}
    {cs : List EccAlgorithmProperty} {c : EccAlgorithmProperty} (hc : c ∈ cs) (hf : found c = true)
    (hle : c.stateFormatLevel ≤ max) {ra : RuntimeAlgorithm} {level : Nat}
    (h : (scan (curveStep one found max) cs ra level).error = none) :
    c.stateFormatLevel ≤ (scan (curveStep one found max) cs ra level).level := by
  induction cs generalizing ra level with
  | nil => exact absurd hc List.not_mem_nil
  | cons d cs ih =>
      have hd := scan_cons_error_none h
      rw [scan_cons_ok hd] at h ⊢
      rcases List.mem_cons.mp hc with rfl | hc
      · have hset : (curveStep one found max c ra level).level = Nat.max level c.stateFormatLevel := by
          simp only [curveStep, hf, if_true, if_neg (Nat.not_lt_of_le hle)]
        refine Nat.le_trans ?_ ((Settles.scan fun d _ => curveStep_settles one found d) h).1
        rw [hset]
        exact Nat.le_max_right _ _
      · exact ih hc h

theorem curves_settles (one : Bool) (found : EccAlgorithmProperty → Bool) :
    Settles fun max ra level => curves one found max ra level := by
  intro max ra level h
  simp only at h ⊢
  obtain ⟨hs, ⟨c, hc, hf, hle⟩, heq⟩ := curves_ok h
  rw [heq]
  have hsettle : Settles fun max ra level =>
      scan (curveStep one found max) eccAlgorithmProperties ra level :=
    Settles.scan fun d _ => curveStep_settles one found d
  obtain ⟨hl, hagain⟩ := hsettle hs
  refine ⟨hl, fun m k hm hmax hk => ?_⟩
  obtain ⟨hok, hst, hkl, hlm⟩ := hagain m k hm hmax hk
  have hcm : c.stateFormatLevel ≤ m := Nat.le_trans (curve_level hc hf hle hs) hm
  rw [curves_of_scan hok ⟨c, hc, hf, hcm⟩]
  exact ⟨hok, hst, hkl, hlm⟩

theorem sizesLevel_le {algId size max level : Nat} : level ≤ sizesLevel algId size max level := by
  unfold sizesLevel
  generalize RuntimeProfile.keySizes algId = sizes
  induction sizes generalizing level with
  | nil => exact Nat.le_refl level
  | cons k sizes ih =>
      rw [List.foldl_cons]
      split
      · exact Nat.le_trans (Nat.le_max_left _ _) ih
      · exact ih

theorem sizesLevel_le_max {algId size max level : Nat} (h : level ≤ max) :
    sizesLevel algId size max level ≤ max := by
  unfold sizesLevel
  generalize RuntimeProfile.keySizes algId = sizes
  induction sizes generalizing level with
  | nil => exact h
  | cons k sizes ih =>
      rw [List.foldl_cons]
      split
      · rename_i hk
        exact ih (Nat.max_le.mpr ⟨h, hk.2⟩)
      · exact ih h

theorem perform_settles (r : AlgorithmRequest) : Settles fun max ra level => r.perform max ra level := by
  intro max ra level h
  cases r with
  | algorithm e =>
      simp only [perform] at h ⊢
      split at h
      · exact absurd h (Option.some_ne_none _)
      · rename_i he
        rw [if_neg he]
        refine ⟨Nat.le_max_left _ _, fun m k hl _ hk => ?_⟩
        have hem : e.stateFormatLevel ≤ m := Nat.le_trans (Nat.le_max_right _ _) hl
        rw [if_neg (Nat.not_lt_of_le hem)]
        exact ⟨rfl, rfl, Nat.le_max_left _ _, Nat.max_le.mpr ⟨hk, hem⟩⟩
  | minKeySize algId need arg =>
      simp only [perform] at h ⊢
      split at h
      · exact absurd h (Option.some_ne_none _)
      · rename_i harg
        rw [if_neg harg]
        refine ⟨Nat.le_max_left _ _, fun m k hl _ hk => ?_⟩
        rw [if_neg harg]
        exact ⟨rfl, rfl, Nat.le_max_left _ _,
          Nat.max_le.mpr ⟨hk, Nat.le_trans (Nat.le_max_right _ _) hl⟩⟩
  | minSize algId arg =>
      simp only [perform] at h ⊢
      split at h
      · exact absurd h (Option.some_ne_none _)
      · rename_i harg
        rw [if_neg harg]
        refine ⟨sizesLevel_le, fun m k _ _ hk => ?_⟩
        rw [if_neg harg]
        exact ⟨rfl, rfl, sizesLevel_le, sizesLevel_le_max hk⟩
  | eccShortcut idx start => exact curves_settles false _ h
  | ecc name => exact curves_settles true _ h

/-! ## Key sizes -/

theorem curves_keeps_sizes {one : Bool} {found : EccAlgorithmProperty → Bool} {max : Nat}
    {ra : RuntimeAlgorithm} {level : Nat} :
    (curves one found max ra level).state.algosMinimumKeySizes = ra.algosMinimumKeySizes := by
  have hscan : (scan (curveStep one found max) eccAlgorithmProperties ra level).state.algosMinimumKeySizes =
      ra.algosMinimumKeySizes := by
    have hrefl : ra.algosMinimumKeySizes = ra.algosMinimumKeySizes := rfl
    refine scan_keeps (P := fun (s : RuntimeAlgorithm) _ =>
      s.algosMinimumKeySizes = ra.algosMinimumKeySizes) ?_ hrefl
    intro c _ s l hs
    unfold curveStep
    split
    · split
      · exact hs
      · exact hs
    · exact hs
  unfold curves
  simp only
  split
  · exact hscan
  · split
    · exact hscan
    · exact hscan

/-- The size the request sets, for the algorithm it sets it for. -/
def sizeFor (r : AlgorithmRequest) (algId : Nat) : Option Nat :=
  match r.size? with
  | some (a, size) => if algId = a then some size else none
  | none => none

theorem perform_sizes {r : AlgorithmRequest} {max : Nat} {ra : RuntimeAlgorithm} {level : Nat}
    (h : (r.perform max ra level).error = none) :
    (r.perform max ra level).state.algosMinimumKeySizes =
      fun algId => (r.sizeFor algId).getD (ra.algosMinimumKeySizes algId) := by
  funext algId
  cases r with
  | algorithm e =>
      simp only [perform]
      split
      · rfl
      · rfl
  | minKeySize a need arg =>
      simp only [perform] at h ⊢
      split at h
      · exact absurd h (Option.some_ne_none _)
      · rename_i harg
        rw [if_neg harg]
        simp only [RuntimeAlgorithm.setMinimum, sizeFor, size?, Function.update_apply]
        split
        · rfl
        · rfl
  | minSize a arg =>
      simp only [perform] at h ⊢
      split at h
      · exact absurd h (Option.some_ne_none _)
      · rename_i harg
        rw [if_neg harg]
        simp only [RuntimeAlgorithm.setMinimum, sizeFor, size?, Function.update_apply]
        split
        · rfl
        · rfl
  | eccShortcut idx start => exact congrFun curves_keeps_sizes algId
  | ecc name => exact congrFun curves_keeps_sizes algId

end AlgorithmRequest

/-! ## What a list of tokens does depends on the list -/

/-- The same algorithms, shortcuts and curves switched on. -/
structure RuntimeAlgorithm.SameLists (ra ra' : RuntimeAlgorithm) : Prop where
  algorithms : ra.enabledAlgorithms = ra'.enabledAlgorithms
  shortcuts : ra.enabledEccShortcuts = ra'.enabledEccShortcuts
  curves : ra.enabledEccCurves = ra'.enabledEccCurves

namespace AlgorithmRequest
open RuntimeAlgorithm

theorem curves_agree {one : Bool} {found : EccAlgorithmProperty → Bool} {max : Nat}
    {ra ra' : RuntimeAlgorithm} {level : Nat} (h : SameLists ra ra') :
    (curves one found max ra level).Agree SameLists (curves one found max ra' level) := by
  have hscan : (scan (curveStep one found max) eccAlgorithmProperties ra level).Agree SameLists
      (scan (curveStep one found max) eccAlgorithmProperties ra' level) := by
    refine scan_agree ?_ h
    intro c s s' l hs
    unfold curveStep
    split
    · split
      · exact ⟨hs, rfl, rfl⟩
      · refine ⟨⟨hs.algorithms, hs.shortcuts, ?_⟩, rfl, rfl⟩
        simp only [setCurve, hs.curves]
    · exact ⟨hs, rfl, rfl⟩
  unfold curves
  simp only
  rw [← hscan.error]
  split
  · exact ⟨hscan.state, hscan.level, rfl⟩
  · split
    · exact hscan
    · exact ⟨hscan.state, hscan.level, rfl⟩

theorem perform_agree {r : AlgorithmRequest} {max : Nat} {ra ra' : RuntimeAlgorithm} {level : Nat}
    (h : SameLists ra ra') : (r.perform max ra level).Agree SameLists (r.perform max ra' level) := by
  cases r with
  | algorithm e =>
      simp only [perform]
      split
      · exact ⟨h, rfl, rfl⟩
      · refine ⟨⟨?_, h.shortcuts, h.curves⟩, rfl, rfl⟩
        simp only [setAlgorithm, h.algorithms]
  | minKeySize a need arg =>
      simp only [perform]
      split
      · exact ⟨h, rfl, rfl⟩
      · exact ⟨⟨h.algorithms, h.shortcuts, h.curves⟩, rfl, rfl⟩
  | minSize a arg =>
      simp only [perform]
      split
      · exact ⟨h, rfl, rfl⟩
      · exact ⟨⟨h.algorithms, h.shortcuts, h.curves⟩, rfl, rfl⟩
  | eccShortcut idx start =>
      refine curves_agree ⟨h.algorithms, ?_, h.curves⟩
      simp only [setShortcut, h.shortcuts]
  | ecc name => exact curves_agree h

end AlgorithmRequest

namespace RuntimeAlgorithm
open AlgorithmRequest

/-- The last minimum key size that a list of tokens gives to an algorithm. -/
def sizeNamed (algId : Nat) : List CString → Option Nat
  | [] => none
  | token :: tokens => (sizeNamed algId tokens).or ((algorithmRequest token).sizeFor algId)

theorem scan_sizes {max : Nat} {tokens : List CString} {ra : RuntimeAlgorithm} {level : Nat}
    (h : (scan (tokenStep max) tokens ra level).error = none) :
    (scan (tokenStep max) tokens ra level).state.algosMinimumKeySizes =
      fun algId => (sizeNamed algId tokens).getD (ra.algosMinimumKeySizes algId) := by
  induction tokens generalizing ra level with
  | nil => rfl
  | cons token tokens ih =>
      have ht := scan_cons_error_none h
      rw [scan_cons_ok ht] at h ⊢
      rw [ih h, tokenStep, perform_sizes ht]
      funext algId
      cases hn : sizeNamed algId tokens with
      | none => simp only [sizeNamed, hn, Option.none_or, Option.getD_none]
      | some size => simp only [sizeNamed, hn, Option.some_or, Option.getD_some]

theorem scanTokens_agree (ra ra' : RuntimeAlgorithm) (p : CString) (level max : Nat) :
    (ra.scanTokens p level max).Agree SameLists (ra'.scanTokens p level max) :=
  scan_agree (f := tokenStep max) (fun _ _ _ _ h => perform_agree h) ⟨rfl, rfl, rfl⟩

theorem scanTokens_sizes {ra : RuntimeAlgorithm} {p : CString} {level max : Nat}
    (h : (ra.scanTokens p level max).error = none) :
    (ra.scanTokens p level max).state.algosMinimumKeySizes =
      fun algId => (sizeNamed algId (p.splitOn ',')).getD (ra.algosMinimumKeySizes algId) :=
  scan_sizes h

theorem scanTokens_settles (p : CString) :
    Settles fun max ra level => scanTokens ra p level max := by
  intro max ra level h
  exact Settles.scan (f := tokenStep) (fun token _ => perform_settles (algorithmRequest token)) h

theorem setDefault_congr {ra ra' : RuntimeAlgorithm} (h : SameLists ra ra') :
    ra.setDefault = ra'.setDefault := by
  simp only [setDefault, init, h.shortcuts]

theorem reconcile_congr {ra ra' : RuntimeAlgorithm} (p : CString) (h : SameLists ra ra')
    (hsizes : ra.algosMinimumKeySizes = ra'.algosMinimumKeySizes) :
    ra.reconcile.map (fun ra => { ra with algorithmProfile := some p }) =
      ra'.reconcile.map (fun ra => { ra with algorithmProfile := some p }) := by
  obtain ⟨sizes, algs, shortcuts, curves, prof⟩ := ra
  obtain ⟨sizes', algs', shortcuts', curves', prof'⟩ := ra'
  obtain ⟨halgs, hshortcuts, hcurves⟩ := h
  simp only at halgs hshortcuts hcurves hsizes
  subst halgs hshortcuts hcurves hsizes
  unfold reconcile
  simp only
  split
  · rfl
  · split
    · rfl
    · split
      · rfl
      · rfl

/-- The object and the verdict depend on the list and on the sizes that the list does not name. -/
theorem setProfile_congr {ra ra' : RuntimeAlgorithm} {p : CString} {level max : Nat}
    (hsizes : ∀ algId, sizeNamed algId (p.splitOn ',') = none →
      ra.algosMinimumKeySizes algId = ra'.algosMinimumKeySizes algId) :
    ra.setProfile (some p) level max = ra'.setProfile (some p) level max := by
  have hagree := scanTokens_agree ra ra' p level max
  unfold setProfile
  simp only
  cases he : (ra.scanTokens p level max).error with
  | some e =>
      have he' : (ra'.scanTokens p level max).error = some e := hagree.error ▸ he
      simp only [he']
      rw [setDefault_congr hagree.state, hagree.level]
  | none =>
      have he' : (ra'.scanTokens p level max).error = none := hagree.error ▸ he
      have hsame : (ra.scanTokens p level max).state.algosMinimumKeySizes =
          (ra'.scanTokens p level max).state.algosMinimumKeySizes := by
        rw [scanTokens_sizes he, scanTokens_sizes he']
        funext algId
        cases hn : sizeNamed algId (p.splitOn ',') with
        | none => exact hsizes algId hn
        | some size => rfl
      have hrec := reconcile_congr p hagree.state hsame
      simp only [he']
      cases hr : (ra.scanTokens p level max).state.reconcile with
      | error e =>
          cases hr' : (ra'.scanTokens p level max).state.reconcile with
          | error e' =>
              rw [hr, hr'] at hrec
              obtain rfl := Except.error.inj hrec
              simp only [setDefault_congr hagree.state, hagree.level]
          | ok r' => rw [hr, hr'] at hrec; cases hrec
      | ok r =>
          cases hr' : (ra'.scanTokens p level max).state.reconcile with
          | error e' => rw [hr, hr'] at hrec; cases hrec
          | ok r' =>
              rw [hr, hr'] at hrec
              simp only [Except.ok.inj hrec, hagree.level]

theorem setProfile_some_ok {ra : RuntimeAlgorithm} {p : CString} {level max : Nat}
    (h : (ra.setProfile (some p) level max).error = none) :
    (ra.scanTokens p level max).error = none ∧
      ∃ r, (ra.scanTokens p level max).state.reconcile = .ok r ∧
        ra.setProfile (some p) level max =
          ⟨{ r with algorithmProfile := some p }, (ra.scanTokens p level max).level, none⟩ := by
  unfold setProfile at h ⊢
  simp only at h ⊢
  cases he : (ra.scanTokens p level max).error with
  | some e => rw [he] at h; exact absurd h (Option.some_ne_none e)
  | none =>
      rw [he] at h
      simp only at h ⊢
      cases hr : (ra.scanTokens p level max).state.reconcile with
      | error e => rw [hr] at h; exact absurd h (Option.some_ne_none e)
      | ok r => exact ⟨trivial, r, rfl, rfl⟩

theorem setProfile_settles (newProfile : Option CString) :
    Settles fun max ra level => setProfile ra newProfile level max := by
  intro max ra level h
  cases newProfile with
  | none => exact ⟨Nat.le_refl level, fun m k _ _ hk => ⟨rfl, rfl, Nat.le_refl k, hk⟩⟩
  | some p =>
      simp only at h ⊢
      obtain ⟨hs, r, hr, heq⟩ := setProfile_some_ok h
      obtain ⟨hl, hagain⟩ := scanTokens_settles p hs
      rw [heq]
      refine ⟨hl, fun m k hm hmax hk => ?_⟩
      obtain ⟨hok, hst, hkl, hlm⟩ := hagain m k hm hmax hk
      have hset : setProfile ra (some p) k m =
          ⟨{ r with algorithmProfile := some p }, (scanTokens ra p k m).level, none⟩ := by
        unfold setProfile
        simp only [hok, hst, hr]
      rw [hset]
      exact ⟨rfl, rfl, hkl, hlm⟩

theorem reconcile_sizes {ra r : RuntimeAlgorithm} (h : ra.reconcile = .ok r) :
    r.algosMinimumKeySizes = ra.algosMinimumKeySizes := by
  unfold reconcile at h
  split at h
  · cases h
  · split at h
    · cases h
    · split at h
      · cases h
      · rw [← Except.ok.inj h]

theorem setProfile_sizes {ra : RuntimeAlgorithm} {p : CString} {level max : Nat}
    (h : (ra.setProfile (some p) level max).error = none) :
    (ra.setProfile (some p) level max).state.algosMinimumKeySizes =
      fun algId => (sizeNamed algId (p.splitOn ',')).getD (ra.algosMinimumKeySizes algId) := by
  obtain ⟨hs, r, hr, heq⟩ := setProfile_some_ok h
  rw [heq]
  exact (reconcile_sizes hr).trans (scanTokens_sizes hs)

theorem keySizes_level (algId : Nat) : ∀ k ∈ RuntimeProfile.keySizes algId, k.2 ≤ 7 := by
  unfold RuntimeProfile.keySizes
  split
  · decide
  · split
    · decide
    · split
      · decide
      · split
        · decide
        · decide

theorem sizesLevel_bound {algId size max level : Nat} (h : level ≤ 7) :
    sizesLevel algId size max level ≤ 7 := by
  unfold sizesLevel
  have hsizes := keySizes_level algId
  generalize RuntimeProfile.keySizes algId = sizes at hsizes
  induction sizes generalizing level with
  | nil => exact h
  | cons k sizes ih =>
      rw [List.foldl_cons]
      refine ih ?_ fun k' hk' => hsizes k' (List.mem_cons_of_mem k hk')
      split
      · exact Nat.max_le.mpr ⟨h, hsizes k List.mem_cons_self⟩
      · exact h

theorem curves_bound {one : Bool} {found : EccAlgorithmProperty → Bool} {max : Nat} {ra : RuntimeAlgorithm}
    {level : Nat} (h : level ≤ 7) : (curves one found max ra level).level ≤ 7 := by
  have hlevels : ∀ c ∈ eccAlgorithmProperties, c.stateFormatLevel ≤ 7 := by decide
  have hscan : (scan (curveStep one found max) eccAlgorithmProperties ra level).level ≤ 7 := by
    refine scan_keeps (P := fun (_ : RuntimeAlgorithm) l => l ≤ 7) ?_ h
    intro c hc s l hl
    unfold curveStep
    split
    · split
      · exact hl
      · exact Nat.max_le.mpr ⟨hl, hlevels c hc⟩
    · exact hl
  unfold curves
  simp only
  split
  · exact hscan
  · split
    · exact hscan
    · exact hscan

/-- The requests of the tables ask for no level above the current one. -/
theorem algorithmRequest_level (token : CString) :
    (∀ e, algorithmRequest token = .algorithm e → e.stateFormatLevel ≤ 7) ∧
      ∀ algId need arg, algorithmRequest token = .minKeySize algId need arg → need ≤ 7 := by
  have hrows : ∀ e ∈ algorithmProperties, e.stateFormatLevel ≤ 7 ∧
      (e.u = .none ∨ e.u = .keySizes ∨ e.u = .minKeySize 7) := by decide
  unfold algorithmRequest
  split
  · rename_i r hr
    obtain ⟨e, he, hreq⟩ := List.exists_of_findSome?_eq_some hr
    obtain ⟨hlevel, hu⟩ := hrows e he
    unfold AlgorithmProperty.request? at hreq
    split at hreq
    · obtain rfl := Option.some.inj hreq
      exact ⟨fun e' h => AlgorithmRequest.algorithm.inj h ▸ hlevel, fun _ _ _ h => by cases h⟩
    · rcases hu with hu | hu | hu
      · rw [hu] at hreq
        cases hreq
      · rw [hu] at hreq
        obtain ⟨s, _, rfl⟩ := Option.map_eq_some_iff.mp hreq
        exact ⟨fun _ h => by (cases h), fun _ _ _ h => by cases h⟩
      · rw [hu] at hreq
        obtain ⟨s, _, rfl⟩ := Option.map_eq_some_iff.mp hreq
        refine ⟨fun _ h => by (cases h), fun _ _ _ h => ?_⟩
        rw [← (AlgorithmRequest.minKeySize.inj h).2.1]
  · split
    · exact ⟨fun _ h => by (cases h), fun _ _ _ h => by cases h⟩
    · exact ⟨fun _ h => by (cases h), fun _ _ _ h => by cases h⟩

theorem tokenStep_bound {max : Nat} {token : CString} {ra : RuntimeAlgorithm} {level : Nat} (h : level ≤ 7) :
    (tokenStep max token ra level).level ≤ 7 := by
  obtain ⟨halg, hkey⟩ := algorithmRequest_level token
  unfold tokenStep
  cases hr : algorithmRequest token with
  | algorithm e =>
      simp only [perform]
      split
      · exact h
      · exact Nat.max_le.mpr ⟨h, halg e hr⟩
  | minKeySize algId need arg =>
      simp only [perform]
      split
      · exact h
      · exact Nat.max_le.mpr ⟨h, hkey algId need arg hr⟩
  | minSize algId arg =>
      simp only [perform]
      split
      · exact h
      · exact sizesLevel_bound h
  | eccShortcut idx start => exact curves_bound h
  | ecc name => exact curves_bound h

theorem setProfile_bound (ra : RuntimeAlgorithm) (newProfile : Option CString) (max : Nat) {level : Nat}
    (h : level ≤ 7) : (ra.setProfile newProfile level max).level ≤ 7 := by
  cases newProfile with
  | none => exact h
  | some p =>
      have hscan : (ra.scanTokens p level max).level ≤ 7 :=
        scan_keeps (P := fun (_ : RuntimeAlgorithm) l => l ≤ 7) (fun _ _ _ _ hl => tokenStep_bound hl) h
      unfold setProfile
      simp only
      split
      · exact hscan
      · split
        · exact hscan
        · exact hscan

theorem setProfile_profile {ra : RuntimeAlgorithm} {p : CString} {level max : Nat}
    (h : (ra.setProfile (some p) level max).error = none) :
    (ra.setProfile (some p) level max).state.algorithmProfile = some p := by
  obtain ⟨_, r, _, heq⟩ := setProfile_some_ok h
  rw [heq]

theorem reconcile_ok_of_sizes {ra ra' r : RuntimeAlgorithm} (h : SameLists ra ra') (hr : ra.reconcile = .ok r)
    (hsizes : ¬(ra'.algosMinimumKeySizes TpmAlg.aes > 128 ∧ ra'.algosMinimumKeySizes TpmAlg.rsa = 2048)) :
    ∃ r', ra'.reconcile = .ok r' := by
  unfold reconcile at hr ⊢
  rw [h.algorithms, h.curves] at hr
  split at hr
  · cases hr
  · rename_i halgs
    split at hr
    · cases hr
    · rename_i hcurves
      rw [if_neg halgs, if_neg hcurves, if_neg hsizes]
      exact ⟨_, rfl⟩

/-- An accepted list is accepted by an object in zeroed memory, at the same level. -/
theorem setProfile_zero {ra : RuntimeAlgorithm} {p : CString} {level max : Nat}
    (h : (ra.setProfile (some p) level max).error = none) :
    (zero.setProfile (some p) level max).Agree (fun _ _ => True) (ra.setProfile (some p) level max) := by
  obtain ⟨hs, r, hr, heq⟩ := setProfile_some_ok h
  have hagree := scanTokens_agree ra zero p level max
  have hs' : (zero.scanTokens p level max).error = none := hagree.error ▸ hs
  have hsizes := scanTokens_sizes hs
  have hsizes' := scanTokens_sizes hs'
  obtain ⟨r', hr'⟩ : ∃ r', (zero.scanTokens p level max).state.reconcile = .ok r' := by
    refine reconcile_ok_of_sizes hagree.state hr ?_
    rw [hsizes']
    rintro ⟨haes, hrsa⟩
    -- a size that is not named is 0 here, so both are named and stand in the other object too
    have hsame : ∀ algId, (sizeNamed algId (p.splitOn ',')).getD 0 ≠ 0 →
        (ra.scanTokens p level max).state.algosMinimumKeySizes algId =
          (sizeNamed algId (p.splitOn ',')).getD 0 := by
      intro algId hne
      simp only [hsizes]
      cases hn : sizeNamed algId (p.splitOn ',') with
      | none => rw [hn] at hne; exact absurd rfl hne
      | some size => rfl
    have haes' := hsame TpmAlg.aes (Nat.ne_of_gt (Nat.lt_of_le_of_lt (Nat.zero_le 128) haes))
    have hrsa' := hsame TpmAlg.rsa (by rw [show (sizeNamed TpmAlg.rsa (p.splitOn ',')).getD 0 = 2048 from hrsa]; decide)
    unfold reconcile at hr
    rw [if_pos (show (ra.scanTokens p level max).state.algosMinimumKeySizes TpmAlg.aes > 128 ∧
      (ra.scanTokens p level max).state.algosMinimumKeySizes TpmAlg.rsa = 2048 from
        ⟨haes'.symm ▸ haes, hrsa'.trans hrsa⟩)] at hr
    split at hr
    · cases hr
    · split at hr
      · cases hr
      · cases hr
  rw [heq]
  unfold setProfile
  simp only [hs', hr']
  exact ⟨trivial, hagree.level.symm, rfl⟩

end RuntimeAlgorithm

/-! ## What a list stands for -/

namespace AlgorithmRequest

/-- The request is one that the maximum admits. -/
def admitted (max : Nat) : AlgorithmRequest → Bool
  | .algorithm e => decide (e.stateFormatLevel ≤ max)
  | .minKeySize _ _ arg => decide (arg.endptr = [] ∧ arg.value ≤ 1024)
  | .minSize _ arg => decide (arg.endptr = [] ∧ arg.value ≤ 4096)
  | .eccShortcut _ start =>
    eccAlgorithmProperties.any fun c => start.isPrefixOf c.name && decide (c.stateFormatLevel ≤ max)
  | .ecc name =>
    eccAlgorithmProperties.all (fun c => !(c.name == name) || decide (c.stateFormatLevel ≤ max)) &&
      eccAlgorithmProperties.any fun c => c.name == name && decide (c.stateFormatLevel ≤ max)

def names (algId : Nat) : AlgorithmRequest → Bool
  | .algorithm e => e.algId == algId
  | _ => false

def namesShortcut (idx : Nat) : AlgorithmRequest → Bool
  | .eccShortcut i _ => i == idx
  | _ => false

/-- The curves that are switched on among those with a fitting name. -/
def fittingCurve (found : EccAlgorithmProperty → Bool) (max curveId : Nat) (cs : List EccAlgorithmProperty) :
    Bool :=
  cs.any fun c => c.curve.id == curveId && (found c && decide (c.stateFormatLevel ≤ max))

def namesCurve (max curveId : Nat) : AlgorithmRequest → Bool
  | .eccShortcut _ start =>
    fittingCurve (fun c => start.isPrefixOf c.name) max curveId eccAlgorithmProperties
  | .ecc name => fittingCurve (fun c => c.name == name) max curveId eccAlgorithmProperties
  | _ => false

/-- What a request that is carried out leaves. -/
def grant (max : Nat) (ra : RuntimeAlgorithm) (r : AlgorithmRequest) : RuntimeAlgorithm where
  algosMinimumKeySizes algId := (r.sizeFor algId).getD (ra.algosMinimumKeySizes algId)
  enabledAlgorithms algId := ra.enabledAlgorithms algId || r.names algId
  enabledEccShortcuts idx := ra.enabledEccShortcuts idx || r.namesShortcut idx
  enabledEccCurves curveId := ra.enabledEccCurves curveId || r.namesCurve max curveId
  algorithmProfile := ra.algorithmProfile

theorem scan_curves {one : Bool} {found : EccAlgorithmProperty → Bool} {max : Nat}
    (cs : List EccAlgorithmProperty) (ra : RuntimeAlgorithm) (level : Nat) :
    ((scan (curveStep one found max) cs ra level).error = none ↔
      (one = true → ∀ c ∈ cs, found c = true → c.stateFormatLevel ≤ max)) ∧
    ((scan (curveStep one found max) cs ra level).error = none →
      (scan (curveStep one found max) cs ra level).state =
        { ra with enabledEccCurves := fun curveId =>
            ra.enabledEccCurves curveId || fittingCurve found max curveId cs }) := by
  induction cs generalizing ra level with
  | nil =>
      refine ⟨⟨fun _ _ c hc => absurd hc List.not_mem_nil, fun _ => rfl⟩, fun _ => ?_⟩
      simp only [scan, fittingCurve, List.any_nil, Bool.or_false]
  | cons c cs ih =>
      have hmiss : found c = false → ∀ curveId,
          fittingCurve found max curveId (c :: cs) = fittingCurve found max curveId cs := by
        intro hf curveId
        simp only [fittingCurve, List.any_cons, hf, Bool.false_and, Bool.and_false, Bool.false_or]
      cases hf : found c with
      | false =>
          have hstep : curveStep one found max c ra level = ⟨ra, level, none⟩ := by
            simp only [curveStep, hf, Bool.false_eq_true, if_false]
          rw [scan_cons_ok (by rw [hstep]), hstep]
          obtain ⟨hok, hstate⟩ := ih ra level
          refine ⟨?_, ?_⟩
          · simp only [hok, List.forall_mem_cons, hf, Bool.false_eq_true, false_implies, true_and]
          · intro h
            rw [hstate h]
            simp only [hmiss hf]
      | true =>
          by_cases hle : c.stateFormatLevel ≤ max
          · have hstep : curveStep one found max c ra level =
                ⟨ra.setCurve c.curve.id, Nat.max level c.stateFormatLevel, none⟩ := by
              simp only [curveStep, hf, if_true, if_neg (Nat.not_lt_of_le hle)]
            rw [scan_cons_ok (by rw [hstep]), hstep]
            obtain ⟨hok, hstate⟩ := ih (ra.setCurve c.curve.id) (Nat.max level c.stateFormatLevel)
            refine ⟨?_, ?_⟩
            · simp only [hok, List.forall_mem_cons, hle, implies_true, true_and]
            · intro h
              rw [hstate h]
              ext curveId
              · rfl
              · rfl
              · rfl
              · by_cases hc : curveId = c.curve.id
                · simp only [RuntimeAlgorithm.setCurve, hc, Function.update_self, Bool.true_or, fittingCurve,
                    List.any_cons, beq_self_eq_true, hf, decide_eq_true hle, Bool.and_self, Bool.or_true]
                · have hne : (c.curve.id == curveId) = false := beq_eq_false_iff_ne.mpr (Ne.symm hc)
                  simp only [RuntimeAlgorithm.setCurve, Function.update_of_ne hc, fittingCurve, List.any_cons,
                    hne, Bool.false_and, Bool.false_or]
              · rfl
          · have hgt : c.stateFormatLevel > max := Nat.lt_of_not_le hle
            cases one with
            | true =>
                have hstep : curveStep true found max c ra level = ⟨ra, level, some .value⟩ := by
                  simp only [curveStep, hf, if_true, if_pos hgt]
                rw [scan_cons_error (by rw [hstep]), hstep]
                refine ⟨⟨fun h => absurd h (Option.some_ne_none _), fun h => ?_⟩,
                  fun h => absurd h (Option.some_ne_none _)⟩
                exact absurd (h rfl c List.mem_cons_self hf) hle
            | false =>
                have hstep : curveStep false found max c ra level = ⟨ra, level, none⟩ := by
                  simp only [curveStep, hf, if_true, if_pos hgt, Bool.false_eq_true, if_false]
                rw [scan_cons_ok (by rw [hstep]), hstep]
                obtain ⟨hok, hstate⟩ := ih ra level
                refine ⟨⟨fun _ h => absurd h Bool.false_ne_true, fun _ => hok.mpr fun h => absurd h Bool.false_ne_true⟩, ?_⟩
                intro h
                rw [hstate h]
                ext curveId
                · rfl
                · rfl
                · rfl
                · simp only [fittingCurve, List.any_cons, decide_eq_false hle, Bool.and_false, Bool.false_or]
                · rfl

theorem curves_ok_iff {one : Bool} {found : EccAlgorithmProperty → Bool} {max : Nat} {ra : RuntimeAlgorithm}
    {level : Nat} :
    (curves one found max ra level).error = none ↔
      (one = true → ∀ c ∈ eccAlgorithmProperties, found c = true → c.stateFormatLevel ≤ max) ∧
        ∃ c ∈ eccAlgorithmProperties, found c = true ∧ c.stateFormatLevel ≤ max := by
  constructor
  · intro h
    obtain ⟨hs, hc, _⟩ := curves_ok h
    exact ⟨(scan_curves _ ra level).1.mp hs, hc⟩
  · rintro ⟨hone, hc⟩
    have hs := (scan_curves eccAlgorithmProperties ra level).1.mpr hone
    rw [curves_of_scan hs hc]
    exact hs

theorem perform_ok_iff {r : AlgorithmRequest} {max : Nat} {ra : RuntimeAlgorithm} {level : Nat} :
    (r.perform max ra level).error = none ↔ r.admitted max = true := by
  cases r with
  | algorithm e =>
      simp only [perform, admitted, decide_eq_true_eq]
      split
      · rename_i he
        exact ⟨fun h => absurd h (Option.some_ne_none _), fun h => absurd he (Nat.not_lt_of_le h)⟩
      · rename_i he
        exact ⟨fun _ => Nat.le_of_not_lt he, fun _ => rfl⟩
  | minKeySize algId need arg =>
      simp only [perform, admitted, decide_eq_true_eq]
      split
      · rename_i harg
        refine ⟨fun h => absurd h (Option.some_ne_none _), fun h => ?_⟩
        exact harg.elim (fun he => absurd h.1 he) fun hv => absurd h.2 (Nat.not_le_of_lt hv)
      · rename_i harg
        rw [not_or, not_not] at harg
        exact ⟨fun _ => ⟨harg.1, Nat.le_of_not_lt harg.2⟩, fun _ => rfl⟩
  | minSize algId arg =>
      simp only [perform, admitted, decide_eq_true_eq]
      split
      · rename_i harg
        refine ⟨fun h => absurd h (Option.some_ne_none _), fun h => ?_⟩
        exact harg.elim (fun he => absurd h.1 he) fun hv => absurd h.2 (Nat.not_le_of_lt hv)
      · rename_i harg
        rw [not_or, not_not] at harg
        exact ⟨fun _ => ⟨harg.1, Nat.le_of_not_lt harg.2⟩, fun _ => rfl⟩
  | eccShortcut idx start =>
      simp only [perform, curves_ok_iff, admitted, List.any_eq_true, Bool.and_eq_true, decide_eq_true_eq,
        Bool.false_eq_true, false_implies, true_and]
  | ecc name =>
      simp only [perform, curves_ok_iff, admitted, List.any_eq_true, List.all_eq_true, Bool.and_eq_true,
        Bool.or_eq_true, Bool.not_eq_true', decide_eq_true_eq, true_implies]
      refine and_congr (forall₂_congr fun c _ => ?_) Iff.rfl
      cases c.name == name with
      | true => simp only [true_implies, Bool.true_eq_false, false_or]
      | false => simp only [Bool.false_eq_true, false_implies, true_or]

theorem perform_state {r : AlgorithmRequest} {max : Nat} {ra : RuntimeAlgorithm} {level : Nat}
    (h : (r.perform max ra level).error = none) : (r.perform max ra level).state = grant max ra r := by
  cases r with
  | algorithm e =>
      simp only [perform] at h ⊢
      split at h
      · exact absurd h (Option.some_ne_none _)
      · rename_i he
        rw [if_neg he]
        ext algId
        · rfl
        · by_cases hid : algId = e.algId
          · simp only [RuntimeAlgorithm.setAlgorithm, hid, Function.update_self, grant, names, beq_self_eq_true,
              Bool.or_true]
          · have hne : (e.algId == algId) = false := beq_eq_false_iff_ne.mpr (Ne.symm hid)
            simp only [RuntimeAlgorithm.setAlgorithm, Function.update_of_ne hid, grant, names, hne, Bool.or_false]
        · simp only [RuntimeAlgorithm.setAlgorithm, grant, namesShortcut, Bool.or_false]
        · simp only [RuntimeAlgorithm.setAlgorithm, grant, namesCurve, Bool.or_false]
        · rfl
  | minKeySize algId need arg =>
      have hsizes := perform_sizes h
      simp only [perform] at h hsizes ⊢
      split at h
      · exact absurd h (Option.some_ne_none _)
      · rename_i harg
        rw [if_neg harg] at hsizes ⊢
        simp only [grant, ← hsizes, names, namesShortcut, namesCurve, Bool.or_false]
        rfl
  | minSize algId arg =>
      have hsizes := perform_sizes h
      simp only [perform] at h hsizes ⊢
      split at h
      · exact absurd h (Option.some_ne_none _)
      · rename_i harg
        rw [if_neg harg] at hsizes ⊢
        simp only [grant, ← hsizes, names, namesShortcut, namesCurve, Bool.or_false]
        rfl
  | eccShortcut idx start =>
      obtain ⟨hs, _, heq⟩ := curves_ok h
      simp only [perform]
      rw [heq, (scan_curves _ _ _).2 hs]
      ext i
      · rfl
      · simp only [RuntimeAlgorithm.setShortcut, grant, names, Bool.or_false]
      · by_cases hi : i = idx
        · simp only [RuntimeAlgorithm.setShortcut, hi, Function.update_self, grant, namesShortcut, beq_self_eq_true,
            Bool.or_true]
        · have hne : (idx == i) = false := beq_eq_false_iff_ne.mpr (Ne.symm hi)
          simp only [RuntimeAlgorithm.setShortcut, Function.update_of_ne hi, grant, namesShortcut, hne, Bool.or_false]
      · rfl
      · rfl
  | ecc name =>
      obtain ⟨hs, _, heq⟩ := curves_ok h
      simp only [perform]
      rw [heq, (scan_curves _ _ _).2 hs]
      ext i
      · rfl
      · simp only [grant, names, Bool.or_false]
      · simp only [grant, namesShortcut, Bool.or_false]
      · rfl
      · rfl

end AlgorithmRequest

namespace RuntimeAlgorithm
open AlgorithmRequest

def requests (p : CString) : List AlgorithmRequest := (p.splitOn ',').map algorithmRequest

/-- The sizes after a list: those it names, else those there were. -/
def sizesAfter (sizes : Nat → Nat) (p : CString) (algId : Nat) : Nat :=
  (sizeNamed algId (p.splitOn ',')).getD (sizes algId)

/-- Every item is admitted, nothing required is left out, and the sizes go together. -/
def accepts (max : Nat) (sizes : Nat → Nat) (p : CString) : Prop :=
  (∀ r ∈ requests p, r.admitted max = true) ∧
    (∀ e ∈ algorithmProperties, e.canBeDisabled = false → (requests p).any (·.names e.algId) = true) ∧
    (∀ c ∈ eccAlgorithmProperties, c.canBeDisabled = false →
      (requests p).any (·.namesCurve max c.curve.id) = true) ∧
    ¬(sizesAfter sizes p TpmAlg.aes > 128 ∧ sizesAfter sizes p TpmAlg.rsa = 2048)

/-- The algorithms, shortcuts, curves and sizes that a list gives, before the small curves go. -/
def granted (max : Nat) (sizes : Nat → Nat) (p : CString) : RuntimeAlgorithm where
  algosMinimumKeySizes := sizesAfter sizes p
  enabledAlgorithms algId := (requests p).any (·.names algId)
  enabledEccShortcuts idx := (requests p).any (·.namesShortcut idx)
  enabledEccCurves curveId := (requests p).any (·.namesCurve max curveId)
  algorithmProfile := some p

/-- The object that a list stands for, on top of given sizes. -/
def listed (max : Nat) (sizes : Nat → Nat) (p : CString) : RuntimeAlgorithm :=
  { granted max sizes p with
    enabledEccCurves := fun curveId => (granted max sizes p).enabledEccCurves curveId &&
      !eccAlgorithmProperties.any ((granted max sizes p).belowMinimum curveId) }

/-- The shortcuts up to the first request that is refused, with that one. -/
def triedShortcuts (max idx : Nat) : List AlgorithmRequest → Bool
  | [] => false
  | r :: rs => r.namesShortcut idx || (r.admitted max && triedShortcuts max idx rs)

theorem foldl_grant (max : Nat) (tokens : List CString) (ra : RuntimeAlgorithm) :
    tokens.foldl (fun ra token => grant max ra (algorithmRequest token)) ra =
      { algosMinimumKeySizes := fun algId => (sizeNamed algId tokens).getD (ra.algosMinimumKeySizes algId)
        enabledAlgorithms := fun algId =>
          ra.enabledAlgorithms algId || (tokens.map algorithmRequest).any (·.names algId)
        enabledEccShortcuts := fun idx =>
          ra.enabledEccShortcuts idx || (tokens.map algorithmRequest).any (·.namesShortcut idx)
        enabledEccCurves := fun curveId =>
          ra.enabledEccCurves curveId || (tokens.map algorithmRequest).any (·.namesCurve max curveId)
        algorithmProfile := ra.algorithmProfile } := by
  induction tokens generalizing ra with
  | nil =>
      ext i
      · rfl
      · simp only [List.foldl_nil, List.map_nil, List.any_nil, Bool.or_false]
      · simp only [List.foldl_nil, List.map_nil, List.any_nil, Bool.or_false]
      · simp only [List.foldl_nil, List.map_nil, List.any_nil, Bool.or_false]
      · rfl
  | cons token tokens ih =>
      rw [List.foldl_cons, ih]
      ext i
      · cases hn : sizeNamed i tokens with
        | none => simp only [grant, sizeNamed, hn, Option.none_or, Option.getD_none]
        | some size => simp only [sizeNamed, hn, Option.some_or, Option.getD_some]
      · simp only [grant, List.map_cons, List.any_cons, Bool.or_assoc]
      · simp only [grant, List.map_cons, List.any_cons, Bool.or_assoc]
      · simp only [grant, List.map_cons, List.any_cons, Bool.or_assoc]
      · rfl

theorem scanTokens_ok_iff {ra : RuntimeAlgorithm} {p : CString} {level max : Nat} :
    (ra.scanTokens p level max).error = none ↔ ∀ r ∈ requests p, r.admitted max = true := by
  unfold requests
  rw [List.forall_mem_map]
  exact scan_ok_iff (f := tokenStep max) fun _ _ _ => perform_ok_iff

theorem scanTokens_state {ra : RuntimeAlgorithm} {p : CString} {level max : Nat}
    (h : (ra.scanTokens p level max).error = none) :
    (ra.scanTokens p level max).state =
      { granted max ra.algosMinimumKeySizes p with algorithmProfile := ra.algorithmProfile } := by
  have hstate := scan_state (f := tokenStep max)
    (g := fun ra token => grant max ra (algorithmRequest token)) (fun _ _ _ => perform_state) h
  unfold scanTokens
  rw [hstate, foldl_grant]
  simp only [granted, requests, Bool.false_or]
  rfl

theorem reconcile_eq_ok_iff {ra r : RuntimeAlgorithm} :
    ra.reconcile = .ok r ↔
      (∀ e ∈ algorithmProperties, e.canBeDisabled = false → ra.enabledAlgorithms e.algId = true) ∧
      (∀ c ∈ eccAlgorithmProperties, c.canBeDisabled = false → ra.enabledEccCurves c.curve.id = true) ∧
      ¬(ra.algosMinimumKeySizes TpmAlg.aes > 128 ∧ ra.algosMinimumKeySizes TpmAlg.rsa = 2048) ∧
      { ra with enabledEccCurves := fun curveId =>
          ra.enabledEccCurves curveId && !eccAlgorithmProperties.any (ra.belowMinimum curveId) } = r := by
  have halgs : algorithmProperties.any (fun e => !e.canBeDisabled && !ra.enabledAlgorithms e.algId) = true ↔
      ¬∀ e ∈ algorithmProperties, e.canBeDisabled = false → ra.enabledAlgorithms e.algId = true := by
    simp only [List.any_eq_true, Bool.and_eq_true, Bool.not_eq_true', not_forall, exists_prop,
      Bool.not_eq_true]
  have hcurves : eccAlgorithmProperties.any
      (fun c => !c.canBeDisabled && !ra.enabledEccCurves c.curve.id) = true ↔
      ¬∀ c ∈ eccAlgorithmProperties, c.canBeDisabled = false → ra.enabledEccCurves c.curve.id = true := by
    simp only [List.any_eq_true, Bool.and_eq_true, Bool.not_eq_true', not_forall, exists_prop,
      Bool.not_eq_true]
  unfold reconcile
  split
  · rename_i h
    exact ⟨fun h => by (cases h), fun h' => absurd h'.1 (halgs.mp h)⟩
  · rename_i h
    rw [halgs, not_not] at h
    split
    · rename_i h'
      exact ⟨fun h => by (cases h), fun h'' => absurd h''.2.1 (hcurves.mp h')⟩
    · rename_i h'
      rw [hcurves, not_not] at h'
      split
      · rename_i h''
        exact ⟨fun h => by (cases h), fun hr => absurd h'' hr.2.2.1⟩
      · rename_i h''
        exact ⟨fun hr => ⟨h, h', h'', Except.ok.inj hr⟩, fun hr => congrArg Except.ok hr.2.2.2⟩

theorem algorithmProperties_keySizes : ∀ e ∈ algorithmProperties, e.u ≠ .none →
    (algorithmProperties.find? (·.algId == e.algId)).map AlgorithmProperty.u = some e.u ∧
      (e.u = .keySizes ∧ e.algId ≠ TpmAlg.hmac ∨ e.u = .minKeySize 7 ∧ e.algId = TpmAlg.hmac) := by
  decide +kernel

theorem keySizeCheckEnabled_eq {ra : RuntimeAlgorithm} {p : RuntimeProfile}
    (halgs : ra.enabledAlgorithms = p.enabledAlgorithms) (hsizes : ra.algosMinimumKeySizes = p.algosMinimumKeySizes)
    (hcurves : ra.enabledEccCurves = p.enabledEccCurves) {e : AlgorithmProperty} (he : e ∈ algorithmProperties)
    (hu : e.u ≠ .none) (keySize curve : Nat) :
    ra.keySizeCheckEnabled e.algId keySize curve p.stateFormatLevel =
      .ok (p.keySizeCheckEnabled e.algId keySize curve) := by
  obtain ⟨hfind, hkind⟩ := algorithmProperties_keySizes e he hu
  simp only [keySizeCheckEnabled, checkEnabled, RuntimeProfile.keySizeCheckEnabled, RuntimeProfile.checkEnabled,
    halgs, hsizes, hcurves, hfind]
  cases p.enabledAlgorithms e.algId with
  | false => rfl
  | true =>
      by_cases hmin : p.algosMinimumKeySizes e.algId ≤ keySize
      · rw [if_neg (by simp), if_neg (Nat.not_lt_of_le hmin), decide_eq_true hmin]
        rcases hkind with ⟨hkeys, hne⟩ | ⟨hkeys, heq⟩
        · rw [hkeys, decide_eq_false hne]
          by_cases hcurve : e.algId = TpmAlg.ecc → p.enabledEccCurves curve = true
          · rw [decide_eq_true hcurve]
            simp only
            rw [if_neg (fun hoff => Bool.false_ne_true (hoff.2.symm.trans (hcurve hoff.1)))]
            cases (RuntimeProfile.keySizes e.algId).find? (·.1 == keySize) <;> rfl
          · obtain ⟨hecc, hoff⟩ := Classical.not_imp.mp hcurve
            rw [decide_eq_false hcurve]
            simp only
            rw [if_pos ⟨hecc, Bool.eq_false_iff.mpr hoff⟩]
            rfl
        · rw [hkeys, decide_eq_true heq]
          rfl
      · simp [hmin, Nat.lt_of_not_le hmin]

theorem setProfile_mandatory {ra : RuntimeAlgorithm} {p : CString} {level max : Nat}
    (h : (ra.setProfile (some p) level max).error = none) {e : AlgorithmProperty} (he : e ∈ algorithmProperties)
    (hd : e.canBeDisabled = false) : (ra.setProfile (some p) level max).state.enabledAlgorithms e.algId = true := by
  obtain ⟨_, r, hr, heq⟩ := setProfile_some_ok h
  obtain ⟨halgs, -, -, rfl⟩ := reconcile_eq_ok_iff.mp hr
  rw [heq]
  exact halgs e he hd

/-- A list is accepted by its text and by the sizes that it does not name. -/
theorem setProfile_ok_iff (ra : RuntimeAlgorithm) (p : CString) (level max : Nat) :
    (ra.setProfile (some p) level max).error = none ↔ accepts max ra.algosMinimumKeySizes p := by
  constructor
  · intro h
    obtain ⟨hs, r, hr, _⟩ := setProfile_some_ok h
    rw [scanTokens_state hs, reconcile_eq_ok_iff] at hr
    exact ⟨scanTokens_ok_iff.mp hs, hr.1, hr.2.1, hr.2.2.1⟩
  · rintro ⟨hreq, halgs, hcurves, hsizes⟩
    have hs : (ra.scanTokens p level max).error = none := scanTokens_ok_iff.mpr hreq
    obtain ⟨r, hr⟩ : ∃ r, reconcile
        { granted max ra.algosMinimumKeySizes p with algorithmProfile := ra.algorithmProfile } = .ok r :=
      ⟨_, reconcile_eq_ok_iff.mpr ⟨halgs, hcurves, hsizes, rfl⟩⟩
    unfold setProfile
    simp only [hs, scanTokens_state hs, hr]

theorem setProfile_listed (ra : RuntimeAlgorithm) {p : CString} (level : Nat) {max : Nat}
    (h : accepts max ra.algosMinimumKeySizes p) :
    (ra.setProfile (some p) level max).state = listed max ra.algosMinimumKeySizes p := by
  obtain ⟨hs, r, hr, heq⟩ := setProfile_some_ok ((setProfile_ok_iff ra p level max).mpr h)
  rw [scanTokens_state hs, reconcile_eq_ok_iff] at hr
  rw [heq, ← hr.2.2.2]
  rfl

theorem perform_shortcuts (r : AlgorithmRequest) (max : Nat) (ra : RuntimeAlgorithm) (level idx : Nat) :
    (r.perform max ra level).state.enabledEccShortcuts idx =
      (ra.enabledEccShortcuts idx || r.namesShortcut idx) := by
  have hcurves : ∀ (one : Bool) (found : EccAlgorithmProperty → Bool) (ra : RuntimeAlgorithm),
      (curves one found max ra level).state.enabledEccShortcuts = ra.enabledEccShortcuts := by
    intro one found ra
    have hrefl : ra.enabledEccShortcuts = ra.enabledEccShortcuts := rfl
    have hscan : (scan (curveStep one found max) eccAlgorithmProperties ra level).state.enabledEccShortcuts =
        ra.enabledEccShortcuts := by
      refine scan_keeps (P := fun (s : RuntimeAlgorithm) _ =>
        s.enabledEccShortcuts = ra.enabledEccShortcuts) ?_ hrefl
      intro c _ s l hs
      unfold curveStep
      split
      · split
        · exact hs
        · exact hs
      · exact hs
    unfold curves
    simp only
    split
    · exact hscan
    · split
      · exact hscan
      · exact hscan
  cases r with
  | algorithm e =>
      simp only [perform, namesShortcut, Bool.or_false]
      split
      · rfl
      · rfl
  | minKeySize algId need arg =>
      simp only [perform, namesShortcut, Bool.or_false]
      split
      · rfl
      · rfl
  | minSize algId arg =>
      simp only [perform, namesShortcut, Bool.or_false]
      split
      · rfl
      · rfl
  | eccShortcut i start =>
      simp only [perform, hcurves, setShortcut, namesShortcut]
      by_cases hi : idx = i
      · simp only [hi, Function.update_self, beq_self_eq_true, Bool.or_true]
      · have hne : (i == idx) = false := beq_eq_false_iff_ne.mpr (Ne.symm hi)
        simp only [Function.update_of_ne hi, hne, Bool.or_false]
  | ecc name => simp only [perform, hcurves, namesShortcut, Bool.or_false]

theorem scan_shortcuts (tokens : List CString) (max : Nat) (ra : RuntimeAlgorithm) (level idx : Nat) :
    (scan (tokenStep max) tokens ra level).state.enabledEccShortcuts idx =
      (ra.enabledEccShortcuts idx || triedShortcuts max idx (tokens.map algorithmRequest)) := by
  induction tokens generalizing ra level with
  | nil => simp only [scan, List.map_nil, triedShortcuts, Bool.or_false]
  | cons token tokens ih =>
      rw [List.map_cons, triedShortcuts]
      cases ht : (tokenStep max token ra level).error with
      | none =>
          have hadm : (algorithmRequest token).admitted max = true := perform_ok_iff.mp ht
          rw [scan_cons_ok ht, ih, hadm, Bool.true_and, tokenStep, perform_shortcuts, Bool.or_assoc]
      | some e =>
          have hadm : (algorithmRequest token).admitted max = false := by
            rw [Bool.eq_false_iff]
            intro hadm
            exact Option.some_ne_none e (ht.symm.trans (perform_ok_iff.mpr hadm))
          rw [scan_cons_error ht, hadm, Bool.false_and, Bool.or_false, tokenStep, perform_shortcuts]

/-- A list that is refused leaves the default, and the shortcuts it had come to. -/
theorem setProfile_refused (ra : RuntimeAlgorithm) {p : CString} (level : Nat) {max : Nat}
    (h : ¬accepts max ra.algosMinimumKeySizes p) :
    (ra.setProfile (some p) level max).state =
      { ra.setDefault with enabledEccShortcuts := fun idx => triedShortcuts max idx (requests p) } := by
  have hok := mt (setProfile_ok_iff ra p level max).mp h
  have hshort : ∀ idx, (ra.scanTokens p level max).state.enabledEccShortcuts idx =
      triedShortcuts max idx (requests p) := by
    intro idx
    unfold scanTokens requests
    rw [scan_shortcuts, Bool.false_or]
  have hdefault : (ra.scanTokens p level max).state.setDefault =
      { ra.setDefault with enabledEccShortcuts := fun idx => triedShortcuts max idx (requests p) } := by
    simp only [setDefault, init, funext hshort]
  unfold setProfile at hok ⊢
  simp only at hok ⊢
  split
  · exact hdefault
  · rename_i he
    split
    · exact hdefault
    · rename_i r hr
      simp only [he, hr] at hok
      exact absurd trivial hok

end RuntimeAlgorithm

end PqcTpm
