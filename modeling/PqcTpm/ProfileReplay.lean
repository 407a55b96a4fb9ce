import PqcTpm.RuntimeProfiles

/-!
# A stored profile is the profile that was set

The text that `RuntimeProfileSet` stores is read back as the entries it was written from, no
list loses an item once its duplicates are gone, and every part settles under the level
that was reached.
-/
namespace PqcTpm
open LevelScan TextFields

/-! ## Reading the text back -/

namespace ProfileJson

/-- The text behind a value: more entries with texts, or the end. -/
def textEntries : List (CString × CString) → CString
  | [] => ['}']
  | (key, value) :: es => ',' :: '"' :: (key ++ '"' :: ':' :: '"' :: (value ++ '"' :: textEntries es))

theorem formatEntry_append (key : String) (value : Option CString) (es : List (CString × CString)) :
    formatEntry key value ++ textEntries es =
      textEntries ((value.map fun v => (key.toList, v)).toList ++ es) := by
  cases value with
  | none => rfl
  | some v =>
      simp only [formatEntry, Option.map_some, Option.toList_some, List.cons_append, List.nil_append,
        textEntries, List.append_assoc]

theorem members_string (key value t : CString) (hkey : key ≠ []) (hk : '"' ∉ key) (hv : '"' ∉ value) :
    members ((key ++ '"' :: ':' :: '"' :: (value ++ '"' :: ',' :: '"' :: t)).splitOn '"') =
      (members (t.splitOn '"')).map ((key, .string value) :: ·) := by
  have hcolon : '"' ∉ [':'] := by decide
  have hcomma : '"' ∉ [','] := by decide
  rw [List.splitOn_append_cons_self_of_not_mem hk,
    show ':' :: '"' :: (value ++ '"' :: ',' :: '"' :: t) =
      [':'] ++ '"' :: (value ++ '"' :: ([','] ++ '"' :: t)) from rfl,
    List.splitOn_append_cons_self_of_not_mem hcolon, List.splitOn_append_cons_self_of_not_mem hv,
    List.splitOn_append_cons_self_of_not_mem hcomma, members, if_neg hkey]
  rfl

theorem members_last {key value : CString} (hkey : key ≠ []) (hk : '"' ∉ key) (hv : '"' ∉ value) :
    members ((key ++ '"' :: ':' :: '"' :: (value ++ '"' :: ['}'])).splitOn '"') =
      some [(key, .string value)] := by
  have hcolon : '"' ∉ [':'] := by decide
  have hbrace : '"' ∉ ['}'] := by decide
  rw [List.splitOn_append_cons_self_of_not_mem hk,
    show ':' :: '"' :: (value ++ '"' :: ['}']) = [':'] ++ '"' :: (value ++ '"' :: ['}']) from rfl,
    List.splitOn_append_cons_self_of_not_mem hcolon, List.splitOn_append_cons_self_of_not_mem hv,
    List.splitOn_eq_singleton hbrace, members, if_neg hkey]
  rfl

/-- An entry with a text, and what `textEntries` writes behind it. -/
theorem members_textEntries (es : List (CString × CString)) (key value : CString)
    (hes : ∀ e ∈ (key, value) :: es, e.1 ≠ [] ∧ '"' ∉ e.1 ∧ '"' ∉ e.2) :
    members ((key ++ '"' :: ':' :: '"' :: (value ++ '"' :: textEntries es)).splitOn '"') =
      some (((key, value) :: es).map fun e => (e.1, .string e.2)) := by
  induction es generalizing key value with
  | nil =>
      obtain ⟨hkey, hk, hv⟩ := hes (key, value) List.mem_cons_self
      exact members_last hkey hk hv
  | cons e es ih =>
      obtain ⟨hkey, hk, hv⟩ := hes (key, value) List.mem_cons_self
      have ih := ih e.1 e.2 fun e' he' => hes e' (List.mem_cons_of_mem _ he')
      rw [textEntries, members_string key value _ hkey hk hv, ih]
      rfl

theorem takeWhile_decimal {ds : CString} {c : Char} (hds : ∀ d ∈ ds, isDecimal d = true)
    (hc : isDecimal c = false) :
    (ds ++ [c]).takeWhile isDecimal = ds ∧ (ds ++ [c]).dropWhile isDecimal = [c] := by
  induction ds with
  | nil => simp only [List.nil_append, List.takeWhile_cons, List.dropWhile_cons, hc,
      Bool.false_eq_true, if_false, and_self]
  | cons d ds ih =>
      obtain ⟨htake, hdrop⟩ := ih fun e he => hds e (List.mem_cons_of_mem d he)
      have hd := hds d List.mem_cons_self
      simp only [List.cons_append, List.takeWhile_cons, List.dropWhile_cons, hd, if_true, htake, hdrop,
        and_self]

theorem isSpace_of_isDecimal {c : Char} (h : isDecimal c = true) : isSpace c = false := by
  rw [Bool.eq_false_iff]
  intro hs
  have hs : c ∈ [' ', '\t', '\n', '\x0b', '\x0c', '\r'] := of_decide_eq_true hs
  simp only [List.mem_cons, List.not_mem_nil, or_false] at hs
  rcases hs with rfl | rfl | rfl | rfl | rfl | rfl <;> exact absurd h (by decide)

/-- An entry with a number. -/
theorem members_digits (key : CString) {ds : CString} {es : List (CString × CString)} (hkey : key ≠ [])
    (hk : '"' ∉ key) (hne : ds ≠ []) (hds : ∀ d ∈ ds, isDecimal d = true)
    (hes : ∀ e ∈ es, e.1 ≠ [] ∧ '"' ∉ e.1 ∧ '"' ∉ e.2) :
    members ((key ++ '"' :: ':' :: (ds ++ textEntries es)).splitOn '"') =
      some ((key, .digits ds) :: es.map fun e => (e.1, .string e.2)) := by
  have hquote : '"' ∉ ds := fun h => absurd (hds _ h) (by decide)
  obtain ⟨d, ds, rfl⟩ := List.exists_cons_of_ne_nil hne
  have hd : isSpace d = false := isSpace_of_isDecimal (hds d List.mem_cons_self)
  have hpart : ∀ c : Char, c ≠ '"' → '"' ∉ ':' :: d :: ds ++ [c] := by
    intro c hc h
    rcases List.mem_append.mp h with h | h
    · rcases List.mem_cons.mp h with h | h
      · exact absurd h (by decide)
      · exact hquote h
    · exact hc (List.mem_singleton.mp h).symm
  have hcolon : ∀ t : CString, (':' :: t).dropWhile isSpace = ':' :: t := fun t =>
    List.dropWhile_cons_of_neg (by decide)
  have hdigit : ∀ t : CString, (d :: t).dropWhile isSpace = d :: t := fun t =>
    List.dropWhile_cons_of_neg (by rw [hd]; exact Bool.false_ne_true)
  rw [List.splitOn_append_cons_self_of_not_mem hk]
  cases es with
  | nil =>
      have hend := takeWhile_decimal (c := '}') hds (by decide)
      rw [textEntries, ← List.cons_append, List.splitOn_eq_singleton (hpart '}' (by decide)), members.eq_def]
      simp only [List.cons_append] at hend ⊢
      simp only [if_neg hkey, hcolon, hdigit, hend.1, hend.2]
      rfl
  | cons e es =>
      have hend := takeWhile_decimal (c := ',') hds (by decide)
      have hrest := members_textEntries es e.1 e.2 hes
      have hcut : ∀ t : CString, ':' :: (d :: ds ++ ',' :: '"' :: t) = (':' :: d :: ds ++ [',']) ++ '"' :: t := by
        intro t
        simp only [List.cons_append, List.append_assoc, List.nil_append]
      rw [textEntries, hcut, List.splitOn_append_cons_self_of_not_mem (hpart ',' (by decide)), members.eq_def]
      simp only [List.cons_append] at hend ⊢
      simp only [if_neg hkey, hcolon, hdigit, hend.1, hend.2, hrest]
      rfl

theorem get_cons (key : String) (shape : JsonValue → Option CString) (e : CString × JsonValue)
    (es : List (CString × JsonValue)) :
    get key shape (e :: es) =
      (get key shape es).or (if e.1 = key.toList then shape e.2 else none) := by
  unfold get
  rw [List.filterMap_cons]
  cases (if e.1 = key.toList then shape e.2 else none) with
  | none => rw [Option.or_none]
  | some v =>
      cases hr : es.filterMap fun e => if e.1 = key.toList then shape e.2 else none with
      | nil => rfl
      | cons w ws =>
          obtain ⟨u, hu⟩ := Option.ne_none_iff_exists'.mp
            (mt List.getLast?_eq_none_iff.mp (List.cons_ne_nil w ws))
          simp only [List.getLast?_cons_cons, hu, Option.some_or]

/-- The entries behind the level. -/
def storedEntries (algorithmsProfile commandsProfile attributesProfile profileDescription : Option CString) :
    List (CString × CString) :=
  (commandsProfile.map fun v => ("Commands".toList, v)).toList ++
    ((algorithmsProfile.map fun v => ("Algorithms".toList, v)).toList ++
      ((attributesProfile.map fun v => ("Attributes".toList, v)).toList ++
        ((profileDescription.map fun v => ("Description".toList, v)).toList ++ [])))

theorem format_eq (name : CString) (level : Nat) (a c at' d : Option CString) :
    runtimeProfileFormat name level a c at' d =
      '{' :: '"' :: ("Name".toList ++ '"' :: ':' :: '"' :: (name ++ '"' :: ',' :: '"' ::
        ("StateFormatLevel".toList ++ '"' :: ':' :: (Nat.toDigits 10 level ++
          textEntries (storedEntries a c at' d))))) := by
  unfold runtimeProfileFormat storedEntries
  rw [← formatEntry_append, ← formatEntry_append, ← formatEntry_append, ← formatEntry_append]
  rfl

theorem storedEntries_clean {a c at' d : Option CString}
    (h : ∀ v, a = some v ∨ c = some v ∨ at' = some v ∨ d = some v → '"' ∉ v) :
    ∀ e ∈ storedEntries a c at' d, e.1 ≠ [] ∧ '"' ∉ e.1 ∧ '"' ∉ e.2 := by
  have hentry : ∀ (key : CString) (value : Option CString), key ≠ [] → '"' ∉ key →
      (∀ v, value = some v → '"' ∉ v) → ∀ e ∈ (value.map fun v => (key, v)).toList,
        e.1 ≠ [] ∧ '"' ∉ e.1 ∧ '"' ∉ e.2 := by
    intro key value hne hk hv e he
    cases value with
    | none => exact absurd he List.not_mem_nil
    | some v =>
        rw [Option.map_some, Option.toList_some, List.mem_singleton] at he
        rw [he]
        exact ⟨hne, hk, hv v rfl⟩
  intro e he
  rcases List.mem_append.mp he with he | he
  · exact hentry _ c (by decide) (by decide) (fun v hv => h v (.inr (.inl hv))) e he
  · rcases List.mem_append.mp he with he | he
    · exact hentry _ a (by decide) (by decide) (fun v hv => h v (.inl hv)) e he
    · rcases List.mem_append.mp he with he | he
      · exact hentry _ at' (by decide) (by decide) (fun v hv => h v (.inr (.inr (.inl hv)))) e he
      · rcases List.mem_append.mp he with he | he
        · exact hentry _ d (by decide) (by decide) (fun v hv => h v (.inr (.inr (.inr hv)))) e he
        · exact absurd he List.not_mem_nil

theorem level_digits : ∀ level < 8, Nat.toDigits 10 level ≠ [] ∧
    (∀ d ∈ Nat.toDigits 10 level, isDecimal d = true) ∧
    strtoul (Nat.toDigits 10 level) 10 = ⟨level, false, []⟩ := by
  have hdigit : ∀ level < 8, isDecimal (Nat.digitChar level) = true ∧
      strtoul [Nat.digitChar level] 10 = ⟨level, false, []⟩ := by decide
  intro level hlevel
  obtain ⟨hd, hs⟩ := hdigit level hlevel
  have hlt : level < 10 := by omega
  rw [Nat.toDigits_of_lt_base hlt]
  exact ⟨List.cons_ne_nil _ _, List.forall_mem_singleton.mpr hd, hs⟩

/-- The entries of a stored profile. -/
theorem checkJSON_format {name : CString} {level : Nat} {a c at' d : Option CString} (hlevel : level < 8)
    (hname : '"' ∉ name) (h : ∀ v, a = some v ∨ c = some v ∨ at' = some v ∨ d = some v → '"' ∉ v) :
    checkJSON (runtimeProfileFormat name level a c at' d) =
      some (("Name".toList, .string name) ::
        ("StateFormatLevel".toList, .digits (Nat.toDigits 10 level)) ::
        (storedEntries a c at' d).map fun e => (e.1, .string e.2)) := by
  obtain ⟨hne, hds, _⟩ := level_digits level hlevel
  have hopen : '"' ∉ ['{'] := by decide
  have hsplit : (runtimeProfileFormat name level a c at' d).splitOn '"' = ['{'] ::
      ("Name".toList ++ '"' :: ':' :: '"' :: (name ++ '"' :: ',' :: '"' ::
        ("StateFormatLevel".toList ++ '"' :: ':' :: (Nat.toDigits 10 level ++
          textEntries (storedEntries a c at' d))))).splitOn '"' := by
    rw [format_eq]
    exact List.splitOn_append_cons_self_of_not_mem hopen _
  have hmembers := members_string "Name".toList name
    ("StateFormatLevel".toList ++ '"' :: ':' :: (Nat.toDigits 10 level ++
      textEntries (storedEntries a c at' d))) (by decide) (by decide) hname
  rw [members_digits "StateFormatLevel".toList (by decide) (by decide) hne hds
    (storedEntries_clean h)] at hmembers
  unfold checkJSON
  rw [hsplit]
  exact hmembers

end ProfileJson

/-- The parameters of a stored profile are the strings it was written from. -/
theorem getParametersFromJSON_format {name a c d : CString} {level : Nat} {at' : Option CString}
    (hlevel : level ≤ 7) (hname : name ≠ [] ∧ '"' ∉ name ∧ name.length ≤ 32)
    (ha : a ≠ [] ∧ '"' ∉ a ∧ dedupStrItems a = a) (hc : c ≠ [] ∧ '"' ∉ c ∧ dedupStrItems c = c)
    (hat : ∀ v, at' = some v → '"' ∉ v ∧ dedupStrItems v = v) (hd : d ≠ [] ∧ '"' ∉ d) :
    getParametersFromJSON (some (runtimeProfileFormat name level (some a) (some c) at' (some d))) false =
      .ok { profileName := name
            stateFormatLevel := level
            algorithmsProfile := some a
            commandsProfile := some c
            attributesProfile := at'
            profileDescription := some (d.take 250) } := by
  have hclean : ∀ v, some a = some v ∨ some c = some v ∨ at' = some v ∨ some d = some v → '"' ∉ v := by
    intro v hv
    rcases hv with hv | hv | hv | hv
    · exact Option.some.inj hv ▸ ha.2.1
    · exact Option.some.inj hv ▸ hc.2.1
    · exact (hat v hv).1
    · exact Option.some.inj hv ▸ hd.2
  have hcheck := ProfileJson.checkJSON_format (Nat.lt_succ_of_le hlevel) hname.2.1 hclean
  obtain ⟨_, _, hparse⟩ := ProfileJson.level_digits level (Nat.lt_succ_of_le hlevel)
  have hnil : ∀ key shape, ProfileJson.get key shape [] = none := fun _ _ => rfl
  have hno : ¬4294967295 < level := by omega
  have hmax : ¬7 < level := by omega
  simp only [getParametersFromJSON, hcheck, entryParameters]
  cases at' with
  | none =>
      simp [ProfileJson.get_cons, hnil, ProfileJson.storedEntries, levelParameter, getStateFormatLevel,
        ProfileJson.text, ProfileJson.number, hname.1, ha.1, hc.1, hd.1, hparse, hno, hmax, ha.2.2, hc.2.2,
        List.take_of_length_le hname.2.2, Except.map]
  | some v =>
      simp [ProfileJson.get_cons, hnil, ProfileJson.storedEntries, levelParameter, getStateFormatLevel,
        ProfileJson.text, ProfileJson.textOrEmpty, ProfileJson.number, hname.1, ha.1, hc.1, hd.1, hparse,
        hno, hmax, ha.2.2, hc.2.2, (hat v rfl).2, List.take_of_length_le hname.2.2, Except.map]

/-! ## What the parameters look like -/

namespace ProfileJson

theorem mem_of_get {key : String} {shape : JsonValue → Option CString} {es : List (CString × JsonValue)}
    {v : CString} (h : get key shape es = some v) : ∃ e ∈ es, shape e.2 = some v := by
  obtain ⟨e, he, hv⟩ := List.mem_filterMap.mp (List.mem_of_getLast? h)
  split at hv
  · exact ⟨e, he, hv⟩
  · cases hv

/-- A text is one of the parts between the quotes. -/
theorem members_mem {parts : List CString} {es : List (CString × JsonValue)} (h : members parts = some es)
    {e : CString × JsonValue} (he : e ∈ es) {v : CString} (hv : e.2 = .string v) : v ∈ parts := by
  fun_induction members parts generalizing es with
  | case2 key colon hkey value hvalue hend s after more hjoint ih =>
      obtain ⟨es', hes', rfl⟩ := Option.map_eq_some_iff.mp h
      rcases List.mem_cons.mp he with rfl | he
      · obtain rfl := JsonValue.string.inj hv
        exact List.mem_cons_of_mem _ (List.mem_cons_of_mem _ List.mem_cons_self)
      · have hmore := ih hes' he
        exact List.mem_cons_of_mem _ (List.mem_cons_of_mem _ (List.mem_cons_of_mem _
          (List.mem_cons_of_mem _ hmore)))
  | case3 key colon hkey value hvalue hend s after hjoint =>
      obtain rfl := Option.some.inj h
      rw [List.mem_singleton.mp he] at hv
      obtain rfl := JsonValue.string.inj hv
      exact List.mem_cons_of_mem _ (List.mem_cons_of_mem _ List.mem_cons_self)
  | case8 key colon more hkey value hvalue c cs hend hdigits hjoint ih =>
      obtain ⟨es', hes', rfl⟩ := Option.map_eq_some_iff.mp h
      rcases List.mem_cons.mp he with rfl | he
      · cases hv
      · exact List.mem_cons_of_mem _ (List.mem_cons_of_mem _ (ih hes' he))
  | case9 key colon hkey value hvalue c cs hend hdigits hjoint =>
      obtain rfl := Option.some.inj h
      rw [List.mem_singleton.mp he] at hv
      cases hv
  | _ => cases h

/-- No text holds a quote. -/
theorem checkJSON_quote {json : CString} {es : List (CString × JsonValue)} (h : checkJSON json = some es)
    {e : CString × JsonValue} (he : e ∈ es) {v : CString} (hv : e.2 = .string v) : '"' ∉ v := by
  have hparts : ∀ {opening : CString} {rest : List CString}, json.splitOn '"' = opening :: rest →
      members rest = some es → '"' ∉ v := by
    intro opening rest hs hm
    have hmem : v ∈ json.splitOn '"' := by
      rw [hs]
      exact List.mem_cons_of_mem opening (members_mem hm he hv)
    exact not_mem_of_mem_splitOn hmem
  unfold checkJSON at h
  split at h
  · rename_i opening rest hs
    split at h
    · exact hparts hs h
    · split at h
      · rw [← Option.some.inj h] at he
        exact absurd he List.not_mem_nil
      · cases h
    · split at h
      · exact hparts hs h
      · cases h
    · cases h
  · cases h

theorem text_eq {e : JsonValue} {v : CString} (h : text e = some v) : e = .string v ∧ v ≠ [] := by
  cases e with
  | string s =>
      rw [text] at h
      split at h
      · cases h
      · rename_i hs
        obtain rfl := Option.some.inj h
        exact ⟨rfl, hs⟩
  | digits s => cases h

theorem textOrEmpty_eq {e : JsonValue} {v : CString} (h : textOrEmpty e = some v) : e = .string v := by
  cases e with
  | string s => rw [Option.some.inj h]
  | digits s => cases h

end ProfileJson

theorem dedupStrItems_quote {v : CString} (h : '"' ∉ v) : '"' ∉ dedupStrItems v := by
  intro hq
  rcases mem_of_mem_dedup hq with hq | hq
  · exact absurd hq (by decide)
  · exact h hq

/-- What holds of parameters wherever they come from. -/
structure ProfileParameters.Clean (q : ProfileParameters) : Prop where
  name : q.profileName ≠ [] ∧ '"' ∉ q.profileName ∧ q.profileName.length ≤ 32
  level : q.stateFormatLevel ≤ 7
  lists : ∀ v, q.algorithmsProfile = some v ∨ q.commandsProfile = some v ∨ q.attributesProfile = some v →
    '"' ∉ v ∧ dedupStrItems v = v
  description : ∀ v, q.profileDescription = some v → v ≠ [] ∧ '"' ∉ v

theorem levelParameter_le {fromUser : Bool} {es : List (CString × JsonValue)} {level : Nat}
    (h : levelParameter fromUser es = .ok level) : level ≤ 7 := by
  unfold levelParameter at h
  split at h
  · split at h
    · cases h
    · rename_i hle
      rw [← Except.ok.inj h]
      exact Nat.le_of_not_lt hle
  · split at h
    · rw [← Except.ok.inj h]
      exact Nat.zero_le 7
    · cases h
  · cases h

theorem getParametersFromJSON_clean {json : Option CString} {fromUser : Bool} {q : ProfileParameters}
    (h : getParametersFromJSON json fromUser = .ok q) : q.Clean := by
  unfold getParametersFromJSON at h
  split at h
  · rw [← Except.ok.inj h]
    refine ⟨⟨by decide, by decide, by decide⟩, Nat.zero_le 7, fun v hv => ?_, fun v hv => ?_⟩
    · rcases hv with hv | hv | hv <;> cases hv
    · cases hv
  · split at h
    · cases h
    · rename_i es hcheck
      unfold entryParameters at h
      split at h
      · cases h
      · rename_i name hname
        cases hl : levelParameter fromUser es with
        | error e => rw [hl] at h; cases h
        | ok level =>
            rw [hl] at h
            obtain ⟨e, he, ht⟩ := ProfileJson.mem_of_get hname
            obtain ⟨hs, hne⟩ := ProfileJson.text_eq ht
            have hquote := ProfileJson.checkJSON_quote hcheck he hs
            have hdedup : ∀ v, '"' ∉ v → '"' ∉ dedupStrItems v ∧ dedupStrItems (dedupStrItems v) = dedupStrItems v :=
              fun v hv => ⟨dedupStrItems_quote hv, dedup_dedup ',' '=' v⟩
            rw [← Except.ok.inj h]
            refine ⟨⟨?_, ?_, List.length_take_le 32 name⟩, levelParameter_le hl, fun v hv => ?_, fun v hv => ?_⟩
            · simp only [ne_eq, List.take_eq_nil_iff, not_or]
              exact ⟨by decide, hne⟩
            · exact fun hq => hquote (List.mem_of_mem_take hq)
            · simp only [Option.map_eq_some_iff] at hv
              rcases hv with ⟨w, hw, rfl⟩ | ⟨w, hw, rfl⟩ | ⟨w, hw, rfl⟩
              · obtain ⟨e, he, ht⟩ := ProfileJson.mem_of_get hw
                exact hdedup w (ProfileJson.checkJSON_quote hcheck he (ProfileJson.text_eq ht).1)
              · obtain ⟨e, he, ht⟩ := ProfileJson.mem_of_get hw
                exact hdedup w (ProfileJson.checkJSON_quote hcheck he (ProfileJson.text_eq ht).1)
              · obtain ⟨e, he, ht⟩ := ProfileJson.mem_of_get hw
                exact hdedup w (ProfileJson.checkJSON_quote hcheck he (ProfileJson.textOrEmpty_eq ht))
            · simp only [Option.map_eq_some_iff] at hv
              obtain ⟨w, hw, rfl⟩ := hv
              obtain ⟨e, he, ht⟩ := ProfileJson.mem_of_get hw
              obtain ⟨hs, hne⟩ := ProfileJson.text_eq ht
              refine ⟨?_, fun hq => ProfileJson.checkJSON_quote hcheck he hs (List.mem_of_mem_take hq)⟩
              simp only [ne_eq, List.take_eq_nil_iff, not_or]
              exact ⟨by decide, hne⟩

/-! ## Carrying out the lists again -/

theorem RuntimeAlgorithm.setProfile_nil {ra : RuntimeAlgorithm} {level max : Nat} :
    (ra.setProfile (some []) level max).error ≠ none := by
  intro h
  have hnames : ∀ c ∈ eccAlgorithmProperties, (c.name == ([] : CString)) = false := by decide
  have hrequest : algorithmRequest [] = .ecc [] := by decide
  obtain ⟨hs, _⟩ := RuntimeAlgorithm.setProfile_some_ok h
  rw [RuntimeAlgorithm.scanTokens, List.splitOn_nil] at hs
  have ht := scan_cons_error_none hs
  rw [RuntimeAlgorithm.tokenStep, hrequest] at ht
  obtain ⟨_, ⟨c, hc, hf, _⟩, _⟩ := AlgorithmRequest.curves_ok ht
  rw [hnames c hc] at hf
  exact Bool.false_ne_true hf

theorem RuntimeCommands.setProfile_nil {rc : RuntimeCommands} {level max : Nat} :
    (rc.setProfile (some []) level max).error ≠ none := by
  intro h
  obtain ⟨hs, _⟩ := RuntimeCommands.setProfile_some_ok h
  exact Option.some_ne_none _ (scan_cons_error_none hs)

namespace RuntimeProfileState

variable {rp rp' : RuntimeProfileState} {algorithms commands attributes : Option CString} {start max : Nat}

/-- The three lists are carried out one after the other, each from the level of the one before. -/
theorem setRuntimeProfile_ok
    (h : (rp.setRuntimeProfile algorithms commands attributes start max).error = none) :
    ∃ a g c, rp.runtimeAttributes.setProfile attributes start max = a ∧ a.error = none ∧
      rp.runtimeAlgorithm.setProfile algorithms a.level max = g ∧ g.error = none ∧
      rp.runtimeCommands.setProfile commands g.level max = c ∧ c.error = none ∧
      rp.setRuntimeProfile algorithms commands attributes start max =
        ⟨{ rp with runtimeAttributes := a.state, runtimeAlgorithm := g.state, runtimeCommands := c.state },
          c.level, none⟩ := by
  cases ha : (rp.runtimeAttributes.setProfile attributes start max).error with
  | some e =>
      simp only [setRuntimeProfile, ha] at h
      exact absurd h (Option.some_ne_none _)
  | none =>
      cases hg : (rp.runtimeAlgorithm.setProfile algorithms
          (rp.runtimeAttributes.setProfile attributes start max).level max).error with
      | some e =>
          simp only [setRuntimeProfile, ha, hg] at h
          exact absurd h (Option.some_ne_none _)
      | none =>
          simp only [setRuntimeProfile, ha, hg] at h
          refine ⟨_, _, _, rfl, ha, rfl, hg, rfl, h, ?_⟩
          simp only [setRuntimeProfile, ha, hg, h]

/-- What was accepted under a maximum is accepted under the level it reached, with the same
attributes and commands, and with algorithms that agree as far as the list makes them agree. -/
theorem setRuntimeProfile_replay (rp' : RuntimeProfileState) {algs cmds : CString} {R : RuntimeAlgorithm → RuntimeAlgorithm → Prop}
    (h : (rp.setRuntimeProfile (some algs) (some cmds) attributes start max).error = none)
    (hmax : (rp.setRuntimeProfile (some algs) (some cmds) attributes start max).level ≤ max)
    (halg : ∀ level m, (rp.runtimeAlgorithm.setProfile (some algs) level m).error = none →
      (rp'.runtimeAlgorithm.setProfile (some algs) level m).Agree R
        (rp.runtimeAlgorithm.setProfile (some algs) level m)) :
    ∃ r, rp.setRuntimeProfile (some algs) (some cmds) attributes start max = r ∧
      ∃ r', rp'.setRuntimeProfile (some algs) (some cmds) attributes r.level r.level = r' ∧
        r'.error = none ∧ r'.level = r.level ∧ r'.state.runtimeAttributes = r.state.runtimeAttributes ∧
        R r'.state.runtimeAlgorithm r.state.runtimeAlgorithm ∧
        r'.state.runtimeCommands.enabledCommands = r.state.runtimeCommands.enabledCommands := by
  obtain ⟨a, g, c, rfl, ha, hg', hg, hc', hc, heq⟩ := setRuntimeProfile_ok h
  rw [heq] at hmax ⊢
  simp only at hmax
  refine ⟨_, rfl, _, rfl, ?_⟩
  simp only
  obtain ⟨_, hagain⟩ := RuntimeAttributes.setProfile_settles attributes ha
  rw [← hg'] at hg
  obtain ⟨hgl, hgagain⟩ := RuntimeAlgorithm.setProfile_settles (some algs) hg
  rw [← hc'] at hc
  obtain ⟨hcl, hcagain⟩ := RuntimeCommands.setProfile_settles cmds hc
  simp only [hg', hc'] at hgl hgagain hcl hcagain
  obtain ⟨ha1, ha2, ha3, ha4⟩ := hagain c.level c.level (Nat.le_trans hgl hcl) hmax (Nat.le_refl _)
  obtain ⟨hg1, hg2, hg3, hg4⟩ := hgagain c.level _ hcl hmax ha4
  obtain ⟨hc1, hc2, hc3, hc4⟩ := hcagain c.level _ (Nat.le_refl _) hmax hg4
  have hcmds := RuntimeCommands.setProfile_agree rp'.runtimeCommands rp.runtimeCommands (some cmds)
    (rp.runtimeAlgorithm.setProfile (some algs)
      (rp.runtimeAttributes.setProfile attributes c.level c.level).level c.level).level c.level
  have hatt := RuntimeAttributes.setProfile_eq rp'.runtimeAttributes rp.runtimeAttributes attributes
    c.level c.level
  have hagree := halg _ _ hg1
  have hg1' := hagree.error.trans hg1
  have hstate := hagree.state
  rw [hg2] at hstate
  simp only [setRuntimeProfile, hatt, ha1, hg1', hagree.level]
  refine ⟨hcmds.error.trans hc1, ?_, ha2, hstate, ?_⟩
  · refine Nat.le_antisymm (hcmds.level ▸ hc4) ?_
    exact hcmds.level ▸ Nat.le_trans ha3 (Nat.le_trans hg3 hc3)
  · have hst : (rp'.runtimeCommands.setProfile (some cmds) _ c.level).state.enabledCommands = _ := hcmds.state
    rw [hst, hc2]

theorem setRuntimeProfile_bound (h : start ≤ 7) :
    (rp.setRuntimeProfile algorithms commands attributes start max).level ≤ 7 := by
  have ha := RuntimeAttributes.setProfile_bound rp.runtimeAttributes attributes max h
  have hg := RuntimeAlgorithm.setProfile_bound rp.runtimeAlgorithm algorithms max ha
  have hc := RuntimeCommands.setProfile_bound rp.runtimeCommands commands max hg
  unfold setRuntimeProfile
  simp only
  split
  · exact ha
  · split
    · exact hg
    · exact hc

/-- An accepted profile: its parameters, its description, the levels and the lists carried out. -/
structure Accepted (rp : RuntimeProfileState) (json : Option CString) (fromUser : Bool)
    (rp' : RuntimeProfileState) (q : ProfileParameters) (d : RuntimeProfileDesc) (start max : Nat)
    (r : Result RuntimeProfileState Fault) : Prop where
  parameters : getParametersFromJSON json fromUser = .ok q
  found : findByName q fromUser = some d
  levels : formatLevels d fromUser q.stateFormatLevel = some (start, max)
  carried : rp.setRuntimeProfile (withDefaults d q).algorithmsProfile (withDefaults d q).commandsProfile
    (withDefaults d q).attributesProfile start max = r
  ok : r.error = none
  le : r.level ≤ max
  stored : rp' = store { r.state with stateFormatLevel := r.level } json fromUser (withDefaults d q)

theorem set_ok {json : Option CString} {fromUser : Bool} (h : rp.set json fromUser = (rp', none)) :
    ∃ q d start max r, Accepted rp json fromUser rp' q d start max r := by
  unfold set at h
  split at h
  · cases h
  · rename_i q hq
    split at h
    · cases h
    · rename_i d hd
      split at h
      · cases h
      · rename_i start max hl
        simp only at h
        split at h
        · cases h
        · rename_i hr
          split at h
          · cases h
          · rename_i hle
            exact ⟨q, d, start, max, _, hq, hd, hl, rfl, hr, Nat.le_of_not_lt hle, (Prod.mk.inj h).1.symm⟩

theorem Accepted.set {json : Option CString} {fromUser : Bool} {q : ProfileParameters}
    {d : RuntimeProfileDesc} {r : Result RuntimeProfileState Fault}
    (h : Accepted rp json fromUser rp' q d start max r) : rp.set json fromUser = (rp', none) := by
  unfold RuntimeProfileState.set
  simp only [h.parameters, h.found, h.levels, h.carried, h.ok]
  rw [if_neg (Nat.not_lt_of_le h.le), h.stored]

theorem runtimeProfileDescs_clean : ∀ d ∈ runtimeProfileDescs,
    d.attributesProfile = none ∧ 1 ≤ d.stateFormatLevel ∧ d.stateFormatLevel ≤ 7 ∧
      ('"' ∉ d.algorithmsProfile ∧ dedupStrItems d.algorithmsProfile = d.algorithmsProfile) ∧
      ('"' ∉ d.commandsProfile ∧ dedupStrItems d.commandsProfile = d.commandsProfile) ∧
      (d.description ≠ [] ∧ '"' ∉ d.description) := by decide +kernel

theorem findByName_mem {q : ProfileParameters} {fromUser : Bool} {d : RuntimeProfileDesc}
    (h : findByName q fromUser = some d) :
    d ∈ runtimeProfileDescs ∧ ∀ q' : ProfileParameters, q'.profileName = q.profileName →
      findByName q' false = some d := by
  unfold findByName at h
  split at h
  · cases h
  · rename_i d' hd'
    split at h
    · cases h
    · obtain rfl := Option.some.inj h
      refine ⟨List.mem_of_find?_eq_some hd', fun q' hq' => ?_⟩
      unfold findByName
      rw [hq', hd']
      simp only [Bool.and_false, Bool.false_and, Bool.false_eq_true, if_false]

theorem formatLevels_bound {d : RuntimeProfileDesc} {fromUser : Bool} {level : Nat} {start max : Nat}
    (hd : d ∈ runtimeProfileDescs) (hlevel : level ≤ 7)
    (h : formatLevels d fromUser level = some (start, max)) : start ≤ 7 := by
  obtain ⟨_, _, hle, _⟩ := runtimeProfileDescs_clean d hd
  unfold formatLevels at h
  split at h
  · split at h
    · rw [← (Prod.mk.inj (Option.some.inj h)).1]
      exact hle
    · split at h
      · rw [← (Prod.mk.inj (Option.some.inj h)).1]
        exact Nat.zero_le 7
      · split at h
        · cases h
        · rw [← (Prod.mk.inj (Option.some.inj h)).1]
          exact hlevel
  · rw [← (Prod.mk.inj (Option.some.inj h)).1]
    exact hlevel

/-- The lists that an accepted profile was set from, and that the level is one there is. -/
theorem Accepted.lists {json : Option CString} {fromUser : Bool} {q : ProfileParameters}
    {d : RuntimeProfileDesc} {r : Result RuntimeProfileState Fault}
    (h : Accepted rp json fromUser rp' q d start max r) :
    ∃ algs cmds desc, (withDefaults d q).algorithmsProfile = some algs ∧
      (withDefaults d q).commandsProfile = some cmds ∧ (withDefaults d q).profileDescription = some desc ∧
      (withDefaults d q).attributesProfile = q.attributesProfile ∧
      (algs ≠ [] ∧ '"' ∉ algs ∧ dedupStrItems algs = algs) ∧
      (cmds ≠ [] ∧ '"' ∉ cmds ∧ dedupStrItems cmds = cmds) ∧ (desc ≠ [] ∧ '"' ∉ desc) ∧
      1 ≤ r.level ∧ r.level ≤ 7 := by
  obtain ⟨hd, _⟩ := findByName_mem h.found
  obtain ⟨hatt, _, _, halgs, hcmds, hdesc⟩ := runtimeProfileDescs_clean d hd
  have hclean := getParametersFromJSON_clean h.parameters
  obtain ⟨algs, ha, haq⟩ : ∃ v, (withDefaults d q).algorithmsProfile = some v ∧
      '"' ∉ v ∧ dedupStrItems v = v := by
    cases hq : q.algorithmsProfile with
    | none => exact ⟨d.algorithmsProfile, by simp only [withDefaults, hq, Option.none_or], halgs⟩
    | some v => exact ⟨v, by simp only [withDefaults, hq, Option.some_or], hclean.lists v (.inl hq)⟩
  obtain ⟨cmds, hc, hcq⟩ : ∃ v, (withDefaults d q).commandsProfile = some v ∧
      '"' ∉ v ∧ dedupStrItems v = v := by
    cases hq : q.commandsProfile with
    | none => exact ⟨d.commandsProfile, by simp only [withDefaults, hq, Option.none_or], hcmds⟩
    | some v => exact ⟨v, by simp only [withDefaults, hq, Option.some_or], hclean.lists v (.inr (.inl hq))⟩
  obtain ⟨desc, hdes, hdq⟩ : ∃ v, (withDefaults d q).profileDescription = some v ∧ v ≠ [] ∧ '"' ∉ v := by
    cases hq : q.profileDescription with
    | none => exact ⟨d.description, by simp only [withDefaults, hq, Option.none_or], hdesc⟩
    | some v => exact ⟨v, by simp only [withDefaults, hq, Option.some_or], hclean.description v hq⟩
  have hattr : (withDefaults d q).attributesProfile = q.attributesProfile := by
    simp only [withDefaults, hatt, Option.or_none, ite_self]
  have hcarried := h.carried
  rw [ha, hc] at hcarried
  have hok := h.ok
  rw [← hcarried] at hok
  obtain ⟨a, g, c, rfl, _, rfl, hg, rfl, hce, heq⟩ := setRuntimeProfile_ok hok
  refine ⟨algs, cmds, desc, ha, hc, hdes, hattr, ⟨?_, haq⟩, ⟨?_, hcq⟩, hdq, ?_, ?_⟩
  · rintro rfl
    exact RuntimeAlgorithm.setProfile_nil hg
  · rintro rfl
    exact RuntimeCommands.setProfile_nil hce
  · rw [← hcarried, heq]
    exact RuntimeCommands.setProfile_pos hce
  · rw [← h.carried]
    exact setRuntimeProfile_bound (formatLevels_bound hd hclean.level h.levels)

/-- The stored text of an accepted profile is accepted from the state, on any object that takes the
algorithm list as the first one did. -/
theorem Accepted.replay {json : Option CString} {q : ProfileParameters} {d : RuntimeProfileDesc}
    {r : Result RuntimeProfileState Fault} (h : Accepted rp json true rp' q d start max r)
    (before : RuntimeProfileState) (R : RuntimeAlgorithm → RuntimeAlgorithm → Prop)
    (halg : ∀ level m,
      (rp.runtimeAlgorithm.setProfile (withDefaults d q).algorithmsProfile level m).error = none →
      (before.runtimeAlgorithm.setProfile (withDefaults d q).algorithmsProfile level m).Agree R
        (rp.runtimeAlgorithm.setProfile (withDefaults d q).algorithmsProfile level m)) :
    ∃ again r' q', Accepted before rp'.getJSON false again q' d r.level r.level r' ∧
      r'.level = r.level ∧ q'.profileName = q.profileName ∧
      (withDefaults d q').algorithmsProfile = (withDefaults d q).algorithmsProfile ∧
      (withDefaults d q').commandsProfile = (withDefaults d q).commandsProfile ∧
      (withDefaults d q').attributesProfile = (withDefaults d q).attributesProfile ∧
      r'.state.runtimeAttributes = r.state.runtimeAttributes ∧
      R r'.state.runtimeAlgorithm r.state.runtimeAlgorithm ∧
      r'.state.runtimeCommands.enabledCommands = r.state.runtimeCommands.enabledCommands := by
  obtain ⟨algs, cmds, desc, halgs, hcmds, hdesc, hattr, halgsok, hcmdsok, hdescok, hpos, hle⟩ := h.lists
  obtain ⟨hd, hfind⟩ := findByName_mem h.found
  obtain ⟨hnone, _⟩ := runtimeProfileDescs_clean d hd
  have hclean := getParametersFromJSON_clean h.parameters
  have hcarried := h.carried
  rw [halgs, hcmds, hattr] at hcarried
  rw [halgs] at halg
  obtain ⟨r₁, hr₁, r', hr', hok', hlevel', hatt', halg', hcmd'⟩ := setRuntimeProfile_replay
    before (by rw [hcarried]; exact h.ok) (by rw [hcarried]; exact h.le) halg
  obtain rfl := hcarried.symm.trans hr₁
  have hjson : rp'.getJSON = some (runtimeProfileFormat q.profileName r.level (some algs) (some cmds)
      q.attributesProfile (some desc)) := by
    rw [h.stored]
    simp only [getJSON, store, halgs, hcmds, hdesc, hattr]
    rfl
  have hparams := getParametersFromJSON_format hle hclean.name halgsok
    hcmdsok (fun v hv => hclean.lists v (.inr (.inr hv))) hdescok
  have hlevels : formatLevels d false r.level = some (r.level, r.level) := by
    have hne : (r.level == 0) = false := beq_eq_false_iff_ne.mpr (Nat.ne_of_gt hpos)
    simp only [formatLevels, hne, Bool.or_false, Bool.false_eq_true, if_false]
  have hdefaults : ∀ q' : ProfileParameters, q'.attributesProfile = q.attributesProfile →
      (withDefaults d q').attributesProfile = q.attributesProfile := by
    intro q' hq'
    simp only [withDefaults, hnone, Option.or_none, ite_self, hq']
  rw [hjson]
  refine ⟨_, r', ⟨q.profileName, r.level, some algs, some cmds, q.attributesProfile, some (desc.take 250)⟩,
    ⟨hparams, hfind _ rfl, hlevels, ?_, hok', Nat.le_of_eq hlevel', rfl⟩, hlevel', rfl, ?_, ?_, ?_,
    hatt', halg', hcmd'⟩
  · rw [← hr']
    exact congrArg (fun at' => before.setRuntimeProfile (some algs) (some cmds) at' r.level r.level)
      (hdefaults _ rfl)
  · rw [halgs]
    rfl
  · rw [hcmds]
    rfl
  · exact (hdefaults _ rfl).trans hattr.symm

/-- As far as the commands can tell, the profile of `rp'` is that of `rp`. -/
structure Replays (rp' rp : RuntimeProfileState) : Prop where
  name : rp'.profileName = rp.profileName
  stateFormatLevel : rp'.stateFormatLevel = rp.stateFormatLevel
  algorithms : rp'.runtimeAlgorithm.algorithmProfile = rp.runtimeAlgorithm.algorithmProfile
  commands : rp'.runtimeCommands.commandsProfile = rp.runtimeCommands.commandsProfile
  attributes : rp'.runtimeAttributes.attributesProfile = rp.runtimeAttributes.attributesProfile
  algorithmEnabled : ∀ algId, rp'.runtimeAlgorithm.checkEnabled algId = rp.runtimeAlgorithm.checkEnabled algId
  keySizeEnabled : ∀ algId keySizeInBits curveId max,
    rp'.runtimeAlgorithm.keySizeCheckEnabled algId keySizeInBits curveId max =
      rp.runtimeAlgorithm.keySizeCheckEnabled algId keySizeInBits curveId max
  commandEnabled : ∀ code, rp'.runtimeCommands.checkEnabled code = rp.runtimeCommands.checkEnabled code
  attributeRequired : ∀ flags, rp'.requiresAttributeFlags flags = rp.requiresAttributeFlags flags

theorem Accepted.replays {json : Option CString} {q : ProfileParameters} {d : RuntimeProfileDesc}
    {r : Result RuntimeProfileState Fault} (h : Accepted rp json true rp' q d start max r)
    (before : RuntimeProfileState)
    (halg : ∀ level m, before.runtimeAlgorithm.setProfile (withDefaults d q).algorithmsProfile level m =
      rp.runtimeAlgorithm.setProfile (withDefaults d q).algorithmsProfile level m) :
    ∃ again, before.set rp'.getJSON false = (again, none) ∧ again.Replays rp' := by
  obtain ⟨again, r', q', hacc, hlevel, hname, halgs, hcmds, hattrs, hatt, hra, hcmd⟩ :=
    h.replay before Eq fun level m _ => halg level m ▸ ⟨rfl, rfl, rfl⟩
  refine ⟨again, hacc.set, ?_⟩
  have halgorithm : again.runtimeAlgorithm = rp'.runtimeAlgorithm := by
    rw [hacc.stored, h.stored]
    simp only [store, hra, halgs]
  have hcommands : again.runtimeCommands = rp'.runtimeCommands := by
    rw [hacc.stored, h.stored]
    simp only [store, hcmd, hcmds]
  have hattributes : again.runtimeAttributes = rp'.runtimeAttributes := by
    rw [hacc.stored, h.stored]
    simp only [store, hatt, hattrs]
  refine ⟨?_, ?_, ?_, ?_, ?_, ?_, ?_, ?_, ?_⟩
  · rw [hacc.stored, h.stored]
    exact congrArg some hname
  · rw [hacc.stored, h.stored]
    exact hlevel
  · rw [halgorithm]
  · rw [hcommands]
  · rw [hattributes]
  · intro algId
    rw [halgorithm]
  · intro algId keySizeInBits curveId max
    rw [halgorithm]
  · intro code
    rw [hcommands]
  · intro flags
    simp only [requiresAttributeFlags, hattributes]

/-- A profile that the user set, on whatever object, is set again by the text that was stored for
it: on the object itself, and after a restart, where the profile had been set on an initialised
object. -/
theorem stored_profile_replays {rp₀ rp : RuntimeProfileState} {json : Option CString}
    (h : rp₀.init.set json true = (rp, none)) :
    (∃ again, rp.set rp.getJSON false = (again, none) ∧ again.Replays rp) ∧
      ∃ again, zero.restore rp.getJSON = (again, none) ∧ again.Replays rp := by
  obtain ⟨q, d, start, max, r, hacc⟩ := set_ok h
  obtain ⟨algs, cmds, desc, halgs, _⟩ := hacc.lists
  constructor
  · refine hacc.replays rp fun level m => ?_
    have hcarried := hacc.carried
    rw [halgs] at hcarried ⊢
    have hok := hacc.ok
    rw [← hcarried] at hok
    obtain ⟨a, g, c, rfl, _, rfl, hg, rfl, _, heq⟩ := setRuntimeProfile_ok hok
    refine RuntimeAlgorithm.setProfile_congr fun algId hn => ?_
    rw [hacc.stored, ← hcarried, heq]
    simp only [store, RuntimeAlgorithm.setProfile_sizes hg, hn, Option.getD_none]
  · obtain ⟨mid, r', q', hmid, _⟩ := hacc.replay zero (fun _ _ => True) fun level m hok => by
      rw [halgs] at hok ⊢
      exact RuntimeAlgorithm.setProfile_zero hok
    obtain ⟨again, hset, hreplays⟩ := hacc.replays
      { mid with runtimeAlgorithm := mid.runtimeAlgorithm.setDefault } fun level m => by
        rw [halgs]
        exact RuntimeAlgorithm.setProfile_congr fun _ _ => rfl
    refine ⟨again, ?_, hreplays⟩
    simp only [restore, hmid.set]
    exact hset

theorem exists_set {json : Option CString} {fromUser : Bool} (h : (rp.set json fromUser).2 = none) :
    ∃ rp', rp.set json fromUser = (rp', none) :=
  ⟨(rp.set json fromUser).1, Prod.ext rfl h⟩

/-- A profile with one attribute, given twice. -/
def customProfile : CString := "\x7b\"Name\":\"custom:a\",\"Attributes\":\"pct,pct\"\x7d".toList

theorem customProfile_accepted : (zero.init.set (some customProfile) true).2 = none := by decide +kernel

theorem customProfile_replays :
    ∃ rp again, zero.init.set (some customProfile) true = (rp, none) ∧
      zero.restore rp.getJSON = (again, none) ∧ again.Replays rp := by
  obtain ⟨rp, hrp⟩ := exists_set customProfile_accepted
  obtain ⟨again, hset, hreplays⟩ := (stored_profile_replays hrp).2
  exact ⟨rp, again, hrp, hset, hreplays⟩

end RuntimeProfileState

end PqcTpm
