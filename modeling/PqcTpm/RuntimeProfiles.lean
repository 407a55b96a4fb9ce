import PqcTpm.RuntimeAttributes
import PqcTpm.RuntimeCommands

/-!
# Profiles

`RuntimeProfile.c`: a profile as a JSON map, the built-in profiles, setting a profile and
writing it down for the state. The regular expressions of the source are read off the parts
between the quotes: `RuntimeProfileCheckJSON` admits no escapes.
-/
namespace PqcTpm
open LevelScan TextFields

/-! ## The JSON map -/

/-- A value of the map: `"[^"]*"` or `[[:digit:]]+`. -/
inductive JsonValue
  | string (s : CString)
  | digits (s : CString)
  deriving DecidableEq, Repr

namespace ProfileJson

def isDecimal (c : Char) : Bool := isDigit 10 c

/-- What follows a value. -/
inductive Joint
  /-- A comma, and the quote of the next key. -/
  | comma
  /-- The brace that ends the map. -/
  | brace
  deriving DecidableEq, Repr

/-- The text between a value and the next quote or the end. -/
def joint (part : CString) : Option Joint :=
  match part.dropWhile isSpace with
  | ['}'] => some .brace
  | ',' :: rest => if rest.all isSpace then some .comma else none
  | _ => none

/-- The entries of the map, from the parts behind the quote of the first key. -/
def members : List CString → Option (List (CString × JsonValue))
  | key :: colon :: rest =>
    if key = [] then none else
    match colon.dropWhile isSpace with
    | ':' :: value =>
      match value.dropWhile isSpace with
      | [] =>
        match rest with
        | s :: after :: more =>
          match joint after with
          | some .comma => (members more).map ((key, .string s) :: ·)
          | some .brace => if more = [] then some [(key, .string s)] else none
          | none => none
        | _ => none
      | c :: cs =>
        if (c :: cs).takeWhile isDecimal = [] then none else
        match joint ((c :: cs).dropWhile isDecimal) with
        | some .comma => (members rest).map ((key, .digits ((c :: cs).takeWhile isDecimal)) :: ·)
        | some .brace =>
          if rest = [] then some [(key, .digits ((c :: cs).takeWhile isDecimal))] else none
        | none => none
    | _ => none
  | _ => none

/-- `RuntimeProfileCheckJSON`, with the entries of the map. -/
def checkJSON (json : CString) : Option (List (CString × JsonValue)) :=
  match json.splitOn '"' with
  | ('{' :: opening) :: rest =>
    match opening.dropWhile isSpace with
    | [] => members rest
    | ['}'] => if rest = [] then some [] else none
    | ',' :: cs => if cs.all isSpace then members rest else none
    | _ => none
  | _ => none

/-- `"([^"]+)"`. -/
def text : JsonValue → Option CString
  | .string s => if s = [] then none else some s
  | .digits _ => none

/-- `"([^"]*)"`. -/
def textOrEmpty : JsonValue → Option CString
  | .string s => some s
  | .digits _ => none

/-- `([0-9]+)`. -/
def number : JsonValue → Option CString
  | .string _ => none
  | .digits s => some s

/-- `RuntimeProfileGetFromJSON`: the `.*` in front of the key makes it the last fitting entry. -/
def get (key : String) (shape : JsonValue → Option CString) (entries : List (CString × JsonValue)) :
    Option CString :=
  (entries.filterMap fun e => if e.1 = key.toList then shape e.2 else none).getLast?

end ProfileJson

/-- What `GetParametersFromJSON` hands back. -/
structure ProfileParameters where
  profileName : CString
  stateFormatLevel : Nat
  algorithmsProfile : Option CString
  commandsProfile : Option CString
  attributesProfile : Option CString
  profileDescription : Option CString
  deriving DecidableEq

/-- `GetStateFormatLevelFromJSON`. -/
def getStateFormatLevel (entries : List (CString × JsonValue)) : Except RcCode Nat :=
  match ProfileJson.get "StateFormatLevel" ProfileJson.number entries with
  | none => .error .noResult
  | some s =>
    if (strtoul s 10).value > 2 ^ 32 - 1 ∨ (strtoul s 10).erange then .error .value
    else .ok (strtoul s 10).value

/-- The level in `GetParametersFromJSON`: the user may leave it out. -/
def levelParameter (fromUser : Bool) (entries : List (CString × JsonValue)) : Except RcCode Nat :=
  match getStateFormatLevel entries with
  | .ok level => if level > 7 then .error .value else .ok level
  | .error .noResult => if fromUser then .ok 0 else .error .noResult
  | .error e => .error e

/-- `RuntimeProfileDedupStrItems`. -/
def dedupStrItems (input : CString) : CString := dedup ',' '=' input

/-- The rest of `GetParametersFromJSON`, on the entries of the map. -/
def entryParameters (fromUser : Bool) (entries : List (CString × JsonValue)) :
    Except RcCode ProfileParameters :=
  match ProfileJson.get "Name" ProfileJson.text entries with
  | none => .error .noResult
  | some name => (levelParameter fromUser entries).map fun level =>
    { profileName := name.take 32
      stateFormatLevel := level
      algorithmsProfile := (ProfileJson.get "Algorithms" ProfileJson.text entries).map dedupStrItems
      commandsProfile := (ProfileJson.get "Commands" ProfileJson.text entries).map dedupStrItems
      attributesProfile := (ProfileJson.get "Attributes" ProfileJson.textOrEmpty entries).map dedupStrItems
      profileDescription := (ProfileJson.get "Description" ProfileJson.text entries).map (·.take 250) }

/-- `GetParametersFromJSON`. -/
def getParametersFromJSON (jsonProfile : Option CString) (fromUser : Bool) :
    Except RcCode ProfileParameters :=
  match jsonProfile with
  | none => .ok
      { profileName := "null".toList
        stateFormatLevel := 0
        algorithmsProfile := none
        commandsProfile := none
        attributesProfile := none
        profileDescription := none }
  | some json =>
    match ProfileJson.checkJSON json with
    | none => .error .noResult
    | some entries => entryParameters fromUser entries

/-- An entry that `RuntimeProfileFormat` leaves out when there is no value. -/
def formatEntry (key : String) : Option CString → CString
  | none => []
  | some value => ',' :: '"' :: (key.toList ++ '"' :: ':' :: '"' :: (value ++ ['"']))

/-- `RuntimeProfileFormat`. -/
def runtimeProfileFormat (profileName : CString) (stateFormatLevel : Nat)
    (algorithmsProfile commandsProfile attributesProfile profileDescription : Option CString) : CString :=
  '{' :: '"' :: ("Name".toList ++ '"' :: ':' :: '"' :: (profileName ++ '"' :: ',' ::
    '"' :: ("StateFormatLevel".toList ++ '"' :: ':' :: (Nat.toDigits 10 stateFormatLevel ++
      (formatEntry "Commands" commandsProfile ++ (formatEntry "Algorithms" algorithmsProfile ++
        (formatEntry "Attributes" attributesProfile ++
          (formatEntry "Description" profileDescription ++ ['}']))))))))

example : runtimeProfileFormat "null".toList 1 none (some "0x11f".toList) none none =
    "\x7b\"Name\":\"null\",\"StateFormatLevel\":1,\"Commands\":\"0x11f\"\x7d".toList := by decide

/-! ## The built-in profiles -/

/-- The texts of the source, cut where they can be read piece by piece. -/
def commaSeparated (items : List String) : CString := [','].intercalate (items.map String.toList)

def spaced (words : List String) : CString := [' '].intercalate (words.map String.toList)

def defaultCommandsProfile : CString :=
  commaSeparated
    ["0x11f-0x122", "0x124-0x12e", "0x130-0x140", "0x142-0x159", "0x15b-0x15e", "0x160-0x165",
     "0x167-0x174", "0x176-0x178", "0x17a-0x193", "0x197", "0x199-0x19c", "0x1a3-0x1aa"]

def defaultAlgorithmsProfile : CString :=
  commaSeparated
    ["rsa", "rsa-min-size=1024", "tdes", "tdes-min-size=128", "sha1", "hmac", "aes",
     "aes-min-size=128", "mgf1", "keyedhash", "xor", "sha256", "sha384", "sha512", "null",
     "rsassa", "rsaes", "rsapss", "oaep", "ecdsa", "ecdh", "ecdaa", "sm2", "ecschnorr", "ecmqv",
     "kdf1-sp800-56a", "kdf2", "kdf1-sp800-108", "ecc", "ecc-min-size=192", "ecc-nist", "ecc-bn",
     "ecc-sm2-p256", "symcipher", "camellia", "camellia-min-size=128", "cmac", "ctr", "ofb",
     "cbc", "cfb", "ecb", "mlkem", "mldsa", "hash-mldsa"]

structure RuntimeProfileDesc where
  name : CString
  /-- `.prefix`, NULL but for custom profiles. -/
  start : Option CString
  commandsProfile : CString
  algorithmsProfile : CString
  /-- Set in none of the descriptions. -/
  attributesProfile : Option CString
  stateFormatLevel : Nat
  description : CString
  allowModifications : Bool
  deriving DecidableEq

def runtimeProfileDescs : List RuntimeProfileDesc :=
  [{ name := "default-v1".toList
     start := none
     commandsProfile := defaultCommandsProfile
     algorithmsProfile := defaultAlgorithmsProfile
     attributesProfile := none
     stateFormatLevel := 7
     description := spaced
       ["This", "profile", "enables", "all", "libtpms", "v0.10-supported", "commands", "and",
        "algorithms.", "This", "profile", "is", "compatible", "with", "libtpms", ">=", "v0.10."]
     allowModifications := false },
   { name := "null".toList
     start := none
     commandsProfile := commaSeparated
       ["0x11f-0x122", "0x124-0x12e", "0x130-0x140", "0x142-0x159", "0x15b-0x15e", "0x160-0x165",
        "0x167-0x174", "0x176-0x178", "0x17a-0x193", "0x197"]
     algorithmsProfile := commaSeparated
       ["rsa", "rsa-min-size=1024", "tdes", "tdes-min-size=128", "sha1", "hmac", "aes",
        "aes-min-size=128", "mgf1", "keyedhash", "xor", "sha256", "sha384", "sha512", "null",
        "rsassa", "rsaes", "rsapss", "oaep", "ecdsa", "ecdh", "ecdaa", "sm2", "ecschnorr",
        "ecmqv", "kdf1-sp800-56a", "kdf2", "kdf1-sp800-108", "ecc", "ecc-min-size=192",
        "ecc-nist", "ecc-bn", "ecc-sm2-p256", "symcipher", "camellia", "camellia-min-size=128",
        "cmac", "ctr", "ofb", "cbc", "cfb", "ecb"]
     attributesProfile := none
     stateFormatLevel := 1
     description := spaced
       ["The", "profile", "enables", "the", "commands", "and", "algorithms", "that", "were",
        "enabled", "in", "libtpms", "v0.9.", "This", "profile", "is", "automatically", "used",
        "when", "the", "state", "does", "not", "have", "a", "profile,", "for", "example", "when",
        "it", "was", "created", "by", "libtpms", "v0.9", "or", "before.", "This", "profile",
        "enables", "compatibility", "with", "libtpms", ">=", "v0.9."]
     allowModifications := false },
   { name := "custom".toList
     start := some "custom:".toList
     commandsProfile := defaultCommandsProfile
     algorithmsProfile := defaultAlgorithmsProfile
     attributesProfile := none
     stateFormatLevel := 2
     description := spaced
       ["This", "profile", "allows", "customization", "of", "enabled", "algorithms", "and",
        "commands.", "This", "profile", "requires", "at", "least", "libtpms", "v0.10."]
     allowModifications := true }]

/-- `RuntimeProfileNameMatch`. -/
def RuntimeProfileDesc.nameMatch (rp : RuntimeProfileDesc) (profileName : CString) : Bool :=
  rp.name == profileName || rp.start.any (·.isPrefixOf profileName)

/-- Something beyond the name is given. -/
def ProfileParameters.customizes (q : ProfileParameters) : Bool :=
  decide (q.stateFormatLevel ≠ 0) || q.commandsProfile.isSome || q.algorithmsProfile.isSome ||
    q.attributesProfile.isSome || q.profileDescription.isSome

/-- `RuntimeProfileFindByName`. -/
def findByName (q : ProfileParameters) (fromUser : Bool) : Option RuntimeProfileDesc :=
  match runtimeProfileDescs.find? (·.nameMatch q.profileName) with
  | none => none
  | some rp => if !rp.allowModifications && fromUser && q.customizes then none else some rp

/-! ## Setting a profile -/

/-- `struct RuntimeProfile`, the whole of it. -/
structure RuntimeProfileState where
  runtimeAlgorithm : RuntimeAlgorithm
  runtimeCommands : RuntimeCommands
  runtimeAttributes : RuntimeAttributes
  profileName : Option CString
  runtimeProfileJSON : Option CString
  stateFormatLevel : Nat
  wasNullProfile : Bool
  profileDescription : Option CString

namespace RuntimeProfileState

/-- `g_RuntimeProfile` when the process starts. -/
def zero : RuntimeProfileState where
  runtimeAlgorithm := RuntimeAlgorithm.zero
  runtimeCommands := RuntimeCommands.init
  runtimeAttributes := RuntimeAttributes.init
  profileName := none
  runtimeProfileJSON := none
  stateFormatLevel := 0
  wasNullProfile := false
  profileDescription := none

/-- `RuntimeProfileInit`. -/
def init (rp : RuntimeProfileState) : RuntimeProfileState where
  runtimeAlgorithm := rp.runtimeAlgorithm.init
  runtimeCommands := RuntimeCommands.init
  runtimeAttributes := RuntimeAttributes.init
  profileName := none
  runtimeProfileJSON := none
  stateFormatLevel := 0
  wasNullProfile := false
  profileDescription := rp.profileDescription

/-- `RuntimeProfileSetRuntimeProfile`. -/
def setRuntimeProfile (rp : RuntimeProfileState)
    (algorithmsProfile commandsProfile attributesProfile : Option CString) (level max : Nat) :
    Result RuntimeProfileState Fault :=
  let a := rp.runtimeAttributes.setProfile attributesProfile level max
  match a.error with
  | some e => ⟨{ rp with runtimeAttributes := a.state }, a.level, some (.of e)⟩
  | none =>
    let g := rp.runtimeAlgorithm.setProfile algorithmsProfile a.level max
    match g.error with
    | some e => ⟨{ rp with runtimeAttributes := a.state, runtimeAlgorithm := g.state }, g.level, some (.of e)⟩
    | none =>
      let c := rp.runtimeCommands.setProfile commandsProfile g.level max
      ⟨{ rp with runtimeAttributes := a.state, runtimeAlgorithm := g.state, runtimeCommands := c.state },
        c.level, c.error⟩

/-- The level to start from and the maximum; none where a custom profile asks for level 1. -/
def formatLevels (d : RuntimeProfileDesc) (fromUser : Bool) (levelJSON : Nat) : Option (Nat × Nat) :=
  if fromUser || levelJSON == 0 then
    if !d.allowModifications then some (d.stateFormatLevel, d.stateFormatLevel)
    else if levelJSON = 0 then some (0, 2 ^ 32 - 1)
    else if levelJSON < 2 then none
    else some (levelJSON, levelJSON)
  else some (levelJSON, levelJSON)

/-- The lists that `RuntimeProfileSet` works with: what is not given is taken from the description. -/
def withDefaults (d : RuntimeProfileDesc) (q : ProfileParameters) : ProfileParameters :=
  { q with
    attributesProfile := if d.allowModifications then q.attributesProfile
      else q.attributesProfile.or d.attributesProfile
    algorithmsProfile := q.algorithmsProfile.or (some d.algorithmsProfile)
    commandsProfile := q.commandsProfile.or (some d.commandsProfile)
    profileDescription := q.profileDescription.or (some d.description) }

/-- The end of `RuntimeProfileSet`: the strings are stored. -/
def store (rp : RuntimeProfileState) (jsonProfile : Option CString) (fromUser : Bool)
    (q : ProfileParameters) : RuntimeProfileState where
  runtimeAlgorithm := { rp.runtimeAlgorithm with algorithmProfile := q.algorithmsProfile }
  runtimeCommands := { rp.runtimeCommands with commandsProfile := q.commandsProfile }
  runtimeAttributes := { rp.runtimeAttributes with attributesProfile := q.attributesProfile }
  profileName := some q.profileName
  runtimeProfileJSON := some (runtimeProfileFormat q.profileName rp.stateFormatLevel
    q.algorithmsProfile q.commandsProfile q.attributesProfile q.profileDescription)
  stateFormatLevel := rp.stateFormatLevel
  wasNullProfile := (jsonProfile.isNone && !fromUser) || (fromUser && q.profileName == "null".toList)
  profileDescription := q.profileDescription

/-- `RuntimeProfileSet`, with the object it leaves and why it failed; `failureMode` is an assertion. -/
def set (rp : RuntimeProfileState) (jsonProfile : Option CString) (fromUser : Bool) :
    RuntimeProfileState × Option Fault :=
  match getParametersFromJSON jsonProfile fromUser with
  | .error e => (rp, some (.of e))
  | .ok q =>
    match findByName q fromUser with
    | none => (rp, some (.of .value))
    | some d =>
      match formatLevels d fromUser q.stateFormatLevel with
      | none => (rp, some (.of .memory))
      | some (start, max) =>
        let q := withDefaults d q
        let r := rp.setRuntimeProfile q.algorithmsProfile q.commandsProfile q.attributesProfile start max
        let rp := { r.state with stateFormatLevel := r.level }
        match r.error with
        | some e => (rp, some e)
        | none => if max < r.level then (rp, some .failureMode) else (rp.store jsonProfile fromUser q, none)

/-- `RuntimeProfileGetJSON`. -/
def getJSON (rp : RuntimeProfileState) : Option CString := rp.runtimeProfileJSON

/-- What `PERSISTENT_ALL_Unmarshal` does to the profile: set it, admit every algorithm while the
state is read, set it again. -/
def restore (rp : RuntimeProfileState) (profileJSON : Option CString) :
    RuntimeProfileState × Option Fault :=
  match rp.set profileJSON false with
  | (rp, some e) => (rp, some e)
  | (rp, none) => { rp with runtimeAlgorithm := rp.runtimeAlgorithm.setDefault }.set profileJSON false

/-- `RuntimeProfileRequiresAttributeFlags`. -/
def requiresAttributeFlags (rp : RuntimeProfileState) (flags : UInt32) : Bool :=
  rp.runtimeAttributes.checkRequired flags

end RuntimeProfileState

end PqcTpm
