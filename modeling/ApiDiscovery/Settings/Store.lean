import ApiDiscovery.Files.Replace
import ApiDiscovery.Json.Reader
import ApiDiscovery.Json.Writer
import ApiDiscovery.Settings

/-!
# Settings on disk and in the environment

A user's settings are kept in one file in JSON. Variables of the environment go over what the file says,
each over its own field. `Settings.written` is the text that is kept, `Settings.ofBytes?` reads it. How a file is
taken apart is a parameter (`Settings.Parser`), which stands for a reader of JSON that is not part of the program;
`Settings.fileValue?` is the one that is used where none is given.
-/

namespace ApiDiscovery

open Number Text Validation

/-- Why settings cannot be used. -/
inductive SettingsFault where
  | file (path : String) (r : Rejection)
  | environment (r : Rejection)
  | options (r : Rejection)
  /-- A fault in the words of another. -/
  | described (text : String)

namespace SettingsFault

def message : SettingsFault → String
  | file path r => "Invalid global config at " ++ path ++ ": " ++ r.message
  | environment r => "Invalid DISCOGEN_* environment setting: " ++ r.message
  | options r => "Invalid client options: " ++ r.message
  | described text => text

def rejection? : SettingsFault → Option Rejection
  | file _ r | environment r | options r => some r
  | described _ => none

end SettingsFault

/-- Why a store of settings fails. -/
inductive StoreFault where
  | files (f : FileFault)
  | settings (f : SettingsFault)

/-! ## The file -/

namespace Settings

/-- Numbers are positional from `0.00001` up to below `1e16`. -/
def numberLayout : Layout := ⟨-4, 16, 1, "Infinity", "NaN"⟩

/-- The text of a scalar in the file. Infinities and NaN have none. -/
def scalarText : Value → String
  | .str s => Json.writeString false s
  | .int n => toString n
  | .bool b => if b then "true" else "false"
  | .float x => if x.isFinite then numberLayout.render x else "null"
  | _ => "null"

/-- The text that is kept: a field on each line. -/
def written (s : Settings) : String :=
  "\x7b\n" ++ ",\n".intercalate (s.fields.map fun f => "  " ++ Json.writeString false f.1 ++ ": " ++
    scalarText f.2) ++ "\n\x7d\n"

/-- In JSON a whole number that is to be a number with a fraction has at most 64 bits. -/
def jsonNumber : Value → Checked Double
  | .int n => if isWord n then number (.int n) else .fail .numberKind
  | v => number v

def readJson : Value → Checked Settings
  | .map es => readFields jsonNumber es
  | _ => .fail .objectKind

/-- What makes a value of the bytes of a file, if they are JSON. -/
abbrev Parser := List UInt8 → Option Value

/-- A text in JSON, with no half of a character alone. -/
def fileValue? : Parser := fun bytes =>
  match Utf8.decode? bytes with
  | .ok cs => if Json.leavesHalf false cs then none else (Json.parse (String.ofList cs)).toOption
  | .error _ => none

def ofBytes? (bytes : List UInt8) (parse : Parser := fileValue?) : Except Rejection Settings :=
  let checked :=
    match parse bytes with
    | some v => readJson v
    | none => .fail .json
  checked.toExcept shape.name

end Settings

/-! ## The environment -/

/-- What the program runs in: the name of the system and the variables. -/
structure Environment where
  system : String
  values : Table String

namespace Environment

def value? (e : Environment) (name : String) : Option String :=
  (e.values.get? name).filter (!·.isEmpty)

def home (e : Environment) : Path := Path.ofText ((e.value? "HOME").getD "/")

/-- Whether the system keeps settings in a place of their own. -/
def hasSettingsPlace (e : Environment) : Bool := e.system == "Linux" || e.system.endsWith "BSD"

def settingsDirectory (e : Environment) : Path :=
  if e.hasSettingsPlace then
    let base :=
      match e.value? "XDG_CONFIG_HOME" with
      | some p => Path.ofText p
      | none => e.home.child ".config"
    base.child "discogen"
  else e.home.child ".discogen"

/-- The variables that set fields, with the fields that they set. -/
def fieldVariables : List (String × String) := [
  ("discovery_url", "DISCOGEN_DISCOVERY_URL"), ("bundle_dir", "DISCOGEN_BUNDLE_DIR"),
  ("timeout", "DISCOGEN_TIMEOUT"), ("max_retries", "DISCOGEN_MAX_RETRIES")]

def updates (e : Environment) : List (String × String) :=
  fieldVariables.filterMap fun f => (e.value? f.2).map fun v => (f.1, v)

end Environment

def Settings.withVariables (s : Settings) (e : Environment) : Except Rejection Settings :=
  if e.updates.isEmpty then .ok s
  else
    Settings.ofValue? (.ofFields (e.updates.foldl (fun es u => setEntry u.1 (.str u.2) es) s.fields))

/-! ## The store -/

namespace Environment

/-- The directory of the settings, which is made if it is not there. -/
def openDirectory (e : Environment) (fs : Files) : Except FileFault (Path × Files) := do
  let p := e.settingsDirectory
  return (p, ← fs.makeDirs p)

def fileIn (directory : Path) : Path := directory.child "config.json"

/-- The settings of the file, or the defaults if there is none. -/
def readSettings (fs : Files) (directory : Path) (parse : Settings.Parser := Settings.fileValue?) :
    Except StoreFault Settings := do
  let p := fileIn directory
  let there ←
    match fs.isFile p with
    | .ok b => pure b
    | .error f => throw (.files f)
  if !there then return {}
  let bytes ←
    match fs.read p with
    | .ok b => pure b
    | .error f => throw (.files f)
  match Settings.ofBytes? bytes parse with
  | .ok s => return s
  | .error r => throw (.settings (.file p.render r))

def load (e : Environment) (fs : Files) (parse : Settings.Parser := Settings.fileValue?) :
    Except StoreFault Settings × Files :=
  match e.openDirectory fs with
  | .ok (p, fs) => (readSettings fs p parse, fs)
  | .error f => (.error (.files f), fs)

/-- Loads the settings of the file with the variables over them. -/
def resolve (e : Environment) (fs : Files) (parse : Settings.Parser := Settings.fileValue?) :
    Except StoreFault Settings × Files :=
  let (loaded, fs) := e.load fs parse
  let resolved := do
    match (← loaded).withVariables e with
    | .ok s => return s
    | .error r => throw (.settings (.environment r))
  (resolved, fs)

def save (e : Environment) (s : Settings) (fs : Files) : Except FileFault Unit × Files :=
  match e.openDirectory fs with
  | .ok (p, fs) => fs.replace (fileIn p) (Utf8.encode s.written.toList)
  | .error f => (.error f, fs)

end Environment

end ApiDiscovery
