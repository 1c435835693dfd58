import BoolCalculus.Fault
import BoolCalculus.Json.Reader
import BoolCalculus.Settings.Folder
import BoolCalculus.Text.Blank
import BoolCalculus.Text.Uppercase
import BoolCalculus.Value.Display

/-!
# Settings

A setting is found by a path of keys. Three layers are asked for it: a record of settings, usually
read from a file, then the environment, then the default of the caller. A layer answers if it holds
anything but null; a later layer is not asked when an earlier one has answered, whatever the answer. A file
that is no record of settings is passed over; the environment cannot be asked for a name that has no bytes.
-/

namespace BoolCalculus.Settings

/-- What was passed over while settings were read. -/
inductive Warning where
  /-- A file of settings could not be read as JSON. -/
  | unreadable (path : Text)
  /-- A file of settings holds no record. -/
  | noRecord (path : Text)
  /-- A text is not a word for true or false. -/
  | unrecognised (text name : Text) (default : Value)

/-- The wording of a warning. -/
def Warning.message : Warning → Text
  | unreadable path => "Ignoring unreadable config " ++ path
  | noRecord path => "Ignoring config " ++ path ++ ": top level is not an object"
  | unrecognised text name default =>
    "Unrecognised value " ++ Text.ofString text.quoted ++ " for " ++ name ++ ", using " ++
      default.display

/-- The variable that names the file of settings. -/
def pathVariable : Text := "LOGIC_ALGEBRA_CONFIG"

/-- The file of settings if nothing else is named. -/
def defaultPath : Text := "config.json"

/-- The path of the file of settings: the one given, else the one in the environment, else the
default. -/
def settingsPath (env : Environment) (given : Option Text) : Text :=
  normalPath (given.getD ((env pathVariable).getD defaultPath))

/-- Reads the content of a file of settings. A file without a record of settings counts as empty. Too many levels of
lists and records are not taken for a fault of the file. -/
def ofBytes (nesting : Nat) (path : Text) (bytes : ByteArray) : Except Fault (Keyed Value × List Warning) :=
  match String.fromUTF8? bytes with
  | none => .ok ([], [.unreadable path])
  | some text =>
    match Json.readNested nesting text with
    | .ok (.record fields) => .ok (fields, [])
    | .ok _ => .ok ([], [.noRecord path])
    | .error .malformed => .ok ([], [.unreadable path])
    | .error (.tooNested record) => .error (.tooNested record)

/-- Loads the file of settings; a file that is not there, or that cannot be read, counts as empty. Whether it is there
has to be known. -/
def load (host : Host) (given : Option Text) : Except Fault (Keyed Value × List Warning) :=
  let path := settingsPath host.environment given
  match host.files path with
  | .nothing => .ok ([], [])
  | .file bytes => ofBytes host.nesting path bytes
  | .unreadable => .ok ([], [.unreadable path])
  | .refused fault => .error fault

/-- The environment variable of a key path. -/
def variableOf (keys : List Text) : Text :=
  Text.join "_" (keys.map Text.upper)

/-- The value at the end of a key path; null if the path leaves the records. -/
def valueAt : Value → List Text → Value
  | v, [] => v
  | v, key :: keys => valueAt (v.field key) keys

/-- The value of a setting. The environment is asked only where the record does not answer. -/
def resolve (config : Value) (env : Environment) (keys : List Text) (default : Value) : Except Fault Value :=
  match valueAt config keys with
  | .null => do pure (((← lookup env (variableOf keys)).map Value.text).getD default)
  | v => .ok v

/-- The words for true. -/
def trueWords : List String := ["1", "true", "yes", "on"]

/-- The words for false; an empty text is one of them. -/
def falseWords : List String := ["0", "false", "no", "off", ""]

/-- The truth value of a word, without regard to blanks around it and to the case of its letters. No
letter outside ASCII has a small form in a word of the lists. -/
def word? (text : Text) : Option Bool :=
  (Text.strip text).chars?.bind fun cs =>
    let word := (String.ofList cs).toLower
    if word ∈ trueWords then some true
    else if word ∈ falseWords then some false
    else none

/-- The value of a setting as a truth value: a text by the word lists, with the default and a warning for
another text, and any other value by whether it counts as true. -/
def asFlag (name : Text) (default : Value) : Value → Value × List Warning
  | .text text =>
    match word? text with
    | some b => (.truth b, [])
    | none => (default, [.unrecognised text name default])
  | v => (.truth v.isTrue, [])

/-- A setting as a truth value. -/
def flag (config : Value) (env : Environment) (keys : List Text) (default : Value) :
    Except Fault (Value × List Warning) := do
  pure (asFlag (variableOf keys) default (← resolve config env keys default))

namespace Host

/-- Reads settings from a given record, or from the file of settings, with the warnings that this makes. -/
def withSettings {β : Type} (host : Host) (given : Value) (read : Value → Except Fault (β × List Warning)) :
    Except Fault (β × List Warning) :=
  match given with
  | .null => do
    let (fields, warnings) ← load host none
    let (b, more) ← read (.record fields)
    pure (b, warnings ++ more)
  | config => read config

/-- The value of a setting on a host. -/
def setting (host : Host) (given : Value) (keys : List Text) (default : Value) : Except Fault (Value × List Warning) :=
  host.withSettings given fun config => do pure (← resolve config host.environment keys default, [])

/-- A setting on a host as a truth value. -/
def flag (host : Host) (given : Value) (keys : List Text) (default : Value) : Except Fault (Value × List Warning) :=
  host.withSettings given fun config => Settings.flag config host.environment keys default

/-- Whether operands are checked for membership: as asked for, or as set. -/
def checkMembership (host : Host) (asked : Value) : Except Fault (Value × List Warning) :=
  match asked with
  | .null => host.flag .null ["engine", "check_membership"] (.truth false)
  | v => .ok (v, [])

end Host

/-- The devices of a library of dense tensors. -/
structure Devices where
  /-- The device that is used if none is asked for and none is set. -/
  standard : Value
  /-- The device that a value names, if it names one. -/
  named : Value → Except Fault Value

/-- The device of dense tensors: as asked for, or as set, or the standard one. -/
def Devices.choose (devices : Devices) (host : Host) (asked : Value) : Except Fault (Value × List Warning) :=
  match asked with
  | .null => do
    let (value, warnings) ← host.setting .null ["engine", "device"] .null
    match value with
    | .null => pure (devices.standard, warnings)
    | v => pure (← devices.named v, warnings)
  | v => do pure (← devices.named v, [])

end BoolCalculus.Settings
