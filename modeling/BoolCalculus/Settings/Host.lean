import BoolCalculus.Fault
import BoolCalculus.Text.Encoding

/-!
# Hosts

What settings are read from: the environment, and what the system says about paths. A host is any answer to these
questions; a path may be relative or absolute, and a file may be there that cannot be read.
-/

namespace BoolCalculus.Settings

/-- The value of every variable that is set. -/
abbrev Environment : Type := Text → Option Text

/-- The value of a variable, if it is set. A name that is no row of bytes cannot be asked for. -/
def lookup (env : Environment) (name : Text) : Except Fault (Option Text) :=
  match Text.byteless? 0 name.points with
  | some (p, first, last) => .error (.notEncodable p first last)
  | none => .ok (env name)

/-- What is found at a path. -/
inductive Found where
  /-- No file. -/
  | nothing
  /-- A file with its content. -/
  | file (bytes : ByteArray)
  /-- A file whose content is withheld. -/
  | unreadable
  /-- No answer: the question whether a file is there is refused. -/
  | refused (fault : Fault)

/-- The machine that settings are read on. -/
structure Host where
  environment : Environment
  files : Text → Found
  /-- How many lists and records may stand inside one another in a file. -/
  nesting : Nat

end BoolCalculus.Settings
