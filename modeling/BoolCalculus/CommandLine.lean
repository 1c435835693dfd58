import BoolCalculus.Json.Printer
import BoolCalculus.Laws.Plan
import BoolCalculus.Text.Number

/-!
# The command line

The command checks all laws by a plan that its options set, and prints a summary or a list of results.
Options are long; an unambiguous beginning of an option names it, a value follows as the next argument
or after an equality sign, and the last use of an option counts.
-/

namespace BoolCalculus.CommandLine

open Laws

/-- The options. -/
inductive Flag where
  | help | size | width | trials | density | seed | device | json | verbose
  deriving DecidableEq, Repr

/-- What the options ask for: a plan, the form of the output, and which options of numbers were last given an
empty list instead of a value. -/
structure Request where
  plan : Plan
  json : Bool
  blank : List Flag

/-- The request without options. -/
def Request.default : Request where
  plan := { Plan.default with size := 5, trials := 50 }
  json := false
  blank := []

/-- The long options with their names. -/
def flags : List (String × Flag) :=
  [("--help", .help), ("--size", .size), ("--width", .width), ("--trials", .trials),
    ("--density", .density), ("--seed", .seed), ("--device", .device), ("--json", .json),
    ("--verbose", .verbose)]

/-- How an argument is understood before values are looked for. -/
inductive Argument where
  /-- An argument that can be a value. -/
  | plain (text : String)
  /-- An option, perhaps with a value after an equality sign. -/
  | option (flag : Flag) (value : Option String)
  /-- The short option for help, with what follows it in the same argument. -/
  | shortHelp (tail : List Char)
  /-- An argument that looks like an option and is none. -/
  | unknown
  /-- A beginning of several options. -/
  | ambiguous
  /-- The sign that only values follow. -/
  | separator

/-- Takes off one line feed at the end. -/
def dropLineFeed (cs : List Char) : List Char :=
  if cs.getLast? = some '\n' then cs.dropLast else cs

/-- Whether an argument is a negative number: digits with at most one point, and perhaps a line feed at
the end. -/
def isNegativeNumber (cs : List Char) : Bool :=
  match dropLineFeed cs with
  | '-' :: rest =>
    match rest.dropWhile (Text.digit? · |>.isSome) with
    | [] => !rest.isEmpty
    | '.' :: part => !part.isEmpty && part.all (Text.digit? · |>.isSome)
    | _ => false
  | _ => false

/-- Splits an argument at its first equality sign. -/
def splitValue (cs : List Char) : String × Option String :=
  let name := String.ofList (cs.takeWhile (· != '='))
  match cs.dropWhile (· != '=') with
  | [] => (name, none)
  | _ :: value => (name, some (String.ofList value))

/-- An argument that starts with a dash and names no option. -/
def classifyOther (cs : List Char) : Argument :=
  if isNegativeNumber cs || ' ' ∈ cs then .plain (String.ofList cs) else .unknown

/-- Understands one argument. -/
def classify (text : String) : Argument :=
  match text.toList with
  | ['-', '-'] => .separator
  | '-' :: '-' :: rest =>
    let (name, value) := splitValue ('-' :: '-' :: rest)
    match flags.lookup text, flags.lookup name with
    | some flag, _ => .option flag none
    | none, some flag => .option flag value
    | none, none =>
      match flags.filter (name.toList.isPrefixOf ·.1.toList) with
      | [(_, flag)] => .option flag value
      | [] => classifyOther text.toList
      | _ => .ambiguous
  | '-' :: 'h' :: tail => .shortHelp tail
  | ['-'] => .plain text
  | '-' :: rest => classifyOther ('-' :: rest)
  | _ => .plain text

/-- Understands all arguments; after a separator every argument is plain. -/
def classifyAll : List String → List Argument
  | [] => []
  | text :: rest =>
    match classify text with
    | .separator => .separator :: rest.map .plain
    | argument => argument :: classifyAll rest

/-- What the arguments come to. -/
inductive Reading where
  | request (r : Request)
  | help
  | usageError

/-- The plan with an option set from the text of its value. -/
def planWith? (p : Plan) (flag : Flag) (text : String) : Option Plan :=
  match flag with
  | .size => (Text.readInt text).map fun n => { p with size := n }
  | .width => (Text.readInt text).map fun n => { p with width := n }
  | .trials => (Text.readInt text).map fun n => { p with trials := n }
  | .seed => (Text.readInt text).map fun n => { p with seed := n }
  | .density => (Text.readAmount text).map fun a => { p with density := a }
  | .device => some { p with device := .text text }
  | .help | .json | .verbose => none

/-- Whether an option has a value. -/
def Flag.hasValue : Flag → Bool
  | .help | .json | .verbose => false
  | _ => true

/-- Sets an option from the text of its value. The sign that only values follow is no value, and leaves an
empty list in its place. -/
def Request.set (r : Request) (flag : Flag) (text : String) : Option Request :=
  if flag.hasValue && text == "--" then
    if flag = .device then some { r with plan := { r.plan with device := .list [] } }
    else some { r with blank := flag :: r.blank }
  else (planWith? r.plan flag text).map fun plan => { r with plan, blank := r.blank.filter (· != flag) }

/-- Whether what follows the short option for help in its argument may stand there: more of the same,
also after an equality sign, and nothing else. -/
def helpTail (tail : List Char) : Bool :=
  match tail with
  | '=' :: more => !more.isEmpty && more.all (· == 'h')
  | more => more.all (· == 'h')

/-- Goes through the arguments. Arguments that are neither options nor values of options are an error,
which is noted in `stray` and reported at the end. -/
def interpret (r : Request) (stray : Bool) : List Argument → Reading
  | [] => if stray then .usageError else .request r
  | .option flag (some value) :: rest =>
    match r.set flag value with
    | some r => interpret r stray rest
    | none => .usageError
  | .option .help none :: _ => .help
  | .option .json none :: rest => interpret { r with json := true } stray rest
  | .option .verbose none :: rest => interpret r stray rest
  | .option flag none :: .plain value :: rest =>
    match r.set flag value with
    | some r => interpret r stray rest
    | none => .usageError
  | .option _ none :: _ => .usageError
  | .shortHelp tail :: _ => if helpTail tail then .help else .usageError
  | .plain _ :: rest => interpret r true rest
  | .unknown :: rest => interpret r true rest
  | .separator :: rest => interpret r true rest
  | .ambiguous :: _ => .usageError

/-- Reads the arguments. An ambiguous option is an error wherever it stands. -/
def read (args : List String) : Reading :=
  let arguments := classifyAll args
  if arguments.any fun | .ambiguous => true | _ => false then .usageError
  else interpret Request.default false arguments

/-- The help text. -/
def helpText : String :=
  "\n".intercalate
    ["usage: check_laws.py [-h] [--size SIZE] [--width WIDTH] [--trials TRIALS]",
      "                     [--density DENSITY] [--seed SEED] [--device DEVICE]",
      "                     [--json] [--verbose]",
      "",
      "Check relation and bit-vector algebra laws",
      "",
      "options:",
      "  -h, --help         show this help message and exit",
      "  --size SIZE        Universe size for relations",
      "  --width WIDTH      Bit width for arithmetic",
      "  --trials TRIALS",
      "  --density DENSITY  Probability that a pair belongs to a random relation",
      "  --seed SEED",
      "  --device DEVICE",
      "  --json             Print results as JSON",
      "  --verbose",
      ""]

/-- The code with which the command ends and what it prints. -/
structure Outcome where
  exit : Nat
  stdout : Text

/-- Results as a list of records. -/
def resultsJson (results : List Result) : Value :=
  .list (results.map fun r =>
    .record [("law", .text r.law), ("trials", .int r.trials), ("failures", .int r.failures)])

/-- What the command prints for results, and its code, which is 0 if all laws hold. -/
def report (json : Bool) (results : List Result) : Outcome where
  exit := if results.all Result.holds then 0 else 1
  stdout := (if json then (Json.indented (resultsJson results) : Text) else Result.summary results) ++ "\n"

/-- Checks all laws as asked for. An empty list is refused where a number is first needed: the width, the size after
the device was chosen, the number of trials, and the density if there are trials. -/
def Request.check (r : Request) (host : Settings.Host) (library : Library Draws) : Except Fault (List Result) := do
  let noOrder : Fault := .misuse (.notOrdered "list" "int")
  if .width ∈ r.blank then throw noOrder
  if .size ∈ r.blank then
    if r.plan.width < 1 then throw (.emptyWidth r.plan.width)
    let _ ← library.onDevice host r.plan.device
    throw noOrder
  let _ ← r.plan.checker host library
  if .trials ∈ r.blank then throw (.misuse (.noNumber "list"))
  if .density ∈ r.blank ∧ 0 < r.plan.trials then throw (.misuse (.notOrdered "Tensor" "list"))
  r.plan.check host library

/-- Runs the command. -/
def run (host : Settings.Host) (library : Library Draws) (args : List String) : Except Fault Outcome :=
  match read args with
  | .usageError => .ok ⟨2, ""⟩
  | .help => .ok ⟨0, helpText⟩
  | .request r => do
    let results ← r.check host library
    pure (report r.json results)

end BoolCalculus.CommandLine
