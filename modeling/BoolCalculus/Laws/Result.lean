import BoolCalculus.Text

/-!
# Results of law checks

What came of checking a law a number of times, and the summary of several results.
-/

namespace BoolCalculus.Laws

/-- The result of checking a law: how often it was to be tried and how often it failed. -/
structure Result where
  law : Text
  trials : Int
  failures : Int
  deriving DecidableEq, Repr

namespace Result

/-- A law holds if it never failed. -/
def holds (r : Result) : Bool :=
  r.failures == 0

/-- The lines of one result, with an empty line after them. -/
def lines (r : Result) : List Text :=
  let status := if r.holds then "OK" else "VIOLATED"
  ["Law: " ++ r.law, s!"  Failures: {r.failures}/{r.trials} [{status}]", ""]

/-- A line of sixty equality signs. -/
def rule : String :=
  String.ofList (List.replicate 60 '=')

/-- The results with a heading and the number of violated laws. -/
def summary (results : List Result) : Text :=
  let violated := results.countP (!·.holds)
  Text.join "\n"
    (([rule, " Algebraic Law Summary", rule, ""] : List Text) ++ results.flatMap lines ++
      ([s!"Violated laws: {violated}/{results.length}", rule] : List Text))

end Result

end BoolCalculus.Laws
