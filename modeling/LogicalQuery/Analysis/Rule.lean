import LogicalQuery.Catalog.Basic
import LogicalQuery.Plan.Basic
import LogicalQuery.Text.CodePoints
import LogicalQuery.Text.Numeral

/-!
# Rules

A rule binds the parts of a plan to what it finds in a context. A rule never fails: where nothing
can be bound, it leaves the plan as it is.

The settings of an analysis are part of the context. They have defaults, and two of them can be read
from variables such as those of the environment. The names of the variables begin with a stem, by
which several programs in one environment keep theirs apart.
-/

namespace LogicalQuery

/-! ### Settings -/

/-- How plans are analyzed. -/
structure Settings where
  /-- The greatest number of passes before the analysis gives up. -/
  maxIterations : Nat := 1000
  /-- The database of tables that are named without one. -/
  defaultDatabase : String := LogicalQuery.defaultDatabase
  /-- Whether a trace of the rules is asked for. -/
  traceRules : Bool := false
deriving DecidableEq, Repr

namespace Settings

/-- The variable that holds the greatest number of passes. -/
def maxIterationsVariable (stem : String) : String := stem ++ "_MAX_ANALYSIS_ITERATIONS"

/-- The variable whose presence asks for a trace of the rules. -/
def traceRulesVariable (stem : String) : String := stem ++ "_TRACE_RULES"

/-- The greatest number of passes that a text stands for: a numeral below `2 ^ 64`, with white
space around it. -/
def readMaxIterations? (s : String) : Option Nat :=
  (Text.readNat (Nat.pow 2 64 - 1) (Text.trim s)).toOption

/-- The settings that the variables with a stem give, with the defaults for those that are absent
or not a number. -/
def ofLookup (stem : String) (lookup : String → Option String) : Settings :=
  let defaults : Settings := {}
  { defaults with
    maxIterations :=
      ((lookup (maxIterationsVariable stem)).bind readMaxIterations?).getD defaults.maxIterations
    traceRules := (lookup (traceRulesVariable stem)).isSome }

end Settings

/-! ### Contexts and rules -/

/-- What the rules of an analysis look names up in. -/
structure Context where
  /-- The tables and functions. -/
  catalog : Catalog
  /-- The casts. -/
  casts : CastRegistry
  /-- The database of tables that are named without one. -/
  currentDatabase : String
  /-- The settings of the analysis. -/
  settings : Settings

/-- A named transformation of plans. -/
structure Rule where
  /-- The name of the rule. -/
  name : String
  /-- The transformation. -/
  apply : Context → Plan → Plan

end LogicalQuery
