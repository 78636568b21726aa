import LogicalQuery.Analysis.Binding
import LogicalQuery.Analysis.Coercion
import LogicalQuery.Cast.Standard

/-!
# Analysis

A pass applies all rules to a plan, one after the other. The analysis repeats passes until one of
them leaves the plan equal, and then demands that everything in it is bound. It gives up after a
number of passes.
-/

namespace LogicalQuery

/-- The rules of a standard analysis, in their order. -/
def Rule.standard : List Rule :=
  [resolveTables, resolveStar, resolveColumns, resolveFunctions, coerceComparisons, resolveCasts]

/-- A context with the rules to apply in it. -/
structure Analyzer extends Context where
  /-- The rules, in the order of their application. -/
  rules : List Rule

namespace Analyzer

/-- The analyzer with the standard rules and casts. -/
def ofCatalog (catalog : Catalog) (settings : Settings) : Analyzer where
  catalog := catalog
  casts := .standard
  currentDatabase := settings.defaultDatabase
  settings := settings
  rules := Rule.standard

/-- The analyzer with one more rule, which is applied after the others. -/
def addRule (a : Analyzer) (r : Rule) : Analyzer := { a with rules := a.rules ++ [r] }

/-- The names of the rules, in their order. -/
def ruleNames (a : Analyzer) : List String := a.rules.map (·.name)

/-- One pass: all rules, in their order. -/
def pass (a : Analyzer) (p : Plan) : Plan :=
  a.rules.foldl (fun p r ↦ r.apply a.toContext p) p

/-- Repeats a pass until the plan stays equal, and at most `more` times after the first: the plan
that stays, or the last plan reached as an error. -/
def settle (pass : Plan → Plan) : (more : Nat) → Plan → Except Plan Plan
  | 0, p =>
    let q := pass p
    if q == p then .ok q else .error q
  | more + 1, p =>
    let q := pass p
    if q == p then .ok q else settle pass more q

/-- Accepts a plan in which everything is bound. -/
def validate (p : Plan) : Except PlanError Plan :=
  if p.resolved then .ok p else .error (.unresolved p.innermostUnresolved)

/-- The plan with everything in it bound. -/
def analyze (a : Analyzer) (p : Plan) : Except PlanError Plan :=
  let limit := a.settings.maxIterations
  match settle a.pass (limit - 1) p with
  | .ok q => validate q
  | .error q => .error (.limitExceeded limit q)

end Analyzer

end LogicalQuery
