import LogicalQuery.Proofs.Analysis.Invariant
import LogicalQuery.Proofs.Analysis.Settled

/-!
# Analyzed plans are well formed

In an analyzed plan every column is bound to a column of the input with its type, nullability and
source, the operands of every comparison have one type, and every cast is bound to the function of
the registry for the type of its child (`wellFormed_of_analyze`). What a node holds by itself is an
invariant of the analysis; how it fits its children follows since the plan is settled.
-/

namespace LogicalQuery

namespace Expr

/-! ### Invariants of nodes -/

/-- A bound column is a column of the input, and a bound cast has the function of the registry. -/
def BoundIn (casts : CastRegistry) (cs : List Column) : Expr → Prop
  | field f => cs[f.index]? = some f.column
  | cast _ t (some c) => c.target = t ∧ casts.function c.source t = .ok c.function
  | _ => True

/-- A literal is null or a value of its declared type. -/
def LiteralFits : Expr → Prop
  | literal v t => v = .null ∨ t.check v = true
  | _ => True

/-- No column and no cast is bound at the root of the expression. -/
def IsUnbound : Expr → Prop
  | field _ | cast _ _ (some _) => False
  | _ => True

theorem kept_boundIn (ctx : Context) : Kept ctx (BoundIn ctx.casts) where
  of_nil {cs s} h := by
    cases s with
    | field f => exact nomatch h
    | cast _ _ b =>
      cases b with
      | none => trivial
      | some _ => exact h
    | _ => trivial
  rebuilt {cs s} g h := by
    cases s with
    | cast c t b =>
      cases b with
      | none => trivial
      | some b =>
        simp only [mapChildren, recast, Option.filter]
        cases (g c).fits b with
        | true => exact h
        | false => trivial
    | field f => exact h
    | _ => trivial
  field {cs c i} h := by
    show (cs.map Column.unnamed)[i]? = some c.unnamed
    rw [List.getElem?_map, h]
    rfl
  aggregate _ _ _ := trivial
  comparison _ _ _ _ := trivial
  cast _ _ _ := trivial
  boundCast _ _ _ _ _ hf := ⟨rfl, hf⟩

theorem kept_literalFits (ctx : Context) : Kept ctx fun _ ↦ LiteralFits where
  of_nil h := h
  rebuilt {_ s} g h := by
    cases s with
    | literal _ _ => exact h
    | _ => trivial
  field _ := trivial
  aggregate _ _ _ := trivial
  comparison _ _ _ _ := trivial
  cast _ _ _ := trivial
  boundCast _ _ _ _ _ _ := trivial

theorem IsUnbound.boundIn {casts : CastRegistry} {cs : List Column} {e : Expr}
    (h : e.IsUnbound) : e.BoundIn casts cs := by
  cases e with
  | field _ => exact h.elim
  | cast _ _ b =>
    cases b with
    | none => trivial
    | some _ => exact h.elim
  | _ => trivial

/-! ### Well-formed expressions -/

/-- A bound column is a column of the input, operands of a comparison have one type, and a cast is
bound to the function of the registry for the type of its child. -/
def WellFormed (casts : CastRegistry) (cs : List Column) : Expr → Prop
  | field f => cs[f.index]? = some f.column
  | comparison _ l r => l.dataType? = r.dataType?
  | cast e t b => ∃ source function,
      e.dataType? = some source ∧ casts.function source t = .ok function ∧
      b = some ⟨source, t, function⟩
  | _ => True

end Expr

namespace Plan

/-- No column and no cast is bound in the plan. -/
def IsUnbound (p : Plan) : Prop := p.All fun n ↦ ∀ e ∈ n.expressions, e.All Expr.IsUnbound

/-- Every literal in the plan is null or a value of its declared type. -/
def LiteralsFit (p : Plan) : Prop := p.All fun n ↦ ∀ e ∈ n.expressions, e.All Expr.LiteralFits

end Plan

namespace Analyzer

variable {a : Analyzer}

/-- **Analyzed plans are well formed**, if nothing was bound in the plan before. -/
theorem wellFormed_of_analyze (hrules : a.rules = Rule.standard) (hc : a.catalog.OnlyAggregates)
    {p q : Plan} (hp : p.IsUnbound) (h : a.analyze p = .ok q) :
    q.Holds (Expr.WellFormed a.casts) := by
  obtain ⟨⟨k, hk⟩, -, -⟩ := iterate_of_analyze hrules hc h
  have hsettled := isSettled_of_analyze hrules h
  have hbound : q.Holds (Expr.BoundIn a.casts) := by
    rw [hk]
    refine holds_iterate hrules hc (Expr.kept_boundIn a.toContext) (fun n hn c _ e he ↦ ?_) k
    exact (hp n hn e he).imp fun s hs ↦ hs.boundIn
  intro n hn c hchild e he s hs
  have hbound := hbound n hn c hchild e he s hs
  have hroot := hsettled.exprs n hn e he s hs
  have hs := Expr.resolved_or_isStar_of_mem (hsettled.resolved_of_mem hn he) hs
  cases s with
  | field f => exact hbound
  | comparison op l r => exact hroot
  | cast child t b =>
    rcases hs with hs | hs
    · rw [Expr.resolved, Bool.and_eq_true] at hs
      obtain ⟨bound, rfl⟩ := Option.isSome_iff_exists.1 hs.1
      obtain ⟨rfl, hf⟩ := hbound
      have hfits : child.fits bound = true := hroot
      rw [Expr.fits, beq_iff_eq] at hfits
      exact ⟨bound.source, bound.function, hfits, hf, rfl⟩
    · cases hs
  | _ => trivial

end Analyzer

/-! ### Well-formed operators -/

theorem Plan.children_eq_of_mem_expressions {n : Plan} {e : Expr} (he : e ∈ n.expressions) :
    ∃ c, n.children = [c] := by
  cases n with
  | unresolvedTable _ _ | table _ _ | limit _ _ | offset _ _ => exact absurd he List.not_mem_nil
  | project c _ | filter c _ | groupBy c _ _ | sort c _ => exact ⟨c, rfl⟩

namespace Expr

/-- At its root, an expression over the given columns fits them and its children: a bound column is
one of the columns, the operands of a comparison have a type in common, a cast is bound to the
function that the registry has for the type of its child, and only `count` has a star for a child. -/
structure FitsInput (casts : CastRegistry) (cs : List Column) (e : Expr) : Prop where
  field : ∀ f, e = field f → ∃ c, cs[f.index]? = some c ∧ c.type = f.type ∧
    c.nullable = f.nullable ∧ c.source = f.table
  comparison : ∀ op l r, e = comparison op l r → ∃ t, l.dataType = .ok t ∧ r.dataType = .ok t
  cast : ∀ child t b, e = cast child t b → ∃ source function, child.dataType = .ok source ∧
    casts.function source t = .ok function ∧ (source = t → function = .ok) ∧
    b = some ⟨source, t, function⟩
  star : star ∈ e.children → e = aggregate .count star

/-- A star below a resolved expression is an argument of `count`. -/
theorem eq_count_of_star_mem_children {e : Expr} (h : e.resolved = true)
    (hstar : star ∈ e.children) : e = aggregate .count star := by
  cases e with
  | literal _ _ | star | column _ _ | field _ => exact absurd hstar List.not_mem_nil
  | call _ _ => cases h
  | renamed c _ | not c =>
    obtain rfl := List.mem_singleton.1 hstar
    cases h
  | cast c _ b =>
    obtain rfl := List.mem_singleton.1 hstar
    cases (Bool.and_eq_true _ _ ▸ h).2
  | comparison _ l r =>
    rw [resolved, Bool.and_eq_true] at h
    rcases List.mem_cons.1 hstar with rfl | hstar
    · cases h.1
    · obtain rfl := List.mem_singleton.1 hstar
      cases h.2
  | aggregate g c =>
    obtain rfl := List.mem_singleton.1 hstar
    cases g with
    | count => rfl
    | first => cases h

/-- A well-formed part of a resolved expression over an input fits the columns of the input. -/
theorem WellFormed.fitsInput {casts : CastRegistry} {cs : List Column} {s : Expr}
    (h : s.WellFormed casts (cs.map Column.unnamed)) (hs : s.resolved = true ∨ s = Expr.star) :
    s.FitsInput casts cs where
  field := by
    rintro f rfl
    have hcolumn : (cs.map Column.unnamed)[f.index]? = some f.column := h
    rw [List.getElem?_map, Option.map_eq_some_iff] at hcolumn
    obtain ⟨c, hc, hunnamed⟩ := hcolumn
    exact ⟨c, hc, congrArg Column.type hunnamed, congrArg Column.nullable hunnamed,
      congrArg Column.source hunnamed⟩
  comparison := by
    rintro op l r rfl
    have htypes : l.dataType? = r.dataType? := h
    rcases hs with hs | hs
    · rw [resolved, Bool.and_eq_true] at hs
      obtain ⟨t, ht⟩ := exists_dataType?_of_named (named_of_resolved hs.1)
      exact ⟨t, dataType?_eq_some_iff.1 ht, dataType?_eq_some_iff.1 (htypes ▸ ht)⟩
    · cases hs
  cast := by
    rintro child t b rfl
    obtain ⟨source, function, hsource, hfunction, rfl⟩ := h
    refine ⟨source, function, dataType?_eq_some_iff.1 hsource, hfunction, ?_, rfl⟩
    rintro rfl
    exact Except.ok.inj (hfunction.symm.trans (casts.function_self source))
  star hstar := by
    rcases hs with hs | rfl
    · exact eq_count_of_star_mem_children hs hstar
    · exact absurd hstar List.not_mem_nil

end Expr

namespace Analyzer

variable {a : Analyzer}

/-- **Analyzed plans are statically well formed.** Let a plan in which nothing is bound be analyzed
with the standard rules over a catalog whose functions are the aggregates, and with any casts. Then
every expression in the result stands over an input whose columns are known. It is not the star,
and everything in it fits the columns of the input. -/
theorem fitsInput_of_analyze (hrules : a.rules = Rule.standard) (hc : a.catalog.OnlyAggregates)
    {p q : Plan} (hp : p.IsUnbound) (h : a.analyze p = .ok q) :
    ∀ n ∈ q.operators, ∀ e ∈ n.expressions, ∃ c cs, n.children = [c] ∧ c.schema = .ok cs ∧
      e ≠ .star ∧ ∀ s ∈ e.subexprs, s.FitsInput a.casts cs := by
  intro n hn e he
  obtain ⟨c, hchildren⟩ := Plan.children_eq_of_mem_expressions he
  have hchild : c ∈ n.children := hchildren ▸ List.mem_cons_self
  have hsettled := isSettled_of_analyze hrules h
  have hnamed := Plan.named_of_resolved
    ((Plan.resolved_iff.1 (Plan.all_resolved hsettled.resolved n hn)).2.2 c hchild)
  obtain ⟨cs, hcs⟩ := Plan.exists_schema_of_named hnamed
  have hresolved := hsettled.resolved_of_mem hn he
  refine ⟨c, cs, hchildren, hcs, ?_, fun s hs ↦ ?_⟩
  · rintro rfl
    exact nomatch hresolved
  · have hwf := wellFormed_of_analyze hrules hc hp h n hn c hchild e he s hs
    rw [Plan.shape_of_schema hnamed hcs] at hwf
    exact hwf.fitsInput (Expr.resolved_or_isStar_of_mem hresolved hs)

/-- The events with a number, by the text of the number, and how many there are of each. The number
is given as an expression, and so are its text and the count. -/
def eventsByText (number text count : Expr) : Plan :=
  .groupBy (.filter (.table "default" ⟨"events", [⟨"id", .integer, true, "events"⟩]⟩)
    (.comparison .eq number (.literal (.bigInteger 7) .bigInteger))) [count] [text]

/-- The analysis binds the number, both casts of it and the count of all rows. -/
theorem fitsInput_of_analyze_eventsByText :
    let a := Analyzer.ofCatalog .standard { maxIterations := 2 }
    let name : Expr := .column none "ID"
    let id : Expr := .field ⟨0, "events", "id", .integer, true⟩
    let widen := (Cast.ofInteger .bigInteger fun n ↦ .ok (.bigInteger n.toInt64)).function
    let write := (Cast.ofInteger .string fun n ↦ .ok (.string (toString n.toInt))).function
    let p := eventsByText name (.cast name .string none) (.call "COUNT" [.star])
    let q := eventsByText (.cast id .bigInteger (some ⟨.integer, .bigInteger, widen⟩))
      (.cast id .string (some ⟨.integer, .string, write⟩)) (.aggregate .count .star)
    (a.rules = Rule.standard ∧ a.catalog.OnlyAggregates ∧ p.IsUnbound ∧ a.analyze p = .ok q) ∧
      ∀ n ∈ q.operators, ∀ e ∈ n.expressions, ∃ c cs, n.children = [c] ∧ c.schema = .ok cs ∧
        e ≠ .star ∧ ∀ s ∈ e.subexprs, s.FitsInput a.casts cs := by
  intro a name id widen write p q
  have hunbound : p.IsUnbound := by
    simp [p, name, eventsByText, Plan.IsUnbound, Plan.All, Plan.operators, Plan.expressions,
      Expr.All, Expr.subexprs, Expr.subexprsAll, Expr.IsUnbound]
  have hanalyze : a.analyze p = .ok q := analyze_eq_ok_of_pass_eq rfl rfl rfl le_rfl
  exact ⟨⟨rfl, Catalog.standard_onlyAggregates, hunbound, hanalyze⟩,
    fitsInput_of_analyze rfl Catalog.standard_onlyAggregates hunbound hanalyze⟩

end Analyzer

end LogicalQuery
