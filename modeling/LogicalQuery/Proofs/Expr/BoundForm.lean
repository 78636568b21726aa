import LogicalQuery.Proofs.Analysis.Settled
import LogicalQuery.Proofs.Plan.Output

/-!
# Bound forms of expressions

An expression with names in it *binds to* one without, over an input: literals, bound columns,
renamings, operators, targets of casts and aggregates stay, a name becomes a column of the input
that has it, a call becomes the aggregate that its name is registered for, casts are bound, and the
operand of lower rank of a comparison gets a cast around it, if the operands have two types
(`BindsTo`). Nothing else is added, and nothing is left out or moved. In a list, a star becomes all
columns of the input (`ExpandsTo`). A bound form is at least as elaborate as the expression
(`BindsTo.elaborates`), and a settled expression is its own bound form (`bindsTo_self`).
-/

namespace LogicalQuery

open LogicalQuery.Text

/-! ### Columns of the input -/

/-- The field has the name up to ASCII case, and comes from the table up to ASCII case, if one is
given. -/
def Field.IsNamed (table : Option String) (name : String) (f : Field) : Prop :=
  eqIgnoringAsciiCase f.name name = true ∧ ∀ t ∈ table, eqIgnoringAsciiCase f.table t = true

/-- The field is bound to the column of the input at its position, with the type, the nullability and
the table of that column. Its name is the one that the output expression of the column has in some
form before its operands are coerced. -/
def Field.IsOver (c : Plan) (f : Field) : Prop :=
  ∃ cs column made, ∃ seen : Expr, c.schema = .ok cs ∧ cs[f.index]? = some column ∧
    column.unnamed = f.column ∧ c.outputs[f.index]? = some made ∧
    made.outputColumn = .ok column ∧ seen.coerced = made.coerced ∧ seen.name = f.name

/-- The field that is bound to the column at a position. -/
def Column.toField (c : Column) (index : Nat) : Field :=
  { index, table := c.source, name := c.name, type := c.type, nullable := c.nullable }

/-- The fields that are bound to the columns, in their order. -/
def Column.toFields (columns : List Column) : List Field :=
  columns.zipIdx.map fun d ↦ d.1.toField d.2

theorem Column.bindAll_eq (columns : List Column) :
    bindAll columns = (toFields columns).map .field := by
  rw [bindAll, toFields, List.map_map]
  rfl

theorem Column.map_index_toFields (columns : List Column) :
    (toFields columns).map Field.index = List.range columns.length := by
  rw [toFields, List.map_map]
  exact (List.zipIdx_map_snd 0 columns).trans List.range_eq_range'.symm

/-- A column that matches a name gives a field of the name. -/
theorem Column.isNamed_toField {table : Option String} {name : String} {c : Column}
    (h : c.isNamed table name = true) (index : Nat) : (c.toField index).IsNamed table name := by
  rw [isNamed, Bool.and_eq_true, Option.all_eq_true] at h
  exact h

/-- The columns of an input stay while the input is elaborated, up to their names. -/
theorem Plan.Elaborates.exists_schema {c c' : Plan} {cs : List Column} (h : c.Elaborates c')
    (hcs : c.resolvedSchema? = some cs) :
    ∃ cs', c'.schema = .ok cs' ∧ cs'.map Column.unnamed = cs.map Column.unnamed := by
  obtain ⟨hresolved, hschema⟩ := Plan.resolvedSchema?_eq_some_iff.1 hcs
  have hnamed := Plan.named_of_resolved hresolved
  have hnamed' := (h.refines hnamed).1
  obtain ⟨cs', hcs'⟩ := Plan.exists_schema_of_named hnamed'
  refine ⟨cs', hcs', ?_⟩
  rw [← Plan.shape_of_schema hnamed' hcs', h.refines.shape hnamed,
    Plan.shape_of_schema hnamed hschema]

/-- A field that is bound over an input stays bound while the input is elaborated. -/
theorem Field.isOver_of_elaborates {c c' : Plan} {cs : List Column} (h : c.Elaborates c')
    (hcs : c.resolvedSchema? = some cs) {column : Column} {i : Nat} (hi : cs[i]? = some column) :
    (column.toField i).IsOver c' := by
  obtain ⟨hresolved, hschema⟩ := Plan.resolvedSchema?_eq_some_iff.1 hcs
  obtain ⟨cs', hcs', hshapes⟩ := h.exists_schema hcs
  -- The column at the position is the one before, up to its name.
  have hcolumn := congrArg (·[i]?) hshapes
  simp only [List.getElem?_map, hi, Option.map_some, Option.map_eq_some_iff] at hcolumn
  obtain ⟨column', hi', hunnamed⟩ := hcolumn
  obtain ⟨made, hmade, hmakes⟩ := Plan.exists_outputs_of_schema hschema hi
  obtain ⟨made', hmade', hmakes'⟩ := Plan.exists_outputs_of_schema hcs' hi'
  have hcoerced := congrArg (·[i]?) (h.outputs (Plan.named_of_resolved hresolved))
  simp only [List.getElem?_map, hmade, hmade', Option.map_some, Option.some.injEq] at hcoerced
  exact ⟨cs', column', made', made, hcs', hi', hunnamed, hmade', hmakes', hcoerced.symm,
    Expr.outputColumn_name hmakes⟩

/-! ### Bound casts -/

/-- The registry casts the first type to the second one by the function of the binding. -/
def CastRegistry.Binds (casts : CastRegistry) (source target : DataType) (b : BoundCast) : Prop :=
  ∃ function, casts.function source target = .ok function ∧ b = ⟨source, target, function⟩

namespace Expr

/-- What an operand of the type `source` becomes where operands meet at the type `target`: it stays,
or there is a bound cast around it. -/
inductive Meets (casts : CastRegistry) (e : Expr) (source target : DataType) : Expr → Prop
  | same (h : source = target) : Meets casts e source target e
  | cast {b : BoundCast} (h : source ≠ target) (hb : casts.Binds source target b) :
    Meets casts e source target (.cast e target (some b))

/-! ### Bound forms -/

/-- The first expression binds to the second one over the input `c`. -/
inductive BindsTo (ctx : Context) (c : Plan) : Expr → Expr → Prop
  | literal (v : Value) (t : DataType) : BindsTo ctx c (literal v t) (literal v t)
  | star : BindsTo ctx c star star
  | field (f : Field) : BindsTo ctx c (field f) (field f)
  | column {table : Option String} {name : String} {f : Field} (hf : f.IsOver c)
      (hname : f.IsNamed table name) : BindsTo ctx c (column table name) (field f)
  | renamed {e e' : Expr} {name : String} (h : BindsTo ctx c e e') :
    BindsTo ctx c (renamed e name) (renamed e' name)
  | not {e e' : Expr} (h : BindsTo ctx c e e') : BindsTo ctx c (not e) (not e')
  /-- The operands meet at their common type. -/
  | comparison {op : ComparisonOp} {l l' l'' r r' r'' : Expr} {s t : DataType}
      (hl : BindsTo ctx c l l') (hr : BindsTo ctx c r r') (hs : l'.dataType? = some s)
      (ht : r'.dataType? = some t) (hl' : l'.Meets ctx.casts s (DataType.common s t) l'')
      (hr' : r'.Meets ctx.casts t (DataType.common s t) r'') :
    BindsTo ctx c (comparison op l r) (comparison op l'' r'')
  /-- The cast is bound for the type of its child, by the registry unless it was bound before. -/
  | cast {e e' : Expr} {t : DataType} {b : Option BoundCast} {b' : BoundCast}
      (h : BindsTo ctx c e e') (hsource : e'.dataType? = some b'.source)
      (hb : b = some b' ∨ ctx.casts.Binds b'.source t b') :
    BindsTo ctx c (cast e t b) (cast e' t (some b'))
  | call {name : String} {e e' : Expr} {g : AggregateFunction}
      (hg : ctx.catalog.function? name = some (.ofAggregate g)) (h : BindsTo ctx c e e') :
    BindsTo ctx c (call name [e]) (aggregate g e')
  | aggregate {g : AggregateFunction} {e e' : Expr} (h : BindsTo ctx c e e') :
    BindsTo ctx c (aggregate g e) (aggregate g e')

/-- The expressions bind to the others, in their order, where each star stands for the columns of the
input, in their order. -/
inductive ExpandsTo (ctx : Context) (c : Plan) : List Expr → List Expr → Prop
  | nil : ExpandsTo ctx c [] []
  | star {es es' : List Expr} {fs : List Field} {cs : List Column} (hcs : c.schema = .ok cs)
      (hindex : fs.map Field.index = List.range cs.length) (hfs : ∀ f ∈ fs, f.IsOver c)
      (h : ExpandsTo ctx c es es') : ExpandsTo ctx c (star :: es) (fs.map field ++ es')
  | cons {e e' : Expr} {es es' : List Expr} (hstar : e.isStar = false) (he : e.BindsTo ctx c e')
      (h : ExpandsTo ctx c es es') : ExpandsTo ctx c (e :: es) (e' :: es')

variable {ctx : Context} {c : Plan} {e e' : Expr}

/-! ### Types and coercions -/

theorem Meets.dataType? {casts : CastRegistry} {source target : DataType}
    (h : e.Meets casts source target e') (hsource : e.dataType? = some source) :
    e'.dataType? = some target := by
  cases h with
  | same h => exact h ▸ hsource
  | cast _ _ => rfl

theorem Meets.named {casts : CastRegistry} {source target : DataType}
    (h : e.Meets casts source target e') : e'.named = e.named := by
  cases h <;> rfl

theorem Meets.nullable {casts : CastRegistry} {source target : DataType}
    (h : e.Meets casts source target e') : e'.nullable = e.nullable := by
  cases h <;> rfl

theorem Meets.coerced {casts : CastRegistry} {source target : DataType}
    (h : e.Meets casts source target e') : e'.coerced = e.coerced.coerce source target := by
  cases h with
  | same h => rw [h, coerce_self]
  | cast h _ => rw [coerced_cast, coerce, if_neg h]

/-- A bound form has the type of the expression, if that is known. -/
theorem BindsTo.keepsType (h : e.BindsTo ctx c e') : e.KeepsType e' := by
  induction h with
  | literal _ _ | star | field _ => exact .refl _
  | column _ _ | call _ _ _ => exact fun _ ht ↦ nomatch ht
  | renamed _ ih => exact ih
  | not _ _ | comparison _ _ _ _ _ _ _ _ | cast _ _ _ _ => exact fun _ ht ↦ ht
  | @aggregate g _ _ _ ih =>
    cases g with
    | count => exact fun _ ht ↦ ht
    | first => exact ih

/-- Bound forms are elaborations. -/
theorem BindsTo.elaborates (h : e.BindsTo ctx c e') : e.Elaborates e' := by
  induction h with
  | literal _ _ | star | field _ => exact .refl _
  | column _ _ | call _ _ _ => exact .of_not_named rfl rfl
  | @renamed e e' n _ ih =>
    exact elaborates_mapChildren (g := fun _ ↦ e') fun x hx ↦ List.mem_singleton.1 hx ▸ ih
  | @not e e' _ ih =>
    exact elaborates_mapChildren (g := fun _ ↦ e') fun x hx ↦ List.mem_singleton.1 hx ▸ ih
  | @aggregate g e e' _ ih =>
    exact elaborates_mapChildren (g := fun _ ↦ e') fun x hx ↦ List.mem_singleton.1 hx ▸ ih
  | @cast e e' t b b' _ _ _ ih =>
    refine ⟨⟨(absurd · Bool.noConfusion), ih.named, fun _ ↦ rfl, ih.nullable, fun _ ↦ rfl⟩, fun he ↦ ?_⟩
    rw [coerced_cast, coerced_cast, ih.coerced he]
  | @comparison op l l' l'' r r' r'' s t _ _ hs ht hl' hr' ihl ihr =>
    have hnamed (he : (Expr.comparison op l r).named = true) : l.named = true ∧ r.named = true := by
      rwa [Expr.named, Bool.and_eq_true] at he
    refine ⟨⟨(absurd · Bool.noConfusion), fun he ↦ ?_, fun _ ↦ rfl, fun he ↦ ?_, fun _ ↦ rfl⟩, fun he ↦ ?_⟩
    · rw [Expr.named, hl'.named, hr'.named, ihl.named (hnamed he).1, ihr.named (hnamed he).2]
      rfl
    · rw [nullable, nullable, hl'.nullable, hr'.nullable, ihl.nullable (hnamed he).1,
        ihr.nullable (hnamed he).2]
    · obtain ⟨hl, hr⟩ := hnamed he
      rw [coerced_comparison ((ihl.dataType? hl).symm.trans hs) ((ihr.dataType? hr).symm.trans ht),
        coerced_comparison (hl'.dataType? hs) (hr'.dataType? ht), DataType.common_self,
        coerce_self, coerce_self, hl'.coerced, hr'.coerced, ihl.coerced hl, ihr.coerced hr]

/-! ### Lists -/

/-- Without stars, expressions that expand bind one by one. -/
theorem ExpandsTo.forall₂ {es es' : List Expr} (h : ExpandsTo ctx c es es')
    (hes : ∀ e ∈ es, e.isStar = false) : List.Forall₂ (BindsTo ctx c) es es' := by
  induction h with
  | nil => exact .nil
  | star _ _ _ _ _ => exact absurd (hes _ List.mem_cons_self) Bool.noConfusion
  | cons _ he _ ih => exact .cons he (ih fun e he ↦ hes e (List.mem_cons_of_mem _ he))

/-- Named expressions that are elaborated stay named, with their shapes and coerced forms. -/
theorem Elaborates.forall₂ {es es' : List Expr} (h : List.Forall₂ Elaborates es es')
    (hes : ∀ e ∈ es, e.named = true) :
    (∀ e ∈ es', e.named = true) ∧ es'.mapM Expr.shape? = es.mapM Expr.shape? ∧
      es'.map Expr.coerced = es.map Expr.coerced := by
  induction h with
  | nil => exact ⟨fun _ he ↦ absurd he List.not_mem_nil, rfl, rfl⟩
  | @cons e e' es es' he _ ih =>
    rw [List.forall_mem_cons] at hes
    obtain ⟨hnamed, hshapes, hcoerced⟩ := ih hes.2
    refine ⟨List.forall_mem_cons.2 ⟨he.named hes.1, hnamed⟩, ?_, ?_⟩
    · rw [List.mapM_cons, List.mapM_cons, hshapes, he.shape? hes.1]
    · rw [List.map_cons, List.map_cons, hcoerced, he.coerced hes.1]

/-! ### Settled expressions -/

/-- A settled expression is its own bound form. -/
theorem bindsTo_self (hresolved : e.resolved = true ∨ e = star) (h : e.All IsSettled) :
    e.BindsTo ctx c e := by
  induction e using children_induction with
  | node e ih =>
    rcases hresolved with hresolved | rfl
    · have hchild {x : Expr} (hx : x ∈ e.children) : x.BindsTo ctx c x :=
        ih x hx (resolved_or_isStar_of_mem_children hresolved hx) (h.children hx)
      have hsettled := h.self
      cases e with
      | literal v t => exact .literal v t
      | field f => exact .field f
      | star | column _ _ | call _ _ => exact nomatch hresolved
      | renamed x _ => exact .renamed (hchild List.mem_cons_self)
      | not x => exact .not (hchild List.mem_cons_self)
      | aggregate _ x => exact .aggregate (hchild List.mem_cons_self)
      | comparison op l r =>
        rw [resolved, Bool.and_eq_true] at hresolved
        obtain ⟨t, hl⟩ := exists_dataType?_of_named (named_of_resolved hresolved.1)
        have hr : r.dataType? = some t := (show l.dataType? = r.dataType? from hsettled) ▸ hl
        exact .comparison (hchild (by simp [children])) (hchild (by simp [children])) hl hr
          (.same (DataType.common_self t).symm) (.same (DataType.common_self t).symm)
      | cast x t b =>
        rw [resolved, Bool.and_eq_true] at hresolved
        obtain ⟨b, rfl⟩ := Option.isSome_iff_exists.1 hresolved.1
        have hfits : x.fits b = true := hsettled
        rw [fits, beq_iff_eq] at hfits
        exact .cast (hchild List.mem_cons_self) hfits (.inl rfl)
    · exact .star

/-- Expressions other than stars that are their own bound forms expand to themselves. -/
theorem expandsTo_self {es : List Expr}
    (h : ∀ e ∈ es, e.isStar = false ∧ e.BindsTo ctx c e) : ExpandsTo ctx c es es := by
  induction es with
  | nil => exact .nil
  | cons e es ih =>
    rw [List.forall_mem_cons] at h
    exact .cons h.1.1 h.1.2 (ih h.2)

end Expr

end LogicalQuery
