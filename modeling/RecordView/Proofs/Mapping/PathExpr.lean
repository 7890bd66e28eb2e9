import RecordView.Proofs.Mapping.Path

/-!
# Field paths as expressions

A resolved path can be read in a record (`FieldPath.read`), or turned into field accesses on an
expression (`FieldPath.toExpr`) which are then evaluated.  Both give the same value, also where a
record on the way is absent: `FieldPath.Resolved.eval_toExpr`, `FieldPath.Resolved.select_toExpr`.

The accesses are those that the builders make from the names of the path
(`FieldPath.Resolved.chain_names`), they are recognised as a chain with these names again
(`FieldPath.Resolved.fieldChain?_toExpr`), and their kind is that of the leaf
(`FieldPath.Resolved.kind_toExpr`).
-/

namespace RecordView

namespace FieldPath

variable {s : Schema} {hops : List PathSegment} {leaf : PathSegment} {env : Env} {base : Expr}

/-- Field accesses along segments. -/
def toExprFrom (hops : List PathSegment) (leaf : PathSegment) (base : Expr) : Expr :=
  (hops ++ [leaf]).foldl (fun e segment => .access e segment.name (some segment.owner)) base

theorem toExprFrom_nil : toExprFrom [] leaf base = .access base leaf.name (some leaf.owner) := rfl

theorem toExprFrom_cons (hop : PathSegment) :
    toExprFrom (hop :: hops) leaf base =
      toExprFrom hops leaf (.access base hop.name (some hop.owner)) := rfl

/-- The outermost access is the one to the leaf. -/
theorem exists_access (p : FieldPath) (base : Expr) :
    ∃ inner, p.toExpr base = .access inner p.leaf.name (some p.leaf.owner) := by
  refine ⟨p.hops.foldl (fun e segment => .access e segment.name (some segment.owner)) base, ?_⟩
  rw [toExpr, segments, List.foldl_append]
  rfl

/-- The leaf is declared by its owner. -/
theorem Leads.leaf_field (hp : Leads s hops leaf) :
    ∃ f, leaf.owner.field? leaf.name = some f ∧ leaf.type = f.type := by
  induction hp with
  | leaf hf => exact ⟨_, hf, rfl⟩
  | hop _ _ _ ih => exact ih

/-! ### Types and names -/

theorem type_access {owner : Schema} {name : String} {f : Field}
    (hf : owner.field? name = some f) :
    (Expr.access base name (some owner)).type.kind = f.type.kind := by
  simp only [Expr.type, Option.bind_some, hf]
  split <;> rfl

theorem kind_toExprFrom (hp : Leads s hops leaf) :
    (toExprFrom hops leaf base).type.kind = leaf.type.kind := by
  induction hp generalizing base with
  | leaf hf => exact type_access hf
  | hop _ _ _ ih => exact ih

theorem chain_eq_toExprFrom (hp : Leads s hops leaf) (hb : base.type.recordSchema? = some s) :
    base.chain (namesOf hops leaf) = toExprFrom hops leaf base := by
  induction hp generalizing base with
  | leaf hf => simp only [namesOf, Expr.chain, toExprFrom, List.nil_append, List.map_cons,
      List.map_nil, List.foldl_cons, List.foldl_nil, Expr.field, hb]
  | @hop owner nested name f hops leaf hf hn rest ih =>
    have hacc : (base.field name) = .access base name (some owner) := by rw [Expr.field, hb]
    rw [toExprFrom_cons, ← ih, ← hacc]
    · rfl
    · simp only [FieldType.recordSchema?, type_access hf, hn]

theorem namesFrom?_toExprFrom (hops : List PathSegment) (leaf : PathSegment) {p : Param}
    {before : List String} (hb : base.namesFrom? p = some before) :
    (toExprFrom hops leaf base).namesFrom? p = some (before ++ namesOf hops leaf) := by
  induction hops generalizing base before with
  | nil => simp [toExprFrom_nil, Expr.namesFrom?, hb, namesOf]
  | cons hop hops ih =>
    have hacc : (Expr.access base hop.name (some hop.owner)).namesFrom? p =
        some (before ++ [hop.name]) := by
      simp [Expr.namesFrom?, hb]
    rw [toExprFrom_cons, ih hacc]
    simp [namesOf]

/-! ### Values -/

/-- Accesses on an absent record are null. -/
theorem eval_toExprFrom_absent (hp : Leads s hops leaf) (hs : leaf.type.kind.isScalar = true)
    (hb : base.eval env = .ok (.record none)) :
    (toExprFrom hops leaf base).eval env = .ok (.value .null) := by
  induction hp generalizing base with
  | @leaf owner name f hf =>
    rw [toExprFrom_nil, Expr.eval, hb]
    simp only [bind, Except.bind, Operand.access, hf]
    cases hk : f.type.kind <;> simp_all [Operand.missing, FieldKind.isScalar]
  | @hop owner nested name f hops leaf hf hn rest ih =>
    rw [toExprFrom_cons]
    refine ih hs ?_
    rw [Expr.eval, hb]
    simp only [bind, Except.bind, Operand.access, hf, hn, Operand.missing]

/-- Accesses on a record read what the path reads. -/
theorem eval_toExprFrom (hp : Leads s hops leaf) (hs : leaf.type.kind.isScalar = true)
    {r : Record} (h : r.Conforms s) (hb : base.eval env = .ok (.record (some r))) :
    (toExprFrom hops leaf base).eval env = .ok (.value (readFrom leaf hops r)) := by
  induction hp generalizing base r with
  | @leaf owner name f hf =>
    rw [toExprFrom_nil, Expr.eval, hb]
    simp only [bind, Except.bind, Operand.access, h.schema_eq, hf, readFrom]
    rw [← Schema.name_of_field? hf]
    cases hk : f.type.kind <;> simp_all [Operand.present, FieldKind.isScalar]
  | @hop owner nested name f hops leaf hf hn rest ih =>
    rw [toExprFrom_cons]
    have hacc : (Expr.access base name (some owner)).eval env =
        .ok (.record (r.getRecord? name)) := by
      rw [Expr.eval, hb]
      simp only [bind, Except.bind, Operand.access, h.schema_eq, hf, hn, Operand.present,
        Schema.name_of_field? hf]
    cases hr : r.getRecord? name with
    | none =>
      rw [hr] at hacc
      simp only [readFrom, hr]
      exact eval_toExprFrom_absent rest hs hacc
    | some n =>
      rw [hr] at hacc
      simp only [readFrom, hr]
      exact ih hs (h.getRecord? hf hn hr) hacc

/-! ### Resolved paths -/

namespace Resolved

variable {p : FieldPath} {x : Param}

theorem kind_toExpr (hp : p.Resolved) : (p.toExpr base).type.kind = p.leaf.type.kind :=
  kind_toExprFrom hp

/-- The builders make the accesses from the names of the path. -/
theorem chain_names (hp : p.Resolved) (hx : x.schema = p.root) :
    (Expr.parameter x).chain p.names = p.toExpr (.parameter x) := by
  refine chain_eq_toExprFrom hp ?_
  rw [← hx]
  rfl

/-- The accesses are a chain with the names of the path. -/
theorem fieldChain?_toExpr : (p.toExpr (.parameter x)).fieldChain? x = some p.names := by
  have hnames : (p.toExpr (.parameter x)).namesFrom? x = some ([] ++ p.names) :=
    namesFrom?_toExprFrom p.hops p.leaf (by simp [Expr.namesFrom?])
  have hne : p.names ≠ [] := by simp [names, segments]
  simp [Expr.fieldChain?, hnames, hne]

/-- The accesses on a parameter read what the path reads in the record bound to it. -/
theorem eval_toExpr (hp : p.Resolved) (hs : p.leaf.type.kind.isScalar = true) {r : Record}
    (h : r.Conforms p.root) (hx : env.lookup? x = some r) :
    (p.toExpr (.parameter x)).eval env = .ok (.value (p.read r)) :=
  eval_toExprFrom hp hs h (by simp only [Expr.eval, hx])

/-- The selector made of the accesses of a path picks what the path reads. -/
theorem select_toExpr (hp : p.Resolved) (hs : p.leaf.type.kind.isScalar = true) {r : Record}
    (h : r.Conforms p.root) (hx : x.schema = p.root) :
    Lambda.select ⟨x, p.toExpr (.parameter x)⟩ r = .ok (p.read r) := by
  have hlookup : Env.lookup? [(x, r)] x = some r := by simp [Env.lookup?]
  have heval := eval_toExpr hp hs h hlookup
  have hschema : (r.schema == x.schema) = true := by rw [h.schema_eq, hx]; exact Schema.beq_self _
  simp only [Lambda.select, Lambda.apply, hschema, if_true, heval]
  rfl

end Resolved

/-- **A conforming record reads null or a value of the leaf's kind** at the end of a path. -/
theorem Resolved.hasKind_read {p : FieldPath} (hp : p.Resolved)
    (hs : p.leaf.type.kind.isScalar = true) {r : Record} (h : r.Conforms p.root) :
    (p.read r).HasKind p.leaf.type.kind := by
  rcases hp.stored_read hs h with ⟨-, hnull⟩ | hstored
  · rw [hnull]
    exact Value.hasKind_null _
  · obtain ⟨f, hf, htype⟩ := Leads.leaf_field hp
    simp only [PathSegment.store?, hf, Option.bind_some] at hstored
    rw [htype]
    exact Field.hasKind_of_store? hstored

end FieldPath

end RecordView
