import RecordView.Proofs.Expr.Chains
import RecordView.Proofs.Expr.Typing
import RecordView.Proofs.Mapping.PathExpr
import RecordView.Proofs.Value.Integer

/-!
# Integer expressions

An integer expression is made by arithmetic and negation of integers, nulls and integer fields of
its parameter, which may be reached through records that are absent (`Expr.IntegerLeaf`).  Signed and
unsigned numbers may be mixed, and an intermediate result is of whichever kind it comes to.

Such an expression has an exact result over the integers (`Expr.exactInteger?`), in which nothing can
overflow.  What a selector picks is that result or null, and null exactly if a leaf of the expression
is null (`Lambda.select_integer`).

A field is looked up in the record that it is accessed on, and in the owner that the access names
only where that record is absent.  So a chain of accesses that comes to a value has read what its
path reads, whatever owners are named (`Expr.eq_readFrom_of_accesses`).
-/

namespace RecordView

namespace Expr

/-! ### Accesses -/

/-- Accesses to fields one after the other, whatever owners they name. -/
def accesses (fields : List (String × Option Schema)) (base : Expr) : Expr :=
  fields.foldl (fun e field => .access e field.1 field.2) base

variable {env : Env} {base e : Expr} {x : Param} {names : List String}
  {fields : List (String × Option Schema)} {o : Operand} {v : Value} {r : Record}

theorem accesses_cons (field : String × Option Schema) :
    accesses (field :: fields) base = accesses fields (.access base field.1 field.2) := rfl

/-- A chain without conversions in it is a sequence of accesses to the parameter. -/
theorem exists_accesses (h : e.namesFrom? x = some names)
    (hplain : ∀ part ∈ e.parts, part.isConversion = false) :
    ∃ q fields, (q == x) = true ∧ fields.map (·.1) = names ∧
      e = accesses fields (.parameter q) := by
  induction e using induct generalizing names with
  | parameter q =>
    rw [namesFrom?] at h
    split at h
    · rename_i hq
      cases h
      exact ⟨q, [], hq, rfl, rfl⟩
    · cases h
  | access base name owner ih =>
    obtain ⟨before, hbefore, rfl⟩ := Option.map_eq_some_iff.1 h
    obtain ⟨q, fields, hq, rfl, rfl⟩ :=
      ih hbefore fun part hpart => hplain part (List.mem_cons_of_mem _ hpart)
    refine ⟨q, fields ++ [(name, owner)], hq, by simp, ?_⟩
    rw [accesses, accesses, List.foldl_append]
    rfl
  | unary op e ih =>
    rw [namesFrom?, show op.isConversion = false from hplain _ (self_mem_parts _)] at h
    cases h
  | constant | binary | call | lambda => cases h

end Expr

namespace Operand

variable {o o' : Operand} {name : String} {owner : Option Schema} {v : Value}

/-- A field of a record is looked up in its own schema. -/
theorem access_present {r : Record} {s : Schema} {f : Field} (hr : r.Conforms s)
    (hf : s.field? name = some f) (owner : Option Schema) :
    (record (some r)).access name owner = .ok (present r f) := by
  simp only [access, hr.schema_eq, hf]

/-- What a field of an absent record may denote. -/
def Absent (o : Operand) : Prop := ∃ kind, o = missing kind

/-- A field of what is absent is absent, whatever owner is named. -/
theorem Absent.access (h : o.Absent) (ho : o.access name owner = .ok o') : o'.Absent := by
  obtain ⟨kind, rfl⟩ := h
  unfold missing at ho
  split at ho
  · cases owner with
    | none => cases ho; exact ⟨.any, rfl⟩
    | some s =>
      simp only [Operand.access] at ho
      split at ho
      · cases ho; exact ⟨_, rfl⟩
      · cases ho
  · cases ho
  · cases ho

theorem Absent.toValue (h : o.Absent) {expected : String} (hv : o.toValue expected = .ok v) :
    v = .null := by
  obtain ⟨kind, rfl⟩ := h
  unfold missing at hv
  split at hv <;> cases hv <;> rfl

end Operand

namespace Expr

variable {env : Env} {base e : Expr} {x : Param} {names : List String}
  {fields : List (String × Option Schema)} {o : Operand} {v : Value} {r : Record} {s : Schema}
  {hops : List PathSegment} {leaf : PathSegment}

/-- What is accessed on something absent is absent. -/
theorem absent_of_eval_accesses (hb : ∀ o, base.eval env = .ok o → o.Absent)
    (h : (accesses fields base).eval env = .ok o) : o.Absent := by
  induction fields generalizing base with
  | nil => exact hb o h
  | cons field fields ih =>
    refine ih (fun o' ho' => ?_) h
    obtain ⟨o'', ho'', ho'⟩ := bind_eq_ok.1 ho'
    exact (hb o'' ho'').access ho'

/-- **Accesses along a path read what the path reads**, if they come to a value at all. -/
theorem eq_readFrom_of_accesses (hp : FieldPath.Leads s hops leaf)
    (hs : leaf.type.kind.isScalar = true) (hr : r.Conforms s)
    (hb : base.eval env = .ok (.record (some r)))
    (hnames : fields.map (·.1) = FieldPath.namesOf hops leaf)
    (hv : (accesses fields base).ComesTo env v) : v = FieldPath.readFrom leaf hops r := by
  induction hp generalizing base fields r with
  | @leaf schema _ f hf =>
    obtain ⟨field, rfl, rfl⟩ := List.map_eq_singleton_iff.1 hnames
    obtain ⟨o, ho, hv⟩ := hv
    have heval : (access base field.1 field.2).eval env = .ok (.present r f) := by
      rw [eval, hb]
      exact Operand.access_present hr hf field.2
    cases ho.symm.trans heval
    have hpresent : Operand.present r f = .value (.ofOption (r.getValue? field.1)) := by
      rw [← Schema.name_of_field? hf]
      cases hk : f.type.kind <;> simp_all [Operand.present, FieldKind.isScalar]
    rw [hpresent] at hv
    cases hv
    rfl
  | @hop schema nested _ f hops leaf hf hn rest ih =>
    obtain ⟨field, fields, rfl, rfl, hfields⟩ := List.map_eq_cons_iff.1 hnames
    have heval : (access base field.1 field.2).eval env = .ok (.record (r.getRecord? field.1)) := by
      rw [eval, hb]
      simp only [bind, Except.bind, Operand.access_present hr hf, Operand.present, hn,
        Schema.name_of_field? hf]
    rw [accesses_cons] at hv
    rw [FieldPath.readFrom]
    cases hnested : r.getRecord? field.1 with
    | none =>
      obtain ⟨o, ho, hv⟩ := hv
      refine Operand.Absent.toValue (absent_of_eval_accesses (fun o' ho' => ?_) ho) hv
      cases ho'.symm.trans heval
      exact ⟨.record nested, by rw [hnested]; rfl⟩
    | some n =>
      rw [hnested] at heval
      exact ih hs (hr.getRecord? hf hn hnested) heval hfields hv

/-! ### Exact results -/

/-- The integer that a chain of fields on the parameter reads in a record. -/
def fieldInteger? (x : Param) (r : Record) (e : Expr) : Option Int := do
  let names ← e.fieldChain? x
  let p ← (FieldPath.ofNames r.schema names).toOption
  (p.read r).integer?

/-- The result of an expression over the integers, where nothing overflows and division goes toward
zero; none if it has a null in it, or divides by zero. -/
def exactInteger? (x : Param) (r : Record) : Expr → Option Int
  | constant v => v.integer?
  | unary .neg e => do return -(← e.exactInteger? x r)
  | binary (.arithmetic .add) left right => do
    return (← left.exactInteger? x r) + (← right.exactInteger? x r)
  | binary (.arithmetic .sub) left right => do
    return (← left.exactInteger? x r) - (← right.exactInteger? x r)
  | binary (.arithmetic .mul) left right => do
    return (← left.exactInteger? x r) * (← right.exactInteger? x r)
  | binary (.arithmetic .div) left right => do
    let m ← left.exactInteger? x r
    let n ← right.exactInteger? x r
    if n = 0 then none else return m.tdiv n
  | access base name owner => (access base name owner).fieldInteger? x r
  | _ => none

/-- What arithmetic and negation are carried out on. -/
def leaves : Expr → List Expr
  | binary (.arithmetic _) left right => left.leaves ++ right.leaves
  | unary .neg e => e.leaves
  | e => [e]

/-- An integer, a null, or an integer field of the parameter, reached through nested records. -/
inductive IntegerLeaf (x : Param) : Expr → Prop
  | signed (i : Int64) : IntegerLeaf x (.constant (.int i))
  | unsigned (n : UInt64) : IntegerLeaf x (.constant (.uint n))
  | null : IntegerLeaf x (.constant .null)
  | field {e : Expr} {names : List String} {p : FieldPath}
    (chain : e.fieldChain? x = some names) (plain : ∀ part ∈ e.parts, part.isConversion = false)
    (path : FieldPath.ofNames x.schema names = .ok p)
    (integer : p.leaf.type.kind.isInteger = true) : IntegerLeaf x e

theorem exactInteger?_arithmetic {a : Arithmetic} {left right : Expr} {m n k : Int}
    (hl : left.exactInteger? x r = some m) (hr : right.exactInteger? x r = some n)
    (h : a.exact m n = .ok k) : (binary (.arithmetic a) left right).exactInteger? x r = some k := by
  cases a with
  | div =>
    rw [Arithmetic.exact] at h
    split at h
    · cases h
    · rename_i hn
      cases h
      rw [exactInteger?, hl, hr]
      exact if_neg hn
  | _ =>
    cases h
    rw [exactInteger?, hl, hr]
    rfl

/-- A chain on the parameter is a field access, conversions aside. -/
theorem exists_access_of_chain (h : e.fieldChain? x = some names)
    (hplain : ∀ part ∈ e.parts, part.isConversion = false) :
    ∃ base name owner, e = access base name owner := by
  cases e with
  | access base name owner => exact ⟨base, name, owner, rfl⟩
  | parameter q =>
    obtain ⟨hnames, hne⟩ := fieldChain?_eq_some.1 h
    rw [namesFrom?] at hnames
    split at hnames
    · cases hnames; exact absurd rfl hne
    · cases hnames
  | unary op e =>
    have hop : op.isConversion = false := hplain _ (self_mem_parts _)
    rw [fieldChain?, namesFrom?, hop] at h
    cases h
  | constant | binary | call | lambda => cases h

/-- **What an integer leaf comes to**: null, or its integer. -/
theorem IntegerLeaf.comesTo (h : e.IntegerLeaf x) (hr : r.Conforms x.schema)
    (hv : e.ComesTo [(x, r)] v) :
    v = .null ∨ ∃ n, v.integer? = some n ∧ e.exactInteger? x r = some n := by
  cases h with
  | signed i =>
    obtain ⟨o, ⟨⟩, ⟨⟩⟩ := hv
    exact .inr ⟨_, rfl, rfl⟩
  | unsigned n =>
    obtain ⟨o, ⟨⟩, ⟨⟩⟩ := hv
    exact .inr ⟨_, rfl, rfl⟩
  | null =>
    obtain ⟨o, ⟨⟩, ⟨⟩⟩ := hv
    exact .inl rfl
  | @field _ names p chain plain path integer =>
    obtain ⟨hroot, hp, hnames⟩ := FieldPath.ofNames_eq_ok path
    have hs := FieldKind.isScalar_of_isInteger integer
    have hread : v = p.read r := by
      obtain ⟨q, fields, hq, hfields, rfl⟩ := exists_accesses (fieldChain?_eq_some.1 chain).1 plain
      refine eq_readFrom_of_accesses (hroot ▸ hp) hs hr ?_ (hfields.trans hnames.symm) hv
      rw [eval, Env.lookup?_cons, if_pos (BEq.symm hq)]
    have hkind := hp.hasKind_read hs (hroot ▸ hr)
    rw [← hread] at hkind
    rcases hkind.eq_null_or_integer integer with hnull | ⟨n, hn⟩
    · exact .inl hnull
    · obtain ⟨base, name, owner, rfl⟩ := exists_access_of_chain chain plain
      refine .inr ⟨n, hn, ?_⟩
      rw [exactInteger?, fieldInteger?, chain, hr.schema_eq]
      simp only [bind, Option.bind, path, Except.toOption, ← hread, hn]

/-- **What an integer expression comes to**: null, and then a leaf does, or its exact result, and
then no leaf is null. -/
theorem comesTo_integer (he : ∀ leaf ∈ e.leaves, leaf.IntegerLeaf x) (hr : r.Conforms x.schema)
    (hv : e.ComesTo [(x, r)] v) :
    (v = .null ∧ ∃ leaf ∈ e.leaves, leaf.ComesTo [(x, r)] .null) ∨
      (∃ n, v.integer? = some n ∧ e.exactInteger? x r = some n) ∧
        ∀ leaf ∈ e.leaves, ¬ leaf.ComesTo [(x, r)] .null := by
  fun_induction leaves e generalizing v with
  | case1 a left right ihl ihr =>
    rw [List.forall_mem_append] at he
    obtain ⟨o, ho, hv⟩ := hv
    obtain ⟨vl, vr, u, hl, hright, hu, rfl⟩ := eval_arithmetic_eq_ok.1 ho
    cases hv
    rcases ihl he.1 hl with ⟨rfl, leaf, hleaf, hnull⟩ | ⟨⟨m, hm, hexact⟩, hnone⟩
    · cases hu
      exact .inl ⟨rfl, leaf, List.mem_append_left _ hleaf, hnull⟩
    rcases ihr he.2 hright with ⟨rfl, leaf, hleaf, hnull⟩ | ⟨⟨n, hn, hexact'⟩, hnone'⟩
    · have hu : v = .null := by cases vl <;> cases hu <;> rfl
      exact .inl ⟨hu, leaf, List.mem_append_right _ hleaf, hnull⟩
    · obtain ⟨k, hk, hint⟩ := Value.integer?_of_arithmetic hm hn hu
      exact .inr ⟨⟨k, hint, exactInteger?_arithmetic hexact hexact' hk⟩,
        List.forall_mem_append.2 ⟨hnone, hnone'⟩⟩
  | case2 e ih =>
    obtain ⟨o, ho, hv⟩ := hv
    obtain ⟨w, u, hw, hu, rfl⟩ := eval_unary_eq_ok.1 ho
    cases hv
    rcases ih he hw with ⟨rfl, leaf, hleaf, hnull⟩ | ⟨⟨n, hn, hexact⟩, hnone⟩
    · cases hu
      exact .inl ⟨rfl, leaf, hleaf, hnull⟩
    · refine .inr ⟨⟨-n, Value.integer?_of_negate hn (mapError_eq_ok.1 hu), ?_⟩, hnone⟩
      rw [exactInteger?, hexact]
      rfl
  | case3 e _ _ =>
    rw [List.forall_mem_singleton] at he
    rcases he.comesTo hr hv with rfl | ⟨n, hn, hexact⟩
    · exact .inl ⟨rfl, e, List.mem_singleton_self e, hv⟩
    · refine .inr ⟨⟨n, hn, hexact⟩, ?_⟩
      rw [List.forall_mem_singleton]
      intro hnull
      cases hv.unique hnull
      cases hn

end Expr

namespace Lambda

/-- **Integer arithmetic never wraps around.**  A value that an integer selector picks is null or its
exact result; it is null exactly if a leaf of the expression is. -/
theorem select_integer {f : Lambda} (hf : ∀ leaf ∈ f.body.leaves, leaf.IntegerLeaf f.param)
    {r : Record} (hr : r.Conforms f.param.schema) {v : Value} (hv : f.select r = .ok v) :
    (v ≠ .null → ∃ n, v.integer? = some n ∧ f.body.exactInteger? f.param r = some n) ∧
    (v = .null ↔
      ∃ leaf ∈ f.body.leaves, (⟨f.param, leaf⟩ : Lambda).select r = .ok .null) := by
  have hleaves : ∀ leaf : Expr, (⟨f.param, leaf⟩ : Lambda).select r = .ok .null ↔
      leaf.ComesTo [(f.param, r)] .null := fun leaf => select_eq_ok (f := ⟨f.param, leaf⟩) hr
  simp only [hleaves]
  rcases Expr.comesTo_integer hf hr ((select_eq_ok hr).1 hv) with ⟨rfl, hleaf⟩ | ⟨hexact, hnone⟩
  · exact ⟨fun h => absurd rfl h, fun _ => hleaf, fun _ => rfl⟩
  · refine ⟨fun _ => hexact, ?_, fun ⟨leaf, hleaf, hnull⟩ => absurd hnull (hnone leaf hleaf)⟩
    rintro rfl
    obtain ⟨n, hn, -⟩ := hexact
    cases hn

end Lambda

/-! ### Selectors of accounts -/

namespace Sample

/-- Of an account, `-(uid + 2) / 2 * 3`, with an unsigned constant and a signed one. -/
def mixedTree : Lambda :=
  .over account fun x =>
    .binary (.arithmetic .mul)
      (.binary (.arithmetic .div)
        (.unary .neg (.binary (.arithmetic .add) (x.field "uid") (.constant (.uint 2))))
        (.constant (.int 2)))
      (.constant (.uint 3))

/-- Of an account, the postal code of its address, and one. -/
def nextZip : Lambda :=
  .over account fun x =>
    .binary (.arithmetic .add) (x.chain ["address", "zip"]) (.constant (.uint 1))

theorem uid_integerLeaf :
    ((Expr.parameter mixedTree.param).field "uid").IntegerLeaf mixedTree.param :=
  .field rfl (by decide) rfl rfl

theorem zip_integerLeaf :
    ((Expr.parameter nextZip.param).chain ["address", "zip"]).IntegerLeaf nextZip.param :=
  .field rfl (by decide) rfl rfl

/-- An unsigned sum, negated and divided toward zero, comes to its exact result, and a number that is
asked of an absent address to null. -/
theorem mixedTree_exact :
    (mixedTree.select fifthAccount = .ok (.int (-9)) ∧ ∃ n, (Value.int (-9)).integer? = some n ∧
      mixedTree.body.exactInteger? mixedTree.param fifthAccount = some n) ∧
    nextZip.select fifthAccount = .ok .null ∧ ∃ leaf ∈ nextZip.body.leaves,
      (⟨nextZip.param, leaf⟩ : Lambda).select fifthAccount = .ok .null := by
  have hmixed : mixedTree.select fifthAccount = .ok (.int (-9)) := rfl
  have hnext : nextZip.select fifthAccount = .ok .null := rfl
  have hmixedLeaves : ∀ leaf ∈ mixedTree.body.leaves, leaf.IntegerLeaf mixedTree.param := by
    change ∀ leaf ∈ [(Expr.parameter mixedTree.param).field "uid", .constant (.uint 2),
      .constant (.int 2), .constant (.uint 3)], leaf.IntegerLeaf mixedTree.param
    simp only [List.forall_mem_cons]
    exact ⟨uid_integerLeaf, .unsigned 2, .signed 2, .unsigned 3, List.forall_mem_nil _⟩
  have hnextLeaves : ∀ leaf ∈ nextZip.body.leaves, leaf.IntegerLeaf nextZip.param := by
    change ∀ leaf ∈ [(Expr.parameter nextZip.param).chain ["address", "zip"],
      .constant (.uint 1)], leaf.IntegerLeaf nextZip.param
    simp only [List.forall_mem_cons]
    exact ⟨zip_integerLeaf, .unsigned 1, List.forall_mem_nil _⟩
  exact ⟨⟨hmixed, (Lambda.select_integer hmixedLeaves fifthAccount_conforms hmixed).1 nofun⟩,
    hnext, (Lambda.select_integer hnextLeaves fifthAccount_conforms hnext).2.1 rfl⟩

end Sample

end RecordView
