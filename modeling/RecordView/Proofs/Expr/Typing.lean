import RecordView.Proofs.Expr.Environment
import RecordView.Proofs.Expr.Results
import RecordView.Sample.Schemas

/-!
# What static types promise

The static type of an expression is inferred without a record at hand (`Expr.type`).  For an
expression that the builders make (`Expr.Buildable`), evaluation keeps the promise of its kind as
far as arithmetic does (`Expr.Buildable.typed`): fields hold what their schemas say, conversions
yield what they name, and predicates yield Booleans.

Arithmetic keeps it where the kinds of the operands settle the kind of the result
(`Expr.Settled`).  Elsewhere an integer may turn out to be a number of another kind, and nothing
else may happen (`Lambda.kind_of_select`); `Sample.negatedUid_kind` is such a case.
-/

namespace RecordView

/-! ### Operands -/

namespace Operand

/-- The operand is what the kind promises, where `R` says what it promises of values. -/
inductive Typed (R : FieldKind → Value → Prop) (kind : FieldKind) : Operand → Prop
  | value {v : Value} (promised : R kind v) : Typed R kind (.value v)
  | record {s : Schema} {r : Option Record} (isRecord : kind = .record s)
    (conforms : ∀ n, r = some n → n.Conforms s) : Typed R kind (.record r)
  | records (rs : List Record) : Typed R kind (.records rs)

variable {R : FieldKind → Value → Prop} {k : FieldKind} {o : Operand}

theorem Typed.toValue (hR : ∀ k, R k .null) (h : o.Typed R k) {expected : String} {v : Value}
    (hv : o.toValue expected = .ok v) : R k v := by
  cases h with
  | value promised => cases hv; exact promised
  | @record s r isRecord conforms =>
    cases r with
    | none => cases hv; exact hR k
    | some n => cases hv
  | records rs => cases hv

/-- A field of an absent record is null, or absent itself. -/
theorem typed_missing (hR : ∀ k, R k .null) (k : FieldKind) : (missing k).Typed R k := by
  cases k with
  | record s => exact .record rfl (by simp)
  | records s => exact .records []
  | _ => exact .value (hR _)

/-- A field of a conforming record is what its schema says. -/
theorem typed_present (hR : ∀ k v, v.HasKind k → R k v) {r : Record} {s : Schema}
    (hr : r.Conforms s) {name : String} {f : Field} (hf : s.field? name = some f) :
    (present r f).Typed R f.type.kind := by
  have hname := Schema.name_of_field? hf
  unfold present
  split
  · rename_i t hkind
    refine .record hkind fun n hn => hr.getRecord? hf hkind ?_
    rwa [hname] at hn
  · exact .records _
  · rename_i hrecord hrecords
    have hscalar : f.type.kind.isScalar = true := by
      cases hk : f.type.kind with
      | record t => exact absurd hk (hrecord t)
      | records t => exact absurd hk (hrecords t)
      | _ => rfl
    obtain ⟨v, hv, hstored⟩ := hr.exists_value hf hscalar
    rw [hname, hv]
    exact .value (hR _ _ (Field.hasKind_of_store? hstored))

/-- Access through the schema of the operand's kind. -/
theorem Typed.access (hR : ∀ k v, v.HasKind k → R k v) {t : FieldType} (h : o.Typed R t.kind)
    {name : String} {o' : Operand} (ho : o.access name t.recordSchema? = .ok o') :
    ∃ s f, t.recordSchema? = some s ∧ s.field? name = some f ∧ o'.Typed R f.type.kind := by
  cases h with
  | value promised => cases ho
  | @record s r isRecord conforms =>
    have hschema : t.recordSchema? = some s := by rw [FieldType.recordSchema?, isRecord]
    cases r with
    | none =>
      simp only [Operand.access, hschema] at ho
      cases hf : s.field? name with
      | none => simp [hf] at ho
      | some f =>
        simp only [hf] at ho
        cases ho
        exact ⟨s, f, hschema, hf, typed_missing (fun k => hR k _ rfl) _⟩
    | some n =>
      have hn := conforms n rfl
      simp only [Operand.access, hn.schema_eq] at ho
      cases hf : s.field? name with
      | none => simp [hf] at ho
      | some f =>
        simp only [hf] at ho
        cases ho
        exact ⟨s, f, hschema, hf, typed_present hR hn hf⟩
  | records rs => cases ho

end Operand

/-! ### Expressions -/

namespace Expr

/-- What the builders make of the parameters in scope, whatever methods are called and whatever is
bound for their arguments: an access takes its owner from the type of its base. -/
inductive Buildable : List Param → Expr → Prop
  | parameter {scope : List Param} {p : Param} (bound : p ∈ scope) :
    Buildable scope (.parameter p)
  | constant {scope : List Param} (v : Value) : Buildable scope (.constant v)
  | field {scope : List Param} {e : Expr} (base : Buildable scope e) (name : String) :
    Buildable scope (e.field name)
  | binary {scope : List Param} {l r : Expr} (op : BinaryOp) (left : Buildable scope l)
    (right : Buildable scope r) : Buildable scope (.binary op l r)
  | unary {scope : List Param} {e : Expr} (op : UnaryOp) (operand : Buildable scope e) :
    Buildable scope (.unary op e)
  | call {scope : List Param} {e : Expr} {args : List Expr} (method : Method)
    (target : Buildable scope e) (each : ∀ arg ∈ args, Buildable scope arg) :
    Buildable scope (.call method e args)
  | lambda {scope : List Param} {e : Expr} (p : Param) (body : Buildable (p :: scope) e) :
    Buildable scope (.lambda p e)

/-- Arithmetic comes to what its inferred kind promises, if its operands do. -/
def Keeps (R : FieldKind → Value → Prop) : Expr → Prop
  | binary (.arithmetic a) l r => ∀ v w u, R l.type.kind v → R r.type.kind w →
    Value.arithmetic a v w = .ok u → R (l.type.kind.join r.type.kind) u
  | unary .neg e => ∀ v u, R e.type.kind v → v.negate = .ok u → R e.type.kind u
  | _ => True

variable {R : FieldKind → Value → Prop} {scope : List Param} {env : Env} {e l r : Expr}

theorem kind_field {name : String} {s : Schema} {f : Field} (hs : e.type.recordSchema? = some s)
    (hf : s.field? name = some f) : (e.field name).type.kind = f.type.kind := by
  simp only [field, type, hs, Option.bind_some, hf]
  split <;> rfl

/-- A unary operator comes to what its type promises, if its operand does. -/
theorem promised_of_evalValue (hR : ∀ k v, v.HasKind k → R k v) {op : UnaryOp} {expr : Expr}
    (hkeeps : (unary op e).Keeps R) {v u : Value} (hv : R e.type.kind v)
    (h : op.evalValue expr v = .ok u) : R (unary op e).type.kind u := by
  cases op with
  | not => exact hR _ _ (Value.hasKind_negation h)
  | neg => exact hkeeps v u hv (mapError_eq_ok.1 h)
  | convert t => exact hR _ _ (Value.hasKind_of_cast (UnaryOp.evalValue_convert_eq_ok.1 h))
  | unwrap =>
    obtain ⟨-, rfl⟩ := UnaryOp.evalValue_unwrap_eq_ok.1 h
    exact hv

/-- A binary operator comes to what its type promises, if its operands do. -/
theorem promised_of_result (hR : ∀ k v, v.HasKind k → R k v) {op : BinaryOp}
    (hkeeps : (binary op l r).Keeps R) {right : Value → Prop} (hr : ∀ w, right w → R r.type.kind w)
    {v u : Value} (hv : R l.type.kind v) (h : op.Result right v u) :
    R (binary op l r).type.kind u := by
  cases h with
  | comparison c asked => exact hR _ _ rfl
  | arithmetic asked result => exact hkeeps v _ u hv (hr _ asked) result
  | decided decides => exact hR _ _ rfl
  | undecided undecided asked truth => exact hR _ _ rfl

theorem ComesTo.promised (hR : ∀ k v, v.HasKind k → R k v)
    (h : ∀ o, e.eval env = .ok o → o.Typed R e.type.kind) {v : Value} (hv : e.ComesTo env v) :
    R e.type.kind v := by
  obtain ⟨o, ho, hv⟩ := hv
  exact (h o ho).toValue (fun k => hR k _ rfl) hv

/-- **Evaluation keeps the promise of static kinds as far as arithmetic does.**  The promise `R` may
be that of exact kinds or a weaker one. -/
theorem Buildable.typed (hR : ∀ k v, v.HasKind k → R k v) (he : Buildable scope e)
    (hkeeps : ∀ part ∈ e.parts, part.Keeps R)
    (henv : ∀ p ∈ scope, ∀ r, env.lookup? p = some r → r.Conforms p.schema) :
    ∀ o, e.eval env = .ok o → o.Typed R e.type.kind := by
  induction he with
  | @parameter scope p bound =>
    intro o ho
    rw [eval] at ho
    split at ho
    · rename_i r hr
      cases ho
      exact .record rfl (by rintro _ ⟨⟩; exact henv p bound r hr)
    · cases ho
  | constant v =>
    rintro o ⟨⟩
    exact .value (hR _ _ v.hasKind_kind)
  | field base name ih =>
    intro o ho
    obtain ⟨o', ho', ho⟩ := bind_eq_ok.1 ho
    have hbase := ih (fun part hp => hkeeps part (List.mem_cons_of_mem _ hp)) henv o' ho'
    obtain ⟨s, f, hs, hf, htyped⟩ := hbase.access hR ho
    rwa [kind_field hs hf]
  | @binary scope l r op left right ihl ihr =>
    intro o ho
    obtain ⟨v, u, hv, hu, rfl⟩ := eval_binary_eq_ok.1 ho
    have hl := ihl (fun part hp => hkeeps part (parts_subset_left op l r hp)) henv
    have hr := ihr (fun part hp => hkeeps part (parts_subset_right op l r hp)) henv
    exact .value (promised_of_result hR (hkeeps _ (self_mem_parts _))
      (fun w hw => hw.promised hR hr) (hv.promised hR hl) hu)
  | unary op operand ih =>
    intro o ho
    obtain ⟨v, u, hv, hu, rfl⟩ := eval_unary_eq_ok.1 ho
    have he := ih (fun part hp => hkeeps part (List.mem_cons_of_mem _ hp)) henv
    exact .value (promised_of_evalValue hR (hkeeps _ (self_mem_parts _)) (hv.promised hR he) hu)
  | call method target each ih ihs =>
    intro o ho
    -- a Boolean or a length, whatever nested functions come to
    obtain ⟨v, rfl, hv⟩ := exists_of_eval_call ho
    exact .value (hR _ _ hv)
  | lambda p body ih =>
    rintro o ⟨⟩

/-! ### Arithmetic -/

/-- The kinds of the operands settle the kind of the result. -/
def Settled : Expr → Prop
  | binary (.arithmetic _) l r => l.type.kind.settles r.type.kind = true
  | unary .neg e => e.type.kind ≠ .uint
  | _ => True

theorem keeps_hasKind (h : e.Settled) : e.Keeps Value.HasKind := by
  unfold Keeps
  split
  · exact fun v w u => Value.hasKind_arithmetic h
  · exact fun v u => Value.hasKind_negate h
  · trivial

theorem keeps_nearKind (e : Expr) : e.Keeps Value.NearKind := by
  unfold Keeps
  split
  · exact fun v w u => Value.nearKind_arithmetic
  · exact fun v u => Value.nearKind_negate
  · trivial

end Expr

namespace Lambda

/-- **What static kinds promise of a selector.**  If the builders made it, a value that it picks
from a record of its schema is of the static kind, where that is known, or it is a number where the
static kind promises an integer; and it is of the static kind, where that is known, if the kinds of
the operands settle the kind of every arithmetic operation. -/
theorem kind_of_select {f : Lambda} (hf : Expr.Buildable [f.param] f.body) {r : Record}
    (hr : r.Conforms f.param.schema) {v : Value} (hv : f.select r = .ok v) (hnull : v ≠ .null) :
    (f.body.type.kind = .any ∨ v.kind = f.body.type.kind ∨
      f.body.type.kind.isInteger = true ∧ v.kind.isNumeric = true) ∧
    ((∀ part ∈ f.body.parts, part.Settled) →
      f.body.type.kind = .any ∨ v.kind = f.body.type.kind) := by
  rw [select, apply_of_conforms hr] at hv
  have hv : f.body.ComesTo [(f.param, r)] v := bind_eq_ok.1 hv
  have henv : ∀ p ∈ [f.param], ∀ n, Env.lookup? [(f.param, r)] p = some n →
      n.Conforms p.schema := by
    intro p hp n hn
    obtain rfl := List.mem_singleton.1 hp
    rw [Env.lookup?_cons, if_pos (Param.beq_self _)] at hn
    cases hn
    exact hr
  constructor
  · have hnear := hv.promised (fun k v => .inl) (hf.typed (fun k v => .inl)
      (fun part _ => part.keeps_nearKind) henv)
    rcases hnear with hkind | hnumeric
    · exact ((Value.hasKind_iff.1 hkind).resolve_left hnull).imp_right .inl
    · exact .inr (.inr hnumeric)
  · intro hsettled
    have hkind := hv.promised (fun k v => id) (hf.typed (fun k v => id)
      (fun part hp => part.keeps_hasKind (hsettled part hp)) henv)
    exact (Value.hasKind_iff.1 hkind).resolve_left hnull

end Lambda

/-! ### Selectors of accounts -/

namespace Sample

/-- An account whose unsigned number is 5. -/
def fifthAccount : Record := account.default.setCell "uid" (.value (.uint 5))

theorem fifthAccount_conforms : fifthAccount.Conforms account :=
  account.default_conforms.setCell (f := req "uid" .uint) rfl (.value rfl rfl)

/-- The sum of an account's unsigned numbers. -/
def unsignedSum : Lambda :=
  .over account fun x => .binary (.arithmetic .add) (x.field "uid") (x.field "u")

theorem unsignedSum_settled : ∀ part ∈ unsignedSum.body.parts, part.Settled := by
  simp only [unsignedSum, Lambda.over, Expr.field, Expr.parts, List.cons_append, List.nil_append,
    List.forall_mem_cons]
  exact ⟨rfl, trivial, trivial, trivial, trivial, List.forall_mem_nil _⟩

theorem unsignedSum_kind : unsignedSum.body.type.kind = .any ∨
    (Value.uint 5).kind = unsignedSum.body.type.kind := by
  have hx : Expr.Buildable [unsignedSum.param] (.parameter unsignedSum.param) :=
    .parameter (List.mem_singleton_self _)
  exact (Lambda.kind_of_select (.binary _ (hx.field _) (hx.field _)) fifthAccount_conforms
    (v := .uint 5) rfl nofun).2 unsignedSum_settled

/-- The unsigned number of an account, negated. -/
def negatedUid : Lambda := .over account fun x => .unary .neg (x.field "uid")

/-- A negated unsigned number is a signed one, but its static kind is that of unsigned ones. -/
theorem negatedUid_kind : Expr.Buildable [negatedUid.param] negatedUid.body ∧
    fifthAccount.Conforms negatedUid.param.schema ∧
    negatedUid.select fifthAccount = .ok (.int (-5)) ∧ (Value.int (-5)).kind = .int ∧
    negatedUid.body.type.kind = .uint :=
  ⟨.unary _ (.field (.parameter (List.mem_singleton_self _)) _), fifthAccount_conforms, rfl, rfl,
    rfl⟩

end Sample

end RecordView
