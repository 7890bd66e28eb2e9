import RecordView.Expr.Typing
import RecordView.Proofs.Expr.Quoting

/-!
# Expressions in environments

`Expr.Follows` compares two expressions in two environments: whatever the first one comes to, the
second one comes to as well.  It says nothing where the first one fails, and so it does not depend
on what an error quotes.  There is one lemma for each node, which asks of the parts of the two nodes
what it says of the nodes; functions, which have no result themselves, follow each other when their
bodies do for every element.

An expression asks its environment only for its free parameters: in environments that agree on
these it comes to the same, or fails with the same error (`Expr.eval_congr`).
-/

namespace RecordView

theorem Env.lookup?_cons (p q : Param) (r : Record) (env : Env) :
    Env.lookup? ((p, r) :: env) q = if p == q then some r else Env.lookup? env q := by
  rw [Env.lookup?, List.find?_cons]
  cases p == q <;> rfl

theorem Env.lookup?_self {p q : Param} (h : (p == q) = true) (r : Record) (env : Env) :
    Env.lookup? ((p, r) :: env) q = some r := by
  rw [lookup?_cons, if_pos h]

/-- Under a binder environments agree on what they agree on but for the bound parameter. -/
theorem Env.lookup?_cons_congr {p q : Param} {env env' : Env}
    (h : (p == q) = false → env.lookup? q = env'.lookup? q) (row : Record) :
    Env.lookup? ((p, row) :: env) q = Env.lookup? ((p, row) :: env') q := by
  rw [lookup?_cons, lookup?_cons]
  cases hp : p == q with
  | true => rfl
  | false => exact h hp

namespace Expr

/-- Environments that agree on the free parameters of a function agree on those of its body. -/
theorem agree_of_agree_lambda {p : Param} {body : Expr} {env env' : Env}
    (h : ∀ q ∈ (lambda p body).freeParams, env.lookup? q = env'.lookup? q) (row : Record) :
    ∀ q ∈ body.freeParams,
      Env.lookup? ((p, row) :: env) q = Env.lookup? ((p, row) :: env') q := by
  intro q hq
  exact Env.lookup?_cons_congr (fun hp => h q (List.mem_filter.2 ⟨hq, by simp [hp]⟩)) row

theorem argument_congr {e : Expr} {env env' : Env}
    (h : ∀ q ∈ e.freeParams, env.lookup? q = env'.lookup? q) :
    e.argument env = e.argument env' := by
  induction e using induct generalizing env env' with
  | parameter p => exact argument_eq_of_eval_eq rfl (by rw [eval, eval, h p (by simp [freeParams])])
  | access base name owner ih =>
    have hbase : base.eval env = base.eval env' := congrArg Argument.result (ih h)
    exact argument_eq_of_eval_eq rfl (by rw [eval, eval, hbase])
  | binary op left right ihl ihr =>
    have hl : left.eval env = left.eval env' :=
      congrArg Argument.result (ihl fun q hq => h q (List.mem_append_left _ hq))
    have hr : right.eval env = right.eval env' :=
      congrArg Argument.result (ihr fun q hq => h q (List.mem_append_right _ hq))
    refine argument_eq_of_eval_eq rfl ?_
    cases op <;> rw [eval, eval, hl, hr]
  | unary op e ih =>
    have he : e.eval env = e.eval env' := congrArg Argument.result (ih h)
    exact argument_eq_of_eval_eq rfl (by rw [eval, eval, he])
  | constant v => rfl
  | call method target args ih ihs =>
    have htarget : target.eval env = target.eval env' :=
      congrArg Argument.result (ih fun q hq => h q (List.mem_append_left _ hq))
    have hargs : args.map (argument env) = args.map (argument env') :=
      List.map_congr_left fun arg harg => ihs arg harg fun q hq =>
        h q (freeParams_subset_arg method target harg hq)
    exact argument_eq_of_eval_eq rfl (by rw [eval_call, eval_call, htarget, hargs])
  | lambda p body ih =>
    have hbody : ∀ row, body.eval ((p, row) :: env) = body.eval ((p, row) :: env') :=
      fun row => congrArg Argument.result (ih (agree_of_agree_lambda h row))
    simp only [argument, eval, function?, hbody]

/-- **In environments that agree on the free parameters of an expression it comes to the same**, or
fails with the same error. -/
theorem eval_congr {e : Expr} {env env' : Env}
    (h : ∀ q ∈ e.freeParams, env.lookup? q = env'.lookup? q) : e.eval env = e.eval env' :=
  congrArg Argument.result (argument_congr h)

/-- Whether the expression is true in the environment; null is not. -/
def test (env : Env) (e : Expr) : Except EvalError Bool := do
  let v ← (← e.eval env).toValue "bool"
  v.truth

/-- Whatever the first expression comes to in the first environment, the second one comes to in the
second environment. -/
inductive Follows (env env' : Env) : Expr → Expr → Prop
  | operand {e e' : Expr} (plain : e.isLambda = false)
    (eval : ∀ o, e.eval env = .ok o → e'.eval env' = .ok o) : Follows env env' e e'
  | function {p p' : Param} {body body' : Expr}
    (eval : ∀ row o, body.eval ((p, row) :: env) = .ok o →
      body'.eval ((p', row) :: env') = .ok o) :
    Follows env env' (lambda p body) (lambda p' body')

variable {env env' : Env} {e e' l l' r r' : Expr} {args args' : List Expr}

theorem Follows.eval (h : Follows env env' e e') {o : Operand} (ho : e.eval env = .ok o) :
    e'.eval env' = .ok o := by
  cases h with
  | operand _ eval => exact eval o ho
  | function => cases ho

/-- What coincides with an expression has its results. -/
theorem Coincides.follows (h : Coincides env env' e e') : Follows env env' e e' := by
  cases e with
  | lambda p body =>
    cases e' with
    | lambda p' body' =>
      cases h.function with
      | some hbody => exact .function fun row o ho => (hbody row).eq_ok ho
    | _ => cases h.function
  | _ => exact .operand rfl fun o ho => h.eval.eq_ok ho

theorem Follows.access (h : Follows env env' e e') (name : String) (owner : Option Schema) :
    Follows env env' (.access e name owner) (.access e' name owner) := by
  refine .operand rfl fun o ho => ?_
  obtain ⟨base, hbase, ho⟩ := bind_eq_ok.1 ho
  exact bind_eq_ok.2 ⟨base, h.eval hbase, ho⟩

theorem Follows.unary (op : UnaryOp) (h : Follows env env' e e') :
    Follows env env' (.unary op e) (.unary op e') := by
  refine .operand rfl fun o ho => ?_
  obtain ⟨operand, hoperand, ho⟩ := bind_eq_ok.1 ho
  obtain ⟨v, hv, ho⟩ := bind_eq_ok.1 ho
  obtain ⟨w, hw, ho⟩ := bind_eq_ok.1 ho
  exact bind_eq_ok.2 ⟨operand, h.eval hoperand, bind_eq_ok.2 ⟨v, hv,
    bind_eq_ok.2 ⟨w, (op.evalValue_sameOutcome _ _ v).eq_ok hw, ho⟩⟩⟩

theorem Follows.binary (op : BinaryOp) (hl : Follows env env' l l') (hr : Follows env env' r r') :
    Follows env env' (.binary op l r) (.binary op l' r') := by
  refine .operand rfl fun o ho => ?_
  cases op with
  | comparison c =>
    obtain ⟨left, hleft, ho⟩ := bind_eq_ok.1 ho
    obtain ⟨v, hv, ho⟩ := bind_eq_ok.1 ho
    obtain ⟨right, hright, ho⟩ := bind_eq_ok.1 ho
    exact bind_eq_ok.2 ⟨left, hl.eval hleft, bind_eq_ok.2 ⟨v, hv,
      bind_eq_ok.2 ⟨right, hr.eval hright, ho⟩⟩⟩
  | arithmetic a =>
    obtain ⟨left, hleft, ho⟩ := bind_eq_ok.1 ho
    obtain ⟨v, hv, ho⟩ := bind_eq_ok.1 ho
    obtain ⟨right, hright, ho⟩ := bind_eq_ok.1 ho
    obtain ⟨w, hw, ho⟩ := bind_eq_ok.1 ho
    obtain ⟨u, hu, ho⟩ := bind_eq_ok.1 ho
    exact bind_eq_ok.2 ⟨left, hl.eval hleft, bind_eq_ok.2 ⟨v, hv,
      bind_eq_ok.2 ⟨right, hr.eval hright, bind_eq_ok.2 ⟨w, hw,
        bind_eq_ok.2 ⟨u, (a.evalValues_sameOutcome _ _ v w).eq_ok hu, ho⟩⟩⟩⟩⟩
  | connective c =>
    obtain ⟨left, hleft, ho⟩ := bind_eq_ok.1 ho
    obtain ⟨v, hv, ho⟩ := bind_eq_ok.1 ho
    obtain ⟨b, hb, ho⟩ := bind_eq_ok.1 ho
    refine bind_eq_ok.2 ⟨left, hl.eval hleft, bind_eq_ok.2 ⟨v, hv, bind_eq_ok.2 ⟨b, hb, ?_⟩⟩⟩
    have hright : (do
        let w ← (← r.eval env).toValue "bool"
        return Operand.value (.bool (← w.truth))) = .ok o → (do
        let w ← (← r'.eval env').toValue "bool"
        return Operand.value (.bool (← w.truth))) = .ok o := by
      intro ho
      obtain ⟨right, hright, ho⟩ := bind_eq_ok.1 ho
      exact bind_eq_ok.2 ⟨right, hr.eval hright, ho⟩
    -- the right operand is asked for by both or by neither
    cases c <;> cases b
    · exact ho
    · exact hright ho
    · exact hright ho
    · exact ho

theorem test_of_eval (h : ∀ o, e.eval env = .ok o → e'.eval env' = .ok o) {b : Bool}
    (hb : e.test env = .ok b) : e'.test env' = .ok b := by
  obtain ⟨o, ho, hb⟩ := bind_eq_ok.1 hb
  exact bind_eq_ok.2 ⟨o, h o ho, hb⟩

theorem Follows.test (h : Follows env env' e e') {b : Bool} (hb : e.test env = .ok b) :
    e'.test env' = .ok b :=
  test_of_eval (fun _ => h.eval) hb

theorem Follows.call (method : Method) (h : Follows env env' e e')
    (hargs : List.Forall₂ (Follows env env') args args') :
    Follows env env' (.call method e args) (.call method e' args') := by
  refine .operand rfl fun o ho => ?_
  rw [Expr.eval] at ho ⊢
  obtain ⟨t, ht, ho⟩ := bind_eq_ok.1 ho
  refine bind_eq_ok.2 ⟨t, h.eval ht, ?_⟩
  cases method with
  | any =>
    dsimp only at ho
    split at ho
    · cases hargs
      exact ho
    · obtain _ | ⟨hfirst, _ | _⟩ := hargs
      obtain ⟨rows, hrows, ho⟩ := bind_eq_ok.1 ho
      obtain ⟨found, hfound, ho⟩ := bind_eq_ok.1 ho
      obtain plain | hbody := hfirst
      · cases plain
      · exact bind_eq_ok.2 ⟨rows, hrows, bind_eq_ok.2 ⟨found,
          anyM_eq_ok (fun row _ => test_of_eval (hbody row)) hfound, ho⟩⟩
    · cases ho
  | all =>
    dsimp only at ho
    split at ho
    · cases hargs
      exact ho
    · obtain _ | ⟨hfirst, _ | _⟩ := hargs
      obtain ⟨rows, hrows, ho⟩ := bind_eq_ok.1 ho
      obtain ⟨held, hheld, ho⟩ := bind_eq_ok.1 ho
      obtain plain | hbody := hfirst
      · cases plain
      · exact bind_eq_ok.2 ⟨rows, hrows, bind_eq_ok.2 ⟨held,
          allM_eq_ok (fun row _ => test_of_eval (hbody row)) hheld, ho⟩⟩
    · cases ho
  | count => exact ho
  | contains | startsWith | endsWith =>
    dsimp only at ho
    split at ho
    · obtain _ | ⟨hfirst, _ | _⟩ := hargs
      obtain ⟨part, hpart, ho⟩ := bind_eq_ok.1 ho
      exact bind_eq_ok.2 ⟨part, hfirst.eval hpart, ho⟩
    · cases ho

/-- Environments that agree on the free parameters of an expression give it the same results. -/
theorem follows_self (h : ∀ q ∈ e.freeParams, env.lookup? q = env'.lookup? q) :
    Follows env env' e e := by
  cases e with
  | lambda p body =>
    exact .function fun row o ho => eval_congr (agree_of_agree_lambda h row) ▸ ho
  | _ => exact .operand rfl fun o ho => eval_congr h ▸ ho

theorem recordSchema?_field (name : String) : (e.field name).type.recordSchema? =
    (e.type.recordSchema?.bind (·.field? name)).bind (·.type.recordSchema?) := by
  rw [field, type]
  cases e.type.recordSchema?.bind (·.field? name) with
  | none => rfl
  | some f =>
    dsimp only [Option.bind_some]
    split <;> rfl

/-- Accesses along the same fields follow each other, from records of one schema on. -/
theorem Follows.chain (h : Follows env env' e e')
    (htype : e.type.recordSchema? = e'.type.recordSchema?) (names : List String) :
    Follows env env' (e.chain names) (e'.chain names) := by
  induction names generalizing e e' with
  | nil => exact h
  | cons name names ih =>
    have hfield : Follows env env' (e.field name) (e'.field name) := by
      rw [field, field, htype]
      exact h.access name _
    refine ih hfield ?_
    rw [recordSchema?_field, recordSchema?_field, htype]

/-! ### Truth -/

theorem test_eq_ok {b : Bool} : e.test env = .ok b ↔
    ∃ o v, e.eval env = .ok o ∧ o.toValue "bool" = .ok v ∧ v.truth = .ok b := by
  constructor
  · intro h
    obtain ⟨o, ho, h⟩ := bind_eq_ok.1 h
    obtain ⟨v, hv, h⟩ := bind_eq_ok.1 h
    exact ⟨o, v, ho, hv, h⟩
  · rintro ⟨o, v, ho, hv, h⟩
    exact bind_eq_ok.2 ⟨o, ho, bind_eq_ok.2 ⟨v, hv, h⟩⟩

/-- A conjunction is true when both sides are. -/
theorem test_and_eq_true : (binary (.connective .and) l r).test env = .ok true ↔
    l.test env = .ok true ∧ r.test env = .ok true := by
  constructor
  · intro h
    obtain ⟨o, u, ho, hu, h⟩ := test_eq_ok.1 h
    obtain ⟨left, hleft, ho⟩ := bind_eq_ok.1 ho
    obtain ⟨v, hv, ho⟩ := bind_eq_ok.1 ho
    obtain ⟨b, hb, ho⟩ := bind_eq_ok.1 ho
    cases b with
    | false =>
      cases ho
      cases hu
      cases h
    | true =>
      obtain ⟨right, hright, ho⟩ := bind_eq_ok.1 ho
      obtain ⟨w, hw, ho⟩ := bind_eq_ok.1 ho
      obtain ⟨b, hb', ho⟩ := bind_eq_ok.1 ho
      cases ho
      cases hu
      cases h
      exact ⟨test_eq_ok.2 ⟨left, v, hleft, hv, hb⟩, test_eq_ok.2 ⟨right, w, hright, hw, hb'⟩⟩
  · rintro ⟨hl, hr⟩
    obtain ⟨left, v, hleft, hv, hb⟩ := test_eq_ok.1 hl
    obtain ⟨right, w, hright, hw, hb'⟩ := test_eq_ok.1 hr
    refine test_eq_ok.2 ⟨.value (.bool true), .bool true, ?_, rfl, rfl⟩
    simp only [Expr.eval, hleft, hv, hb, hright, hw, hb', bind, Except.bind]
    rfl

theorem test_of_mem_conjuncts (h : e.test env = .ok true) {k : Expr} (hk : k ∈ e.conjuncts) :
    k.test env = .ok true := by
  fun_induction conjuncts e with
  | case1 l r ihl ihr =>
    obtain ⟨hl, hr⟩ := test_and_eq_true.1 h
    exact (List.mem_append.1 hk).elim (ihl hl) (ihr hr)
  | case2 e => rwa [List.mem_singleton.1 hk]

/-- Where some element matches, there is one. -/
theorem exists_of_test_any {p : Param} {body : Expr}
    (h : (Expr.call .any e [.lambda p body]).test env = .ok true) :
    ∃ o rows, e.eval env = .ok o ∧ o.elements = .ok rows ∧
      ∃ row ∈ rows, body.test ((p, row) :: env) = .ok true := by
  rw [Expr.test, Expr.eval] at h
  obtain ⟨result, hresult, h⟩ := bind_eq_ok.1 h
  obtain ⟨o, ho, hresult⟩ := bind_eq_ok.1 hresult
  obtain ⟨rows, hrows, hresult⟩ := bind_eq_ok.1 hresult
  obtain ⟨found, hfound, hresult⟩ := bind_eq_ok.1 hresult
  cases hresult
  cases h
  exact ⟨o, rows, ho, hrows, exists_of_anyM hfound⟩

end Expr

namespace Lambda

/-- A predicate is satisfied by the records of its schema of which its body is true. -/
theorem test_eq_true {f : Lambda} {r : Record} (hr : r.schema = f.param.schema) :
    f.test r = f.body.test [(f.param, r)] := by
  rw [Lambda.test, Lambda.apply, hr, if_pos (Schema.beq_self _)]
  rfl

end Lambda

end RecordView
