import RecordView.Proofs.Expr.Environment

/-!
# Expressions whose parameters are bound

An evaluation fails on a parameter that is not bound (`EvalError.unboundParameter`) only where the
expression leaves a parameter to an environment that does not have it.  Nothing else that evaluation
does raises this error, which is one lemma for each operation; functions have their own parameter
bound whenever their body is asked.
-/

namespace RecordView

/-- Whether the error is that of a parameter that is not bound. -/
def EvalError.isUnbound : EvalError → Bool
  | unboundParameter _ => true
  | _ => false

/-- The evaluation does not fail on a parameter that is not bound. -/
def InScope {α : Type} (x : Except EvalError α) : Prop :=
  ∀ name, x ≠ .error (.unboundParameter name)

section InScope

variable {α β : Type} {x : Except EvalError α} {f : α → Except EvalError β}

theorem inScope_ok (a : α) : InScope (.ok a) := by
  intro name h
  cases h

theorem inScope_error {e : EvalError} (he : e.isUnbound = false) :
    InScope (.error e : Except EvalError α) := by
  intro name h
  cases h
  cases he

theorem InScope.bind (hx : InScope x) (hf : ∀ a, InScope (f a)) : InScope (x >>= f) := by
  cases x with
  | ok a => exact hf a
  | error e => exact fun name h => hx name (congrArg Except.error (Except.error.inj h))

theorem InScope.map (hx : InScope x) (g : α → β) : InScope (x.map g) := by
  cases x with
  | ok a => exact inScope_ok (g a)
  | error e => exact fun name h => hx name (congrArg Except.error (Except.error.inj h))

variable {p : α → Except EvalError Bool}

theorem InScope.anyM (h : ∀ a, InScope (p a)) (items : List α) : InScope (items.anyM p) := by
  induction items with
  | nil => exact inScope_ok false
  | cons a items ih =>
    refine (h a).bind fun found => ?_
    cases found with
    | true => exact inScope_ok true
    | false => exact ih

theorem InScope.allM (h : ∀ a, InScope (p a)) (items : List α) : InScope (items.allM p) := by
  induction items with
  | nil => exact inScope_ok true
  | cons a items ih =>
    refine (h a).bind fun held => ?_
    cases held with
    | true => exact ih
    | false => exact inScope_ok false

end InScope

/-! ### Operations -/

namespace Operand

theorem inScope_toValue (o : Operand) (expected : String) : InScope (o.toValue expected) := by
  unfold toValue
  split <;> first | exact inScope_ok _ | exact inScope_error rfl

theorem inScope_access (o : Operand) (name : String) (owner : Option Schema) :
    InScope (o.access name owner) := by
  unfold access
  repeat' split
  all_goals first | exact inScope_ok _ | exact inScope_error rfl

theorem inScope_elements (o : Operand) : InScope o.elements := by
  unfold elements
  split <;> first | exact inScope_ok _ | exact inScope_error rfl

theorem inScope_hasElement (o : Operand) : InScope o.hasElement := by
  unfold hasElement
  split
  · exact inScope_ok _
  · exact o.inScope_elements.map _

theorem inScope_count (o : Operand) : InScope o.count := by
  unfold count
  split <;> first | exact inScope_ok _ | exact inScope_error rfl

end Operand

theorem Value.inScope_truth (v : Value) : InScope v.truth := by
  unfold truth
  split <;> first | exact inScope_ok _ | exact inScope_error rfl

theorem Operand.inScope_truth (o : Operand) : InScope o.truth :=
  (o.inScope_toValue "bool").bind Value.inScope_truth

theorem ArithmeticFault.inScope_mapError (x : Except ArithmeticFault Value) (e : Expr)
    (expected found : String) : InScope (x.mapError (·.toEvalError e expected found)) := by
  cases x with
  | ok v => exact inScope_ok v
  | error fault => cases fault <;> exact inScope_error rfl

theorem Arithmetic.inScope_evalValues (a : Arithmetic) (e : Expr) (v w : Value) :
    InScope (a.evalValues e v w) :=
  ArithmeticFault.inScope_mapError _ e _ _

theorem UnaryOp.inScope_evalValue (op : UnaryOp) (e : Expr) (v : Value) :
    InScope (op.evalValue e v) := by
  cases op with
  | not =>
    simp only [evalValue]
    unfold Value.negation
    split
    · exact inScope_ok _
    · exact v.inScope_truth.map _
  | neg => exact ArithmeticFault.inScope_mapError _ e _ _
  | convert t =>
    simp only [evalValue]
    split <;> first | exact inScope_ok _ | exact inScope_error rfl
  | unwrap =>
    simp only [evalValue]
    split <;> first | exact inScope_ok _ | exact inScope_error rfl

/-- What a method may ask of the argument does not fail on a parameter that is not bound. -/
structure Argument.InScope (a : Argument) : Prop where
  result : RecordView.InScope a.result
  function : ∀ f, a.function? = some f → ∀ row, RecordView.InScope (f row)

theorem Method.inScope_onArguments (method : Method) (e : Expr) (t : Operand)
    {args : List Argument} (h : ∀ arg ∈ args, arg.InScope) :
    InScope (method.onArguments e t args) := by
  have hpart : ∀ arg ∈ args, InScope (do
      let part ← (← arg.result).toValue "scalar"
      let whole ← t.toValue "text or list"
      return Operand.value (.bool (method.matchesPart whole part))) := fun arg harg =>
    (h arg harg).result.bind fun o => (o.inScope_toValue _).bind fun _ =>
      (t.inScope_toValue _).bind fun _ => inScope_ok _
  match args with
  | [] =>
    cases method with
    | any => exact t.inScope_hasElement.bind fun _ => inScope_ok _
    | all => exact (t.inScope_hasElement.map _).bind fun _ => inScope_ok _
    | count => exact t.inScope_count.bind fun _ => inScope_ok _
    | contains | startsWith | endsWith => exact inScope_error rfl
  | [⟨result, none⟩] =>
    cases method with
    | any | all => exact inScope_error rfl
    | count => exact t.inScope_count.bind fun _ => inScope_ok _
    | contains | startsWith | endsWith => exact hpart _ (List.mem_singleton_self _)
  | [⟨result, some f⟩] =>
    have htruth : ∀ row, InScope (f row >>= Operand.truth) := fun row =>
      ((h _ (List.mem_singleton_self _)).function f rfl row).bind Operand.inScope_truth
    cases method with
    | any => exact t.inScope_elements.bind fun rows => (InScope.anyM htruth rows).bind fun _ =>
        inScope_ok _
    | all => exact t.inScope_elements.bind fun rows => (InScope.allM htruth rows).bind fun _ =>
        inScope_ok _
    | count => exact t.inScope_count.bind fun _ => inScope_ok _
    | contains | startsWith | endsWith => exact hpart _ (List.mem_singleton_self _)
  | ⟨_, function?⟩ :: _ :: _ =>
    cases method with
    | any | all => cases function? <;> exact inScope_error rfl
    | count => exact t.inScope_count.bind fun _ => inScope_ok _
    | contains | startsWith | endsWith => exact inScope_error rfl

namespace Expr

variable {e : Expr} {env : Env}

theorem argument_inScope_of_plain (hplain : e.isLambda = false) (h : InScope (e.eval env)) :
    (e.argument env).InScope := by
  rw [argument_of_plain hplain]
  refine ⟨h, fun f hf => ?_⟩
  cases hf

theorem argument_inScope (h : ∀ q ∈ e.freeParams, (env.lookup? q).isSome) :
    (e.argument env).InScope := by
  induction e using induct generalizing env with
  | parameter p =>
    refine argument_inScope_of_plain rfl ?_
    obtain ⟨r, hr⟩ := Option.isSome_iff_exists.1 (h p (by simp [freeParams]))
    rw [eval, hr]
    exact inScope_ok _
  | access base name owner ih =>
    exact argument_inScope_of_plain rfl ((ih h).result.bind fun o => o.inScope_access _ _)
  | binary op left right ihl ihr =>
    have hl := (ihl fun q hq => h q (List.mem_append_left _ hq)).result
    have hr := (ihr fun q hq => h q (List.mem_append_right _ hq)).result
    refine argument_inScope_of_plain rfl ?_
    cases op with
    | comparison c =>
      exact hl.bind fun o => (o.inScope_toValue _).bind fun _ => hr.bind fun o =>
        (o.inScope_toValue _).bind fun _ => inScope_ok _
    | arithmetic a =>
      exact hl.bind fun o => (o.inScope_toValue _).bind fun v => hr.bind fun o =>
        (o.inScope_toValue _).bind fun w => (a.inScope_evalValues _ v w).bind fun _ => inScope_ok _
    | connective c =>
      refine hl.bind fun o => (o.inScope_toValue _).bind fun v => v.inScope_truth.bind fun b => ?_
      have hright := hr.bind fun o => (o.inScope_toValue "bool").bind fun v =>
        v.inScope_truth.bind fun b => inScope_ok (Operand.value (.bool b))
      cases c <;> cases b
      · exact inScope_ok _
      · exact hright
      · exact hright
      · exact inScope_ok _
  | unary op e ih =>
    exact argument_inScope_of_plain rfl ((ih h).result.bind fun o =>
      (o.inScope_toValue _).bind fun v => (op.inScope_evalValue _ v).bind fun _ => inScope_ok _)
  | constant v => exact argument_inScope_of_plain rfl (inScope_ok _)
  | call method target args ih ihs =>
    refine argument_inScope_of_plain rfl ?_
    rw [eval_call]
    refine (ih fun q hq => h q (List.mem_append_left _ hq)).result.bind fun t =>
      method.inScope_onArguments _ t (List.forall_mem_map.2 fun arg harg => ?_)
    exact ihs arg harg fun q hq => h q (freeParams_subset_arg method target harg hq)
  | lambda p body ih =>
    refine ⟨inScope_error rfl, fun f hf row => ?_⟩
    cases hf
    refine (ih fun q hq => ?_).result
    rw [Env.lookup?_cons]
    split
    · rfl
    · rename_i hpq
      exact h q (List.mem_filter.2 ⟨hq, by simpa using hpq⟩)

/-- **Where its free parameters are bound, an expression does not fail on a parameter that is
not.** -/
theorem eval_inScope (h : ∀ q ∈ e.freeParams, (env.lookup? q).isSome) : InScope (e.eval env) :=
  (argument_inScope h).result

end Expr

namespace Lambda

/-- A closed function, applied to a record, does not fail on a parameter that is not bound. -/
theorem Closed.apply_inScope {f : Lambda} (hf : f.Closed) (r : Record) : InScope (f.apply r) := by
  unfold apply
  split
  · exact Expr.eval_inScope fun q hq => by rw [Env.lookup?_self (hf q hq)]; rfl
  · exact inScope_error rfl

end Lambda

end RecordView
