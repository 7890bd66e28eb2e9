import RecordView.Expr.Eval
import RecordView.Proofs.Expr.Parts

/-!
# Calls and their arguments

A method may take a function as its argument, which has no result of its own but one for every
element.  `Expr.argument` is what a method sees of an argument in an environment, and
`Method.onArguments` what a method makes of its target and of such arguments.  A call comes to
nothing else (`Expr.eval_call`), so whatever holds of all expressions can be shown of a call without
a look at the shapes of its arguments.
-/

namespace RecordView

/-- What a method sees of an argument. -/
structure Argument where
  /-- What the argument comes to by itself. -/
  result : Except EvalError Operand
  /-- What it comes to for an element, if it is a function. -/
  function? : Option (Record → Except EvalError Operand)

/-- The truth of what a predicate comes to. -/
def Operand.truth (o : Operand) : Except EvalError Bool := do
  let v ← o.toValue "bool"
  v.truth

/-- What a call comes to, from its target and its arguments; an error may quote the call. -/
def Method.onArguments (call : Expr) (t : Operand) :
    Method → List Argument → Except EvalError Operand
  | .any, [] => return .value (.bool (← t.hasElement))
  | .any, [⟨_, some f⟩] => do
    let rows ← t.elements
    return .value (.bool (← rows.anyM fun row => f row >>= Operand.truth))
  | .all, [] => return .value (.bool (← t.hasElement.map fun _ => true))
  | .all, [⟨_, some f⟩] => do
    let rows ← t.elements
    return .value (.bool (← rows.allM fun row => f row >>= Operand.truth))
  | .any, _ | .all, _ => .error (.unsupported call)
  | .count, _ => return .value (← t.count)
  | method, [arg] => do
    let part ← (← arg.result).toValue "scalar"
    let whole ← t.toValue "text or list"
    return .value (.bool (method.matchesPart whole part))
  | _, _ => .error (.unsupported call)

namespace Expr

/-- What the expression comes to for an element, if it is a function. -/
def function? (env : Env) : Expr → Option (Record → Except EvalError Operand)
  | lambda p body => some fun row => body.eval ((p, row) :: env)
  | _ => none

/-- The expression as the argument of a method. -/
def argument (env : Env) (e : Expr) : Argument := ⟨e.eval env, e.function? env⟩

/-- The argument of a method that is no function is its result. -/
theorem argument_of_plain {e : Expr} (h : e.isLambda = false) (env : Env) :
    e.argument env = ⟨e.eval env, none⟩ := by
  cases e with
  | lambda => cases h
  | _ => rfl

theorem argument_eq_of_eval_eq {e : Expr} {env env' : Env} (hplain : e.isLambda = false)
    (h : e.eval env = e.eval env') : e.argument env = e.argument env' := by
  rw [argument_of_plain hplain, argument_of_plain hplain, h]

/-- **A call comes to what its method makes of its arguments.** -/
theorem eval_call (env : Env) (method : Method) (target : Expr) (args : List Expr) :
    (call method target args).eval env = target.eval env >>= fun t =>
      method.onArguments (call method target args) t (args.map (argument env)) := by
  -- which arguments are functions is decided by their constructors
  match args with
  | [] => cases method <;> rfl
  | [e] => cases e <;> cases method <;> rfl
  | e :: _ :: _ => cases e <;> cases method <;> rfl

end Expr

end RecordView
