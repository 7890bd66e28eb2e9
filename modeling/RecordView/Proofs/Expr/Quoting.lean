import Mathlib.Data.List.Forall2
import RecordView.Proofs.Expr.Calls
import RecordView.Proofs.Outcome

/-!
# Outcomes up to what an error quotes

Some errors quote the expression that failed, or the parameter that was not bound.
`SameOutcome` compares two evaluations without it: they have the same result, or they fail for the
same reason.

`Expr.Coincides` says so of two expressions in two environments.  There is one lemma for each node,
which asks of the parts of the two nodes what it says of the nodes; functions, which have no result
themselves, coincide when their bodies do for every element.
-/

namespace RecordView

namespace EvalError

/-- The error without the expression, or the name of a parameter, that it quotes. -/
def unquoted : EvalError → EvalError
  | unboundParameter _ => unboundParameter ""
  | nullUnwrap _ => nullUnwrap default
  | overflow _ => overflow default
  | divisionByZero _ => divisionByZero default
  | unsupported _ => unsupported default
  | e => e

end EvalError

/-- Two evaluations have the same result, or errors that differ in what they quote only. -/
def SameOutcome {α : Type} (x y : Except EvalError α) : Prop :=
  x.mapError EvalError.unquoted = y.mapError EvalError.unquoted

section SameOutcome

variable {α β : Type} {x y : Except EvalError α} {f g : α → Except EvalError β}

@[refl]
theorem SameOutcome.refl (x : Except EvalError α) : SameOutcome x x := rfl

theorem SameOutcome.of_eq (h : x = y) : SameOutcome x y := h ▸ .refl x

/-- Evaluations with the same outcome have the same result. -/
theorem SameOutcome.eq_ok (h : SameOutcome x y) {a : α} (hx : x = .ok a) : y = .ok a :=
  mapError_eq_ok.1 (h.symm.trans (mapError_eq_ok.2 hx))

theorem SameOutcome.bind (h : SameOutcome x y) (hfg : ∀ a, SameOutcome (f a) (g a)) :
    SameOutcome (x >>= f) (y >>= g) := by
  cases x with
  | ok a =>
    rw [h.eq_ok rfl]
    exact hfg a
  | error e =>
    cases y with
    | ok a => cases h
    | error e' => exact congrArg Except.error (Except.error.inj h)

theorem SameOutcome.bind_right (x : Except EvalError α) (hfg : ∀ a, SameOutcome (f a) (g a)) :
    SameOutcome (x >>= f) (x >>= g) :=
  (SameOutcome.refl x).bind hfg

variable {p q : α → Except EvalError Bool}

theorem SameOutcome.anyM (h : ∀ a, SameOutcome (p a) (q a)) (items : List α) :
    SameOutcome (items.anyM p) (items.anyM q) := by
  induction items with
  | nil => rfl
  | cons a items ih =>
    refine (h a).bind fun found => ?_
    cases found with
    | true => rfl
    | false => exact ih

theorem SameOutcome.allM (h : ∀ a, SameOutcome (p a) (q a)) (items : List α) :
    SameOutcome (items.allM p) (items.allM q) := by
  induction items with
  | nil => rfl
  | cons a items ih =>
    refine (h a).bind fun held => ?_
    cases held with
    | true => exact ih
    | false => rfl

end SameOutcome

theorem ArithmeticFault.sameOutcome_mapError {x : Except ArithmeticFault Value} (e e' : Expr)
    (expected found : String) :
    SameOutcome (x.mapError (·.toEvalError e expected found))
      (x.mapError (·.toEvalError e' expected found)) := by
  cases x with
  | ok v => rfl
  | error fault => cases fault <;> rfl

theorem Arithmetic.evalValues_sameOutcome (a : Arithmetic) (e e' : Expr) (v w : Value) :
    SameOutcome (a.evalValues e v w) (a.evalValues e' v w) :=
  ArithmeticFault.sameOutcome_mapError e e' _ _

theorem UnaryOp.evalValue_sameOutcome (op : UnaryOp) (e e' : Expr) (v : Value) :
    SameOutcome (op.evalValue e v) (op.evalValue e' v) := by
  cases op with
  | not => rfl
  | neg => exact ArithmeticFault.sameOutcome_mapError e e' _ _
  | convert t => rfl
  | unwrap =>
    simp only [evalValue]
    split <;> rfl

/-- A method makes the same of the two arguments, up to what an error quotes. -/
structure Argument.Coincides (a a' : Argument) : Prop where
  result : SameOutcome a.result a'.result
  function : Option.Rel (fun f f' => ∀ row, SameOutcome (f row) (f' row)) a.function? a'.function?

theorem Method.onArguments_sameOutcome (method : Method) (e e' : Expr) (t : Operand)
    {args args' : List Argument} (h : List.Forall₂ Argument.Coincides args args') :
    SameOutcome (method.onArguments e t args) (method.onArguments e' t args') := by
  -- only quantifiers ask whether an argument is a function, and only of a single one
  match args, args', h with
  | [], [], .nil => cases method <;> rfl
  | ⟨_, _⟩ :: _ :: _, ⟨_, _⟩ :: _ :: _, .cons ⟨_, hfunction⟩ (.cons _ _) =>
    cases hfunction <;> cases method <;> rfl
  | [⟨_, _⟩], [⟨_, _⟩], .cons ⟨hresult, .none⟩ .nil =>
    cases method with
    | any | all | count => rfl
    | contains | startsWith | endsWith => exact hresult.bind fun _ => .refl _
  | [⟨_, _⟩], [⟨_, _⟩], .cons ⟨hresult, .some hbody⟩ .nil =>
    have htruth := fun row => (hbody row).bind fun o => .refl o.truth
    cases method with
    | any => exact .bind_right _ fun rows => (SameOutcome.anyM htruth rows).bind fun _ => .refl _
    | all => exact .bind_right _ fun rows => (SameOutcome.allM htruth rows).bind fun _ => .refl _
    | count => rfl
    | contains | startsWith | endsWith => exact hresult.bind fun _ => .refl _

namespace Expr

/-- The two expressions have the same outcome, each in its environment, or are functions that have
the same outcome for every element. -/
def Coincides (env env' : Env) (e e' : Expr) : Prop := (e.argument env).Coincides (e'.argument env')

variable {env env' : Env} {e e' l l' r r' : Expr} {args args' : List Expr}

theorem Coincides.eval (h : Coincides env env' e e') : SameOutcome (e.eval env) (e'.eval env') :=
  h.result

theorem coincides_of_plain (he : e.isLambda = false) (he' : e'.isLambda = false)
    (h : SameOutcome (e.eval env) (e'.eval env')) : Coincides env env' e e' := by
  rw [Coincides, argument_of_plain he, argument_of_plain he']
  exact ⟨h, .none⟩

theorem Coincides.access (h : Coincides env env' e e') (name : String) (owner : Option Schema) :
    Coincides env env' (.access e name owner) (.access e' name owner) :=
  coincides_of_plain rfl rfl (h.eval.bind fun _ => .refl _)

theorem Coincides.unary (op : UnaryOp) (h : Coincides env env' e e') :
    Coincides env env' (.unary op e) (.unary op e') :=
  coincides_of_plain rfl rfl (h.eval.bind fun _ => .bind_right _ fun v =>
    (op.evalValue_sameOutcome _ _ v).bind fun _ => .refl _)

theorem Coincides.binary (op : BinaryOp) (hl : Coincides env env' l l')
    (hr : Coincides env env' r r') :
    Coincides env env' (.binary op l r) (.binary op l' r') := by
  refine coincides_of_plain rfl rfl ?_
  cases op with
  | comparison c =>
    exact hl.eval.bind fun _ => .bind_right _ fun _ => hr.eval.bind fun _ => .refl _
  | arithmetic a =>
    exact hl.eval.bind fun _ => .bind_right _ fun v => hr.eval.bind fun _ => .bind_right _ fun w =>
      (a.evalValues_sameOutcome _ _ v w).bind fun _ => .refl _
  | connective c =>
    refine hl.eval.bind fun _ => .bind_right _ fun _ => .bind_right _ fun b => ?_
    -- the right operand is asked for by both or by neither
    cases c <;> cases b
    · rfl
    · exact hr.eval.bind fun _ => .refl _
    · exact hr.eval.bind fun _ => .refl _
    · rfl

theorem Coincides.call (method : Method) (h : Coincides env env' e e')
    (hargs : List.Forall₂ (Coincides env env') args args') :
    Coincides env env' (.call method e args) (.call method e' args') := by
  refine coincides_of_plain rfl rfl ?_
  rw [eval_call, eval_call]
  exact h.eval.bind fun t => method.onArguments_sameOutcome _ _ t
    (List.forall₂_map_left_iff.2 (List.forall₂_map_right_iff.2 hargs))

theorem Coincides.lambda {p p' : Param} {body body' : Expr}
    (h : ∀ row,
      SameOutcome (body.eval ((p, row) :: env)) (body'.eval ((p', row) :: env'))) :
    Coincides env env' (.lambda p body) (.lambda p' body') :=
  ⟨rfl, .some h⟩

end Expr

end RecordView
