import RecordView.Proofs.Expr.Conversions
import RecordView.Proofs.Outcome
import RecordView.Proofs.Value.Kind

/-!
# What scalar expressions come to

A scalar expression comes to a value of its static kind, or it fails; `Expr.Yields` says which,
without the reason of a failure.  There is one lemma for each node: what a node yields is a
function of what its operands yield.

Conversions that are put in between operands (`Expr.coerce`) change nothing of that.  Each of them
is either to the kind that the operand has anyway, or it is around the null constant, as long as
the operands may stand next to each other (`Expr.Comparable`).  So `Expr.coerce` is the plain
operator on operands that yield the same (`Expr.exists_coerce`).
-/

namespace RecordView

/-- Whether the method looks for a part of a text or list. -/
def Method.asksForPart : Method → Bool
  | .contains | .startsWith | .endsWith => true
  | _ => false

/-- Whether a predicate with this result matches; null does not. -/
def Value.isTrue : Value → Bool
  | bool b => b
  | _ => false

theorem Value.truth_of_hasKind {v : Value} (h : v.HasKind .bool) : v.truth = .ok v.isTrue := by
  obtain rfl | ⟨b, rfl⟩ := hasKind_bool_iff.1 h <;> rfl

/-- The truth of the left operand that decides the connective. -/
def Connective.decider : Connective → Bool
  | and => false
  | or => true

/-- What a connective comes to after its left operand, when the right one comes to `r`. -/
def Connective.decide? (c : Connective) (r : Option Value) (l : Value) : Option Value :=
  if l.isTrue = c.decider then some (.bool l.isTrue) else r.map fun w => .bool w.isTrue

namespace Expr

/-- What the expression comes to: a value of its static kind, or nothing when it fails. -/
inductive Yields (env : Env) (e : Expr) : Option Value → Prop
  | value {v : Value} (eval : e.eval env = .ok (.value v)) (kind : v.HasKind e.type.kind) :
    Yields env e (some v)
  | failure {error : EvalError} (eval : e.eval env = .error error) : Yields env e none

/-- The two sides of an operator have one kind, are both numbers, or one is the null constant. -/
inductive Comparable (l r : Expr) : Prop
  | kinds (same : l.type.kind = r.type.kind)
  | numbers (left : l.type.kind.isNumeric = true) (right : r.type.kind.isNumeric = true)
  | nullLeft (null : l = .constant .null)
  | nullRight (null : r = .constant .null)

variable {env : Env} {e l r : Expr} {o ol or : Option Value}

/-! ### Nodes -/

theorem Yields.constant (v : Value) : (Expr.constant v).Yields env (some v) :=
  .value rfl v.hasKind_kind

theorem Yields.comparison (c : Comparison) (hl : l.Yields env ol) (hr : r.Yields env or) :
    (binary (.comparison c) l r).Yields env
      (ol.bind fun v => or.map fun w => .bool (c.holds v w)) := by
  cases hl with
  | failure hl => exact .failure (by rw [eval, hl]; rfl)
  | value hl =>
    cases hr with
    | failure hr => exact .failure (by rw [eval, hl, hr]; rfl)
    | value hr => exact .value (by rw [eval, hl, hr]; rfl) rfl

theorem eval_connective_decided {c : Connective} {v : Value} (hl : l.eval env = .ok (.value v))
    (hv : v.truth = .ok c.decider) :
    (binary (.connective c) l r).eval env = .ok (.value (.bool c.decider)) := by
  cases c <;> simp only [eval, hl, bind, Except.bind, Operand.toValue, hv] <;> rfl

theorem eval_connective_undecided {c : Connective} {v : Value} (hl : l.eval env = .ok (.value v))
    (hv : v.truth = .ok !c.decider) :
    (binary (.connective c) l r).eval env = do
      let w ← (← r.eval env).toValue "bool"
      return .value (.bool (← w.truth)) := by
  cases c <;> simp only [eval, hl, bind, Except.bind, Operand.toValue, hv] <;> rfl

/-- A connective asks for its right operand only where the left one does not decide. -/
theorem Yields.connective (c : Connective) (hl : l.Yields env ol) (hr : r.Yields env or)
    (hlk : l.type.kind = .bool) (hrk : r.type.kind = .bool) :
    (binary (.connective c) l r).Yields env (ol.bind (c.decide? or)) := by
  cases hl with
  | failure hl => exact .failure (by rw [eval, hl]; rfl)
  | @value v hl hv =>
    have htruth := Value.truth_of_hasKind (hlk ▸ hv)
    rw [Option.bind_some, Connective.decide?]
    by_cases hb : v.isTrue = c.decider
    · rw [if_pos hb, hb]
      exact .value (eval_connective_decided hl (hb ▸ htruth)) rfl
    · rw [if_neg hb]
      have heval := eval_connective_undecided (r := r) hl (Bool.eq_not_of_ne hb ▸ htruth)
      cases hr with
      | failure hr => exact .failure (by rw [heval, hr]; rfl)
      | @value w hr hw =>
        rw [hr] at heval
        refine .value (heval.trans ?_) rfl
        simp only [bind, Except.bind, Operand.toValue, Value.truth_of_hasKind (hrk ▸ hw)]
        rfl

/-- Arithmetic on signed numbers comes to a signed number. -/
theorem Yields.arithmetic (a : Arithmetic) (hl : l.Yields env ol) (hr : r.Yields env or)
    (hlk : l.type.kind = .int) (hrk : r.type.kind = .int) :
    (binary (.arithmetic a) l r).Yields env
      (ol.bind fun v => or.bind fun w => (Value.arithmetic a v w).toOption) := by
  have hkind : (binary (.arithmetic a) l r).type.kind = .int := by simp only [type, hlk, hrk]; rfl
  cases hl with
  | failure hl => exact .failure (by rw [eval, hl]; rfl)
  | @value v hl hv =>
    cases hr with
    | failure hr => exact .failure (by rw [eval, hl, hr]; rfl)
    | @value w hr hw =>
      simp only [Option.bind_some]
      have heval : (binary (.arithmetic a) l r).eval env =
          (a.evalValues (binary (.arithmetic a) l r) v w).map .value := by
        rw [eval, hl, hr]
        simp only [bind, Except.bind, Operand.toValue]
        cases a.evalValues (binary (.arithmetic a) l r) v w <;> rfl
      cases ha : Value.arithmetic a v w with
      | error fault => exact .failure (heval.trans (by rw [Arithmetic.evalValues, ha]; rfl))
      | ok u =>
        refine .value (heval.trans (by rw [Arithmetic.evalValues, ha]; rfl)) ?_
        rw [hkind]
        exact Value.hasKind_arithmetic rfl (hlk ▸ hv) (hrk ▸ hw) ha

theorem Yields.not (he : e.Yields env o) (hk : e.type.kind = .bool) :
    (unary .not e).Yields env (o.bind fun v => v.negation.toOption) := by
  cases he with
  | failure he => exact .failure (by rw [eval, he]; rfl)
  | @value v he hv =>
    obtain rfl | ⟨b, rfl⟩ := Value.hasKind_bool_iff.1 (hk ▸ hv)
    · exact .value (by rw [eval, he]; rfl) rfl
    · exact .value (by rw [eval, he]; rfl) rfl

theorem Yields.neg (he : e.Yields env o) (hk : e.type.kind = .int) :
    (unary .neg e).Yields env (o.bind fun v => v.negate.toOption) := by
  cases he with
  | failure he => exact .failure (by rw [eval, he]; rfl)
  | @value v he hv =>
    simp only [Option.bind_some]
    cases hn : v.negate with
    | error fault =>
      have heval : (unary .neg e).eval env =
          .error (fault.toEvalError (unary .neg e) "numeric" v.render) := by
        rw [eval, he]
        simp only [bind, Except.bind, Operand.toValue, UnaryOp.evalValue, hn]
        rfl
      exact .failure heval
    | ok u =>
      have hu : u.HasKind e.type.kind := Value.hasKind_negate (by simp [hk]) hv hn
      refine .value (v := u) ?_ hu
      rw [eval, he]
      simp only [bind, Except.bind, Operand.toValue, UnaryOp.evalValue, hn]
      rfl

theorem eval_part {method : Method} (hm : method.asksForPart = true) :
    (call method l [r]).eval env = do
      let t ← l.eval env
      let part ← (← r.eval env).toValue "scalar"
      let whole ← t.toValue "text or list"
      return .value (.bool (method.matchesPart whole part)) := by
  cases method with
  | contains | startsWith | endsWith => rw [eval]
  | _ => cases hm

theorem Yields.part {method : Method} (hm : method.asksForPart = true) (hl : l.Yields env ol)
    (hr : r.Yields env or) :
    (call method l [r]).Yields env
      (ol.bind fun v => or.map fun w => .bool (method.matchesPart v w)) := by
  have heval := @eval_part env l r method hm
  have hkind : (call method l [r]).type.kind = .bool := by
    cases method with
    | contains | startsWith | endsWith => rfl
    | _ => cases hm
  cases hl with
  | failure hl => exact .failure (by rw [heval, hl]; rfl)
  | value hl =>
    cases hr with
    | failure hr => exact .failure (by rw [heval, hl, hr]; rfl)
    | value hr =>
      refine .value (by rw [heval, hl, hr]; rfl) ?_
      rw [hkind]
      rfl

/-! ### Conversions -/

/-- The expression, or a conversion of it that changes nothing: to the kind that it has, or of the
null constant. -/
inductive Recast (e : Expr) : Expr → Prop
  | same : Recast e e
  | converted (t : FieldType) (neutral : t.kind = e.type.kind ∨ e = .constant .null) :
    Recast e (e.convertTo t)

theorem Recast.yields {e' : Expr} (h : e.Recast e') (he : e.Yields env o) : e'.Yields env o := by
  cases h with
  | same => exact he
  | converted t neutral =>
    unfold convertTo
    split
    · exact he
    · cases he with
      | failure he => exact .failure (by rw [eval, he]; rfl)
      | @value v he hv =>
        have hcast : v.cast t.kind = some v := by
          obtain hkind | rfl := neutral
          · rw [hkind]; exact hv
          · cases he; rfl
        refine .value ?_ hcast
        rw [eval, he]
        simp only [bind, Except.bind, Operand.toValue, UnaryOp.evalValue, hcast]
        rfl

/-- The kind stays, unless the expression may be the null constant. -/
theorem Recast.kind {e' : Expr} (h : e.Recast e') (hany : e.type.kind ≠ .any) :
    e'.type.kind = e.type.kind := by
  cases h with
  | same => rfl
  | converted t neutral =>
    unfold convertTo
    split
    · rfl
    · exact neutral.resolve_right (by rintro rfl; exact hany rfl)

theorem Comparable.symm (h : Comparable l r) : Comparable r l := by
  cases h with
  | kinds same => exact .kinds same.symm
  | numbers left right => exact .numbers right left
  | nullLeft null => exact .nullRight null
  | nullRight null => exact .nullLeft null

/-- Next to an operand of known type, one of another kind is a number or the null constant. -/
theorem Comparable.neutral (h : Comparable l r)
    (differ : (l.type.kind.isNumeric && r.type.kind.isNumeric) = false)
    (known : l.type.isAny = false) : l.type.kind = r.type.kind ∨ r = .constant .null := by
  cases h with
  | kinds same => exact .inl same
  | numbers left right => rw [left, right] at differ; cases differ
  | nullLeft null => rw [null] at known; cases known
  | nullRight null => exact .inr null

/-- **The conversions that are put in between comparable operands change nothing.** -/
theorem exists_coerce (op : BinaryOp) (h : Comparable l r) :
    ∃ l' r', coerce op l r = binary op l' r' ∧ l.Recast l' ∧ r.Recast r' := by
  obtain ⟨l', r', hcoerce, hcoerced⟩ := exists_coerced op l r
  refine ⟨l', r', hcoerce, ?_⟩
  cases hcoerced with
  | asIs agree => exact ⟨.same, .same⟩
  | widenRight left right => exact ⟨.same, .converted _ (.inl rfl)⟩
  | widenLeft left right => exact ⟨.converted _ (.inl rfl), .same⟩
  | right differ known chosen => exact ⟨.same, .converted _ (h.neutral differ known)⟩
  | left differ known chosen =>
    exact ⟨.converted _ (h.symm.neutral (by rwa [Bool.and_comm]) known), .same⟩

end Expr

/-- A function is its body on the records of its parameter's schema. -/
theorem Lambda.apply_of_conforms {f : Lambda} {r : Record} (h : r.Conforms f.param.schema) :
    f.apply r = f.body.eval [(f.param, r)] := by
  rw [apply, h.schema_eq, if_pos (Schema.beq_self _)]

end RecordView
