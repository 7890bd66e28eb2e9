import RecordView.Proofs.Expr.Yields

/-!
# What operators come to

An expression comes to a value when it denotes the value, or an absent record, which counts as null
(`Expr.ComesTo`).  An operator comes to a result exactly when its operands come to values that have
one (`Expr.eval_unary_eq_ok`, `Expr.eval_binary_eq_ok`), where the right operand of a connective is
asked for only if the left one does not decide (`BinaryOp.Result`).  A call always comes to a value
of its kind, whatever its target and its arguments are (`Expr.exists_of_eval_call`).
-/

namespace RecordView

theorem Operand.toValue_eq_ok {o : Operand} {expected : String} {v : Value} :
    o.toValue expected = .ok v ↔ o = .value v ∨ o = .record none ∧ v = .null := by
  cases o with
  | value w => simp [toValue]
  | record r => cases r <;> simp [toValue, eq_comm]
  | records rs => simp [toValue]

/-- What a value is asked for matters only to the error of an operand that is none. -/
theorem Operand.toValue_of_toValue {o : Operand} {expected : String} {v : Value}
    (h : o.toValue expected = .ok v) (expected' : String) : o.toValue expected' = .ok v :=
  toValue_eq_ok.2 (toValue_eq_ok.1 h)

/-- The value of a binary operator whose left operand comes to a value, where `right` says what the
right one comes to. -/
inductive BinaryOp.Result (right : Value → Prop) : BinaryOp → Value → Value → Prop
  | comparison (c : Comparison) {v w : Value} (asked : right w) :
    Result right (.comparison c) v (.bool (c.holds v w))
  | arithmetic {a : Arithmetic} {v w u : Value} (asked : right w)
    (result : Value.arithmetic a v w = .ok u) : Result right (.arithmetic a) v u
  | decided {c : Connective} {v : Value} (decides : v.truth = .ok c.decider) :
    Result right (.connective c) v (.bool c.decider)
  | undecided {c : Connective} {v w : Value} {b : Bool} (undecided : v.truth = .ok !c.decider)
    (asked : right w) (truth : w.truth = .ok b) : Result right (.connective c) v (.bool b)

/-! ### Values of unary operators -/

theorem Value.hasKind_negation {u v : Value} (h : v.negation = .ok u) : u.HasKind .bool := by
  cases v <;> cases h <;> rfl

namespace UnaryOp

variable {expr : Expr} {t : FieldType} {u v : Value}

theorem evalValue_convert_eq_ok :
    (convert t).evalValue expr v = .ok u ↔ v.cast t.kind = some u := by
  simp only [evalValue]
  cases v.cast t.kind <;> simp

theorem evalValue_unwrap_eq_ok : unwrap.evalValue expr v = .ok u ↔ v ≠ .null ∧ u = v := by
  cases v <;> simp [evalValue, Value.isNull, eq_comm]

end UnaryOp

namespace Expr

variable {env : Env} {e l r : Expr} {o : Operand} {u v w : Value}

/-- The expression denotes the value; an absent record counts as null. -/
def ComesTo (env : Env) (e : Expr) (v : Value) : Prop :=
  ∃ o, e.eval env = .ok o ∧ o.toValue "scalar" = .ok v

theorem ComesTo.unique (hv : e.ComesTo env v) (hw : e.ComesTo env w) : v = w := by
  obtain ⟨o, ho, hv⟩ := hv
  obtain ⟨o', ho', hw⟩ := hw
  cases ho.symm.trans ho'
  cases hv.symm.trans hw
  rfl

/-! ### Operators -/

theorem eval_unary_eq_ok {op : UnaryOp} : (unary op e).eval env = .ok o ↔
    ∃ v u, e.ComesTo env v ∧ op.evalValue (unary op e) v = .ok u ∧ o = .value u := by
  constructor
  · intro h
    obtain ⟨operand, hoperand, h⟩ := bind_eq_ok.1 h
    obtain ⟨v, hv, h⟩ := bind_eq_ok.1 h
    obtain ⟨u, hu, h⟩ := bind_eq_ok.1 h
    cases h
    exact ⟨v, u, ⟨operand, hoperand, hv⟩, hu, rfl⟩
  · rintro ⟨v, u, ⟨operand, hoperand, hv⟩, hu, rfl⟩
    exact bind_eq_ok.2 ⟨operand, hoperand, bind_eq_ok.2 ⟨v, hv, bind_eq_ok.2 ⟨u, hu, rfl⟩⟩⟩

theorem eval_comparison_eq_ok {c : Comparison} :
    (binary (.comparison c) l r).eval env = .ok o ↔
      ∃ v w, l.ComesTo env v ∧ r.ComesTo env w ∧ o = .value (.bool (c.holds v w)) := by
  constructor
  · intro h
    obtain ⟨left, hleft, h⟩ := bind_eq_ok.1 h
    obtain ⟨v, hv, h⟩ := bind_eq_ok.1 h
    obtain ⟨right, hright, h⟩ := bind_eq_ok.1 h
    obtain ⟨w, hw, h⟩ := bind_eq_ok.1 h
    cases h
    exact ⟨v, w, ⟨left, hleft, hv⟩, ⟨right, hright, hw⟩, rfl⟩
  · rintro ⟨v, w, ⟨left, hleft, hv⟩, ⟨right, hright, hw⟩, rfl⟩
    exact bind_eq_ok.2 ⟨left, hleft, bind_eq_ok.2 ⟨v, hv, bind_eq_ok.2 ⟨right, hright,
      bind_eq_ok.2 ⟨w, hw, rfl⟩⟩⟩⟩

theorem eval_arithmetic_eq_ok {a : Arithmetic} :
    (binary (.arithmetic a) l r).eval env = .ok o ↔ ∃ v w u, l.ComesTo env v ∧
      r.ComesTo env w ∧ Value.arithmetic a v w = .ok u ∧ o = .value u := by
  constructor
  · intro h
    obtain ⟨left, hleft, h⟩ := bind_eq_ok.1 h
    obtain ⟨v, hv, h⟩ := bind_eq_ok.1 h
    obtain ⟨right, hright, h⟩ := bind_eq_ok.1 h
    obtain ⟨w, hw, h⟩ := bind_eq_ok.1 h
    obtain ⟨u, hu, h⟩ := bind_eq_ok.1 h
    cases h
    exact ⟨v, w, u, ⟨left, hleft, hv⟩, ⟨right, hright, hw⟩, mapError_eq_ok.1 hu, rfl⟩
  · rintro ⟨v, w, u, ⟨left, hleft, hv⟩, ⟨right, hright, hw⟩, hu, rfl⟩
    exact bind_eq_ok.2 ⟨left, hleft, bind_eq_ok.2 ⟨v, hv, bind_eq_ok.2 ⟨right, hright,
      bind_eq_ok.2 ⟨w, hw, bind_eq_ok.2 ⟨u, mapError_eq_ok.2 hu, rfl⟩⟩⟩⟩⟩

/-- The truth of the right operand, as a connective that is not decided asks for it. -/
theorem eval_truth_eq_ok : (do
      let w ← (← r.eval env).toValue "bool"
      return Operand.value (.bool (← w.truth))) = .ok o ↔
    ∃ w b, r.ComesTo env w ∧ w.truth = .ok b ∧ o = .value (.bool b) := by
  constructor
  · intro h
    obtain ⟨right, hright, h⟩ := bind_eq_ok.1 h
    obtain ⟨w, hw, h⟩ := bind_eq_ok.1 h
    obtain ⟨b, hb, h⟩ := bind_eq_ok.1 h
    cases h
    exact ⟨w, b, ⟨right, hright, Operand.toValue_of_toValue hw _⟩, hb, rfl⟩
  · rintro ⟨w, b, ⟨right, hright, hw⟩, hb, rfl⟩
    exact bind_eq_ok.2 ⟨right, hright, bind_eq_ok.2 ⟨w, Operand.toValue_of_toValue hw _,
      bind_eq_ok.2 ⟨b, hb, rfl⟩⟩⟩

theorem eval_connective_eq_ok {c : Connective} :
    (binary (.connective c) l r).eval env = .ok o ↔ ∃ v, l.ComesTo env v ∧
      ((v.truth = .ok c.decider ∧ o = .value (.bool c.decider)) ∨ v.truth = .ok !c.decider ∧
        ∃ w b, r.ComesTo env w ∧ w.truth = .ok b ∧ o = .value (.bool b)) := by
  constructor
  · intro h
    obtain ⟨left, hleft, h⟩ := bind_eq_ok.1 h
    obtain ⟨v, hv, h⟩ := bind_eq_ok.1 h
    obtain ⟨b, hb, h⟩ := bind_eq_ok.1 h
    refine ⟨v, ⟨left, hleft, Operand.toValue_of_toValue hv _⟩, ?_⟩
    cases c <;> cases b
    · cases h; exact .inl ⟨hb, rfl⟩
    · exact .inr ⟨hb, eval_truth_eq_ok.1 h⟩
    · exact .inr ⟨hb, eval_truth_eq_ok.1 h⟩
    · cases h; exact .inl ⟨hb, rfl⟩
  · rintro ⟨v, ⟨left, hleft, hv⟩, hrest⟩
    have hv := Operand.toValue_of_toValue hv "bool"
    obtain ⟨hb, rfl⟩ | ⟨hb, hright⟩ := hrest
    · refine bind_eq_ok.2 ⟨left, hleft, bind_eq_ok.2 ⟨v, hv, bind_eq_ok.2 ⟨_, hb, ?_⟩⟩⟩
      cases c <;> rfl
    · refine bind_eq_ok.2 ⟨left, hleft, bind_eq_ok.2 ⟨v, hv, bind_eq_ok.2 ⟨_, hb, ?_⟩⟩⟩
      cases c <;> exact eval_truth_eq_ok.2 hright

/-- **A binary operator comes to what its operands determine.** -/
theorem eval_binary_eq_ok {op : BinaryOp} : (binary op l r).eval env = .ok o ↔
    ∃ v u, l.ComesTo env v ∧ op.Result (r.ComesTo env) v u ∧ o = .value u := by
  constructor
  · intro h
    cases op with
    | comparison c =>
      obtain ⟨v, w, hv, hw, ho⟩ := eval_comparison_eq_ok.1 h
      exact ⟨v, _, hv, .comparison c hw, ho⟩
    | arithmetic a =>
      obtain ⟨v, w, u, hv, hw, hu, ho⟩ := eval_arithmetic_eq_ok.1 h
      exact ⟨v, u, hv, .arithmetic hw hu, ho⟩
    | connective c =>
      obtain ⟨v, hv, ⟨hb, ho⟩ | ⟨hb, w, b, hw, hwb, ho⟩⟩ := eval_connective_eq_ok.1 h
      · exact ⟨v, _, hv, .decided hb, ho⟩
      · exact ⟨v, _, hv, .undecided hb hw hwb, ho⟩
  · rintro ⟨v, u, hv, hresult, ho⟩
    cases hresult with
    | comparison c asked => exact eval_comparison_eq_ok.2 ⟨v, _, hv, asked, ho⟩
    | arithmetic asked result => exact eval_arithmetic_eq_ok.2 ⟨v, _, u, hv, asked, result, ho⟩
    | decided decides => exact eval_connective_eq_ok.2 ⟨v, hv, .inl ⟨decides, ho⟩⟩
    | undecided undecided asked truth =>
      exact eval_connective_eq_ok.2 ⟨v, hv, .inr ⟨undecided, _, _, asked, truth, ho⟩⟩

/-- A call comes to a Boolean, or to a length. -/
theorem exists_of_eval_call {method : Method} {target : Expr} {args : List Expr}
    (h : (call method target args).eval env = .ok o) :
    ∃ v, o = .value v ∧ v.HasKind (call method target args).type.kind := by
  rw [eval] at h
  obtain ⟨t, -, h⟩ := bind_eq_ok.1 h
  cases method with
  | any | all =>
    dsimp only at h
    split at h
    · obtain ⟨b, -, h⟩ := bind_eq_ok.1 h
      cases h
      exact ⟨_, rfl, rfl⟩
    · obtain ⟨rows, -, h⟩ := bind_eq_ok.1 h
      obtain ⟨b, -, h⟩ := bind_eq_ok.1 h
      cases h
      exact ⟨_, rfl, rfl⟩
    · cases h
  | count =>
    obtain ⟨v, hv, h⟩ := bind_eq_ok.1 h
    cases h
    refine ⟨v, rfl, ?_⟩
    unfold Operand.count at hv
    split at hv <;> cases hv <;> rfl
  | contains | startsWith | endsWith =>
    dsimp only at h
    split at h
    · obtain ⟨_, -, h⟩ := bind_eq_ok.1 h
      obtain ⟨_, -, h⟩ := bind_eq_ok.1 h
      obtain ⟨_, -, h⟩ := bind_eq_ok.1 h
      cases h
      exact ⟨_, rfl, rfl⟩
    · cases h

end Expr

/-- A selector picks what its body comes to. -/
theorem Lambda.select_eq_ok {f : Lambda} {r : Record} (hr : r.Conforms f.param.schema) {v : Value} :
    f.select r = .ok v ↔ f.body.ComesTo [(f.param, r)] v := by
  rw [select, apply_of_conforms hr]
  exact bind_eq_ok

end RecordView
