import RecordView.Proofs.Expr.Typing
import RecordView.Sample.Users

/-!
# What coercion changes

A conversion passes null and the values of the kind that it converts to, and fails for others, if
it is not between numbers (`Expr.comesTo_convertTo`).  So a coerced operator comes to what the plain
one comes to, or it fails, and it fails in exactly one case (`Expr.eval_coerce_iff`): the operands
are of different known kinds and not both numbers, and the one that is converted comes to a value.
That is the right operand, unless it may be a missing number and the left one cannot be null.

A plain comparison of such operands does not match, and so the coerced one is an error where the
plain one is none (`Expr.eval_comparison_of_not_fit`, `Sample.nameIsOne_coerced`).
-/

namespace RecordView

namespace Value

variable {v w : Value} {k : FieldKind} {b : Bool}

theorem kind_beq_iff : (v.kind == k) = true ↔ v.kind = k := by
  refine ⟨fun h => ?_, fun h => h ▸ beq_self_eq_true _⟩
  cases v <;> cases k <;> first | rfl | cases h

theorem eq_null_of_kind (h : v.kind = .any) : v = .null := by
  cases v <;> first | rfl | cases h

/-- Conversion changes nothing but numbers. -/
theorem eq_of_cast (h : v.cast k = some w) (hk : (v.kind.isNumeric && k.isNumeric) = false) :
    w = v := by
  cases v <;> cases k <;> first | (cases h <;> rfl) | cases hk

theorem isTrue_of_truth (h : v.truth = .ok b) : v.isTrue = b := by
  cases v <;> cases h <;> rfl

end Value

/-- Values of different kinds that are not both numbers match in no comparison. -/
theorem Comparison.holds_of_kind_ne {v w : Value} (hv : v ≠ .null) (hw : w ≠ .null)
    (hne : v.kind ≠ w.kind) (hnum : (v.kind.isNumeric && w.kind.isNumeric) = false)
    (c : Comparison) : c.holds v w = false := by
  have hnumbers : Value.compareNumbers v w = none := by
    cases v <;> cases w <;> first | rfl | cases hnum
  have heq : v.compareEq w = none := by
    cases v <;> cases w <;>
      first
      | exact absurd rfl hv
      | exact absurd rfl hw
      | exact absurd rfl hne
      | simp [Value.compareEq, hnumbers]
  have horder : v.compareOrder w = none := by
    cases v <;> cases w <;>
      first
      | exact absurd rfl hne
      | exact hnumbers
  cases c <;> simp only [holds, heq, horder] <;> rfl

namespace BinaryOp

variable {op : BinaryOp} {p q : Value → Prop} {u v w : Value}

/-- Whether the right operand is asked for, after the left one has come to a value. -/
def asksRight : BinaryOp → Value → Bool
  | connective c, v => v.isTrue != c.decider
  | _, _ => true

theorem asksRight_of_undecided {c : Connective} (h : v.truth = .ok !c.decider) :
    (connective c).asksRight v = true := by
  rw [asksRight, Value.isTrue_of_truth h]
  cases c <;> rfl

theorem not_asksRight_of_decided {c : Connective} (h : v.truth = .ok c.decider) :
    (connective c).asksRight v = false := by
  rw [asksRight, Value.isTrue_of_truth h, bne_self_eq_false]

theorem Result.imp (h : op.asksRight v = true → ∀ w, p w → q w) (hr : op.Result p v u) :
    op.Result q v u := by
  cases hr with
  | comparison c asked => exact .comparison c (h rfl _ asked)
  | arithmetic asked result => exact .arithmetic (h rfl _ asked) result
  | decided decides => exact .decided decides
  | undecided undecided asked truth =>
    exact .undecided undecided (h (asksRight_of_undecided undecided) _ asked) truth

theorem Result.exists_right (ha : op.asksRight v = true) (hr : op.Result p v u) : ∃ w, p w := by
  cases hr with
  | comparison c asked => exact ⟨_, asked⟩
  | arithmetic asked result => exact ⟨_, asked⟩
  | decided decides => rw [not_asksRight_of_decided decides] at ha; cases ha
  | undecided undecided asked truth => exact ⟨_, asked⟩

end BinaryOp

namespace Expr

variable {env : Env} {scope : List Param} {op : BinaryOp} {e l r l' r' : Expr} {t : FieldType}
  {o : Operand} {keeps : Value → Prop} {v w : Value}

/-! ### Operators on fewer values -/

/-- An operator fails where its right operand is asked for and comes to a value left out. -/
theorem eval_binary_of_right (hr : ∀ w, r'.ComesTo env w ↔ r.ComesTo env w ∧ keeps w) :
    (binary op l r').eval env = .ok o ↔ (binary op l r).eval env = .ok o ∧
      ∀ v, l.ComesTo env v → op.asksRight v = true → ∀ w, r.ComesTo env w → keeps w := by
  simp only [eval_binary_eq_ok]
  constructor
  · rintro ⟨v, u, hv, hresult, ho⟩
    refine ⟨⟨v, u, hv, hresult.imp fun _ w hw => ((hr w).1 hw).1, ho⟩, ?_⟩
    intro v' hv' ha w hw
    obtain ⟨w', hw'⟩ := hresult.exists_right (hv.unique hv' ▸ ha)
    obtain ⟨hw', hkeeps⟩ := (hr w').1 hw'
    exact hw.unique hw' ▸ hkeeps
  · rintro ⟨⟨v, u, hv, hresult, ho⟩, hkeeps⟩
    exact ⟨v, u, hv, hresult.imp fun ha w hw => (hr w).2 ⟨hw, hkeeps v hv ha w hw⟩, ho⟩

/-- An operator fails where its left operand comes to a value left out. -/
theorem eval_binary_of_left (hl : ∀ v, l'.ComesTo env v ↔ l.ComesTo env v ∧ keeps v) :
    (binary op l' r).eval env = .ok o ↔ (binary op l r).eval env = .ok o ∧
      ∀ v, l.ComesTo env v → keeps v := by
  simp only [eval_binary_eq_ok]
  constructor
  · rintro ⟨v, u, hv, hresult, ho⟩
    obtain ⟨hv, hkeeps⟩ := (hl v).1 hv
    exact ⟨⟨v, u, hv, hresult, ho⟩, fun v' hv' => hv.unique hv' ▸ hkeeps⟩
  · rintro ⟨⟨v, u, hv, hresult, ho⟩, hkeeps⟩
    exact ⟨v, u, (hl v).2 ⟨hv, hkeeps v hv⟩, hresult, ho⟩

/-! ### Conversions -/

/-- What the expression comes to is null or of its static kind; so it comes only to null if nothing
is known of its kind. -/
def KindSound (env : Env) (e : Expr) : Prop :=
  ∀ v, e.ComesTo env v → v = .null ∨ v.kind = e.type.kind

theorem kindSound_constant (v : Value) : (constant v).KindSound env := by
  rintro _ ⟨_, ⟨⟩, ⟨⟩⟩
  exact .inr rfl

/-- What the builders make comes to values of its static kind if that is known and arithmetic keeps
it. -/
theorem Buildable.kindSound (he : Buildable scope e) (hsettled : ∀ part ∈ e.parts, part.Settled)
    (henv : ∀ p ∈ scope, ∀ r, env.lookup? p = some r → r.Conforms p.schema)
    (hknown : e.type.kind ≠ .any) : e.KindSound env := by
  intro v hv
  have hkind := hv.promised (fun k v => id) (he.typed (fun k v => id)
    (fun part hp => part.keeps_hasKind (hsettled part hp)) henv)
  exact (Value.hasKind_iff.1 hkind).imp_right fun h => h.resolve_left hknown

theorem KindSound.hasKind (he : e.KindSound env) (hv : e.ComesTo env v) {k : FieldKind}
    (hk : (e.type.kind == k) = true) : v.HasKind k := by
  obtain rfl | hkind := he v hv
  · rfl
  · exact Value.hasKind_iff.2 (.inr (.inr (Value.kind_beq_iff.1 (hkind ▸ hk))))

theorem comesTo_convert : (unary (.convert t) e).ComesTo env v ↔
    ∃ w, e.ComesTo env w ∧ w.cast t.kind = some v := by
  constructor
  · rintro ⟨o, ho, hv⟩
    obtain ⟨w, u, hw, hu, rfl⟩ := eval_unary_eq_ok.1 ho
    cases hv
    exact ⟨w, hw, UnaryOp.evalValue_convert_eq_ok.1 hu⟩
  · rintro ⟨w, hw, hv⟩
    exact ⟨.value v, eval_unary_eq_ok.2 ⟨w, v, hw, UnaryOp.evalValue_convert_eq_ok.2 hv, rfl⟩, rfl⟩

/-- A conversion that is not to numbers of another kind passes the values of the kind asked for. -/
theorem comesTo_convertTo (he : e.KindSound env) (ht : (e.type.kind == t.kind) = true ∨
      (e.type.kind.isNumeric && t.kind.isNumeric) = false) (v : Value) :
    (e.convertTo t).ComesTo env v ↔ e.ComesTo env v ∧ v.HasKind t.kind := by
  unfold convertTo
  split
  · rename_i h
    refine (and_iff_left_of_imp fun hv => ?_).symm
    obtain hsame | hany := Bool.or_eq_true_iff.1 h
    · exact he.hasKind hv (FieldType.beq_iff.1 hsame).1
    · exact Value.hasKind_iff.2 (.inr (.inl (FieldType.isAny_iff.1 hany)))
  · rw [comesTo_convert]
    constructor
    · rintro ⟨w, hw, hcast⟩
      suffices h : v = w from h ▸ ⟨hw, h ▸ hcast⟩
      obtain hsame | hnum := ht
      · have hkind : w.cast t.kind = some w := he.hasKind hw hsame
        exact Option.some.inj (hcast.symm.trans hkind)
      · obtain rfl | hkind := he w hw
        · cases hcast; rfl
        · exact Value.eq_of_cast hcast (hkind ▸ hnum)
    · rintro ⟨hv, hkind⟩
      exact ⟨v, hv, hkind⟩

/-! ### Coercion -/

/-- The operands may stand next to each other: they are of one kind, or both are numbers, or
nothing is known of one of them. -/
inductive KindsFit (l r : Expr) : Prop
  | same (kinds : (l.type.kind == r.type.kind) = true)
  | numbers (left : l.type.kind.isNumeric = true) (right : r.type.kind.isNumeric = true)
  | unknownLeft (left : l.type.isAny = true)
  | unknownRight (right : r.type.isAny = true)

/-- The operand that is converted where the kinds do not fit comes to no value but null, or it is
the right one and not asked for. -/
def ConvertsNull (env : Env) (op : BinaryOp) (l r : Expr) : Prop :=
  ∀ v, l.ComesTo env v →
    if convertsLeft l r then v = .null
    else op.asksRight v = true → ∀ w, r.ComesTo env w → w = .null

theorem KindsFit.of_agree (h : l.type.Agree r.type) : KindsFit l r := by
  cases h with
  | same equal => exact .same (FieldType.beq_iff.1 equal).1
  | numbers left right nullable => exact .numbers left right
  | unknown left right => exact .unknownLeft left

theorem KindsFit.symm (h : KindsFit l r) : KindsFit r l := by
  cases h with
  | same kinds => exact .same (FieldKind.beq_comm .. ▸ kinds)
  | numbers left right => exact .numbers right left
  | unknownLeft left => exact .unknownRight left
  | unknownRight right => exact .unknownLeft right

/-- What an operand comes to passes its conversion to the type of the other if the kinds fit, and
else only if it is null. -/
theorem KindSound.hasKind_iff (hr : r.KindSound env) (hw : r.ComesTo env w)
    (differ : (l.type.kind.isNumeric && r.type.kind.isNumeric) = false)
    (known : l.type.isAny = false) : w.HasKind l.type.kind ↔ KindsFit l r ∨ w = .null := by
  constructor
  · intro h
    obtain hnull | hany | hkind := Value.hasKind_iff.1 h
    · exact .inr hnull
    · rw [FieldType.isAny_iff.2 hany] at known
      cases known
    · exact (hr w hw).symm.imp_left fun hkind' =>
        .same (by rw [← hkind, ← hkind']; exact beq_self_eq_true _)
  · rintro (hfit | rfl)
    · cases hfit with
      | same kinds => exact hr.hasKind hw (FieldKind.beq_comm .. ▸ kinds)
      | numbers left right => rw [left, right] at differ; cases differ
      | unknownLeft left => rw [left] at known; cases known
      | unknownRight right =>
        obtain rfl | hkind := hr w hw
        · rfl
        · obtain rfl := Value.eq_null_of_kind (hkind.trans (FieldType.isAny_iff.1 right))
          rfl
    · rfl

/-- **Coercion keeps what an operator comes to, unless it converts a value to another kind**, and
then the operator fails. -/
theorem eval_coerce_iff (op : BinaryOp) (hl : l.KindSound env) (hr : r.KindSound env) :
    (coerce op l r).eval env = .ok o ↔
      (binary op l r).eval env = .ok o ∧ (KindsFit l r ∨ ConvertsNull env op l r) := by
  obtain ⟨l', r', hcoerce, hcoerced⟩ := exists_coerced op l r
  rw [hcoerce]
  cases hcoerced with
  | asIs agree => exact (and_iff_left (.inl (.of_agree agree))).symm
  | widenRight left right =>
    have hfit : KindsFit l r := .numbers (FieldType.isNullableNumeric_iff.1 left).2 right
    have hsame : (r.type.kind == r.type.asNullable.kind) = true := beq_self_eq_true _
    rw [eval_binary_of_right (comesTo_convertTo hr (.inl hsame))]
    exact and_congr_right' (iff_of_true (fun v _ _ w hw => hr.hasKind hw hsame) (.inl hfit))
  | widenLeft left right =>
    have hfit : KindsFit l r := .numbers left (FieldType.isNullableNumeric_iff.1 right).2
    have hsame : (l.type.kind == l.type.asNullable.kind) = true := beq_self_eq_true _
    rw [eval_binary_of_left (comesTo_convertTo hl (.inl hsame))]
    exact and_congr_right' (iff_of_true (fun v hv => hl.hasKind hv hsame) (.inl hfit))
  | right differ known chosen =>
    rw [eval_binary_of_right (comesTo_convertTo hr (.inr (by rwa [Bool.and_comm])))]
    refine and_congr_right' ?_
    -- where the kinds do not fit, null is all that passes the conversion
    by_cases hfit : KindsFit l r
    · exact iff_of_true (fun v hv ha w hw => (hr.hasKind_iff hw differ known).2 (.inl hfit))
        (.inl hfit)
    · rw [or_iff_right hfit, ConvertsNull, chosen]
      refine forall₂_congr fun v hv => forall_congr' fun ha => forall₂_congr fun w hw => ?_
      exact (hr.hasKind_iff hw differ known).trans (or_iff_right hfit)
  | left differ known chosen =>
    rw [Bool.and_comm] at differ
    rw [eval_binary_of_left (comesTo_convertTo hl (.inr (by rwa [Bool.and_comm])))]
    refine and_congr_right' ?_
    by_cases hfit : KindsFit l r
    · exact iff_of_true (fun v hv => (hl.hasKind_iff hv differ known).2 (.inl hfit.symm))
        (.inl hfit)
    · rw [or_iff_right hfit, ConvertsNull,
        chosen.resolve_right fun hany => hfit (.unknownLeft hany)]
      refine forall₂_congr fun v hv => ?_
      exact (hl.hasKind_iff hv differ known).trans (or_iff_right fun h => hfit h.symm)

/-- In particular a comparison of values whose kinds do not fit is no match, and coerced it is an
error. -/
theorem eval_comparison_of_not_fit (c : Comparison) (hl : l.KindSound env) (hr : r.KindSound env)
    (hfit : ¬KindsFit l r) (hv : l.ComesTo env v) (hw : r.ComesTo env w) (hvn : v ≠ .null)
    (hwn : w ≠ .null) :
    (binary (.comparison c) l r).eval env = .ok (.value (.bool false)) ∧
      ∀ o, (coerce (.comparison c) l r).eval env ≠ .ok o := by
  have hvk := (hl v hv).resolve_left hvn
  have hwk := (hr w hw).resolve_left hwn
  constructor
  · refine eval_comparison_eq_ok.2 ⟨v, w, hv, hw, ?_⟩
    rw [Comparison.holds_of_kind_ne hvn hwn]
    · intro heq
      exact hfit (.same (by rw [← hvk, ← hwk, heq]; exact beq_self_eq_true _))
    · rw [Bool.eq_false_iff, hvk, hwk, ne_eq, Bool.and_eq_true]
      exact fun hnum => hfit (.numbers hnum.1 hnum.2)
  · intro o ho
    have hnull := ((eval_coerce_iff _ hl hr).1 ho).2.resolve_left hfit v hv
    split at hnull
    · exact hvn hnull
    · exact hwn (hnull rfl w hw)

end Expr

/-! ### Accounts and users -/

namespace Sample

/-- The parameter for an account, and the account that it stands for. -/
def fifthEnv : Env := [(⟨"x", account⟩, fifthAccount)]

theorem note_kindSound :
    ((Expr.parameter ⟨"x", account⟩).field "note").KindSound fifthEnv := by
  refine Expr.Buildable.kindSound (.field (.parameter (List.mem_singleton_self _)) _) ?_ ?_ nofun
  · simp [Expr.field, Expr.parts, Expr.Settled]
  · intro p hp r hr
    obtain rfl := List.mem_singleton.1 hp
    cases hr
    exact fifthAccount_conforms

/-- A text that may be null is compared with one that may not. -/
theorem noteIsA_coerced :
    (Expr.coerce (.comparison .eq) ((Expr.parameter ⟨"x", account⟩).field "note")
      (.constant (.text "a"))).eval fifthEnv = .ok (.value (.bool false)) :=
  (Expr.eval_coerce_iff _ note_kindSound (Expr.kindSound_constant _)).2 ⟨rfl, .inl (.same rfl)⟩

/-- The parameter for a user, and the user Ada that it stands for. -/
def adaEnv : Env := [(⟨"x", user⟩, userRow 1 "Ada" none)]

/-- A text is no number, which makes no match; but a number cannot be converted to a text. -/
theorem nameIsOne_coerced :
    (((Expr.parameter ⟨"x", user⟩).field "name").equals (.constant (.int 1))).eval adaEnv =
        .ok (.value (.bool false)) ∧
      (Expr.coerce (.comparison .eq) ((Expr.parameter ⟨"x", user⟩).field "name")
        (.constant (.int 1))).eval adaEnv = .error (.lossyConversion (.int 1) (.optional .text)) :=
  ⟨rfl, rfl⟩

end Sample

end RecordView
