import RecordView.Proofs.Expr.Environment
import RecordView.Sample.Residents

/-!
# Unmentioned parameters

An expression does not depend on a parameter that it does not mention (`Expr.references`).  In two
environments that differ only in what they bind to that parameter (`Env.DifferOnlyAt`) it comes to
the same, or fails with the same error (`Expr.eval_eq_of_not_references`).  The parameter may be bound
in one environment and not in the other, to different records, or several times.

A function in the expression may bind the parameter, as long as its body does not mention it.  A body
that does mention it counts, although it means an element there and nothing in the environment: what
is not mentioned is not free, and not the other way round.
-/

namespace RecordView

namespace Env

variable {p q : Param} {env env' : Env}

/-- Every other parameter is bound to the same record in both environments, or in neither. -/
def DifferOnlyAt (p : Param) (env env' : Env) : Prop :=
  ∀ q, (q == p) = false → env.lookup? q = env'.lookup? q

/-- The bindings of one parameter do not matter to the others. -/
theorem lookup?_filter (hq : (q == p) = false) (env : Env) :
    Env.lookup? (env.filter (!·.1 == p)) q = env.lookup? q := by
  induction env with
  | nil => rfl
  | cons binding env ih =>
    obtain ⟨p', r⟩ := binding
    rw [List.filter_cons, lookup?_cons]
    cases hp : p' == p with
    | true =>
      have hne : (p' == q) = false := by rw [BEq.congr_left hp, BEq.comm, hq]
      simpa [hne] using ih
    | false =>
      rw [Bool.not_false, if_pos rfl, lookup?_cons, ih]

/-- Environments with the same bindings but for those of a parameter differ only there. -/
theorem differOnlyAt_of_filter_eq
    (h : env.filter (!·.1 == p) = env'.filter (!·.1 == p)) : DifferOnlyAt p env env' := by
  intro q hq
  rw [← lookup?_filter hq env, h, lookup?_filter hq env']

end Env

namespace Expr

/-- **An expression does not depend on a parameter that it does not mention**: in environments that
differ only in the bindings of that parameter it comes to the same, or fails with the same error. -/
theorem eval_eq_of_not_references {e : Expr} {p : Param} (hunmentioned : e.references p = false)
    {env env' : Env} (h : Env.DifferOnlyAt p env env') : e.eval env = e.eval env' := by
  refine eval_congr fun q hq => ?_
  exact h q (beq_eq_false_of_mem_freeParams hunmentioned hq)

end Expr

namespace Sample

/-- A composite with this memo and at least one location.  The function of the locations has a
parameter that it does not mention. -/
def notedSomewhere (c d : Param) : Expr :=
  .call .any ((Expr.parameter c).field "locations")
    [.lambda d ((Expr.unary .unwrap ((Expr.parameter c).field "memo")).equals
      (.constant (.text "seen")))]

/-- Locations bound around the composite and inside it change neither the result nor, without a memo,
the error. -/
theorem notedSomewhere_independent :
    let c : Param := ⟨"c", composite⟩
    let d : Param := ⟨"d", locationModel⟩
    let e := notedSomewhere c d
    let around : Record → Env := fun r =>
      [(d, locationView 2 "MADRID"), (c, r), (d, locationView 3 "LONDON")]
    let bare := residentView none none [locationView 1 "PARIS"]
    let noted := bare.setCell "memo" (.value (.text "seen"))
    (e.eval [(c, noted)] = .ok (.value (.bool true)) ∧
        e.eval [(c, noted)] = e.eval (around noted)) ∧
      e.eval [(c, bare)] = .error (.nullUnwrap (.unary .unwrap ((Expr.parameter c).field "memo"))) ∧
        e.eval [(c, bare)] = e.eval (around bare) := by
  intro c d e around bare noted
  have haround : ∀ r, Env.DifferOnlyAt d [(c, r)] (around r) :=
    fun r => Env.differOnlyAt_of_filter_eq rfl
  exact ⟨⟨rfl, Expr.eval_eq_of_not_references rfl (haround noted)⟩,
    rfl, Expr.eval_eq_of_not_references rfl (haround bare)⟩

end Sample

end RecordView
