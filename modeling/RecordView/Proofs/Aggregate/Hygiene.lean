import RecordView.Proofs.Aggregate.Exactness
import RecordView.Proofs.Expr.Binding
import RecordView.Proofs.Expr.Rebinding

/-!
# Scoped predicates are closed

What survives of a closed predicate of composites mentions the composite nowhere, and leaves nothing
but the facet's parameter to its environment (`FacetScope.Hygienic`).  What was kept as it is had
nothing but the composite to leave, chains start at the facet's parameter, and the body of a
quantifier has lost its own parameter to it.  So the predicate that is left can be asked of any
model: it does not fail on a parameter that is not bound (`Lambda.scope_hygienic`).

The facet's parameter has the name of the composite's, so the two are told apart by their schemas
alone.  A function inside the body of a quantifier may have the facet's parameter as its own and
take over what is rebound in its body; it is bound then as well, though to another record.
-/

namespace RecordView

namespace Expr

theorem freeParams_chain (e : Expr) (names : List String) :
    (e.chain names).freeParams = e.freeParams := by
  induction names generalizing e with
  | nil => rfl
  | cons name names ih => exact ih (e.field name)

end Expr

namespace FacetScope

variable {s : FacetScope} {e e' : Expr} {args : List Expr}

/-- The expression mentions the composite nowhere, and leaves nothing but the facet's parameter to
its environment. -/
structure Hygienic (s : FacetScope) (e : Expr) : Prop where
  apart : e.references s.outer = false
  closed : ∀ q ∈ e.freeParams, (s.inner == q) = true

namespace Hygienic

theorem binary (op : BinaryOp) {l r : Expr} (hl : s.Hygienic l) (hr : s.Hygienic r) :
    s.Hygienic (.binary op l r) :=
  ⟨Bool.or_eq_false_iff.2 ⟨hl.apart, hr.apart⟩,
    List.forall_mem_append.2 ⟨hl.closed, hr.closed⟩⟩

theorem unary (op : UnaryOp) (h : s.Hygienic e) : s.Hygienic (.unary op e) := ⟨h.apart, h.closed⟩

theorem call (method : Method) (h : s.Hygienic e) (hargs : ∀ arg ∈ args, s.Hygienic arg) :
    s.Hygienic (.call method e args) := by
  refine ⟨Bool.or_eq_false_iff.2 ⟨h.apart, Expr.anyReferences_eq_false_iff.2 fun arg harg =>
    (hargs arg harg).apart⟩, List.forall_mem_append.2 ⟨h.closed, fun q hq => ?_⟩⟩
  obtain ⟨arg, harg, hq⟩ := Expr.mem_freeParamsOfAll.1 hq
  exact (hargs arg harg).closed q hq

/-- What does not mention the composite, and is closed but for it, is closed. -/
theorem of_not_references (hclosed : ∀ q ∈ e.freeParams, (s.outer == q) = true)
    (h : e.references s.outer = false) : s.Hygienic e := by
  refine ⟨h, ?_⟩
  rw [Expr.freeParams_eq_nil hclosed h]
  exact List.forall_mem_nil _

theorem of_chain? (hne : (s.inner == s.outer) = false) (h : s.chain? e = some e') :
    s.Hygienic e' := by
  obtain ⟨names, -, rfl⟩ := chain?_eq_some h
  refine ⟨(Expr.references_chain _ names _).trans hne, fun q hq => ?_⟩
  rw [Expr.freeParams_chain, Expr.freeParams, List.mem_singleton] at hq
  rw [hq]
  exact s.inner.beq_self

theorem of_element? {target : Expr}
    (hclosed : ∀ q ∈ (Expr.call .any target args).freeParams, (s.outer == q) = true)
    (h : s.element? target args = some e') : s.Hygienic e' := by
  obtain ⟨p, body, rfl, rfl, hunmentioned⟩ := element?_eq_some h
  refine ⟨hunmentioned, fun q hq => ?_⟩
  obtain rfl | ⟨hfree, hqp⟩ := Expr.mem_freeParams_rebind hq
  · exact s.inner.beq_self
  · -- what else is free in the body is the composite, which is not in it
    have hlambda : q ∈ (Expr.lambda p body).freeParams :=
      List.mem_filter.2 ⟨hfree, by rw [BEq.comm, hqp]; rfl⟩
    have houter := hclosed q (Expr.freeParams_subset_arg _ _ (List.mem_singleton_self _) hlambda)
    rw [Expr.references_of_mem_freeParams hq (BEq.symm houter)] at hunmentioned
    cases hunmentioned

end Hygienic

/-- **What survives of a closed expression is closed.** -/
theorem Survives.hygienic (h : s.Survives e e') (hne : (s.inner == s.outer) = false)
    (hclosed : ∀ q ∈ e.freeParams, (s.outer == q) = true) : s.Hygienic e' := by
  induction h with
  | kept unmentioned => exact .of_not_references hclosed unmentioned
  | chain loses | conversion _ loses => exact .of_chain? hne loses
  | element found => exact .of_element? hclosed found
  | unary op operand ih => exact .unary op (ih hclosed)
  | binary op left right ihl ihr =>
    exact .binary op (ihl fun q hq => hclosed q (List.mem_append_left _ hq))
      (ihr fun q hq => hclosed q (List.mem_append_right _ hq))
  | leftSide c _ left ih => exact ih fun q hq => hclosed q (List.mem_append_left _ hq)
  | rightSide c _ right ih => exact ih fun q hq => hclosed q (List.mem_append_right _ hq)
  | @call method target target' args pruned _ _ _ ih ihs =>
    exact .call method (ih fun q hq => hclosed q (List.mem_append_left _ hq))
      (List.forall_mem_map.2 fun arg harg => ihs arg harg fun q hq =>
        hclosed q (Expr.freeParams_subset_arg method target harg hq))

end FacetScope

namespace Lambda

variable {g : Lambda} {model : Schema}

theorem hygienic_scope (hclosed : g.Closed) (hmodel : model.path ≠ g.param.schema.path)
    (field : String) (many : Bool) :
    (FacetScope.mk g.param ⟨g.param.name, model⟩ field many).Hygienic
      (g.scope field model many).body := by
  have hne : ((⟨g.param.name, model⟩ : Param) == g.param) = false := by
    rw [← Bool.not_eq_true, Param.beq_iff]
    exact fun h => hmodel h.2
  rw [scope]
  dsimp only
  cases hbody : (FacetScope.mk g.param ⟨g.param.name, model⟩ field many).prune g.body with
  | none => exact ⟨rfl, by simp [Expr.freeParams]⟩
  | some body => exact (FacetScope.survives_of_prune hbody).hygienic hne hclosed

/-- **Scoping is hygienic**: a closed predicate of composites, scoped to a facet with models of
another schema, is a closed predicate of these models with the same name for its parameter.  The
composite's parameter is nowhere in it, and no evaluation fails on a parameter that is not bound. -/
theorem scope_hygienic (hclosed : g.Closed) (hmodel : model.path ≠ g.param.schema.path)
    (field : String) (many : Bool) :
    (g.scope field model many).param = ⟨g.param.name, model⟩ ∧
      (∀ p, .parameter p ∈ (g.scope field model many).body.parts → (p == g.param) = false) ∧
      (g.scope field model many).Closed ∧
      ∀ m name, (g.scope field model many).apply m ≠ .error (.unboundParameter name) := by
  have h := hygienic_scope hclosed hmodel field many
  refine ⟨rfl, fun p hp => ?_, h.closed, Closed.apply_inScope h.closed⟩
  rw [← Bool.not_eq_true]
  intro hparam
  have href := Expr.references_iff.2 ⟨p, hp, hparam⟩
  rw [h.apart] at href
  cases href

end Lambda

namespace Sample

/-- Of the predicate chains are left for the user, and the body of its quantifier for the
locations. -/
theorem adaInParis_scope_hygienic :
    let user := adaInParis.scope "user" userModel false
    let located := adaInParis.scope "locations" locationModel true
    (user.Closed ∧ ∀ m name, user.apply m ≠ .error (.unboundParameter name)) ∧
      located.Closed ∧ ∀ m name, located.apply m ≠ .error (.unboundParameter name) := by
  have hclosed : adaInParis.Closed := List.all_eq_true.1 rfl
  have huser := Lambda.scope_hygienic hclosed (by decide : userModel.path ≠ _) "user" false
  have hlocated :=
    Lambda.scope_hygienic hclosed (by decide : locationModel.path ≠ _) "locations" true
  exact ⟨huser.2.2, hlocated.2.2⟩

end Sample

end RecordView
