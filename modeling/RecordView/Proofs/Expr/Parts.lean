import RecordView.Expr.Chain

/-!
# Parts and parameters of expressions

The parts of an expression are the expression itself and the parts of what it is made of
(`Expr.parts`).  Its free parameters are those that it leaves to its environment
(`Expr.freeParams`); each of them occurs in it (`Expr.references_of_mem_freeParams`).

`Expr.induct` is the induction over expressions, with the arguments of a call dealt with one by one.
-/

namespace RecordView

instance : EquivBEq Param where
  rfl := Param.beq_self _
  symm h := Param.beq_iff.2 ⟨(Param.beq_iff.1 h).1.symm, (Param.beq_iff.1 h).2.symm⟩
  trans h h' := Param.beq_iff.2 ⟨(Param.beq_iff.1 h).1.trans (Param.beq_iff.1 h').1,
    (Param.beq_iff.1 h).2.trans (Param.beq_iff.1 h').2⟩

namespace Expr

/-- A property of every expression follows from what each node takes over from its parts. -/
theorem induct {motive : Expr → Prop} (parameter : ∀ p, motive (.parameter p))
    (access : ∀ base name owner, motive base → motive (.access base name owner))
    (binary : ∀ op left right, motive left → motive right → motive (.binary op left right))
    (unary : ∀ op operand, motive operand → motive (.unary op operand))
    (constant : ∀ v, motive (.constant v))
    (call : ∀ method target args, motive target → (∀ arg ∈ args, motive arg) →
      motive (.call method target args))
    (lambda : ∀ p body, motive body → motive (.lambda p body)) (e : Expr) : motive e :=
  @Expr.rec motive (fun args => ∀ arg ∈ args, motive arg) parameter access binary unary constant
    call lambda (by simp) (fun _ _ head tail => List.forall_mem_cons.2 ⟨head, tail⟩) e

/-! ### Parts -/

mutual

/-- The expression and the parts of what it is made of. -/
def parts : Expr → List Expr
  | parameter p => [parameter p]
  | access base name owner => access base name owner :: base.parts
  | binary op left right => binary op left right :: (left.parts ++ right.parts)
  | unary op e => unary op e :: e.parts
  | constant v => [constant v]
  | call method target args => call method target args :: (target.parts ++ partsOfAll args)
  | lambda p body => lambda p body :: body.parts

/-- The parts of several expressions. -/
def partsOfAll : List Expr → List Expr
  | [] => []
  | e :: es => e.parts ++ partsOfAll es

end

variable {e part : Expr} {args : List Expr} {p q x : Param}

theorem mem_partsOfAll : part ∈ partsOfAll args ↔ ∃ arg ∈ args, part ∈ arg.parts := by
  induction args with
  | nil => simp [partsOfAll]
  | cons arg args ih => simp [partsOfAll, ih]

theorem self_mem_parts (e : Expr) : e ∈ e.parts := by
  cases e <;> simp [parts]

theorem parts_subset_left (op : BinaryOp) (l r : Expr) : l.parts ⊆ (binary op l r).parts :=
  fun _ hp => List.mem_cons_of_mem _ (List.mem_append_left _ hp)

theorem parts_subset_right (op : BinaryOp) (l r : Expr) : r.parts ⊆ (binary op l r).parts :=
  fun _ hp => List.mem_cons_of_mem _ (List.mem_append_right _ hp)

theorem parts_subset_target (method : Method) (target : Expr) (args : List Expr) :
    target.parts ⊆ (call method target args).parts :=
  fun _ hp => List.mem_cons_of_mem _ (List.mem_append_left _ hp)

theorem parts_subset_arg (method : Method) (target : Expr) {arg : Expr} (harg : arg ∈ args) :
    arg.parts ⊆ (call method target args).parts :=
  fun _ hp => List.mem_cons_of_mem _
    (List.mem_append_right _ (mem_partsOfAll.2 ⟨arg, harg, hp⟩))

theorem anyReferences_iff :
    anyReferences x args = true ↔ ∃ arg ∈ args, arg.references x = true := by
  induction args with
  | nil => simp [anyReferences]
  | cons arg args ih => simp [anyReferences, ih]

theorem anyReferences_eq_false_iff :
    anyReferences x args = false ↔ ∀ arg ∈ args, arg.references x = false := by
  simp [← Bool.not_eq_true, anyReferences_iff]

/-- A parameter occurs in an expression if some part of the expression is this parameter. -/
theorem references_iff : e.references x = true ↔ ∃ p, parameter p ∈ e.parts ∧ (p == x) = true := by
  induction e using induct with
  | parameter q => simp [references, parts]
  | access base name owner ih => simp [references, parts, ih]
  | binary op left right ihl ihr =>
    simp only [references, Bool.or_eq_true, ihl, ihr, parts, List.mem_cons, List.mem_append,
      reduceCtorEq, false_or, or_and_right, exists_or]
  | unary op e ih => simp [references, parts, ih]
  | constant v => simp [references, parts]
  | call method target args ih ihs =>
    have hargs : anyReferences x args = true ↔
        ∃ p, parameter p ∈ partsOfAll args ∧ (p == x) = true := by
      rw [anyReferences_iff]
      simp only [mem_partsOfAll]
      constructor
      · rintro ⟨arg, harg, href⟩
        obtain ⟨p, hp, hpx⟩ := (ihs arg harg).1 href
        exact ⟨p, ⟨arg, harg, hp⟩, hpx⟩
      · rintro ⟨p, ⟨arg, harg, hp⟩, hpx⟩
        exact ⟨arg, harg, (ihs arg harg).2 ⟨p, hp, hpx⟩⟩
    simp only [references, Bool.or_eq_true, ih, hargs, parts, List.mem_cons, List.mem_append,
      reduceCtorEq, false_or, or_and_right, exists_or]
  | lambda p body ih => simp [references, parts, ih]

/-- Whether the expression is a function. -/
def isLambda : Expr → Bool
  | lambda _ _ => true
  | _ => false

/-- Whether the expression is a function of the parameter. -/
def binds (p : Param) : Expr → Bool
  | lambda q _ => q == p
  | _ => false

/-- Whether the expression is a conversion. -/
def isConversion : Expr → Bool
  | unary op _ => op.isConversion
  | _ => false

/-- Whether the expression is a connective of two predicates. -/
def isConnective : Expr → Bool
  | binary (.connective _) _ _ => true
  | _ => false

/-! ### Free parameters -/

mutual

/-- The parameters that the expression leaves to its environment. -/
def freeParams : Expr → List Param
  | parameter p => [p]
  | access base _ _ => base.freeParams
  | binary _ left right => left.freeParams ++ right.freeParams
  | unary _ e => e.freeParams
  | constant _ => []
  | call _ target args => target.freeParams ++ freeParamsOfAll args
  | lambda p body => body.freeParams.filter (!p == ·)

/-- The parameters that some of the expressions leave to their environment. -/
def freeParamsOfAll : List Expr → List Param
  | [] => []
  | e :: es => e.freeParams ++ freeParamsOfAll es

end

theorem mem_freeParamsOfAll : q ∈ freeParamsOfAll args ↔ ∃ arg ∈ args, q ∈ arg.freeParams := by
  induction args with
  | nil => simp [freeParamsOfAll]
  | cons arg args ih => simp [freeParamsOfAll, ih]

theorem freeParams_subset_arg (method : Method) (target : Expr) {arg : Expr} (harg : arg ∈ args) :
    arg.freeParams ⊆ (call method target args).freeParams :=
  fun _ hq => List.mem_append_right _ (mem_freeParamsOfAll.2 ⟨arg, harg, hq⟩)

/-- A free parameter occurs in the expression. -/
theorem references_of_mem_freeParams (hmem : q ∈ e.freeParams) (hq : (q == x) = true) :
    e.references x = true := by
  induction e using induct with
  | parameter p =>
    rw [freeParams, List.mem_singleton] at hmem
    rwa [references, ← hmem]
  | access base name owner ih => exact ih hmem
  | binary op left right ihl ihr =>
    rw [references, Bool.or_eq_true]
    exact (List.mem_append.1 hmem).imp ihl ihr
  | unary op e ih => exact ih hmem
  | constant v => cases hmem
  | call method target args ih ihs =>
    rw [references, Bool.or_eq_true, anyReferences_iff]
    refine (List.mem_append.1 hmem).imp ih fun hmem => ?_
    obtain ⟨arg, harg, hmem⟩ := mem_freeParamsOfAll.1 hmem
    exact ⟨arg, harg, ihs arg harg hmem⟩
  | lambda p body ih => exact ih (List.mem_filter.1 hmem).1

/-- No free parameter of an expression is one that it does not mention. -/
theorem beq_eq_false_of_mem_freeParams (hunmentioned : e.references x = false)
    (hmem : q ∈ e.freeParams) : (q == x) = false := by
  rw [← Bool.not_eq_true]
  intro hq
  rw [references_of_mem_freeParams hmem hq] at hunmentioned
  cases hunmentioned

/-- What leaves nothing but one parameter to its environment, and does not mention that one, leaves
nothing to it. -/
theorem freeParams_eq_nil (hclosed : ∀ q ∈ e.freeParams, (x == q) = true)
    (hunmentioned : e.references x = false) : e.freeParams = [] := by
  refine List.eq_nil_iff_forall_not_mem.2 fun q hq => ?_
  have hne := beq_eq_false_of_mem_freeParams hunmentioned hq
  rw [BEq.comm, hclosed q hq] at hne
  cases hne

/-! ### Conjunctions -/

/-- The sides of a conjunction, taken apart as far as it goes. -/
def conjuncts : Expr → List Expr
  | binary (.connective .and) left right => left.conjuncts ++ right.conjuncts
  | e => [e]

theorem parts_subset_of_mem_conjuncts {k : Expr} (hk : k ∈ e.conjuncts) : k.parts ⊆ e.parts := by
  fun_induction conjuncts e with
  | case1 left right ihl ihr =>
    intro part hpart
    rw [parts, List.mem_cons, List.mem_append]
    exact .inr ((List.mem_append.1 hk).imp (ihl · hpart) (ihr · hpart))
  | case2 e =>
    rw [List.mem_singleton.1 hk]
    exact List.Subset.refl _

theorem freeParams_subset_of_mem_conjuncts {k : Expr} (hk : k ∈ e.conjuncts) :
    k.freeParams ⊆ e.freeParams := by
  fun_induction conjuncts e with
  | case1 left right ihl ihr =>
    intro q hq
    rw [freeParams, List.mem_append]
    exact (List.mem_append.1 hk).imp (ihl · hq) (ihr · hq)
  | case2 e =>
    rw [List.mem_singleton.1 hk]
    exact List.Subset.refl _

end Expr

/-- The function leaves no parameter but its own to its environment. -/
def Lambda.Closed (f : Lambda) : Prop := ∀ q ∈ f.body.freeParams, (f.param == q) = true

end RecordView
