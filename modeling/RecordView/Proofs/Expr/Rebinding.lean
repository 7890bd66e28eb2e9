import RecordView.Aggregate.Scope
import RecordView.Proofs.Expr.Environment
import RecordView.Sample.Residents

/-!
# Rebinding a parameter

Replacing the free occurrences of a parameter by another one (`Expr.rebind`) is reading the
expression in another environment, in which the new parameter has the record of the old one
(`Expr.coincides_rebind`): the outcome is the same, but that errors quote the rebound expression.  No
function in the expression may bind the new parameter: it would take the occurrences in its body for
its own, as nothing renames it.

If the new parameter does not occur in the expression at all, the record of the old parameter is all
that the environment has to give it (`Expr.eval_rebind`).
-/

namespace RecordView

namespace Expr

variable {e : Expr} {args : List Expr} {source target : Param} {env env' : Env}

theorem rebindAll_eq_map : rebindAll source target args = args.map (rebind source target) := by
  induction args with
  | nil => rfl
  | cons e es ih => rw [rebindAll, ih, List.map_cons]

/-- After rebinding no more is free than the new parameter and what was free next to the old one. -/
theorem mem_freeParams_rebind {q : Param} (hq : q ∈ (e.rebind source target).freeParams) :
    q = target ∨ q ∈ e.freeParams ∧ (q == source) = false := by
  induction e using induct with
  | parameter p =>
    rw [rebind, freeParams, List.mem_singleton] at hq
    cases hp : p == source with
    | true => exact .inl (by rwa [if_pos hp] at hq)
    | false =>
      rw [hp, if_neg Bool.false_ne_true] at hq
      exact .inr (by simp [freeParams, hq, hp])
  | access base name owner ih => exact ih hq
  | binary op left right ihl ihr =>
    refine (List.mem_append.1 hq).elim (fun hq => (ihl hq).imp_right ?_) fun hq =>
      (ihr hq).imp_right ?_
    · exact .imp_left (List.mem_append_left _)
    · exact .imp_left (List.mem_append_right _)
  | unary op e ih => exact ih hq
  | constant v => cases hq
  | call method callee args ih ihs =>
    rw [rebind, rebindAll_eq_map] at hq
    obtain hq | hq := List.mem_append.1 hq
    · exact (ih hq).imp_right (.imp_left (List.mem_append_left _))
    · obtain ⟨_, hmem, hq⟩ := mem_freeParamsOfAll.1 hq
      obtain ⟨arg, harg, rfl⟩ := List.mem_map.1 hmem
      exact (ihs arg harg hq).imp_right (.imp_left (freeParams_subset_arg method callee harg ·))
  | lambda p body ih =>
    rw [rebind] at hq
    split at hq
    · rename_i hsource
      -- the function has the old parameter for its own
      have hpq : (p == q) = false := by simpa using (List.mem_filter.1 hq).2
      exact .inr ⟨hq, by rw [BEq.comm, ← BEq.congr_left hsource, hpq]⟩
    · obtain ⟨hq, hpq⟩ := List.mem_filter.1 hq
      exact (ih hq).imp_right (.imp_left fun hq => List.mem_filter.2 ⟨hq, hpq⟩)

/-- **Rebinding is a change of the environment**, if the new parameter is bound nowhere. -/
theorem coincides_rebind (hfresh : ∀ part ∈ e.parts, part.binds target = false)
    (h : ∀ q ∈ e.freeParams, env.lookup? q = env'.lookup? (if q == source then target else q)) :
    Coincides env env' e (e.rebind source target) := by
  induction e using induct generalizing env env' with
  | parameter p =>
    refine coincides_of_plain rfl rfl ?_
    rw [rebind, Expr.eval, Expr.eval, h p (by simp [freeParams])]
    split <;> rfl
  | access base name owner ih =>
    exact (ih (fun part hp => hfresh part (by simp [parts, hp])) h).access name owner
  | binary op left right ihl ihr =>
    exact .binary op
      (ihl (fun part hp => hfresh part (parts_subset_left op left right hp))
        fun q hq => h q (List.mem_append_left _ hq))
      (ihr (fun part hp => hfresh part (parts_subset_right op left right hp))
        fun q hq => h q (List.mem_append_right _ hq))
  | unary op e ih => exact .unary op (ih (fun part hp => hfresh part (by simp [parts, hp])) h)
  | constant v => exact coincides_of_plain rfl rfl (.refl _)
  | call method callee args ih ihs =>
    rw [rebind, rebindAll_eq_map]
    refine .call method
      (ih (fun part hp => hfresh part (parts_subset_target method callee args hp))
        fun q hq => h q (List.mem_append_left _ hq))
      (List.forall₂_map_right_iff.2 (List.forall₂_same.2 fun arg harg => ?_))
    exact ihs arg harg (fun part hp => hfresh part (parts_subset_arg method callee harg hp))
      fun q hq => h q (freeParams_subset_arg method callee harg hq)
  | lambda p body ih =>
    have hp : (p == target) = false := hfresh _ (self_mem_parts _)
    have hfree : ∀ q ∈ body.freeParams, (p == q) = false →
        env.lookup? q = env'.lookup? (if q == source then target else q) :=
      fun q hq hpq => h q (List.mem_filter.2 ⟨hq, by simpa using hpq⟩)
    rw [rebind]
    split
    · -- the function binds the old parameter itself, so its body has none to replace
      rename_i hsource
      refine .lambda fun row => .of_eq (eval_congr fun q hq => Env.lookup?_cons_congr ?_ row)
      intro hpq
      have hqs : (q == source) = false := by rw [BEq.comm, ← BEq.congr_left hsource, hpq]
      simpa [hqs] using hfree q hq hpq
    · rename_i hsource
      refine .lambda fun row => (ih (fun part hp => hfresh part (by simp [parts, hp]))
        fun q hq => ?_).eval
      rw [Env.lookup?_cons, Env.lookup?_cons]
      cases hpq : p == q with
      | true =>
        have hqs : (q == source) = false := by simpa [← BEq.congr_left hpq] using hsource
        simp [hqs, hpq]
      | false =>
        have hbound : (p == if q == source then target else q) = false := by
          split
          · exact hp
          · exact hpq
        simpa [hbound] using hfree q hq hpq

/-- What an expression comes to it comes to after rebinding as well. -/
theorem follows_rebind (hfresh : ∀ part ∈ e.parts, part.binds target = false)
    (h : ∀ q ∈ e.freeParams, env.lookup? q = env'.lookup? (if q == source then target else q)) :
    Follows env env' e (e.rebind source target) :=
  (coincides_rebind hfresh h).follows

/-- **Rebinding preserves the outcome**: with a parameter that does not occur in the expression in
place of another one, and bound to its record, the expression comes to the same or fails for the
same reason. -/
theorem eval_rebind (hunused : e.references target = false)
    (hfresh : ∀ part ∈ e.parts, part.binds target = false) (env : Env) (r : Record) :
    SameOutcome (e.eval ((source, r) :: env))
      ((e.rebind source target).eval ((target, r) :: env)) := by
  refine (coincides_rebind hfresh fun q hq => ?_).eval
  cases hq' : q == source with
  | true => rw [if_pos rfl, Env.lookup?_self (BEq.symm hq'), Env.lookup?_self target.beq_self]
  | false =>
    have hne : (target == q) = false := by
      refine Bool.not_eq_true _ ▸ fun h => ?_
      rw [references_of_mem_freeParams hq (BEq.symm h)] at hunused
      cases hunused
    rw [if_neg Bool.false_ne_true, Env.lookup?_cons, Env.lookup?_cons, hne, BEq.comm, hq']

end Expr

namespace Sample

/-- A composite with a location in Paris and this memo.  The function of the locations has the
parameter of the composite. -/
def notedInParis (c : Param) : Expr :=
  (Expr.call .any ((Expr.parameter c).field "locations")
    [.lambda c (((Expr.parameter c).field "name").equals (.constant (.text "PARIS")))]).conj
      ((Expr.unary .unwrap ((Expr.parameter c).field "memo")).equals (.constant (.text "seen")))

/-- Without a memo both fail to unwrap it, and each error quotes its own parameter. -/
theorem notedInParis_rebind :
    let c : Param := ⟨"c", composite⟩
    let d : Param := ⟨"d", composite⟩
    let r := residentView none none [locationView 1 "PARIS"]
    let memo := fun p => Expr.unary .unwrap ((Expr.parameter p).field "memo")
    SameOutcome ((notedInParis c).eval [(c, r)]) (((notedInParis c).rebind c d).eval [(d, r)]) ∧
      (notedInParis c).eval [(c, r)] = .error (.nullUnwrap (memo c)) ∧
      ((notedInParis c).rebind c d).eval [(d, r)] = .error (.nullUnwrap (memo d)) := by
  have hfresh : ((notedInParis ⟨"c", composite⟩).parts.all
      (!·.binds ⟨"d", composite⟩)) = true := rfl
  exact ⟨Expr.eval_rebind rfl (by simpa using hfresh) [] _, rfl, rfl⟩

end Sample

end RecordView
