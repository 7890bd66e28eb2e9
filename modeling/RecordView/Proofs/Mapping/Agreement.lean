import RecordView.Proofs.Mapping.Translation

/-!
# Translations are well typed

An expression is well typed if the operands of each of its binary operators agree in type
(`Expr.WellTyped`).  A function need not be so, but its translation is, whatever it is made of
(`MappingSet.wellTyped_of_translate`): every operator is coerced, and what is put around its
operands are conversions, which change no operator further down.
-/

namespace RecordView

namespace Expr

variable {e l r : Expr}

/-- At every binary operator in the expression, at any depth, the types of the operands agree. -/
def WellTyped (e : Expr) : Prop :=
  ∀ op l r, binary op l r ∈ e.parts → l.type.Agree r.type

/-! ### Nodes -/

theorem wellTyped_parameter (p : Param) : (parameter p).WellTyped := by
  simp [WellTyped, parts]

theorem wellTyped_constant (v : Value) : (constant v).WellTyped := by
  simp [WellTyped, parts]

theorem wellTyped_access {name : String} {owner : Option Schema} :
    (access e name owner).WellTyped ↔ e.WellTyped := by
  simp [WellTyped, parts]

theorem wellTyped_unary {op : UnaryOp} : (unary op e).WellTyped ↔ e.WellTyped := by
  simp [WellTyped, parts]

theorem wellTyped_lambda {p : Param} : (lambda p e).WellTyped ↔ e.WellTyped := by
  simp [WellTyped, parts]

theorem wellTyped_binary {op : BinaryOp} :
    (binary op l r).WellTyped ↔ l.type.Agree r.type ∧ l.WellTyped ∧ r.WellTyped := by
  constructor
  · intro h
    exact ⟨h op l r (self_mem_parts _),
      fun op' l' r' hpart => h op' l' r' (parts_subset_left op l r hpart),
      fun op' l' r' hpart => h op' l' r' (parts_subset_right op l r hpart)⟩
  · rintro ⟨hagree, hl, hr⟩ op' l' r' hpart
    obtain hself | hpart := List.mem_cons.1 hpart
    · cases hself
      exact hagree
    · exact (List.mem_append.1 hpart).elim (hl op' l' r') (hr op' l' r')

theorem wellTyped_call {method : Method} {args : List Expr} :
    (call method e args).WellTyped ↔ e.WellTyped ∧ ∀ arg ∈ args, arg.WellTyped := by
  constructor
  · intro h
    exact ⟨fun op l r hpart => h op l r (parts_subset_target method e args hpart),
      fun arg harg op l r hpart => h op l r (parts_subset_arg method e harg hpart)⟩
  · rintro ⟨htarget, hargs⟩ op l r hpart
    obtain hself | hpart := List.mem_cons.1 hpart
    · cases hself
    · obtain hpart | hpart := List.mem_append.1 hpart
      · exact htarget op l r hpart
      · obtain ⟨arg, harg, hpart⟩ := mem_partsOfAll.1 hpart
        exact hargs arg harg op l r hpart

/-! ### What translation makes -/

theorem WellTyped.convertTo (h : e.WellTyped) (t : FieldType) : (e.convertTo t).WellTyped := by
  unfold Expr.convertTo
  split
  · exact h
  · exact wellTyped_unary.2 h

/-- A coerced operator of well-typed operands is well typed. -/
theorem WellTyped.coerce (op : BinaryOp) (hl : l.WellTyped) (hr : r.WellTyped) :
    (coerce op l r).WellTyped := by
  obtain ⟨l', r', hcoerce, hcoerced⟩ := exists_coerced op l r
  rw [hcoerce]
  refine wellTyped_binary.2 ⟨hcoerced.agree, ?_⟩
  cases hcoerced with
  | asIs agree => exact ⟨hl, hr⟩
  | widenRight left right => exact ⟨hl, hr.convertTo _⟩
  | widenLeft left right => exact ⟨hl.convertTo _, hr⟩
  | right differ known chosen => exact ⟨hl, hr.convertTo _⟩
  | left differ known chosen => exact ⟨hl.convertTo _, hr⟩

theorem WellTyped.toExpr (h : e.WellTyped) (path : FieldPath) : (path.toExpr e).WellTyped := by
  rw [FieldPath.toExpr]
  generalize path.segments = segments
  induction segments generalizing e with
  | nil => exact h
  | cons segment segments ih => exact ih (wellTyped_access.2 h)

end Expr

namespace MappingSet

variable {set : MappingSet} {d : Direction} {x y : Param} {e e' : Expr}

/-- A translated expression is well typed, whether or not its source is. -/
theorem Translation.wellTyped (h : set.Translation d x y e e') : e'.WellTyped := by
  induction h with
  | source isSource => exact Expr.wellTyped_parameter y
  | parameter isOther => exact Expr.wellTyped_parameter _
  | constant v => exact Expr.wellTyped_constant v
  | mapped chain found => exact (Expr.wellTyped_parameter y).toExpr _
  | field free translated ih => exact Expr.wellTyped_access.2 ih
  | binary op left right ihl ihr => exact ihl.coerce op ihr
  | conversion isConversion operand ih => exact ih
  | unary isOperator operand ih => exact Expr.wellTyped_unary.2 ih
  | call method translated target each ih ihs =>
    exact Expr.wellTyped_call.2 ⟨ih, List.forall_mem_map.2 ihs⟩
  | lambda p body ih => exact Expr.wellTyped_lambda.2 ih

theorem exists_roots_of_translate {f g : Lambda} (h : set.translate d f = .ok g) :
    ∃ model entity, set.roots? = some (model, entity) := by
  obtain ⟨_, hroots, -⟩ := bind_eq_ok.1 h
  cases hsome : set.roots? with
  | none => rw [roots, hsome] at hroots; cases hroots
  | some pair => exact ⟨pair.1, pair.2, rfl⟩

/-- **Every operator of a translation is well typed**: at every binary operator in its body, in
calls and nested functions too, the types of the operands are equal, or they are numbers of which
both or none may be null, or nothing is known of either. -/
theorem wellTyped_of_translate {f g : Lambda} (h : set.translate d f = .ok g) :
    g.body.WellTyped := by
  obtain ⟨model, entity, hroots⟩ := exists_roots_of_translate h
  exact (translation_of_translateExpr ((translate_eq_ok hroots).1 h).2.2).wellTyped

end MappingSet

/-! ### Users -/

namespace Sample

theorem adminOrYoung_wellTyped :
    ∃ g, userMappings.translate .modelToEntity adminOrYoung = .ok g ∧ g.body.WellTyped := by
  obtain ⟨g, hg⟩ : ∃ g, userMappings.translate .modelToEntity adminOrYoung = .ok g := ⟨_, rfl⟩
  exact ⟨g, hg, MappingSet.wellTyped_of_translate hg⟩

end Sample

end RecordView
