import RecordView.Mapping.Translate

/-!
# The conversions between operands

What `Expr.coerce` makes of two operands is one of five things (`Expr.Coerced`): it leaves both
alone, lets one number be null next to a number that may be, or converts one operand to the type of
the other.  Never are both converted, and never one twice.

The operands then agree in type (`Expr.Coerced.agree`), whatever they were before.
-/

namespace RecordView

namespace FieldKind

variable {k l : FieldKind}

theorem beq_comm (k l : FieldKind) : (k == l) = (l == k) := by
  cases k <;> cases l
  case record.record s t => exact BEq.comm (a := s.path) (b := t.path)
  case records.records s t => exact BEq.comm (a := s.path) (b := t.path)
  all_goals rfl

theorem isNumeric_eq_of_beq (h : (k == l) = true) : k.isNumeric = l.isNumeric := by
  cases k <;> cases l <;> first | rfl | cases h

end FieldKind

/-- The types of two operands agree: they are equal, or they are numbers of which both or none may
be null, or nothing is known of either. -/
inductive FieldType.Agree (t u : FieldType) : Prop
  | same (equal : (t == u) = true)
  | numbers (left : t.kind.isNumeric = true) (right : u.kind.isNumeric = true)
    (nullable : t.nullable = u.nullable)
  | unknown (left : t.isAny = true) (right : u.isAny = true)

namespace FieldType

variable {t u : FieldType}

theorem beq_iff : (t == u) = true ↔ (t.kind == u.kind) = true ∧ t.nullable = u.nullable := by
  change (t.kind == u.kind && t.nullable == u.nullable) = true ↔ _
  simp

theorem isAny_iff : t.isAny = true ↔ t.kind = .any := by
  unfold isAny
  cases t.kind <;> simp

theorem isAny_of_isNumeric (h : t.kind.isNumeric = true) : t.isAny = false := by
  rw [← Bool.not_eq_true, isAny_iff]
  intro hany
  rw [hany] at h
  cases h

theorem isNullableNumeric_iff :
    t.isNullableNumeric = true ↔ t.nullable = true ∧ t.kind.isNumeric = true :=
  Bool.and_eq_true_iff

theorem Agree.symm (h : t.Agree u) : u.Agree t := by
  cases h with
  | same equal =>
    obtain ⟨hkind, hnull⟩ := beq_iff.1 equal
    exact .same (beq_iff.2 ⟨FieldKind.beq_comm .. ▸ hkind, hnull.symm⟩)
  | numbers left right nullable => exact .numbers right left nullable.symm
  | unknown left right => exact .unknown right left

end FieldType

namespace Expr

variable {e l r l' r' : Expr} {t : FieldType}

/-- A converted expression has the type asked for, unless any type will do. -/
theorem type_convertTo (ht : t.isAny = false) : ((e.convertTo t).type == t) = true := by
  unfold convertTo
  split
  · rename_i h
    simpa [ht] using h
  · exact beq_self_eq_true t

/-- Whether the left operand is the one to be converted: it cannot be null, but the number next to
it can. -/
def convertsLeft (l r : Expr) : Bool :=
  r.type.isNullableNumeric && !l.type.nullable

/-- What becomes of two operands that stand next to each other. -/
inductive Coerced (l r : Expr) : Expr → Expr → Prop
  | asIs (agree : l.type.Agree r.type) : Coerced l r l r
  | widenRight (left : l.type.isNullableNumeric = true) (right : r.type.kind.isNumeric = true) :
    Coerced l r l (r.convertTo r.type.asNullable)
  | widenLeft (left : l.type.kind.isNumeric = true) (right : r.type.isNullableNumeric = true) :
    Coerced l r (l.convertTo l.type.asNullable) r
  | right (differ : (l.type.kind.isNumeric && r.type.kind.isNumeric) = false)
    (known : l.type.isAny = false) (chosen : convertsLeft l r = false) :
    Coerced l r l (r.convertTo l.type)
  | left (differ : (l.type.kind.isNumeric && r.type.kind.isNumeric) = false)
    (known : r.type.isAny = false) (chosen : convertsLeft l r = true ∨ l.type.isAny = true) :
    Coerced l r (l.convertTo r.type) r

/-- A number next to a converted one that may be null as well. -/
theorem agree_asNullable (hl : l.type.isNullableNumeric = true)
    (hr : r.type.kind.isNumeric = true) :
    l.type.Agree (r.convertTo r.type.asNullable).type := by
  obtain ⟨hnull, hnum⟩ := FieldType.isNullableNumeric_iff.1 hl
  have ht : r.type.asNullable.isAny = false := FieldType.isAny_of_isNumeric hr
  obtain ⟨hkind, hnull'⟩ := FieldType.beq_iff.1 (type_convertTo (e := r) ht)
  exact .numbers hnum (FieldKind.isNumeric_eq_of_beq hkind ▸ hr) (hnull.trans hnull'.symm)

/-- **Coerced operands agree in type.** -/
theorem Coerced.agree (h : Coerced l r l' r') : l'.type.Agree r'.type := by
  cases h with
  | asIs agree => exact agree
  | widenRight left right => exact agree_asNullable left right
  | widenLeft left right => exact (agree_asNullable right left).symm
  | right differ known chosen => exact .symm (.same (type_convertTo known))
  | left differ known chosen => exact .same (type_convertTo known)

/-! ### The two steps of a coercion -/

/-- The second step leaves operands alone that agree in type. -/
theorem align_of_agree (h : l.type.Agree r.type) : align l r = (l, r) := by
  unfold align
  cases h with
  | same equal => rw [equal]; rfl
  | numbers left right => simp [left, right]
  | unknown left right => simp [left, right]

/-- What the second step does to operands that the first one has left alone. -/
theorem coerced_align (hr : (l.type.isNullableNumeric && !r.type.nullable) = false)
    (hl : convertsLeft l r = false) : Coerced l r (align l r).1 (align l r).2 := by
  unfold align
  split
  · rename_i h
    rw [Bool.or_eq_true, Bool.and_eq_true] at h
    obtain hsame | ⟨hln, hrn⟩ := h
    · exact .asIs (.same hsame)
    · refine .asIs (.numbers hln hrn ?_)
      simp only [convertsLeft, FieldType.isNullableNumeric, hln, hrn, Bool.and_true] at hl hr
      cases hlnull : l.type.nullable <;> cases hrnull : r.type.nullable <;> simp_all
  · rename_i h
    rw [Bool.not_eq_true, Bool.or_eq_false_iff] at h
    split
    · rename_i hknown
      exact .right h.2 (by simpa using hknown) hl
    · rename_i hany
      split
      · rename_i hknown
        exact .left h.2 (by simpa using hknown) (.inr (by simpa using hany))
      · rename_i hany'
        exact .asIs (.unknown (by simpa using hany) (by simpa using hany'))

theorem coerce_of_pull {op : BinaryOp} (hpull : pullNullable l r = (l', r'))
    (h : Coerced l r l' r') : coerce op l r = binary op l' r' := by
  simp only [coerce, hpull, align_of_agree h.agree]

/-- **What a coercion does to its operands.** -/
theorem exists_coerced (op : BinaryOp) (l r : Expr) :
    ∃ l' r', coerce op l r = binary op l' r' ∧ Coerced l r l' r' := by
  by_cases hpullr : (l.type.isNullableNumeric && !r.type.nullable) = true
  · have hpull : pullNullable l r = (l, r.convertTo (nullableLike l.type r.type)) := if_pos hpullr
    rw [Bool.and_eq_true, Bool.not_eq_true'] at hpullr
    obtain ⟨hnull, hnum⟩ := FieldType.isNullableNumeric_iff.1 hpullr.1
    by_cases hrn : r.type.kind.isNumeric = true
    · rw [nullableLike, if_pos hrn] at hpull
      exact ⟨_, _, coerce_of_pull hpull (.widenRight hpullr.1 hrn), .widenRight hpullr.1 hrn⟩
    · rw [nullableLike, if_neg hrn] at hpull
      have h : Coerced l r l (r.convertTo l.type) := .right (by simp [hrn])
        (FieldType.isAny_of_isNumeric hnum) (by simp [convertsLeft, hnull])
      exact ⟨_, _, coerce_of_pull hpull h, h⟩
  by_cases hpulll : convertsLeft l r = true
  · have hpull : pullNullable l r = (l.convertTo (nullableLike r.type l.type), r) := by
      rw [pullNullable, if_neg hpullr]
      exact if_pos hpulll
    obtain ⟨hrnull, hlnull⟩ := Bool.and_eq_true_iff.1 hpulll
    obtain ⟨hnull, hnum⟩ := FieldType.isNullableNumeric_iff.1 hrnull
    by_cases hln : l.type.kind.isNumeric = true
    · rw [nullableLike, if_pos hln] at hpull
      exact ⟨_, _, coerce_of_pull hpull (.widenLeft hln hrnull), .widenLeft hln hrnull⟩
    · rw [nullableLike, if_neg hln] at hpull
      have h : Coerced l r (l.convertTo r.type) r := .left (by simp [hln])
        (FieldType.isAny_of_isNumeric hnum) (.inl hpulll)
      exact ⟨_, _, coerce_of_pull hpull h, h⟩
  · have hpull : pullNullable l r = (l, r) := by
      rw [pullNullable, if_neg hpullr]
      exact if_neg hpulll
    refine ⟨_, _, ?_, coerced_align (Bool.not_eq_true _ ▸ hpullr) (Bool.not_eq_true _ ▸ hpulll)⟩
    simp only [coerce, hpull]

end Expr

end RecordView
