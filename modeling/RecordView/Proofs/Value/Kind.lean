import RecordView.Expr.Typing
import RecordView.Proofs.Outcome
import RecordView.Proofs.Record.Conformance

/-!
# Kinds of results

Arithmetic absorbs null, joins texts and combines numbers, where signed meets unsigned as signed
and everything meets a float as a float (`Value.arithmetic_cases`, `FieldKind.combine`).

The static kind of an arithmetic expression follows a simpler rule (`FieldKind.join`): it is the
kind of the left operand, or a float next to a float.  The rule is right for most pairs of kinds
(`FieldKind.settles`).  But an unsigned number next to a signed one comes to a signed one, and an
integer next to a value of unknown kind may come to a float, so that the rule is right for exactly
the other pairs (`FieldKind.settles_iff`).  In the same way a negated value is of the kind of the
value unless it is unsigned (`FieldKind.ne_uint_iff`).
-/

namespace RecordView

namespace FieldKind

/-- Whether values of this kind are integers. -/
def isInteger : FieldKind → Bool
  | .int | .uint => true
  | _ => false

/-- The kind that arithmetic on numbers of two kinds comes to: signed meets unsigned as signed. -/
def combine : FieldKind → FieldKind → FieldKind
  | .float, _ | _, .float => .float
  | .uint, .uint => .uint
  | _, _ => .int

/-- Whether arithmetic on values of two kinds always has the kind that is inferred for it. -/
def settles : FieldKind → FieldKind → Bool
  | .uint, .int | .uint, .any | .int, .any => false
  | _, _ => true

variable {k l : FieldKind}

theorem join_float (k : FieldKind) : k.join .float = .float := by
  cases k <;> rfl

theorem join_of_ne_float (k : FieldKind) (hl : l ≠ .float) : k.join l = k := by
  cases k <;> cases l <;> first | rfl | exact absurd rfl hl

theorem combine_float (k : FieldKind) : k.combine .float = .float := by
  cases k <;> rfl

theorem isNumeric_combine (k l : FieldKind) : (k.combine l).isNumeric = true := by
  unfold combine
  split <;> rfl

/-- A number next to one of the kind `l`, or of any kind where `l` is unknown, keeps its kind if the
kinds settle it. -/
theorem combine_eq_self (hk : k.isNumeric = true) (hs : k.settles l = true) (hl : l ≠ .float)
    {m : FieldKind} (hm : m.isNumeric = true) (hml : l = .any ∨ m = l) : k.combine m = k := by
  rcases hml with rfl | rfl
  · cases k <;> cases hk <;> first | rfl | cases hs
  · cases k <;> cases hk <;> cases m <;> cases hm <;> first | rfl | exact absurd rfl hl | cases hs

/-- A number that is not unsigned is negated as a number of its kind. -/
theorem combine_int (hk : k.isNumeric = true) (hne : k ≠ .uint) : k.combine .int = k := by
  cases k <;> cases hk
  case uint => exact absurd rfl hne
  all_goals rfl

end FieldKind

/-- The kind of a number. -/
def Number.kind : Number → FieldKind
  | int _ => .int
  | uint _ => .uint
  | float _ => .float

namespace Arithmetic

variable {a : Arithmetic} {i j : Int} {u v w : Value}

theorem kind_signed (h : a.signed i j = .ok u) : u.kind = .int := by
  obtain ⟨k, -, h⟩ := bind_eq_ok.1 h
  split at h
  · cases h; rfl
  · cases h

theorem kind_unsigned (h : a.unsigned i j = .ok u) : u.kind = .uint := by
  obtain ⟨k, -, h⟩ := bind_eq_ok.1 h
  split at h
  · cases h; rfl
  · cases h

/-- Two numbers come to a number of the combined kind. -/
theorem kind_onNumbers {m n : Number} (h : a.onNumbers m n = .ok u) :
    u.kind = m.kind.combine n.kind := by
  cases m with
  | int i =>
    cases n with
    | int j => exact kind_signed h
    | uint n =>
      rw [onNumbers] at h
      split at h
      · exact kind_signed h
      · cases h
    | float y => cases h; rfl
  | uint m =>
    cases n with
    | int j =>
      rw [onNumbers] at h
      split at h
      · exact kind_signed h
      · cases h
    | uint n => exact kind_unsigned h
    | float y => cases h; rfl
  | float x => cases n <;> cases h <;> rfl

end Arithmetic

namespace Value

variable {k l : FieldKind} {u v w : Value}

/-! ### Values of a kind -/

theorem hasKind_iff : v.HasKind k ↔ v = .null ∨ k = .any ∨ v.kind = k := by
  constructor
  · intro h
    cases v <;> cases k <;> simp only [HasKind, cast, Option.map_eq_some_iff,
      Option.ite_none_right_eq_some, Option.some.injEq, reduceCtorEq, and_false, exists_false] at h
    all_goals simp [Value.kind]
  · rintro (rfl | rfl | rfl)
    · rfl
    · cases v <;> rfl
    · exact v.hasKind_kind

theorem kind_of_number? {m : Number} (h : v.number? = some m) :
    v.kind = m.kind ∧ v.kind.isNumeric = true := by
  cases v <;> cases h <;> exact ⟨rfl, rfl⟩

/-! ### Arithmetic -/

/-- Arithmetic absorbs null, joins texts, and combines numbers. -/
theorem arithmetic_cases {a : Arithmetic} (h : arithmetic a v w = .ok u) :
    u = .null ∨ (v.kind = .text ∧ w.kind = .text ∧ u.kind = .text) ∨
      (v.kind.isNumeric = true ∧ w.kind.isNumeric = true ∧ u.kind = v.kind.combine w.kind) := by
  unfold arithmetic at h
  split at h
  · cases h; exact .inl rfl
  · cases h; exact .inl rfl
  · split at h
    · cases h; exact .inr (.inl ⟨rfl, rfl, rfl⟩)
    · cases h
  · split at h
    · rename_i hv hw
      obtain ⟨hvk, hvn⟩ := kind_of_number? hv
      obtain ⟨hwk, hwn⟩ := kind_of_number? hw
      refine .inr (.inr ⟨hvn, hwn, ?_⟩)
      rw [hvk, hwk]
      exact Arithmetic.kind_onNumbers h
    · cases h

/-- A negated number is a float if the number is, and else a signed integer. -/
theorem negate_cases (h : v.negate = .ok u) :
    u = .null ∨ (v.kind.isNumeric = true ∧ u.kind = v.kind.combine .int) := by
  cases v with
  | null => cases h; exact .inl rfl
  | int i => exact .inr ⟨rfl, Arithmetic.kind_signed h⟩
  | uint n =>
    rw [negate] at h
    split at h
    · exact .inr ⟨rfl, Arithmetic.kind_signed h⟩
    · cases h
  | float x => cases h; exact .inr ⟨rfl, rfl⟩
  | bool b | text s | list items => cases h

theorem HasKind.of_ne_null (h : v.HasKind k) {l : FieldKind} (hv : v.kind = l) (hl : l ≠ .any) :
    k = .any ∨ v.kind = k :=
  (hasKind_iff.1 h).resolve_left (by rintro rfl; exact hl hv.symm)

/-- Two texts come to a text. -/
theorem hasKind_join_of_text (hv : v.HasKind k) (hvk : v.kind = .text) (hw : w.HasKind l)
    (hwk : w.kind = .text) (huk : u.kind = .text) : u.HasKind (k.join l) := by
  have hne : l ≠ .float := by
    rintro rfl
    simpa [hwk] using hw.of_ne_null hwk (by simp)
  rw [FieldKind.join_of_ne_float k hne, hasKind_iff, huk, ← hvk]
  exact .inr (hv.of_ne_null hvk (by simp))

/-- What meets a float comes to a float. -/
theorem hasKind_join_of_float (hw : w.kind = .float) (huk : u.kind = v.kind.combine w.kind) :
    u.HasKind (k.join .float) := by
  rw [FieldKind.join_float, hasKind_iff, huk, hw, FieldKind.combine_float]
  exact .inr (.inr rfl)

/-- Where the pair of kinds settles it, arithmetic has the kind that is inferred for it. -/
theorem hasKind_arithmetic {a : Arithmetic} (hs : k.settles l = true) (hv : v.HasKind k)
    (hw : w.HasKind l) (h : arithmetic a v w = .ok u) : u.HasKind (k.join l) := by
  rcases arithmetic_cases h with rfl | ⟨hvk, hwk, huk⟩ | ⟨hvn, hwn, huk⟩
  · rfl
  · exact hasKind_join_of_text hv hvk hw hwk huk
  · have hl := hw.of_ne_null rfl (by rintro hany; rw [hany] at hwn; cases hwn)
    by_cases hne : l = .float
    · subst hne
      exact hasKind_join_of_float (hl.resolve_left (nomatch ·)) huk
    · rw [FieldKind.join_of_ne_float k hne, hasKind_iff, huk]
      refine .inr ?_
      rcases hv.of_ne_null rfl (by rintro hany; rw [hany] at hvn; cases hvn) with hany | rfl
      · exact .inl hany
      · exact .inr (FieldKind.combine_eq_self hvn hs hne hwn hl)

theorem hasKind_negate (hk : k ≠ .uint) (hv : v.HasKind k) (h : v.negate = .ok u) :
    u.HasKind k := by
  rcases negate_cases h with rfl | ⟨hvn, huk⟩
  · rfl
  · rw [hasKind_iff, huk]
    rcases (hasKind_iff.1 hv).resolve_left (by rintro rfl; cases hvn) with rfl | rfl
    · exact .inr (.inl rfl)
    · exact .inr (.inr (FieldKind.combine_int hvn hk))

/-! ### What is left where the kinds do not settle it -/

/-- The value is of the kind, or a number where the kind promises an integer. -/
def NearKind (kind : FieldKind) (v : Value) : Prop :=
  v.HasKind kind ∨ kind.isInteger = true ∧ v.kind.isNumeric = true

theorem NearKind.of_isNumeric (h : v.NearKind k) (hv : v.kind.isNumeric = true) :
    k = .any ∨ v.kind = k ∨ k.isInteger = true := by
  obtain hkind | ⟨hint, -⟩ := h
  · refine (hkind.of_ne_null rfl ?_).imp_right .inl
    intro hany
    rw [hany] at hv
    cases hv
  · exact .inr (.inr hint)

theorem NearKind.hasKind (h : v.NearKind k) (hv : v.kind.isNumeric = false) : v.HasKind k :=
  h.resolve_right fun hint => by rw [hv] at hint; cases hint.2

/-- Arithmetic with a number near a kind comes to a number near it. -/
theorem NearKind.of_combine (hv : v.NearKind k) (hvn : v.kind.isNumeric = true)
    (huk : u.kind = v.kind.combine l) : u.NearKind k := by
  have hun : u.kind.isNumeric = true := by rw [huk]; exact FieldKind.isNumeric_combine ..
  rcases hv.of_isNumeric hvn with rfl | rfl | hint
  · exact .inl (hasKind_iff.2 (.inr (.inl rfl)))
  · cases hvk : v.kind with
    | int | uint => exact .inr ⟨rfl, hun⟩
    | float =>
      rw [hvk] at huk
      exact .inl (hasKind_iff.2 (.inr (.inr huk)))
    | _ => simp [hvk, FieldKind.isNumeric] at hvn
  · exact .inr ⟨hint, hun⟩

theorem nearKind_arithmetic {a : Arithmetic} (hv : v.NearKind k) (hw : w.NearKind l)
    (h : arithmetic a v w = .ok u) : u.NearKind (k.join l) := by
  rcases arithmetic_cases h with rfl | ⟨hvk, hwk, huk⟩ | ⟨hvn, hwn, huk⟩
  · exact .inl rfl
  · exact .inl (hasKind_join_of_text (hv.hasKind (by rw [hvk]; rfl)) hvk
      (hw.hasKind (by rw [hwk]; rfl)) hwk huk)
  · by_cases hne : l = .float
    · subst hne
      have hl := (hw.of_isNumeric hwn).resolve_left (nomatch ·)
      exact .inl (hasKind_join_of_float (hl.resolve_right (nomatch ·)) huk)
    · rw [FieldKind.join_of_ne_float k hne]
      exact hv.of_combine hvn huk

theorem nearKind_negate (hv : v.NearKind k) (h : v.negate = .ok u) : u.NearKind k := by
  rcases negate_cases h with rfl | ⟨hvn, huk⟩
  · exact .inl rfl
  · exact hv.of_combine hvn huk

end Value

namespace FieldKind

variable {k l : FieldKind}

/-- **The inferred kind of arithmetic is right for exactly the pairs of kinds that settle it.** -/
theorem settles_iff : k.settles l = true ↔ ∀ a v w u, v.HasKind k → w.HasKind l →
    Value.arithmetic a v w = .ok u → u.HasKind (k.join l) := by
  refine ⟨fun hs a v w u => Value.hasKind_arithmetic hs, fun h => ?_⟩
  rw [← Bool.not_eq_false]
  intro hs
  -- the pairs that do not settle it
  cases k <;> cases l <;> cases hs
  case uint.int.refl => cases h .add (.uint 0) (.int 0) (.int 0) rfl rfl rfl
  case uint.any.refl => cases h .add (.uint 0) (.int 0) (.int 0) rfl rfl rfl
  case int.any.refl =>
    have hfloat := h .add (.int 0) (.float ⟨0⟩) _ rfl rfl rfl
    obtain hnull | hany | hkind := Value.hasKind_iff.1 hfloat
    · cases hnull
    · cases hany
    · cases hkind

/-- **The inferred kind of a negation is right for every kind but the unsigned numbers.** -/
theorem ne_uint_iff : k ≠ .uint ↔ ∀ v u : Value, v.HasKind k → v.negate = .ok u →
    u.HasKind k := by
  refine ⟨fun hk v u => Value.hasKind_negate hk, ?_⟩
  rintro h rfl
  cases h (.uint 0) (.int 0) rfl rfl

end FieldKind

end RecordView
