import RecordView.Proofs.Value.Kind

/-!
# Integers behind values

A signed and an unsigned word are values of two kinds, with one integer behind each
(`Value.integer?`).  A conversion between the kinds keeps it (`Value.integer?_of_cast`).

Arithmetic never wraps around.  Where operands have integers behind them and the operation has a
result, the result is the exact one, of whichever kind it comes to (`Value.integer?_of_arithmetic`,
`Value.integer?_of_negate`); a result that does not fit its word is an error instead.
-/

namespace RecordView

theorem FieldKind.isScalar_of_isInteger {k : FieldKind} (h : k.isInteger = true) :
    k.isScalar = true := by
  cases k <;> first | rfl | cases h

namespace Value

variable {u v w : Value} {i m n : Int} {k : FieldKind}

/-! ### Words -/

theorem int64?_eq_some {word : Int64} : int64? i = some word ↔ word.toInt = i := by
  rw [int64?, Option.ite_none_right_eq_some]
  constructor
  · rintro ⟨⟨hmin, hmax⟩, h⟩
    rw [Int64.toInt_minValue] at hmin
    rw [Int64.toInt_maxValue] at hmax
    rw [← Option.some.inj h, Int64.toInt_ofInt_of_le (by omega) (by omega)]
  · rintro rfl
    exact ⟨⟨word.minValue_le_toInt, word.toInt_le⟩, by rw [Int64.ofInt_toInt]⟩

theorem uint64?_eq_some {word : UInt64} : uint64? i = some word ↔ (word.toNat : Int) = i := by
  rw [uint64?, Option.ite_none_right_eq_some]
  constructor
  · rintro ⟨⟨hmin, hmax⟩, h⟩
    have hsize : i.toNat < UInt64.size := by omega
    rw [← Option.some.inj h, Nat.toUInt64_eq, UInt64.toNat_ofNat_of_lt' hsize]
    omega
  · rintro rfl
    have hsize := word.toNat_lt_size
    exact ⟨⟨by omega, by omega⟩, by simp⟩

/-! ### The integer of a value -/

/-- The integer behind a value, if it is a signed or an unsigned word. -/
def integer? (v : Value) : Option Int := v.number?.bind Number.integer?

@[simp] theorem integer?_int (word : Int64) : (int word).integer? = some word.toInt := rfl

@[simp] theorem integer?_uint (word : UInt64) : (uint word).integer? = some (word.toNat : Int) := rfl

theorem integer?_eq_some :
    v.integer? = some n ↔ (∃ word, v = int word ∧ word.toInt = n) ∨
      ∃ word, v = uint word ∧ (word.toNat : Int) = n := by
  constructor
  · intro h
    cases v with
    | int word => exact .inl ⟨word, rfl, Option.some.inj h⟩
    | uint word => exact .inr ⟨word, rfl, Option.some.inj h⟩
    | _ => cases h
  · rintro (⟨word, rfl, rfl⟩ | ⟨word, rfl, rfl⟩) <;> rfl

/-- The integer behind a value is a signed word, or beyond all of them. -/
theorem exists_word_or_lt (h : v.integer? = some n) :
    (∃ word : Int64, word.toInt = n) ∨ Int64.maxValue.toInt < n := by
  obtain ⟨word, -, hword⟩ | ⟨word, -, hword⟩ := integer?_eq_some.1 h
  · exact .inl ⟨word, hword⟩
  · by_cases hmax : n ≤ Int64.maxValue.toInt
    · refine .inl ⟨.ofInt n, ?_⟩
      rw [Int64.toInt_maxValue] at hmax
      exact Int64.toInt_ofInt_of_le (by omega) (by omega)
    · exact .inr (by omega)

/-- A value of a kind for integers is null, or there is an integer behind it. -/
theorem HasKind.eq_null_or_integer (hk : k.isInteger = true) (h : v.HasKind k) :
    v = .null ∨ ∃ n, v.integer? = some n := by
  obtain rfl | hany | hkind := hasKind_iff.1 h
  · exact .inl rfl
  · rw [hany] at hk
    cases hk
  · refine .inr ?_
    cases v with
    | int word => exact ⟨_, integer?_int word⟩
    | uint word => exact ⟨_, integer?_uint word⟩
    | _ =>
      rw [← hkind] at hk
      cases hk

/-- A conversion to a kind for integers keeps the integer. -/
theorem integer?_of_cast (hk : k.isInteger = true) (hv : v.integer? = some n)
    (h : v.cast k = some w) : w.integer? = some n := by
  obtain ⟨word, rfl, rfl⟩ | ⟨word, rfl, rfl⟩ := integer?_eq_some.1 hv
  · cases k with
    | int => cases h; rfl
    | uint =>
      obtain ⟨stored, hstored, rfl⟩ := Option.map_eq_some_iff.1 h
      rw [integer?_uint, uint64?_eq_some.1 hstored]
    | _ => cases hk
  · cases k with
    | int =>
      obtain ⟨stored, hstored, rfl⟩ := Option.map_eq_some_iff.1 h
      rw [integer?_int, int64?_eq_some.1 hstored]
    | uint => cases h; rfl
    | _ => cases hk

end Value

/-! ### Arithmetic -/

namespace Arithmetic

variable {a : Arithmetic} {i j : Int} {u : Value}

theorem integer?_of_signed (h : a.signed i j = .ok u) :
    ∃ n, a.exact i j = .ok n ∧ u.integer? = some n := by
  obtain ⟨n, hn, h⟩ := bind_eq_ok.1 h
  split at h
  · rename_i word hword
    cases h
    exact ⟨n, hn, by rw [Value.integer?_int, Value.int64?_eq_some.1 hword]⟩
  · cases h

theorem integer?_of_unsigned (h : a.unsigned i j = .ok u) :
    ∃ n, a.exact i j = .ok n ∧ u.integer? = some n := by
  obtain ⟨n, hn, h⟩ := bind_eq_ok.1 h
  split at h
  · rename_i word hword
    cases h
    exact ⟨n, hn, by rw [Value.integer?_uint, Value.uint64?_eq_some.1 hword]⟩
  · cases h

/-- Two numbers that are no floats come to the exact result, signed or unsigned. -/
theorem integer?_of_onNumbers {x y : Number} (hx : x.integer? = some i) (hy : y.integer? = some j)
    (h : a.onNumbers x y = .ok u) : ∃ n, a.exact i j = .ok n ∧ u.integer? = some n := by
  cases x with
  | float x => cases hx
  | int word =>
    cases hx
    cases y with
    | float y => cases hy
    | int word' => cases hy; exact integer?_of_signed h
    | uint word' =>
      cases hy
      rw [onNumbers] at h
      split at h
      · exact integer?_of_signed h
      · cases h
  | uint word =>
    cases hx
    cases y with
    | float y => cases hy
    | uint word' => cases hy; exact integer?_of_unsigned h
    | int word' =>
      cases hy
      rw [onNumbers] at h
      split at h
      · exact integer?_of_signed h
      · cases h

end Arithmetic

namespace Value

variable {u v w : Value} {m n : Int}

/-- **Arithmetic on integers is exact**, or fails. -/
theorem integer?_of_arithmetic {a : Arithmetic} (hv : v.integer? = some m)
    (hw : w.integer? = some n) (h : arithmetic a v w = .ok u) :
    ∃ k, a.exact m n = .ok k ∧ u.integer? = some k := by
  obtain ⟨x, hx, hm⟩ := Option.bind_eq_some_iff.1 hv
  obtain ⟨y, hy, hn⟩ := Option.bind_eq_some_iff.1 hw
  unfold arithmetic at h
  split at h
  · cases hx
  · cases hy
  · cases hx
  · rw [hx, hy] at h
    exact Arithmetic.integer?_of_onNumbers hm hn h

/-- **The negation of an integer is exact**, or fails. -/
theorem integer?_of_negate (hv : v.integer? = some n) (h : v.negate = .ok u) :
    u.integer? = some (-n) := by
  have hsub : ∀ {i : Int}, Arithmetic.sub.signed 0 i = .ok u → u.integer? = some (-i) := by
    intro i h
    obtain ⟨k, hk, hu⟩ := Arithmetic.integer?_of_signed h
    cases hk
    rw [hu, Int.zero_sub]
  obtain ⟨word, rfl, rfl⟩ | ⟨word, rfl, rfl⟩ := integer?_eq_some.1 hv
  · exact hsub h
  · rw [negate] at h
    split at h
    · exact hsub h
    · cases h

end Value

end RecordView
