import RecordView.Proofs.Double.Nearest
import RecordView.Value.Compare

/-!
# The order of numbers in a sorted list

Sorting compares integers exactly, floats by their bits, and an integer with a float by the places
of the two as doubles (`Number.canonicalCmp`).  There an integer equals all floats at its place, and
a float all integers that round to it; and NaN, which has no place, equals all integers.

Both integers and floats grow with their places (`Number.place_mono`).  So two comparisons fit
together with the third (`Fits`) unless two integers, or two floats, are at one place: over a set of
numbers without NaN beside an integer they do exactly if integers and floats equal each other one to
one (`Number.OneToOne.fits`, `Number.oneToOne_of_alike`).

That is so for numbers of one kind (`Number.oneToOne_of_isFloat_eq`), and for integers up to
`2 ^ 53` with floats other than NaN and `-0` (`Number.oneToOne_exact`).
-/

namespace RecordView

/-! ### Comparisons that fit together -/

/-- How the comparisons of `a` with `b`, of `b` with `c` and of `a` with `c` go together in an
order: equals compare alike, and two steps in one direction lead in that direction. -/
def Fits (ab bc ac : Ordering) : Prop :=
  (ab = .eq → ac = bc) ∧ (bc = .eq → ac = ab) ∧ (ab = bc → ac = ab)

theorem fits_compare {α : Type} [Ord α] [Std.TransOrd α] (a b c : α) :
    Fits (compare a b) (compare b c) (compare a c) := by
  refine ⟨Std.TransCmp.congr_left, fun h => (Std.TransCmp.congr_right h).symm, fun h => ?_⟩
  cases hab : compare a b with
  | lt => exact Std.TransCmp.lt_trans hab (h ▸ hab)
  | eq => exact Std.TransCmp.eq_trans hab (h ▸ hab)
  | gt => exact Std.TransCmp.gt_trans hab (h ▸ hab)

/-- A second comparison matters where the first one ties. -/
theorem Fits.then {ab bc ac ab' bc' ac' : Ordering} (h : Fits ab bc ac)
    (hties : ab = .eq → bc = .eq → Fits ab' bc' ac') :
    Fits (ab.then ab') (bc.then bc') (ac.then ac') := by
  obtain ⟨hl, hr, hd⟩ := h
  cases ab <;> cases bc <;> simp_all [Fits]
  -- one step ties and the other does not: the latter decides
  all_goals
    rintro rfl
    rfl

theorem Fits.isLE_trans {ab bc ac : Ordering} (h : Fits ab bc ac) (hab : ab.isLE = true)
    (hbc : bc.isLE = true) : ac.isLE = true := by
  obtain ⟨hl, hr, hd⟩ := h
  cases ab <;> cases bc <;> simp_all

/-- A comparison is reversed if it is within the ties of a reversed one. -/
theorem then_eq_swap {ab ba ab' ba' : Ordering} (h : ba = ab.swap)
    (hties : ba = .eq → ba' = ab'.swap) : ba.then ba' = (ab.then ab').swap := by
  subst h
  cases ab <;> simp_all

/-- Comparisons of integers fit together if each two steps that do not part lead the same way. -/
theorem fits_of_int {p q r s t u : Int} (hlt : p ≤ q → r ≤ s → p < q ∨ r < s → t < u)
    (heq : p = q → r = s → t = u) (hgt : q ≤ p → s ≤ r → q < p ∨ s < r → u < t) :
    Fits (compare p q) (compare r s) (compare t u) := by
  simp only [Fits, Int.compare_eq_ite_lt]
  repeat' split
  all_goals simp
  all_goals omega

/-! ### Places of doubles -/

namespace Double

/-- Where a double stands in the two orders. -/
theorem positions (x : Double) :
    x.isNegative = true ∧ x.position = -x.magnitude ∧ x.totalPosition = -x.magnitude - 1 ∨
      x.isNegative = false ∧ x.position = x.magnitude ∧ x.totalPosition = x.magnitude := by
  rw [position, totalPosition]
  cases x.isNegative
  · exact .inr ⟨rfl, rfl, rfl⟩
  · exact .inl ⟨rfl, rfl, rfl⟩

/-- The total order refines the numeric one. -/
theorem position_mono {x y : Double} (h : x.totalPosition ≤ y.totalPosition) :
    x.position ≤ y.position := by
  rcases x.positions with ⟨-, hx⟩ | ⟨-, hx⟩ <;> rcases y.positions with ⟨-, hy⟩ | ⟨-, hy⟩
  all_goals omega

/-- The bits are the magnitude and, above it, the sign. -/
theorem toNat_bits (x : Double) :
    x.bits.toNat = x.magnitude + if x.isNegative then 2 ^ 63 else 0 := by
  have hlt := x.bits.toNat_lt
  have hpow : Nat.pow 2 63 = 2 ^ 63 := rfl
  simp only [magnitude, isNegative, decide_eq_true_eq, hpow]
  split <;> omega

theorem eq_of_totalPosition_eq {x y : Double} (h : x.totalPosition = y.totalPosition) : x = y := by
  have hbits : x.bits.toNat = y.bits.toNat := by
    rw [toNat_bits, toNat_bits]
    rcases x.positions with ⟨hx, hx'⟩ | ⟨hx, hx'⟩ <;>
      rcases y.positions with ⟨hy, hy'⟩ | ⟨hy, hy'⟩ <;> rw [hx, hy]
    all_goals omega
  cases x
  cases y
  exact congrArg mk (UInt64.toNat_inj.1 hbits)

/-- The negative zero, which is equal to zero without being it. -/
def negativeZero : Double := ⟨0x8000000000000000⟩

theorem magnitude_pos {x : Double} (hzero : x ≠ negativeZero) (hneg : x.isNegative = true) :
    0 < x.magnitude := by
  have hbits := toNat_bits x
  have hne : x.bits.toNat ≠ 2 ^ 63 := fun h => hzero (congrArg mk (UInt64.toNat_inj.1 h))
  rw [if_pos hneg] at hbits
  omega

/-- Only the two zeros are at one place. -/
theorem eq_of_position_eq {x y : Double} (hx : x ≠ negativeZero) (hy : y ≠ negativeZero)
    (h : x.position = y.position) : x = y := by
  apply eq_of_totalPosition_eq
  rcases x.positions with ⟨hneg, hx'⟩ | ⟨-, hx'⟩ <;> rcases y.positions with ⟨hneg', hy'⟩ | ⟨-, hy'⟩
  · omega
  · have hpos := magnitude_pos hx hneg
    omega
  · have hpos := magnitude_pos hy hneg'
    omega
  · omega

theorem compare?_of_not_isNaN {x y : Double} (hx : x.isNaN = false) (hy : y.isNaN = false) :
    x.compare? y = some (compare x.position y.position) := by
  rw [compare?, hx, hy]
  rfl

theorem compare?_swap (x y : Double) : y.compare? x = (x.compare? y).map Ordering.swap := by
  have hswap : compare y.position x.position = (compare x.position y.position).swap :=
    Std.OrientedOrd.eq_swap
  rw [compare?, compare?, hswap]
  cases x.isNaN <;> cases y.isNaN <;> rfl

theorem compare?_eq_eq {x y : Double} :
    x.compare? y = some .eq ↔ x.isNaN = false ∧ y.isNaN = false ∧ x.position = y.position := by
  rw [compare?]
  cases x.isNaN <;> cases y.isNaN <;> simp

end Double

namespace Number

/-! ### Numbers -/

/-- Whether the number is a float. -/
def isFloat : Number → Bool
  | float _ => true
  | _ => false

/-- A number's place among those of its kind, integers or floats. -/
def key : Number → Int
  | int i => i.toInt
  | uint n => n.toNat
  | float x => x.totalPosition

/-- A number's place as a double. -/
def place (n : Number) : Int := n.toDouble.position

/-- The order of two numbers in a sorted list. -/
def canonicalCmp : Number → Number → Ordering
  | float x, float y => x.compareTotal y
  | m, n => (m.compare? n).getD .eq

variable {m n k : Number} {among : Number → Prop}

theorem isNaN_toDouble (h : m.isFloat = false) : m.toDouble.isNaN = false := by
  cases m with
  | int i => exact Double.isNaN_ofInt64 i
  | uint i => exact Double.isNaN_ofUInt64 i
  | float x => exact absurd h Bool.noConfusion

theorem place_of_integer (h : m.isFloat = false) : m.place = nearestPosition m.key := by
  cases m with
  | int i => exact Double.position_ofInt64 i
  | uint i => exact Double.position_ofUInt64 i
  | float x => exact absurd h Bool.noConfusion

theorem exists_float (h : m.isFloat = true) : ∃ x, m = float x := by
  cases m with
  | float x => exact ⟨x, rfl⟩
  | _ => exact absurd h Bool.noConfusion

theorem integer?_eq_key (h : m.isFloat = false) : m.integer? = some m.key := by
  cases m with
  | int i => rfl
  | uint i => rfl
  | float x => exact absurd h Bool.noConfusion

theorem isFloat_of_integer? {i : Int} (h : m.integer? = some i) : m.isFloat = false := by
  cases m with
  | float x => exact absurd h nofun
  | _ => rfl

theorem place_of_integer? {i : Int} (h : m.integer? = some i) : m.place = nearestPosition i := by
  have hkind := isFloat_of_integer? h
  rw [place_of_integer hkind]
  rw [integer?_eq_key hkind, Option.some.injEq] at h
  rw [h]

/-- Within a kind the places as doubles are in the same order. -/
theorem place_mono (hkind : m.isFloat = n.isFloat) (h : m.key ≤ n.key) : m.place ≤ n.place := by
  cases hm : m.isFloat with
  | false =>
    rw [place_of_integer hm, place_of_integer (hkind ▸ hm)]
    exact nearestPosition_mono h
  | true =>
    obtain ⟨x, rfl⟩ := exists_float hm
    obtain ⟨y, rfl⟩ := exists_float (hkind ▸ hm)
    exact Double.position_mono h

theorem canonicalCmp_of_isFloat_eq (hkind : m.isFloat = n.isFloat) :
    m.canonicalCmp n = compare m.key n.key := by
  cases m <;> cases n <;> first | rfl | exact absurd hkind Bool.noConfusion

theorem canonicalCmp_of_isFloat_ne (hkind : m.isFloat ≠ n.isFloat) :
    m.canonicalCmp n = (m.toDouble.compare? n.toDouble).getD .eq := by
  cases m <;> cases n <;> first | rfl | exact absurd rfl hkind

theorem canonicalCmp_swap (m n : Number) : n.canonicalCmp m = (m.canonicalCmp n).swap := by
  by_cases hkind : m.isFloat = n.isFloat
  · rw [canonicalCmp_of_isFloat_eq hkind, canonicalCmp_of_isFloat_eq hkind.symm]
    exact Std.OrientedOrd.eq_swap
  · rw [canonicalCmp_of_isFloat_ne hkind, canonicalCmp_of_isFloat_ne (Ne.symm hkind),
      Double.compare?_swap]
    -- undefined both ways, next to NaN, or reversed
    cases m.toDouble.compare? n.toDouble <;> rfl

/-! ### Integers and floats equal to each other -/

/-- Two numbers that are equal as doubles. -/
def Ties (m n : Number) : Prop := m.toDouble.compare? n.toDouble = some .eq

theorem Ties.place_eq (h : m.Ties n) : m.place = n.place :=
  (Double.compare?_eq_eq.1 h).2.2

/-- No two integers of the set equal one of its floats, and no two floats one integer. -/
structure OneToOne (among : Number → Prop) : Prop where
  integers : ∀ {m n x i j}, among m → among n → among (float x) → m.integer? = some i →
    n.integer? = some j → m.Ties (float x) → n.Ties (float x) → i = j
  floats : ∀ {n x y i}, among n → among (float x) → among (float y) → n.integer? = some i →
    n.Ties (float x) → n.Ties (float y) → x = y

/-- No integer of the set stands beside a NaN. -/
def ApartFromNaN (among : Number → Prop) : Prop :=
  ∀ {n x i}, among n → among (float x) → n.integer? = some i → x.isNaN = false

/-- Numbers of both kinds in one set are no NaN. -/
theorem ApartFromNaN.isNaN_eq (hnan : ApartFromNaN among) (hm : among m) (hn : among n)
    (hkind : m.isFloat ≠ n.isFloat) : m.toDouble.isNaN = false ∧ n.toDouble.isNaN = false := by
  cases hm' : m.isFloat with
  | false =>
    obtain ⟨x, rfl⟩ : ∃ x, n = float x := exists_float (by simpa [hm'] using hkind)
    exact ⟨isNaN_toDouble hm', hnan hm hn (integer?_eq_key hm')⟩
  | true =>
    have hn' : n.isFloat = false := by simpa [hm'] using hkind
    obtain ⟨x, rfl⟩ := exists_float hm'
    exact ⟨hnan hn hm (integer?_eq_key hn'), isNaN_toDouble hn'⟩

theorem ApartFromNaN.canonicalCmp_eq (hnan : ApartFromNaN among) (hm : among m) (hn : among n)
    (hkind : m.isFloat ≠ n.isFloat) : m.canonicalCmp n = compare m.place n.place := by
  obtain ⟨hm', hn'⟩ := hnan.isNaN_eq hm hn hkind
  rw [canonicalCmp_of_isFloat_ne hkind, Double.compare?_of_not_isNaN hm' hn']
  rfl

/-- At the place of a number of the other kind there is one number. -/
theorem OneToOne.key_eq (hone : OneToOne among) (hnan : ApartFromNaN among) (hm : among m)
    (hn : among n) (hk : among k) (hkind : m.isFloat = n.isFloat) (hother : m.isFloat ≠ k.isFloat)
    (hmk : m.place = k.place) (hnk : n.place = k.place) : m.key = n.key := by
  have hm' := hnan.isNaN_eq hm hk hother
  have hn' := hnan.isNaN_eq hn hk (hkind ▸ hother)
  cases hfloat : m.isFloat with
  | false =>
    -- two integers at the place of a float
    obtain ⟨x, rfl⟩ : ∃ x, k = float x := exists_float (by simpa [hfloat] using hother)
    exact hone.integers hm hn hk (integer?_eq_key hfloat) (integer?_eq_key (hkind ▸ hfloat))
      (Double.compare?_eq_eq.2 ⟨hm'.1, hm'.2, hmk⟩) (Double.compare?_eq_eq.2 ⟨hn'.1, hn'.2, hnk⟩)
  | true =>
    -- two floats at the place of an integer
    have hk' : k.isFloat = false := by simpa [hfloat] using hother
    obtain ⟨x, rfl⟩ := exists_float hfloat
    obtain ⟨y, rfl⟩ := exists_float (hkind ▸ hfloat)
    have heq := hone.floats hk hm hn (integer?_eq_key hk')
      (Double.compare?_eq_eq.2 ⟨hm'.2, hm'.1, hmk.symm⟩)
      (Double.compare?_eq_eq.2 ⟨hn'.2, hn'.1, hnk.symm⟩)
    exact congrArg Double.totalPosition heq

/-- The comparisons of three numbers fit together, whichever of them are floats. -/
theorem OneToOne.fits (hone : OneToOne among) (hnan : ApartFromNaN among) (hm : among m)
    (hn : among n) (hk : among k) :
    Fits (m.canonicalCmp n) (n.canonicalCmp k) (m.canonicalCmp k) := by
  by_cases hmn : m.isFloat = n.isFloat <;> by_cases hnk : n.isFloat = k.isFloat
  · rw [canonicalCmp_of_isFloat_eq hmn, canonicalCmp_of_isFloat_eq hnk,
      canonicalCmp_of_isFloat_eq (hmn.trans hnk)]
    exact fits_compare ..
  · -- the last one is of the other kind
    have hmk : m.isFloat ≠ k.isFloat := hmn ▸ hnk
    have hle := @place_mono m n hmn
    have hge := @place_mono n m hmn.symm
    have hkey := hone.key_eq hnan hm hn hk hmn hmk
    rw [canonicalCmp_of_isFloat_eq hmn, hnan.canonicalCmp_eq hn hk hnk,
      hnan.canonicalCmp_eq hm hk hmk]
    apply fits_of_int <;> omega
  · -- the first one is of the other kind
    have hmk : m.isFloat ≠ k.isFloat := hnk ▸ hmn
    have hle := @place_mono n k hnk
    have hge := @place_mono k n hnk.symm
    have hkey := hone.key_eq hnan hn hk hm hnk (Ne.symm hmn)
    rw [hnan.canonicalCmp_eq hm hn hmn, canonicalCmp_of_isFloat_eq hnk,
      hnan.canonicalCmp_eq hm hk hmk]
    apply fits_of_int <;> omega
  · -- the one between is of the other kind
    have hmk : m.isFloat = k.isFloat := by
      cases hm' : m.isFloat <;> cases hn' : n.isFloat <;> cases hk' : k.isFloat <;> simp_all
    have hle := @place_mono m k hmk
    have hge := @place_mono k m hmk.symm
    have hkey := hone.key_eq hnan hm hk hn hmk hmn
    rw [hnan.canonicalCmp_eq hm hn hmn, hnan.canonicalCmp_eq hn hk hnk,
      canonicalCmp_of_isFloat_eq hmk]
    apply fits_of_int <;> omega

theorem Ties.canonicalCmp_eq {x : Double} {i : Int} (h : m.Ties (float x))
    (hi : m.integer? = some i) : m.canonicalCmp (float x) = .eq := by
  have hkind : m.isFloat ≠ (float x).isFloat := by
    rw [isFloat_of_integer? hi]
    exact Bool.noConfusion
  rw [canonicalCmp_of_isFloat_ne hkind]
  exact congrArg (·.getD .eq) h

/-- If equals compare alike, two integers equal to one float are equal, and two floats equal to one
integer are the same. -/
theorem oneToOne_of_alike
    (halike : ∀ {l m n}, among l → among m → among n → l.canonicalCmp m = .eq →
      l.canonicalCmp n = m.canonicalCmp n) : OneToOne among where
  integers {m n x i j} hm hn hx hi hj hmx hnx := by
    have hkind := isFloat_of_integer? hi
    have hkind' := isFloat_of_integer? hj
    have hm' : m.canonicalCmp (float x) = .eq := hmx.canonicalCmp_eq hi
    have hn' : n.canonicalCmp (float x) = .eq := hnx.canonicalCmp_eq hj
    have hmn : m.canonicalCmp n = .eq := by
      rw [halike hm hx hn hm', canonicalCmp_swap n, hn']
      rfl
    rw [canonicalCmp_of_isFloat_eq (hkind.trans hkind'.symm), Int.compare_eq_eq] at hmn
    rw [integer?_eq_key hkind, Option.some.injEq] at hi
    rw [integer?_eq_key hkind', Option.some.injEq] at hj
    exact hi.symm.trans (hmn.trans hj)
  floats {n x y i} hn hx hy hi hnx hny := by
    have hx' : n.canonicalCmp (float x) = .eq := hnx.canonicalCmp_eq hi
    have hy' : n.canonicalCmp (float y) = .eq := hny.canonicalCmp_eq hi
    have hxy : (float x).canonicalCmp (float y) = .eq := (halike hn hx hy hx').symm.trans hy'
    exact Double.eq_of_totalPosition_eq (Int.compare_eq_eq.1 hxy)

/-! ### Sets of numbers in which integers and floats are told apart -/

/-- Numbers of one kind do not meet the other kind. -/
theorem oneToOne_of_isFloat_eq {kind : Bool} (hkind : ∀ {n}, among n → n.isFloat = kind) :
    OneToOne among ∧ ApartFromNaN among := by
  have habsurd : ∀ {n x i}, among n → among (float x) → n.integer? ≠ some i := by
    intro n x i hn hx hi
    have hfloat : true = kind := hkind hx
    exact absurd ((isFloat_of_integer? hi).symm.trans ((hkind hn).trans hfloat.symm)) (by decide)
  exact ⟨⟨fun hm _ hx hi => absurd hi (habsurd hm hx), fun hn hx _ hi => absurd hi (habsurd hn hx)⟩,
    fun hn hx hi => absurd hi (habsurd hn hx)⟩

/-- Integers that are doubles, and floats that are neither NaN nor the negative zero. -/
def Exact : Number → Prop
  | int i => i.toInt.natAbs ≤ 2 ^ 53
  | uint n => n.toNat ≤ 2 ^ 53
  | float x => x.isNaN = false ∧ x ≠ .negativeZero

instance : DecidablePred Exact
  | int i => inferInstanceAs (Decidable (i.toInt.natAbs ≤ 2 ^ 53))
  | uint n => inferInstanceAs (Decidable (n.toNat ≤ 2 ^ 53))
  | float x => inferInstanceAs (Decidable (x.isNaN = false ∧ x ≠ .negativeZero))

theorem Exact.natAbs_le {i : Int} (h : n.Exact) (hi : n.integer? = some i) : i.natAbs ≤ 2 ^ 53 := by
  cases n with
  | int i => exact Option.some.inj hi ▸ h
  | uint n => exact Option.some.inj hi ▸ h
  | float x => exact absurd hi nofun

theorem oneToOne_exact : OneToOne Exact ∧ ApartFromNaN Exact := by
  refine ⟨⟨fun {m n x i j} hm hn hx hi hj hmx hnx => ?_, fun hn hx hy hi hnx hny => ?_⟩,
    fun hn hx _ => hx.1⟩
  · have hplace : nearestPosition i = nearestPosition j := by
      rw [← place_of_integer? hi, ← place_of_integer? hj]
      exact hmx.place_eq.trans hnx.place_eq.symm
    have hi' := hm.natAbs_le hi
    have hj' := hn.natAbs_le hj
    obtain hlt | heq | hgt := Int.lt_trichotomy i j
    · exact absurd hplace (Int.ne_of_lt (nearestPosition_lt hlt hi' hj'))
    · exact heq
    · exact absurd hplace (Int.ne_of_gt (nearestPosition_lt hgt hj' hi'))
  · exact Double.eq_of_position_eq hx.2 hy.2 (hnx.place_eq.symm.trans hny.place_eq)

end Number

end RecordView
