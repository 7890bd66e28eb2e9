import Mathlib.Algebra.Group.Nat.Defs
import RecordView.Double.Basic

/-!
# Doubles nearest to integers

The bits of the double that is nearest to a positive integer are an exponent and a significand of 53
bits, and a significand that rounding has carried beyond them is the first one of the next exponent.
So the bits are one number (`nearestMagnitude`, `Double.toNat_ofUInt64`), which grows with the
integer (`nearestMagnitude_mono`), and strictly up to `2 ^ 53`, where all integers are doubles
(`nearestMagnitude_lt`).

With the sign this is the place of the double in the numeric order (`nearestPosition`,
`Double.position_ofUInt64`, `Double.position_ofInt64`).
-/

namespace RecordView

open Float.Model Float.Model.UnpackedFloat

/-! ### Rounding to even -/

/-- The quotient by `2 ^ j`, rounded to the nearest integer, from the middle to the even one. -/
def halfEven (n j : Nat) : Nat :=
  if 2 * (n % 2 ^ j) < 2 ^ j ∨ 2 * (n % 2 ^ j) = 2 ^ j ∧ n / 2 ^ j % 2 = 0 then n / 2 ^ j
  else n / 2 ^ j + 1

theorem halfEven_zero (n : Nat) : halfEven n 0 = n := by
  simp [halfEven, Nat.mod_one]

theorem le_halfEven (n j : Nat) : n / 2 ^ j ≤ halfEven n j := by
  rw [halfEven]
  split <;> omega

theorem halfEven_le (n j : Nat) : halfEven n j ≤ n / 2 ^ j + 1 := by
  rw [halfEven]
  split <;> omega

theorem halfEven_mono {m n : Nat} (h : m ≤ n) (j : Nat) : halfEven m j ≤ halfEven n j := by
  have hquot : m / 2 ^ j ≤ n / 2 ^ j := Nat.div_le_div_right h
  obtain hlt | heq := Nat.lt_or_eq_of_le hquot
  · have hm := halfEven_le m j
    have hn := le_halfEven n j
    omega
  · -- with one quotient the remainders decide
    have hm := Nat.div_add_mod m (2 ^ j)
    have hn := Nat.div_add_mod n (2 ^ j)
    rw [halfEven, halfEven, heq]
    rw [heq] at hm
    split <;> split <;> omega

/-- Shifting right keeps the bit behind the point, and whether any bit after it is set. -/
theorem shiftRight_succ (n j : Nat) :
    (⟨n, false, false⟩ : ExtendedMantissa) >>> (j + 1) =
      ⟨n / 2 ^ (j + 1), n / 2 ^ j % 2 != 0, n % 2 ^ j != 0⟩ := by
  induction j with
  | zero =>
    change ExtendedMantissa.shiftRightOne ⟨n, false, false⟩ = _
    simp [ExtendedMantissa.shiftRightOne, Nat.mod_one]
  | succ j ih =>
    change ((⟨n, false, false⟩ : ExtendedMantissa) >>> (j + 1)).shiftRightOne = _
    rw [ih, ExtendedMantissa.shiftRightOne, Nat.mod_pow_succ]
    have hdiv : n / 2 ^ (j + 1) / 2 = n / 2 ^ (j + 1 + 1) := by
      rw [Nat.div_div_eq_div_mul, ← Nat.pow_succ]
    obtain hbit | hbit : n / 2 ^ j % 2 = 0 ∨ n / 2 ^ j % 2 = 1 := by omega
    · simp [hbit, hdiv]
    · simp [hbit, hdiv]

theorem mantissa_shiftRight (n j : Nat) :
    ((⟨n, false, false⟩ : ExtendedMantissa) >>> j).mantissa = n / 2 ^ j := by
  cases j with
  | zero => exact (Nat.div_one n).symm
  | succ j => rw [shiftRight_succ]

/-- The kept bits decide how a shifted number is rounded. -/
theorem roundedMantissa_shiftRight (n j : Nat) :
    ((⟨n, false, false⟩ : ExtendedMantissa) >>> j).roundedMantissa = halfEven n j := by
  cases j with
  | zero =>
    rw [halfEven_zero]
    rfl
  | succ j =>
    have hpos : 0 < 2 ^ j := Nat.two_pow_pos j
    have hlow : n % 2 ^ j < 2 ^ j := Nat.mod_lt _ hpos
    have hrem : n % 2 ^ (j + 1) = n % 2 ^ j + 2 ^ j * (n / 2 ^ j % 2) := Nat.mod_pow_succ
    rw [shiftRight_succ, halfEven, hrem, Nat.pow_succ]
    generalize n / (2 ^ j * 2) = q
    obtain hbit | hbit : n / 2 ^ j % 2 = 0 ∨ n / 2 ^ j % 2 = 1 := by omega
    · -- less than half is shifted out
      rw [hbit, if_pos (.inl (by omega))]
      cases hs : n % 2 ^ j != 0 <;> rfl
    · rw [hbit]
      by_cases hzero : n % 2 ^ j = 0
      · -- half is shifted out, and nothing behind it
        simp only [hzero]
        change q + q % 2 = _
        split <;> omega
      · have hsticky : (n % 2 ^ j != 0) = true := by simpa using hzero
        rw [hsticky, if_neg (by omega)]
        rfl

/-! ### Bits of the nearest double -/

/-- The significand of the double nearest to a positive integer.  Its leading bit is at `2 ^ 52`, or
at `2 ^ 53` after a carry. -/
def nearestSignificand (n : Nat) : Nat := halfEven (n * 2 ^ (52 - n.log2)) (n.log2 - 52)

/-- The bits of the double nearest to an integer, read as a number. -/
def nearestMagnitude (n : Nat) : Nat :=
  if n = 0 then 0 else (n.log2 + 1022) * 2 ^ 52 + nearestSignificand n

theorem scaled_ne_zero {n : Nat} (h : n ≠ 0) (k : Nat) : n * 2 ^ k ≠ 0 :=
  Nat.mul_ne_zero h (Nat.ne_zero_of_lt (Nat.two_pow_pos k))

/-- Scaled for its significand a positive integer has at least 53 bits. -/
theorem log2_scaled {n : Nat} (h : n ≠ 0) :
    (n * 2 ^ (52 - n.log2)).log2 = 52 + (n.log2 - 52) := by
  have hexp : n.log2 + (52 - n.log2) = 52 + (n.log2 - 52) := by omega
  rw [Nat.log2_eq_iff (scaled_ne_zero h _)]
  constructor
  · rw [← hexp, Nat.pow_add]
    exact Nat.mul_le_mul_right _ (Nat.log2_self_le h)
  · rw [← hexp, Nat.add_right_comm, Nat.pow_add]
    exact Nat.mul_lt_mul_of_pos_right Nat.lt_log2_self (Nat.two_pow_pos _)

/-- Rounding a number of `53 + j` bits by `j` bits leaves 53, or carries. -/
theorem halfEven_bounds {m j : Nat} (hm : m ≠ 0) (hlog : m.log2 = 52 + j) :
    2 ^ 52 ≤ halfEven m j ∧ halfEven m j ≤ 2 ^ 53 := by
  obtain ⟨hlo, hhi⟩ := (Nat.log2_eq_iff hm).1 hlog
  have hquot : 2 ^ 52 ≤ m / 2 ^ j := by
    rwa [Nat.le_div_iff_mul_le (Nat.two_pow_pos _), ← Nat.pow_add]
  have hquot' : m / 2 ^ j < 2 ^ 53 := by
    rw [Nat.div_lt_iff_lt_mul (Nat.two_pow_pos _), ← Nat.pow_add]
    exact Nat.lt_of_lt_of_le hhi (Nat.le_of_eq (congrArg _ (by omega)))
  have hle := le_halfEven m j
  have hle' := halfEven_le m j
  omega

theorem nearestSignificand_bounds {n : Nat} (h : n ≠ 0) :
    2 ^ 52 ≤ nearestSignificand n ∧ nearestSignificand n ≤ 2 ^ 53 :=
  halfEven_bounds (scaled_ne_zero h _) (log2_scaled h)

/-- The exponent that a mantissa of any length is brought to. -/
theorem targetExponent_totalExponent (m : Nat) (e : Int) :
    Format.targetExponent .binary64 (totalExponent m e) =
      max ((m.log2 : Int) + 1 + e - 53) (-1074) := rfl

/-- A mantissa of `53 + j` bits is shifted by `j`. -/
theorem shiftToTargetExponent_eq {m j : Nat} {e : Int} (hlog : m.log2 = 52 + j)
    (he : -1074 ≤ e + (j : Int)) :
    shiftToTargetExponent .binary64 m e .exact =
      ((⟨m, false, false⟩ : ExtendedMantissa) >>> j, e + (j : Int)) := by
  have htarget : Format.targetExponent .binary64 (totalExponent m e) = e + (j : Int) := by
    rw [targetExponent_totalExponent]
    omega
  have hshift : (e + (j : Int) - e).toNat = j := by omega
  simp only [shiftToTargetExponent, htarget, shiftToExponent, hshift,
    ExtendedMantissa.ofMantissaAndAccuracy]

/-- Packing a number with 53 bits of mantissa drops the leading one. -/
theorem toNat_pack_finite {m : Nat} {e : Int} (hm : 0 < m) (hlog : m.log2 = 52)
    (hlo : -1074 ≤ e) (hhi : e ≤ 900) :
    (UnpackedFloat.pack .binary64 (.finite .positive m e hm)).toNat =
      (e + 1074).toNat * 2 ^ 52 + m := by
  obtain ⟨hm52, hm53⟩ := (Nat.log2_eq_iff (Nat.ne_zero_of_lt hm)).1 hlog
  have hpack : UnpackedFloat.pack .binary64 (.finite .positive m e hm) =
      if 2 ^ 11 ≤ (e + (1023 : Nat) + (52 : Nat)).toNat + 1 then packedInfinity .binary64 .positive
      else if m.log2 + 1 = 53 then
        packComponents .binary64 .positive (.ofNat 11 (e + (1023 : Nat) + (52 : Nat)).toNat)
          (.ofNat 52 m)
      else packComponents .binary64 .positive 0 (.ofNat 52 m) := rfl
  -- the exponent is raised by one, and that is the leading bit of the mantissa
  have hbiased : (e + (1023 : Nat) + (52 : Nat)).toNat = (e + 1074).toNat + 1 := by omega
  have hsign : Sign.positive.toBitVec.toNat = 0 := rfl
  rw [hpack, hbiased, if_neg (by omega), if_pos (by omega), packComponents, BitVec.toNat_append,
    BitVec.toNat_append, BitVec.toNat_ofNat, BitVec.toNat_ofNat, hsign, Nat.zero_shiftLeft,
    Nat.zero_or]
  rw [← Nat.shiftLeft_add_eq_or_of_lt (Nat.mod_lt _ (Nat.two_pow_pos 52)), Nat.shiftLeft_eq]
  omega

theorem finite_congr {s : Sign} {m m' : Nat} {e e' : Int} {h : 0 < m} {h' : 0 < m'} (hm : m = m')
    (he : e = e') : UnpackedFloat.finite s m e h = .finite s m' e' h' := by
  subst hm he
  rfl

/-- Rounding shifts twice, the second time after a carry. -/
theorem roundWithAccuracy_eq {m j k : Nat} {e : Int} (hlog : m.log2 = 52 + j)
    (he : -1074 ≤ e + (j : Int)) (hlog' : (halfEven m j).log2 = 52 + k)
    (hpos : 0 < halfEven m j / 2 ^ k) :
    roundWithAccuracy .binary64 .positive m e .exact =
      .finite .positive (halfEven m j / 2 ^ k) (e + (j : Int) + (k : Int)) hpos := by
  have he' : -1074 ≤ e + (j : Int) + (k : Int) := by omega
  have hshifted : shiftToTargetExponent .binary64
      (shiftToTargetExponent .binary64 m e .exact).1.roundedMantissa
      (shiftToTargetExponent .binary64 m e .exact).2 .exact =
        ((⟨halfEven m j, false, false⟩ : ExtendedMantissa) >>> k,
          e + (j : Int) + (k : Int)) := by
    rw [shiftToTargetExponent_eq hlog he, roundedMantissa_shiftRight,
      shiftToTargetExponent_eq hlog' he']
  have hmantissa := (congrArg (·.1.mantissa) hshifted).trans (mantissa_shiftRight (halfEven m j) k)
  rw [roundWithAccuracy]
  exact (dif_neg (hmantissa ▸ Nat.ne_of_gt hpos)).trans
    (finite_congr hmantissa (congrArg (·.2) hshifted))

/-- The bits of a rounded number are its exponent and its significand, added up. -/
theorem toNat_pack_round {m j : Nat} {e : Int} (hm : m ≠ 0) (hlog : m.log2 = 52 + j)
    (hlo : -1074 ≤ e + (j : Int)) (hhi : e + (j : Int) < 900) :
    (UnpackedFloat.pack .binary64 (roundWithAccuracy .binary64 .positive m e .exact)).toNat =
      (e + (j : Int) + 1074).toNat * 2 ^ 52 + halfEven m j := by
  obtain ⟨hle, hle'⟩ := halfEven_bounds hm hlog
  obtain hlt | hcarry : halfEven m j < 2 ^ 53 ∨ halfEven m j = 2 ^ 53 := by omega
  · have hlog' : (halfEven m j).log2 = 52 + 0 := (Nat.log2_eq_iff (by omega)).2 ⟨by omega, hlt⟩
    rw [roundWithAccuracy_eq hlog hlo hlog' (by omega),
      toNat_pack_finite _ (by simpa using hlog') (by omega) (by omega)]
    omega
  · -- after a carry the mantissa is a power of two, and half of it has the exponent after
    have hlog' : (halfEven m j).log2 = 52 + 1 := by
      rw [hcarry, Nat.log2_two_pow]
    rw [roundWithAccuracy_eq hlog hlo hlog' (by omega),
      toNat_pack_finite _ (by rw [hcarry]; decide) (by omega) (by omega)]
    omega

/-- An integer is rounded once scaled to at least 53 bits. -/
theorem round_eq (n : Nat) :
    UnpackedFloat.round .binary64 .positive n 0 =
      roundWithAccuracy .binary64 .positive (n * 2 ^ (52 - n.log2)) (-((52 - n.log2 : Nat) : Int))
        .exact := by
  have htarget : Format.targetExponent .binary64 (totalExponent n 0) = (n.log2 : Int) - 52 := by
    rw [targetExponent_totalExponent]
    omega
  have hshift : (-((n.log2 : Int) - 52)).toNat = 52 - n.log2 := by omega
  simp only [UnpackedFloat.round, htarget, decreaseExponent, hshift, Nat.shiftLeft_eq, Int.zero_sub]

theorem toNat_pack_ofUInt64 (n : UInt64) :
    (UnpackedFloat.pack .binary64 (UnpackedFloat.ofUInt64 .binary64 n)).toNat =
      nearestMagnitude n.toNat := by
  rw [UnpackedFloat.ofUInt64, UnpackedFloat.ofNat, UnpackedFloat.ofInt,
    UnpackedFloat.normalize, nearestMagnitude]
  by_cases hzero : n.toNat = 0
  · rw [if_pos hzero, hzero]
    rfl
  · have hgt : compare (n.toNat : Int) 0 = .gt := Int.compare_eq_gt.2 (by omega)
    have hlog : n.toNat.log2 < 64 := (Nat.log2_lt hzero).2 n.toNat_lt
    rw [if_neg hzero, hgt]
    change (UnpackedFloat.pack .binary64
      (UnpackedFloat.round .binary64 .positive n.toNat 0)).toNat = _
    rw [round_eq, toNat_pack_round (scaled_ne_zero hzero _) (log2_scaled hzero) (by omega)
      (by omega), nearestSignificand]
    congr 2
    omega

/-! ### Growth -/

/-- The nearest doubles are in the order of the integers. -/
theorem nearestMagnitude_mono {m n : Nat} (h : m ≤ n) :
    nearestMagnitude m ≤ nearestMagnitude n := by
  rw [nearestMagnitude, nearestMagnitude]
  by_cases hm : m = 0
  · rw [if_pos hm]
    exact Nat.zero_le _
  · have hn : n ≠ 0 := by omega
    rw [if_neg hm, if_neg hn]
    have hlog : m.log2 ≤ n.log2 := (Nat.le_log2 hn).2 (Nat.le_trans (Nat.log2_self_le hm) h)
    obtain hlt | heq := Nat.lt_or_eq_of_le hlog
    · -- a carry of the smaller significand is made up by the exponent
      have hbound := (nearestSignificand_bounds hm).2
      have hbound' := (nearestSignificand_bounds hn).1
      omega
    · rw [heq]
      refine Nat.add_le_add_left ?_ _
      rw [nearestSignificand, nearestSignificand, heq]
      exact halfEven_mono (Nat.mul_le_mul_right _ h) _

/-- A significand of at most 53 bits is exact. -/
theorem nearestSignificand_eq {n : Nat} (h : n.log2 ≤ 52) :
    nearestSignificand n = n * 2 ^ (52 - n.log2) := by
  rw [nearestSignificand, Nat.sub_eq_zero_of_le h, halfEven_zero]

/-- Up to `2 ^ 53` the nearest doubles are all different. -/
theorem nearestMagnitude_lt {m n : Nat} (h : m < n) (hn : n ≤ 2 ^ 53) :
    nearestMagnitude m < nearestMagnitude n := by
  have hn0 : n ≠ 0 := by omega
  have hbound := (nearestSignificand_bounds hn0).1
  rw [nearestMagnitude, nearestMagnitude, if_neg hn0]
  by_cases hm : m = 0
  · rw [if_pos hm]
    omega
  · rw [if_neg hm]
    have hm52 : m.log2 ≤ 52 := Nat.le_of_lt_succ ((Nat.log2_lt hm).2 (by omega))
    have hlog : m.log2 ≤ n.log2 :=
      (Nat.le_log2 hn0).2 (Nat.le_trans (Nat.log2_self_le hm) (Nat.le_of_lt h))
    obtain hlt | heq := Nat.lt_or_eq_of_le hlog
    · have hscaled := Nat.lt_log2_self (n := m * 2 ^ (52 - m.log2))
      rw [log2_scaled hm, Nat.sub_eq_zero_of_le hm52] at hscaled
      rw [nearestSignificand_eq hm52]
      omega
    · rw [heq]
      refine Nat.add_lt_add_left ?_ _
      rw [nearestSignificand_eq hm52, nearestSignificand_eq (heq ▸ hm52), heq]
      exact Nat.mul_lt_mul_of_pos_right h (Nat.two_pow_pos _)

theorem nearestMagnitude_lt_infinite {n : Nat} (h : n < 2 ^ 64) :
    nearestMagnitude n < Double.infiniteMagnitude := by
  rw [nearestMagnitude, Double.infiniteMagnitude]
  by_cases hzero : n = 0
  · rw [if_pos hzero]
    decide
  · have hlog : n.log2 < 64 := (Nat.log2_lt hzero).2 h
    have hbound := (nearestSignificand_bounds hzero).2
    rw [if_neg hzero]
    omega

/-! ### Places in the numeric order -/

/-- The place in the numeric order of the double nearest to an integer. -/
def nearestPosition (i : Int) : Int :=
  if i < 0 then -(nearestMagnitude i.natAbs : Int) else nearestMagnitude i.natAbs

theorem nearestPosition_mono {i j : Int} (h : i ≤ j) :
    nearestPosition i ≤ nearestPosition j := by
  rw [nearestPosition, nearestPosition]
  by_cases hi : i < 0
  · by_cases hj : j < 0
    · -- below zero the magnitudes run the other way
      have hmag : nearestMagnitude j.natAbs ≤ nearestMagnitude i.natAbs :=
        nearestMagnitude_mono (by omega)
      rw [if_pos hi, if_pos hj]
      omega
    · rw [if_pos hi, if_neg hj]
      omega
  · have hmag : nearestMagnitude i.natAbs ≤ nearestMagnitude j.natAbs :=
      nearestMagnitude_mono (by omega)
    rw [if_neg hi, if_neg (by omega)]
    omega

/-- Integers of at most 53 bits are all at different places. -/
theorem nearestPosition_lt {i j : Int} (h : i < j) (hi : i.natAbs ≤ 2 ^ 53)
    (hj : j.natAbs ≤ 2 ^ 53) : nearestPosition i < nearestPosition j := by
  rw [nearestPosition, nearestPosition]
  by_cases hneg : i < 0
  · by_cases hneg' : j < 0
    · have hmag : nearestMagnitude j.natAbs < nearestMagnitude i.natAbs :=
        nearestMagnitude_lt (by omega) hi
      rw [if_pos hneg, if_pos hneg']
      omega
    · have hmag : nearestMagnitude 0 < nearestMagnitude i.natAbs :=
        nearestMagnitude_lt (by omega) hi
      rw [if_pos hneg, if_neg hneg']
      omega
  · have hmag : nearestMagnitude i.natAbs < nearestMagnitude j.natAbs :=
      nearestMagnitude_lt (by omega) hj
    rw [if_neg hneg, if_neg (by omega)]
    omega

namespace Double

/-- The bits of the double nearest to an unsigned integer. -/
theorem toNat_ofUInt64 (n : UInt64) : (ofUInt64 n).bits.toNat = nearestMagnitude n.toNat :=
  toNat_pack_ofUInt64 n

theorem magnitude_ofUInt64 (n : UInt64) : (ofUInt64 n).magnitude = nearestMagnitude n.toNat := by
  have hbound := nearestMagnitude_lt_infinite n.toNat_lt
  rw [magnitude, toNat_ofUInt64]
  exact Nat.mod_eq_of_lt (Nat.lt_trans hbound (by decide))

theorem isNegative_ofUInt64 (n : UInt64) : (ofUInt64 n).isNegative = false := by
  have hbound := nearestMagnitude_lt_infinite n.toNat_lt
  rw [isNegative, toNat_ofUInt64]
  exact decide_eq_false (Nat.not_le_of_lt (Nat.lt_trans hbound (by decide)))

theorem position_ofUInt64 (n : UInt64) : (ofUInt64 n).position = nearestPosition n.toNat := by
  rw [position, isNegative_ofUInt64, magnitude_ofUInt64, nearestPosition,
    if_neg (by decide),
    if_neg (by omega), Int.natAbs_natCast]

theorem isNaN_ofUInt64 (n : UInt64) : (ofUInt64 n).isNaN = false := by
  have hbound := nearestMagnitude_lt_infinite n.toNat_lt
  rw [isNaN, magnitude_ofUInt64]
  exact decide_eq_false (by omega)

/-! Changing the sign of a number that is not negative. -/

/-- Setting a bit above all others adds it. -/
theorem xor_two_pow {a k : Nat} (h : a < 2 ^ k) : a ^^^ 2 ^ k = a + 2 ^ k := by
  have hor : a + 2 ^ k = 2 ^ k ||| a := by
    simpa [Nat.add_comm] using Nat.two_pow_add_eq_or_of_lt h 1
  rw [hor]
  apply Nat.eq_of_testBit_eq
  intro j
  rw [Nat.testBit_xor, Nat.testBit_or, Nat.testBit_two_pow]
  by_cases hj : k = j
  · rw [← hj, Nat.testBit_lt_two_pow h]
    simp
  · simp [hj]

theorem toNat_neg {x : Double} (h : x.isNegative = false) :
    x.neg.bits.toNat = x.bits.toNat + 2 ^ 63 := by
  rw [neg, UInt64.toNat_xor]
  exact xor_two_pow (Nat.not_le.1 (of_decide_eq_false h))

theorem magnitude_neg {x : Double} (h : x.isNegative = false) : x.neg.magnitude = x.magnitude := by
  rw [magnitude, magnitude, toNat_neg h]
  exact Nat.add_mod_right ..

theorem isNegative_neg {x : Double} (h : x.isNegative = false) : x.neg.isNegative = true := by
  rw [isNegative, toNat_neg h]
  exact decide_eq_true (Nat.le_add_left _ _)

theorem position_neg {x : Double} (h : x.isNegative = false) : x.neg.position = -x.position := by
  rw [position, position, isNegative_neg h, magnitude_neg h, h, if_pos rfl, if_neg (by decide)]

theorem position_ofInt64 (i : Int64) : (ofInt64 i).position = nearestPosition i.toInt := by
  have hsize : i.toInt.natAbs.toUInt64.toNat = i.toInt.natAbs := by
    have hlo := i.le_toInt
    have hhi := i.toInt_lt
    rw [Nat.toUInt64, UInt64.toNat_ofNat']
    omega
  have hsign : i < 0 ↔ i.toInt < 0 := Int64.lt_iff_toInt_lt
  rw [ofInt64, nearestPosition]
  by_cases hneg : i < 0
  · rw [if_pos hneg, if_pos (hsign.1 hneg), position_neg (isNegative_ofUInt64 _),
      position_ofUInt64, hsize, nearestPosition, if_neg (by omega), Int.natAbs_natCast]
  · rw [if_neg hneg, if_neg (fun h => hneg (hsign.2 h)), position_ofUInt64, hsize,
      nearestPosition, if_neg (by omega), Int.natAbs_natCast]

theorem isNaN_ofInt64 (i : Int64) : (ofInt64 i).isNaN = false := by
  rw [ofInt64]
  split
  · rw [isNaN, magnitude_neg (isNegative_ofUInt64 _)]
    exact isNaN_ofUInt64 _
  · exact isNaN_ofUInt64 _

end Double

end RecordView
