/-!
# Doubles

An IEEE 754 binary64 number, kept as its 64 bits, so that two NaNs of different sign or payload
stay different.  A finite double is `± significand · 2 ^ exponent`.

Two orders are read off the bits as integers:

* `Double.compare?` is the numeric order; it is undefined on NaN and equates the two zeros;
* `Double.compareTotal` orders all bit patterns, negative NaN first and positive NaN last.
-/

namespace RecordView

/-- A double-precision number, given by its bit pattern. -/
structure Double where
  bits : UInt64
deriving DecidableEq, Inhabited

namespace Double

/-! ### Parts of the bit pattern -/

/-- Whether the sign bit is set. -/
def isNegative (x : Double) : Bool :=
  Nat.pow 2 63 ≤ x.bits.toNat

/-- The bit pattern without its sign; it grows with the absolute value. -/
def magnitude (x : Double) : Nat :=
  x.bits.toNat % Nat.pow 2 63

/-- The magnitude of infinity, below which all is finite and above which all is NaN. -/
def infiniteMagnitude : Nat := 0x7ff0000000000000

/-- Whether the number is neither infinite nor NaN. -/
def isFinite (x : Double) : Bool :=
  x.magnitude < infiniteMagnitude

/-- Whether the bit pattern stands for no number. -/
def isNaN (x : Double) : Bool :=
  infiniteMagnitude < x.magnitude

/-- The leading bit of a significand, which the bit pattern leaves out. -/
def implicitBit : Nat := Nat.pow 2 52

/-- The integer `m` in `± m · 2 ^ exponent`. -/
def significand (x : Double) : Nat :=
  if x.magnitude / implicitBit = 0 then x.magnitude else x.magnitude % implicitBit + implicitBit

/-- The exponent `e` in `± significand · 2 ^ e`. -/
def exponent (x : Double) : Int :=
  if x.magnitude / implicitBit = 0 then -1074 else (x.magnitude / implicitBit : Nat) - 1075

/-- The number as an integer, when it is one. -/
def toInt? (x : Double) : Option Int :=
  if x.isFinite then
    let size : Option Nat :=
      match x.exponent with
      | .ofNat e => some (x.significand * Nat.pow 2 e)
      | .negSucc e =>
        if x.significand % Nat.pow 2 (e + 1) = 0 then some (x.significand / Nat.pow 2 (e + 1))
        else none
    size.map fun n => if x.isNegative then -(n : Int) else n
  else
    none

/-! ### Numbers from integers -/

/-- The nearest double to an unsigned integer, ties to the even significand. -/
def ofUInt64 (n : UInt64) : Double :=
  ⟨n.toFloat.toBits⟩

/-- The number with its sign bit flipped. -/
def neg (x : Double) : Double :=
  ⟨x.bits ^^^ 0x8000000000000000⟩

/-- The nearest double to a signed integer, ties to the even significand. -/
def ofInt64 (i : Int64) : Double :=
  if i < 0 then (ofUInt64 i.toInt.natAbs.toUInt64).neg else ofUInt64 i.toInt.natAbs.toUInt64

/-- The double equal to a single-precision number, given by the bits of the latter. -/
def ofSingleBits (bits : UInt32) : Double :=
  let sign : Nat := bits.toNat / Nat.pow 2 31 * Nat.pow 2 63
  let biased := bits.toNat / Nat.pow 2 23 % Nat.pow 2 8
  let fraction := bits.toNat % Nat.pow 2 23
  let magnitude :=
    if biased = 255 then infiniteMagnitude + fraction * Nat.pow 2 29
    else if biased = 0 then
      if fraction = 0 then 0
      else
        (fraction.log2 + 874) * implicitBit +
          (fraction - Nat.pow 2 fraction.log2) * Nat.pow 2 (52 - fraction.log2)
    else (biased + 896) * implicitBit + fraction * Nat.pow 2 29
  ⟨(sign + magnitude).toUInt64⟩

/-! ### Arithmetic -/

/-- The quiet form of a NaN, payload and sign kept. -/
def quiet (x : Double) : Double :=
  ⟨x.bits ||| 0x0008000000000000⟩

/-- The NaN of an operation without a NaN operand, such as `0 / 0`. -/
def invalid : Double := ⟨0xfff8000000000000⟩

/-- An operation on numbers, extended to NaN: the first NaN operand is the result. -/
def lift₂ (op : Float → Float → Float) (x y : Double) : Double :=
  if x.isNaN then x.quiet
  else if y.isNaN then y.quiet
  else
    let result := op (Float.ofBits x.bits) (Float.ofBits y.bits)
    if result.isNaN then invalid else ⟨result.toBits⟩

/-- The rounded sum. -/
def add : Double → Double → Double := lift₂ (· + ·)

/-- The rounded difference. -/
def sub : Double → Double → Double := lift₂ (· - ·)

/-- The rounded product. -/
def mul : Double → Double → Double := lift₂ (· * ·)

/-- The rounded quotient. -/
def div : Double → Double → Double := lift₂ (· / ·)

/-! ### Orders -/

/-- An integer that grows with the number; both zeros are at `0`. -/
def position (x : Double) : Int :=
  if x.isNegative then -(x.magnitude : Int) else x.magnitude

/-- The numeric order, undefined on NaN. -/
def compare? (x y : Double) : Option Ordering :=
  if x.isNaN || y.isNaN then none else some (compare x.position y.position)

/-- An integer that grows with the bit pattern read as a signed magnitude. -/
def totalPosition (x : Double) : Int :=
  if x.isNegative then -(x.magnitude : Int) - 1 else x.magnitude

/-- The total order of bit patterns: negative NaN, negative numbers, `-0`, `0`, positive numbers,
positive NaN. -/
def compareTotal (x y : Double) : Ordering :=
  compare x.totalPosition y.totalPosition

end Double

end RecordView
