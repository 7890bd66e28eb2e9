import RecordView.Double.Shortest

/-!
# The text of a double

A double is written with the fewest digits that read back as the same double.  Positional notation
has at least one digit on either side of the point; from `10 ^ 16` on and below `10 ^ -4` the
number is written with an exponent instead.
-/

namespace RecordView

namespace Double

/-- Whether a number whose first digit stands at `10 ^ place` is written without an exponent. -/
def isPositional (place : Int) : Bool :=
  -4 ≤ place && place < 16

/-- Digits with a point after the one at `10 ^ 0`, where the first digit stands at
`10 ^ place`; zeros are filled in on both sides. -/
def positional (digits : List Char) (place : Int) : List Char :=
  match place with
  | .ofNat n =>
    let whole := digits.take (n + 1)
    let fraction := digits.drop (n + 1)
    whole ++ List.replicate (n + 1 - whole.length) '0' ++ '.' ::
      (if fraction.isEmpty then ['0'] else fraction)
  | .negSucc n => '0' :: '.' :: List.replicate n '0' ++ digits

/-- Digits with a point after the first, when there are more, and the exponent of the first. -/
def scientific (digits : List Char) (place : Int) : List Char :=
  let fraction := digits.drop 1
  digits.take 1 ++ (if fraction.isEmpty then [] else '.' :: fraction) ++
    'e' :: (toString place).toList

/-- The digits of a decimal and the place of the first one. -/
def layout (d : Decimal) : List Char :=
  let digits := Nat.toDigits 10 d.coefficient
  let place := d.exponent + digits.length - 1
  if isPositional place then positional digits place else scientific digits place

/-- The bit pattern in sixteen hexadecimal digits. -/
def hex (x : Double) : String :=
  let digits := Nat.toDigits 16 x.bits.toNat
  String.ofList (List.replicate (16 - digits.length) '0' ++ digits)

/-- The text of a double. -/
def render (x : Double) : String :=
  if x.isNaN then "NaN"
  else
    let size := if x.isFinite then layout x.shortest else ['i', 'n', 'f']
    String.ofList (if x.isNegative then '-' :: size else size)

end Double

end RecordView
