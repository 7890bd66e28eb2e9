import RecordView.Value.Basic

/-!
# Conversion of values

`Value.cast` converts a value to a kind.  Null converts to every kind; a number converts to
another kind of number when no information is lost; nothing else changes its kind.
-/

namespace RecordView

namespace Value

/-- The greatest magnitude up to which every integer is a double. -/
def exactLimit : Nat := Nat.pow 2 53

/-- An integer as a signed word, if it fits. -/
def int64? (i : Int) : Option Int64 :=
  if Int64.minValue.toInt ≤ i ∧ i ≤ Int64.maxValue.toInt then some (.ofInt i) else none

/-- An integer as an unsigned word, if it fits. -/
def uint64? (i : Int) : Option UInt64 :=
  if 0 ≤ i ∧ i < UInt64.size then some i.toNat.toUInt64 else none

/-- The integer equal to a double, when the double is exact there. -/
def exactInt? (x : Double) : Option Int :=
  x.toInt?.filter fun i => i.natAbs ≤ exactLimit

/-- The value as one of the given kind, or `none` where the conversion is undefined or would lose
information. -/
def cast (kind : FieldKind) : Value → Option Value
  | null => some null
  | v =>
    match kind, v with
    | .any, v => some v
    | .bool, bool b => some (bool b)
    | .int, int i => some (int i)
    | .uint, uint n => some (uint n)
    | .float, float x => some (float x)
    | .text, text s => some (text s)
    | .list, list items => some (list items)
    | .int, uint n => (int64? n.toNat).map int
    | .int, float x => ((exactInt? x).bind int64?).map int
    | .uint, int i => (uint64? i.toInt).map uint
    | .uint, float x => ((exactInt? x).bind uint64?).map uint
    | .float, int i => if i.toInt.natAbs ≤ exactLimit then some (float (.ofInt64 i)) else none
    | .float, uint n => if n.toNat ≤ exactLimit then some (float (.ofUInt64 n)) else none
    | _, _ => none

end Value

end RecordView
