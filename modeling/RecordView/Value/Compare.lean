import RecordView.Value.Basic

/-!
# Comparing values

Three comparisons of values, all with numbers compared across kinds:

* `Value.compareEq` is equality; it is undefined on values of different sorts, so that its caller
  decides what an invalid comparison means;
* `Value.compareOrder` is the order on Booleans, texts and numbers, undefined elsewhere;
* `Value.canonicalCmp` compares any two values and is used to sort rows: first by sort, null
  before all, then within the sort.
-/

namespace RecordView

/-- A number as seen by comparisons. -/
inductive Number
  | int (i : Int64)
  | uint (n : UInt64)
  | float (x : Double)
deriving DecidableEq

namespace Number

/-- The integer behind a number that is no float. -/
def integer? : Number → Option Int
  | int i => some i.toInt
  | uint n => some n.toNat
  | float _ => none

/-- The number as a double, rounded if need be. -/
def toDouble : Number → Double
  | int i => .ofInt64 i
  | uint n => .ofUInt64 n
  | float x => x

/-- Integers compare exactly; next to a float both sides compare as doubles. -/
def compare? (a b : Number) : Option Ordering :=
  match a.integer?, b.integer? with
  | some i, some j => some (compare i j)
  | _, _ => a.toDouble.compare? b.toDouble

end Number

namespace Value

/-- The number, if the value is one. -/
def number? : Value → Option Number
  | int i => some (.int i)
  | uint n => some (.uint n)
  | float x => some (.float x)
  | _ => none

/-- The order of two values that are both numbers. -/
def compareNumbers (a b : Value) : Option Ordering :=
  match a.number?, b.number? with
  | some m, some n => m.compare? n
  | _, _ => none

/-! ### Equality -/

mutual

/-- Equality, with null equal only to null and undefined on values of different sorts. -/
def compareEq : Value → Value → Option Bool
  | null, null => some true
  | null, _ => some false
  | _, null => some false
  | bool a, bool b => some (a == b)
  | text a, text b => some (a == b)
  | list as, list bs => if as.length = bs.length then compareEqAll as bs else some false
  | a, b => (compareNumbers a b).map (·.isEq)

/-- Equality of lists, decided by the first pair that is not equal. -/
def compareEqAll : List Value → List Value → Option Bool
  | a :: as, b :: bs =>
    match compareEq a b with
    | some true => compareEqAll as bs
    | result => result
  | _, _ => some true

end

/-! ### Order -/

/-- The order of two Booleans, two texts or two numbers. -/
def compareOrder : Value → Value → Option Ordering
  | bool a, bool b => some (compare a b)
  | text a, text b => some (compare a b)
  | a, b => compareNumbers a b

/-- The place of a value's sort among the sorts. -/
def rank : Value → Nat
  | null => 0
  | bool _ => 1
  | int _ | uint _ | float _ => 2
  | text _ => 3
  | list _ => 4

mutual

/-- The comparison by which rows are sorted. -/
def canonicalCmp : Value → Value → Ordering
  | list as, list bs => canonicalCmpAll as bs
  | float x, float y => x.compareTotal y
  | a, b => (compare a.rank b.rank).then ((compareOrder a b).getD .eq)

/-- Lists compare item by item, and a shorter list comes before its extensions. -/
def canonicalCmpAll : List Value → List Value → Ordering
  | [], [] => .eq
  | [], _ :: _ => .lt
  | _ :: _, [] => .gt
  | a :: as, b :: bs => (canonicalCmp a b).then (canonicalCmpAll as bs)

end

/-- Whether `a` does not come after `b` when rows are sorted. -/
def canonicalLE (a b : Value) : Bool := (canonicalCmp a b).isLE

end Value

end RecordView
