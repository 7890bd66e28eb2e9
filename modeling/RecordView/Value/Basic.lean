import RecordView.Double.Basic
import RecordView.Schema.Basic

/-!
# Values

A value is what a field holds or an expression computes: null, a scalar, or a captured list of
values.  Integers are 64-bit words, signed and unsigned.
-/

namespace RecordView

/-- A dynamic value. -/
inductive Value
  | null
  | bool (b : Bool)
  | int (i : Int64)
  | uint (n : UInt64)
  | float (x : Double)
  | text (s : String)
  | list (items : List Value)
deriving Inhabited

namespace Value

/-- Whether the value is null. -/
def isNull : Value → Bool
  | null => true
  | _ => false

@[simp] theorem isNull_iff {v : Value} : v.isNull = true ↔ v = .null := by
  cases v <;> simp [isNull]

/-- Whether the value is a number. -/
def isNumeric : Value → Bool
  | int _ | uint _ | float _ => true
  | _ => false

/-- The Boolean, if the value is one. -/
def bool? : Value → Option Bool
  | bool b => some b
  | _ => none

/-- The text, if the value is one. -/
def text? : Value → Option String
  | text s => some s
  | _ => none

/-- The items, if the value is a list. -/
def list? : Value → Option (List Value)
  | list items => some items
  | _ => none

/-- The kind of a value; null is of any kind. -/
def kind : Value → FieldKind
  | null => .any
  | bool _ => .bool
  | int _ => .int
  | uint _ => .uint
  | float _ => .float
  | text _ => .text
  | list _ => .list

/-- The static type of a constant. -/
def type (v : Value) : FieldType := ⟨v.kind, v.isNull⟩

/-- The value of an optional value, null if there is none. -/
def ofOption : Option Value → Value := (·.getD null)

end Value

end RecordView
