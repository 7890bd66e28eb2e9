import RecordView.Value.Cast
import RecordView.Value.Compare

/-!
# Arithmetic on values

Integer arithmetic is exact or fails: a result that does not fit its word is an overflow, and
signed meets unsigned as signed.  Next to a float everything is a double.  Null absorbs every
operand, and `+` joins two texts.
-/

namespace RecordView

/-- Arithmetic operations. -/
inductive Arithmetic
  | add | sub | mul | div
deriving DecidableEq, Repr, Inhabited

/-- Why an operation has no result. -/
inductive ArithmeticFault
  | overflow
  | divisionByZero
  | notNumeric
deriving DecidableEq, Repr, Inhabited

namespace Arithmetic

/-- The operation on integers; division goes toward zero. -/
def exact (op : Arithmetic) (i j : Int) : Except ArithmeticFault Int :=
  match op with
  | add => .ok (i + j)
  | sub => .ok (i - j)
  | mul => .ok (i * j)
  | div => if j = 0 then .error .divisionByZero else .ok (i.tdiv j)

/-- The operation on doubles. -/
def approximate : Arithmetic → Double → Double → Double
  | add => .add
  | sub => .sub
  | mul => .mul
  | div => .div

/-- The operation on integers whose result has to be a signed word. -/
def signed (op : Arithmetic) (i j : Int) : Except ArithmeticFault Value := do
  let k ← op.exact i j
  match Value.int64? k with
  | some word => .ok (.int word)
  | none => .error .overflow

/-- The operation on integers whose result has to be an unsigned word. -/
def unsigned (op : Arithmetic) (i j : Int) : Except ArithmeticFault Value := do
  let k ← op.exact i j
  match Value.uint64? k with
  | some word => .ok (.uint word)
  | none => .error .overflow

/-- The operation on numbers. -/
def onNumbers (op : Arithmetic) : Number → Number → Except ArithmeticFault Value
  | .int i, .int j => op.signed i.toInt j.toInt
  | .uint m, .uint n => op.unsigned m.toNat n.toNat
  | .int i, .uint n =>
    if (Value.int64? n.toNat).isSome then op.signed i.toInt n.toNat else .error .overflow
  | .uint m, .int j =>
    if (Value.int64? m.toNat).isSome then op.signed m.toNat j.toInt else .error .overflow
  | x, y => .ok (.float (op.approximate x.toDouble y.toDouble))

end Arithmetic

namespace Value

/-- The result of an arithmetic operation. -/
def arithmetic (op : Arithmetic) (l r : Value) : Except ArithmeticFault Value :=
  match l, r with
  | null, _ => .ok null
  | _, null => .ok null
  | text a, text b => if op = .add then .ok (text (a ++ b)) else .error .notNumeric
  | l, r =>
    match l.number?, r.number? with
    | some m, some n => op.onNumbers m n
    | _, _ => .error .notNumeric

/-- The negated value.  An unsigned number becomes a signed one and has to fit before it is
negated. -/
def negate : Value → Except ArithmeticFault Value
  | null => .ok null
  | int i => Arithmetic.sub.signed 0 i.toInt
  | uint n =>
    if (int64? n.toNat).isSome then Arithmetic.sub.signed 0 n.toNat else .error .overflow
  | float x => .ok (float x.neg)
  | _ => .error .notNumeric

end Value

end RecordView
