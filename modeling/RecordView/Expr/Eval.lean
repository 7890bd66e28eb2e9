import RecordView.Expr.Text
import RecordView.Record.Basic

/-!
# Evaluation of expressions

An expression denotes a value, a nested record that may be absent, or a collection of records.
Null propagates through field access and arithmetic; a comparison of values that cannot be
compared does not match; everything else that makes no sense is an `EvalError`.

* `Lambda.test` evaluates a predicate, for which null is no match;
* `Lambda.select` evaluates a selector to a value.
-/

namespace RecordView

/-- Why an expression has no result. -/
inductive EvalError
  | parameterMismatch (expected found : String)
  | unboundParameter (name : String)
  | unknownField (record field : String)
  | typeMismatch (expected found : String)
  | lossyConversion (value : Value) (type : FieldType)
  | nullUnwrap (expr : Expr)
  | overflow (expr : Expr)
  | divisionByZero (expr : Expr)
  | unsupported (expr : Expr)

/-- What an expression denotes. -/
inductive Operand
  | value (v : Value)
  | record (r : Option Record)
  | records (rs : List Record)
deriving Inhabited

/-- Parameters bound to records, innermost first. -/
abbrev Env := List (Param × Record)

namespace Env

/-- The record bound innermost to a parameter. -/
def lookup? (env : Env) (p : Param) : Option Record :=
  (env.find? fun binding => binding.1 == p).map (·.2)

end Env

namespace Operand

/-- How an operand of the wrong sort is named. -/
def describe : Operand → String
  | value v => v.render
  | record (some r) => r.schema.path
  | record none => "null record"
  | records rs => toString rs.length ++ " records"

/-- The operand as a value; an absent record is null. -/
def toValue (expected : String) : Operand → Except EvalError Value
  | value v => .ok v
  | record none => .ok .null
  | o => .error (.typeMismatch expected o.describe)

/-- What a field of a record that is absent denotes. -/
def missing (kind : FieldKind) : Operand :=
  match kind with
  | .record _ => record none
  | .records _ => records []
  | _ => value .null

/-- What a field of a record denotes. -/
def present (r : Record) (f : Field) : Operand :=
  match f.type.kind with
  | .record _ => record (r.getRecord? f.name)
  | .records _ => records ((r.getRecords? f.name).getD [])
  | _ => value (.ofOption (r.getValue? f.name))

/-- Access to a field of an operand.  For an absent record the declaring schema decides. -/
def access (base : Operand) (name : String) (owner : Option Schema) : Except EvalError Operand :=
  match base with
  | record (some r) =>
    match r.schema.field? name with
    | some f => .ok (present r f)
    | none => .error (.unknownField r.schema.path name)
  | record none =>
    match owner with
    | none => .ok (value .null)
    | some s =>
      match s.field? name with
      | some f => .ok (missing f.type.kind)
      | none => .error (.unknownField s.path name)
  | o => .error (.typeMismatch "record" o.describe)

/-- The elements of a collection of records; an absent collection has none. -/
def elements : Operand → Except EvalError (List Record)
  | records rs => .ok rs
  | record none => .ok []
  | value .null => .ok []
  | o => .error (.typeMismatch "record collection" o.describe)

/-- Whether a collection, of records or of values, has an element. -/
def hasElement : Operand → Except EvalError Bool
  | value (.list items) => .ok !items.isEmpty
  | o => o.elements.map (!·.isEmpty)

/-- A length as a value. -/
def ofLength (n : Nat) : Value := .int ((Value.int64? n).getD Int64.maxValue)

/-- The number of elements of a collection, null for an absent one. -/
def count : Operand → Except EvalError Value
  | records rs => .ok (ofLength rs.length)
  | value (.list items) => .ok (ofLength items.length)
  | value .null => .ok .null
  | record none => .ok .null
  | o => .error (.typeMismatch "collection" o.describe)

end Operand

namespace Value

/-- The truth of a predicate's result; null is false. -/
def truth : Value → Except EvalError Bool
  | bool b => .ok b
  | null => .ok false
  | v => .error (.typeMismatch "bool" v.render)

/-- The truth of the result of a predicate, negated; null stays null. -/
def negation : Value → Except EvalError Value
  | null => .ok null
  | v => v.truth.map fun b => bool !b

end Value

/-- Whether two values compare as asked; an invalid comparison never does. -/
def Comparison.holds (c : Comparison) (l r : Value) : Bool :=
  match c with
  | .eq => (l.compareEq r).getD false
  | .ne => (l.compareEq r).any (!·)
  | .lt => (l.compareOrder r).any (·.isLT)
  | .lte => (l.compareOrder r).any (·.isLE)
  | .gt => (l.compareOrder r).any (·.isGT)
  | .gte => (l.compareOrder r).any (·.isGE)

/-- Whether the characters occur next to each other in a text. -/
def occursIn (part : List Char) : List Char → Bool
  | [] => part.isEmpty
  | c :: cs => part.isPrefixOf (c :: cs) || occursIn part cs

/-- Whether a text or list has a part, or a text begins or ends with one; an invalid pair never
does. -/
def Method.matchesPart (method : Method) (whole part : Value) : Bool :=
  match method, whole, part with
  | .contains, .text s, .text t => occursIn t.toList s.toList
  | .contains, .list items, v => items.any fun item => (item.compareEq v).getD false
  | .startsWith, .text s, .text t => t.toList.isPrefixOf s.toList
  | .endsWith, .text s, .text t => t.toList.isSuffixOf s.toList
  | _, _, _ => false

namespace ArithmeticFault

/-- The error for an operation in an expression without a result. -/
def toEvalError (expr : Expr) (expected found : String) : ArithmeticFault → EvalError
  | overflow => .overflow expr
  | divisionByZero => .divisionByZero expr
  | notNumeric => .typeMismatch expected found

end ArithmeticFault

/-- The result of arithmetic in an expression. -/
def Arithmetic.evalValues (expr : Expr) (a : Arithmetic) (l r : Value) : Except EvalError Value :=
  let shown := l.render ++ " " ++ (BinaryOp.arithmetic a).symbol ++ " " ++ r.render
  (Value.arithmetic a l r).mapError (·.toEvalError expr "numeric operands" shown)

/-- The result of a unary operator. -/
def UnaryOp.evalValue (expr : Expr) (op : UnaryOp) (v : Value) : Except EvalError Value :=
  match op with
  | .not => v.negation
  | .neg => v.negate.mapError (·.toEvalError expr "numeric" v.render)
  | .convert t =>
    match v.cast t.kind with
    | some w => .ok w
    | none => .error (.lossyConversion v t)
  | .unwrap => if v.isNull then .error (.nullUnwrap expr) else .ok v

namespace Expr

/-- What an expression denotes when its parameters are bound.  Connectives stop at the first
operand that decides them, and quantifiers at the first element. -/
def eval (env : Env) : Expr → Except EvalError Operand
  | parameter p =>
    match env.lookup? p with
    | some r => .ok (.record (some r))
    | none => .error (.unboundParameter p.name)
  | access base name owner => do
    let o ← eval env base
    o.access name owner
  | binary op left right =>
    match op with
    | .connective c => do
      let l ← (← eval env left).toValue "bool"
      let b ← l.truth
      let decided := match c with
        | .and => !b
        | .or => b
      if decided then
        return .value (.bool b)
      else
        let r ← (← eval env right).toValue "bool"
        return .value (.bool (← r.truth))
    | .comparison c => do
      let l ← (← eval env left).toValue "scalar"
      let r ← (← eval env right).toValue "scalar"
      return .value (.bool (c.holds l r))
    | .arithmetic a => do
      let l ← (← eval env left).toValue "scalar"
      let r ← (← eval env right).toValue "scalar"
      return .value (← a.evalValues (binary (.arithmetic a) left right) l r)
  | unary op operand => do
    let v ← (← eval env operand).toValue "scalar"
    return .value (← op.evalValue (unary op operand) v)
  | constant v => .ok (.value v)
  | call method target args => do
    let t ← eval env target
    match method with
    | .any =>
      match args with
      | [] => return .value (.bool (← t.hasElement))
      | [lambda p body] =>
        let rows ← t.elements
        let found ← rows.anyM fun row => do
          let v ← (← eval ((p, row) :: env) body).toValue "bool"
          v.truth
        return .value (.bool found)
      | args => .error (.unsupported (call method target args))
    | .all =>
      match args with
      -- nothing is asked of the elements, but the target has to have elements at all
      | [] => return .value (.bool (← t.hasElement.map fun _ => true))
      | [lambda p body] =>
        let rows ← t.elements
        let held ← rows.allM fun row => do
          let v ← (← eval ((p, row) :: env) body).toValue "bool"
          v.truth
        return .value (.bool held)
      | args => .error (.unsupported (call method target args))
    | .count => return .value (← t.count)
    | method =>
      match args with
      | [arg] =>
        -- an error of the part wins over a target that is no value
        let part ← (← eval env arg).toValue "scalar"
        let whole ← t.toValue "text or list"
        return .value (.bool (method.matchesPart whole part))
      | args => .error (.unsupported (call method target args))
  | lambda p body => .error (.unsupported (lambda p body))
termination_by structural e => e

end Expr

namespace Lambda

/-- The body with the parameter bound to a record of its schema. -/
def apply (f : Lambda) (r : Record) : Except EvalError Operand :=
  if r.schema == f.param.schema then f.body.eval [(f.param, r)]
  else .error (.parameterMismatch f.param.schema.path r.schema.path)

/-- Whether a record satisfies the predicate. -/
def test (f : Lambda) (r : Record) : Except EvalError Bool := do
  let v ← (← f.apply r).toValue "bool"
  v.truth

/-- The value that the selector picks from a record. -/
def select (f : Lambda) (r : Record) : Except EvalError Value := do
  (← f.apply r).toValue "scalar"

end Lambda

namespace EvalError

/-- The message of an evaluation error. -/
def message : EvalError → String
  | parameterMismatch expected found =>
    "lambda over " ++ expected ++ " applied to a " ++ found ++ " record"
  | unboundParameter name => "parameter `" ++ name ++ "` is not bound"
  | unknownField record field => "unknown field '" ++ field ++ "' on " ++ record
  | typeMismatch expected found => "expected " ++ expected ++ ", found `" ++ found ++ "`"
  | lossyConversion v t => "cannot convert " ++ v.render ++ " to " ++ t.render ++ " without loss"
  | nullUnwrap e => "null value unwrapped in `" ++ e.render ++ "`"
  | overflow e => "arithmetic overflow in `" ++ e.render ++ "`"
  | divisionByZero e => "division by zero in `" ++ e.render ++ "`"
  | unsupported e => "unsupported expression `" ++ e.render ++ "`"

end EvalError

end RecordView
