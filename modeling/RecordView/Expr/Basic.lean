import RecordView.Value.Arithmetic

/-!
# Expressions over records

A predicate or selector is a one-parameter function (`Lambda`) whose body is an expression: field
access, operators, constants, and method calls that may take nested functions.  A parameter is
known by its name and schema, and an access node carries the schema that declares its field, so an
expression can be typed and carried over to other schemas without a record at hand.
-/

namespace RecordView

/-- A parameter: its name and the schema of the records it stands for. -/
structure Param where
  name : String
  schema : Schema
deriving Inhabited

/-- Parameters are compared by name and by the path of their schema. -/
instance : BEq Param := ⟨fun p q => p.name == q.name && p.schema == q.schema⟩

theorem Param.beq_iff {p q : Param} :
    (p == q) = true ↔ p.name = q.name ∧ p.schema.path = q.schema.path := by
  change (p.name == q.name && p.schema == q.schema) = true ↔ _
  simp [Schema.beq_iff]

@[simp] theorem Param.beq_self (p : Param) : (p == p) = true := Param.beq_iff.2 ⟨rfl, rfl⟩

/-- Comparisons of two values. -/
inductive Comparison
  | eq | ne | lt | lte | gt | gte
deriving DecidableEq, Repr, Inhabited

/-- Connectives of two predicates. -/
inductive Connective
  | and | or
deriving DecidableEq, Repr, Inhabited

/-- Binary operators. -/
inductive BinaryOp
  | comparison (c : Comparison)
  | connective (c : Connective)
  | arithmetic (a : Arithmetic)
deriving DecidableEq, Inhabited

/-- How the operator is written. -/
def BinaryOp.symbol : BinaryOp → String
  | comparison .eq => "=="
  | comparison .ne => "!="
  | comparison .lt => "<"
  | comparison .lte => "<="
  | comparison .gt => ">"
  | comparison .gte => ">="
  | connective .and => "&&"
  | connective .or => "||"
  | arithmetic .add => "+"
  | arithmetic .sub => "-"
  | arithmetic .mul => "*"
  | arithmetic .div => "/"

/-- Unary operators.  `convert` and `unwrap` only adjust the type of their operand. -/
inductive UnaryOp
  | not
  | neg
  /-- Conversion to a type. -/
  | convert (type : FieldType)
  /-- The operand, which must not be null. -/
  | unwrap

/-- Whether the operator only adjusts the type of its operand. -/
def UnaryOp.isConversion : UnaryOp → Bool
  | .convert _ | .unwrap => true
  | _ => false

/-- Methods of collections and texts. -/
inductive Method
  /-- Some element matches, or there is one. -/
  | any
  /-- Every element matches. -/
  | all
  /-- A part of a text, or an item of a list. -/
  | contains
  | startsWith
  | endsWith
  /-- The number of elements. -/
  | count
deriving DecidableEq, Repr, Inhabited

/-- How the method is written. -/
def Method.name : Method → String
  | .any => "any"
  | .all => "all"
  | .contains => "contains"
  | .startsWith => "starts_with"
  | .endsWith => "ends_with"
  | .count => "count"

/-- The method with a name. -/
def Method.ofName? (name : String) : Option Method :=
  [any, all, contains, startsWith, endsWith, count].find? (·.name == name)

/-- An expression. -/
inductive Expr
  | parameter (p : Param)
  /-- Access to a field; `owner` is the schema that declares it, absent when `base` is no record. -/
  | access (base : Expr) (name : String) (owner : Option Schema)
  | binary (op : BinaryOp) (left right : Expr)
  | unary (op : UnaryOp) (operand : Expr)
  | constant (v : Value)
  | call (method : Method) (target : Expr) (args : List Expr)
  /-- A function, as an argument of a method. -/
  | lambda (p : Param) (body : Expr)
deriving Inhabited

/-- A function of one parameter: a predicate or a selector. -/
structure Lambda where
  param : Param
  body : Expr
deriving Inhabited

namespace Lambda

/-- The function with a constant result. -/
def constant (p : Param) (v : Value) : Lambda := ⟨p, .constant v⟩

/-- The Boolean that the body is, if it is a literal one. -/
def constantBool? (f : Lambda) : Option Bool :=
  match f.body with
  | .constant v => v.bool?
  | _ => none

end Lambda

/-- The value that the expression is, if it is a constant. -/
def Expr.constant? : Expr → Option Value
  | .constant v => some v
  | _ => none

end RecordView
