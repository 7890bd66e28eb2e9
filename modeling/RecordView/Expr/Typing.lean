import RecordView.Expr.Basic

/-!
# Types of expressions, and builders

`Expr.type` is the static type of an expression; it never fails.  The builders take what they need
to know about their operands from it: `Expr.field` finds the schema that declares the field, and
`Expr.elementParam` the schema of the elements of a collection.
-/

namespace RecordView

/-- The kind of an arithmetic result: a float next to a float, else the kind of the left operand. -/
def FieldKind.join : FieldKind → FieldKind → FieldKind
  | .float, _ => .float
  | _, .float => .float
  | kind, _ => kind

namespace Expr

/-- The static type.  Unknown fields and functions have the unknown type, and what is read through
a record that may be absent may be null. -/
def type : Expr → FieldType
  | parameter p => .required (.record p.schema)
  | access base name owner =>
    match owner.bind (·.field? name) with
    | none => .unknown
    | some f =>
      let outer := base.type
      if outer.nullable && outer.kind.isRecord then f.type.asNullable else f.type
  | binary op left right =>
    match op with
    | .comparison _ | .connective _ => .bool
    | .arithmetic _ =>
      let l := left.type
      let r := right.type
      ⟨l.kind.join r.kind, l.nullable || r.nullable⟩
  | unary op operand =>
    match op with
    | .not => .bool
    | .neg => operand.type
    | .convert t => t
    | .unwrap => operand.type.asRequired
  | constant v => v.type
  | call method _ _ =>
    match method with
    | .count => .required .int
    | _ => .bool
  | lambda _ _ => .unknown

/-! ### Builders -/

/-- Access to a field, declared by the schema of the expression's type. -/
def field (e : Expr) (name : String) : Expr :=
  access e name e.type.recordSchema?

/-- A chain of field accesses. -/
def chain (e : Expr) (names : List String) : Expr :=
  names.foldl field e

/-- A chain of field accesses written with dots. -/
def path (e : Expr) (dotted : String) : Expr :=
  e.chain (dotted.splitOn ".")

/-- The schema of the elements of what is no collection of records; it has no fields. -/
def untyped : Schema := ⟨"<untyped>", []⟩

/-- The parameter for the elements of a collection. -/
def elementParam (e : Expr) (name : String) : Param :=
  ⟨name, e.type.recordsSchema?.getD untyped⟩

/-- Whether some element of a collection matches. -/
def anyElement (e : Expr) (name : String) (body : Expr → Expr) : Expr :=
  call .any e [lambda (e.elementParam name) (body (parameter (e.elementParam name)))]

/-- Whether every element of a collection matches. -/
def allElements (e : Expr) (name : String) (body : Expr → Expr) : Expr :=
  call .all e [lambda (e.elementParam name) (body (parameter (e.elementParam name)))]

/-- Equality. -/
def equals (e f : Expr) : Expr := binary (.comparison .eq) e f

/-- Conjunction. -/
def conj (e f : Expr) : Expr := binary (.connective .and) e f

/-- Whether the expression is null. -/
def isNull (e : Expr) : Expr := e.equals (constant .null)

/-- Whether the expression is not null. -/
def isNotNull (e : Expr) : Expr := binary (.comparison .ne) e (constant .null)

end Expr

/-- The function of a parameter called `x` with the given body. -/
def Lambda.over (schema : Schema) (body : Expr → Expr) : Lambda :=
  ⟨⟨"x", schema⟩, body (.parameter ⟨"x", schema⟩)⟩

end RecordView
