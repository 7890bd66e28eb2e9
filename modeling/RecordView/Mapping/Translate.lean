import RecordView.Mapping.Table

/-!
# Functions across a mapping set

A function of a model becomes one of an entity, or the other way round: every field chain on the
parameter is replaced by the path mapped to it, and conversions are dropped and put in anew where
the operands of a binary operator would otherwise differ in type.

The conversions put in (`Expr.coerce`) follow two rules: a number that may be null makes the other
side one that may be null, and of two sides that still differ the right one is converted to the
type of the left.  Numbers of different kinds keep their kinds, because they compare and combine
exactly across kinds.
-/

namespace RecordView

namespace Expr

/-- The expression converted to a type, unless it has the type already or any type will do. -/
def convertTo (e : Expr) (t : FieldType) : Expr :=
  if e.type == t || t.isAny then e else unary (.convert t) e

/-- The type of a side next to a number that may be null: a number keeps its kind. -/
def nullableLike (pull side : FieldType) : FieldType :=
  if side.kind.isNumeric then side.asNullable else pull

/-- Lets a number that may be null make the other side nullable. -/
def pullNullable (left right : Expr) : Expr × Expr :=
  if left.type.isNullableNumeric && !right.type.nullable then
    (left, right.convertTo (nullableLike left.type right.type))
  else if right.type.isNullableNumeric && !left.type.nullable then
    (left.convertTo (nullableLike right.type left.type), right)
  else
    (left, right)

/-- Converts one side to the type of the other where they differ, the right side if possible. -/
def align (left right : Expr) : Expr × Expr :=
  if left.type == right.type || left.type.kind.isNumeric && right.type.kind.isNumeric then
    (left, right)
  else if !left.type.isAny then
    (left, right.convertTo left.type)
  else if !right.type.isAny then
    (left.convertTo right.type, right)
  else
    (left, right)

/-- The binary expression with operands whose types agree. -/
def coerce (op : BinaryOp) (left right : Expr) : Expr :=
  let pulled := pullNullable left right
  let aligned := align pulled.1 pulled.2
  binary op aligned.1 aligned.2

end Expr

namespace MappingSet

mutual

/-- The expression with the chains on `source` replaced by mapped paths on `target`. -/
def translateExpr (set : MappingSet) (direction : Direction) (source target : Param) :
    Expr → Except MappingError Expr
  | .parameter p => .ok (.parameter (if p == source then target else p))
  | .constant v => .ok (.constant v)
  | .access base name owner =>
    match (Expr.access base name owner).fieldChain? source with
    | some names => do
      let m ← set.find direction names
      return (m.target direction).toExpr (.parameter target)
    -- not on the parameter: an element of a collection, or a captured value
    | none => do
      let base ← set.translateExpr direction source target base
      return base.field name
  | .binary op left right => do
    let left ← set.translateExpr direction source target left
    let right ← set.translateExpr direction source target right
    return .coerce op left right
  | .unary op operand =>
    if op.isConversion then set.translateExpr direction source target operand
    else do
      let operand ← set.translateExpr direction source target operand
      return .unary op operand
  | .call method callee args => do
    let callee ← set.translateExpr direction source target callee
    let args ← set.translateArgs direction source target args
    return .call method callee args
  | .lambda p body => do
    let body ← set.translateExpr direction source target body
    return .lambda p body

/-- Translates the arguments of a call in order. -/
def translateArgs (set : MappingSet) (direction : Direction) (source target : Param) :
    List Expr → Except MappingError (List Expr)
  | [] => .ok []
  | e :: es => do
    let e ← set.translateExpr direction source target e
    let es ← set.translateArgs direction source target es
    return e :: es

end

/-- The function on the other side of the mapping set. -/
def translate (set : MappingSet) (direction : Direction) (f : Lambda) :
    Except MappingError Lambda := do
  let (source, target) ← set.roots direction
  if f.param.schema == source then
    let renamed : Param := ⟨f.param.name, target⟩
    let body ← set.translateExpr direction f.param renamed f.body
    return ⟨renamed, body⟩
  else
    .error (.parameterMismatch f.param.name f.param.schema.path source.path)

end MappingSet

end RecordView
