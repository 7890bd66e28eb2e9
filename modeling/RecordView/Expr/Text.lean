import RecordView.Expr.Basic
import RecordView.Schema.Text
import RecordView.Value.Text

/-!
# The text of expressions

Binary operators are always written with parentheses around them, unary ones without.
-/

namespace RecordView

namespace Expr

mutual

/-- The text of an expression. -/
def render : Expr → String
  | parameter p => p.name
  | access base name _ => base.render ++ "." ++ name
  | binary op left right =>
    "(" ++ left.render ++ " " ++ op.symbol ++ " " ++ right.render ++ ")"
  | unary op e =>
    match op with
    | .not => "!" ++ e.render
    | .neg => "-" ++ e.render
    | .convert t => "(" ++ e.render ++ " as " ++ t.render ++ ")"
    | .unwrap => e.render ++ ".unwrap()"
  | constant v => v.render
  | call method target args =>
    target.render ++ "." ++ method.name ++ "(" ++ ", ".intercalate (renderAll args) ++ ")"
  | lambda p body => "|" ++ p.name ++ "| " ++ body.render

/-- The texts of the arguments of a call. -/
def renderAll : List Expr → List String
  | [] => []
  | e :: es => e.render :: renderAll es

end

end Expr

/-- The text of a function. -/
def Lambda.render (f : Lambda) : String :=
  "|" ++ f.param.name ++ "| " ++ f.body.render

end RecordView
