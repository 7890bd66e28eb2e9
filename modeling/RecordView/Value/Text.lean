import RecordView.Double.Text
import RecordView.Text.Quoted
import RecordView.Value.Basic

/-!
# The text of values

An unsigned integer ends in `u`, text is quoted, and a list stands in brackets.
-/

namespace RecordView

namespace Value

mutual

/-- The text of a value. -/
def render : Value → String
  | null => "null"
  | bool b => if b then "true" else "false"
  | int i => toString i.toInt
  | uint n => toString n.toNat ++ "u"
  | float x => x.render
  | text s => Text.quoted s
  | list items => "[" ++ ", ".intercalate (renderAll items) ++ "]"

/-- The texts of the items of a list. -/
def renderAll : List Value → List String
  | [] => []
  | v :: vs => v.render :: renderAll vs

end

end Value

end RecordView
