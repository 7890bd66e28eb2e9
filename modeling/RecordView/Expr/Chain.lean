import RecordView.Expr.Basic

/-!
# Field chains

A field chain on a parameter is one or more field accesses that start at the parameter; conversions
inside it are transparent.  Mappings and order terms name fields by such chains.
-/

namespace RecordView

namespace Expr

/-- The expression without the conversions around it. -/
def stripConversions : Expr → Expr
  | unary op e => if op.isConversion then e.stripConversions else unary op e
  | e => e

/-- The field names from the parameter `p` outwards, none for `p` itself. -/
def namesFrom? (p : Param) : Expr → Option (List String)
  | parameter q => if q == p then some [] else none
  | access base name _ => (base.namesFrom? p).map (· ++ [name])
  | unary op e => if op.isConversion then e.namesFrom? p else none
  | _ => none

/-- The field names of a chain on `p`, outermost last. -/
def fieldChain? (e : Expr) (p : Param) : Option (List String) :=
  (e.namesFrom? p).filter (!·.isEmpty)

mutual

/-- Whether the parameter occurs in the expression. -/
def references (p : Param) : Expr → Bool
  | parameter q => q == p
  | access base _ _ => base.references p
  | binary _ left right => left.references p || right.references p
  | unary _ e => e.references p
  | constant _ => false
  | call _ target args => target.references p || anyReferences p args
  | lambda _ body => body.references p

/-- Whether the parameter occurs in one of the expressions. -/
def anyReferences (p : Param) : List Expr → Bool
  | [] => false
  | e :: es => e.references p || anyReferences p es

end

end Expr

/-- The field names of the body, if it is a chain on the parameter. -/
def Lambda.fieldChain? (f : Lambda) : Option (List String) :=
  f.body.fieldChain? f.param

end RecordView
