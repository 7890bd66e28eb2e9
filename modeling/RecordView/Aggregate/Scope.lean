import RecordView.Expr.Chain
import RecordView.Expr.Typing

/-!
# Scoping a predicate to one facet

A composite record has a field for every facet.  `Lambda.scope` cuts a predicate of composites down
to the part that one facet can answer alone, as a predicate of the facet's models: what does not
mention the composite stays as it is; chains through the facet's own field lose that field; and a
quantifier over a collection facet becomes its body, read of one element.  Connectives keep
whichever side survives, and every other node survives only with all of its parts.  When nothing
survives the predicate is `true`.
-/

namespace RecordView

namespace Expr

mutual

/-- Replaces the free occurrences of one parameter by another. -/
def rebind (source target : Param) : Expr → Expr
  | parameter p => parameter (if p == source then target else p)
  | access base name owner => access (base.rebind source target) name owner
  | binary op left right => binary op (left.rebind source target) (right.rebind source target)
  | unary op e => unary op (e.rebind source target)
  | constant v => constant v
  | call method callee args =>
    call method (callee.rebind source target) (rebindAll source target args)
  | lambda p body => if p == source then lambda p body else lambda p (body.rebind source target)

/-- Replaces the free occurrences of a parameter in every argument of a call. -/
def rebindAll (source target : Param) : List Expr → List Expr
  | [] => []
  | e :: es => e.rebind source target :: rebindAll source target es

end

end Expr

/-- One facet as seen by scoping: the composite's parameter, the parameter for the facet's models,
the field of the composite, and whether the field is a collection. -/
structure FacetScope where
  outer : Param
  inner : Param
  field : String
  many : Bool

namespace FacetScope

/-- A chain through the field of a single-record facet, without that field. -/
def chain? (s : FacetScope) (e : Expr) : Option Expr :=
  if s.many then none
  else
    match e.fieldChain? s.outer with
    | some (head :: next :: rest) =>
      if head == s.field then some ((Expr.parameter s.inner).chain (next :: rest)) else none
    | _ => none

/-- The body of a quantifier over a collection facet, read of one element.  It must not mention the
composite. -/
def element? (s : FacetScope) (target : Expr) (args : List Expr) : Option Expr :=
  if s.many && (target.fieldChain? s.outer == some [s.field]) then
    match args with
    | [.lambda p body] =>
      let body := body.rebind p s.inner
      if body.references s.outer then none else some body
    | _ => none
  else none

/-- What survives of a connective. -/
def join (c : Connective) : Option Expr → Option Expr → Option Expr
  | some l, some r => some (.binary (.connective c) l r)
  | some l, none => some l
  | none, r => r

mutual

/-- The part of an expression that the facet can answer alone. -/
def prune (s : FacetScope) : Expr → Option Expr
  | .parameter p => if p == s.outer then none else some (.parameter p)
  | .constant v => some (.constant v)
  | .lambda p body => if body.references s.outer then none else some (.lambda p body)
  | .access base name owner =>
    if base.references s.outer then s.chain? (.access base name owner)
    else some (.access base name owner)
  | .binary op left right =>
    if left.references s.outer || right.references s.outer then
      match op with
      | .connective c => join c (s.prune left) (s.prune right)
      | op => do
        let left ← s.prune left
        let right ← s.prune right
        return .binary op left right
    else some (.binary op left right)
  | .unary op operand =>
    if operand.references s.outer then
      -- conversions around a chain go with the field that the chain loses
      if op.isConversion && (operand.fieldChain? s.outer).isSome then s.chain? operand
      else (s.prune operand).map (.unary op)
    else some (.unary op operand)
  | .call method target args =>
    if target.references s.outer || Expr.anyReferences s.outer args then
      match method with
      | .any => s.element? target args
      | method => do
        let target ← s.prune target
        let args ← s.pruneAll args
        return .call method target args
    else some (.call method target args)

/-- The arguments of a call, if all of them survive. -/
def pruneAll (s : FacetScope) : List Expr → Option (List Expr)
  | [] => some []
  | e :: es => do
    let e ← s.prune e
    let es ← s.pruneAll es
    return e :: es

end

end FacetScope

/-- The part of a predicate of composites that the facet in `field` can answer alone, as a
predicate of the facet's models. -/
def Lambda.scope (global : Lambda) (field : String) (schema : Schema) (many : Bool) : Lambda :=
  let inner : Param := ⟨global.param.name, schema⟩
  ⟨inner, ((FacetScope.mk global.param inner field many).prune global.body).getD
    (.constant (.bool true))⟩

end RecordView
