import RecordView.Expr.Eval
import RecordView.Expr.Chain
import RecordView.Expr.Typing

/-!
# Field paths

A field path is a chain of fields from a root schema: nested single records all the way, and a leaf
of any type.  It is resolved once against the schemas (`FieldPath.ofNames`, `FieldPath.resolve`)
and then reads and writes records (`FieldPath.read`, `FieldPath.write`) or becomes an expression
again (`FieldPath.toExpr`).
-/

namespace RecordView

/-- Why a mapping could not be declared or found. -/
inductive MappingError
  | notFieldChain (selector : String)
  | unknownField (record field : String)
  | branchingPath (path field : String)
  | nonScalarLeaf (record path : String)
  | rootMismatch (expected found : String)
  | duplicateModelPath (path : String)
  | parameterMismatch (param found expected : String)
  | empty
  | notFound (record path : String)
  | ambiguous (record path : String) (count : Nat)
deriving DecidableEq, Repr, Inhabited

/-- The message of a mapping error. -/
def MappingError.message : MappingError → String
  | notFieldChain selector => "selector `" ++ selector ++ "` is not a field chain on its parameter"
  | unknownField record field => "unknown field '" ++ field ++ "' on " ++ record
  | branchingPath path field =>
    "path `" ++ path ++ "` branches through non-record field '" ++ field ++ "'"
  | nonScalarLeaf record path =>
    "mapped path `" ++ path ++ "` on " ++ record ++ " does not end in a scalar field"
  | rootMismatch expected found => "mapping is rooted at " ++ found ++ ", expected " ++ expected
  | duplicateModelPath path => "model field `" ++ path ++ "` is already mapped"
  | parameterMismatch param found expected =>
    "lambda parameter `" ++ param ++ "` is a " ++ found ++ ", expected " ++ expected
  | empty => "no mapping declared"
  | notFound record path => "no mapping for `" ++ path ++ "` on " ++ record
  | ambiguous record path count =>
    toString count ++ " mappings match `" ++ path ++ "` on " ++ record

/-- One field of a path: its name, the schema that declares it, and its type. -/
structure PathSegment where
  name : String
  owner : Schema
  type : FieldType
deriving Inhabited

instance : BEq PathSegment :=
  ⟨fun a b => a.name == b.name && a.owner == b.owner && a.type == b.type⟩

instance : ReflBEq PathSegment where
  rfl {a} := by
    change (a.name == a.name && a.owner == a.owner && a.type == a.type) = true
    simp

/-- A chain of fields from a root schema; the leaf comes after the hops. -/
structure FieldPath where
  root : Schema
  hops : List PathSegment
  leaf : PathSegment
deriving Inhabited

instance : BEq FieldPath :=
  ⟨fun a b => a.root == b.root && a.hops == b.hops && a.leaf == b.leaf⟩

instance : ReflBEq FieldPath where
  rfl {p} := by
    change (p.root == p.root && p.hops == p.hops && p.leaf == p.leaf) = true
    simp

/-- Field names joined by dots. -/
def dotted (names : List String) : String := ".".intercalate names

namespace FieldPath

/-! ### Resolution -/

/-- The hops and the leaf of a chain of names, each looked up in the schema that the one before it
leads to. -/
def resolveNames (owner : Schema) (whole : List String) :
    List String → Except MappingError (List PathSegment × PathSegment)
  | [] => .error (.notFieldChain owner.path)
  | [name] =>
    match owner.field? name with
    | none => .error (.unknownField owner.path name)
    | some f => .ok ([], ⟨f.name, owner, f.type⟩)
  | name :: rest =>
    match owner.field? name with
    | none => .error (.unknownField owner.path name)
    | some f =>
      match f.type.recordSchema? with
      | none => .error (.branchingPath (dotted whole) f.name)
      | some nested => do
        let (hops, leaf) ← resolveNames nested whole rest
        return (⟨f.name, owner, f.type⟩ :: hops, leaf)

/-- The path with the given names on a root schema. -/
def ofNames (root : Schema) (names : List String) : Except MappingError FieldPath := do
  let (hops, leaf) ← resolveNames root names names
  return ⟨root, hops, leaf⟩

/-- The path that a selector picks, which has to be a field chain on its parameter. -/
def resolve (selector : Lambda) : Except MappingError FieldPath :=
  match selector.fieldChain? with
  | some names => ofNames selector.param.schema names
  | none => .error (.notFieldChain selector.render)

/-! ### Views -/

/-- All fields of the path, the leaf last. -/
def segments (p : FieldPath) : List PathSegment := p.hops ++ [p.leaf]

/-- The field names of the path, the leaf last. -/
def names (p : FieldPath) : List String := p.segments.map (·.name)

/-- The number of fields of the path. -/
def length (p : FieldPath) : Nat := p.hops.length + 1

/-- Whether the path is a field of the root itself. -/
def isSingleHop (p : FieldPath) : Bool := p.hops.isEmpty

/-- The type of the path read from the root; a nested record on the way may be absent. -/
def type (p : FieldPath) : FieldType :=
  if p.isSingleHop then p.leaf.type else p.leaf.type.asNullable

/-- Whether the path has exactly these names. -/
def isNamed (p : FieldPath) (names : List String) : Bool := p.names == names

/-- The path as field accesses on an expression. -/
def toExpr (p : FieldPath) (base : Expr) : Expr :=
  p.segments.foldl (fun e segment => .access e segment.name (some segment.owner)) base

/-- The text of a path. -/
def render (p : FieldPath) : String := dotted p.names

/-! ### Reading and writing records -/

/-- The value reached through the hops; null when a record on the way is absent. -/
def readFrom (leaf : PathSegment) : List PathSegment → Record → Value
  | [], r => .ofOption (r.getValue? leaf.name)
  | hop :: hops, r =>
    match r.getRecord? hop.name with
    | some nested => readFrom leaf hops nested
    | none => .null

/-- The value of the leaf in a record. -/
def read (p : FieldPath) (r : Record) : Value := readFrom p.leaf p.hops r

/-- Writes the value reached through the hops, with defaults for records that are absent on the
way.  A write that fails at the leaf leaves those defaults behind. -/
def writeFrom (leaf : PathSegment) (v : Value) :
    List PathSegment → Record → Except WriteError Unit × Record
  | [], r =>
    match r.setValue leaf.name v with
    | .ok written => (.ok (), written)
    | .error e => (.error e, r)
  | hop :: hops, r =>
    match r.getOrDefault? hop.name with
    | none => (.error (.unknownField hop.owner.path hop.name), r)
    | some nested =>
      let (result, written) := writeFrom leaf v hops nested
      (result, r.setRecord hop.name (some written))

/-- Writes the leaf in a record. -/
def write (p : FieldPath) (r : Record) (v : Value) : Except WriteError Unit × Record :=
  writeFrom p.leaf v p.hops r

/-- The record after a write that has to succeed. -/
def write? (p : FieldPath) (r : Record) (v : Value) : Except WriteError Record :=
  match p.write r v with
  | (.ok (), written) => .ok written
  | (.error e, _) => .error e

end FieldPath

end RecordView
