/-!
# Schemas and field types

A schema describes one record type: its path, by which it is identified, and its fields in order.
The type of a field is a kind and whether the field may be null.  A field may hold a nested record
or a collection of records, and its kind then carries their schema, so that a chain of field names
can be followed without a record at hand.

Two schemas are the same (`==`) when their paths agree, whatever their fields; types are compared
accordingly.
-/

namespace RecordView

/-- How many bits an integer field stores.  Expressions see only the kind of a field. -/
inductive Width
  | narrow
  | wide
deriving DecidableEq, Repr, Inhabited

mutual

/-- Description of one record type. -/
structure Schema where
  /-- The name by which the schema is identified, also in messages. -/
  path : String
  fields : List Field

/-- A named field of a schema. -/
structure Field where
  name : String
  type : FieldType
  width : Width := .wide

/-- Static type of a field or of an expression. -/
structure FieldType where
  kind : FieldKind
  nullable : Bool

/-- What a field holds, null aside. -/
inductive FieldKind
  /-- Unconstrained. -/
  | any
  | bool
  | int
  | uint
  | float
  | text
  /-- A captured collection of values. -/
  | list
  /-- A nested record. -/
  | record (schema : Schema)
  /-- A collection of nested records. -/
  | records (schema : Schema)

end

instance : Inhabited Schema := ⟨⟨"", []⟩⟩

instance : Inhabited FieldKind := ⟨.any⟩

instance : Inhabited FieldType := ⟨⟨.any, true⟩⟩

instance : Inhabited Field := ⟨⟨"", default, .wide⟩⟩

/-- Schemas are identified by their path. -/
instance : BEq Schema := ⟨fun s t => s.path == t.path⟩

namespace Schema

theorem beq_iff {s t : Schema} : (s == t) = true ↔ s.path = t.path := by
  simp [BEq.beq]

@[simp] theorem beq_self (s : Schema) : (s == s) = true := beq_iff.2 rfl

instance : ReflBEq Schema := ⟨beq_self _⟩

/-- The field called `name`. -/
def field? (s : Schema) (name : String) : Option Field :=
  s.fields.find? (·.name == name)

/-- Whether there is a field called `name`. -/
def hasField (s : Schema) (name : String) : Bool :=
  (s.field? name).isSome

theorem name_of_field? {s : Schema} {name : String} {f : Field} (h : s.field? name = some f) :
    f.name = name := by
  have := List.find?_some h
  simpa using this

end Schema

namespace FieldKind

/-- Equality of kinds, nested schemas compared by path. -/
def beq : FieldKind → FieldKind → Bool
  | .any, .any | .bool, .bool | .int, .int | .uint, .uint | .float, .float | .text, .text
  | .list, .list => true
  | .record s, .record t | .records s, .records t => s == t
  | _, _ => false

instance : BEq FieldKind := ⟨beq⟩

instance : ReflBEq FieldKind where
  rfl {kind} := by
    cases kind with
    | record s => exact s.beq_self
    | records s => exact s.beq_self
    | _ => rfl

/-- Whether values of this kind are numbers. -/
def isNumeric : FieldKind → Bool
  | .int | .uint | .float => true
  | _ => false

/-- Whether a field of this kind holds a value, not records. -/
def isScalar : FieldKind → Bool
  | .record _ | .records _ => false
  | _ => true

/-- Whether a field of this kind holds one nested record. -/
def isRecord : FieldKind → Bool
  | .record _ => true
  | _ => false

end FieldKind

namespace FieldType

instance : BEq FieldType := ⟨fun a b => a.kind == b.kind && a.nullable == b.nullable⟩

instance : ReflBEq FieldType where
  rfl {t} := by
    change (t.kind == t.kind && t.nullable == t.nullable) = true
    simp

/-- A type without null. -/
def required (kind : FieldKind) : FieldType := ⟨kind, false⟩

/-- A type with null. -/
def optional (kind : FieldKind) : FieldType := ⟨kind, true⟩

/-- The type of a field that holds one nested record, which may be absent. -/
def record (schema : Schema) : FieldType := optional (.record schema)

/-- The type of a field that holds a collection of records. -/
def records (schema : Schema) : FieldType := required (.records schema)

/-- The type of predicates. -/
def bool : FieldType := required .bool

/-- The type of an expression about which nothing is known. -/
def unknown : FieldType := optional .any

/-- The same kind with null. -/
def asNullable (t : FieldType) : FieldType := optional t.kind

/-- The same kind without null. -/
def asRequired (t : FieldType) : FieldType := required t.kind

/-- Whether the kind is unconstrained. -/
def isAny (t : FieldType) : Bool :=
  match t.kind with
  | .any => true
  | _ => false

/-- Whether the type is a number or null. -/
def isNullableNumeric (t : FieldType) : Bool := t.nullable && t.kind.isNumeric

/-- The schema of a nested record. -/
def recordSchema? (t : FieldType) : Option Schema :=
  match t.kind with
  | .record s => some s
  | _ => none

/-- The schema of the elements of a collection of records. -/
def recordsSchema? (t : FieldType) : Option Schema :=
  match t.kind with
  | .records s => some s
  | _ => none

end FieldType

end RecordView
