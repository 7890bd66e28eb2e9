import RecordView.Aggregate.Scope
import RecordView.Service.Call

/-!
# Facets

A facet binds one field of a composite to the service that serves it, and knows how to find its
entities in a row of a join and how to put their models into the composite.  For every call a facet
is attached: its part of the predicate is loaded, and the join sees the rows.
-/

namespace RecordView

/-- Where a facet's entities are in a join row of type `J`, and where their models go in a
composite. -/
inductive FacetAccess (J : Type)
  /-- At most one entity. -/
  | one (read : J → Option Record) (write : Record → Record → Record)
  /-- A collection of entities. -/
  | many (read : J → List Record) (write : Record → List Record → Record)

/-- One field of a composite and the service that serves it. -/
structure Facet (σ J : Type) where
  field : String
  service : Service σ
  access : FacetAccess J
  /-- Key facets are attached before the others. -/
  isKey : Bool

/-- The rows that a facet contributes to one call. -/
structure AttachedFacet where
  field : String
  entity : Schema
  filter : Option Lambda
  rows : List Record
deriving Inhabited

namespace AttachedFacet

/-- Whether the facet has a predicate that narrows it: any but the literal `true`. -/
def hasClause (a : AttachedFacet) : Bool :=
  match a.filter with
  | none => false
  | some f =>
    match f.constantBool? with
    | some b => !b
    | none => true

/-- The event of the facet being attached. -/
def event (a : AttachedFacet) : Event := .facet a.field a.rows.length a.hasClause

end AttachedFacet

/-- The facets attached for one call, in the order of attachment. -/
abbrev AttachedFacets := List AttachedFacet

namespace AttachedFacets

/-- The facet of a field. -/
def get? (facets : AttachedFacets) (field : String) : Option AttachedFacet :=
  facets.find? (·.field == field)

/-- The entities loaded for a field, which have to be of the given schema. -/
def rowsOf (facets : AttachedFacets) (entity : Schema) (field : String) :
    Except Error (List Record) :=
  match get? facets field with
  | none => .error (.configuration .aggregation ("no facet attached for field '" ++ field ++ "'"))
  | some a =>
    if a.entity == entity then .ok a.rows
    else
      .error (.configuration .aggregation
        ("facet '" ++ field ++ "' does not hold " ++ entity.path ++ " rows"))

/-- Whether the facet of a field has a predicate that narrows it. -/
def hasClause (facets : AttachedFacets) (field : String) : Bool :=
  (get? facets field).any (·.hasClause)

end AttachedFacets

namespace Facet

variable {σ J : Type}

/-- Whether the facet is a collection. -/
def isMany (f : Facet σ J) : Bool :=
  match f.access with
  | .one _ _ => false
  | .many _ _ => true

/-- The kind that the composite's field has to have. -/
def expectedKind (f : Facet σ J) : FieldKind :=
  if f.isMany then .records f.service.model else .record f.service.model

/-- Loads the entities for the facet's part of a predicate. -/
def attach (f : Facet σ J) (store : σ) (global : Option Lambda) : Except Error AttachedFacet := do
  let filter := global.map fun g => g.scope f.field f.service.model f.isMany
  let rows ← f.service.load store filter
  return ⟨f.field, f.service.entity, filter, rows⟩

/-- The entity path behind a chain of the facet's model fields. -/
def orderPath (f : Facet σ J) (names : List String) : Except Error FieldPath := do
  let m ← (f.service.mappings.find .modelToEntity names).mapError MappingError.toError
  return m.entity

/-- The value of an entity path in a join row, null when the row has no such entity. -/
def orderKey (f : Facet σ J) (path : FieldPath) (row : J) : Except Error Value :=
  match f.access with
  | .one read _ =>
    match read row with
    | some entity => .ok (path.read entity)
    | none => .ok .null
  | .many _ _ =>
    .error (.plain .invariantViolation .aggregation
      ("collection facet '" ++ f.field ++ "' has no single order key"))

/-- Puts the models of a join row's entities into a composite. -/
def project (f : Facet σ J) (row : J) (composite : Record) : Except Error Record :=
  match f.access with
  | .one read write =>
    match read row with
    | some entity => (f.service.project entity).map (write composite)
    | none => .ok composite
  | .many read write => ((read row).mapM f.service.project).map (write composite)

end Facet

end RecordView
