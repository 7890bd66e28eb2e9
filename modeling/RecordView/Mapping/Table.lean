import RecordView.Mapping.Path

/-!
# Mapping tables

A mapping ties one field path of a model to one field path of an entity.  A mapping set is an
ordered table of mappings between one model schema and one entity schema, in which every model
path occurs once; an entity path may occur more often.  A mapping is added to a new set
(`MappingSet.push`) or in place (`MappingSet.insert`).  Lookup is by field names, in either direction.
-/

namespace RecordView

/-- The two ways across a mapping. -/
inductive Direction
  | modelToEntity
  | entityToModel
deriving DecidableEq, Repr, Inhabited

/-- The opposite way. -/
def Direction.reverse : Direction → Direction
  | modelToEntity => entityToModel
  | entityToModel => modelToEntity

/-- A model path and an entity path that hold the same information. -/
structure Mapping where
  model : FieldPath
  entity : FieldPath
  /-- Whether the mapping is part of the identity of an entity. -/
  isKey : Bool
deriving Inhabited

namespace Mapping

/-- A path that can be mapped, which ends in a scalar field. -/
def scalarPath (p : FieldPath) : Except MappingError Unit :=
  if p.leaf.type.kind.isScalar then .ok () else .error (.nonScalarLeaf p.root.path p.render)

/-- The mapping between the paths that two selectors pick. -/
def ofSelectors (model entity : Lambda) : Except MappingError Mapping := do
  let model ← FieldPath.resolve model
  let entity ← FieldPath.resolve entity
  scalarPath model
  scalarPath entity
  return ⟨model, entity, false⟩

/-- The mapping as part of the identity. -/
def asKey (m : Mapping) : Mapping := { m with isKey := true }

/-- The path on the side that is read. -/
def source (m : Mapping) : Direction → FieldPath
  | .modelToEntity => m.model
  | .entityToModel => m.entity

/-- The path on the side that is written. -/
def target (m : Mapping) : Direction → FieldPath
  | .modelToEntity => m.entity
  | .entityToModel => m.model

end Mapping

/-- A table of mappings between a model and an entity schema, the roots. -/
structure MappingSet where
  mappings : List Mapping
  /-- The model and the entity schema, set by the first mapping. -/
  roots? : Option (Schema × Schema)
deriving Inhabited

namespace MappingSet

/-- The table without mappings. -/
def empty : MappingSet := ⟨[], none⟩

/-- A root has to be the one that the table is for. -/
def matchRoot (expected found : Schema) : Except MappingError Unit :=
  if expected == found then .ok () else .error (.rootMismatch expected.path found.path)

/-- Adds a mapping at the end. -/
def push (set : MappingSet) (m : Mapping) : Except MappingError MappingSet := do
  match set.roots? with
  | none => pure ()
  | some (model, entity) =>
    matchRoot model m.model.root
    matchRoot entity m.entity.root
  if set.mappings.any fun old => old.model == m.model then
    .error (.duplicateModelPath m.model.render)
  else
    .ok ⟨set.mappings ++ [m], some (set.roots?.getD (m.model.root, m.entity.root))⟩

/-- Adds a mapping in place: the answer, and the set that is left behind.  The first mapping sets the
roots, and does so before model paths are compared. -/
def insert (set : MappingSet) (m : Mapping) : Except MappingError Unit × MappingSet :=
  match set.roots? with
  | none => add { set with roots? := some (m.model.root, m.entity.root) }
  | some (model, entity) =>
    match matchRoot model m.model.root with
    | .error e => (.error e, set)
    | .ok () =>
      match matchRoot entity m.entity.root with
      | .error e => (.error e, set)
      | .ok () => add set
where
  /-- Adds the mapping if its model path is new. -/
  add (rooted : MappingSet) : Except MappingError Unit × MappingSet :=
    if rooted.mappings.any fun old => old.model == m.model then
      (.error (.duplicateModelPath m.model.render), rooted)
    else
      (.ok (), { rooted with mappings := rooted.mappings ++ [m] })

/-- The schemas that a direction leads from and to. -/
def roots (set : MappingSet) (direction : Direction) : Except MappingError (Schema × Schema) :=
  match set.roots? with
  | none => .error .empty
  | some (model, entity) =>
    .ok <| match direction with
      | .modelToEntity => (model, entity)
      | .entityToModel => (entity, model)

/-- The one mapping whose source path has these names. -/
def find (set : MappingSet) (direction : Direction) (names : List String) :
    Except MappingError Mapping := do
  let (source, _) ← set.roots direction
  match set.mappings.filter fun m => (m.source direction).isNamed names with
  | [m] => .ok m
  | [] => .error (.notFound source.path (dotted names))
  | found => .error (.ambiguous source.path (dotted names) found.length)

/-- The mappings that make up the identity, in order. -/
def keys (set : MappingSet) : List Mapping := set.mappings.filter (·.isKey)

end MappingSet

end RecordView
