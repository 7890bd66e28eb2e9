import RecordView.Mapping.Table

/-!
# Records across a mapping set

`MappingSet.project` reads an entity as a model, and `MappingSet.writeEntity` writes the values of
a model to an entity.  Both go through the mappings in the order of the table.
-/

namespace RecordView

namespace MappingSet

/-- The model of an entity: the default model with every mapped value written to it. -/
def project (set : MappingSet) (model : Schema) (entity : Record) : Except WriteError Record :=
  set.mappings.foldlM (fun model m => m.model.write? model (m.entity.read entity)) model.default

/-- An entity with the mapped values of a model written to it; a null leaves the entity as it
is. -/
def writeEntity (set : MappingSet) (model entity : Record) : Except WriteError Record :=
  set.mappings.foldlM
    (fun entity m =>
      if (m.model.read model).isNull then .ok entity
      else m.entity.write? entity (m.model.read model))
    entity

end MappingSet

end RecordView
