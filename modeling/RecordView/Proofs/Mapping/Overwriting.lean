import Mathlib.Data.List.Nodup
import RecordView.Proofs.Mapping.Projection
import RecordView.Sample.Users

/-!
# Overwritten entities

The values of a model are written to an entity one after the other, and a null is not written.
Where no two mappings have the same entity path, every mapped path then reads the value of the
model, converted to the kind of its leaf, or, where the model has null, what it read before
(`MappingSet.PartlyWritten`, `MappingSet.Sound.partlyWritten`).

There is one exception to the second half.  A value can only be written into a record that is there,
so a write through an absent record puts a default record in its place.  A sibling field that may
not be null read null for want of a record, and reads its default now.
-/

namespace RecordView

/-- In a default record a field that may be null is null. -/
theorem PathSegment.initial_of_nullable {p : PathSegment} {f : Field}
    (hf : p.owner.field? p.name = some f) (hs : f.type.kind.isScalar = true)
    (hn : f.type.nullable = true) : p.initial = .null := by
  rw [initial, Record.getValue?, Schema.cell?_default, hf, Option.map_some, FieldType.defaultCell]
  cases hk : f.type.kind with
  | record s | records s => rw [hk] at hs; cases hs
  | _ => simp [hn, Value.ofOption]

namespace MappingSet

/-- No two mappings have the same entity path. -/
def DistinctEntities (set : MappingSet) : Prop :=
  (set.mappings.map (·.entity.names)).Nodup

/-- A value of the model is written through the record that holds the leaf of the path. -/
def WritesThrough (set : MappingSet) (m : Record) (p : FieldPath) : Prop :=
  ∃ k ∈ set.mappings, (k.model.read m).isNull = false ∧ p.IsOnWayOf k.entity

/-- The values of a model are in the entity, and where the model has none, the entity is as it was,
but for the required fields of records that were allocated on the way to other fields. -/
structure PartlyWritten (set : MappingSet) (m old new : Record) : Prop where
  written : ∀ k ∈ set.mappings, k.model.read m ≠ .null →
    (k.model.read m).cast k.entity.leaf.type.kind = some (k.entity.read new)
  kept : ∀ k ∈ set.mappings, k.model.read m = .null →
    k.entity.IsOpen old ∨ ¬ set.WritesThrough m k.entity ∨ k.entity.leaf.type.nullable = true →
      k.entity.read new = k.entity.read old
  allocated : ∀ k ∈ set.mappings, k.model.read m = .null → ¬ k.entity.IsOpen old →
    set.WritesThrough m k.entity → k.entity.read new = k.entity.leaf.initial

variable {set : MappingSet} {model entity : Schema} {m old new : Record}

/-- A path that gets no value is none of the written ones. -/
theorem DistinctEntities.names_ne (hd : set.DistinctEntities) {k : Mapping}
    (hk : k ∈ set.mappings) (hnull : k.model.read m = .null) :
    ∀ w ∈ (set.valued m).map (fun n => (n.entity, n.model.read m)),
      k.entity.names ≠ w.1.names := by
  rintro _ hw hnames
  obtain ⟨n, hn, rfl⟩ := List.mem_map.1 hw
  obtain ⟨hmem, hvalue⟩ := mem_valued.1 hn
  obtain rfl := List.inj_on_of_nodup_map hd hk hmem hnames
  rw [hnull] at hvalue
  cases hvalue

/-- The values of a model are written at different paths. -/
theorem DistinctEntities.nodup_valued (hd : set.DistinctEntities) (m : Record) :
    (((set.valued m).map fun k => (k.entity, k.model.read m)).map (·.1.names)).Nodup := by
  rw [List.map_map]
  exact hd.sublist (List.filter_sublist.map _)

/-- **The partial-update law of records.** -/
theorem Sound.partlyWritten (hs : set.Sound model entity) (hd : set.DistinctEntities)
    (hold : old.Conforms entity) (h : set.writeEntity m old = .ok new) :
    set.PartlyWritten m old new := by
  rw [writeEntity_eq_writeAll] at h
  have hscalar := hs.scalarOn_valued m
  -- which paths are open afterwards
  have hopen : ∀ k ∈ set.mappings, k.entity.IsOpen new ↔
      k.entity.IsOpen old ∨ set.WritesThrough m k.entity := by
    intro k hk
    rw [FieldPath.isOpen_writeAll_iff hscalar (hs.between k hk).entity hold h]
    simp only [List.mem_map, exists_exists_and_eq_and]
    simp only [WritesThrough, mem_valued, and_assoc]
  have hallocated : ∀ k ∈ set.mappings, k.model.read m = .null → ¬ k.entity.IsOpen old →
      set.WritesThrough m k.entity → k.entity.read new = k.entity.leaf.initial := by
    intro k hk hnull hclosed hthrough
    exact FieldPath.read_writeAll_opened hscalar (hs.between k hk).entity hold h
      (hd.names_ne hk hnull) hclosed ((hopen k hk).2 (.inr hthrough))
  refine ⟨?_, ?_, hallocated⟩
  · intro k hk hvalue
    have hvalued : k ∈ set.valued m :=
      mem_valued.2 ⟨hk, by rw [← Bool.not_eq_true, Value.isNull_iff]; exact hvalue⟩
    exact FieldPath.read_writeAll_self hscalar hold h (hd.nodup_valued m) _
      (List.mem_map_of_mem hvalued)
  · intro k hk hnull hcases
    have hb := hs.between k hk
    by_cases hbefore : k.entity.IsOpen old
    · exact FieldPath.read_writeAll_of_isOpen hscalar hb.entity hold h (hd.names_ne hk hnull)
        hbefore
    · rw [FieldPath.read_of_not_isOpen hbefore]
      by_cases hthrough : set.WritesThrough m k.entity
      · obtain ⟨f, hf, htype⟩ := hb.entity.resolved.leaf_field
        have hnullable := (hcases.resolve_left hbefore).resolve_left (not_not.2 hthrough)
        rw [hallocated k hk hnull hbefore hthrough]
        exact PathSegment.initial_of_nullable hf (htype ▸ hb.entity.scalar) (htype ▸ hnullable)
      · exact FieldPath.read_of_not_isOpen
          (mt (hopen k hk).1 (not_or.2 ⟨hbefore, hthrough⟩))

end MappingSet

/-! ### Users and their models -/

namespace Sample

theorem userMappings_distinctEntities : userMappings.DistinctEntities := by
  rw [MappingSet.DistinctEntities]
  decide

end Sample

end RecordView
