import RecordView.Proofs.Mapping.PathExpr
import RecordView.Proofs.Mapping.Writes

/-!
# Projected records

The model of an entity reads at every mapped path what the entity reads at the other end of the
mapping, converted to the kind of the model's leaf (`MappingSet.Sound.read_project`).  Where both
leaves are of one kind (`MappingSet.SameKinds`) there is nothing to convert, and the two reads are
the same (`MappingSet.Sound.agrees_project`).

Projection writes the mapped paths one after the other (`MappingSet.project_eq_writeAll`).  A later
write could change what an earlier one left behind in two ways only: it writes to the same path,
which a sound set excludes, or it replaces an absent record on the way by the default one.  The latter
cannot happen either, because the earlier write has opened its path.

An entity need not have a model.  It has one where the model's leaf of every mapping holds whatever
the entity can read there (`Mapping.Admits`, `MappingSet.Sound.exists_project`), for example when
both leaves are of one type (`Mapping.admits_of_fields`).
-/

namespace RecordView

namespace Mapping

/-- The model's leaf holds whatever conforming entities read at the other end. -/
def Admits (m : Mapping) : Prop :=
  ∀ v, (m.entity.type.nullable = true ∧ v = Value.null) ∨ m.entity.leaf.store? v = some v →
    (m.model.leaf.store? v).isSome = true

/-- A leaf of the same kind that is wide enough, and is null where the entity may read null. -/
theorem admits_of_fields {m : Mapping} {f g : Field}
    (hf : m.model.leaf.owner.field? m.model.leaf.name = some f)
    (hg : m.entity.leaf.owner.field? m.entity.leaf.name = some g)
    (hkind : f.type.kind = g.type.kind) (hwidth : f.width = .wide ∨ f.width = g.width)
    (hnull : m.entity.type.nullable = true ∨ g.type.nullable = true → f.type.nullable = true) :
    m.Admits := by
  intro v hv
  simp only [PathSegment.store?, hf, hg, Option.bind_some] at hv ⊢
  by_cases hvnull : v = .null
  · -- null comes from an absent record on the way, or from the leaf itself
    subst hvnull
    have hnullable : f.type.nullable = true := by
      rcases hv with ⟨hpath, -⟩ | hstore
      · exact hnull (.inl hpath)
      · refine hnull (.inr ?_)
        cases hg' : g.type.nullable with
        | true => rfl
        | false => simp [Field.store?, Value.isNull, hg'] at hstore
    simp [Field.store?, Value.isNull, hnullable]
  · rcases hv with ⟨-, hnil⟩ | hstore
    · exact absurd hnil hvnull
    · have hcast : v.cast f.type.kind = some v := hkind ▸ Field.cast_of_store? hstore
      have hfits : f.width.fits v = true := by
        rcases hwidth with hwide | hsame
        · rw [hwide]
          exact Width.fits_wide v
        · rw [hsame]
          exact Field.width_fits_of_store? hstore
      have hnonnull : v.isNull = false := by
        rw [← Bool.not_eq_true, Value.isNull_iff]
        exact hvnull
      simp [Field.store?, hnonnull, hcast, hfits]

end Mapping

namespace MappingSet

variable {set : MappingSet} {model entity : Schema} {e m : Record}

/-- Both leaves of every mapping are of one kind. -/
def SameKinds (set : MappingSet) : Prop :=
  ∀ k ∈ set.mappings, k.model.leaf.type.kind = k.entity.leaf.type.kind

/-- The model and the entity read the same at the two ends of every mapping. -/
def Agrees (set : MappingSet) (m e : Record) : Prop :=
  ∀ k ∈ set.mappings, k.model.read m = k.entity.read e

/-- The model of an entity conforms, and reads what the entity reads, converted. -/
theorem Sound.read_project (hs : set.Sound model entity) (h : set.project model e = .ok m) :
    m.Conforms model ∧ ∀ k ∈ set.mappings,
      (k.entity.read e).cast k.model.leaf.type.kind = some (k.model.read m) := by
  rw [project_eq_writeAll] at h
  have hscalar : ∀ w ∈ set.mappings.map (fun k => (k.model, k.entity.read e)),
      w.1.ScalarOn model := by
    rintro _ hw
    obtain ⟨k, hk, rfl⟩ := List.mem_map.1 hw
    exact (hs.between k hk).model
  have hdistinct : ((set.mappings.map fun k => (k.model, k.entity.read e)).map
      (·.1.names)).Nodup := by
    rw [List.map_map]
    exact hs.distinct
  exact ⟨FieldPath.conforms_writeAll hscalar model.default_conforms h, fun k hk =>
    FieldPath.read_writeAll_self hscalar model.default_conforms h hdistinct _
      (List.mem_map_of_mem hk)⟩

/-- **Every conforming entity has a model** where the model's leaves hold what it can read. -/
theorem Sound.exists_project (hs : set.Sound model entity) (ha : ∀ k ∈ set.mappings, k.Admits)
    (he : e.Conforms entity) : ∃ m, set.project model e = .ok m := by
  refine exists_foldlM (fun r => r.Conforms model) model.default_conforms ?_
  intro r k hk hr
  have hb := hs.between k hk
  have hstored := hb.entity.resolved.stored_read hb.entity.scalar (hb.entity.conforms he)
  have hok := hb.model.resolved.write_ok hb.model.scalar (hb.model.conforms hr) (ha k hk _ hstored)
  exact ⟨_, FieldPath.write?_eq_ok.2 ⟨hok, rfl⟩, hb.model.conforms_write hr⟩

/-- An entity conforms after the values of a model were written to it. -/
theorem Sound.conforms_writeEntity (hs : set.Sound model entity) {e' : Record}
    (he : e.Conforms entity) (h : set.writeEntity m e = .ok e') : e'.Conforms entity := by
  rw [writeEntity_eq_writeAll] at h
  exact FieldPath.conforms_writeAll (hs.scalarOn_valued m) he h

/-- **The model of an entity agrees with it** where both leaves of every mapping are of one
kind. -/
theorem Sound.agrees_project (hs : set.Sound model entity) (hk : set.SameKinds)
    (he : e.Conforms entity) (h : set.project model e = .ok m) : set.Agrees m e := by
  intro k hmem
  have hb := hs.between k hmem
  have hconf := hb.entity.conforms he
  have hread := (hs.read_project h).2 k hmem
  have hkind : (k.entity.read e).cast k.model.leaf.type.kind = some (k.entity.read e) := by
    rw [hk k hmem]
    exact hb.entity.resolved.hasKind_read hb.entity.scalar hconf
  exact Option.some.inj (hread.symm.trans hkind)

end MappingSet

end RecordView
