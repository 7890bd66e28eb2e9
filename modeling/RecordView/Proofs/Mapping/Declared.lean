import RecordView.Proofs.Mapping.Path
import RecordView.Proofs.Outcome
import RecordView.Service.Basic

/-!
# Declared mapping sets

A mapping set is declared by pairs of selectors.  When the selectors are over one model schema and
one entity schema, the set is *sound* (`MappingSet.Sound`, `MappingSet.sound_of_declare`): its
mappings tie resolved scalar paths of the model to resolved scalar paths of the entity, no two
model paths have the same names, and the roots are these two schemas.

Roots are compared by path when a mapping is added.  So the selectors of a declared set are over
one model and one entity schema as soon as schemas with one path are one schema
(`Schema.Coherent`, `MappingSet.sound_of_roots`).

Lookup by the names of a path finds a mapping of the set (`MappingSet.mem_of_find`), and in a sound
set every mapping by the names of its model path (`MappingSet.Sound.find_model`).
-/

namespace RecordView

/-- Of the known schemas, those with one path are one schema. -/
def Schema.Coherent (known : Schema → Prop) : Prop :=
  ∀ s t, known s → known t → s.path = t.path → s = t

/-- The path leads from the schema to a scalar field. -/
structure FieldPath.ScalarOn (p : FieldPath) (s : Schema) : Prop where
  root : p.root = s
  resolved : p.Resolved
  scalar : p.leaf.type.kind.isScalar = true

theorem FieldPath.ScalarOn.conforms {p : FieldPath} {s : Schema} (hp : p.ScalarOn s) {r : Record}
    (h : r.Conforms s) : r.Conforms p.root := by
  rw [hp.root]
  exact h

theorem FieldPath.ScalarOn.conforms_write {p : FieldPath} {s : Schema} (hp : p.ScalarOn s)
    {r : Record} (h : r.Conforms s) {v : Value} : (p.write r v).2.Conforms s := by
  rw [← hp.root]
  exact hp.resolved.conforms_write (hp.conforms h)

/-- The mapping ties a scalar path of one schema to a scalar path of another. -/
structure Mapping.Between (m : Mapping) (model entity : Schema) : Prop where
  model : m.model.ScalarOn model
  entity : m.entity.ScalarOn entity

/-- Of what a model and an entity have, that which a direction leads from. -/
def Direction.source {α : Type} (d : Direction) (model entity : α) : α :=
  match d with
  | .modelToEntity => model
  | .entityToModel => entity

/-- Of what a model and an entity have, that which a direction leads to. -/
def Direction.target {α : Type} (d : Direction) (model entity : α) : α :=
  d.reverse.source model entity

theorem Mapping.Between.source {m : Mapping} {model entity : Schema} (h : m.Between model entity)
    (d : Direction) : (m.source d).ScalarOn (d.source model entity) := by
  cases d with
  | modelToEntity => exact h.model
  | entityToModel => exact h.entity

theorem Mapping.Between.target {m : Mapping} {model entity : Schema} (h : m.Between model entity)
    (d : Direction) : (m.target d).ScalarOn (d.target model entity) := by
  cases d with
  | modelToEntity => exact h.entity
  | entityToModel => exact h.model

theorem FieldPath.resolve_eq_ok {selector : Lambda} {p : FieldPath}
    (h : FieldPath.resolve selector = .ok p) :
    p.root = selector.param.schema ∧ p.Resolved := by
  obtain ⟨hroot, hp, -⟩ := FieldPath.ofNames_eq_ok (FieldPath.resolve_eq_ok_iff.1 h).2
  exact ⟨hroot, hp⟩

theorem Mapping.scalarPath_eq_ok {p : FieldPath} {u : Unit} (h : Mapping.scalarPath p = .ok u) :
    p.leaf.type.kind.isScalar = true := by
  unfold Mapping.scalarPath at h
  split at h
  · assumption
  · cases h

theorem Mapping.between_of_selectors {model entity : Lambda} {m : Mapping}
    (h : Mapping.ofSelectors model entity = .ok m) :
    m.Between model.param.schema entity.param.schema := by
  unfold Mapping.ofSelectors at h
  obtain ⟨p, hp, h⟩ := bind_eq_ok.1 h
  obtain ⟨q, hq, h⟩ := bind_eq_ok.1 h
  obtain ⟨_, hps, h⟩ := bind_eq_ok.1 h
  obtain ⟨_, hqs, h⟩ := bind_eq_ok.1 h
  cases h
  obtain ⟨hproot, hpres⟩ := FieldPath.resolve_eq_ok hp
  obtain ⟨hqroot, hqres⟩ := FieldPath.resolve_eq_ok hq
  exact ⟨⟨hproot, hpres, Mapping.scalarPath_eq_ok hps⟩,
    ⟨hqroot, hqres, Mapping.scalarPath_eq_ok hqs⟩⟩

theorem MappingDeclaration.between_of_resolve {d : MappingDeclaration} {m : Mapping}
    (h : d.resolve = .ok m) : m.Between d.model.param.schema d.entity.param.schema := by
  unfold MappingDeclaration.resolve at h
  obtain ⟨m', hm', h⟩ := bind_eq_ok.1 h
  have hb := Mapping.between_of_selectors hm'
  cases h
  split
  · exact ⟨hb.model, hb.entity⟩
  · exact hb

namespace MappingSet

/-! ### Adding a mapping -/

theorem matchRoot_eq_ok {s t : Schema} {u : Unit} (h : matchRoot s t = .ok u) :
    s.path = t.path := by
  unfold matchRoot at h
  split at h
  · exact Schema.beq_iff.1 ‹_›
  · cases h

/-- What it takes to add a mapping, and what comes of it. -/
theorem push_eq_ok {set set' : MappingSet} {m : Mapping} (h : set.push m = .ok set') :
    (∀ model entity, set.roots? = some (model, entity) →
        model.path = m.model.root.path ∧ entity.path = m.entity.root.path) ∧
      (∀ old ∈ set.mappings, (old.model == m.model) = false) ∧
      set' = ⟨set.mappings ++ [m], some (set.roots?.getD (m.model.root, m.entity.root))⟩ := by
  have tail : ∀ {set' : MappingSet},
      (if set.mappings.any fun old => old.model == m.model then
        (.error (.duplicateModelPath m.model.render) : Except MappingError MappingSet)
      else .ok ⟨set.mappings ++ [m], some (set.roots?.getD (m.model.root, m.entity.root))⟩) =
        .ok set' →
      (∀ old ∈ set.mappings, (old.model == m.model) = false) ∧
        set' = ⟨set.mappings ++ [m], some (set.roots?.getD (m.model.root, m.entity.root))⟩ := by
    intro set' h
    split at h
    · cases h
    · rename_i hany
      cases h
      exact ⟨by simpa using hany, rfl⟩
  unfold push at h
  cases hroots : set.roots? with
  | none =>
    simp only [hroots] at h tail
    exact ⟨by simp, tail h⟩
  | some roots =>
    obtain ⟨model, entity⟩ := roots
    simp only [hroots] at h tail
    obtain ⟨_, hmodel, h⟩ := bind_eq_ok.1 h
    obtain ⟨_, hentity, h⟩ := bind_eq_ok.1 h
    refine ⟨?_, tail h⟩
    rintro _ _ ⟨⟩
    exact ⟨matchRoot_eq_ok hmodel, matchRoot_eq_ok hentity⟩

/-! ### Sound sets -/

/-- The mappings tie paths of one model schema to paths of one entity schema, and no two model
paths have the same names. -/
structure Sound (set : MappingSet) (model entity : Schema) : Prop where
  between : ∀ m ∈ set.mappings, m.Between model entity
  distinct : (set.mappings.map (·.model.names)).Nodup
  roots : set.mappings ≠ [] → set.roots? = some (model, entity)
  noRoots : set.mappings = [] → set.roots? = none

theorem sound_empty (model entity : Schema) : MappingSet.empty.Sound model entity :=
  ⟨by simp [empty], by simp [empty], by simp [empty], by simp [empty]⟩

theorem Sound.push {set set' : MappingSet} {model entity : Schema} {m : Mapping}
    (hs : set.Sound model entity) (hm : m.Between model entity) (h : set.push m = .ok set') :
    set'.Sound model entity := by
  obtain ⟨-, hnew, rfl⟩ := push_eq_ok h
  refine ⟨?_, ?_, fun _ => ?_, by simp⟩
  · intro n hn
    obtain hn | hn := List.mem_append.1 hn
    · exact hs.between n hn
    · obtain rfl := List.mem_singleton.1 hn
      exact hm
  · rw [List.map_append, List.nodup_append]
    refine ⟨hs.distinct, by simp, ?_⟩
    rintro names hmem _ hm' rfl
    obtain rfl := List.mem_singleton.1 hm'
    -- equal names would make the model paths equal, which was refused
    obtain ⟨old, hold, hnames⟩ := List.mem_map.1 hmem
    have hb := hs.between old hold
    have hpath : old.model = m.model :=
      hb.model.resolved.ext hm.model.resolved (hb.model.root.trans hm.model.root.symm) hnames
    have := hnew old hold
    rw [hpath, beq_self_eq_true] at this
    cases this
  · by_cases hnil : set.mappings = []
    · simp [hs.noRoots hnil, hm.model.root, hm.entity.root]
    · simp [hs.roots hnil]

/-- The roots in the order of a direction. -/
theorem roots_eq_ok {set : MappingSet} {model entity : Schema}
    (hroots : set.roots? = some (model, entity)) (d : Direction) :
    set.roots d = .ok (d.source model entity, d.target model entity) := by
  cases d <;> rw [roots, hroots] <;> rfl

theorem Sound.roots_eq_ok {set : MappingSet} {model entity : Schema} (hs : set.Sound model entity)
    (hne : set.mappings ≠ []) (d : Direction) :
    set.roots d = .ok (d.source model entity, d.target model entity) :=
  MappingSet.roots_eq_ok (hs.roots hne) d

/-- **A set declared by selectors over one model and one entity schema is sound.** -/
theorem sound_of_declare {declarations : List MappingDeclaration} {set : MappingSet}
    {model entity : Schema} (h : declare declarations = .ok set)
    (hover : ∀ d ∈ declarations, d.model.param.schema = model ∧ d.entity.param.schema = entity) :
    set.Sound model entity := by
  refine foldlM_invariant (fun _ set => set.Sound model entity) (sound_empty model entity) ?_ h
  intro done d rest set set' hds hs hpush
  obtain ⟨m, hm, hpush⟩ := bind_eq_ok.1 hpush
  obtain ⟨hmodel, hentity⟩ := hover d (by simp [← hds])
  have hb := MappingDeclaration.between_of_resolve hm
  rw [hmodel, hentity] at hb
  exact hs.push hb hpush

/-- Where schemas with one path are one schema, the selectors of a declared set are over one model
and one entity schema. -/
theorem exists_roots_of_declare {known : Schema → Prop} (hk : Schema.Coherent known)
    {declarations : List MappingDeclaration} {set : MappingSet}
    (h : declare declarations = .ok set)
    (hknown : ∀ d ∈ declarations, known d.model.param.schema ∧ known d.entity.param.schema) :
    declarations = [] ∨ ∃ model entity, known model ∧ known entity ∧
      set.roots? = some (model, entity) ∧
      ∀ d ∈ declarations, d.model.param.schema = model ∧ d.entity.param.schema = entity := by
  suffices hinv : (declarations = [] ∧ set.roots? = none) ∨ ∃ model entity, known model ∧
      known entity ∧ set.roots? = some (model, entity) ∧
      ∀ d ∈ declarations, d.model.param.schema = model ∧ d.entity.param.schema = entity from
    hinv.imp_left And.left
  refine foldlM_invariant (fun done set => (done = [] ∧ set.roots? = none) ∨ ∃ model entity,
    known model ∧ known entity ∧ set.roots? = some (model, entity) ∧
      ∀ d ∈ done, d.model.param.schema = model ∧ d.entity.param.schema = entity)
    (.inl ⟨rfl, rfl⟩) ?_ h
  intro done d rest set set' hds hinv hpush
  obtain ⟨m, hm, hpush⟩ := bind_eq_ok.1 hpush
  have hb := MappingDeclaration.between_of_resolve hm
  obtain ⟨hroots, -, rfl⟩ := push_eq_ok hpush
  obtain ⟨hkm, hke⟩ := hknown d (by simp [← hds])
  right
  rcases hinv with ⟨rfl, hnone⟩ | ⟨model, entity, hmodel, hentity, hsome, hall⟩
  · refine ⟨_, _, hkm, hke, by simp [hnone, hb.model.root, hb.entity.root], by simp⟩
  · obtain ⟨hpm, hpe⟩ := hroots model entity hsome
    rw [hb.model.root] at hpm
    rw [hb.entity.root] at hpe
    refine ⟨model, entity, hmodel, hentity, by simp [hsome], fun d' hd' => ?_⟩
    obtain hd' | hd' := List.mem_append.1 hd'
    · exact hall d' hd'
    · obtain rfl := List.mem_singleton.1 hd'
      exact ⟨(hk _ _ hmodel hkm hpm).symm, (hk _ _ hentity hke hpe).symm⟩

/-- **Where schemas with one path are one schema, every declared set with roots is sound.** -/
theorem sound_of_roots {known : Schema → Prop} (hk : Schema.Coherent known)
    {declarations : List MappingDeclaration} {set : MappingSet} {model entity : Schema}
    (h : declare declarations = .ok set)
    (hknown : ∀ d ∈ declarations, known d.model.param.schema ∧ known d.entity.param.schema)
    (hroots : set.roots? = some (model, entity)) :
    set.Sound model entity ∧ set.mappings ≠ [] := by
  rcases exists_roots_of_declare hk h hknown with rfl | ⟨model', entity', -, -, hsome, hall⟩
  · cases h
    cases hroots
  · rw [hroots] at hsome
    cases hsome
    have hs := sound_of_declare h hall
    refine ⟨hs, fun hnil => ?_⟩
    rw [hs.noRoots hnil] at hroots
    cases hroots

/-! ### Lookup -/

/-- A mapping that is found is in the set, and has the names it was looked up by. -/
theorem mem_of_find {set : MappingSet} {direction : Direction} {names : List String} {m : Mapping}
    (h : set.find direction names = .ok m) :
    m ∈ set.mappings ∧ (m.source direction).names = names := by
  unfold find at h
  obtain ⟨⟨source, target⟩, -, h⟩ := bind_eq_ok.1 h
  generalize hfound : set.mappings.filter (fun m => (m.source direction).isNamed names) = found at h
  match found, hfound, h with
  | [n], hfound, h =>
    cases h
    have hm := List.mem_filter.1 (hfound ▸ List.mem_singleton_self m)
    exact ⟨hm.1, by simpa [FieldPath.isNamed] using hm.2⟩
  | [], _, h => cases h
  | _ :: _ :: _, _, h => cases h

/-- Where no two mappings have the same names on a side, each is found by its names there. -/
theorem find_of_nodup {set : MappingSet} {d : Direction} {source target : Schema}
    (hroots : set.roots d = .ok (source, target))
    (hd : (set.mappings.map fun m => (m.source d).names).Nodup) {m : Mapping}
    (hm : m ∈ set.mappings) : set.find d (m.source d).names = .ok m := by
  have hfilter :
      (set.mappings.filter fun n => (n.source d).isNamed (m.source d).names) = [m] := by
    generalize set.mappings = mappings at hm hd
    induction mappings with
    | nil => cases hm
    | cons n rest ih =>
      rw [List.map_cons, List.nodup_cons] at hd
      obtain ⟨hnotin, hd⟩ := hd
      obtain rfl | hm := List.mem_cons.1 hm
      · have hrest : (rest.filter fun n => (n.source d).isNamed (m.source d).names) = [] := by
          rw [List.filter_eq_nil_iff]
          intro k hk hnamed
          exact hnotin (List.mem_map.2 ⟨k, hk, by simpa [FieldPath.isNamed] using hnamed⟩)
        rw [List.filter_cons_of_pos (by simp [FieldPath.isNamed]), hrest]
      · have hne : ((n.source d).isNamed (m.source d).names) = false := by
          simp only [FieldPath.isNamed, beq_eq_false_iff_ne]
          exact fun hc => hnotin (List.mem_map.2 ⟨m, hm, hc.symm⟩)
        rw [List.filter_cons_of_neg (by simp [hne])]
        exact ih hm hd
  simp only [find, hroots, bind, Except.bind, hfilter]

/-- In a sound set every mapping is found by the names of its model path. -/
theorem Sound.find_model {set : MappingSet} {model entity : Schema}
    (hs : set.Sound model entity) {m : Mapping} (hm : m ∈ set.mappings) :
    set.find .modelToEntity m.model.names = .ok m :=
  find_of_nodup (hs.roots_eq_ok (List.ne_nil_of_mem hm) .modelToEntity) hs.distinct hm

end MappingSet

end RecordView
