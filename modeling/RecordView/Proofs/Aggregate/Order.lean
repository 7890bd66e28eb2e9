import Mathlib.Data.List.Nodup
import RecordView.Proofs.Service.View
import RecordView.Sample.Residents

/-!
# The order of aggregated reads

An aggregation sorts join rows by paths of its facets' entities, while its callers name paths of the
facets' models in the composites that they get.  Both orders are the same
(`Aggregation.get_sorts_composites`): the answer is what the composites of all join rows give
themselves, sorted by the selectors as they are and cut to the page (`Aggregation.answerFrom`).

A facet is *faithful* (`Facet.Faithful`) when it puts its models into its own field of composites
and touches nothing else.  Then the composite of a join row shows every single-record facet
(`Facet.Shows`): the model of the row's entity, and no record where the row has none.  That is kept
by the facets that come after (`Aggregation.Registered.shows_project`), as every field has one
facet.  So a selector through the facet picks from the composite what the facet reads in the row,
null for the absent record (`Aggregation.Registered.exists_key`).
-/

namespace RecordView

/-- Every cell but the one of a field is as before. -/
def Record.OnlyChanges (before after : Record) (name : String) : Prop :=
  ∀ other, other ≠ name → after.cell? other = before.cell? other

theorem Record.OnlyChanges.getRecord? {c c' : Record} {name other : String}
    (h : c.OnlyChanges c' name) (hne : other ≠ name) :
    c'.getRecord? other = c.getRecord? other := by
  rw [Record.getRecord?, Record.getRecord?, h other hne]

/-- The service was built from declarations over its model and its entity. -/
def Service.Declared {σ : Type} (s : Service σ) : Prop :=
  ∃ declarations defaultOrder pagination repository,
    Service.build s.model s.entity declarations defaultOrder pagination repository = .ok s ∧
      ∀ d ∈ declarations, d.model.param.schema = s.model ∧ d.entity.param.schema = s.entity

theorem Service.Declared.faithful {σ : Type} {s : Service σ} (h : s.Declared)
    (hkinds : s.mappings.SameKinds) : s.Faithful s.model s.entity := by
  obtain ⟨_, _, _, _, hbuild, hover⟩ := h
  exact Service.faithful_of_build hbuild hover hkinds

/-! ### Paths through a facet -/

/-- The path of a nested record, from the record that holds it in the field. -/
def FieldPath.through (p : FieldPath) (root : Schema) (field : Field) : FieldPath :=
  ⟨root, ⟨field.name, root, field.type⟩ :: p.hops, p.leaf⟩

namespace FieldPath

variable {p : FieldPath} {root : Schema} {name : String} {declared : Field}

theorem Resolved.through (hp : p.Resolved) (hfield : root.field? name = some declared)
    (hkind : declared.type.kind = .record p.root) : (p.through root declared).Resolved := by
  rw [← Schema.name_of_field? hfield] at hfield
  exact .hop hfield hkind hp

theorem names_through : (p.through root declared).names = declared.name :: p.names := rfl

theorem read_through {c : Record} :
    (p.through root declared).read c = (c.getRecord? declared.name).elim .null p.read := by
  change readFrom p.leaf (⟨declared.name, root, declared.type⟩ :: p.hops) c = _
  rw [readFrom]
  cases c.getRecord? declared.name <;> rfl

end FieldPath

/-! ### Facets -/

namespace Facet

variable {σ J : Type} {f : Facet σ J} {composite : Schema} {rows : List J} {row : J}
  {c c' : Record}

/-- The facet finds its entities in the rows, and puts its models into its own field of
composites and nowhere else. -/
structure Faithful (f : Facet σ J) (composite : Schema) (rows : List J) : Prop where
  read : ∀ read write, f.access = .one read write → ∀ row ∈ rows, ∀ e, read row = some e →
    e.Conforms f.service.entity
  write : ∀ read write, f.access = .one read write → ∀ c m, c.Conforms composite →
    m.Conforms f.service.model →
    (write c m).Conforms composite ∧ (write c m).getRecord? f.field = some m ∧
      c.OnlyChanges (write c m) f.field
  writeMany : ∀ read write, f.access = .many read write → ∀ c ms, c.Conforms composite →
    (∀ m ∈ ms, m.Conforms f.service.model) →
    (write c ms).Conforms composite ∧ c.OnlyChanges (write c ms) f.field

/-- The composite has the model of the row's entity in the facet's field, and no record when the
row has no entity.  Nothing is said of collections. -/
def Shows (f : Facet σ J) (row : J) (c : Record) : Prop :=
  match f.access with
  | .one read _ =>
    match read row with
    | some e => ∃ m, f.service.project e = .ok m ∧ c.getRecord? f.field = some m
    | none => c.getRecord? f.field = none
  | .many _ _ => True

/-- Only the facet's own field matters. -/
theorem Shows.congr (h : f.Shows row c) (hsame : c'.getRecord? f.field = c.getRecord? f.field) :
    f.Shows row c' := by
  unfold Shows at h ⊢
  simpa only [hsame] using h

/-- A facet of one record has a way to read and to write it. -/
theorem exists_one (hone : f.isMany = false) : ∃ read write, f.access = .one read write := by
  cases haccess : f.access with
  | one read write => exact ⟨read, write, rfl⟩
  | many read write =>
    rw [isMany, haccess] at hone
    cases hone

/-- The composite declares that the field of a faithful facet holds a record of the facet's
model. -/
theorem Faithful.exists_field (h : f.Faithful composite rows) (hone : f.isMany = false) :
    ∃ declared, composite.field? f.field = some declared ∧
      declared.type.kind = .record f.service.model := by
  obtain ⟨read, write, haccess⟩ := exists_one hone
  -- any write shows it, such as that of a default model to a default composite
  have hmodel := f.service.model.default_conforms
  obtain ⟨hconf, hget, -⟩ := h.write read write haccess _ _ composite.default_conforms hmodel
  obtain ⟨declared, t, hfield, hkind, hnested⟩ := hconf.exists_field_of_getRecord? hget
  rw [← hnested.schema_eq, hmodel.schema_eq] at hkind
  exact ⟨declared, hfield, hkind⟩

/-- A facet that replaces the record of its field is faithful. -/
theorem faithful_of_setRecord {read : J → Option Record} {declared : Field}
    (haccess : f.access = .one read fun c m => c.setRecord f.field (some m))
    (hfield : composite.field? f.field = some declared)
    (hkind : declared.type.kind = .record f.service.model)
    (hread : ∀ row ∈ rows, ∀ e, read row = some e → e.Conforms f.service.entity) :
    f.Faithful composite rows where
  read := by
    intro _ _ h
    cases haccess.symm.trans h
    exact hread
  write := by
    intro _ _ h c m hc hm
    cases haccess.symm.trans h
    exact ⟨hc.setRecord hfield hkind hm, hc.getRecord?_setRecord hfield _,
      fun _ hne => Record.cell?_setCell_of_ne hne c _⟩
  writeMany := by
    intro _ _ h
    cases haccess.symm.trans h

/-- A facet that replaces the records of its field is faithful. -/
theorem faithful_of_setRecords {read : J → List Record} {declared : Field}
    (haccess : f.access = .many read fun c ms => c.setRecords f.field ms)
    (hfield : composite.field? f.field = some declared)
    (hkind : declared.type.kind = .records f.service.model) : f.Faithful composite rows where
  read := by
    intro _ _ h
    cases haccess.symm.trans h
  write := by
    intro _ _ h
    cases haccess.symm.trans h
  writeMany := by
    intro _ _ h c ms hc hms
    cases haccess.symm.trans h
    exact ⟨hc.setCell hfield (.records hkind hms), fun _ hne => Record.cell?_setCell_of_ne hne c _⟩

theorem conforms_of_mapM_project (hs : f.service.Faithful f.service.model f.service.entity)
    {es ms : List Record} (h : es.mapM f.service.project = .ok ms) :
    ∀ m ∈ ms, m.Conforms f.service.model := by
  obtain ⟨g, hg, rfl⟩ := exists_map_of_mapM h
  intro m hm
  obtain ⟨e, he, rfl⟩ := List.mem_map.1 hm
  exact (hs.sound.read_project (mapError_eq_ok.1 (hg e he))).1

/-- What a faithful facet does to a composite that has no record of it yet. -/
theorem Faithful.project_eq_ok (h : f.Faithful composite rows)
    (hs : f.service.Faithful f.service.model f.service.entity) (hc : c.Conforms composite)
    (hnone : c.getRecord? f.field = none) (hp : f.project row c = .ok c') :
    c'.Conforms composite ∧ c.OnlyChanges c' f.field ∧ f.Shows row c' := by
  unfold project at hp
  cases haccess : f.access with
  | many read write =>
    rw [haccess] at hp
    obtain ⟨ms, hms, rfl⟩ := map_eq_ok.1 hp
    obtain ⟨hconf, honly⟩ := h.writeMany read write haccess c ms hc
      (conforms_of_mapM_project hs hms)
    exact ⟨hconf, honly, by simp only [Shows, haccess]⟩
  | one read write =>
    rw [haccess] at hp
    cases hread : read row with
    | none =>
      simp only [hread] at hp
      cases hp
      exact ⟨hc, fun _ _ => rfl, by simpa only [Shows, haccess, hread] using hnone⟩
    | some e =>
      simp only [hread] at hp
      obtain ⟨m, hm, rfl⟩ := map_eq_ok.1 hp
      have hmodel := (hs.sound.read_project (mapError_eq_ok.1 hm)).1
      obtain ⟨hconf, hget, honly⟩ := h.write read write haccess c m hc hmodel
      exact ⟨hconf, honly, by simpa only [Shows, haccess, hread] using ⟨m, hm, hget⟩⟩

/-- The sort key of a row is what the facet's model has in the composite, null without a model. -/
theorem Shows.orderKey (h : f.Shows row c) (hf : f.Faithful composite rows) (hrow : row ∈ rows)
    (hs : f.service.Faithful f.service.model f.service.entity) (hone : f.isMany = false)
    {k : Mapping} (hk : k ∈ f.service.mappings.mappings) :
    f.orderKey k.entity row = .ok ((c.getRecord? f.field).elim .null k.model.read) := by
  obtain ⟨read, write, haccess⟩ := exists_one hone
  simp only [Shows, haccess] at h
  unfold Facet.orderKey
  simp only [haccess]
  cases hread : read row with
  | none =>
    rw [hread] at h
    rw [h]
    rfl
  | some e =>
    rw [hread] at h
    obtain ⟨m, hm, hget⟩ := h
    have hagrees := hs.sound.agrees_project hs.sameKinds
      (hf.read read write haccess row hrow e hread) (mapError_eq_ok.1 hm)
    rw [hget]
    exact congrArg Except.ok (hagrees k hk).symm

end Facet

namespace Aggregation

variable {σ J : Type} {a a₀ : Aggregation σ J} {rows : List J} {row : J} {c : Record}

/-! ### Registration -/

/-- What it takes to add a facet, and what comes of it. -/
theorem addFacet_eq_ok {f : Facet σ J} (h : a₀.addFacet f = .ok a) :
    (∀ g ∈ a₀.facets, g.field ≠ f.field) ∧ a = { a₀ with facets := a₀.facets ++ [f] } := by
  unfold addFacet at h
  split at h
  · cases h
  · split at h
    · cases h
    · split at h
      · cases h
      · rename_i hany
        cases h
        exact ⟨by simpa using hany, rfl⟩

/-- Every field of registered facets has one facet. -/
theorem nodup_of_addFacets {facets : List (Facet σ J)} (hempty : a₀.facets = [])
    (h : facets.foldlM addFacet a₀ = .ok a) : (a.facets.map (·.field)).Nodup := by
  refine foldlM_invariant (fun _ a => (a.facets.map (·.field)).Nodup) (by simp [hempty]) ?_ h
  intro done f rest a a' _ hnodup hadd
  obtain ⟨hnew, rfl⟩ := addFacet_eq_ok hadd
  rw [List.map_append, List.nodup_append]
  refine ⟨hnodup, by simp, ?_⟩
  rintro name hmem _ hf rfl
  obtain ⟨g, hg, hname⟩ := List.mem_map.1 hmem
  exact hnew g hg (hname.trans (by simpa using hf))

/-- One facet for every field, each faithful and served by a declared service whose mappings keep
the kind. -/
structure Registered (a : Aggregation σ J) (rows : List J) : Prop where
  distinct : (a.facets.map (·.field)).Nodup
  services : ∀ f ∈ a.facets, f.service.Faithful f.service.model f.service.entity
  faithful : ∀ f ∈ a.facets, f.Faithful a.composite rows

/-! ### Composites -/

/-- **The composite of a row shows every facet.** -/
theorem Registered.shows_project (h : a.Registered rows) (hp : a.project row = .ok c) :
    c.Conforms a.composite ∧ ∀ f ∈ a.facets, f.Shows row c := by
  suffices hinv : c.Conforms a.composite ∧ (∀ f ∈ a.facets, f.Shows row c) ∧
      ∀ name, name ∉ a.facets.map (·.field) → c.getRecord? name = none from ⟨hinv.1, hinv.2.1⟩
  -- the fields of the facets to come are still without a record
  refine foldlM_invariant (fun done c => c.Conforms a.composite ∧ (∀ f ∈ done, f.Shows row c) ∧
    ∀ name, name ∉ done.map (·.field) → c.getRecord? name = none)
    ⟨a.composite.default_conforms, by simp, fun name _ => a.composite.getRecord?_default name⟩ ?_ hp
  intro done f rest c c' hfacets ⟨hconf, hshown, hnone⟩ hstep
  have hmem : f ∈ a.facets := by simp [← hfacets]
  have hnew : f.field ∉ done.map (·.field) := by
    have hnodup := h.distinct
    rw [← hfacets, List.map_append, List.nodup_append] at hnodup
    exact fun hin => hnodup.2.2 _ hin _ (by simp) rfl
  obtain ⟨hconf', honly, hshows⟩ :=
    (h.faithful f hmem).project_eq_ok (h.services f hmem) hconf (hnone _ hnew) hstep
  refine ⟨hconf', fun g hg => ?_, fun name hname => ?_⟩
  · obtain hg | hg := List.mem_append.1 hg
    · have hne : g.field ≠ f.field := fun heq => hnew (List.mem_map.2 ⟨g, hg, heq⟩)
      exact (hshown g hg).congr (honly.getRecord? hne)
    · rw [List.mem_singleton.1 hg]
      exact hshows
  · rw [List.map_append, List.mem_append, not_or] at hname
    rw [honly.getRecord? (by simpa using hname.2)]
    exact hnone name hname.1

/-! ### Sort keys -/

/-- The selector picks a mapped chain of a single-record facet's model. -/
def PicksFacet (a : Aggregation σ J) (selector : Lambda) : Prop :=
  ∃ f ∈ a.facets, f.isMany = false ∧ selector.param.schema = a.composite ∧
    ∃ names m, f.service.mappings.find .modelToEntity names = .ok m ∧
      selector.body = (Expr.parameter selector.param).chain (f.field :: names)

theorem find?_facet (hdistinct : (a.facets.map (·.field)).Nodup) {f : Facet σ J}
    (hf : f ∈ a.facets) : a.facets.find? (·.field == f.field) = some f := by
  obtain ⟨g, hg⟩ := Option.isSome_iff_exists.1
    (List.find?_isSome (p := (·.field == f.field)).2 ⟨f, hf, beq_self_eq_true f.field⟩)
  have hname : g.field = f.field := by simpa using List.find?_some hg
  rw [hg, List.inj_on_of_nodup_map hdistinct (List.mem_of_find?_eq_some hg) hf hname]

/-- **A selector through a facet picks from a composite what its sort key reads in the row.** -/
theorem Registered.exists_key (h : a.Registered rows) {selector : Lambda}
    (hpick : a.PicksFacet selector) (direction : OrderDirection) :
    ∃ head rest key, selector.fieldChain? = some (head :: rest) ∧
      a.orderKey head rest direction = .ok key ∧ key.direction = direction ∧
      ∀ row ∈ rows, ∀ c, a.project row = .ok c →
        ∃ v, selector.select c = .ok v ∧ key.facet.orderKey key.path row = .ok v := by
  obtain ⟨x, body⟩ := selector
  obtain ⟨f, hf, hone, hover, names, k, hfound, hbody⟩ := hpick
  have hs := h.services f hf
  obtain ⟨hk, hnames⟩ := MappingSet.mem_of_find hfound
  have hmodel := (hs.sound.between k hk).model
  obtain ⟨declared, hfield, hkind⟩ := (h.faithful f hf).exists_field hone
  have hname := Schema.name_of_field? hfield
  have hp := hmodel.resolved.through hfield (hkind.trans (by rw [hmodel.root]))
  -- the selector reads the path of the model through the field of the composite
  have hchain : body = (k.model.through a.composite declared).toExpr (.parameter x) := by
    rw [← hp.chain_names hover, FieldPath.names_through, hname]
    exact hbody.trans (by rw [← hnames]; rfl)
  subst hchain
  refine ⟨f.field, names, ⟨f, k.entity, direction⟩, ?_, ?_, rfl, fun row hrow c hc => ?_⟩
  · rw [← hname, ← hnames]
    exact FieldPath.Resolved.fieldChain?_toExpr
  · have hne : names.isEmpty = false := by
      rw [← hnames]
      exact List.isEmpty_eq_false_iff.2 (by simp [Mapping.source, FieldPath.names,
        FieldPath.segments])
    rw [orderKey, find?_facet h.distinct hf]
    simp only [hone, hne, Facet.orderPath, hfound]
    rfl
  · obtain ⟨hconf, hshows⟩ := h.shows_project hc
    refine ⟨_, hp.select_toExpr hmodel.scalar hconf hover, ?_⟩
    rw [FieldPath.read_through, hname]
    exact (hshows f hf).orderKey (h.faithful f hf) hrow hs hone hk

/-- The terms of an order become sort keys, with the same values in the row as in its
composite. -/
theorem Registered.exists_keys (h : a.Registered rows) {order : List OrderTerm}
    (horder : ∀ term ∈ order, a.PicksFacet term.selector) :
    ∃ keys, a.orderKeys order = .ok (some keys) ∧ keys.length = order.length ∧
      keys.map (·.direction) = order.map (·.direction) ∧
      ∀ row ∈ rows, ∀ c, a.project row = .ok c →
        (∀ term ∈ order, ∃ v, term.selector.select c = .ok v) ∧
          keyValues keys row = .ok (pickedKeys order c) := by
  induction order with
  | nil => exact ⟨[], rfl, rfl, rfl, fun _ _ _ _ => ⟨by simp, rfl⟩⟩
  | cons term order ih =>
    obtain ⟨keys, hkeys, hlength, hdirections, hvalues⟩ := ih fun t ht => horder t (by simp [ht])
    obtain ⟨head, rest, key, hchain, hkey, hdirection, hvalue⟩ :=
      h.exists_key (horder term (by simp)) term.direction
    refine ⟨key :: keys, ?_, by simp [hlength], by simp [hdirections, hdirection], ?_⟩
    · rw [orderKeys, hchain]
      simp only [hkey, hkeys, bind, Except.bind]
      rfl
    · intro row hrow c hc
      obtain ⟨v, hselect, hread⟩ := hvalue row hrow c hc
      obtain ⟨hselects, hrest⟩ := hvalues row hrow c hc
      refine ⟨List.forall_mem_cons.2 ⟨⟨v, hselect⟩, hselects⟩, ?_⟩
      rw [keyValues] at hrest ⊢
      rw [List.mapM_cons, hread, hrest, pickedKeys_cons hselect]
      rfl

/-- The join rows are sorted as their composites are. -/
theorem Registered.sort_eq_ok (h : a.Registered rows) {order : List OrderTerm} (hne : order ≠ [])
    (horder : ∀ term ∈ order, a.PicksFacet term.selector) {view : J → Record}
    (hview : ∀ row ∈ rows, a.project row = .ok (view row)) :
    a.sort rows order =
      .ok (stableSort (fun x y => comparePicked order (view x) (view y)) rows) := by
  obtain ⟨keys, hkeys, hlength, hdirections, hvalues⟩ := h.exists_keys horder
  obtain ⟨keyed, hkeyed, hsorted⟩ :=
    sortByKeys_picked fun row hrow => (hvalues row hrow _ (hview row hrow)).2
  rw [← hdirections] at hsorted
  rw [sort, ← hsorted]
  refine bind_eq_ok.2 ⟨_, hkeys, ?_⟩
  cases keys with
  | nil => exact absurd (List.length_eq_zero_iff.1 hlength.symm) hne
  | cons key keys => exact bind_eq_ok.2 ⟨keyed, hkeyed, rfl⟩

/-! ### Reads -/

/-- The answer that composites give to a read request themselves: all of them are counted, put in
order and cut to the page. -/
def answerFrom (a : Aggregation σ J) (composites : List Record) (request : ReadRequest) :
    Results Record :=
  ⟨composites.length,
    a.pagination.slice request.page request.pageSize (inOrder request.order composites)⟩

/-- **Aggregated reads are ordered as the composites that they return.** -/
theorem get_sorts_composites {facets : List (Facet σ J)} (hempty : a₀.facets = [])
    (hadd : facets.foldlM addFacet a₀ = .ok a)
    (hservices : ∀ f ∈ a.facets, f.service.Declared ∧ f.service.mappings.SameKinds)
    {store : σ} {request : ReadRequest} {attached : AttachedFacets}
    (hattach : a.attach store request.filter = (attached, .ok ()))
    (hjoin : a.join attached = .ok rows) (hfaithful : ∀ f ∈ a.facets, f.Faithful a.composite rows)
    {composites : List Record} (hproject : rows.mapM a.project = .ok composites)
    (hne : request.order ≠ []) (horder : ∀ term ∈ request.order, a.PicksFacet term.selector) :
    (∀ c ∈ composites, ∀ term ∈ request.order, ∃ v, term.selector.select c = .ok v) ∧
      (a.get store request).outcome = .ok (a.answerFrom composites request) ∧
      (a.answerFrom composites request).count = rows.length := by
  have h : a.Registered rows := ⟨nodup_of_addFacets hempty hadd,
    fun f hf => (hservices f hf).1.faithful (hservices f hf).2, hfaithful⟩
  obtain ⟨view, hview, rfl⟩ := exists_map_of_mapM hproject
  let sorted := stableSort (fun x y => comparePicked request.order (view x) (view y)) rows
  have hsort : a.sort rows request.order = .ok sorted := h.sort_eq_ok hne horder hview
  have hlength : sorted.length = rows.length := (stableSort_perm _ rows).length_eq
  have hitems : sorted.mapM a.project = .ok (sorted.map view) :=
    mapM_eq_map fun row hrow => hview row ((stableSort_perm _ rows).mem_iff.1 hrow)
  refine ⟨fun c hc => ?_, ?_, List.length_map view⟩
  · obtain ⟨row, hrow, rfl⟩ := List.mem_map.1 hc
    obtain ⟨_, _, _, _, hvalues⟩ := h.exists_keys horder
    exact (hvalues row hrow _ (hview row hrow)).1
  · change a.read store request = _
    rw [read, hattach]
    change a.assemble attached request = _
    rw [assemble, answerFrom, ← applyTo_window, inOrder_map]
    simp only [hjoin, hsort, bind, Except.bind, hlength, mapM_applyTo hitems, List.length_map]
    rfl

end Aggregation

/-! ### The directory of a town -/

namespace Sample

theorem locationRow_conforms (id : Int64) (name : String) (userId : Int64) :
    (locationRow id name userId).Conforms location := by
  have hid : (req "id" .int).store? (.int id) = some (.int id) := Field.store?_int rfl rfl id
  have huser : (req "user_id" .int).store? (.int userId) = some (.int userId) :=
    Field.store?_int rfl rfl userId
  exact .intro (.cons_named rfl (.value rfl hid) (.cons_named rfl (.value rfl rfl)
    (.cons_named rfl (.value rfl huser) .nil)))

/-- The rows of the town's directory. -/
def residentRows : List DirectoryRow :=
  [⟨some (userRow 1 "Ada" (some "admin")), some (locationRow 1 "PARIS" 1),
      [locationRow 1 "PARIS" 1], []⟩,
    ⟨some (userRow 2 "Bob" none), some (locationRow 2 "MADRID" 2), [locationRow 2 "MADRID" 2], []⟩,
    ⟨none, some (locationRow 3 "LONDON" 7), [locationRow 3 "LONDON" 7], []⟩]

theorem townUsers_declared : townUsers.Declared :=
  ⟨userDeclarations, townUsers.defaultOrder, {}, .ok townUsers.repository, rfl, by
    simp [userDeclarations, Lambda.over, townUsers]⟩

theorem townLocations_declared : townLocations.Declared :=
  ⟨locationDeclarations, townLocations.defaultOrder, {}, .ok townLocations.repository, rfl, by
    simp [locationDeclarations, Lambda.over, townLocations]⟩

theorem townFacets_declared : ∀ f ∈ residents.facets,
    f.service.Declared ∧ f.service.mappings.SameKinds := by
  have husers : townUsers.mappings.SameKinds := List.map_inj_left.1 rfl
  have hlocations : townLocations.mappings.SameKinds := List.map_inj_left.1 rfl
  change ∀ f ∈ townFacets, _
  simp only [townFacets, List.mem_cons, List.not_mem_nil, or_false]
  rintro f (rfl | rfl | rfl)
  · exact ⟨townUsers_declared, husers⟩
  · exact ⟨townLocations_declared, hlocations⟩
  · exact ⟨townLocations_declared, hlocations⟩

theorem residentRows_conform : ∀ row ∈ residentRows,
    (∀ e, row.user = some e → e.Conforms user) ∧
      ∀ e, row.home = some e → e.Conforms location := by
  simp only [residentRows, List.mem_cons, List.not_mem_nil, or_false]
  rintro row (rfl | rfl | rfl)
  · exact ⟨fun _ h => Option.some.inj h ▸ userRow_conforms ..,
      fun _ h => Option.some.inj h ▸ locationRow_conforms ..⟩
  · exact ⟨fun _ h => Option.some.inj h ▸ userRow_conforms ..,
      fun _ h => Option.some.inj h ▸ locationRow_conforms ..⟩
  · exact ⟨fun _ h => (nomatch h), fun _ h => Option.some.inj h ▸ locationRow_conforms ..⟩

theorem townFacets_faithful : ∀ f ∈ residents.facets, f.Faithful composite residentRows := by
  change ∀ f ∈ townFacets, _
  simp only [townFacets, List.mem_cons, List.not_mem_nil, or_false]
  rintro f (rfl | rfl | rfl)
  · exact Facet.faithful_of_setRecord rfl rfl rfl
      fun row hrow => (residentRows_conform row hrow).1
  · exact Facet.faithful_of_setRecord rfl rfl rfl
      fun row hrow => (residentRows_conform row hrow).2
  · exact Facet.faithful_of_setRecords rfl rfl rfl

/-- The composite of Paris, where Ada lives. -/
def parisView : Record :=
  residentView (some (userView 1 "Ada" (some "admin"))) (some (locationView 1 "PARIS"))
    [locationView 1 "PARIS"]

/-- The composite of Madrid, where Bob lives. -/
def madridView : Record :=
  residentView (some (userView 2 "Bob" none)) (some (locationView 2 "MADRID"))
    [locationView 2 "MADRID"]

/-- The composite of London, where nobody lives. -/
def londonView : Record :=
  residentView none (some (locationView 3 "LONDON")) [locationView 3 "LONDON"]

/-- The second page, of one, by the role of the user, last first, and then by name of the home. -/
def residentsByRole : ReadRequest :=
  ⟨none, [⟨.over composite (·.chain ["user", "role"]), .desc⟩,
    ⟨.over composite (·.chain ["home", "name"]), .asc⟩], some 2, some 1⟩

/-- Ada has a role and comes first.  Bob and nobody have none, so their homes decide, and of the
three London comes second. -/
theorem residents_sorted :
    inOrder residentsByRole.order [parisView, madridView, londonView] =
        [parisView, londonView, madridView] ∧
      (residents.get town residentsByRole).outcome = .ok ⟨3, [londonView]⟩ := by
  have hadd : townFacets.foldlM Aggregation.addFacet (directory .right {}) = .ok residents := rfl
  have hattach : residents.attach town residentsByRole.filter =
      ((residents.attach town none).1, .ok ()) := rfl
  have hjoin : residents.join (residents.attach town none).1 = .ok residentRows := rfl
  have hproject : residentRows.mapM residents.project =
      .ok [parisView, madridView, londonView] := rfl
  have horder : ∀ term ∈ residentsByRole.order, residents.PicksFacet term.selector := by
    simp only [residentsByRole, List.mem_cons, List.not_mem_nil, or_false]
    rintro term (rfl | rfl)
    · exact ⟨_, .head _, rfl, rfl, ["role"], _, rfl, rfl⟩
    · exact ⟨_, .tail _ (.head _), rfl, rfl, ["name"], _, rfl, rfl⟩
  obtain ⟨-, hget, -⟩ := Aggregation.get_sorts_composites rfl hadd townFacets_declared hattach hjoin
    townFacets_faithful hproject (by simp [residentsByRole]) horder
  exact ⟨rfl, hget.trans rfl⟩

end Sample

end RecordView
