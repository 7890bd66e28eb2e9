import RecordView.Proofs.Mapping.Overwriting
import RecordView.Proofs.Service.Creation
import RecordView.Proofs.Store.Identity

/-!
# Created models read back

A model that is created gets a row of its own at the end of the table, and the answer to the
creation is the model of that row.  A read by the key of the answer finds this row alone, and so
answers the same model (`Service.create_read_round_trip`).

Three facts meet here.  The values of the model are in the row that was written
(`MappingSet.PartlyWritten`), and giving it an identity changes no other path
(`Table.IdentityPath.read_identify`).  Since no two rows of a committed table have one identity,
the new row is the only one with its own (`Table.filter_identity`).  And the translated
filter compares the identity of every row, also of rows that have no model
(`MappingSet.Sound.exists_translate_valueFilter`).
-/

namespace RecordView

/-! ### Identities through paths -/

namespace Table

/-- The path is the identity field of the schema. -/
structure IdentityPath (p : FieldPath) (schema : Schema) (field : String) : Prop where
  on : p.ScalarOn schema
  hops : p.hops = []
  name : p.leaf.name = field
  kind : p.leaf.type.kind = .int

variable {p : FieldPath} {schema : Schema} {field : String} {row stored : Record}
  {next next' : Int64}

theorem IdentityField.identityPath (hf : IdentityField schema field) (hp : p.ScalarOn schema)
    (hnames : p.names = [field]) : IdentityPath p schema field := by
  obtain ⟨f, hfield, hkind, -⟩ := hf.exists_field
  have hleads := hp.resolved.leads hp.root
  obtain ⟨root, hops, leaf⟩ := p
  cases hops with
  | cons hop hops => simp [FieldPath.names, FieldPath.segments] at hnames
  | nil =>
    obtain rfl : leaf.name = field := by simpa [FieldPath.names, FieldPath.segments] using hnames
    refine ⟨hp, rfl, rfl, ?_⟩
    cases hleads with
    | @leaf _ name g hg =>
      obtain rfl : g = f := Option.some.inj (hg.symm.trans hfield)
      exact hkind

namespace IdentityPath

theorem read (h : IdentityPath p schema field) (row : Record) :
    p.read row = .ofOption (row.getValue? field) := by
  rw [FieldPath.read, h.hops, FieldPath.readFrom, h.name]

/-- The identity of a row is what the path reads. -/
theorem identityOf_eq_some_iff (h : IdentityPath p schema field) (hrow : row.Conforms schema)
    {id : Int64} : identityOf (some field) row = some id ↔ p.read row = .int id := by
  have hkind := h.on.resolved.hasKind_read h.on.scalar (h.on.conforms hrow)
  rw [h.kind, h.read, Value.hasKind_int_iff] at hkind
  rw [h.read, identityOf, Option.bind_some]
  cases hv : row.getValue? field with
  | none => simp [Value.ofOption]
  | some v =>
    rw [hv] at hkind
    obtain rfl | ⟨i, rfl⟩ : v = .null ∨ ∃ i, v = .int i := hkind
    · simp [Value.ofOption]
    · simp [Value.ofOption]

/-- A row that is given an identity has one already, or the next one is written to it. -/
theorem identify_cases (h : IdentityPath p schema field)
    (hi : identify (some field) next row = .ok (next', stored)) :
    (stored = row ∧ ∃ id, identityOf (some field) row = some id) ∨
      p.write row (.int next) = (.ok (), stored) := by
  rcases Table.identify_cases hi with ⟨hnone, -⟩ | ⟨hany, -, rfl⟩ | ⟨_, ⟨⟩, -, hset, -⟩
  · cases hnone
  · exact .inl ⟨rfl, Option.isSome_iff_exists.1 (Option.isSome_of_any hany)⟩
  · right
    rw [FieldPath.write, h.hops, FieldPath.writeFrom, h.name, hset]

/-- A row that was given an identity has one. -/
theorem exists_identityOf (h : IdentityPath p schema field) (hrow : row.Conforms schema)
    (hi : identify (some field) next row = .ok (next', stored)) :
    ∃ id, identityOf (some field) stored = some id := by
  rcases h.identify_cases hi with ⟨rfl, hid⟩ | hwrite
  · exact hid
  · have hread := h.on.resolved.read_write_self (v := .int next) (h.on.conforms hrow)
      (by rw [hwrite])
    rw [hwrite, h.kind] at hread
    exact ⟨next, (h.identityOf_eq_some_iff (conforms_of_identify hi hrow)).2
      (Option.some.inj hread).symm⟩

/-- Giving a row an identity changes no other path. -/
theorem read_identify (h : IdentityPath p schema field) (hrow : row.Conforms schema)
    (hi : identify (some field) next row = .ok (next', stored)) {q : FieldPath}
    (hq : q.ScalarOn schema) (hne : q.names ≠ p.names) : q.read stored = q.read row := by
  rcases h.identify_cases hi with ⟨rfl, -⟩ | hwrite
  · rfl
  · have hread := h.on.resolved.read_write_of_isSingleHop (v := .int next) hq.resolved
      (hq.root.trans h.on.root.symm) (h.on.conforms hrow) h.hops hne
    rw [hwrite] at hread
    exact hread

end IdentityPath

/-- A row whose identity differs from all others is the only one with it. -/
theorem filter_identity {rows : List Record} {identity : Option String} {id : Int64}
    (hid : identityOf identity stored = some id)
    (hnodup : ((rows ++ [stored]).filterMap (identityOf identity)).Nodup) :
    (rows ++ [stored]).filter (fun row => identityOf identity row == some id) = [stored] := by
  rw [List.filterMap_append, List.filterMap_cons_some hid, List.nodup_append] at hnodup
  have hother : rows.filter (fun row => identityOf identity row == some id) = [] := by
    rw [List.filter_eq_nil_iff]
    intro row hrow hsame
    have hmem : id ∈ rows.filterMap (identityOf identity) :=
      List.mem_filterMap.2 ⟨row, hrow, by simpa using hsame⟩
    exact hnodup.2.2 id hmem id (by simp) rfl
  rw [List.filter_append, hother, List.filter_cons_of_pos (by simp [hid])]
  rfl

end Table

/-! ### Reads by key -/

/-- A value is compared with a signed number by being the same, if it is one or null. -/
theorem Comparison.holds_eq_int {v : Value} (hv : v.HasKind .int) {id : Int64} :
    Comparison.eq.holds v (.int id) = true ↔ v = .int id := by
  obtain rfl | ⟨i, rfl⟩ := Value.hasKind_int_iff.1 hv
  · simp [holds, Value.compareEq]
  · simp [holds, Value.compareEq, Value.compareNumbers, Value.number?, Number.compare?,
      Number.integer?, Int64.toInt_inj]

/-- Comparing the path with a number is comparing the identity. -/
theorem Table.IdentityPath.holds_eq {p : FieldPath} {schema : Schema} {field : String}
    (h : IdentityPath p schema field) {row : Record} (hrow : row.Conforms schema) (id : Int64) :
    Comparison.eq.holds (p.read row) (.int id) = (identityOf (some field) row == some id) := by
  have hkind := h.on.resolved.hasKind_read h.on.scalar (h.on.conforms hrow)
  rw [h.kind] at hkind
  rw [Bool.eq_iff_iff, Comparison.holds_eq_int hkind, beq_iff_eq, h.identityOf_eq_some_iff hrow]

/-- The predicate of models that have a value at the model path of a mapping. -/
def Mapping.valueFilter (k : Mapping) (x : Param) (v : Value) : Lambda :=
  ⟨x, ((Expr.parameter x).chain k.model.names).equals (.constant v)⟩

namespace MappingSet

variable {set : MappingSet} {model entity : Schema} {k : Mapping}

/-- The translated predicate compares the entity path of the mapping, on every entity. -/
theorem Sound.exists_translate_valueFilter (hs : set.Sound model entity) (hk : k ∈ set.mappings)
    {x : Param} (hx : x.schema = model) {v : Value} (hv : k.entity.leaf.type.kind = v.kind) :
    ∃ g, set.translate .modelToEntity (k.valueFilter x v) = .ok g ∧
      ∀ row, row.Conforms entity →
        g.test row = .ok (Comparison.eq.holds (k.entity.read row) v) := by
  have hb := hs.between k hk
  let y : Param := ⟨x.name, entity⟩
  have hchain : (Expr.parameter x).chain k.model.names = k.model.toExpr (.parameter x) :=
    hb.model.resolved.chain_names (hx.trans hb.model.root.symm)
  have hleft : set.translateExpr .modelToEntity x y (k.model.toExpr (.parameter x)) =
      .ok (k.entity.toExpr (.parameter y)) := by
    rw [translateExpr_toExpr, hs.find_model hk]
    rfl
  have hcomparable : Expr.Comparable (k.entity.toExpr (.parameter y)) (.constant v) :=
    .kinds (hb.entity.resolved.kind_toExpr.trans hv)
  obtain ⟨l, r, hcoerce, hl, hr⟩ := Expr.exists_coerce (.comparison .eq) hcomparable
  have hbody : set.translateExpr .modelToEntity x y (k.valueFilter x v).body =
      .ok (.binary (.comparison .eq) l r) := by
    rw [Mapping.valueFilter, hchain, Expr.equals, translateExpr, hleft, translateExpr]
    exact congrArg Except.ok hcoerce
  refine ⟨⟨y, .binary (.comparison .eq) l r⟩,
    hs.translate_eq_ok (List.ne_nil_of_mem hk) hx hbody, fun row hrow => ?_⟩
  have hlookup : Env.lookup? [(y, row)] y = some row := by simp [Env.lookup?]
  have hyields := (hl.yields (yields_toExpr hb.entity hrow hlookup)).comparison .eq
    (hr.yields (.constant v))
  cases hyields with
  | value heval =>
    rw [Lambda.test, Lambda.apply_of_conforms hrow, heval]
    rfl

end MappingSet

/-! ### Orders by fields -/

/-- The selector picks a scalar field of the schema, maybe through nested records. -/
def Lambda.PicksScalar (f : Lambda) (schema : Schema) : Prop :=
  ∃ names p, f.param.schema = schema ∧ f.body = (Expr.parameter f.param).chain names ∧
    FieldPath.ofNames schema names = .ok p ∧ p.leaf.type.kind.isScalar = true

theorem Lambda.PicksScalar.exists_select {f : Lambda} {schema : Schema} (h : f.PicksScalar schema)
    {row : Record} (hrow : row.Conforms schema) : ∃ v, f.select row = .ok v := by
  obtain ⟨x, body⟩ := f
  obtain ⟨names, p, hx, hbody, hnames, hscalar⟩ := h
  obtain ⟨hroot, hp, rfl⟩ := FieldPath.ofNames_eq_ok hnames
  have hx' : x.schema = p.root := hx.trans hroot.symm
  have hchain : body = p.toExpr (.parameter x) := hbody.trans (hp.chain_names hx')
  rw [hchain]
  exact ⟨_, hp.select_toExpr hscalar (hroot ▸ hrow) hx'⟩

/-- Such selectors have keys for every row. -/
theorem exists_rowKeys {order : List OrderTerm} {schema : Schema}
    (h : ∀ term ∈ order, term.selector.PicksScalar schema) {row : Record}
    (hrow : row.Conforms schema) : ∃ keys, rowKeys order row = .ok keys := by
  refine exists_mapM fun term hterm => ?_
  obtain ⟨v, hv⟩ := (h term hterm).exists_select hrow
  exact ⟨v, by rw [hv]; rfl⟩

namespace Service

variable {model entity : Schema} {declarations : List MappingDeclaration}
  {defaultOrder : List OrderTerm} {pagination : PaginationPolicy} {s : Service Table}
  {t after : Table} {m stored c : Record} {r : Results Record} {field : String} {k : Mapping}

/-! ### One creation -/

/-- The model was written to a fresh entity, which got an identity and a place at the end of the
table, and was projected again. -/
structure Creates (s : Service Table) (t : Table) (m stored c : Record) (after : Table) : Prop where
  written : ∃ entity, s.writeEntity m s.entity.default = .ok entity ∧
    Table.identify t.identity t.nextIdentity entity = .ok (after.nextIdentity, stored)
  added : after.rows = t.rows ++ [stored]
  identity : after.identity = t.identity
  distinct : after.identities.Nodup
  projected : s.project stored = .ok c

/-- What a creation that succeeds has done. -/
theorem exists_creates (hrepo : s.repository = Table.repository) (ht : t.identity = some field)
    (h : s.insert t [m] = (.ok r, after)) :
    ∃ stored c, s.Creates t m stored c after ∧ r = .single c := by
  obtain ⟨entities, committed, items, hwrite, hcommit, hproject, rfl⟩ := (insert_eq_ok hrepo).1 h
  obtain ⟨entity, hentity, rfl⟩ := mapM_singleton_eq_ok.1 hwrite
  obtain ⟨stored, hstored, hinserted, hrows⟩ := Table.after_insert_singleton hcommit
  obtain ⟨hcontinues, hdistinct⟩ := Table.continues_of_commit ht hcommit
  rw [hinserted] at hproject
  obtain ⟨c, hc, rfl⟩ := mapM_singleton_eq_ok.1 hproject
  exact ⟨stored, c, ⟨⟨entity, hentity, hstored⟩, hrows, hcontinues.identity, hdistinct, hc⟩, rfl⟩

/-! ### The values of the created model -/

/-- The created row conforms, has an identity, and has the values of the model at all other
paths. -/
theorem Creates.values (hc : s.Creates t m stored c after) (hs : s.Faithful model entity)
    (hdistinct : s.mappings.DistinctEntities) (hm : m.Conforms model)
    (hp : Table.IdentityPath k.entity entity field) (ht : t.identity = some field) :
    stored.Conforms entity ∧ (∃ id, Table.identityOf (some field) stored = some id) ∧
      ∀ n ∈ s.mappings.mappings, n.entity.names ≠ k.entity.names → n.model.read m ≠ .null →
        n.entity.read stored = n.model.read m := by
  obtain ⟨written, hwrite, hidentify⟩ := hc.written
  rw [ht] at hidentify
  rw [hs.entity_eq] at hwrite
  have hwrite := mapError_eq_ok.1 hwrite
  have hconf := hs.sound.conforms_writeEntity entity.default_conforms hwrite
  refine ⟨Table.conforms_of_identify hidentify hconf, hp.exists_identityOf hconf hidentify, ?_⟩
  intro n hn hne hvalue
  have hb := hs.sound.between n hn
  have hkind : (n.model.read m).cast n.entity.leaf.type.kind = some (n.model.read m) := by
    rw [← hs.sameKinds n hn]
    exact hb.model.resolved.hasKind_read hb.model.scalar (hb.model.conforms hm)
  have hread := (hs.sound.partlyWritten hdistinct entity.default_conforms hwrite).written n hn hvalue
  rw [hp.read_identify hconf hidentify hb.entity hne]
  exact Option.some.inj (hread.symm.trans hkind)

/-! ### The read that follows -/

/-- A read by the key of one row finds this row alone. -/
theorem read_valueFilter (hrepo : s.repository = Table.repository) (hs : s.Faithful model entity)
    (hk : k ∈ s.mappings.mappings) (hp : Table.IdentityPath k.entity entity field)
    (hunbounded : s.pagination.defaultPageSize = none)
    (horder : ∀ term ∈ s.defaultOrder, term.selector.PicksScalar entity)
    (hrows : ∀ row ∈ after.rows, row.Conforms entity) {id : Int64}
    (hfound : after.rows.filter (fun row => Table.identityOf (some field) row == some id) = [stored])
    (hc : s.project stored = .ok c) {x : Param} (hx : x.schema = model) :
    s.read after ⟨some (k.valueFilter x (.int id)), [], none, none⟩ =
      .ok (.single c) := by
  obtain ⟨g, hg, htest⟩ := hs.sound.exists_translate_valueFilter hk hx (v := .int id) hp.kind
  have hfilter : s.translateFilter (some (k.valueFilter x (.int id))) = .ok (some g) := by
    rw [translateFilter, Service.translate, hg]
    rfl
  have hpasses : ∀ row ∈ after.rows, passes (some g) row =
      .ok (Table.identityOf (some field) row == some id) := by
    intro row hrow
    have hconf := hrows row hrow
    rw [passes, htest row hconf, hp.holds_eq hconf]
    rfl
  obtain ⟨hdecides, hmeets⟩ := decides_of_passes hpasses
  have hone : after.rows.filter (meets (some g)) = [stored] :=
    (List.filter_congr hmeets).trans hfound
  have hstored : stored ∈ after.rows :=
    (List.mem_filter.1 (hone ▸ List.mem_singleton_self stored)).1
  obtain ⟨keys, hkeys⟩ := exists_rowKeys horder (hrows stored hstored)
  have hsorted : sortRows s.defaultOrder (after.rows.filter (meets (some g))) = .ok [stored] := by
    rw [hone]
    exact sortRows_singleton hkeys
  have hwindow : s.pagination.window none none = none := by
    rw [PaginationPolicy.window, PaginationPolicy.limitPageSize, hunbounded]
    rfl
  have hitems : (PageWindow.applyTo (s.pagination.window none none) [stored]).mapM s.project =
      .ok [c] := by
    rw [hwindow]
    exact mapM_singleton_eq_ok.2 ⟨c, hc, rfl⟩
  rw [read_eq_ok hrepo hfilter rfl hdecides hsorted hitems, List.countP_eq_length_filter, hone]
  rfl

/-- **A created model reads back.**  The answer has the values of the model, the table has one more
row, at its end, and a read by the key of the answer finds the answer. -/
theorem create_read_round_trip
    (hbuild : build model entity declarations defaultOrder pagination (.ok Table.repository) = .ok s)
    (hdeclared : ∀ c ∈ declarations, c.model.param.schema = model ∧ c.entity.param.schema = entity)
    (hkinds : s.mappings.SameKinds) (hdistinct : s.mappings.DistinctEntities)
    (hkeys : s.mappings.keys = [k]) (hkey : k.entity.names = [field])
    (hidentity : Table.IdentityField entity field)
    (hunbounded : s.pagination.defaultPageSize = none)
    (horder : ∀ term ∈ s.defaultOrder, term.selector.PicksScalar entity)
    (ht : t.identity = some field) (hrows : ∀ row ∈ t.rows, row.Conforms entity)
    (hm : m.Conforms model) (h : (s.create t [m]).outcome = .ok r) :
    ∃ stored c, r = .single c ∧
      (s.create t [m]).store.rows = t.rows ++ [stored] ∧ s.project stored = .ok c ∧
      (∀ n ∈ s.mappings.mappings, n.isKey = false → n.model.read m ≠ .null →
        n.model.read c = n.model.read m) ∧
      ∀ x : Param, x.schema = model →
        (s.get (s.create t [m]).store
          ⟨some (k.valueFilter x (k.model.read c)), [], none, none⟩).outcome =
            .ok (.single c) := by
  have hs := faithful_of_build hbuild hdeclared hkinds
  have hrepo := repository_of_build hbuild
  obtain ⟨hk, hisKey⟩ : k ∈ s.mappings.mappings ∧ k.isKey = true :=
    List.mem_filter.1 (show k ∈ s.mappings.keys from hkeys ▸ List.mem_singleton_self k)
  have hp := hidentity.identityPath (hs.sound.between k hk).entity hkey
  obtain ⟨stored, c, hc, rfl⟩ :
      ∃ stored c, s.Creates t m stored c (s.create t [m]).store ∧ r = .single c :=
    exists_creates hrepo ht (Prod.ext h rfl)
  obtain ⟨hconf, ⟨id, hid⟩, hvalues⟩ := hc.values hs hdistinct hm hp ht
  have hagrees : s.mappings.Agrees c stored :=
    hs.sound.agrees_project hs.sameKinds hconf (hs.model_eq ▸ mapError_eq_ok.1 hc.projected)
  refine ⟨stored, c, rfl, hc.added, hc.projected, fun n hn hother hvalue => ?_, fun x hx => ?_⟩
  · have hne : n.entity.names ≠ k.entity.names := by
      intro hnames
      rw [List.inj_on_of_nodup_map hdistinct hn hk hnames, hisKey] at hother
      cases hother
    rw [hagrees n hn]
    exact hvalues n hn hne hvalue
  · have hread : k.model.read c = .int id := by
      rw [hagrees k hk]
      exact (hp.identityOf_eq_some_iff hconf).1 hid
    have hafter : ∀ row ∈ (s.create t [m]).store.rows, row.Conforms entity := by
      rw [hc.added]
      intro row hrow
      obtain hrow | hrow := List.mem_append.1 hrow
      · exact hrows row hrow
      · exact List.mem_singleton.1 hrow ▸ hconf
    have hfound : (s.create t [m]).store.rows.filter
        (fun row => Table.identityOf (some field) row == some id) = [stored] := by
      have hnodup := hc.distinct
      rw [Table.identities, hc.identity, ht, hc.added] at hnodup
      rw [hc.added]
      exact Table.filter_identity hid hnodup
    rw [hread]
    exact read_valueFilter hrepo hs hk hp hunbounded horder hafter hfound hc.projected hx

end Service

/-! ### Users -/

namespace Sample

/-- The mapping between the identities of users and models. -/
def userKey : Mapping :=
  ⟨⟨userModel, [], ⟨"id", userModel, .optional .int⟩⟩,
    ⟨user, [], ⟨"id", user, .required .int⟩⟩, true⟩

/-- A user without identity gets the third one, and is read back by it. -/
theorem create_eve_reads_back :
    ∃ stored c, Results.single (userView 3 "Eve" (some "guest")) = .single c ∧
      (userService.create twoUsers [userView 0 "Eve" (some "guest")]).store.rows =
        twoUsers.rows ++ [stored] ∧
      userService.project stored = .ok c ∧
      (∀ n ∈ userService.mappings.mappings, n.isKey = false →
        n.model.read (userView 0 "Eve" (some "guest")) ≠ .null →
          n.model.read c = n.model.read (userView 0 "Eve" (some "guest"))) ∧
      ∀ x : Param, x.schema = userModel →
        (userService.get (userService.create twoUsers [userView 0 "Eve" (some "guest")]).store
          ⟨some (userKey.valueFilter x (userKey.model.read c)), [], none,
            none⟩).outcome = .ok (.single c) := by
  have horder : ∀ term ∈ userService.defaultOrder, term.selector.PicksScalar user :=
    List.forall_mem_singleton.2 ⟨["id"], _, rfl, rfl, rfl, rfl⟩
  have hidentity : Table.IdentityField user "id" := ⟨_, rfl, rfl, rfl⟩
  exact Service.create_read_round_trip build_userService userDeclarations_over
    userMappings_sameKinds userMappings_distinctEntities rfl rfl hidentity rfl horder rfl
    twoUsers_conform (userView_conforms ..) rfl

end Sample

end RecordView
