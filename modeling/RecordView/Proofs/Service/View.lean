import RecordView.Proofs.Mapping.Commuting
import RecordView.Proofs.Store.Filter
import RecordView.Service.Call

/-!
# Reading through a service

A service answers a read request from its entities: it translates the filter and the order, lets
the repository count, select, sort and cut out the page, and projects what comes back.  The answer
is the one that the projected models give themselves, with the filter and the order as they are
(`Service.get_eq_answerFrom`): the models on which the filter is true, sorted by what the selectors
pick from them, and of these the page (`Service.answerFrom`).

Every row is *linked* to its model (`MappingSet.Linked`), so a translated condition has the same
truth on the row as the condition on the model (`Service.Faithful.exists_translateFilter`), and a
translated selector the same value (`Service.Faithful.exists_selector`).  The rows that pass, their
order and the page follow from these answers alone (`Service.read_eq_answerFrom`), so projection can
be moved from the end of a read to its beginning.
-/

namespace RecordView

namespace MappingSet

variable {set : MappingSet} {model entity : Schema} {d : Direction} {x : Param} {e : Expr}

/-! ### Conditions -/

/-- A mapped chain or a constant. -/
inductive Plain (set : MappingSet) (d : Direction) (x : Param) : Expr → Prop
  | constant (v : Value) : Plain set d x (.constant v)
  | chain {names : List String} {m : Mapping} (found : set.find d names = .ok m) :
    Plain set d x ((Expr.parameter x).chain names)

/-- Comparisons of mapped chains and constants, searches for a part among them, and connectives of
such conditions. -/
inductive Condition (set : MappingSet) (d : Direction) (x : Param) : Expr → Prop
  | comparison (c : Comparison) {l r : Expr} (left : Plain set d x l) (right : Plain set d x r)
    (comparable : Expr.Comparable l r) : Condition set d x (.binary (.comparison c) l r)
  | part {method : Method} {l r : Expr} (asks : method.asksForPart = true)
    (whole : Plain set d x l) (part : Plain set d x r) : Condition set d x (.call method l [r])
  | connective (c : Connective) {l r : Expr} (left : Condition set d x l)
    (right : Condition set d x r) : Condition set d x (.binary (.connective c) l r)
  | not {e : Expr} (operand : Condition set d x e) : Condition set d x (.unary .not e)

theorem Plain.translatable (h : set.Plain d x e) : set.Translatable d x e := by
  cases h with
  | constant v => exact .constant v
  | chain found => exact .chain found

theorem Condition.kind (h : set.Condition d x e) : e.type.kind = .bool := by
  cases h with
  | comparison => rfl
  | @part method l r asks =>
    cases method with
    | contains | startsWith | endsWith => rfl
    | _ => cases asks
  | connective => rfl
  | not => rfl

theorem Condition.translatable (h : set.Condition d x e) : set.Translatable d x e := by
  induction h with
  | comparison c left right comparable =>
    exact .comparison c left.translatable right.translatable comparable
  | part asks whole part => exact .part asks whole.translatable part.translatable
  | connective c left right ihl ihr => exact .connective c ihl ihr left.kind right.kind
  | not operand ih => exact .not ih operand.kind

/-- The value of a mapped chain is what its path reads. -/
theorem yields_chain (hs : set.Sound model entity) {names : List String} {m : Mapping}
    (found : set.find d names = .ok m) (hx : x.schema = d.source model entity) {r : Record}
    (hr : r.Conforms (d.source model entity)) :
    ((Expr.parameter x).chain names).Yields [(x, r)] (some ((m.source d).read r)) := by
  obtain ⟨hm, hnames⟩ := mem_of_find found
  have hsource := (hs.between m hm).source d
  have hlookup : Env.lookup? [(x, r)] x = some r := by simp [Env.lookup?]
  rw [← hnames, hsource.resolved.chain_names (hx.trans hsource.root.symm)]
  exact yields_toExpr hsource hr hlookup

theorem Plain.exists_value (hs : set.Sound model entity) (h : set.Plain d x e)
    (hx : x.schema = d.source model entity) {r : Record}
    (hr : r.Conforms (d.source model entity)) : ∃ v, e.Yields [(x, r)] (some v) := by
  cases h with
  | constant v => exact ⟨v, .constant v⟩
  | chain found => exact ⟨_, yields_chain hs found hx hr⟩

/-- A condition never fails. -/
theorem Condition.exists_value (hs : set.Sound model entity) (h : set.Condition d x e)
    (hx : x.schema = d.source model entity) {r : Record}
    (hr : r.Conforms (d.source model entity)) : ∃ v, e.Yields [(x, r)] (some v) := by
  induction h with
  | comparison c left right =>
    obtain ⟨v, hv⟩ := left.exists_value hs hx hr
    obtain ⟨w, hw⟩ := right.exists_value hs hx hr
    exact ⟨_, hv.comparison c hw⟩
  | part asks whole part =>
    obtain ⟨v, hv⟩ := whole.exists_value hs hx hr
    obtain ⟨w, hw⟩ := part.exists_value hs hx hr
    exact ⟨_, hv.part asks hw⟩
  | connective c left right ihl ihr =>
    obtain ⟨v, hv⟩ := ihl
    obtain ⟨w, hw⟩ := ihr
    have hyields := hv.connective c hw left.kind right.kind
    rw [Option.bind_some, Connective.decide?] at hyields
    split at hyields
    · exact ⟨_, hyields⟩
    · exact ⟨_, hyields⟩
  | not operand ih =>
    obtain ⟨v, hv⟩ := ih
    have hyields := hv.not operand.kind
    cases hv with
    | value _ hkind =>
      rw [operand.kind] at hkind
      obtain rfl | ⟨b, rfl⟩ := Value.hasKind_bool_iff.1 hkind
      · exact ⟨_, hyields⟩
      · exact ⟨_, hyields⟩

/-- A condition is true or false of every record of its parameter's schema. -/
theorem Condition.exists_test (hs : set.Sound model entity) {f : Lambda}
    (h : set.Condition d f.param f.body) (hf : f.param.schema = d.source model entity) {r : Record}
    (hr : r.Conforms (d.source model entity)) : ∃ b, f.test r = .ok b := by
  obtain ⟨v, hv⟩ := h.exists_value hs hf hr
  cases hv with
  | value heval hkind =>
    rw [h.kind] at hkind
    refine ⟨v.isTrue, ?_⟩
    rw [Lambda.test, Lambda.apply_of_conforms (hf ▸ hr), heval]
    exact Value.truth_of_hasKind hkind

end MappingSet

namespace Service

variable {σ : Type} {model entity : Schema} {declarations : List MappingDeclaration}
  {defaultOrder : List OrderTerm} {pagination : PaginationPolicy}

/-! ### Services -/

/-- What a service is made of. -/
theorem build_eq_ok {repository : Except StoreError (Repository σ)} {s : Service σ}
    (h : build model entity declarations defaultOrder pagination repository = .ok s) :
    MappingSet.declare declarations = .ok s.mappings ∧ s.mappings.mappings ≠ [] ∧
      repository = .ok s.repository ∧ s.model = model ∧ s.entity = entity ∧
      s.pagination = pagination := by
  unfold build at h
  obtain ⟨mappings, hdeclare, h⟩ := bind_eq_ok.1 h
  dsimp only at h
  split at h
  · cases h
  · rename_i hempty
    split at h
    · cases h
    · obtain ⟨found, hfound, h⟩ := bind_eq_ok.1 h
      cases h
      exact ⟨mapError_eq_ok.1 hdeclare, by simpa using hempty, mapError_eq_ok.1 hfound, rfl, rfl,
        rfl⟩

theorem repository_of_build {repository : Repository σ} {s : Service σ}
    (h : build model entity declarations defaultOrder pagination (.ok repository) = .ok s) :
    s.repository = repository :=
  (Except.ok.inj (build_eq_ok h).2.2.1).symm

/-- The answer that models give to a read request themselves: those that pass the filter are
counted, put in order and cut to the page. -/
def answerFrom (s : Service σ) (models : List Record) (request : ReadRequest) : Results Record :=
  let kept := passing request.filter models
  ⟨kept.length, s.pagination.slice request.page request.pageSize (inOrder request.order kept)⟩

/-- A service over one model and one entity, both leaves of every mapping being of one kind. -/
structure Faithful (s : Service σ) (model entity : Schema) : Prop where
  model_eq : s.model = model
  entity_eq : s.entity = entity
  sound : s.mappings.Sound model entity
  nonempty : s.mappings.mappings ≠ []
  sameKinds : s.mappings.SameKinds

variable {s : Service σ}

theorem Faithful.linked (h : s.Faithful model entity) {row m : Record} (hrow : row.Conforms entity)
    (hm : s.project row = .ok m) : s.mappings.Linked .modelToEntity model entity m row := by
  refine h.sound.linked_project h.sameKinds hrow ?_ .modelToEntity
  rw [← h.model_eq]
  exact mapError_eq_ok.1 hm

/-! ### Filters -/

/-- The filter is a condition on the model, if there is one. -/
def FilterOver (s : Service σ) (model : Schema) (filter : Option Lambda) : Prop :=
  ∀ f, filter = some f →
    f.param.schema = model ∧ s.mappings.Condition .modelToEntity f.param f.body

/-- A filter is translated, and has the same answer on a row as on its model. -/
theorem Faithful.exists_translateFilter (h : s.Faithful model entity) {filter : Option Lambda}
    (hf : s.FilterOver model filter) :
    ∃ filter', s.translateFilter filter = .ok filter' ∧
      ∀ m row, s.mappings.Linked .modelToEntity model entity m row →
        ∃ b, passes filter m = .ok b ∧ passes filter' row = .ok b := by
  cases filter with
  | none => exact ⟨none, rfl, fun m row _ => ⟨true, rfl, rfl⟩⟩
  | some f =>
    obtain ⟨hparam, hbody⟩ := hf f rfl
    obtain ⟨g, hg, hsame⟩ := h.sound.exists_translate h.nonempty h.sameKinds
      (d := .modelToEntity) hparam hbody.translatable
    refine ⟨some g, ?_, fun m row hl => ?_⟩
    · rw [translateFilter, translate, hg]
      rfl
    · obtain ⟨b, hb⟩ := hbody.exists_test (d := .modelToEntity) h.sound hparam hl.source
      have htest := (hsame m row hl).test
      rw [hb] at htest
      refine ⟨b, by rw [passes, hb]; rfl, ?_⟩
      cases hgb : g.test row with
      | error e => rw [hgb] at htest; cases htest
      | ok b' =>
        rw [hgb] at htest
        cases htest
        rw [passes, hgb]
        rfl

/-! ### Orders -/

/-- The selector picks a mapped chain of the model. -/
def PicksMapped (s : Service σ) (model : Schema) (f : Lambda) : Prop :=
  ∃ names m, f.param.schema = model ∧ f.body = (Expr.parameter f.param).chain names ∧
    s.mappings.find .modelToEntity names = .ok m

/-- A selector is translated, and picks the same value from a row as from its model. -/
theorem Faithful.exists_selector (h : s.Faithful model entity) {f : Lambda}
    (hf : s.PicksMapped model f) :
    ∃ names g, f.fieldChain? = some names ∧ s.entitySelector names = .ok g ∧
      ∀ m row, s.mappings.Linked .modelToEntity model entity m row →
        ∃ v, f.select m = .ok v ∧ g.select row = .ok v := by
  obtain ⟨x, body⟩ := f
  obtain ⟨names, k, hparam, hbody, hfind⟩ := hf
  obtain ⟨hk, hnames⟩ := MappingSet.mem_of_find hfind
  have hb := h.sound.between k hk
  have hx : x.schema = k.model.root := hparam.trans hb.model.root.symm
  have hchain : body = k.model.toExpr (.parameter x) := by
    rw [← hb.model.resolved.chain_names hx]
    exact hbody.trans (by rw [← hnames]; rfl)
  subst hchain
  refine ⟨names, .over s.entity k.entity.toExpr, ?_, ?_, fun m row hl => ?_⟩
  · rw [← hnames]
    exact FieldPath.Resolved.fieldChain?_toExpr
  · rw [entitySelector, hfind]
    rfl
  · have hmodel := hb.model.resolved.select_toExpr hb.model.scalar
      (hb.model.conforms hl.source) hx
    have hentity := hb.entity.resolved.select_toExpr hb.entity.scalar
      (hb.entity.conforms hl.target) (x := ⟨"x", s.entity⟩)
      (h.entity_eq.trans hb.entity.root.symm)
    refine ⟨k.model.read m, hmodel, ?_⟩
    rw [show k.model.read m = k.entity.read row from hl.reads k hk]
    exact hentity

/-- Terms over mapped chains become terms of the entity, with the keys that are picked from the
model. -/
theorem Faithful.exists_terms (h : s.Faithful model entity) {order : List OrderTerm}
    (horder : ∀ term ∈ order, s.PicksMapped model term.selector) :
    ∃ terms order', plainTerms order = some terms ∧ terms.length = order.length ∧
      (terms.mapM fun term => do return (⟨← s.entitySelector term.1, term.2⟩ : OrderTerm)) =
        .ok order' ∧
      order'.map (·.direction) = order.map (·.direction) ∧
      ∀ m row, s.mappings.Linked .modelToEntity model entity m row →
        (∀ term ∈ order, ∃ v, term.selector.select m = .ok v) ∧
          rowKeys order' row = .ok (pickedKeys order m) := by
  induction order with
  | nil => exact ⟨[], [], rfl, rfl, rfl, rfl, fun _ _ _ => ⟨by simp, rfl⟩⟩
  | cons term order ih =>
    obtain ⟨terms, order', hplain, hlength, hterms, hdirections, hkeys⟩ :=
      ih fun t ht => horder t (by simp [ht])
    obtain ⟨names, g, hnames, hg, hselect⟩ := h.exists_selector (horder term (by simp))
    refine ⟨(names, term.direction) :: terms, ⟨g, term.direction⟩ :: order', ?_, ?_, ?_, ?_, ?_⟩
    · rw [plainTerms] at hplain ⊢
      rw [List.mapM_cons, hnames, hplain]
      rfl
    · rw [List.length_cons, List.length_cons, hlength]
    · rw [List.mapM_cons, hterms, hg]
      rfl
    · rw [List.map_cons, List.map_cons, hdirections]
    · intro m row hl
      obtain ⟨v, hv, hv'⟩ := hselect m row hl
      obtain ⟨hselects, hrest⟩ := hkeys m row hl
      refine ⟨List.forall_mem_cons.2 ⟨⟨v, hv⟩, hselects⟩, ?_⟩
      rw [rowKeys] at hrest ⊢
      rw [List.mapM_cons, hv', hrest, pickedKeys_cons hv]
      rfl

/-- An order is translated, and a row has the keys that are picked from its model. -/
theorem Faithful.exists_entityOrder (h : s.Faithful model entity) {order : List OrderTerm}
    (hne : order ≠ []) (horder : ∀ term ∈ order, s.PicksMapped model term.selector) :
    ∃ order', s.entityOrder order = .ok order' ∧
      order'.map (·.direction) = order.map (·.direction) ∧
      ∀ m row, s.mappings.Linked .modelToEntity model entity m row →
        (∀ term ∈ order, ∃ v, term.selector.select m = .ok v) ∧
          rowKeys order' row = .ok (pickedKeys order m) := by
  obtain ⟨terms, order', hplain, hlength, hterms, hdirections, hkeys⟩ := h.exists_terms horder
  refine ⟨order', ?_, hdirections, hkeys⟩
  cases terms with
  | nil => exact absurd (List.length_eq_zero_iff.1 hlength.symm) hne
  | cons first rest => rw [entityOrder, hplain]; exact hterms

/-! ### Reads -/

/-- A service whose declarations are over one model and one entity. -/
theorem faithful_of_build {repository : Except StoreError (Repository σ)}
    (h : build model entity declarations defaultOrder pagination repository = .ok s)
    (hdeclared : ∀ c ∈ declarations, c.model.param.schema = model ∧ c.entity.param.schema = entity)
    (hkinds : s.mappings.SameKinds) : s.Faithful model entity := by
  obtain ⟨hdeclare, hne, -, hmodel, hentity, -⟩ := build_eq_ok h
  exact ⟨hmodel, hentity, MappingSet.sound_of_declare hdeclare hdeclared, hne, hkinds⟩

/-- A read of a table, by what it finds. -/
theorem read_eq_ok {s : Service Table} (hrepo : s.repository = Table.repository) {t : Table}
    {filter filter' : Option Lambda} (hfilter : s.translateFilter filter = .ok filter')
    {order order' : List OrderTerm} (horder : s.entityOrder order = .ok order')
    (hdecides : Decides filter' t.rows) {sorted items : List Record}
    (hsorted : sortRows order' (t.rows.filter (meets filter')) = .ok sorted)
    {page pageSize : Option Int64}
    (hitems : (PageWindow.applyTo (s.pagination.window page pageSize) sorted).mapM s.project =
      .ok items) :
    s.read t ⟨filter, order, page, pageSize⟩ = .ok ⟨t.rows.countP (meets filter'), items⟩ := by
  have hcount := Table.count_eq_ok.2 ⟨hdecides, rfl⟩
  have hload : t.load ⟨filter', order', s.pagination.window page pageSize⟩ =
      .ok (PageWindow.applyTo (s.pagination.window page pageSize) sorted) := by
    simp only [Table.load, selectRows_eq_ok.2 ⟨hdecides, rfl⟩, hsorted, bind, Except.bind]
    rfl
  rw [read, hfilter, horder, hrepo]
  simp only [bind, Except.bind, Table.repository, hcount, hload, mapError_ok, hitems]
  rfl

/-- A read answers what the models answer, when a row passes as its model does and has the keys
that are picked from its model. -/
theorem read_eq_answerFrom {s : Service Table} (hrepo : s.repository = Table.repository) {t : Table}
    {filter filter' : Option Lambda} (hfilter : s.translateFilter filter = .ok filter')
    {order order' : List OrderTerm} (horder : s.entityOrder order = .ok order')
    (hdirections : order'.map (·.direction) = order.map (·.direction)) {view : Record → Record}
    (hview : ∀ row ∈ t.rows, s.project row = .ok (view row))
    (hpasses : ∀ row ∈ t.rows, passes filter' row = .ok (meets filter (view row)))
    (hkeys : ∀ row ∈ t.rows, rowKeys order' row = .ok (pickedKeys order (view row)))
    {page pageSize : Option Int64} :
    s.read t ⟨filter, order, page, pageSize⟩ =
      .ok (s.answerFrom (t.rows.map view) ⟨filter, order, page, pageSize⟩) := by
  obtain ⟨hdecides, hmeets⟩ := decides_of_passes hpasses
  let kept := t.rows.filter (meets filter')
  let sorted := stableSort (fun a b => comparePicked order (view a) (view b)) kept
  have hkept : ∀ row ∈ kept, row ∈ t.rows := fun row hrow => (List.mem_filter.1 hrow).1
  have hpassing : passing filter (t.rows.map view) = kept.map view := by
    rw [passing_eq_filter, List.filter_map]
    exact congrArg _ (List.filter_congr fun row hrow => (hmeets row hrow).symm)
  have hsorted : sortRows order' kept = .ok sorted :=
    sortRows_picked hdirections fun row hrow => hkeys row (hkept row hrow)
  have hitems : sorted.mapM s.project = .ok (sorted.map view) :=
    mapM_eq_map fun row hrow => hview row (hkept row ((stableSort_perm _ kept).mem_iff.1 hrow))
  rw [read_eq_ok hrepo hfilter horder hdecides hsorted (mapM_applyTo hitems _), answerFrom]
  simp only [hpassing, inOrder_map, List.length_map, applyTo_window, List.countP_eq_length_filter]
  rfl

/-- **Reading through a service is reading the projected view.**  Where every row has a model, the
filter is a condition on the model, and the order is by mapped chains, the filter and the selectors
fail on none of the models, and a read answers what the models answer. -/
theorem get_eq_answerFrom {s : Service Table}
    (hbuild : build model entity declarations defaultOrder pagination (.ok Table.repository) = .ok s)
    (hdeclared : ∀ c ∈ declarations, c.model.param.schema = model ∧ c.entity.param.schema = entity)
    (hkinds : s.mappings.SameKinds) {t : Table} (hrows : ∀ row ∈ t.rows, row.Conforms entity)
    {models : List Record} (hmodels : t.rows.mapM s.project = .ok models) {request : ReadRequest}
    (hfilter : s.FilterOver model request.filter) (hne : request.order ≠ [])
    (horder : ∀ term ∈ request.order, s.PicksMapped model term.selector) :
    (∀ m ∈ models, ∀ f, request.filter = some f → ∃ b, f.test m = .ok b) ∧
      (∀ m ∈ models, ∀ term ∈ request.order, ∃ v, term.selector.select m = .ok v) ∧
      (s.get t request).outcome = .ok (s.answerFrom models request) := by
  have hs := faithful_of_build hbuild hdeclared hkinds
  obtain ⟨view, hview, rfl⟩ := exists_map_of_mapM hmodels
  have hlinked : ∀ row ∈ t.rows,
      s.mappings.Linked .modelToEntity model entity (view row) row :=
    fun row hrow => hs.linked (hrows row hrow) (hview row hrow)
  obtain ⟨filter', hfilter', hpasses⟩ := hs.exists_translateFilter hfilter
  obtain ⟨order', horder', hdirections, hkeys⟩ := hs.exists_entityOrder hne horder
  refine ⟨?_, ?_, ?_⟩
  · rintro _ hm f hf
    obtain ⟨row, hrow, rfl⟩ := List.mem_map.1 hm
    obtain ⟨b, hmodel, -⟩ := hpasses _ _ (hlinked row hrow)
    rw [hf] at hmodel
    exact ⟨b, mapError_eq_ok.1 hmodel⟩
  · intro _ hm
    obtain ⟨row, hrow, rfl⟩ := List.mem_map.1 hm
    exact (hkeys _ _ (hlinked row hrow)).1
  · refine read_eq_answerFrom (repository_of_build hbuild) hfilter' horder' hdirections hview
      (fun row hrow => ?_) fun row hrow => (hkeys _ _ (hlinked row hrow)).2
    obtain ⟨b, hmodel, hentity⟩ := hpasses _ _ (hlinked row hrow)
    rw [hentity, meets_of_passes hmodel]

end Service

/-! ### Users and their models -/

namespace Sample

theorem userDeclarations_over : ∀ c ∈ userDeclarations,
    c.model.param.schema = userModel ∧ c.entity.param.schema = user := by
  simp [userDeclarations, Lambda.over]

theorem build_userService :
    Service.build userModel user userDeclarations userService.defaultOrder {}
      (.ok Table.repository) = .ok userService := rfl

/-- A user of an age, or the model of one. -/
def aged (r : Record) (age : Int64) : Record := r.setCell "age" (.value (.int age))

/-- An administrator, a user who is neither that nor young, and two users of one name, who are not
known to be old. -/
def fourUsers : Table :=
  ⟨user, some "id", [aged (userRow 1 "Ada" (some "admin")) 41, aged (userRow 2 "Bob" none) 52,
    userRow 3 "Cyd" none, aged (userRow 4 "Cyd" (some "guest")) 19], 5⟩

theorem aged_conforms {r : Record} (h : r.Conforms user) (age : Int64) :
    (aged r age).Conforms user :=
  h.setCell rfl (.value rfl (Field.store?_int rfl rfl age))

/-- The second page, of one, of those who are administrators or young, by name, and those of one
name by role, last role first. -/
def secondAdminOrYoung : ReadRequest :=
  ⟨some adminOrYoung, [⟨.over userModel (·.field "name"), .asc⟩,
    ⟨.over userModel (·.field "role"), .desc⟩], some 2, some 1⟩

theorem adminOrYoung_condition :
    userMappings.Condition .modelToEntity adminOrYoung.param adminOrYoung.body := by
  have hrole : userMappings.Plain .modelToEntity adminOrYoung.param
      ((Expr.parameter adminOrYoung.param).chain ["role"]) := .chain rfl
  have hage : userMappings.Plain .modelToEntity adminOrYoung.param
      ((Expr.parameter adminOrYoung.param).chain ["age"]) := .chain rfl
  exact .connective .or (.comparison .eq hrole (.constant _) (.kinds rfl))
    (.not (.comparison .gt hage (.constant _) (.kinds rfl)))

/-- Of the four users three are administrators or young, and of these the fourth user comes second:
after Ada, and before the other Cyd, who has no role. -/
theorem get_secondAdminOrYoung :
    (userService.get fourUsers secondAdminOrYoung).outcome =
      .ok ⟨3, [aged (userView 4 "Cyd" (some "guest")) 19]⟩ := by
  have hrows : ∀ row ∈ fourUsers.rows, row.Conforms user := by
    simp only [fourUsers, List.mem_cons, List.not_mem_nil, or_false]
    rintro row (rfl | rfl | rfl | rfl)
    · exact aged_conforms (userRow_conforms ..) 41
    · exact aged_conforms (userRow_conforms ..) 52
    · exact userRow_conforms ..
    · exact aged_conforms (userRow_conforms ..) 19
  have hmodels : fourUsers.rows.mapM userService.project =
      .ok [aged (userView 1 "Ada" (some "admin")) 41, aged (userView 2 "Bob" none) 52,
        userView 3 "Cyd" none, aged (userView 4 "Cyd" (some "guest")) 19] := rfl
  have hfilter : userService.FilterOver userModel secondAdminOrYoung.filter := by
    rintro _ ⟨⟩
    exact ⟨rfl, adminOrYoung_condition⟩
  have horder : ∀ term ∈ secondAdminOrYoung.order,
      userService.PicksMapped userModel term.selector := by
    simp only [secondAdminOrYoung, List.mem_cons, List.not_mem_nil, or_false]
    rintro term (rfl | rfl)
    · exact ⟨["name"], _, rfl, rfl, rfl⟩
    · exact ⟨["role"], _, rfl, rfl, rfl⟩
  obtain ⟨-, -, hget⟩ := Service.get_eq_answerFrom build_userService userDeclarations_over
    userMappings_sameKinds hrows hmodels hfilter (by simp [secondAdminOrYoung]) horder
  exact hget.trans rfl

end Sample

end RecordView
