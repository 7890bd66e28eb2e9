import RecordView.Proofs.Service.View
import RecordView.Proofs.Store.Commit

/-!
# Deletions

A deletion translates its predicate and lets the repository remove the rows that satisfy the
translation.  These are the rows whose models satisfy the predicate itself (`Service.selects`).  All
others stay, in their order, and since the identities of fewer rows are still distinct, the commit
is not refused (`Service.delete_removes_selected`).
-/

namespace RecordView

/-- Fewer rows have fewer identities, which are distinct if they were before. -/
theorem Table.nodup_identities_filter {t : Table} (h : t.identities.Nodup) (p : Record → Bool) :
    { t with rows := t.rows.filter p }.identities.Nodup :=
  h.sublist (List.filter_sublist.filterMap _)

namespace Service

variable {σ : Type} {model entity : Schema} {declarations : List MappingDeclaration}
  {defaultOrder : List OrderTerm} {pagination : PaginationPolicy}

/-- Whether a row has a model that satisfies the predicate. -/
def selects (s : Service σ) (f : Lambda) (row : Record) : Bool :=
  (s.project row).toOption.any (meets (some f))

/-- A translated predicate decides every row that has a model, and selects it by its model. -/
theorem Faithful.exists_translate_selects {s : Service σ} (hs : s.Faithful model entity) {f : Lambda}
    (hf : s.FilterOver model (some f)) :
    ∃ g, s.translate f = .ok g ∧ ∀ row m, row.Conforms entity → s.project row = .ok m →
      f.test m = .ok (s.selects f row) ∧ passes (some g) row = .ok (s.selects f row) := by
  obtain ⟨filter, hfilter, hpasses⟩ := hs.exists_translateFilter hf
  cases hg : s.translate f with
  | error e => rw [translateFilter, hg] at hfilter; cases hfilter
  | ok g =>
    rw [translateFilter, hg] at hfilter
    cases hfilter
    refine ⟨g, rfl, fun row m hrow hm => ?_⟩
    obtain ⟨b, hmodel, hentity⟩ := hpasses m row (hs.linked hrow hm)
    have hselects : s.selects f row = b := by
      rw [selects, hm]
      exact meets_of_passes hmodel
    rw [hselects]
    exact ⟨mapError_eq_ok.1 hmodel, hentity⟩

variable {s : Service Table} {t : Table} {f g : Lambda} {p : Record → Bool}

/-- A deletion removes the rows that satisfy the translated predicate. -/
theorem remove_eq (hrepo : s.repository = Table.repository) (hg : s.translate f = .ok g)
    (hidentities : t.identities.Nodup)
    (hpasses : ∀ row ∈ t.rows, passes (some g) row = .ok (p row)) :
    s.remove t f =
      (.ok (t.rows.countP p), { t with rows := t.rows.filter fun row => !p row }) := by
  obtain ⟨hdecides, hmeets⟩ := decides_of_passes hpasses
  have hcommit := Table.commit_remove_eq_ok.2 ⟨hdecides,
    Table.nodup_identities_filter hidentities _, rfl, rfl⟩
  have hstay : (t.rows.filter fun row => !meets (some g) row) = t.rows.filter fun row => !p row :=
    List.filter_congr fun row hrow => by rw [hmeets row hrow]
  have hgone : t.rows.countP (meets (some g)) = t.rows.countP p :=
    List.countP_congr fun row hrow => by rw [hmeets row hrow]
  rw [remove, hg, hrepo]
  simp only [Table.repository, hcommit, hstay, hgone]

/-- A read finds nothing where no row satisfies the translated predicate. -/
theorem read_of_forall_not (hrepo : s.repository = Table.repository) (hg : s.translate f = .ok g)
    (hpasses : ∀ row ∈ t.rows, passes (some g) row = .ok false) (page pageSize : Option Int64) :
    s.read t ⟨some f, [], page, pageSize⟩ = .ok ⟨0, []⟩ := by
  have hfilter : s.translateFilter (some f) = .ok (some g) := by rw [translateFilter, hg]; rfl
  obtain ⟨hdecides, hmeets⟩ := decides_of_passes (p := fun _ => false) hpasses
  have hnone : t.rows.filter (meets (some g)) = [] :=
    List.filter_eq_nil_iff.2 fun row hrow => by simp [hmeets row hrow]
  have hsorted : sortRows s.defaultOrder (t.rows.filter (meets (some g))) = .ok [] := by
    rw [hnone]
    rfl
  have hitems : (PageWindow.applyTo (s.pagination.window page pageSize) []).mapM s.project =
      .ok [] := by
    cases s.pagination.window page pageSize with
    | none => rfl
    | some w => simp [PageWindow.applyTo, PageWindow.apply]; rfl
  rw [read_eq_ok hrepo hfilter rfl hdecides hsorted hitems, List.countP_eq_length_filter,
    hnone]
  rfl

/-- **A deletion removes exactly the rows whose models satisfy the predicate**, and a read with the
same predicate finds nothing afterwards. -/
theorem delete_removes_selected
    (hbuild : build model entity declarations defaultOrder pagination (.ok Table.repository) = .ok s)
    (hdeclared : ∀ c ∈ declarations, c.model.param.schema = model ∧ c.entity.param.schema = entity)
    (hkinds : s.mappings.SameKinds) (hrows : ∀ row ∈ t.rows, row.Conforms entity)
    (hmodels : ∀ row ∈ t.rows, ∃ m, s.project row = .ok m) (hidentities : t.identities.Nodup)
    (hf : s.FilterOver model (some f)) :
    (∀ row ∈ t.rows, ∃ m, s.project row = .ok m ∧ f.test m = .ok (s.selects f row)) ∧
    (s.delete t f).outcome = .ok (t.rows.any (s.selects f)) ∧
    (s.delete t f).store = { t with rows := t.rows.filter fun row => !s.selects f row } ∧
    ∀ page pageSize,
      (s.get (s.delete t f).store ⟨some f, [], page, pageSize⟩).outcome = .ok ⟨0, []⟩ := by
  have hs := faithful_of_build hbuild hdeclared hkinds
  have hrepo := repository_of_build hbuild
  obtain ⟨g, hg, hsame⟩ := hs.exists_translate_selects hf
  have hpasses : ∀ row ∈ t.rows, passes (some g) row = .ok (s.selects f row) := by
    intro row hrow
    obtain ⟨m, hm⟩ := hmodels row hrow
    exact (hsame row m (hrows row hrow) hm).2
  have hremove := remove_eq hrepo hg hidentities hpasses
  have houtcome : (s.delete t f).outcome = (s.remove t f).1.map fun n => decide (0 < n) := rfl
  have hstore : (s.delete t f).store = (s.remove t f).2 := rfl
  rw [houtcome, hstore, hremove]
  refine ⟨fun row hrow => ?_, ?_, rfl, fun page pageSize => ?_⟩
  · obtain ⟨m, hm⟩ := hmodels row hrow
    exact ⟨m, hm, (hsame row m (hrows row hrow) hm).1⟩
  · have hany : decide (0 < t.rows.countP (s.selects f)) = t.rows.any (s.selects f) := by
      rw [Bool.eq_iff_iff, decide_eq_true_iff, List.countP_pos_iff, List.any_eq_true]
    rw [← hany]
    rfl
  · refine read_of_forall_not hrepo hg (fun row hrow => ?_) page pageSize
    obtain ⟨hmem, hstays⟩ := List.mem_filter.1 hrow
    rw [hpasses row hmem, show s.selects f row = false by simpa using hstays]

end Service

/-! ### Users -/

namespace Sample

/-- Both users are deleted: Ada is an administrator, and the age of Bob is unknown. -/
theorem delete_adminOrYoung :
    (∀ row ∈ twoUsers.rows, ∃ m, userService.project row = .ok m ∧
      adminOrYoung.test m = .ok (userService.selects adminOrYoung row)) ∧
    (userService.delete twoUsers adminOrYoung).outcome =
      .ok (twoUsers.rows.any (userService.selects adminOrYoung)) ∧
    (userService.delete twoUsers adminOrYoung).store =
      { twoUsers with
        rows := twoUsers.rows.filter fun row => !userService.selects adminOrYoung row } ∧
    ∀ page pageSize,
      (userService.get (userService.delete twoUsers adminOrYoung).store
        ⟨some adminOrYoung, [], page, pageSize⟩).outcome = .ok ⟨0, []⟩ := by
  have hmodels : ∀ row ∈ twoUsers.rows, ∃ m, userService.project row = .ok m :=
    List.forall_mem_cons.2 ⟨⟨_, rfl⟩, List.forall_mem_singleton.2 ⟨_, rfl⟩⟩
  have hf : userService.FilterOver userModel (some adminOrYoung) := by
    rintro _ ⟨⟩
    exact ⟨rfl, adminOrYoung_condition⟩
  exact Service.delete_removes_selected build_userService userDeclarations_over
    userMappings_sameKinds twoUsers_conform hmodels (by decide) hf

end Sample

end RecordView
