import RecordView.Proofs.Service.View
import RecordView.Proofs.Store.Commit

/-!
# Creations that fail

A creation writes its models to fresh entities, commits these together, and projects the stored
rows.  The first two steps leave the store alone when they fail.  The last one comes after the
commit and takes nothing back: when it fails, all rows are stored already
(`Service.FailsLate`).  That is the only way in which a creation that fails changes the store
(`Service.store_of_failed_create`).

It fails late when a stored row reads what the model cannot hold: an identity that the table has
given is too wide for the model, or an entity has null or a zero where the model has no such value.
It never does where the model's leaves admit whatever the entity reads (`Mapping.Admits`).
-/

namespace RecordView

namespace Service

variable {model entity : Schema} {declarations : List MappingDeclaration}
  {defaultOrder : List OrderTerm} {pagination : PaginationPolicy} {s : Service Table}
  {t after : Table} {models : List Record} {e : Error}

/-- The creation fails after its commit: all models were written and stored, and then one of the
stored rows has no model. -/
def FailsLate (s : Service Table) (t : Table) (models : List Record) (e : Error)
    (after : Table) : Prop :=
  ∃ entities committed row,
    models.mapM (fun model => s.writeEntity model s.entity.default) = .ok entities ∧
      t.commit [.insert entities] = .ok (committed, after) ∧
      row ∈ committed.inserted ∧ s.project row = .error e

/-- What it takes to create: all models are written, stored together and projected. -/
theorem insert_eq_ok {r : Results Record} (hrepo : s.repository = Table.repository) :
    s.insert t models = (.ok r, after) ↔ ∃ entities committed items,
      models.mapM (fun model => s.writeEntity model s.entity.default) = .ok entities ∧
        t.commit [.insert entities] = .ok (committed, after) ∧
        committed.inserted.mapM s.project = .ok items ∧ r = ⟨items.length, items⟩ := by
  rw [insert, hrepo]
  constructor
  · intro h
    cases hwrite : models.mapM fun model => s.writeEntity model s.entity.default with
    | error e => rw [hwrite] at h; cases h
    | ok entities =>
      simp only [hwrite, Table.repository] at h
      cases hcommit : t.commit [.insert entities] with
      | error e => rw [hcommit] at h; cases h
      | ok done =>
        obtain ⟨committed, stored⟩ := done
        simp only [hcommit] at h
        cases hproject : committed.inserted.mapM s.project with
        | error e => rw [hproject] at h; cases h
        | ok items =>
          rw [hproject] at h
          cases h
          exact ⟨entities, committed, items, rfl, hcommit, hproject, rfl⟩
  · rintro ⟨entities, committed, items, hwrite, hcommit, hproject, rfl⟩
    simp only [hwrite, Table.repository, hcommit, hproject]
    rfl

/-- A creation that fails leaves the store alone, or fails late. -/
theorem eq_or_failsLate_of_insert (hrepo : s.repository = Table.repository)
    (h : s.insert t models = (.error e, after)) : after = t ∨ s.FailsLate t models e after := by
  unfold insert at h
  rw [hrepo] at h
  -- only the last of the three steps comes after a change of the store
  cases hwrite : models.mapM fun model => s.writeEntity model s.entity.default with
  | error e' =>
    rw [hwrite] at h
    cases h
    exact .inl rfl
  | ok entities =>
    simp only [hwrite, Table.repository] at h
    cases hcommit : t.commit [.insert entities] with
    | error e' =>
      rw [hcommit] at h
      cases h
      exact .inl rfl
    | ok done =>
      obtain ⟨committed, stored⟩ := done
      simp only [hcommit] at h
      cases hproject : committed.inserted.mapM s.project with
      | ok items => rw [hproject] at h; cases h
      | error e' =>
        rw [hproject] at h
        cases h
        obtain ⟨row, hrow, he⟩ := exists_error_of_mapM hproject
        exact .inr ⟨entities, committed, row, hwrite, hcommit, hrow, he⟩

/-- A creation that fails late has added rows. -/
theorem FailsLate.ne (h : s.FailsLate t models e after) : after ≠ t := by
  obtain ⟨entities, committed, row, -, hcommit, hrow, -⟩ := h
  rintro rfl
  have hrows := (Table.after_insert hcommit).2
  rw [List.self_eq_append_right.1 hrows] at hrow
  cases hrow

/-- No creation fails late where the model's leaves admit what the entity reads. -/
theorem not_failsLate_of_admits (hs : s.mappings.Sound s.model s.entity)
    (ha : ∀ m ∈ s.mappings.mappings, m.Admits) : ¬ s.FailsLate t models e after := by
  rintro ⟨entities, committed, row, hwrite, hcommit, hrow, he⟩
  -- what is stored conforms, because defaults do, and writes and new identities keep that
  have hentities : ∀ r ∈ entities, r.Conforms s.entity := by
    obtain ⟨written, hwritten, rfl⟩ := exists_map_of_mapM hwrite
    intro r hr
    obtain ⟨m, hm, rfl⟩ := List.mem_map.1 hr
    exact hs.conforms_writeEntity s.entity.default_conforms (mapError_eq_ok.1 (hwritten m hm))
  obtain ⟨m, hm⟩ := hs.exists_project ha (Table.conforms_inserted hcommit hentities row hrow)
  rw [project, hm] at he
  cases he

/-- **A creation that fails changes the store only when it fails late**, after its commit; where the
model's leaves admit whatever the entity reads, it leaves the store as it was. -/
theorem store_of_failed_create
    (hbuild : build model entity declarations defaultOrder pagination (.ok Table.repository) = .ok s)
    (h : (s.create t models).outcome = .error e) :
    ((s.create t models).store ≠ t ↔ s.FailsLate t models e (s.create t models).store) ∧
      ((∀ c ∈ declarations, c.model.param.schema = model ∧ c.entity.param.schema = entity) →
        (∀ m ∈ s.mappings.mappings, m.Admits) → (s.create t models).store = t) := by
  obtain ⟨hdeclare, -, hrepo, rfl, rfl, -⟩ := build_eq_ok hbuild
  have hcases : (s.create t models).store = t ∨
      s.FailsLate t models e (s.create t models).store :=
    eq_or_failsLate_of_insert (Except.ok.inj hrepo).symm (Prod.ext h rfl)
  refine ⟨⟨hcases.resolve_left, FailsLate.ne⟩, fun hdeclared ha => ?_⟩
  exact hcases.resolve_right
    (not_failsLate_of_admits (MappingSet.sound_of_declare hdeclare hdeclared) ha)

end Service

/-! ### Users and accounts -/

namespace Sample

/-- A model's leaf of a user admits what the user reads there. -/
theorem userMappings_admit : ∀ m ∈ userMappings.mappings, m.Admits := by
  refine List.forall_mem_cons.2 ⟨?_, List.forall_mem_cons.2 ⟨?_, List.forall_mem_cons.2 ⟨?_,
    List.forall_mem_singleton.2 ?_⟩⟩⟩
  all_goals exact Mapping.admits_of_fields rfl rfl rfl (.inl rfl) fun _ => rfl

/-- A user with the identity of a stored one is refused, and the users stay as they were. -/
theorem create_known_user :
    (userService.create twoUsers [userView 2 "Eve" none]).outcome =
        .error (StoreError.conflict "User" "id" "2").toError ∧
      (userService.create twoUsers [userView 2 "Eve" none]).store = twoUsers := by
  have hfailed : (userService.create twoUsers [userView 2 "Eve" none]).outcome =
      .error (StoreError.conflict "User" "id" "2").toError := rfl
  exact ⟨hfailed, (Service.store_of_failed_create build_userService hfailed).2
    userDeclarations_over userMappings_admit⟩

/-- The identity of an account, as a narrow number of its model. -/
def narrowDeclarations : List MappingDeclaration :=
  [⟨.over accountView (·.field "m"), .over account (·.field "id"), false⟩]

/-- The service that shows accounts by that number only. -/
def narrowService : Service Table :=
  ⟨accountView, account, (MappingSet.declare narrowDeclarations).toOption.getD .empty,
    [⟨.over account (·.field "id"), .asc⟩], {}, Table.repository⟩

/-- One account, with the greatest narrow identity. -/
def lastNarrow : Table :=
  ⟨account, some "id", [account.default.setCell "id" (.value (.int Int32.maxValue.toInt64))],
    nextWord Int32.maxValue.toInt64⟩

/-- The next account is stored, although its identity is too wide for the model. -/
theorem create_after_lastNarrow :
    Service.build accountView account narrowDeclarations narrowService.defaultOrder {}
        (.ok Table.repository) = .ok narrowService ∧
      (narrowService.create lastNarrow [accountView.default]).outcome =
        .error (WriteError.typeMismatch "AccountView" "m" (.int 2147483648)).toError ∧
      (narrowService.create lastNarrow [accountView.default]).store ≠ lastNarrow := by
  refine ⟨rfl, rfl, fun heq => ?_⟩
  have hrows : (narrowService.create lastNarrow [accountView.default]).store.rows.length =
      lastNarrow.rows.length := congrArg (·.rows.length) heq
  exact absurd hrows (by decide)

end Sample

end RecordView
