import RecordView.Proofs.Mapping.Overwriting
import RecordView.Proofs.Service.View
import RecordView.Proofs.Store.Commit

/-!
# Updates

An update asks the repository three times for the rows that have the key of the model: how many
there are, which one it is, and to put the overwritten row in its place.  On a table the three
answers agree, so an update has one of six endings (`Service.Ending`, `Service.ending_overwrite`).
It replaces one row where it stands (`Service.Overwrites`), or it fails and leaves the table alone,
and the number of matching rows alone decides whether that is for want of a row or for too many
(`Service.update_replaces_one`).

What the update writes to the row is the model's values and nothing else, up to the required fields
of records that had to be allocated (`Service.update_writes_partly`).  This holds with every
repository.
-/

namespace RecordView

/-- The rows of the repository are those of a table in its store. -/
structure Repository.KeepsTable {σ : Type} (r : Repository σ) (table : σ → Table) : Prop where
  count : ∀ store filter, r.count store filter = (table store).count filter
  load : ∀ store query, r.load store query = (table store).load query
  commit : ∀ {store batch done after}, r.commit store batch = .ok (done, after) →
    (table store).commit batch = .ok (done, table after)

theorem Table.keepsTable_repository : Table.repository.KeepsTable id :=
  ⟨fun _ _ => rfl, fun _ _ => rfl, id⟩

/-- Writing a model to an entity fails with one class of errors only. -/
theorem Service.kind_of_writeEntity {σ : Type} {s : Service σ} {m row : Record} {e : Error}
    (h : s.writeEntity m row = .error e) : e.kind = .invariantViolation := by
  rw [writeEntity] at h
  cases hw : s.mappings.writeEntity m row with
  | ok written => rw [hw] at h; cases h
  | error failure => rw [hw] at h; cases h; rfl

namespace Service

/-! ### The steps -/

section Steps

variable {σ : Type} {s : Service σ} {store after : σ} {m new : Record} {results : Results Record}

theorem expectOne_eq_ok :
    s.expectOne store m = .ok () ↔ s.repository.count store (some (s.keyFilter m)) = .ok 1 := by
  rw [expectOne]
  cases s.repository.count store (some (s.keyFilter m)) with
  | error e => exact ⟨(nomatch ·), (nomatch ·)⟩
  | ok n =>
    match n with
    | 0 => exact ⟨(nomatch ·), (nomatch ·)⟩
    | 1 => exact ⟨fun _ => rfl, fun _ => rfl⟩
    | n + 2 => exact ⟨(nomatch ·), (nomatch ·)⟩

theorem loadOne_eq_ok :
    s.loadOne store m = .ok new ↔ ∃ old rest,
      s.repository.load store ⟨some (s.keyFilter m), [], none⟩ = .ok (old :: rest) ∧
        s.writeEntity m old = .ok new := by
  rw [loadOne]
  cases s.repository.load store ⟨some (s.keyFilter m), [], none⟩ with
  | error e => exact ⟨(nomatch ·), fun ⟨_, _, h, _⟩ => nomatch h⟩
  | ok found =>
    cases found with
    | nil => exact ⟨(nomatch ·), fun ⟨_, _, h, _⟩ => nomatch h⟩
    | cons old rest =>
      constructor
      · intro h
        exact ⟨old, rest, rfl, h⟩
      · rintro ⟨_, _, ⟨⟩, h⟩
        exact h

/-- A row with the key of the model was found, the model was written to it, and the result was
committed in its place. -/
structure Replaces (s : Service σ) (store : σ) (m old new : Record) (after : σ) : Prop where
  counted : s.repository.count store (some (s.keyFilter m)) = .ok 1
  loaded : ∃ rest, s.repository.load store ⟨some (s.keyFilter m), [], none⟩ = .ok (old :: rest)
  written : s.writeEntity m old = .ok new
  committed : ∃ done,
    s.repository.commit store [.replace (s.keyFilter m) new] = .ok (done, after)

/-- An update that succeeds has replaced a row. -/
theorem exists_replaces (h : s.overwrite store m = (.ok results, after)) :
    ∃ old new, s.Replaces store m old new after := by
  rw [overwrite] at h
  cases hexpect : s.expectOne store m with
  | error e => rw [hexpect] at h; cases h
  | ok u =>
    simp only [hexpect] at h
    cases hload : s.loadOne store m with
    | error e => rw [hload] at h; cases h
    | ok new =>
      simp only [hload, storeOne] at h
      obtain ⟨old, rest, hfound, hwrite⟩ := loadOne_eq_ok.1 hload
      cases hcommit : s.repository.commit store [.replace (s.keyFilter m) new] with
      | error e => rw [hcommit] at h; cases h
      | ok done =>
        obtain ⟨committed, stored⟩ := done
        simp only [hcommit] at h
        split at h
        · cases h
        · cases h
          exact ⟨old, new, expectOne_eq_ok.1 hexpect, ⟨rest, hfound⟩, hwrite, ⟨committed, hcommit⟩⟩

end Steps

/-! ### What is written -/

section Written

variable {σ : Type} {model entity : Schema} {declarations : List MappingDeclaration}
  {defaultOrder : List OrderTerm} {pagination : PaginationPolicy} {s : Service σ}
  {store after : σ} {m old new : Record} {results : Results Record} {table : σ → Table}

/-- In a table the new row stands where the old one stood. -/
theorem Replaces.in_place (h : s.Replaces store m old new after)
    (hr : s.repository.KeepsTable table) :
    ∃ before behind, (table store).rows = before ++ old :: behind ∧
      (table after).rows = before ++ new :: behind := by
  obtain ⟨rest, hload⟩ := h.loaded
  obtain ⟨done, hcommit⟩ := h.committed
  obtain ⟨-, hcount⟩ := Table.count_eq_ok.1 ((hr.count store _).symm.trans h.counted)
  obtain ⟨-, hfound⟩ := Table.load_eq_ok.1 ((hr.load store _).symm.trans hload)
  obtain ⟨-, -, hafter, -⟩ := Table.commit_replace_eq_ok.1 (hr.commit hcommit)
  -- the row that was loaded is the only one that was counted
  rw [List.countP_eq_length_filter, ← hfound, List.length_cons] at hcount
  obtain rfl : rest = [] := List.eq_nil_of_length_eq_zero (by omega)
  obtain ⟨before, behind, hrows, hold, hother⟩ := exists_split_of_filter hfound.symm
  refine ⟨before, behind, hrows, ?_⟩
  rw [hafter, hrows]
  exact map_replace_of_one hold hother new

/-- **The partial-update law.**  An update that succeeds has replaced a row by one with the values
of the model, and where the model has null, the row is as it was, but for the required fields of
records that were allocated on the way to other fields. -/
theorem update_writes_partly {repository : Repository σ}
    (hbuild : build model entity declarations defaultOrder pagination (.ok repository) = .ok s)
    (hdeclared : ∀ c ∈ declarations, c.model.param.schema = model ∧ c.entity.param.schema = entity)
    (hdistinct : s.mappings.DistinctEntities)
    (hrows : ∀ query rows, repository.load store query = .ok rows →
      ∀ row ∈ rows, row.Conforms entity)
    (h : (s.update store m).outcome = .ok results) :
    ∃ old new, s.Replaces store m old new (s.update store m).store ∧
      s.mappings.PartlyWritten m old new ∧
      ∀ table, repository.KeepsTable table → ∃ before behind,
        (table store).rows = before ++ old :: behind ∧
          (table (s.update store m).store).rows = before ++ new :: behind := by
  obtain ⟨hdeclare, -⟩ := build_eq_ok hbuild
  obtain rfl := repository_of_build hbuild
  obtain ⟨old, new, hreplaces⟩ : ∃ old new, s.Replaces store m old new (s.update store m).store :=
    exists_replaces (Prod.ext h rfl)
  obtain ⟨rest, hload⟩ := hreplaces.loaded
  have hold : old.Conforms entity := hrows _ _ hload old (by simp)
  exact ⟨old, new, hreplaces,
    (MappingSet.sound_of_declare hdeclare hdeclared).partlyWritten hdistinct hold
      (mapError_eq_ok.1 hreplaces.written),
    fun table hr => hreplaces.in_place hr⟩

end Written

/-! ### Updates of a table -/

/-- The rows that have the key of a model. -/
def matching {σ : Type} (s : Service σ) (t : Table) (m : Record) : List Record :=
  t.rows.filter (meets (some (s.keyFilter m)))

/-- The table with a row in the place of those that have the key of a model. -/
def overwritten {σ : Type} (s : Service σ) (t : Table) (m new : Record) : Table :=
  { t with rows := t.rows.map fun row => if meets (some (s.keyFilter m)) row then new else row }

/-- One row has the key of the model and can hold its values, and the identities are distinct with
the new row in its place. -/
structure Overwrites (s : Service Table) (t : Table) (m : Record) (before : List Record)
    (old : Record) (behind : List Record) (new : Record) : Prop where
  rows : t.rows = before ++ old :: behind
  key : passes (some (s.keyFilter m)) old = .ok true
  others : ∀ row ∈ before ++ behind, passes (some (s.keyFilter m)) row = .ok false
  written : s.writeEntity m old = .ok new
  distinct : { t with rows := before ++ new :: behind }.identities.Nodup

variable {s : Service Table} {t : Table} {m old new : Record} {before behind : List Record}

theorem Overwrites.decides (h : s.Overwrites t m before old behind new) :
    Decides (some (s.keyFilter m)) t.rows := by
  rw [h.rows]
  intro row hrow
  obtain hrow | hrow := List.mem_append.1 hrow
  · rw [h.others row (by simp [hrow]), meets_of_passes (h.others row (by simp [hrow]))]
  · obtain rfl | hrow := List.mem_cons.1 hrow
    · rw [h.key, meets_of_passes h.key]
    · rw [h.others row (by simp [hrow]), meets_of_passes (h.others row (by simp [hrow]))]

theorem Overwrites.matching_eq (h : s.Overwrites t m before old behind new) :
    s.matching t m = [old] := by
  rw [matching, h.rows]
  exact filter_of_split (meets_of_passes h.key) fun row hrow => meets_of_passes (h.others row hrow)

theorem Overwrites.overwritten_eq (h : s.Overwrites t m before old behind new) :
    s.overwritten t m new = { t with rows := before ++ new :: behind } := by
  rw [overwritten, h.rows, map_replace_of_one (meets_of_passes h.key)
    fun row hrow => meets_of_passes (h.others row hrow)]

/-- A model overwrites a row in one way only. -/
theorem Overwrites.rows_eq (h : s.Overwrites t m before old behind new)
    {before' behind' : List Record} {old' new' : Record}
    (h' : s.Overwrites t m before' old' behind' new') :
    before ++ new :: behind = before' ++ new' :: behind' := by
  cases h.matching_eq.symm.trans h'.matching_eq
  cases h.written.symm.trans h'.written
  exact congrArg Table.rows (h.overwritten_eq.symm.trans h'.overwritten_eq)

theorem exists_overwrites (hdecides : Decides (some (s.keyFilter m)) t.rows)
    (hone : s.matching t m = [old]) (hwritten : s.writeEntity m old = .ok new)
    (hdistinct : (s.overwritten t m new).identities.Nodup) :
    ∃ before behind, s.Overwrites t m before old behind new := by
  obtain ⟨before, behind, hrows, hold, hother⟩ := exists_split_of_filter hone
  refine ⟨before, behind, hrows, ?_, fun row hrow => ?_, hwritten, ?_⟩
  · rw [hdecides old (by simp [hrows]), hold]
  · have hmem : row ∈ t.rows := by
      rw [hrows]
      exact (List.mem_append.1 hrow).elim (List.mem_append_left _)
        fun h => List.mem_append_right _ (List.mem_cons_of_mem _ h)
    rw [hdecides row hmem, hother row hrow]
  · rwa [overwritten, hrows, map_replace_of_one hold hother] at hdistinct

/-- The ways in which the update of a table ends. -/
inductive Ending (s : Service Table) (t : Table) (m : Record) :
    Except Error (Results Record) × Table → Prop
  /-- The key cannot be compared with all rows. -/
  | undecided (e : StoreError) (fails : ¬ Decides (some (s.keyFilter m)) t.rows) :
    Ending s t m (.error e.toError, t)
  | absent (none : s.matching t m = []) :
    Ending s t m (.error (.notFound s.entity.path (s.keyLabel m)), t)
  | ambiguous (many : 2 ≤ (s.matching t m).length) :
    Ending s t m
      (.error (.multipleMatch s.entity.path (s.keyLabel m) (s.matching t m).length), t)
  /-- The row cannot hold a value of the model. -/
  | refused {old : Record} (one : s.matching t m = [old]) {e : Error}
    (write : s.writeEntity m old = .error e) : Ending s t m (.error e, t)
  /-- The row would have the identity of another one. -/
  | conflict {old new : Record} (one : s.matching t m = [old]) (e : StoreError)
    (write : s.writeEntity m old = .ok new)
    (clash : ¬ (s.overwritten t m new).identities.Nodup) :
    Ending s t m (.error e.toError, t)
  | replaced {before behind : List Record} {old new : Record}
    (overwrites : s.Overwrites t m before old behind new) :
    Ending s t m (.ok (.single m), { t with rows := before ++ new :: behind })

/-- **Every update of a table has one of these endings.** -/
theorem ending_overwrite (hrepo : s.repository = Table.repository) :
    Ending s t m (s.overwrite t m) := by
  by_cases hdecides : Decides (some (s.keyFilter m)) t.rows
  · have hcount : s.repository.count t (some (s.keyFilter m)) = .ok (s.matching t m).length := by
      rw [hrepo]
      exact Table.count_eq_ok.2 ⟨hdecides, by rw [List.countP_eq_length_filter]; rfl⟩
    have hload : s.repository.load t ⟨some (s.keyFilter m), [], none⟩ = .ok (s.matching t m) := by
      rw [hrepo]
      exact Table.load_eq_ok.2 ⟨hdecides, rfl⟩
    rw [overwrite]
    rcases hmatching : s.matching t m with _ | ⟨old, _ | ⟨second, rest⟩⟩
    · rw [expectOne, hcount, hmatching]
      exact .absent hmatching
    · have hexpect : s.expectOne t m = .ok () := expectOne_eq_ok.2 (by rw [hcount, hmatching]; rfl)
      have hloadOne : s.loadOne t m = s.writeEntity m old := by rw [loadOne, hload, hmatching]; rfl
      rw [hexpect, hloadOne]
      cases hwrite : s.writeEntity m old with
      | error e => exact .refused hmatching hwrite
      | ok new =>
        simp only [storeOne, hrepo, Table.repository]
        cases hcommit : t.commit [.replace (s.keyFilter m) new] with
        | error e =>
          refine .conflict hmatching e hwrite fun hdistinct => ?_
          rw [Table.commit_replace_eq_ok.2 ⟨hdecides, hdistinct, rfl, rfl⟩] at hcommit
          cases hcommit
        | ok done =>
          obtain ⟨-, hdistinct, hafter, hcommitted⟩ := Table.commit_replace_eq_ok.1 hcommit
          have hafter : done.2 = s.overwritten t m new := hafter
          rw [hafter] at hdistinct
          obtain ⟨before, behind, hoverwrites⟩ :=
            exists_overwrites hdecides hmatching hwrite hdistinct
          -- the row that was counted is still there
          have hone : t.rows.countP (meets (some (s.keyFilter m))) = 1 := by
            rw [List.countP_eq_length_filter]
            exact congrArg List.length hmatching
          simp only [hafter, hcommitted, hone, Nat.one_ne_zero, if_false, hoverwrites.overwritten_eq]
          exact .replaced hoverwrites
    · have hmany : 2 ≤ (s.matching t m).length := by simp [hmatching]
      have hending := Ending.ambiguous hmany
      rw [hmatching] at hending
      rw [expectOne, hcount, hmatching]
      exact hending
  · cases hcount : t.count (some (s.keyFilter m)) with
    | ok n => exact absurd (Table.count_eq_ok.1 hcount).1 hdecides
    | error e =>
      simp only [overwrite, expectOne, hrepo, Table.repository, hcount]
      exact .undecided e hdecides

/-- Where one row can be replaced, an update replaces it. -/
theorem Overwrites.overwrite_eq (h : s.Overwrites t m before old behind new)
    (hrepo : s.repository = Table.repository) :
    s.overwrite t m = (.ok (.single m), { t with rows := before ++ new :: behind }) := by
  have hending : Ending s t m (s.overwrite t m) := ending_overwrite hrepo
  have hone := h.matching_eq
  have hwritten := h.written
  generalize s.overwrite t m = result at hending
  cases hending with
  | undecided e fails => exact absurd h.decides fails
  | absent none => rw [hone] at none; cases none
  | ambiguous many =>
    rw [hone, List.length_singleton] at many
    omega
  | refused one write =>
    cases hone.symm.trans one
    cases hwritten.symm.trans write
  | conflict one e write clash =>
    cases hone.symm.trans one
    cases hwritten.symm.trans write
    rw [h.overwritten_eq] at clash
    exact absurd h.distinct clash
  | replaced overwrites => rw [h.rows_eq overwrites]

/-- **An update replaces one row where it stands, or leaves the table alone.**  Where the key can be
compared with all rows, their number tells whether the update fails for want of a row, or for too
many.  It succeeds exactly when one row has the key, can hold the values of the model, and does not
get the identity of another row with them. -/
theorem update_replaces_one (hrepo : s.repository = Table.repository) (t : Table) (m : Record) :
    (∀ e, (s.update t m).outcome = .error e → (s.update t m).store = t) ∧
    (Decides (some (s.keyFilter m)) t.rows →
      ((∃ e, (s.update t m).outcome = .error e ∧ e.kind = .notFound) ↔ s.matching t m = []) ∧
      ((∃ e, (s.update t m).outcome = .error e ∧ e.kind = .multipleMatch) ↔
        2 ≤ (s.matching t m).length)) ∧
    (∀ results, (s.update t m).outcome = .ok results →
      ∃ before old behind new, s.Overwrites t m before old behind new ∧
        (s.update t m).store = { t with rows := before ++ new :: behind }) ∧
    ∀ before old behind new, s.Overwrites t m before old behind new →
      (s.update t m).outcome = .ok (.single m) := by
  have hending : Ending s t m (s.overwrite t m) := ending_overwrite hrepo
  have houtcome : (s.update t m).outcome = (s.overwrite t m).1 := rfl
  have hstore : (s.update t m).store = (s.overwrite t m).2 := rfl
  rw [houtcome, hstore]
  generalize s.overwrite t m = result at hending
  cases hending with
  | undecided e fails =>
    exact ⟨fun _ _ => rfl, fun hd => absurd hd fails, fun _ h => (nomatch h),
      fun _ _ _ _ h => absurd h.decides fails⟩
  | absent none =>
    have hkind : (Error.notFound s.entity.path (s.keyLabel m)).kind = .notFound := rfl
    refine ⟨fun _ _ => rfl, fun _ => ?_, fun _ h => (nomatch h), fun _ _ _ _ h => ?_⟩
    · simp [hkind, none]
    · rw [h.matching_eq] at none
      cases none
  | ambiguous many =>
    have hkind : (Error.multipleMatch s.entity.path (s.keyLabel m) (s.matching t m).length).kind =
        .multipleMatch := rfl
    have hne : s.matching t m ≠ [] := List.ne_nil_of_length_pos (by omega)
    refine ⟨fun _ _ => rfl, fun _ => ?_, fun _ h => (nomatch h), fun _ _ _ _ h => ?_⟩
    · simp [hkind, hne, many]
    · rw [h.matching_eq, List.length_singleton] at many
      omega
  | refused one write =>
    refine ⟨fun _ _ => rfl, fun _ => ?_, fun _ h => (nomatch h), fun _ _ _ _ h => ?_⟩
    · simp [kind_of_writeEntity write, one]
    · cases h.matching_eq.symm.trans one
      cases h.written.symm.trans write
  | conflict one e write clash =>
    have hkind : e.toError.kind = .storage := rfl
    refine ⟨fun _ _ => rfl, fun _ => ?_, fun _ h => (nomatch h), fun _ _ _ _ h => ?_⟩
    · simp [hkind, one]
    · cases h.matching_eq.symm.trans one
      cases h.written.symm.trans write
      rw [h.overwritten_eq] at clash
      exact absurd h.distinct clash
  | replaced overwrites =>
    exact ⟨fun _ h => (nomatch h), fun _ => by simp [overwrites.matching_eq],
      fun _ _ => ⟨_, _, _, _, overwrites, rfl⟩, fun _ _ _ _ _ => rfl⟩

end Service

/-! ### Users -/

namespace Sample

/-- The second user becomes an administrator, and keeps the age. -/
theorem update_bob_partly :
    ∃ old new, userService.Replaces twoUsers (userView 2 "Bob" (some "admin")) old new
        (userService.update twoUsers (userView 2 "Bob" (some "admin"))).store ∧
      userService.mappings.PartlyWritten (userView 2 "Bob" (some "admin")) old new ∧
      ∃ before behind, twoUsers.rows = before ++ old :: behind ∧
        (userService.update twoUsers (userView 2 "Bob" (some "admin"))).store.rows =
          before ++ new :: behind := by
  have hrows : ∀ query rows, twoUsers.load query = .ok rows → ∀ row ∈ rows, row.Conforms user :=
    fun _ _ hload row hrow => twoUsers_conform row (Table.mem_of_load hload row hrow)
  have hok : (userService.update twoUsers (userView 2 "Bob" (some "admin"))).outcome =
      .ok (.single (userView 2 "Bob" (some "admin"))) := rfl
  obtain ⟨old, new, hreplaces, hpartly, hkept⟩ :=
    Service.update_writes_partly build_userService userDeclarations_over
      userMappings_distinctEntities hrows hok
  exact ⟨old, new, hreplaces, hpartly, hkept id Table.keepsTable_repository⟩

/-- The mappings between users and their models, with the age of the model as the number of the
role. -/
def roleDeclarations : List MappingDeclaration :=
  [⟨.over userModel (·.field "id"), .over user (·.field "id"), true⟩,
    ⟨.over userModel (·.field "role"), .over user (·.chain ["role", "name"]), false⟩,
    ⟨.over userModel (·.field "age"), .over user (·.chain ["role", "id"]), false⟩]

/-- The service that shows users and their roles in this way. -/
def roleService : Service Table :=
  ⟨userModel, user, (MappingSet.declare roleDeclarations).toOption.getD .empty,
    [⟨.over user (·.field "id"), .asc⟩], {}, Table.repository⟩

/-- The second user gets a role, which needs a number, although the model has none. -/
theorem update_bob_allocates :
    Service.build userModel user roleDeclarations roleService.defaultOrder {}
        (.ok Table.repository) = .ok roleService ∧
      roleService.mappings.DistinctEntities ∧
      (roleService.update twoUsers (userView 2 "Bob" (some "admin"))).outcome =
        .ok (.single (userView 2 "Bob" (some "admin"))) ∧
      ∃ k ∈ roleService.mappings.mappings, ∃ first old new, twoUsers.rows = [first, old] ∧
        (roleService.update twoUsers (userView 2 "Bob" (some "admin"))).store.rows =
          [first, new] ∧
        k.model.read (userView 2 "Bob" (some "admin")) = .null ∧
        k.entity.read old = .null ∧ k.entity.read new = .int 0 := by
  have hdistinct : roleService.mappings.DistinctEntities := by
    rw [MappingSet.DistinctEntities]
    decide
  exact ⟨rfl, hdistinct, rfl, _, .tail _ (.tail _ (.head _)), _, _, _, rfl, rfl, rfl, rfl, rfl⟩

/-- The name of the first user is replaced where it stands, and the role stays, as the model has
none.  Nothing is replaced when there is no such user. -/
theorem update_one_user :
    userService.Overwrites twoUsers (userView 1 "Eve" none) [] (userRow 1 "Ada" (some "admin"))
        [userRow 2 "Bob" none] (userRow 1 "Eve" (some "admin")) ∧
      (userService.update twoUsers (userView 1 "Eve" none)).outcome =
        .ok (.single (userView 1 "Eve" none)) ∧
      (userService.update twoUsers (userView 1 "Eve" none)).store =
        ⟨user, some "id", [userRow 1 "Eve" (some "admin"), userRow 2 "Bob" none], 3⟩ ∧
      (∃ e, (userService.update twoUsers (userView 9 "Eve" none)).outcome = .error e ∧
        e.kind = .notFound) ∧
      (userService.update twoUsers (userView 9 "Eve" none)).store = twoUsers := by
  have hoverwrites : userService.Overwrites twoUsers (userView 1 "Eve" none) []
      (userRow 1 "Ada" (some "admin")) [userRow 2 "Bob" none] (userRow 1 "Eve" (some "admin")) :=
    { rows := rfl
      key := rfl
      others := List.forall_mem_singleton.2 rfl
      written := rfl
      distinct := by decide }
  have hdecides : Decides (some (userService.keyFilter (userView 9 "Eve" none))) twoUsers.rows :=
    List.forall_mem_cons.2 ⟨rfl, List.forall_mem_singleton.2 rfl⟩
  obtain ⟨-, -, hreplaces, hsucceeds⟩ :=
    Service.update_replaces_one (s := userService) rfl twoUsers (userView 1 "Eve" none)
  obtain ⟨hkeeps, hcounts, -, -⟩ :=
    Service.update_replaces_one (s := userService) rfl twoUsers (userView 9 "Eve" none)
  have hok := hsucceeds _ _ _ _ hoverwrites
  obtain ⟨_, _, _, _, hreplaced, hstore⟩ := hreplaces _ hok
  rw [hreplaced.rows_eq hoverwrites] at hstore
  obtain ⟨e, he, hkind⟩ := (hcounts hdecides).1.2 rfl
  exact ⟨hoverwrites, hok, hstore, ⟨e, he, hkind⟩, hkeeps e he⟩

end Sample

end RecordView
