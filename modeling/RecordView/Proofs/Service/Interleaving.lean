import RecordView.Proofs.Service.Update

/-!
# Updates among other callers

An update asks the repository three times: it counts the rows with the key of the model, loads one,
and commits a replacement of the rows with that key.  Other callers may commit in between
(`Service.Reaches`), so the rows that are replaced need not be those that were counted.  Without
other callers the three requests are the update (`Service.advance_overwrite`).

What is committed was written to a row that had the key when it was loaded
(`Service.Reaches.justified`).  The commit replaces every row that has the key by then
(`Service.advance_storing`).  None is an error, but several are not: the update succeeds and has
replaced them all.  Only the identities stand against that, because two rows cannot have one; so an
update that succeeds has replaced a single row if the row it wrote has an identity
(`Service.interleaved_update_replaces`).
-/

namespace RecordView

namespace Service

variable {σ : Type} {s : Service σ} {m : Record} {first : σ}

/-- How far an update has got. -/
inductive Stage
  /-- The rows with the key are still to be counted. -/
  | counting
  /-- One row was counted, and is still to be loaded. -/
  | loading
  /-- The model was written to the row that was loaded, and this is still to be committed. -/
  | storing (entity : Record)
  /-- The answer, and how many rows were replaced if a replacement was committed. -/
  | ended (outcome : Except Error (Results Record)) (replaced : Option Nat)

/-- The next request of an update. -/
def advance (s : Service σ) (m : Record) (store : σ) : Stage → Stage × σ
  | .counting =>
    match s.expectOne store m with
    | .error e => (.ended (.error e) none, store)
    | .ok () => (.loading, store)
  | .loading =>
    match s.loadOne store m with
    | .error e => (.ended (.error e) none, store)
    | .ok entity => (.storing entity, store)
  | .storing entity =>
    let committed := s.repository.commit store [.replace (s.keyFilter m) entity]
    (.ended (s.storeOne store m entity).1 (committed.toOption.map (·.1.replaced)),
      (s.storeOne store m entity).2)
  | .ended outcome replaced => (.ended outcome replaced, store)

/-- The stages that an update gets to from a store, and the store by then.  Other callers may commit
before and after every request. -/
inductive Reaches (s : Service σ) (m : Record) (first : σ) : Stage → σ → Prop
  | start : Reaches s m first .counting first
  | own {stage : Stage} {store : σ} (before : Reaches s m first stage store) :
    Reaches s m first (s.advance m store stage).1 (s.advance m store stage).2
  | other {stage : Stage} {store after : σ} {batch : WriteBatch} {committed : Committed}
    (before : Reaches s m first stage store)
    (done : s.repository.commit store batch = .ok (committed, after)) :
    Reaches s m first stage after

/-- **Three requests in a row are the update.** -/
theorem advance_overwrite (s : Service σ) (m : Record) (store : σ) :
    let counted := s.advance m store .counting
    let loaded := s.advance m counted.2 counted.1
    ∃ replaced, s.advance m loaded.2 loaded.1 =
      (.ended (s.overwrite store m).1 replaced, (s.overwrite store m).2) := by
  intro counted loaded
  simp only [counted, loaded, advance, overwrite]
  cases s.expectOne store m with
  | error e => exact ⟨none, rfl⟩
  | ok _ =>
    simp only
    cases s.loadOne store m with
    | error e => exact ⟨none, rfl⟩
    | ok entity => exact ⟨_, rfl⟩

/-! ### One request -/

/-- A commit ends the update with the number of the rows that it replaced, and fails when there are
none. -/
theorem advance_storing {store after : σ} {entity : Record} {committed : Committed}
    (h : s.repository.commit store [.replace (s.keyFilter m) entity] = .ok (committed, after)) :
    s.advance m store (.storing entity) =
      (.ended (if committed.replaced = 0 then .error (.notFound s.entity.path (s.keyLabel m))
        else .ok (.single m)) (some committed.replaced), after) := by
  simp only [advance, storeOne, h]
  split <;> rfl

theorem exists_commit_of_advance_storing {store : σ} {entity : Record} {results : Results Record}
    {replaced : Option Nat}
    (h : (s.advance m store (.storing entity)).1 = .ended (.ok results) replaced) :
    ∃ committed after,
      s.repository.commit store [.replace (s.keyFilter m) entity] = .ok (committed, after) ∧
        committed.replaced ≠ 0 ∧ replaced = some committed.replaced := by
  cases hcommit : s.repository.commit store [.replace (s.keyFilter m) entity] with
  | error e =>
    simp only [advance, storeOne, hcommit] at h
    cases h
  | ok done =>
    obtain ⟨committed, after⟩ := done
    rw [advance_storing hcommit] at h
    by_cases hzero : committed.replaced = 0
    · rw [if_pos hzero] at h
      cases h
    · rw [if_neg hzero] at h
      cases h
      exact ⟨committed, after, rfl, hzero, rfl⟩

/-! ### A whole run -/

/-- What a stage comes from. -/
def Justified (s : Service σ) (m : Record) (first : σ) : Stage → Prop
  | .counting | .loading => True
  | .storing entity => ∃ store old rest, Reaches s m first .loading store ∧
      s.repository.load store ⟨some (s.keyFilter m), [], none⟩ = .ok (old :: rest) ∧
      s.writeEntity m old = .ok entity
  | .ended (.error _) _ => True
  | .ended (.ok _) replaced => ∃ store entity committed after,
      Reaches s m first (.storing entity) store ∧
      s.repository.commit store [.replace (s.keyFilter m) entity] = .ok (committed, after) ∧
      committed.replaced ≠ 0 ∧ replaced = some committed.replaced

/-- One request keeps stages justified. -/
theorem Justified.advance {stage : Stage} {store : σ} (h : s.Justified m first stage)
    (hreaches : Reaches s m first stage store) :
    s.Justified m first (s.advance m store stage).1 := by
  cases stage with
  | counting =>
    simp only [Service.advance]
    cases s.expectOne store m <;> exact trivial
  | loading =>
    simp only [Service.advance]
    cases hload : s.loadOne store m with
    | error e => exact trivial
    | ok entity =>
      obtain ⟨old, rest, hfound, hwrite⟩ := loadOne_eq_ok.1 hload
      exact ⟨store, old, rest, hreaches, hfound, hwrite⟩
  | storing entity =>
    cases hended : (s.advance m store (.storing entity)).1 with
    | ended outcome replaced =>
      cases outcome with
      | error e => exact trivial
      | ok results =>
        obtain ⟨committed, after, hcommit, hsome, hreplaced⟩ :=
          exists_commit_of_advance_storing hended
        exact ⟨store, entity, committed, after, hreaches, hcommit, hsome, hreplaced⟩
    | _ => cases hended
  | ended outcome replaced => exact h

/-- **Every stage of a run is justified**, whatever other callers commit. -/
theorem Reaches.justified {stage : Stage} {store : σ} (h : Reaches s m first stage store) :
    s.Justified m first stage := by
  induction h with
  | start => exact trivial
  | own before ih => exact ih.advance before
  | other _ _ ih => exact ih

/-! ### Updates of a table -/

variable {t : Table} {new : Record} {table : σ → Table}

/-- Rows that are replaced by one with an identity cannot be several. -/
theorem length_matching_le {id : Int64} (hid : Table.identityOf t.identity new = some id)
    (h : (s.overwritten t m new).identities.Nodup) : (s.matching t m).length ≤ 1 := by
  let put (row : Record) : Record := if meets (some (s.keyFilter m)) row then new else row
  have hsub : ((s.matching t m).map put).Sublist (t.rows.map put) := List.filter_sublist.map put
  have hput : ∀ row ∈ s.matching t m, put row = new :=
    fun row hrow => if_pos (List.mem_filter.1 hrow).2
  have hnodup : (((s.matching t m).map put).filterMap (Table.identityOf t.identity)).Nodup :=
    List.Nodup.sublist (hsub.filterMap _) h
  match hmatching : s.matching t m with
  | [] | [_] => simp
  | first :: second :: rest =>
    rw [hmatching] at hput hnodup
    simp [hput first (by simp), hput second (by simp), hid] at hnodup

/-- **What a successful update has replaced, when other callers commit in between.**  It has
replaced every row that had the key of the model when it committed, at least one, by what it wrote to
a row that had the key when it was loaded; and a single one if that has an identity.  A commit that
replaces no row is an error, and one that replaces several is none. -/
theorem interleaved_update_replaces (hr : s.repository.KeepsTable table) :
    (∀ results replaced store, Reaches s m first (.ended (.ok results) replaced) store →
      ∃ loaded old new stored after, Reaches s m first .loading loaded ∧
        old ∈ s.matching (table loaded) m ∧ s.writeEntity m old = .ok new ∧
        Reaches s m first (.storing new) stored ∧
        s.advance m stored (.storing new) = (.ended (.ok (.single m)) replaced, after) ∧
        table after = s.overwritten (table stored) m new ∧
        replaced = some (s.matching (table stored) m).length ∧
        1 ≤ (s.matching (table stored) m).length ∧
        ((Table.identityOf (table stored).identity new).isSome →
          (s.matching (table stored) m).length = 1)) ∧
    ∀ new stored committed after, Reaches s m first (.storing new) stored →
      s.repository.commit stored [.replace (s.keyFilter m) new] = .ok (committed, after) →
      s.advance m stored (.storing new) =
        (.ended (if (s.matching (table stored) m).length = 0 then
            .error (.notFound s.entity.path (s.keyLabel m)) else .ok (.single m))
          (some (s.matching (table stored) m).length), after) := by
  have hcount : ∀ {new stored committed after},
      s.repository.commit stored [.replace (s.keyFilter m) new] = .ok (committed, after) →
      (table after).identities.Nodup ∧ table after = s.overwritten (table stored) m new ∧
        committed.replaced = (s.matching (table stored) m).length := by
    intro new stored committed after hcommit
    obtain ⟨-, hdistinct, hafter, rfl⟩ := Table.commit_replace_eq_ok.1 (hr.commit hcommit)
    exact ⟨hdistinct, hafter, List.countP_eq_length_filter⟩
  constructor
  · intro results replaced store h
    obtain ⟨stored, new, committed, after, hstoring, hcommit, hsome, rfl⟩ := h.justified
    obtain ⟨loaded, old, rest, hloading, hload, hwrite⟩ := hstoring.justified
    obtain ⟨hdistinct, hafter, hreplaced⟩ := hcount hcommit
    obtain ⟨-, hfound⟩ := Table.load_eq_ok.1 ((hr.load loaded _).symm.trans hload)
    rw [hreplaced] at hsome
    refine ⟨loaded, old, new, stored, after, hloading, ?_, hwrite, hstoring, ?_, hafter,
      congrArg some hreplaced, by omega, fun hidentity => ?_⟩
    · rw [matching, ← hfound]
      exact .head _
    · rw [advance_storing hcommit, if_neg (hreplaced ▸ hsome)]
    · obtain ⟨id, hid⟩ := Option.isSome_iff_exists.1 hidentity
      have hle := length_matching_le hid (hafter ▸ hdistinct)
      omega
  · intro new stored committed after _ hcommit
    rw [advance_storing hcommit, (hcount hcommit).2.2]

end Service

/-! ### Users -/

namespace Sample

open Service

/-- A user in a table without identities. -/
def unnumbered : Table := ⟨user, none, [userRow 1 "Ada" none], 1⟩

/-- The update of a user among other callers.  Another user with the same number is inserted after
the first was loaded. -/
theorem reaches_unnumbered :
    Reaches userService (userView 1 "Eve" none) unnumbered (.storing (userRow 1 "Eve" none))
      { unnumbered with rows := [userRow 1 "Ada" none, userRow 1 "Bob" none] } := by
  have hcounted : Reaches userService (userView 1 "Eve" none) unnumbered .loading unnumbered :=
    .own .start
  have hloaded : Reaches userService (userView 1 "Eve" none) unnumbered
      (.storing (userRow 1 "Eve" none)) unnumbered := .own hcounted
  have hinserted : unnumbered.commit [.insert [userRow 1 "Bob" none]] =
      .ok (⟨[userRow 1 "Bob" none], 0, 0⟩,
        { unnumbered with rows := [userRow 1 "Ada" none, userRow 1 "Bob" none] }) := rfl
  exact .other hloaded hinserted

/-- The update then succeeds and has replaced both users. -/
theorem interleaved_update_replaces_two :
    Reaches userService (userView 1 "Eve" none) unnumbered
      (.ended (.ok (.single (userView 1 "Eve" none))) (some 2))
      { unnumbered with rows := [userRow 1 "Eve" none, userRow 1 "Eve" none] } :=
  .own reaches_unnumbered

/-- In a table with identities the update of a user replaces that user alone, also when another one
is inserted in between. -/
theorem interleaved_update_replaces_ada :
    ∃ loaded old new stored, Reaches userService (userView 1 "Eve" none) twoUsers .loading loaded ∧
      old ∈ userService.matching loaded (userView 1 "Eve" none) ∧
      userService.writeEntity (userView 1 "Eve" none) old = .ok new ∧
      Reaches userService (userView 1 "Eve" none) twoUsers (.storing new) stored ∧
      (userService.matching stored (userView 1 "Eve" none)).length = 1 := by
  have hcounted : Reaches userService (userView 1 "Eve" none) twoUsers .loading twoUsers :=
    .own .start
  have hloaded : Reaches userService (userView 1 "Eve" none) twoUsers
      (.storing (userRow 1 "Eve" (some "admin"))) twoUsers := .own hcounted
  have hinserted : twoUsers.commit [.insert [userRow 0 "Zoe" none]] =
      .ok (⟨[userRow 3 "Zoe" none], 0, 0⟩,
        ⟨user, some "id", twoUsers.rows ++ [userRow 3 "Zoe" none], 4⟩) := rfl
  have hended : Reaches userService (userView 1 "Eve" none) twoUsers
      (.ended (.ok (.single (userView 1 "Eve" none))) (some 1))
      ⟨user, some "id", [userRow 1 "Eve" (some "admin"), userRow 2 "Bob" none,
        userRow 3 "Zoe" none], 4⟩ := .own (.other hloaded hinserted)
  obtain ⟨loaded, old, new, stored, -, hloading, hold, hwrite, hstoring, -, -, hreplaced, -⟩ :=
    (interleaved_update_replaces Table.keepsTable_repository).1 _ _ _ hended
  exact ⟨loaded, old, new, stored, hloading, hold, hwrite, hstoring,
    (Option.some.inj hreplaced).symm⟩

end Sample

end RecordView
