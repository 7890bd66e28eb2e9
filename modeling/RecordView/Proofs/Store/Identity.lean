import RecordView.Proofs.Record.Conformance
import RecordView.Proofs.Store.Commit
import RecordView.Sample.Users

/-!
# Automatic identities

A row that is inserted without an identity gets the next one from the counter of the table.  The
counter is *fresh* (`Table.Fresh`) when it is beyond every stored identity.  Seeding and insertion
move the counter past the identities that they bring, but a replacement does not: it can bring an
identity that the counter has still to reach.  So the counter of a table is fresh after every
history exactly when no commit leaves such a replacement behind (`Table.Covered`,
`Table.reachable_fresh_iff`).

It matters because automatic identities are the numbers from the counter on
(`Table.identifyAll_unidentified`).  They are new as long as the counter is fresh, and the counter
runs into every stored identity that it is not beyond.  So the insertion of rows without identity
never conflicts exactly when the counter is fresh (`Table.fresh_iff_serves`).
-/

namespace RecordView

/-! ### Consecutive numbers -/

/-- So many numbers in a row. -/
def wordsFrom (next : Int64) : Nat → List Int64
  | 0 => []
  | n + 1 => next :: wordsFrom (nextWord next) n

theorem mem_wordsFrom {next k : Int64} {n : Nat}
    (hroom : next.toInt + n ≤ Int64.maxValue.toInt) :
    k ∈ wordsFrom next n ↔ next.toInt ≤ k.toInt ∧ k.toInt < next.toInt + n := by
  induction n generalizing next with
  | zero =>
    simp only [wordsFrom, List.not_mem_nil, false_iff]
    omega
  | succ n ih =>
    have hnext : (nextWord next).toInt = next.toInt + 1 := toInt_nextWord (by omega)
    rw [wordsFrom, List.mem_cons, ih (by omega), ← Int64.toInt_inj, hnext]
    omega

theorem nodup_wordsFrom {next : Int64} {n : Nat}
    (hroom : next.toInt + n ≤ Int64.maxValue.toInt) : (wordsFrom next n).Nodup := by
  induction n generalizing next with
  | zero => exact List.nodup_nil
  | succ n ih =>
    have hnext : (nextWord next).toInt = next.toInt + 1 := toInt_nextWord (by omega)
    rw [wordsFrom, List.nodup_cons, mem_wordsFrom (by omega)]
    exact ⟨by omega, ih (by omega)⟩

theorem wordsFrom_add {next next' : Int64} {m n : Nat} (h : next'.toInt = next.toInt + m)
    (hroom : next.toInt + m ≤ Int64.maxValue.toInt) :
    wordsFrom next (m + n) = wordsFrom next m ++ wordsFrom next' n := by
  induction m generalizing next with
  | zero =>
    obtain rfl := Int64.toInt_inj.1 (show next'.toInt = next.toInt by omega)
    rw [Nat.zero_add]
    rfl
  | succ m ih =>
    have hnext : (nextWord next).toInt = next.toInt + 1 := toInt_nextWord (by omega)
    rw [show m + 1 + n = (m + n) + 1 by omega, wordsFrom, wordsFrom,
      ih (by omega) (by omega)]
    rfl

namespace Table

/-! ### Rows without identity -/

/-- The identity of the row is null or zero, so that an insertion gives it one. -/
def Unidentified (field : String) (row : Record) : Prop :=
  identityOf (some field) row = none ∨ identityOf (some field) row = some 0

/-- The schema has a field for identities that holds every signed word. -/
structure IdentityField (schema : Schema) (field : String) : Prop where
  exists_field : ∃ f, schema.field? field = some f ∧ f.type.kind = .int ∧ f.width = .wide

variable {schema : Schema} {field : String}

theorem unidentified_iff {row : Record} :
    Unidentified field row ↔ (identityOf (some field) row).any (· ≠ 0) = false := by
  unfold Unidentified
  cases identityOf (some field) row with
  | none => simp
  | some id => simp

/-- A number can be written to the identity field, and is the identity then. -/
theorem IdentityField.exists_setValue (hf : IdentityField schema field) {row : Record}
    (hrow : row.Conforms schema) (id : Int64) :
    ∃ stored, row.setValue field (.int id) = .ok stored ∧ stored.Conforms schema ∧
      identityOf (some field) stored = some id := by
  obtain ⟨f, hfield, hkind, hwidth⟩ := hf.exists_field
  have hstore := Field.store?_int hkind hwidth id
  have hset := (Record.setValue_eq_ok hrow.schema_eq hfield).2
    ⟨by rw [hkind]; rfl, _, hstore, rfl⟩
  refine ⟨_, hset, hrow.setValue hset, ?_⟩
  obtain ⟨w, hread, hw⟩ := Record.getValue?_setValue hrow hfield hset
  rw [hstore] at hw
  cases hw
  simp only [identityOf, Option.bind_some, hread]

theorem identify_unidentified (hf : IdentityField schema field) {row : Record}
    (hrow : row.Conforms schema) (hun : Unidentified field row) (next : Int64) :
    ∃ stored, identify (some field) next row = .ok (nextWord next, stored) ∧
      identityOf (some field) stored = some next := by
  obtain ⟨stored, hset, -, hid⟩ := hf.exists_setValue hrow next
  refine ⟨stored, ?_, hid⟩
  have hnone := unidentified_iff.1 hun
  have hadvance : advance (nextWord next) (some next) = nextWord next := by
    rw [← Int64.toInt_inj, advance, toInt_max]
    omega
  simp only [identify, hnone, Bool.false_eq_true, if_false, hset, hid, hadvance]

/-- **Automatic identities are the numbers from the counter on.** -/
theorem identifyAll_unidentified (hf : IdentityField schema field) {rows : List Record}
    (hrows : ∀ row ∈ rows, row.Conforms schema ∧ Unidentified field row) {next : Int64}
    (hroom : next.toInt + rows.length ≤ Int64.maxValue.toInt) :
    ∃ next' stored, identifyAll (some field) next rows = .ok (next', stored) ∧
      next'.toInt = next.toInt + rows.length ∧
      stored.filterMap (identityOf (some field)) = wordsFrom next rows.length := by
  induction rows generalizing next with
  | nil => exact ⟨next, [], rfl, by simp, rfl⟩
  | cons row rows ih =>
    rw [List.length_cons] at hroom
    obtain ⟨hrow, hun⟩ := hrows row (by simp)
    obtain ⟨first, hfirst, hid⟩ := identify_unidentified hf hrow hun next
    have hnext : (nextWord next).toInt = next.toInt + 1 := toInt_nextWord (by omega)
    obtain ⟨next', rest, hrest, hnext', hids⟩ := ih (fun r hr => hrows r (by simp [hr]))
      (show (nextWord next).toInt + rows.length ≤ Int64.maxValue.toInt by omega)
    refine ⟨next', first :: rest, ?_, ?_, ?_⟩
    · rw [identifyAll, hfirst]
      simp only [bind, Except.bind, hrest]
      rfl
    · rw [List.length_cons]
      omega
    · rw [List.filterMap_cons_some hid, hids]
      rfl

/-! ### Automatic batches -/

/-- The rows that a batch inserts. -/
def insertions (batch : WriteBatch) : List Record :=
  batch.flatMap fun
    | .insert rows => rows
    | _ => []

theorem insertions_append (batch batch' : WriteBatch) :
    insertions (batch ++ batch') = insertions batch ++ insertions batch' := by
  simp [insertions]

/-- The batch inserts rows without identity, and does nothing else. -/
def Automatic (schema : Schema) (field : String) (batch : WriteBatch) : Prop :=
  ∀ op ∈ batch, ∃ rows, op = .insert rows ∧
    ∀ row ∈ rows, row.Conforms schema ∧ Unidentified field row

/-- The counter has room for so many identities. -/
def Room (t : Table) (n : Nat) : Prop := t.nextIdentity.toInt + n ≤ Int64.maxValue.toInt

theorem applyAll_automatic (hf : IdentityField schema field) {batch : WriteBatch}
    (hbatch : Automatic schema field batch) {t : Table} (ht : t.identity = some field)
    (hroom : t.Room (insertions batch).length) (done : Committed) :
    ∃ t' done', t.applyAll done batch = .ok (t', done') ∧ t'.identity = some field ∧
      t'.identities = t.identities ++ wordsFrom t.nextIdentity (insertions batch).length := by
  induction batch generalizing t done with
  | nil => exact ⟨t, done, rfl, ht, by simp [insertions, wordsFrom]⟩
  | cons op batch ih =>
    obtain ⟨rows, rfl, hrows⟩ := hbatch op (by simp)
    have hlength : (insertions (.insert rows :: batch)).length =
        rows.length + (insertions batch).length := by
      simp [insertions]
    rw [Room, hlength] at hroom
    obtain ⟨next', stored, hstored, hnext', hids⟩ :=
      identifyAll_unidentified hf hrows
        (show t.nextIdentity.toInt + rows.length ≤ Int64.maxValue.toInt by omega)
    have happly : t.apply done (.insert rows) =
        .ok ({ t with rows := t.rows ++ stored, nextIdentity := next' },
          { done with inserted := done.inserted ++ stored }) := by
      simp only [apply, ht, hstored, bind, Except.bind]
      rfl
    obtain ⟨t', done', hrun, hidentity, hidentities⟩ :=
      ih (fun op hop => hbatch op (by simp [hop]))
        (t := { t with rows := t.rows ++ stored, nextIdentity := next' }) ht
        (by simp only [Room]; omega) { done with inserted := done.inserted ++ stored }
    refine ⟨t', done', ?_, hidentity, ?_⟩
    · rw [applyAll, List.foldlM_cons, happly]
      exact hrun
    · rw [hidentities, hlength, wordsFrom_add hnext' (by omega), ← List.append_assoc]
      simp only [identities, List.filterMap_append, ht, hids]

/-- Every batch that inserts rows without identity is committed, as long as there is room. -/
def Serves (t : Table) (schema : Schema) (field : String) : Prop :=
  ∀ batch, Automatic schema field batch → t.Room (insertions batch).length →
    ∃ committed after, t.commit batch = .ok (committed, after)

/-- The counter is beyond every stored identity. -/
def Fresh (t : Table) : Prop := ∀ id ∈ t.identities, id < t.nextIdentity

/-- The stored identities are not the greatest number. -/
def Bounded (t : Table) : Prop := ∀ id ∈ t.identities, id < Int64.maxValue

-- the list is searched, not the type of its elements
instance (t : Table) : Decidable t.Fresh :=
  List.decidableBAll (· < t.nextIdentity) t.identities

instance (t : Table) : Decidable t.Bounded :=
  List.decidableBAll (· < Int64.maxValue) t.identities

/-- A batch that inserts rows without identity is committed when the new identities are new. -/
theorem commit_automatic (hf : IdentityField schema field) {batch : WriteBatch}
    (hbatch : Automatic schema field batch) {t : Table} (ht : t.identity = some field)
    (hroom : t.Room (insertions batch).length) :
    (∃ committed after, t.commit batch = .ok (committed, after)) ↔
      (t.identities ++ wordsFrom t.nextIdentity (insertions batch).length).Nodup := by
  obtain ⟨t', done', hrun, hidentity, hids⟩ := applyAll_automatic hf hbatch ht hroom .nothing
  rw [← hids, ← checkIdentities_eq_ok hidentity]
  constructor
  · rintro ⟨committed, after, hcommit⟩
    obtain ⟨hrun', hcheck⟩ := commit_eq_ok.1 hcommit
    rw [hrun] at hrun'
    cases hrun'
    exact hcheck
  · intro hcheck
    exact ⟨done', t', commit_eq_ok.2 ⟨hrun, hcheck⟩⟩

/-- **The insertion of rows without identity never conflicts exactly when the counter is fresh.** -/
theorem fresh_iff_serves (hf : IdentityField schema field) {t : Table}
    (ht : t.identity = some field) (hdistinct : t.identities.Nodup) (hbounded : t.Bounded) :
    t.Fresh ↔ t.Serves schema field := by
  constructor
  · intro hfresh batch hbatch hroom
    rw [commit_automatic hf hbatch ht hroom, List.nodup_append]
    refine ⟨hdistinct, nodup_wordsFrom hroom, fun id hid k hk => ?_⟩
    have hlt := Int64.lt_iff_toInt_lt.1 (hfresh id hid)
    have hle := ((mem_wordsFrom hroom).1 hk).1
    rintro rfl
    omega
  · intro hserves id hid
    rw [Int64.lt_iff_toInt_lt]
    rcases Int.lt_or_le id.toInt t.nextIdentity.toInt with hlt | hle
    · exact hlt
    -- insert so many rows that the counter runs into the stored identity
    obtain ⟨row, -, hrow, hzero⟩ := hf.exists_setValue schema.default_conforms 0
    obtain ⟨n, hn⟩ : ∃ n : Nat, id.toInt - t.nextIdentity.toInt = n :=
      Int.eq_ofNat_of_zero_le (by omega)
    have hbatch : Automatic schema field [.insert (List.replicate (n + 1) row)] := by
      intro op hop
      obtain rfl := List.mem_singleton.1 hop
      refine ⟨_, rfl, fun r hr => ?_⟩
      obtain rfl := List.eq_of_mem_replicate hr
      exact ⟨hrow, .inr hzero⟩
    have hlength : (insertions [.insert (List.replicate (n + 1) row)]).length = n + 1 := by
      simp [insertions]
    have hmax := Int64.lt_iff_toInt_lt.1 (hbounded id hid)
    have hroom : t.Room (insertions [.insert (List.replicate (n + 1) row)]).length := by
      rw [hlength, Room]
      omega
    have hnodup := (commit_automatic hf hbatch ht hroom).1 (hserves _ hbatch hroom)
    refine absurd rfl ((List.nodup_append.1 hnodup).2.2 id hid id ?_)
    rw [mem_wordsFrom hroom, hlength]
    omega

/-! ### Histories -/

/-- The tables that come about from an empty one by seeding rows whose identities are distinct, and
by commits of batches that are allowed, with identities below the greatest number. -/
inductive Reachable (schema : Schema) (field : String) (allowed : Table → WriteBatch → Prop) :
    Table → Prop
  | empty : Reachable schema field allowed (Table.empty schema (some field))
  | seed {t : Table} {rows : List Record} (before : Reachable schema field allowed t)
    (distinct : (t.seed rows).identities.Nodup) (bounded : (t.seed rows).Bounded) :
    Reachable schema field allowed (t.seed rows)
  | commit {t after : Table} {batch : WriteBatch} {committed : Committed}
    (before : Reachable schema field allowed t) (allow : allowed t batch)
    (done : t.commit batch = .ok (committed, after)) (bounded : after.Bounded) :
    Reachable schema field allowed after

/-- The counter is beyond the identities of the replacements that the batch has left behind. -/
def Covered (batch : WriteBatch) (after : Table) : Prop :=
  ∀ filter entity id, .replace filter entity ∈ batch → entity ∈ after.rows →
    identityOf after.identity entity = some id → id < after.nextIdentity

variable {allowed : Table → WriteBatch → Prop} {t after : Table}

theorem Reachable.identity (h : Reachable schema field allowed t) : t.identity = some field := by
  induction h with
  | empty => rfl
  | seed _ _ _ ih => exact ih
  | commit _ _ done _ ih => exact (continues_of_commit ih done).1.identity.trans ih

theorem Reachable.distinct (h : Reachable schema field allowed t) : t.identities.Nodup := by
  cases h with
  | empty => exact List.nodup_nil
  | seed _ distinct => exact distinct
  | commit before _ done => exact (continues_of_commit before.identity done).2

theorem Reachable.bounded (h : Reachable schema field allowed t) : t.Bounded := by
  cases h with
  | empty => exact fun id hid => by cases hid
  | seed _ _ bounded => exact bounded
  | commit _ _ _ bounded => exact bounded

/-- The counter after it was told of the identities of rows. -/
theorem passed_of_foldl (identity : Option String) (rows : List Record) (next : Int64) :
    let after := rows.foldl (fun next row => advance next (identityOf identity row)) next
    next ≤ after ∧ ∀ row ∈ rows, ∀ id, identityOf identity row = some id →
      id < Int64.maxValue → id < after := by
  induction rows generalizing next with
  | nil => exact ⟨Int64.le_refl _, by simp⟩
  | cons row rows ih =>
    obtain ⟨hle, hpassed⟩ := ih (advance next (identityOf identity row))
    refine ⟨Int64.le_trans (le_advance _ _) hle, ?_⟩
    simp only [List.mem_cons]
    rintro r (rfl | hr) id hid hmax
    · refine Int64.lt_of_lt_of_le ?_ hle
      rw [hid]
      exact lt_advance hmax
    · exact hpassed r hr id hid hmax

/-- Seeding moves the counter past all identities that it brings. -/
theorem fresh_seed {rows : List Record} (h : t.Fresh) (hbounded : (t.seed rows).Bounded) :
    (t.seed rows).Fresh := by
  obtain ⟨hle, hpassed⟩ := passed_of_foldl t.identity rows t.nextIdentity
  intro id hid
  obtain ⟨row, hrow, hrowId⟩ := List.mem_filterMap.1 hid
  obtain hold | hnew := List.mem_append.1 hrow
  · exact Int64.lt_of_lt_of_le (h id (List.mem_filterMap.2 ⟨row, hold, hrowId⟩)) hle
  · exact hpassed row hnew id hrowId (hbounded id hid)

/-- **A commit keeps the counter fresh exactly when its replacements are covered.** -/
theorem fresh_commit_iff {batch : WriteBatch} {committed : Committed}
    (ht : t.identity = some field) (h : t.Fresh) (done : t.commit batch = .ok (committed, after))
    (hbounded : after.Bounded) : after.Fresh ↔ Covered batch after := by
  obtain ⟨hcont, -⟩ := continues_of_commit ht done
  constructor
  · intro hfresh filter entity id _ hentity hid
    exact hfresh id (List.mem_filterMap.2 ⟨entity, hentity, hid⟩)
  · intro hcovered id hid
    obtain ⟨row, hrow, hrowId⟩ := List.mem_filterMap.1 hid
    obtain hold | ⟨filter, hfilter⟩ | hpassed := hcont.origin row hrow
    · rw [hcont.identity] at hrowId
      exact Int64.lt_of_lt_of_le (h id (List.mem_filterMap.2 ⟨row, hold, hrowId⟩)) hcont.next
    · exact hcovered filter row id hfilter hrow hrowId
    · exact hpassed id (hcont.identity ▸ hrowId) (hbounded id hid)

/-- The replacements of the batch bring no identity that the counter has still to reach. -/
def Known (t : Table) (batch : WriteBatch) : Prop :=
  ∀ filter entity id, .replace filter entity ∈ batch → identityOf t.identity entity = some id →
    id < t.nextIdentity

/-- Replacements by known identities are covered. -/
theorem covered_of_known {batch : WriteBatch} {committed : Committed} (ht : t.identity = some field)
    (h : Known t batch) (done : t.commit batch = .ok (committed, after)) : Covered batch after := by
  obtain ⟨hcont, -⟩ := continues_of_commit ht done
  intro filter entity id hmem _ hid
  rw [hcont.identity] at hid
  exact Int64.lt_of_lt_of_le (h filter entity id hmem hid) hcont.next

/-- **The counter is fresh after every history exactly when every commit of the histories covers
its replacements**, and where it is fresh, and only there, rows without identity can always be
inserted. -/
theorem reachable_fresh_iff (hf : IdentityField schema field) :
    ((∀ t, Reachable schema field allowed t → t.Fresh) ↔
      ∀ t after batch committed, Reachable schema field allowed t → allowed t batch →
        t.commit batch = .ok (committed, after) → after.Bounded → Covered batch after) ∧
    ∀ t, Reachable schema field allowed t → (t.Fresh ↔ t.Serves schema field) := by
  refine ⟨⟨?_, ?_⟩, fun t h => fresh_iff_serves hf h.identity h.distinct h.bounded⟩
  · intro hfresh t after batch committed h hallowed done hbounded
    exact (fresh_commit_iff h.identity (hfresh t h) done hbounded).1
      (hfresh after (.commit h hallowed done hbounded))
  · intro hcovered t h
    induction h with
    | empty => exact fun id hid => by cases hid
    | seed _ _ bounded ih => exact fresh_seed ih bounded
    | commit before allow done bounded ih =>
      exact (fresh_commit_iff before.identity ih done bounded).2
        (hcovered _ _ _ _ before allow done bounded)

end Table

/-! ### Users -/

namespace Sample

open Table

/-- Users without identity can be inserted after every history whose replacements keep to known
identities. -/
theorem users_serve_of_known :
    (∀ t, Reachable user "id" Known t → t.Fresh) ∧
      ∀ t, Reachable user "id" Known t → t.Serves user "id" := by
  have hfield : IdentityField user "id" := ⟨_, rfl, rfl, rfl⟩
  obtain ⟨hiff, hserves⟩ := reachable_fresh_iff hfield
  have hfresh := hiff.2 fun _ _ _ _ before hknown done _ =>
    covered_of_known before.identity hknown done
  exact ⟨hfresh, fun t h => (hserves t h).1 (hfresh t h)⟩

/-- A user after it was given the identity that the counter is at. -/
def renumbered : Table := ⟨user, some "id", [userRow 2 "Ada" none], 2⟩

/-- The replacement of a user by one with another identity leaves the counter behind, and the next
user without identity conflicts. -/
theorem renumbered_conflicts :
    Reachable user "id" (fun _ _ => True) renumbered ∧ ¬ renumbered.Fresh ∧
      renumbered.commit [.insert [userRow 0 "Bob" none]] = .error (.conflict "User" "id" "2") := by
  have hseed : Reachable user "id" (fun _ _ => True)
      ((Table.empty user (some "id")).seed [userRow 1 "Ada" none]) :=
    .seed .empty (by decide) (by decide)
  have hreplace : ((Table.empty user (some "id")).seed [userRow 1 "Ada" none]).commit
      [.replace (.over user fun x => (x.field "id").equals (.constant (.int 1)))
        (userRow 2 "Ada" none)] = .ok (⟨[], 1, 0⟩, renumbered) := rfl
  exact ⟨.commit hseed trivial hreplace (by decide), by decide, rfl⟩

end Sample

end RecordView
