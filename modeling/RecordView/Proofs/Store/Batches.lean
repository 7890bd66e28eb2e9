import RecordView.Proofs.Store.Commit
import RecordView.Sample.Users

/-!
# Batches compose

A run of writes carries on from the report of the writes before it, and does the same whatever was
reported so far (`Table.applyAll_append_done`).  The identities of the rows are checked once for a
batch, in the end.  So a batch after another one that can be committed is committed, or refused,
with both in one batch just as by itself (`Table.commit_append`).

The first batch has to be fit for a commit of its own: as a part of a larger batch it may leave two
rows with one identity, if a later write removes one of them.
-/

namespace RecordView

namespace Committed

/-- What two runs of writes wrote, one after the other. -/
def append (c d : Committed) : Committed :=
  ⟨c.inserted ++ d.inserted, c.replaced + d.replaced, c.removed + d.removed⟩

@[simp] theorem append_nothing (c : Committed) : c.append .nothing = c := by
  simp [append, nothing]

end Committed

namespace Table

variable {t t' : Table} {batch batch' : WriteBatch} {committed : Committed}

/-- A write does the same whatever was reported before it. -/
theorem apply_append_done (t : Table) (before done : Committed) (op : WriteOp) :
    t.apply (before.append done) op =
      (t.apply done op).map fun state => (state.1, before.append state.2) := by
  cases op with
  | insert entities =>
    rw [apply, apply]
    cases identifyAll t.identity t.nextIdentity entities with
    | error e => rfl
    | ok identified => simp [bind, Except.bind, pure, Except.pure, Except.map, Committed.append]
  | replace filter entity =>
    rw [apply, apply]
    cases replaceRows filter entity t.rows with
    | error e => rfl
    | ok replaced =>
      simp [bind, Except.bind, pure, Except.pure, Except.map, Committed.append, Nat.add_assoc]
  | remove filter =>
    rw [apply, apply]
    cases removeRows filter t.rows with
    | error e => rfl
    | ok removed =>
      simp [bind, Except.bind, pure, Except.pure, Except.map, Committed.append, Nat.add_assoc]

/-- A run of writes does the same whatever was reported before it. -/
theorem applyAll_append_done (t : Table) (before done : Committed) (batch : WriteBatch) :
    t.applyAll (before.append done) batch =
      (t.applyAll done batch).map fun state => (state.1, before.append state.2) := by
  induction batch generalizing t done with
  | nil => rfl
  | cons op batch ih =>
    rw [applyAll, applyAll, List.foldlM_cons, List.foldlM_cons]
    change (t.apply (before.append done) op >>= fun state => state.1.applyAll state.2 batch) =
      (t.apply done op >>= fun state => state.1.applyAll state.2 batch).map _
    rw [apply_append_done]
    cases t.apply done op with
    | error e => rfl
    | ok state => exact ih state.1 state.2

/-- One run of writes after the other is a run of all of them. -/
theorem applyAll_append (t : Table) (done : Committed) (batch batch' : WriteBatch) :
    t.applyAll done (batch ++ batch') =
      t.applyAll done batch >>= fun state => state.1.applyAll state.2 batch' := by
  rw [applyAll, List.foldlM_append]
  rfl

/-- **Batches compose.**  After a batch that was committed, another one does by itself what it does
as the rest of one batch: the table in the end is the same, its rows and its counter, and the report
of both is the first one followed by the second.  If the second is refused, both together are, with
the same error. -/
theorem commit_append (h : t.commit batch = .ok (committed, t')) (batch' : WriteBatch) :
    t.commit (batch ++ batch') = (t'.commit batch').map fun (committed', after) =>
      (⟨committed.inserted ++ committed'.inserted, committed.replaced + committed'.replaced,
        committed.removed + committed'.removed⟩, after) := by
  obtain ⟨hrun, -⟩ := commit_eq_ok.1 h
  have hboth : t.applyAll .nothing (batch ++ batch') =
      (t'.applyAll .nothing batch').map fun state => (state.1, committed.append state.2) := by
    rw [applyAll_append, hrun]
    change t'.applyAll committed batch' = _
    rw [← applyAll_append_done, Committed.append_nothing]
  rw [commit, commit, hboth]
  cases t'.applyAll .nothing batch' with
  | error e => rfl
  | ok state =>
    obtain ⟨after, committed'⟩ := state
    change (after.checkIdentities >>= fun _ => _) = (after.checkIdentities >>= fun _ => _).map _
    cases after.checkIdentities <;> rfl

end Table

/-! ### Two batches of users -/

namespace Sample

/-- The users with an identity. -/
def withIdentity (id : Int64) : Lambda :=
  .over user fun x => (x.field "id").equals (.constant (.int id))

/-- Renames the first user and adds one. -/
def renameAndAdd : WriteBatch :=
  [.replace (withIdentity 1) (userRow 1 "Eve" none), .insert [userRow 0 "Cyd" none]]

/-- Removes the second user and adds one. -/
def removeAndAdd : WriteBatch :=
  [.remove (some (withIdentity 2)), .insert [userRow 0 "Dan" none]]

theorem renameAndAdd_then_removeAndAdd :
    twoUsers.commit renameAndAdd = .ok (⟨[userRow 3 "Cyd" none], 1, 0⟩,
        ⟨user, some "id", [userRow 1 "Eve" none, userRow 2 "Bob" none, userRow 3 "Cyd" none], 4⟩) ∧
      twoUsers.commit (renameAndAdd ++ removeAndAdd) =
        .ok (⟨[userRow 3 "Cyd" none, userRow 4 "Dan" none], 1, 1⟩,
          ⟨user, some "id", [userRow 1 "Eve" none, userRow 3 "Cyd" none, userRow 4 "Dan" none],
            5⟩) := by
  have hfirst : twoUsers.commit renameAndAdd = .ok (⟨[userRow 3 "Cyd" none], 1, 0⟩,
      ⟨user, some "id", [userRow 1 "Eve" none, userRow 2 "Bob" none, userRow 3 "Cyd" none], 4⟩) :=
    rfl
  refine ⟨hfirst, ?_⟩
  rw [Table.commit_append hfirst]
  rfl

-- a batch that is refused by itself, and committed with a removal after it
example :
    twoUsers.commit [.insert [userRow 1 "Eve" none]] = .error (.conflict "User" "id" "1") ∧
      (twoUsers.commit [.insert [userRow 1 "Eve" none], .remove (some (withIdentity 1))]).isOk :=
  ⟨rfl, rfl⟩

end Sample

end RecordView
