import RecordView.Store.Table

/-!
# Repositories

A repository counts, loads and commits rows of one entity that are kept in a store of type `σ`.
Reading leaves the store alone, and so does a commit that fails, because only a commit that
succeeds has a store to answer with.

`Table.repository` is a table as its own store; `Repository.within` finds the store inside a larger
one; `Repository.withFault` stands a failure in front of a repository.
-/

namespace RecordView

/-- Access to the rows of one entity in a store. -/
structure Repository (σ : Type) where
  count : σ → Option Lambda → Except StoreError Nat
  load : σ → EntityQuery → Except StoreError (List Record)
  commit : σ → WriteBatch → Except StoreError (Committed × σ)

/-- A table as its own store. -/
def Table.repository : Repository Table := ⟨Table.count, Table.load, Table.commit⟩

/-- Failures that stand in front of a repository. -/
inductive Fault
  /-- The repository is not found. -/
  | unresolved
  /-- Counting fails. -/
  | count
  /-- Loading fails. -/
  | load
  /-- Committing fails. -/
  | commit
  /-- Loading finds nothing. -/
  | emptyLoad
  /-- Committing does nothing. -/
  | lostCommit
deriving DecidableEq, Repr, Inhabited

/-- The failure with a name. -/
def Fault.ofName? : String → Option Fault
  | "unresolved" => some unresolved
  | "count" => some count
  | "load" => some load
  | "commit" => some commit
  | "load_empty" => some emptyLoad
  | "commit_lost" => some lostCommit
  | _ => none

namespace Repository

variable {σ τ : Type}

/-- A repository whose store is a part of a larger one. -/
def within (get : τ → σ) (set : τ → σ → τ) (r : Repository σ) : Repository τ where
  count store filter := r.count (get store) filter
  load store query := r.load (get store) query
  commit store batch := (r.commit (get store) batch).map fun done => (done.1, set store done.2)

/-- The repository behind a failure. -/
def withFault (fault : Fault) (r : Repository σ) : Repository σ :=
  match fault with
  | .unresolved => r
  | .count => { r with count := fun _ _ => .error (.backend "count refused") }
  | .load => { r with load := fun _ _ => .error (.backend "load refused") }
  | .commit => { r with commit := fun _ _ => .error (.backend "commit refused") }
  | .emptyLoad => { r with load := fun _ _ => .ok [] }
  | .lostCommit => { r with commit := fun store _ => .ok (.nothing, store) }

end Repository

/-- Tables by handle, and the handle under which each entity is registered. -/
structure Context where
  tables : List Table
  registered : List (String × Nat)
deriving Inhabited

namespace Context

/-- A context without tables. -/
def empty : Context := ⟨[], []⟩

/-- The table with a handle. -/
def table (c : Context) (handle : Nat) : Table := c.tables.getD handle default

/-- Replaces the table with a handle. -/
def setTable (c : Context) (handle : Nat) (t : Table) : Context :=
  { c with tables := c.tables.set handle t }

/-- Adds a table and registers it for its entity, in place of an earlier one. -/
def register (c : Context) (t : Table) : Context :=
  ⟨c.tables ++ [t], (t.schema.path, c.tables.length) :: c.registered⟩

/-- The handle of the table registered for an entity. -/
def handle? (c : Context) (entity : Schema) : Option Nat := c.registered.lookup entity.path

/-- The repository of the table with a handle. -/
def repository (handle : Nat) : Repository Context :=
  Table.repository.within (·.table handle) (·.setTable handle ·)

/-- The repository registered for an entity. -/
def resolve (c : Context) (entity : Schema) : Except StoreError (Repository Context) :=
  match c.handle? entity with
  | some handle => .ok (repository handle)
  | none => .error (.unknownRepository entity.path)

/-- The repository registered for an entity, behind a failure if there is one. -/
def resolveBehind (c : Context) (entity : Schema) (fault : Option Fault) :
    Except StoreError (Repository Context) := do
  let r ← c.resolve entity
  match fault with
  | none => return r
  | some .unresolved => throw (.backend "context refused")
  | some fault => return r.withFault fault

end Context

end RecordView
