import RecordView.Store.Query

/-!
# Tables

A table holds rows in storage order.  It may have an identity field: a row inserted with identity
null or zero then gets the next free identity, and no two rows may end up with the same one.

A batch takes effect as a whole or not at all: `Table.commit` works on a copy and checks
identities once, at the end.
-/

namespace RecordView

/-- Rows of one entity. -/
structure Table where
  schema : Schema
  identity : Option String
  rows : List Record
  nextIdentity : Int64
deriving Inhabited

/-- The next signed word, the greatest one staying as it is. -/
def nextWord (i : Int64) : Int64 :=
  if i = Int64.maxValue then i else i + 1

namespace Table

/-- A table without rows. -/
def empty (schema : Schema) (identity : Option String) : Table := ⟨schema, identity, [], 1⟩

/-- The identity of a row: the number in the identity field, when it is a signed word. -/
def identityOf (identity : Option String) (row : Record) : Option Int64 :=
  match identity.bind row.getValue? with
  | some (.int i) => some i
  | some (.uint n) => Value.int64? n.toNat
  | _ => none

/-- The counter after a row with the given identity was stored. -/
def advance (next : Int64) : Option Int64 → Int64
  | none => next
  | some id => max next (nextWord id)

/-- Adds rows as they are. -/
def seed (t : Table) (rows : List Record) : Table :=
  { t with
    rows := t.rows ++ rows
    nextIdentity := rows.foldl (fun next row => advance next (identityOf t.identity row))
      t.nextIdentity }

/-! ### Reading -/

/-- The number of rows that satisfy a filter. -/
def count (t : Table) (filter : Option Lambda) : Except StoreError Nat :=
  (selectRows filter t.rows).map (·.length)

/-- The rows that a query asks for. -/
def load (t : Table) (query : EntityQuery) : Except StoreError (List Record) := do
  let rows ← selectRows query.filter t.rows
  let rows ← sortRows query.order rows
  return PageWindow.applyTo query.window rows

/-! ### Writing -/

/-- Gives a row without identity the next one, and moves the counter on. -/
def identify (identity : Option String) (next : Int64) (row : Record) :
    Except StoreError (Int64 × Record) :=
  match identity with
  | none => .ok (next, row)
  | some field =>
    if (identityOf identity row).any (· ≠ 0) then
      .ok (advance next (identityOf identity row), row)
    else
      match row.setValue field (.int next) with
      | .ok stored => .ok (advance (nextWord next) (identityOf identity stored), stored)
      | .error e => .error (.backend e.message)

/-- Gives rows their identities, one after the other. -/
def identifyAll (identity : Option String) :
    Int64 → List Record → Except StoreError (Int64 × List Record)
  | next, [] => .ok (next, [])
  | next, row :: rows => do
    let (next, row) ← identify identity next row
    let (next, rows) ← identifyAll identity next rows
    return (next, row :: rows)

/-- Puts an entity in the place of every row that satisfies the filter, and counts them. -/
def replaceRows (filter : Lambda) (entity : Record) :
    List Record → Except StoreError (List Record × Nat)
  | [] => .ok ([], 0)
  | row :: rows => do
    let hit ← passes (some filter) row
    let (rest, n) ← replaceRows filter entity rows
    return if hit then (entity :: rest, n + 1) else (row :: rest, n)

/-- Removes every row that satisfies the filter, and counts them. -/
def removeRows (filter : Option Lambda) :
    List Record → Except StoreError (List Record × Nat)
  | [] => .ok ([], 0)
  | row :: rows => do
    let hit ← passes filter row
    let (rest, n) ← removeRows filter rows
    return if hit then (rest, n + 1) else (row :: rest, n)

/-- Carries out one write. -/
def apply (t : Table) (done : Committed) : WriteOp → Except StoreError (Table × Committed)
  | .insert entities => do
    let (next, stored) ← identifyAll t.identity t.nextIdentity entities
    return ({ t with rows := t.rows ++ stored, nextIdentity := next },
      { done with inserted := done.inserted ++ stored })
  | .replace filter entity => do
    let (rows, n) ← replaceRows filter entity t.rows
    return ({ t with rows := rows }, { done with replaced := done.replaced + n })
  | .remove filter => do
    let (rows, n) ← removeRows filter t.rows
    return ({ t with rows := rows }, { done with removed := done.removed + n })

/-- Carries out writes in order. -/
def applyAll (t : Table) (done : Committed) (batch : WriteBatch) :
    Except StoreError (Table × Committed) :=
  batch.foldlM (fun state op => state.1.apply state.2 op) (t, done)

/-- The first number that occurs again after it was seen. -/
def firstRepeated (seen : List Int64) : List Int64 → Option Int64
  | [] => none
  | id :: ids => if seen.contains id then some id else firstRepeated (id :: seen) ids

/-- Refuses two rows with one identity. -/
def checkIdentities (t : Table) : Except StoreError Unit :=
  match t.identity, firstRepeated [] (t.rows.filterMap (identityOf t.identity)) with
  | some field, some id => .error (.conflict t.schema.path field (toString id.toInt))
  | _, _ => .ok ()

/-- Carries out a batch as a whole. -/
def commit (t : Table) (batch : WriteBatch) : Except StoreError (Committed × Table) := do
  let (after, committed) ← t.applyAll .nothing batch
  -- two rows may share an identity on the way, but not in the end
  after.checkIdentities
  return (committed, after)

end Table

end RecordView
