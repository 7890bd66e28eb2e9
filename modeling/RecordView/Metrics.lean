import RecordView.Call
import RecordView.Sorting

/-!
# Metrics

Counters over the events of calls: overall, and per entity.  `Counters.record` is the step for one
event; the summary lists the entities by how often they were called.  A counter stops at the largest
64-bit word.
-/

namespace RecordView

/-- The largest number that a counter holds. -/
def counterMax : Nat := UInt64.size - 1

/-- A counter that is raised by `n`, at most to the largest number that it holds. -/
def raise (counter n : Nat) : Nat := min (counter + n) counterMax

/-- Counters of one entity. -/
structure EntityCounters where
  calls : Nat := 0
  failedCalls : Nat := 0
  rows : Nat := 0
deriving DecidableEq, Repr, Inhabited

/-- Counters of all calls. -/
structure Counters where
  getCalls : Nat := 0
  createCalls : Nat := 0
  updateCalls : Nat := 0
  deleteCalls : Nat := 0
  aggregateCalls : Nat := 0
  failedCalls : Nat := 0
  rowsRead : Nat := 0
  rowsWritten : Nat := 0
  rowsDeleted : Nat := 0
  facetsAttached : Nat := 0
  facetsFiltered : Nat := 0
  facetRows : Nat := 0
  /-- Counters by entity, in the order of their first call. -/
  entities : List (String × EntityCounters) := []
deriving DecidableEq, Repr, Inhabited

/-- Changes the counters of an entity, which start at zero. -/
def updateEntity (path : String) (f : EntityCounters → EntityCounters) :
    List (String × EntityCounters) → List (String × EntityCounters)
  | [] => [(path, f {})]
  | entry :: entries =>
    if entry.1 = path then (path, f entry.2) :: entries
    else entry :: updateEntity path f entries

namespace Counters

/-- The overall counters by name. -/
def operations (c : Counters) : List (String × Nat) :=
  [("get_calls", c.getCalls), ("create_calls", c.createCalls), ("update_calls", c.updateCalls),
    ("delete_calls", c.deleteCalls), ("aggregate_calls", c.aggregateCalls),
    ("failed_calls", c.failedCalls), ("rows_read", c.rowsRead),
    ("rows_written", c.rowsWritten), ("rows_deleted", c.rowsDeleted),
    ("facets_attached", c.facetsAttached), ("facets_filtered", c.facetsFiltered),
    ("facet_rows", c.facetRows)]

/-- Counts a call of a kind. -/
def countCall (c : Counters) : CallKind → Counters
  | .get => { c with getCalls := raise c.getCalls 1 }
  | .create => { c with createCalls := raise c.createCalls 1 }
  | .update => { c with updateCalls := raise c.updateCalls 1 }
  | .delete => { c with deleteCalls := raise c.deleteCalls 1 }
  | .aggregate => { c with aggregateCalls := raise c.aggregateCalls 1 }

/-- Counts the rows that a call of a kind touched. -/
def countRows (c : Counters) (rows : Nat) : CallKind → Counters
  | .get | .aggregate => { c with rowsRead := raise c.rowsRead rows }
  | .create | .update => { c with rowsWritten := raise c.rowsWritten rows }
  | .delete => { c with rowsDeleted := raise c.rowsDeleted rows }

/-- Counts one event. -/
def record (c : Counters) : Event → Counters
  | .start kind path =>
    let c := c.countCall kind
    { c with entities := updateEntity path (fun e => { e with calls := raise e.calls 1 }) c.entities }
  | .finish kind path rows failed =>
    let c := c.countRows rows kind
    let failures := if failed then 1 else 0
    { c with
      failedCalls := raise c.failedCalls failures
      entities := updateEntity path
        (fun e => { e with rows := raise e.rows rows, failedCalls := raise e.failedCalls failures })
        c.entities }
  | .facet _ rows filtered =>
    { c with
      facetsAttached := raise c.facetsAttached 1
      facetsFiltered := raise c.facetsFiltered (if filtered then 1 else 0)
      facetRows := raise c.facetRows rows }

/-- Counts events in order. -/
def recordAll (c : Counters) (events : List Event) : Counters := events.foldl record c

end Counters

/-- The rows that a call of an entity touched on average. -/
def EntityCounters.average (e : EntityCounters) : Double :=
  if e.calls = 0 then ⟨0⟩
  else (Double.ofUInt64 e.rows.toUInt64).div (.ofUInt64 e.calls.toUInt64)

/-- The entities, the most called first, those called equally often by path. -/
def Counters.summary (c : Counters) : List (String × EntityCounters) :=
  stableSort (fun a b => (compare b.2.calls a.2.calls).then (compare a.1 b.1)) c.entities

end RecordView
