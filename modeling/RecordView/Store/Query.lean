import RecordView.Error
import RecordView.Page
import RecordView.Sorting

/-!
# Requests to a repository

A query selects rows by a predicate, orders them by the values of selectors, and cuts out a window.
A write batch is a list of insertions, replacements and removals that take effect together.
-/

namespace RecordView

/-- Ascending or descending. -/
inductive OrderDirection
  | asc
  | desc
deriving DecidableEq, Repr, Inhabited

/-- A comparison read in the direction. -/
def OrderDirection.orient : OrderDirection → Ordering → Ordering
  | asc, o => o
  | desc, o => o.swap

/-- The name of a direction. -/
def OrderDirection.label : OrderDirection → String
  | asc => "Asc"
  | desc => "Desc"

/-- A sort key: a selector and a direction. -/
structure OrderTerm where
  selector : Lambda
  direction : OrderDirection
deriving Inhabited

/-- Lexicographic comparison of sort keys, each in its direction. -/
def compareKeys : List OrderDirection → List Value → List Value → Ordering
  | d :: ds, v :: vs, w :: ws => (d.orient (v.canonicalCmp w)).then (compareKeys ds vs ws)
  | _, _, _ => .eq

/-- Items sorted by their keys; items with equal keys keep their order. -/
def sortByKeys {α : Type} (directions : List OrderDirection) (keyed : List (List Value × α)) :
    List α :=
  (stableSort (fun a b => compareKeys directions a.1 b.1) keyed).map (·.2)

/-- A read request: which rows, in which order, and which of them. -/
structure EntityQuery where
  filter : Option Lambda
  order : List OrderTerm
  window : Option PageWindow
deriving Inhabited

/-- One write. -/
inductive WriteOp
  | insert (entities : List Record)
  /-- Replaces every row that satisfies the filter. -/
  | replace (filter : Lambda) (entity : Record)
  /-- Removes every row that satisfies the filter, all rows without one. -/
  | remove (filter : Option Lambda)
deriving Inhabited

/-- Writes that are committed together. -/
abbrev WriteBatch := List WriteOp

/-- What a commit wrote. -/
structure Committed where
  /-- The inserted rows as stored. -/
  inserted : List Record
  replaced : Nat
  removed : Nat
deriving Inhabited

/-- A commit that wrote nothing. -/
def Committed.nothing : Committed := ⟨[], 0, 0⟩

/-- Whether a row satisfies a filter; without a filter every row does. -/
def passes (filter : Option Lambda) (row : Record) : Except StoreError Bool :=
  match filter with
  | none => .ok true
  | some f => (f.test row).mapError fun e => .backend e.message

/-- The rows that satisfy a filter, in order. -/
def selectRows (filter : Option Lambda) : List Record → Except StoreError (List Record)
  | [] => .ok []
  | row :: rows => do
    let keep ← passes filter row
    let rest ← selectRows filter rows
    return if keep then row :: rest else rest

/-- The sort keys of a row. -/
def rowKeys (order : List OrderTerm) (row : Record) : Except StoreError (List Value) :=
  order.mapM fun term => (term.selector.select row).mapError fun e => .backend e.message

/-- The rows in the order of the terms. -/
def sortRows (order : List OrderTerm) (rows : List Record) : Except StoreError (List Record) := do
  let keyed ← rows.mapM fun row => do
    let keys ← rowKeys order row
    return (keys, row)
  return sortByKeys (order.map (·.direction)) keyed

end RecordView
