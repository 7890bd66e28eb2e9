import RecordView.Error

/-!
# Calls and their events

A call announces itself by a `start` event and ends with a `finish` event that says whether it
failed and how many rows it touched; a `Span` keeps what the latter is going to say.  `Report` is
all that a call leaves behind: its outcome, the store, and its events in order.
-/

namespace RecordView

/-- Kinds of calls. -/
inductive CallKind
  | get
  | create
  | update
  | delete
  | aggregate
deriving DecidableEq, Repr, Inhabited

/-- The label of a kind of call. -/
def CallKind.label : CallKind → String
  | get => "get"
  | create => "create"
  | update => "update"
  | delete => "delete"
  | aggregate => "aggregate"

/-- What can be observed of calls. -/
inductive Event
  | start (kind : CallKind) (path : String)
  | finish (kind : CallKind) (path : String) (rows : Nat) (failed : Bool)
  /-- A facet loaded its rows for an aggregation. -/
  | facet (field : String) (rows : Nat) (filtered : Bool)
deriving DecidableEq, Repr, Inhabited

/-- What the `finish` of a call is going to say. -/
structure Span where
  kind : CallKind
  path : String
  rows : Nat := 0
  completed : Bool := false
deriving DecidableEq, Repr, Inhabited

namespace Span

/-- The event of a span being opened. -/
def start (s : Span) : Event := .start s.kind s.path

/-- Notes the rows that the call touched. -/
def setRows (s : Span) (rows : Nat) : Span := { s with rows := rows }

/-- Notes that the call succeeded. -/
def complete (s : Span) : Span := { s with completed := true }

/-- The event of a span being closed; without completion the call has failed. -/
def finish (s : Span) : Event := .finish s.kind s.path s.rows !s.completed

end Span

/-- What a call leaves behind. -/
structure Report (σ α : Type) where
  outcome : Except Error α
  store : σ
  events : List Event

/-- Whether a call failed. -/
def failed {α : Type} (outcome : Except Error α) : Bool :=
  match outcome with
  | .ok _ => false
  | .error _ => true

namespace Report

variable {σ α β : Type}

/-- The report of a call between its `start` and its `finish`, with the events of its inside. -/
def ofCall (kind : CallKind) (path : String) (rows : α → Nat) (inside : List Event)
    (done : Except Error α × σ) : Report σ α where
  outcome := done.1
  store := done.2
  events :=
    let opened : Span := { kind, path }
    -- an error leaves the call before rows and completion are noted
    let closed := match done.1 with
      | .ok a => (opened.setRows (rows a)).complete
      | .error _ => opened
    opened.start :: inside ++ [closed.finish]

/-- The same report with a changed answer. -/
def map (f : α → β) (r : Report σ α) : Report σ β := ⟨r.outcome.map f, r.store, r.events⟩

/-- The report of nothing being done. -/
def pure (store : σ) (a : α) : Report σ α := ⟨.ok a, store, []⟩

/-- One call after the other; the second is not made when the first fails. -/
def andThen (r : Report σ α) (next : α → σ → Report σ β) : Report σ β :=
  match r.outcome with
  | .ok a =>
    let s := next a r.store
    ⟨s.outcome, s.store, r.events ++ s.events⟩
  | .error e => ⟨.error e, r.store, r.events⟩

end Report

end RecordView
