import RecordView.Aggregate.Call
import RecordView.Config
import RecordView.Metrics

/-!
# Hosts

A host keeps what an application of the library keeps: tables registered by entity, services by
name, at most one aggregation over rows of type `J`, and the counters of all calls.  A service keeps
the repository with which it was built, also when its entity is registered again.
-/

namespace RecordView

/-- The state of an application. -/
structure Host (J : Type) where
  context : Context
  /-- The failure that stands in front of the repository of an entity. -/
  faults : List (String × Option Fault)
  services : List (String × Service Context)
  aggregation : Option (Aggregation Context J)
  counters : Counters

namespace Host

variable {J α : Type}

/-- A host in which nothing is registered. -/
def empty : Host J := ⟨.empty, [], [], none, {}⟩

/-- Registers a new table with the given rows. -/
def register (h : Host J) (entity : Schema) (identity : Option String) (rows : List Record) :
    Host J :=
  { h with context := h.context.register ((Table.empty entity identity).seed rows) }

/-- Puts a failure in front of the repository of an entity, for services built from now on. -/
def setFault (h : Host J) (entity : String) (fault : Option Fault) : Host J :=
  { h with faults := (entity, fault) :: h.faults }

/-- The failure in front of the repository of an entity. -/
def fault? (h : Host J) (entity : Schema) : Option Fault :=
  (h.faults.lookup entity.path).join

/-- Builds a service and keeps it under a name. -/
def build (h : Host J) (name : String) (model entity : Schema)
    (declarations : List MappingDeclaration) (defaultOrder : List OrderTerm)
    (pagination : PaginationPolicy) : Except Error Unit × Host J :=
  let repository := h.context.resolveBehind entity (h.fault? entity)
  match Service.build model entity declarations defaultOrder pagination repository with
  | .ok service => (.ok (), { h with services := (name, service) :: h.services })
  | .error e => (.error e, h)

/-- The service of a name. -/
def service? (h : Host J) (name : String) : Option (Service Context) := h.services.lookup name

/-- The table registered for an entity. -/
def table? (h : Host J) (entity : Schema) : Option Table :=
  (h.context.handle? entity).map h.context.table

/-- Replaces the table registered for an entity. -/
def setTable (h : Host J) (entity : Schema) (t : Table) : Host J :=
  match h.context.handle? entity with
  | some handle => { h with context := h.context.setTable handle t }
  | none => h

/-- The aggregation with facets registered in order; the first that fails decides. -/
def aggregate (h : Host J) (a : Aggregation Context J) (facets : List (Facet Context J)) :
    Except Error (Aggregation Context J) × Host J :=
  match facets.foldlM Aggregation.addFacet a with
  | .ok a => (.ok a, { h with aggregation := some a })
  | .error e => (.error e, h)

/-- The host after a call, whose events are counted unless somebody else watches them. -/
def finish (h : Host J) (watched : Bool) (r : Report Context α) : Host J :=
  { h with
    context := r.store
    counters := if watched then h.counters else h.counters.recordAll r.events }

/-- The host with all counters at zero. -/
def resetCounters (h : Host J) : Host J := { h with counters := {} }

end Host

end RecordView
