import RecordView.Aggregate.Facet

/-!
# Aggregations

An aggregation assembles composites from several services, one per facet.  A call scopes the
predicate to every facet and loads its rows (`Aggregation.attach`), has them joined, orders and
windows the join rows, and projects those on the page (`Aggregation.read`).
-/

namespace RecordView

/-- Composites over facets that are joined to rows of type `J`. -/
structure Aggregation (σ J : Type) where
  composite : Schema
  facets : List (Facet σ J)
  pagination : PaginationPolicy
  /-- Combines the rows of the attached facets. -/
  join : AttachedFacets → Except Error (List J)
  /-- The order of join rows when a read asks for none. -/
  defaultOrder : J → J → Ordering

/-- A sort key of join rows: a path of a facet's entity, and a direction. -/
structure FacetOrderKey (σ J : Type) where
  facet : Facet σ J
  path : FieldPath
  direction : OrderDirection

namespace Aggregation

variable {σ J : Type}

/-- Adds a facet.  The composite must declare its field with the right kind, and every field has at
most one facet. -/
def addFacet (a : Aggregation σ J) (f : Facet σ J) : Except Error (Aggregation σ J) :=
  match a.composite.field? f.field with
  | none =>
    .error (.configuration .aggregation
      (a.composite.path ++ " has no field '" ++ f.field ++ "'"))
  | some declared =>
    if declared.type.kind != f.expectedKind then
      .error (.configuration .aggregation
        ("facet '" ++ f.field ++ "' expects " ++ a.composite.path ++ "." ++ f.field ++ " to be "
          ++ f.expectedKind.render ++ ", found " ++ declared.type.kind.render))
    else if a.facets.any (·.field == f.field) then
      .error (.configuration .aggregation
        ("facet '" ++ f.field ++ "' is already registered"))
    else
      .ok { a with facets := a.facets ++ [f] }

/-! ### Attaching -/

/-- The facets in the order in which they are attached, key facets first. -/
def attachmentOrder (a : Aggregation σ J) : List (Facet σ J) :=
  a.facets.filter (·.isKey) ++ a.facets.filter (!·.isKey)

/-- Attaches facets in order; those before the first failure are attached in any case. -/
def attachAll (store : σ) (global : Option Lambda) :
    List (Facet σ J) → AttachedFacets × Except Error Unit
  | [] => ([], .ok ())
  | f :: fs =>
    match f.attach store global with
    | .error e => ([], .error e)
    | .ok attached =>
      let (rest, outcome) := attachAll store global fs
      (attached :: rest, outcome)

/-- Attaches every facet for a predicate of composites. -/
def attach (a : Aggregation σ J) (store : σ) (global : Option Lambda) :
    AttachedFacets × Except Error Unit :=
  attachAll store global a.attachmentOrder

/-! ### Ordering -/

/-- The sort key of the chain `head.rest` of composite fields, which has to lead through a
single-record facet to one of its fields. -/
def orderKey (a : Aggregation σ J) (head : String) (rest : List String)
    (direction : OrderDirection) : Except Error (FacetOrderKey σ J) :=
  match a.facets.find? (·.field == head) with
  | none =>
    .error (.configuration .aggregation
      ("no facet registered for order field '" ++ head ++ "'"))
  | some f =>
    if f.isMany then
      .error (.plain .unsupported .aggregation
        ("cannot order by collection facet '" ++ head ++ "'"))
    else if rest.isEmpty then
      .error (.plain .unsupported .aggregation
        ("order term must name a field of facet '" ++ head ++ "'"))
    else do
      let path ← (f.orderPath rest).mapError (·.withOrigin .aggregation)
      return ⟨f, path, direction⟩

/-- The sort keys of order terms, resolved term by term: the first term that is no field chain makes
them unusable, unless one before it cannot be resolved. -/
def orderKeys (a : Aggregation σ J) :
    List OrderTerm → Except Error (Option (List (FacetOrderKey σ J)))
  | [] => .ok (some [])
  | term :: terms =>
    match term.selector.fieldChain? with
    | none | some [] => .ok none
    | some (head :: rest) => do
      let key ← a.orderKey head rest term.direction
      let keys ← a.orderKeys terms
      return keys.map (key :: ·)

/-- The values of sort keys in a join row. -/
def keyValues (keys : List (FacetOrderKey σ J)) (row : J) : Except Error (List Value) :=
  keys.mapM fun key => key.facet.orderKey key.path row

/-- The join rows in the order of the terms, or in the default order. -/
def sort (a : Aggregation σ J) (rows : List J) (order : List OrderTerm) :
    Except Error (List J) := do
  match ← a.orderKeys order with
  -- no terms, or one that is no field chain
  | none | some [] => return stableSort a.defaultOrder rows
  | some keys =>
    let keyed ← rows.mapM fun row => do
      let values ← keyValues keys row
      return (values, row)
    return sortByKeys (keys.map (·.direction)) keyed

/-! ### Reading -/

/-- The composite of a join row. -/
def project (a : Aggregation σ J) (row : J) : Except Error Record :=
  a.facets.foldlM (fun composite f => f.project row composite) a.composite.default

/-- The page of composites that a request asks for, once the facets are attached. -/
def assemble (a : Aggregation σ J) (attached : AttachedFacets) (request : ReadRequest) :
    Except Error (Results Record) := do
  let rows ← a.join attached
  let rows ← a.sort rows request.order
  let window := a.pagination.window request.page request.pageSize
  let items ← (PageWindow.applyTo window rows).mapM a.project
  return ⟨rows.length, items⟩

/-- The page of composites that a request asks for. -/
def read (a : Aggregation σ J) (store : σ) (request : ReadRequest) :
    Except Error (Results Record) :=
  let (attached, outcome) := a.attach store request.filter
  match outcome with
  | .error e => .error e
  | .ok () => a.assemble attached request

/-- Answers a read request. -/
def get (a : Aggregation σ J) (store : σ) (request : ReadRequest) : Report σ (Results Record) :=
  .ofCall .aggregate a.composite.path (·.length)
    ((a.attach store request.filter).1.map AttachedFacet.event)
    (a.read store request, store)

end Aggregation

end RecordView
