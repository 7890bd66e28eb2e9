import RecordView.Aggregate.Call
import RecordView.Sample.Schemas

/-!
# A directory of users and locations

A sample aggregation: composites of a user, a home, the user's locations and the user's peers, with
several ways to join the facets.
-/

namespace RecordView

namespace Sample

/-- A row of the directory, made of entities. -/
structure DirectoryRow where
  user : Option Record
  home : Option Record
  locations : List Record
  peers : List Record
deriving Inhabited

/-- A signed number in a field. -/
def number? (r : Record) (field : String) : Option Int64 :=
  match r.getValue? field with
  | some (.int i) => some i
  | _ => none

/-- The rows of an attached facet, none when the facet is not attached. -/
def rowsIfAttached (facets : AttachedFacets) (entity : Schema) (field : String) :
    Except Error (List Record) :=
  match AttachedFacets.get? facets field with
  | none => .ok []
  | some _ => AttachedFacets.rowsOf facets entity field

/-- Ways to join the directory's facets. -/
inductive DirectoryJoin
  /-- A row for every user. -/
  | left
  /-- A row for every location. -/
  | right
  /-- Asks for users as if they were locations. -/
  | wrongType
  /-- Fails. -/
  | fail
deriving DecidableEq, Repr, Inhabited

/-- The join with a name. -/
def DirectoryJoin.ofName? : String → Option DirectoryJoin
  | "left" => some left
  | "right" => some right
  | "wrong_type" => some wrongType
  | "fail" => some fail
  | _ => none

/-- The row of a user, unless a facet that is narrowed has nothing for the user. -/
def userRow? (facets : AttachedFacets) (locations homes peers : List Record) (u : Record) :
    Option DirectoryRow :=
  let isOf (l : Record) := number? l "user_id" == number? u "id"
  let locations := locations.filter isOf
  let home := homes.find? isOf
  let peers := peers.filter fun p =>
    number? p "id" != number? u "id" && number? p "age" == number? u "age"
  if facets.hasClause "locations" && locations.isEmpty
      || facets.hasClause "home" && home.isNone
      || facets.hasClause "peers" && peers.isEmpty then
    none
  else
    some ⟨some u, home, locations, peers⟩

/-- Joins the facets of the directory. -/
def DirectoryJoin.rows (join : DirectoryJoin) (facets : AttachedFacets) :
    Except Error (List DirectoryRow) :=
  match join with
  | left => do
    let users ← facets.rowsOf user "user"
    let locations ← rowsIfAttached facets location "locations"
    let homes ← rowsIfAttached facets location "home"
    let peers ← rowsIfAttached facets user "peers"
    return users.filterMap (userRow? facets locations homes peers)
  | right => do
    let users ← facets.rowsOf user "user"
    let locations ← facets.rowsOf location "locations"
    return locations.map fun l =>
      ⟨users.find? fun u => number? u "id" == number? l "user_id", some l, [l], []⟩
  | wrongType => (facets.rowsOf location "user").map fun _ => []
  | fail => .error (StoreError.backend "join refused").toError

/-- Compares optional numbers, none first. -/
def compareOptional : Option Int64 → Option Int64 → Ordering
  | none, none => .eq
  | none, some _ => .lt
  | some _, none => .gt
  | some i, some j => compare i.toInt j.toInt

/-- Directory rows by user, then by first location. -/
def compareRows (a b : DirectoryRow) : Ordering :=
  (compareOptional (a.user.bind (number? · "id")) (b.user.bind (number? · "id"))).then
    (compareOptional (a.locations.head?.bind (number? · "id"))
      (b.locations.head?.bind (number? · "id")))

/-- The directory without facets. -/
def directory {σ : Type} (join : DirectoryJoin) (pagination : PaginationPolicy) :
    Aggregation σ DirectoryRow :=
  ⟨composite, [], pagination, join.rows, compareRows⟩

/-- The parts of a directory row that a facet can serve. -/
inductive DirectoryPart
  | user
  | home
  | locations
  | peers
deriving DecidableEq, Repr, Inhabited

/-- The part that a kind of facet serves. -/
def DirectoryPart.ofKind? : String → Option DirectoryPart
  | "one_user" => some user
  | "one_location" => some home
  | "many_location" => some locations
  | "many_user" => some peers
  | _ => none

/-- How a part of a directory row is read, and written to the composite. -/
def DirectoryPart.access : DirectoryPart → FacetAccess DirectoryRow
  | user => .one (·.user) fun c model => c.setRecord "user" (some model)
  | home => .one (·.home) fun c model => c.setRecord "home" (some model)
  | locations => .many (·.locations) fun c models => c.setRecords "locations" models
  | peers => .many (·.peers) fun c models => c.setRecords "peers" models

end Sample

end RecordView
