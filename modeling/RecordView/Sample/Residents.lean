import RecordView.Sample.Directory
import RecordView.Sample.Users

/-!
# Sample residents

The directory of two users and three locations, one of which belongs to nobody: a composite for
every location, with the user whose it is.
-/

namespace RecordView

namespace Sample

/-- The mappings between locations and their models. -/
def locationDeclarations : List MappingDeclaration :=
  [⟨.over locationModel (·.field "id"), .over location (·.field "id"), true⟩,
    ⟨.over locationModel (·.field "name"), .over location (·.field "name"), false⟩]

/-- The table of these mappings. -/
def locationMappings : MappingSet :=
  (MappingSet.declare locationDeclarations).toOption.getD .empty

/-- A location of a user. -/
def locationRow (id : Int64) (name : String) (userId : Int64) : Record :=
  ⟨location, [("id", .value (.int id)), ("name", .value (.text name)),
    ("user_id", .value (.int userId))]⟩

/-- The model of such a location. -/
def locationView (id : Int64) (name : String) : Record :=
  ⟨locationModel, [("id", .value (.int id)), ("name", .value (.text name))]⟩

/-- Three locations, the last of a user who is not known. -/
def threeLocations : Table :=
  ⟨location, some "id",
    [locationRow 1 "PARIS" 1, locationRow 2 "MADRID" 2, locationRow 3 "LONDON" 7], 4⟩

/-- The tables of users and of locations. -/
def town : Context :=
  (Context.empty.register twoUsers).register threeLocations

/-- The users of the town as models. -/
def townUsers : Service Context :=
  ⟨userModel, user, userMappings, [⟨.over user (·.field "id"), .asc⟩], {}, Context.repository 0⟩

/-- The locations of the town as models. -/
def townLocations : Service Context :=
  ⟨locationModel, location, locationMappings, [⟨.over location (·.field "id"), .asc⟩], {},
    Context.repository 1⟩

/-- The facets of a directory of the town. -/
def townFacets : List (Facet Context DirectoryRow) :=
  [⟨"user", townUsers, DirectoryPart.user.access, true⟩,
    ⟨"home", townLocations, DirectoryPart.home.access, false⟩,
    ⟨"locations", townLocations, DirectoryPart.locations.access, false⟩]

/-- The directory of the town, by location. -/
def residents : Aggregation Context DirectoryRow :=
  { (directory .right {} : Aggregation Context DirectoryRow) with facets := townFacets }

/-- A composite without a memo and without peers. -/
def residentView (user home : Option Record) (locations : List Record) : Record :=
  ⟨composite, [("memo", .value .null), ("user", .record user), ("home", .record home),
    ("locations", .records locations), ("peers", .records [])]⟩

/-- By the name of the user, last first. -/
def byUserName : OrderTerm :=
  ⟨.over composite (·.chain ["user", "name"]), .desc⟩

end Sample

end RecordView
