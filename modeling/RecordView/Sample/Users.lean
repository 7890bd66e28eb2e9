import RecordView.Sample.Schemas
import RecordView.Service.Basic

/-!
# Sample users

Users and their models, and the mappings between them: every field of the model is a field of the
user, but for the role, which is the name of the user's nested role.
-/

namespace RecordView

namespace Sample

/-- The mappings between users and their models. -/
def userDeclarations : List MappingDeclaration :=
  [⟨.over userModel (·.field "id"), .over user (·.field "id"), true⟩,
    ⟨.over userModel (·.field "name"), .over user (·.field "name"), false⟩,
    ⟨.over userModel (·.field "role"), .over user (·.chain ["role", "name"]), false⟩,
    ⟨.over userModel (·.field "age"), .over user (·.field "age"), false⟩]

/-- The table of these mappings. -/
def userMappings : MappingSet := (MappingSet.declare userDeclarations).toOption.getD .empty

/-- A user with a name and, if given, a role. -/
def userRow (id : Int64) (name : String) (roleName : Option String) : Record :=
  ⟨user, [("id", .value (.int id)), ("name", .value (.text name)), ("age", .value .null),
    ("role", .record (roleName.map fun text =>
      ⟨role, [("id", .value (.int 1)), ("name", .value (.text text))]⟩))]⟩

/-- Two users, the second without a role. -/
def twoUsers : Table :=
  ⟨user, some "id", [userRow 1 "Ada" (some "admin"), userRow 2 "Bob" none], 3⟩

/-- The model of such a user. -/
def userView (id : Int64) (name : String) (roleName : Option String) : Record :=
  ⟨userModel, [("id", .value (.int id)), ("name", .value (.text name)),
    ("role", .value (.ofOption (roleName.map .text))), ("age", .value .null)]⟩

/-- Of the models, those of administrators and of users who are not over 30. -/
def adminOrYoung : Lambda :=
  .over userModel fun x =>
    .binary (.connective .or) ((x.field "role").equals (.constant (.text "admin")))
      (.unary .not (.binary (.comparison .gt) (x.field "age") (.constant (.int 30))))

/-- Of the users, the administrators and those who will be over 30 in a year. -/
def adminOrSenior : Lambda :=
  .over user fun x =>
    .binary (.connective .or) ((x.chain ["role", "name"]).equals (.constant (.text "admin")))
      (.binary (.comparison .gt)
        (.binary (.arithmetic .add) (x.field "age") (.constant (.int 1))) (.constant (.int 30)))

/-- The service that shows users as models, by identity unless a request says otherwise. -/
def userService : Service Table :=
  ⟨userModel, user, userMappings, [⟨.over user (·.field "id"), .asc⟩], {}, Table.repository⟩

end Sample

end RecordView
