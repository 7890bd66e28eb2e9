import RecordView.Schema.Basic

/-!
# Sample schemas

Users with roles and locations, accounts with addresses, the models that show them, and a composite
of models.
-/

namespace RecordView

namespace Sample

/-- A required scalar field. -/
def req (name : String) (kind : FieldKind) (width : Width := .wide) : Field :=
  ⟨name, .required kind, width⟩

/-- A scalar field that may be null. -/
def opt (name : String) (kind : FieldKind) (width : Width := .wide) : Field :=
  ⟨name, .optional kind, width⟩

/-- A field with one nested record. -/
def one (name : String) (schema : Schema) : Field := ⟨name, .record schema, .wide⟩

/-- A field with a collection of records. -/
def many (name : String) (schema : Schema) : Field := ⟨name, .records schema, .wide⟩

/-! ### Entities -/

def role : Schema := ⟨"Role", [req "id" .int, opt "name" .text]⟩

def user : Schema :=
  ⟨"User", [req "id" .int, opt "name" .text, opt "age" .int, one "role" role]⟩

def location : Schema :=
  ⟨"Location", [req "id" .int, opt "name" .text, req "user_id" .int]⟩

def country : Schema :=
  ⟨"Country", [req "code" .text, opt "pop" .uint, opt "area" .float]⟩

def tag : Schema := ⟨"Tag", [opt "name" .text, opt "weight" .float]⟩

def address : Schema :=
  ⟨"Address", [opt "street" .text, opt "zip" .int .narrow, one "country" country,
    many "marks" tag]⟩

def account : Schema :=
  ⟨"Account", [req "id" .int, req "uid" .uint, req "small" .int .narrow, req "u" .uint .narrow,
    opt "big" .int, opt "ubig" .uint, opt "osmall" .int .narrow, opt "ou" .uint .narrow,
    req "ratio" .float, opt "score" .float, req "flag" .bool, opt "oflag" .bool,
    req "label" .text, opt "note" .text, one "address" address, many "tags" tag,
    many "addresses" address]⟩

/-! ### Models -/

def userModel : Schema :=
  ⟨"UserModel", [opt "id" .int, opt "name" .text, opt "role" .text, opt "age" .int]⟩

def locationModel : Schema := ⟨"LocationModel", [opt "id" .int, opt "name" .text]⟩

def place : Schema := ⟨"Place", [opt "city" .text, opt "zip" .int, req "code" .text]⟩

def accountView : Schema :=
  ⟨"AccountView", [opt "id" .int, opt "uid" .uint, opt "n" .int, opt "m" .int .narrow,
    opt "k" .uint .narrow, opt "x" .float, opt "flag" .bool, opt "label" .text,
    req "note" .text, req "total" .int, one "place" place, many "tags" tag]⟩

/-! ### Composites -/

def composite : Schema :=
  ⟨"Composite", [opt "memo" .text, one "user" userModel, one "home" locationModel,
    many "locations" locationModel, many "peers" userModel]⟩

/-- All sample schemas. -/
def schemas : List Schema :=
  [role, user, location, userModel, locationModel, country, tag, address, account, place,
    accountView, composite]

end Sample

end RecordView
