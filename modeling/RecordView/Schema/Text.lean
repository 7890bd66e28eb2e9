import RecordView.Schema.Basic
import RecordView.Text.Quoted

/-!
# The text of types and schemas
-/

namespace RecordView

/-- The name of a kind; a nested record is named by its path. -/
def FieldKind.render : FieldKind → String
  | .any => "Any"
  | .bool => "bool"
  | .int => "i64"
  | .uint => "u64"
  | .float => "f64"
  | .text => "String"
  | .list => "List"
  | .record s => s.path
  | .records s => "Vec<" ++ s.path ++ ">"

/-- The name of a kind in which nested records are marked as such. -/
def FieldKind.description : FieldKind → String
  | .record s => "Record(" ++ s.path ++ ")"
  | .records s => "Records(" ++ s.path ++ ")"
  | kind => kind.render

/-- The name of a type.  That a nested record may be absent is not shown. -/
def FieldType.render (t : FieldType) : String :=
  if t.nullable && !t.kind.isRecord then "Option<" ++ t.kind.render ++ ">" else t.kind.render

/-- The kind and width with which values of a named storage type are kept. -/
def FieldKind.ofStorage? : String → Option (FieldKind × Width)
  | "i32" => some (.int, .narrow)
  | "i64" => some (.int, .wide)
  | "u32" => some (.uint, .narrow)
  | "u64" => some (.uint, .wide)
  | "f64" => some (.float, .wide)
  | "bool" => some (.bool, .wide)
  | "String" => some (.text, .wide)
  | _ => none

/-! ### Tags -/

/-- The scalar kinds by tag. -/
def FieldKind.scalarTags : List (String × FieldKind) :=
  [("any", .any), ("bool", .bool), ("int", .int), ("uint", .uint), ("float", .float),
    ("text", .text), ("list", .list)]

/-- The short form of a kind, with the path of the records after a colon. -/
def FieldKind.tag : FieldKind → String
  | .any => "any"
  | .bool => "bool"
  | .int => "int"
  | .uint => "uint"
  | .float => "float"
  | .text => "text"
  | .list => "list"
  | .record s => "record:" ++ s.path
  | .records s => "records:" ++ s.path

/-- The kind with a tag, when schemas are known by `schema?`. -/
def FieldKind.ofTag? (schema? : String → Option Schema) (tag : String) : Option FieldKind :=
  match tag.splitOn ":" with
  | [scalar] => scalarTags.lookup scalar
  | "record" :: key => (schema? (":".intercalate key)).map .record
  | "records" :: key => (schema? (":".intercalate key)).map .records
  | _ => none

/-- The short form of a type; a question mark stands for null. -/
def FieldType.tag (t : FieldType) : String :=
  if t.nullable then t.kind.tag ++ "?" else t.kind.tag

/-- The type with a tag. -/
def FieldType.ofTag? (schema? : String → Option Schema) (tag : String) : Option FieldType :=
  match tag.toList.reverse with
  | '?' :: kind => (FieldKind.ofTag? schema? (String.ofList kind.reverse)).map optional
  | _ => (FieldKind.ofTag? schema? tag).map required

/-! ### Schemas -/

/-- The path and the field names of a schema. -/
def Schema.description (s : Schema) : String :=
  let names := ", ".intercalate (s.fields.map fun f => Text.quoted f.name)
  "SchemaModel \x7b path: " ++ Text.quoted s.path ++ ", fields: [" ++ names ++ "] \x7d"

end RecordView
