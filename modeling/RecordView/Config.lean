import RecordView.Page

/-!
# Service configuration

A configuration document is read leniently: fields that are missing have their defaults and unknown
ones are ignored, but a value of the wrong type or out of range is refused.  The fields of a
structure may also be given by position.
-/

namespace RecordView

/-- A configuration document. -/
inductive Document
  | null
  | bool (b : Bool)
  | integer (i : Int)
  | fraction
  | text (s : String)
  | list (items : List Document)
  | object (entries : List (String × Document))
deriving Inhabited

namespace Document

/-- The values of a structure's fields, where given.  A list has no more items than fields. -/
def fields? (names : List String) : Document → Option (List (Option Document))
  | object entries => some (names.map fun name => entries.lookup name)
  | list items =>
    if items.length ≤ names.length then
      some (items.map some ++ List.replicate (names.length - items.length) none)
    else none
  | _ => none

/-- A 32-bit unsigned number. -/
def word? : Document → Option UInt32
  | integer i => if 0 ≤ i ∧ i < UInt32.size then some i.toNat.toUInt32 else none
  | _ => none

/-- A 32-bit unsigned number or null. -/
def optionalWord? : Document → Option (Option UInt32)
  | null => some none
  | d => d.word?.map some

/-- A field that keeps its default when it is missing. -/
def orDefault {α : Type} (value : α) (read : Document → Option α) : Option Document → Option α
  | none => some value
  | some d => read d

end Document

/-- Reads a pagination policy. -/
def PaginationPolicy.ofDocument? (d : Document) : Option PaginationPolicy :=
  let defaults : PaginationPolicy := {}
  match d.fields? ["default_page", "default_page_size", "max_page_size"] with
  | some [page, size, limit] => do
    let page ← Document.orDefault defaults.defaultPage Document.word? page
    let size ← Document.orDefault defaults.defaultPageSize Document.optionalWord? size
    let limit ← Document.orDefault defaults.maxPageSize Document.word? limit
    return ⟨page, size, limit⟩
  | _ => none

/-- Settings of a service. -/
structure ServiceConfig where
  pagination : PaginationPolicy := {}
deriving DecidableEq, Repr, Inhabited

/-- Reads a service configuration. -/
def ServiceConfig.ofDocument? (d : Document) : Option ServiceConfig :=
  match d.fields? ["pagination"] with
  | some [pagination] => do
    let policy ← Document.orDefault {} PaginationPolicy.ofDocument? pagination
    return ⟨policy⟩
  | _ => none

end RecordView
