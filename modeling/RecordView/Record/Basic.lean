import RecordView.Value.Cast

/-!
# Records

A record has a schema and, for each field of it, a cell: a value, an optional nested record, or a
list of nested records.  Cells are reached by field name.

* `Record.getValue?`, `Record.getRecord?`, `Record.getRecords?` read a cell of each shape;
* `Record.setValue` writes a value through the type of its field, which converts numbers without
  loss and refuses everything else;
* `Record.getOrDefault?` reads a nested record, an absent one as the default record.

A record conforms to a schema (`Record.Conforms`) when it has exactly the cells of the schema, each
of the right shape; defaults conform, and writes keep that.
-/

namespace RecordView

mutual

/-- A record: its schema and its cells by field name, in the order of the schema. -/
structure Record where
  schema : Schema
  cells : List (String × Cell)

/-- The content of one field. -/
inductive Cell
  | value (v : Value)
  | record (r : Option Record)
  | records (rs : List Record)

end

instance : Inhabited Cell := ⟨.value .null⟩

instance : Inhabited Record := ⟨⟨default, []⟩⟩

/-- Why a field could not be written. -/
inductive WriteError
  | unknownField (record field : String)
  | typeMismatch (record field : String) (value : Value)
  | notWritable (record field : String)
deriving Inhabited

/-! ### Storing values -/

namespace Width

/-- The least and the greatest signed integer of a width. -/
def signedBounds : Width → Int × Int
  | narrow => (Int32.minValue.toInt, Int32.maxValue.toInt)
  | wide => (Int64.minValue.toInt, Int64.maxValue.toInt)

/-- The greatest unsigned integer of a width. -/
def unsignedBound : Width → Nat
  | narrow => UInt32.size - 1
  | wide => UInt64.size - 1

/-- Whether an integer value fits the width; other values always do. -/
def fits (w : Width) : Value → Bool
  | .int i => w.signedBounds.1 ≤ i.toInt && i.toInt ≤ w.signedBounds.2
  | .uint n => n.toNat ≤ w.unsignedBound
  | _ => true

end Width

namespace Field

/-- The value that the field holds after `v` is written to it, or `none` if it cannot hold `v`. -/
def store? (f : Field) (v : Value) : Option Value :=
  if v.isNull then
    if f.type.nullable then some .null else none
  else
    (v.cast f.type.kind).filter f.width.fits

end Field

namespace FieldType

/-- What a field of this type holds in a default record: null where allowed, else the zero of its
kind; no nested record and no elements. -/
def defaultCell (t : FieldType) : Cell :=
  match t.kind with
  | .record _ => .record none
  | .records _ => .records []
  | kind =>
    .value <|
      if t.nullable then .null
      else match kind with
        | .bool => .bool false
        | .int => .int 0
        | .uint => .uint 0
        | .float => .float ⟨0⟩
        | .text => .text ""
        | .list => .list []
        | _ => .bool false

end FieldType

/-- The default record of a schema. -/
def Schema.default (s : Schema) : Record :=
  ⟨s, s.fields.map fun f => (f.name, f.type.defaultCell)⟩

namespace Record

/-! ### Reading -/

/-- The cell of a field. -/
def cell? (r : Record) (name : String) : Option Cell :=
  r.cells.lookup name

/-- The value of a scalar field. -/
def getValue? (r : Record) (name : String) : Option Value :=
  match r.cell? name with
  | some (.value v) => some v
  | _ => none

/-- The nested record of a field, if there is one. -/
def getRecord? (r : Record) (name : String) : Option Record :=
  match r.cell? name with
  | some (.record nested) => nested
  | _ => none

/-- The nested records of a collection field. -/
def getRecords? (r : Record) (name : String) : Option (List Record) :=
  match r.cell? name with
  | some (.records rows) => some rows
  | _ => none

/-- The nested record of a field, or the default one where the field holds none. -/
def getOrDefault? (r : Record) (name : String) : Option Record :=
  match r.cell? name, r.schema.field? name with
  | some (.record nested), some f => f.type.recordSchema?.map fun s => nested.getD s.default
  | _, _ => none

/-! ### Writing -/

/-- Replaces the first cell of the given name, if there is one. -/
def replaceCell (name : String) (cell : Cell) : List (String × Cell) → List (String × Cell)
  | [] => []
  | entry :: entries =>
    if name == entry.1 then (entry.1, cell) :: entries else entry :: replaceCell name cell entries

/-- Replaces the cell of a field. -/
def setCell (r : Record) (name : String) (cell : Cell) : Record :=
  { r with cells := replaceCell name cell r.cells }

theorem lookup_replaceCell (name other : String) (cell : Cell) (cells : List (String × Cell)) :
    (replaceCell name cell cells).lookup other =
      if other == name then (cells.lookup other).map fun _ => cell else cells.lookup other := by
  induction cells with
  | nil => simp [replaceCell]
  | cons entry entries ih =>
    obtain ⟨key, old⟩ := entry
    by_cases hkey : name = key
    · subst hkey
      by_cases hother : other = name
      · simp [replaceCell, hother]
      · simp [replaceCell, List.lookup_cons, beq_false_of_ne hother]
    · by_cases hother : other = key
      · subst hother
        have hne : other ≠ name := fun h => hkey h.symm
        simp [replaceCell, hkey, hne]
      · simp [replaceCell, List.lookup_cons, hkey, beq_false_of_ne hother, ih]

theorem cell?_setCell_self {r : Record} {name : String} {old : Cell} (cell : Cell)
    (h : r.cell? name = some old) : (r.setCell name cell).cell? name = some cell := by
  rw [cell?] at h
  simp [cell?, setCell, lookup_replaceCell, h]

theorem cell?_setCell_of_ne {name other : String} (h : other ≠ name) (r : Record) (cell : Cell) :
    (r.setCell name cell).cell? other = r.cell? other := by
  simp [cell?, setCell, lookup_replaceCell, h]

/-- Replaces the nested record of a field. -/
def setRecord (r : Record) (name : String) (nested : Option Record) : Record :=
  r.setCell name (.record nested)

/-- Replaces the nested records of a collection field. -/
def setRecords (r : Record) (name : String) (rows : List Record) : Record :=
  r.setCell name (.records rows)

/-- Writes a scalar field. -/
def setValue (r : Record) (name : String) (v : Value) : Except WriteError Record :=
  match r.schema.field? name with
  | none => .error (.unknownField r.schema.path name)
  | some f =>
    if f.type.kind.isScalar then
      match f.store? v with
      | some stored => .ok (r.setCell name (.value stored))
      | none => .error (.typeMismatch r.schema.path name v)
    else
      .error (.notWritable r.schema.path name)

end Record

/-! ### Conformance -/

mutual

/-- The record has the cells that the schema describes. -/
inductive Record.Conforms : Record → Schema → Prop
  | intro {s : Schema} {cells : List (String × Cell)} (h : CellsConform cells s.fields) :
    Record.Conforms ⟨s, cells⟩ s

/-- The cells are those of the fields, one by one. -/
inductive CellsConform : List (String × Cell) → List Field → Prop
  | nil : CellsConform [] []
  | cons {c : Cell} {f : Field} {cells : List (String × Cell)} {fields : List Field}
    (head : CellConforms c f) (tail : CellsConform cells fields) :
    CellsConform ((f.name, c) :: cells) (f :: fields)

/-- The cell can be the content of the field. -/
inductive CellConforms : Cell → Field → Prop
  | value {v : Value} {f : Field} (scalar : f.type.kind.isScalar = true)
    (stored : f.store? v = some v) : CellConforms (.value v) f
  | absent {f : Field} {s : Schema} (kind : f.type.kind = .record s) :
    CellConforms (.record none) f
  | record {r : Record} {f : Field} {s : Schema} (kind : f.type.kind = .record s)
    (nested : Record.Conforms r s) : CellConforms (.record (some r)) f
  | records {rs : List Record} {f : Field} {s : Schema} (kind : f.type.kind = .records s)
    (nested : ∀ r ∈ rs, Record.Conforms r s) : CellConforms (.records rs) f

end

theorem Record.Conforms.schema_eq {r : Record} {s : Schema} (h : r.Conforms s) : r.schema = s := by
  cases h
  rfl

theorem FieldType.defaultCell_conforms (f : Field) : CellConforms f.type.defaultCell f := by
  obtain ⟨name, ⟨kind, nullable⟩, width⟩ := f
  cases kind with
  | record s => exact .absent (s := s) rfl
  | records s => exact .records (s := s) rfl (by simp)
  | _ =>
    refine .value rfl ?_
    cases nullable <;> cases width <;> rfl

/-- **The default record of a schema conforms to it.** -/
theorem Schema.default_conforms (s : Schema) : s.default.Conforms s := by
  refine .intro ?_
  induction s.fields with
  | nil => exact .nil
  | cons f fields ih => exact .cons (FieldType.defaultCell_conforms f) ih

end RecordView
