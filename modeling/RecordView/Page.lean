/-!
# Pages and results

A pagination policy turns a requested page and page size into a window of an ordered list of rows:
a missing or impossible page number becomes the default page, a size is capped, and without a size
the window is the policy's default, which may be everything.
-/

namespace RecordView

/-- Limits on the pages that callers ask for. -/
structure PaginationPolicy where
  defaultPage : UInt32 := 1
  /-- The size of a page when none is asked for; `none` is unbounded. -/
  defaultPageSize : Option UInt32 := none
  maxPageSize : UInt32 := 100
deriving DecidableEq, Repr

instance : Inhabited PaginationPolicy := ⟨{}⟩

/-- A part of a list: how many items to skip, then how many to take. -/
structure PageWindow where
  offset : UInt64
  limit : UInt32
deriving DecidableEq, Repr, Inhabited

/-- The items of a list in the window. -/
def PageWindow.apply {α : Type} (w : PageWindow) (items : List α) : List α :=
  (items.drop w.offset.toNat).take w.limit.toNat

/-- The items of a list in the window, if there is one. -/
def PageWindow.applyTo {α : Type} (window : Option PageWindow) (items : List α) : List α :=
  match window with
  | some w => w.apply items
  | none => items

namespace PaginationPolicy

/-- A natural number as a 32-bit word, cut off at `limit`. -/
def capped (limit : UInt32) (n : Nat) : UInt32 :=
  if n ≤ limit.toNat then n.toUInt32 else limit

/-- The page number to serve. -/
def limitPage (policy : PaginationPolicy) (page : Option Int64) : UInt32 :=
  match page with
  | some page => if 0 < page then capped (UInt32.ofNat (UInt32.size - 1)) page.toInt.toNat
    else policy.defaultPage
  | none => policy.defaultPage

/-- The page size to serve, if there is a limit. -/
def limitPageSize (policy : PaginationPolicy) (size : Option Int64) : Option UInt32 :=
  match size with
  | some size => if 0 ≤ size then some (capped policy.maxPageSize size.toInt.toNat)
    else policy.defaultPageSize
  | none => policy.defaultPageSize

/-- The window of a page; `none` when the size is unbounded. -/
def window (policy : PaginationPolicy) (page size : Option Int64) : Option PageWindow :=
  (policy.limitPageSize size).map fun limit =>
    ⟨((policy.limitPage page).toNat - 1).toUInt64 * limit.toUInt64, limit⟩

end PaginationPolicy

/-- The answer of a call: how many items there are in all, and those on the page. -/
structure Results (α : Type) where
  count : Nat
  items : List α
deriving Inhabited, Repr

namespace Results

variable {α β : Type}

/-- No items. -/
def empty : Results α := ⟨0, []⟩

/-- One item. -/
def single (item : α) : Results α := ⟨1, [item]⟩

/-- Whether there are no items on the page. -/
def isEmpty (r : Results α) : Bool := r.items.isEmpty

/-- The number of items on the page. -/
def length (r : Results α) : Nat := r.items.length

/-- The first item on the page. -/
def first? (r : Results α) : Option α := r.items.head?

/-- Both answers together. -/
def merge (r s : Results α) : Results α := ⟨r.count + s.count, r.items ++ s.items⟩

/-- The same answer with changed items. -/
def map (f : α → β) (r : Results α) : Results β := ⟨r.count, r.items.map f⟩

end Results

end RecordView
