import RecordView.Proofs.Store.Query
import RecordView.Store.Table

/-!
# Rows that meet a filter

A filter decides a row or fails on it.  Counting, selecting, replacing and removing all go over the
rows once and ask the filter about each of them (`pass_eq_ok`).  So each of them succeeds exactly when
the filter decides every row (`Decides`), and then it is an operation on lists with `meets` as its
predicate: `selectRows_eq_ok`, `Table.replaceRows_eq_ok`, `Table.removeRows_eq_ok`, and with them
`Table.count_eq_ok` and `Table.load_eq_ok`.  A filter is met by the records on which it is true
(`passing_eq_filter`).
-/

namespace RecordView

/-- Whether the row passes the filter.  Where the filter fails, it does not. -/
def meets (filter : Option Lambda) (row : Record) : Bool :=
  (passes filter row).toOption.getD false

/-- The filter fails on none of the rows. -/
def Decides (filter : Option Lambda) (rows : List Record) : Prop :=
  ∀ row ∈ rows, passes filter row = .ok (meets filter row)

variable {filter : Option Lambda} {row : Record} {rows : List Record}

theorem meets_of_passes {b : Bool} (h : passes filter row = .ok b) : meets filter row = b := by
  rw [meets, h]
  rfl

theorem decides_of_passes {p : Record → Bool} (h : ∀ row ∈ rows, passes filter row = .ok (p row)) :
    Decides filter rows ∧ ∀ row ∈ rows, meets filter row = p row := by
  have hmeets : ∀ row ∈ rows, meets filter row = p row :=
    fun row hrow => meets_of_passes (h row hrow)
  exact ⟨fun row hrow => by rw [h row hrow, hmeets row hrow], hmeets⟩

theorem decides_cons :
    Decides filter (row :: rows) ↔
      passes filter row = .ok (meets filter row) ∧ Decides filter rows :=
  List.forall_mem_cons

/-! ### One pass over the rows -/

/-- A recursion that asks the filter about each row succeeds when the filter decides all rows, and
folds the answers. -/
theorem pass_eq_ok {β : Type} (run : List Record → Except StoreError β) {first : β}
    (step : Bool → Record → β → β) (hnil : run [] = .ok first)
    (hcons : ∀ row rows, run (row :: rows) = do
      let hit ← passes filter row
      let rest ← run rows
      return step hit row rest) {result : β} :
    run rows = .ok result ↔ Decides filter rows ∧
      result = rows.foldr (fun row rest => step (meets filter row) row rest) first := by
  induction rows generalizing result with
  | nil =>
    rw [hnil]
    constructor
    · rintro ⟨⟩
      exact ⟨by simp [Decides], rfl⟩
    · rintro ⟨-, rfl⟩
      rfl
  | cons row rows ih =>
    rw [hcons, decides_cons]
    constructor
    · intro h
      obtain ⟨hit, hhit, h⟩ := bind_eq_ok.1 h
      obtain ⟨rest, hrest, h⟩ := bind_eq_ok.1 h
      cases h
      obtain ⟨hdecides, rfl⟩ := ih.1 hrest
      rw [meets_of_passes hhit]
      exact ⟨⟨hhit, hdecides⟩, by rw [List.foldr_cons, meets_of_passes hhit]⟩
    · rintro ⟨⟨hhit, hdecides⟩, rfl⟩
      rw [hhit, ih.2 ⟨hdecides, rfl⟩]
      rfl

/-- Rows of which none meets the filter are not replaced. -/
theorem map_replace_of_forall_not (h : ∀ row ∈ rows, meets filter row = false) {new : Record} :
    (rows.map fun row => if meets filter row then new else row) = rows := by
  refine (List.map_congr_left (g := id) fun row hrow => ?_).trans (List.map_id rows)
  rw [h row hrow]
  rfl

/-- A replacement takes the place of the one row that meets the filter. -/
theorem map_replace_of_one {before behind : List Record} {old : Record}
    (hold : meets filter old = true) (hother : ∀ row ∈ before ++ behind, meets filter row = false)
    (new : Record) :
    ((before ++ old :: behind).map fun row => if meets filter row then new else row) =
      before ++ new :: behind := by
  rw [List.map_append, List.map_cons, if_pos hold,
    map_replace_of_forall_not fun row hrow => hother row (by simp [hrow]),
    map_replace_of_forall_not fun row hrow => hother row (by simp [hrow])]

/-- Where one row meets the filter, the rows fall into those before it, that row, and those behind
it. -/
theorem exists_split_of_filter {old : Record} (h : rows.filter (meets filter) = [old]) :
    ∃ before behind, rows = before ++ old :: behind ∧ meets filter old = true ∧
      ∀ row ∈ before ++ behind, meets filter row = false := by
  obtain ⟨before, behind, rfl, hbefore, hold, hbehind⟩ := List.filter_eq_cons_iff.1 h
  have hbehind := List.filter_eq_nil_iff.1 hbehind
  refine ⟨before, behind, rfl, hold, fun row hrow => ?_⟩
  rw [← Bool.not_eq_true]
  exact (List.mem_append.1 hrow).elim (hbefore row) (hbehind row)

theorem filter_of_split {before behind : List Record} {old : Record}
    (hold : meets filter old = true) (hother : ∀ row ∈ before ++ behind, meets filter row = false) :
    (before ++ old :: behind).filter (meets filter) = [old] := by
  have hbefore : before.filter (meets filter) = [] :=
    List.filter_eq_nil_iff.2 fun row hrow => by simp [hother row (by simp [hrow])]
  have hbehind : behind.filter (meets filter) = [] :=
    List.filter_eq_nil_iff.2 fun row hrow => by simp [hother row (by simp [hrow])]
  rw [List.filter_append, List.filter_cons_of_pos hold, hbefore, hbehind]
  rfl

/-- The selected rows are those that meet the filter. -/
theorem selectRows_eq_ok {kept : List Record} :
    selectRows filter rows = .ok kept ↔
      Decides filter rows ∧ kept = rows.filter (meets filter) := by
  let step (hit : Bool) (row : Record) (rest : List Record) : List Record :=
    if hit then row :: rest else rest
  have hfold : rows.foldr (fun row rest => step (meets filter row) row rest) [] =
      rows.filter (meets filter) := by
    induction rows with
    | nil => rfl
    | cons row rows ih => rw [List.foldr_cons, ih, List.filter_cons]
  rw [← hfold]
  exact pass_eq_ok (selectRows filter) step rfl fun _ _ => rfl

/-- The records on which the filter is true, all of them without a filter. -/
def passing (filter : Option Lambda) (records : List Record) : List Record :=
  match filter with
  | none => records
  | some f => records.filter fun r => f.test r matches .ok true

theorem passing_eq_filter (filter : Option Lambda) (records : List Record) :
    passing filter records = records.filter (meets filter) := by
  cases filter with
  | none => exact (List.filter_eq_self.2 fun _ _ => rfl).symm
  | some f =>
    refine List.filter_congr fun r _ => ?_
    rw [meets, passes]
    rcases f.test r with e | (_ | _) <;> rfl

namespace Table

theorem replaceRows_eq_ok {filter : Lambda} {entity : Record} {result : List Record × Nat} :
    replaceRows filter entity rows = .ok result ↔ Decides (some filter) rows ∧
      result = (rows.map fun row => if meets (some filter) row then entity else row,
        rows.countP (meets (some filter))) := by
  let step (hit : Bool) (row : Record) (rest : List Record × Nat) : List Record × Nat :=
    if hit then (entity :: rest.1, rest.2 + 1) else (row :: rest.1, rest.2)
  have hfold : rows.foldr (fun row rest => step (meets (some filter) row) row rest) ([], 0) =
      (rows.map fun row => if meets (some filter) row then entity else row,
        rows.countP (meets (some filter))) := by
    induction rows with
    | nil => rfl
    | cons row rows ih =>
      rw [List.foldr_cons, ih, List.map_cons, List.countP_cons]
      cases meets (some filter) row <;> rfl
  rw [← hfold]
  exact pass_eq_ok (replaceRows filter entity) step rfl fun _ _ => rfl

theorem removeRows_eq_ok {result : List Record × Nat} :
    removeRows filter rows = .ok result ↔ Decides filter rows ∧
      result = (rows.filter fun row => !meets filter row, rows.countP (meets filter)) := by
  let step (hit : Bool) (row : Record) (rest : List Record × Nat) : List Record × Nat :=
    if hit then (rest.1, rest.2 + 1) else (row :: rest.1, rest.2)
  have hfold : rows.foldr (fun row rest => step (meets filter row) row rest) ([], 0) =
      (rows.filter fun row => !meets filter row, rows.countP (meets filter)) := by
    induction rows with
    | nil => rfl
    | cons row rows ih =>
      rw [List.foldr_cons, ih, List.filter_cons, List.countP_cons]
      cases meets filter row <;> rfl
  rw [← hfold]
  exact pass_eq_ok (removeRows filter) step rfl fun _ _ => rfl

/-! ### Requests to a table -/

variable {t : Table}

theorem count_eq_ok {n : Nat} :
    t.count filter = .ok n ↔ Decides filter t.rows ∧ n = t.rows.countP (meets filter) := by
  rw [count]
  cases hkept : selectRows filter t.rows with
  | error e =>
    refine ⟨(nomatch ·), fun ⟨hdecides, _⟩ => ?_⟩
    rw [selectRows_eq_ok.2 ⟨hdecides, rfl⟩] at hkept
    cases hkept
  | ok kept =>
    obtain ⟨hdecides, rfl⟩ := selectRows_eq_ok.1 hkept
    rw [List.countP_eq_length_filter]
    constructor
    · rintro ⟨⟩
      exact ⟨hdecides, rfl⟩
    · rintro ⟨-, rfl⟩
      rfl

/-- All rows that meet a filter, in storage order. -/
theorem load_eq_ok {kept : List Record} :
    t.load ⟨filter, [], none⟩ = .ok kept ↔
      Decides filter t.rows ∧ kept = t.rows.filter (meets filter) := by
  rw [← selectRows_eq_ok, load]
  cases selectRows filter t.rows with
  | error e => exact ⟨(nomatch ·), (nomatch ·)⟩
  | ok found =>
    change (sortRows [] found >>= fun rows => .ok rows) = _ ↔ _
    rw [sortRows_nil]
    rfl

/-- Only stored rows are loaded. -/
theorem mem_of_load {query : EntityQuery} {found : List Record} (h : t.load query = .ok found) :
    ∀ row ∈ found, row ∈ t.rows := by
  obtain ⟨kept, hkept, h⟩ := bind_eq_ok.1 h
  obtain ⟨sorted, hsorted, h⟩ := bind_eq_ok.1 h
  cases h
  obtain ⟨-, rfl⟩ := selectRows_eq_ok.1 hkept
  intro row hrow
  exact (List.mem_filter.1 (mem_of_sortRows hsorted row (mem_of_mem_applyTo hrow))).1

end Table

end RecordView
