import RecordView.Proofs.Outcome
import RecordView.Store.Query

/-!
# Queries on rows and on their images

What a query sorts and cuts out, it could as well sort and cut out of the images of the rows under a
map, when it picks the same keys from a row and from its image: records come in the order of what is
picked from them (`inOrder`), and a page is a `drop` and a `take` (`PaginationPolicy.slice`).

Sorting asks nothing of an item but its key, so it does not matter whether the items are mapped
before or after they are sorted (`stableSort_map`, `inOrder_map`).  Items that are in order already
stay as they are (`stableSort_of_pairwise`), and so do rows that are asked for in no order
(`sortRows_nil`).
-/

namespace RecordView

variable {α β : Type}

/-! ### Sorting -/

theorem insertReversed_map (f : α → β) (cmp : β → β → Ordering) (x : α) (ys : List α) :
    insertReversed cmp (f x) (ys.map f) =
      (insertReversed (fun a b => cmp (f a) (f b)) x ys).map f := by
  induction ys with
  | nil => rfl
  | cons y ys ih =>
    simp only [List.map_cons, insertReversed]
    split
    · rw [List.map_cons, ih]
    · rw [List.map_cons, List.map_cons]

/-- Sorting the images is mapping the sorted items. -/
theorem stableSort_map (f : α → β) (cmp : β → β → Ordering) (items : List α) :
    stableSort cmp (items.map f) = (stableSort (fun a b => cmp (f a) (f b)) items).map f := by
  have hfold : ∀ sorted : List α,
      (items.map f).foldl (fun acc x => insertReversed cmp x acc) (sorted.map f) =
        (items.foldl (fun acc x => insertReversed (fun a b => cmp (f a) (f b)) x acc)
          sorted).map f := by
    induction items with
    | nil => intro sorted; rfl
    | cons x items ih =>
      intro sorted
      rw [List.map_cons, List.foldl_cons, List.foldl_cons, insertReversed_map, ih]
  rw [stableSort, stableSort, List.map_reverse, ← hfold []]
  rfl

/-- Items under their keys are sorted by the keys. -/
theorem sortByKeys_map_key (directions : List OrderDirection) (key : α → List Value)
    (items : List α) :
    sortByKeys directions (items.map fun a => (key a, a)) =
      stableSort (fun a b => compareKeys directions (key a) (key b)) items := by
  rw [sortByKeys, stableSort_map, List.map_map]
  exact List.map_id _

theorem insertReversed_of_not_lt {cmp : α → α → Ordering} {x : α} {ys : List α}
    (h : ∀ y ∈ ys, cmp x y ≠ .lt) : insertReversed cmp x ys = x :: ys := by
  cases ys with
  | nil => rfl
  | cons y ys => rw [insertReversed, if_neg (h y (by simp))]

/-- Items of which none comes before an earlier one stay as they are. -/
theorem stableSort_of_pairwise {cmp : α → α → Ordering} {items : List α}
    (h : items.Pairwise fun a b => cmp b a ≠ .lt) : stableSort cmp items = items := by
  have hfold : ∀ sorted : List α, (∀ x ∈ items, ∀ y ∈ sorted, cmp x y ≠ .lt) →
      items.foldl (fun acc x => insertReversed cmp x acc) sorted = items.reverse ++ sorted := by
    induction items with
    | nil => intro sorted _; rfl
    | cons x items ih =>
      intro sorted hsorted
      obtain ⟨hx, hitems⟩ := List.pairwise_cons.1 h
      rw [List.foldl_cons, insertReversed_of_not_lt (hsorted x (by simp)),
        ih hitems (x :: sorted), List.reverse_cons, List.append_assoc]
      · rfl
      · intro z hz y hy
        obtain rfl | hy := List.mem_cons.1 hy
        · exact hx z hz
        · exact hsorted z (by simp [hz]) y hy
  rw [stableSort, hfold [] (by simp), List.append_nil, List.reverse_reverse]

/-- Sorting by keys adds nothing. -/
theorem mem_of_mem_sortByKeys {directions : List OrderDirection} {keyed : List (List Value × α)}
    {a : α} (h : a ∈ sortByKeys directions keyed) : a ∈ keyed.map (·.2) :=
  ((stableSort_perm _ keyed).map (·.2)).mem_iff.1 h

theorem length_sortByKeys (directions : List OrderDirection) (keyed : List (List Value × α)) :
    (sortByKeys directions keyed).length = keyed.length := by
  rw [sortByKeys, List.length_map]
  exact (stableSort_perm _ keyed).length_eq

/-! ### Records in order -/

/-- The values that the selectors of an order pick from a record, null where one fails. -/
def pickedKeys (order : List OrderTerm) (r : Record) : List Value :=
  order.map fun term => (term.selector.select r).toOption.getD .null

/-- Two records, compared by what an order picks from them. -/
def comparePicked (order : List OrderTerm) (a b : Record) : Ordering :=
  compareKeys (order.map (·.direction)) (pickedKeys order a) (pickedKeys order b)

/-- Records in the order of what is picked from them.  Where that is the same they stay as they
were. -/
def inOrder (order : List OrderTerm) (records : List Record) : List Record :=
  stableSort (comparePicked order) records

variable {order order' : List OrderTerm} {rows : List Record}

theorem pickedKeys_cons {term : OrderTerm} {r : Record} {v : Value}
    (h : term.selector.select r = .ok v) :
    pickedKeys (term :: order) r = v :: pickedKeys order r := by
  rw [pickedKeys, List.map_cons, h]
  rfl

theorem inOrder_map (f : α → Record) (items : List α) :
    inOrder order (items.map f) =
      (stableSort (fun a b => comparePicked order (f a) (f b)) items).map f :=
  stableSort_map f (comparePicked order) items

/-- Items whose keys are picked from their images are sorted as their images are. -/
theorem sortByKeys_picked {ε : Type} {keys : α → Except ε (List Value)} {f : α → Record}
    {items : List α} (h : ∀ a ∈ items, keys a = .ok (pickedKeys order (f a))) :
    ∃ keyed,
      (items.mapM fun a => do
        let ks ← keys a
        return (ks, a)) = .ok keyed ∧
      sortByKeys (order.map (·.direction)) keyed =
        stableSort (fun a b => comparePicked order (f a) (f b)) items :=
  ⟨items.map fun a => (pickedKeys order (f a), a),
    mapM_eq_map fun a ha => by rw [h a ha]; rfl,
    sortByKeys_map_key _ (fun a => pickedKeys order (f a)) items⟩

/-- Rows whose keys are picked from their images are sorted as their images are. -/
theorem sortRows_picked {f : Record → Record}
    (hdirections : order'.map (·.direction) = order.map (·.direction))
    (h : ∀ row ∈ rows, rowKeys order' row = .ok (pickedKeys order (f row))) :
    sortRows order' rows =
      .ok (stableSort (fun a b => comparePicked order (f a) (f b)) rows) := by
  obtain ⟨keyed, hkeyed, hsorted⟩ := sortByKeys_picked h
  rw [sortRows, hkeyed, hdirections, ← hsorted]
  rfl

/-! ### Sorted rows -/

/-- Sorting adds no rows. -/
theorem mem_of_sortRows {sorted : List Record} (h : sortRows order rows = .ok sorted) :
    ∀ row ∈ sorted, row ∈ rows := by
  obtain ⟨keyed, hkeyed, h⟩ := bind_eq_ok.1 h
  cases h
  obtain ⟨key, hkey, rfl⟩ := exists_map_of_mapM hkeyed
  intro row hrow
  obtain ⟨_, hmem, rfl⟩ := List.mem_map.1 (mem_of_mem_sortByKeys hrow)
  obtain ⟨source, hsource, rfl⟩ := List.mem_map.1 hmem
  obtain ⟨keys, -, hpair⟩ := bind_eq_ok.1 (hkey source hsource)
  rw [← Except.ok.inj hpair]
  exact hsource

theorem length_of_sortRows {sorted : List Record} (h : sortRows order rows = .ok sorted) :
    sorted.length = rows.length := by
  obtain ⟨keyed, hkeyed, h⟩ := bind_eq_ok.1 h
  cases h
  rw [length_sortByKeys, length_of_mapM hkeyed]

/-- Without order terms the rows stay in storage order. -/
theorem sortRows_nil (rows : List Record) : sortRows [] rows = .ok rows := by
  have hkeyed : (rows.mapM fun row => do
      let keys ← rowKeys [] row
      return (keys, row)) = .ok (rows.map fun row => ([], row)) :=
    mapM_eq_map fun _ _ => rfl
  have hsorted : sortByKeys [] (rows.map fun row => (([] : List Value), row)) = rows := by
    rw [sortByKeys_map_key [] (fun _ => [])]
    exact stableSort_of_pairwise (List.pairwise_of_forall fun _ _ => by simp [compareKeys])
  rw [sortRows, hkeyed]
  exact congrArg Except.ok hsorted

/-- One row is in every order that has keys for it. -/
theorem sortRows_singleton {row : Record} {keys : List Value}
    (h : rowKeys order row = .ok keys) : sortRows order [row] = .ok [row] := by
  rw [sortRows, List.mapM_cons, h]
  rfl

/-! ### Windows -/

/-- The items of a page, all of them when the policy sets no limit. -/
def PaginationPolicy.slice (policy : PaginationPolicy) (page pageSize : Option Int64)
    (items : List α) : List α :=
  match policy.window page pageSize with
  | some w => (items.drop w.offset.toNat).take w.limit.toNat
  | none => items

theorem applyTo_window (policy : PaginationPolicy) (page pageSize : Option Int64)
    (items : List α) :
    PageWindow.applyTo (policy.window page pageSize) items = policy.slice page pageSize items := by
  unfold PaginationPolicy.slice
  cases policy.window page pageSize <;> rfl

theorem map_applyTo (f : α → β) (window : Option PageWindow) (items : List α) :
    PageWindow.applyTo window (items.map f) = (PageWindow.applyTo window items).map f := by
  cases window with
  | none => rfl
  | some w => simp only [PageWindow.applyTo, PageWindow.apply, List.map_take, List.map_drop]

theorem mem_of_mem_applyTo {window : Option PageWindow} {items : List α} {a : α}
    (h : a ∈ PageWindow.applyTo window items) : a ∈ items := by
  cases window with
  | none => exact h
  | some w => exact List.mem_of_mem_drop (List.mem_of_mem_take h)

/-- A page of results, each computed from an item, is computed from the page of items. -/
theorem mapM_applyTo {ε : Type} [Inhabited β] {f : α → Except ε β} {items : List α}
    {results : List β} (h : items.mapM f = .ok results) (window : Option PageWindow) :
    (PageWindow.applyTo window items).mapM f = .ok (PageWindow.applyTo window results) := by
  obtain ⟨g, hg, rfl⟩ := exists_map_of_mapM h
  rw [map_applyTo]
  exact mapM_eq_map fun a ha => hg a (mem_of_mem_applyTo ha)

end RecordView
