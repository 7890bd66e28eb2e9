import Mathlib.Data.List.Forall2
import RecordView.Proofs.Store.Filter
import RecordView.Proofs.Value.Comparisons
import RecordView.Sample.Users

/-!
# What a query loads

A query loads the rows that meet its filter, sorted, or a window of them.  The rows come in the order
of the terms of the query: the first term on which two rows differ decides, in its direction
(`Precedes`).  Rows that do not differ on any term stay in storage order, whatever the directions
are.  To say so, rows are taken together with their positions in the table (`ComesBefore`).

Sorting keeps this promise for every comparison that is an order on the items that it is given
(`stableSort_pairwise`).  Keys without floats are such items (`compareKeys_fits`); with floats among
them the comparison need not be an order.
-/

namespace RecordView

/-! ### Sorting by an order -/

section Sorting

variable {α : Type} {cmp : α → α → Ordering} {S : α → α → Prop} {x y : α} {ys items : List α}

/-- The first item comes before the second one, or they are equal and were in this order. -/
def StablyBefore (cmp : α → α → Ordering) (S : α → α → Prop) (a b : α) : Prop :=
  cmp a b = .lt ∨ cmp a b = .eq ∧ S a b

theorem StablyBefore.isLE (h : StablyBefore cmp S x y) : (cmp x y).isLE = true := by
  obtain h | ⟨h, -⟩ := h <;> rw [h] <;> rfl

theorem stablyBefore_of_isLE (h : (cmp x y).isLE = true) (hS : S x y) : StablyBefore cmp S x y := by
  unfold StablyBefore
  cases hcmp : cmp x y with
  | lt => exact .inl rfl
  | eq => exact .inr ⟨rfl, hS⟩
  | gt => simp [hcmp] at h

/-- An item that was behind all others goes behind those that it does not come before. -/
theorem pairwise_insertReversed (hswap : ∀ a b, cmp b a = (cmp a b).swap)
    (hfits : ∀ a ∈ ys, ∀ b ∈ ys, Fits (cmp a b) (cmp b x) (cmp a x)) (hS : ∀ y ∈ ys, S y x)
    (hys : ys.Pairwise fun b a => StablyBefore cmp S a b) :
    (insertReversed cmp x ys).Pairwise fun b a => StablyBefore cmp S a b := by
  induction ys with
  | nil => exact List.pairwise_singleton _ x
  | cons y ys ih =>
    obtain ⟨hy, hrest⟩ := List.pairwise_cons.1 hys
    rw [insertReversed]
    split
    · rename_i hlt
      refine List.pairwise_cons.2 ⟨fun z hz => ?_, ih
        (fun a ha b hb => hfits a (.tail _ ha) b (.tail _ hb)) (fun z hz => hS z (.tail _ hz))
        hrest⟩
      obtain rfl | hz := List.mem_cons.1 ((insertReversed_perm cmp x ys).mem_iff.1 hz)
      · exact .inl hlt
      · exact hy z hz
    · rename_i hnlt
      have hyx : (cmp y x).isLE = true := by
        rw [hswap x y, Ordering.isLE_swap]
        exact Ordering.isGE_iff_ne_lt.2 hnlt
      refine List.pairwise_cons.2 ⟨fun z hz => stablyBefore_of_isLE ?_ (hS z hz), hys⟩
      obtain rfl | hz' := List.mem_cons.1 hz
      · exact hyx
      · exact (hfits z hz y List.mem_cons_self).isLE_trans (hy z hz').isLE hyx

/-- Items that are inserted one after the other end up in order, as do those before them. -/
theorem pairwise_foldl_insertReversed (hswap : ∀ a b, cmp b a = (cmp a b).swap)
    (hfits : ∀ a ∈ items, ∀ b ∈ items, ∀ c ∈ items, Fits (cmp a b) (cmp b c) (cmp a c))
    {rest sorted : List α} (hmem : ∀ a ∈ rest ++ sorted, a ∈ items) (hrest : rest.Pairwise S)
    (hS : ∀ y ∈ sorted, ∀ x ∈ rest, S y x)
    (hsorted : sorted.Pairwise fun b a => StablyBefore cmp S a b) :
    (rest.foldl (fun acc x => insertReversed cmp x acc) sorted).Pairwise
      fun b a => StablyBefore cmp S a b := by
  induction rest generalizing sorted with
  | nil => exact hsorted
  | cons x rest ih =>
    obtain ⟨hx, hrest⟩ := List.pairwise_cons.1 hrest
    have hperm := insertReversed_perm cmp x sorted
    have hsub : ∀ a ∈ sorted, a ∈ items := fun a ha => hmem a (by simp [ha])
    refine ih (fun a ha => hmem a ?_) hrest (fun y hy z hz => ?_) ?_
    · rw [List.mem_append, hperm.mem_iff] at ha
      simp only [List.cons_append, List.mem_cons, List.mem_append] at ha ⊢
      exact or_left_comm.1 ha
    · obtain rfl | hy := List.mem_cons.1 (hperm.mem_iff.1 hy)
      · exact hx z hz
      · exact hS y hy z (.tail _ hz)
    · exact pairwise_insertReversed hswap
        (fun a ha b hb => hfits a (hsub a ha) b (hsub b hb) x (hmem x (by simp)))
        (fun y hy => hS y hy x List.mem_cons_self) hsorted

/-- **Sorting puts items in order**, and leaves those that are equal as they were: before sorting
they were as `S` says, of which nothing else is asked. -/
theorem stableSort_pairwise (hswap : ∀ a b, cmp b a = (cmp a b).swap)
    (hfits : ∀ a ∈ items, ∀ b ∈ items, ∀ c ∈ items, Fits (cmp a b) (cmp b c) (cmp a c))
    (hitems : items.Pairwise S) : (stableSort cmp items).Pairwise (StablyBefore cmp S) :=
  List.pairwise_reverse.2
    (pairwise_foldl_insertReversed hswap hfits (by simp) hitems (by simp) .nil)

end Sorting

/-! ### Keys in order -/

/-- The first key comes before the second one in the direction. -/
def OrderDirection.Before (d : OrderDirection) (v w : Value) : Prop :=
  match d with
  | .asc => v.canonicalCmp w = .lt
  | .desc => w.canonicalCmp v = .lt

/-- Of the keys, the first pair that differs is in the order of its direction. -/
inductive Precedes : List OrderDirection → List Value → List Value → Prop
  | first {d : OrderDirection} {v w : Value} (before : d.Before v w) (ds : List OrderDirection)
    (vs ws : List Value) : Precedes (d :: ds) (v :: vs) (w :: ws)
  | later (d : OrderDirection) {v w : Value} {ds : List OrderDirection} {vs ws : List Value}
    (tie : v.canonicalCmp w = .eq) (rest : Precedes ds vs ws) :
    Precedes (d :: ds) (v :: vs) (w :: ws)

/-- No pair of keys differs. -/
def Tied (vs ws : List Value) : Prop :=
  List.Forall₂ (fun v w => v.canonicalCmp w = .eq) vs ws

variable {d : OrderDirection} {ds : List OrderDirection} {us vs ws : List Value} {v w : Value}

theorem orient_eq_lt : d.orient (v.canonicalCmp w) = .lt ↔ d.Before v w := by
  cases d with
  | asc => rfl
  | desc => rw [OrderDirection.orient, ← Value.canonicalCmp_swap]; rfl

theorem orient_eq_eq {o : Ordering} : d.orient o = .eq ↔ o = .eq := by
  cases d <;> cases o <;> decide

theorem orient_swap (d : OrderDirection) (o : Ordering) : d.orient o.swap = (d.orient o).swap := by
  cases d <;> rfl

/-- A direction keeps what fits together. -/
theorem Fits.orient {ab bc ac : Ordering} (h : Fits ab bc ac) (d : OrderDirection) :
    Fits (d.orient ab) (d.orient bc) (d.orient ac) := by
  cases d with
  | asc => exact h
  | desc =>
    simp only [OrderDirection.orient]
    obtain ⟨hl, hr, hd⟩ := h
    cases ab <;> cases bc <;> simp_all [Fits]

/-- The first pair of keys that differs decides. -/
theorem compareKeys_eq_lt_iff : compareKeys ds vs ws = .lt ↔ Precedes ds vs ws := by
  constructor
  · intro h
    induction ds generalizing vs ws with
    | nil => cases h
    | cons d ds ih =>
      cases vs with
      | nil => cases h
      | cons v vs =>
        cases ws with
        | nil => cases h
        | cons w ws =>
          rw [compareKeys, Ordering.then_eq_lt] at h
          obtain h | ⟨htie, hrest⟩ := h
          · exact .first (orient_eq_lt.1 h) ds vs ws
          · exact .later d (orient_eq_eq.1 htie) (ih hrest)
  · intro h
    rw [compareKeys.eq_def]
    induction h with
    | first before ds vs ws => exact Ordering.then_eq_lt.2 (.inl (orient_eq_lt.2 before))
    | later d tie rest ih =>
      rw [← compareKeys.eq_def] at ih
      exact Ordering.then_eq_lt.2 (.inr ⟨orient_eq_eq.2 tie, ih⟩)

theorem compareKeys_eq_eq_iff (hvs : vs.length = ds.length) (hws : ws.length = ds.length) :
    compareKeys ds vs ws = .eq ↔ Tied vs ws := by
  induction ds generalizing vs ws with
  | nil =>
    obtain rfl := List.length_eq_zero_iff.1 hvs
    obtain rfl := List.length_eq_zero_iff.1 hws
    exact iff_of_true rfl .nil
  | cons d ds ih =>
    obtain ⟨v, vs, rfl⟩ := List.exists_cons_of_length_eq_add_one hvs
    obtain ⟨w, ws, rfl⟩ := List.exists_cons_of_length_eq_add_one hws
    rw [List.length_cons, List.length_cons, Nat.add_right_cancel_iff] at hvs hws
    rw [compareKeys, Ordering.then_eq_eq, orient_eq_eq, ih hvs hws]
    exact (List.forall₂_cons (R := fun v w : Value => v.canonicalCmp w = .eq)).symm

theorem compareKeys_swap (ds : List OrderDirection) (vs ws : List Value) :
    compareKeys ds ws vs = (compareKeys ds vs ws).swap := by
  induction ds generalizing vs ws with
  | nil => rfl
  | cons d ds ih =>
    cases vs <;> cases ws
    case cons.cons v vs w ws =>
      rw [compareKeys, compareKeys, Ordering.swap_then, ← orient_swap, ← Value.canonicalCmp_swap, ih]
    all_goals rfl

/-- Comparisons of keys without floats fit together. -/
theorem compareKeys_fits (hus : ∀ u ∈ us, u.FloatFree) (hvs : ∀ v ∈ vs, v.FloatFree)
    (hws : ∀ w ∈ ws, w.FloatFree) (hul : us.length = ds.length) (hvl : vs.length = ds.length)
    (hwl : ws.length = ds.length) :
    Fits (compareKeys ds us vs) (compareKeys ds vs ws) (compareKeys ds us ws) := by
  induction ds generalizing us vs ws with
  | nil => exact fits_compare 0 0 0
  | cons d ds ih =>
    obtain ⟨u, us, rfl⟩ := List.exists_cons_of_length_eq_add_one hul
    obtain ⟨v, vs, rfl⟩ := List.exists_cons_of_length_eq_add_one hvl
    obtain ⟨w, ws, rfl⟩ := List.exists_cons_of_length_eq_add_one hwl
    rw [List.length_cons, List.length_cons, Nat.add_right_cancel_iff] at hul hvl hwl
    rw [List.forall_mem_cons] at hus hvs hws
    exact ((hus.1.fits hvs.1 hws.1).orient d).then fun _ _ =>
      ih hus.2 hvs.2 hws.2 hul hvl hwl

/-! ### Sorted rows -/

variable {order : List OrderTerm} {rows sorted : List Record}

/-- Of two rows with their positions in storage, the first one comes first in the order of the terms,
or they tie and it is stored first. -/
def ComesBefore (order : List OrderTerm) (a b : Record × Nat) : Prop :=
  ∃ vs ws, rowKeys order a.1 = .ok vs ∧ rowKeys order b.1 = .ok ws ∧
    (Precedes (order.map (·.direction)) vs ws ∨ Tied vs ws ∧ a.2 < b.2)

/-- A row has a key for every term. -/
theorem length_of_rowKeys {row : Record} (h : rowKeys order row = .ok vs) :
    vs.length = (order.map (·.direction)).length := by
  rw [List.length_map, length_of_mapM h]

/-- **Rows whose keys have no floats are sorted in the order of the terms**, and those that tie keep
the order of storage. -/
theorem exists_of_sortRows {stored : List (Record × Nat)} (hplaces : stored.Pairwise (·.2 < ·.2))
    (hfree : ∀ a ∈ stored, ∀ keys, rowKeys order a.1 = .ok keys → ∀ v ∈ keys, v.FloatFree)
    (h : sortRows order (stored.map (·.1)) = .ok sorted) :
    ∃ placed : List (Record × Nat), placed.Perm stored ∧ placed.Pairwise (ComesBefore order) ∧
      sorted = placed.map (·.1) := by
  obtain ⟨keyed, hkeyed, h⟩ := bind_eq_ok.1 h
  cases h
  obtain ⟨key, hkey, rfl⟩ := exists_map_of_mapM hkeyed
  have hkeys : ∀ a ∈ stored, rowKeys order a.1 = .ok (key a.1).1 ∧ (key a.1).2 = a.1 := by
    intro a ha
    obtain ⟨keys, hkeys, hpair⟩ := bind_eq_ok.1 (hkey a.1 (List.mem_map_of_mem ha))
    rw [← Except.ok.inj hpair]
    exact ⟨hkeys, rfl⟩
  have hlength (a) (ha : a ∈ stored) := length_of_rowKeys (hkeys a ha).1
  let cmp (a b : Record × Nat) : Ordering :=
    compareKeys (order.map (·.direction)) (key a.1).1 (key b.1).1
  have hperm := stableSort_perm cmp stored
  have hsorted : (stableSort cmp stored).Pairwise (StablyBefore cmp (·.2 < ·.2)) :=
    stableSort_pairwise (fun a b => compareKeys_swap _ _ _)
      (fun a ha b hb c hc => compareKeys_fits (hfree a ha _ (hkeys a ha).1)
        (hfree b hb _ (hkeys b hb).1) (hfree c hc _ (hkeys c hc).1)
        (hlength a ha) (hlength b hb) (hlength c hc)) hplaces
  refine ⟨stableSort cmp stored, hperm, ?_, ?_⟩
  · refine hsorted.imp_of_mem fun {a b} ha hb hbefore => ?_
    rw [hperm.mem_iff] at ha hb
    refine ⟨_, _, (hkeys a ha).1, (hkeys b hb).1, ?_⟩
    exact hbefore.imp compareKeys_eq_lt_iff.1
      (And.imp_left (compareKeys_eq_eq_iff (hlength a ha) (hlength b hb)).1)
  · rw [sortByKeys, List.map_map, stableSort_map, List.map_map]
    exact List.map_congr_left fun a ha => (hkeys a (hperm.mem_iff.1 ha)).2

namespace Table

variable {t : Table} {query : EntityQuery} {out : List Record}

/-- The stored rows that meet the filter, each with its position. -/
def placedRows (t : Table) (filter : Option Lambda) : List (Record × Nat) :=
  t.rows.zipIdx.filter fun item => meets filter item.1

theorem map_placedRows (t : Table) (filter : Option Lambda) :
    (t.placedRows filter).map (·.1) = t.rows.filter (meets filter) := by
  conv => rhs; rw [← List.zipIdx_map_fst 0 t.rows, List.filter_map]
  rfl

theorem pairwise_placedRows (t : Table) (filter : Option Lambda) :
    (t.placedRows filter).Pairwise (·.2 < ·.2) := by
  refine List.Pairwise.filter _ (List.pairwise_map.1 ?_)
  rw [List.zipIdx_map_snd]
  exact List.pairwise_lt_range'

/-- **A query loads a window of the rows that meet its filter, in the order of its terms**, and of
those that tie, in storage order.  As many rows are counted.  The keys must be free of floats. -/
theorem load_in_order
    (hfree : ∀ row ∈ t.rows, passes query.filter row = .ok true →
      ∀ keys, rowKeys query.order row = .ok keys → ∀ v ∈ keys, v.FloatFree)
    (h : t.load query = .ok out) :
    ∃ placed : List (Record × Nat),
      (∀ row ∈ t.rows, passes query.filter row = .ok (meets query.filter row)) ∧
      placed.Perm (t.placedRows query.filter) ∧
      placed.Pairwise (ComesBefore query.order) ∧
      out = PageWindow.applyTo query.window (placed.map (·.1)) ∧
      t.count query.filter = .ok placed.length := by
  obtain ⟨kept, hkept, h⟩ := bind_eq_ok.1 h
  obtain ⟨sorted, hsorted, h⟩ := bind_eq_ok.1 h
  cases h
  obtain ⟨hdecides, rfl⟩ := selectRows_eq_ok.1 hkept
  rw [← map_placedRows] at hsorted
  have hkeys : ∀ a ∈ t.placedRows query.filter, ∀ keys,
      rowKeys query.order a.1 = .ok keys → ∀ v ∈ keys, v.FloatFree := by
    intro a ha
    have ha : a.1 ∈ t.rows.filter (meets query.filter) := by
      rw [← map_placedRows]
      exact List.mem_map_of_mem ha
    obtain ⟨hrow, hmeets⟩ := List.mem_filter.1 ha
    exact hfree a.1 hrow (by rw [hdecides a.1 hrow, hmeets])
  obtain ⟨placed, hperm, hplaced, rfl⟩ :=
    exists_of_sortRows (t.pairwise_placedRows query.filter) hkeys hsorted
  refine ⟨placed, hdecides, hperm, hplaced, rfl, count_eq_ok.2 ⟨hdecides, ?_⟩⟩
  rw [hperm.length_eq, List.countP_eq_length_filter, ← map_placedRows, List.length_map]

end Table

namespace Sample

/-- Two users of one name and two of another one, and a user who is not shown. -/
def fiveUsers : Table :=
  ⟨user, some "id", [userRow 1 "Ada" none, userRow 2 "Bob" none, userRow 3 "Ada" none,
    userRow 4 "Bob" none, userRow 5 "Eve" none], 6⟩

/-- All users but one, from the last name to the first one; of them the second and the third. -/
def namesDescending : EntityQuery :=
  ⟨some (.over user fun x =>
      .unary .not ((x.field "name").equals (.constant (.text "Eve")))),
    [⟨.over user (·.field "name"), .desc⟩], some ⟨1, 2⟩⟩

/-- The query skips the first Bob and takes the second one and the first Ada. -/
theorem namesDescending_loaded :
    fiveUsers.load namesDescending = .ok [userRow 4 "Bob" none, userRow 1 "Ada" none] ∧
      ∃ placed : List (Record × Nat), placed.Pairwise (ComesBefore namesDescending.order) ∧
        [userRow 4 "Bob" none, userRow 1 "Ada" none] =
          PageWindow.applyTo namesDescending.window (placed.map (·.1)) ∧
        fiveUsers.count namesDescending.filter = .ok placed.length := by
  have hload : fiveUsers.load namesDescending =
      .ok [userRow 4 "Bob" none, userRow 1 "Ada" none] := by rfl
  have hnamed : ∀ row ∈ fiveUsers.rows,
      ∃ name, rowKeys namesDescending.order row = .ok [.text name] := by
    intro row hrow
    simp only [fiveUsers, List.mem_cons, List.not_mem_nil, or_false] at hrow
    obtain rfl | rfl | rfl | rfl | rfl := hrow <;> exact ⟨_, rfl⟩
  obtain ⟨placed, -, -, hplaced, hout, hcount⟩ := Table.load_in_order
    (fun row hrow _ keys hkeys v hv => by
      obtain ⟨name, hname⟩ := hnamed row hrow
      rw [← Except.ok.inj (hname.symm.trans hkeys), List.mem_singleton] at hv
      rw [hv]
      exact Value.floatFree_text name) hload
  exact ⟨hload, placed, hplaced, hout, hcount⟩

end Sample

end RecordView
