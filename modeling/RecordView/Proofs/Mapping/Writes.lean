import RecordView.Proofs.Mapping.Declared

/-!
# Sequences of writes

Both ways across a mapping set write values at paths of a record, one after the other
(`FieldPath.writeAll`, `MappingSet.project_eq_writeAll`, `MappingSet.writeEntity_eq_writeAll`).
What a single write does carries over to all of them when the paths have different names:

* every value is read back at its path as its leaf stores it (`FieldPath.store?_writeAll_self`);
* a path with another name that was open reads as before (`FieldPath.read_writeAll_of_isOpen`);
* a path is open afterwards if it was open before, or the record with its leaf is on the way of a
  path that is written (`FieldPath.isOpen_writeAll_iff`), and a path that has become open reads what
  a default record holds there (`FieldPath.read_writeAll_opened`).
-/

namespace RecordView

theorem FieldPath.write?_eq_ok {p : FieldPath} {r r' : Record} {v : Value} :
    p.write? r v = .ok r' ↔ (p.write r v).1 = .ok () ∧ (p.write r v).2 = r' := by
  unfold FieldPath.write?
  rcases p.write r v with ⟨_ | _, written⟩ <;> simp

namespace FieldPath

/-- Writes values at paths, one after the other, up to the first failure. -/
def writeAll (writes : List (FieldPath × Value)) (r : Record) : Except WriteError Record :=
  writes.foldlM (fun r w => w.1.write? r w.2) r

/-- The first write, and then the others. -/
theorem writeAll_cons_eq_ok {w : FieldPath × Value} {writes : List (FieldPath × Value)}
    {r r' : Record} :
    writeAll (w :: writes) r = .ok r' ↔
      (w.1.write r w.2).1 = .ok () ∧ writeAll writes (w.1.write r w.2).2 = .ok r' := by
  rw [writeAll, List.foldlM_cons, bind_eq_ok]
  constructor
  · rintro ⟨r₁, hfirst, hrest⟩
    obtain ⟨hok, rfl⟩ := write?_eq_ok.1 hfirst
    exact ⟨hok, hrest⟩
  · rintro ⟨hok, hrest⟩
    exact ⟨_, write?_eq_ok.2 ⟨hok, rfl⟩, hrest⟩

variable {s : Schema} {writes : List (FieldPath × Value)} {r r' : Record} {q : FieldPath}

theorem conforms_writeAll (hs : ∀ w ∈ writes, w.1.ScalarOn s) (h : r.Conforms s)
    (hr : writeAll writes r = .ok r') : r'.Conforms s := by
  induction writes generalizing r with
  | nil => cases hr; exact h
  | cons w writes ih =>
    exact ih (fun w' hw' => hs w' (by simp [hw'])) ((hs w (by simp)).conforms_write h)
      (writeAll_cons_eq_ok.1 hr).2

/-- **The writes open the paths through the records on their way, and no others.** -/
theorem isOpen_writeAll_iff (hs : ∀ w ∈ writes, w.1.ScalarOn s) (hq : q.ScalarOn s)
    (h : r.Conforms s) (hr : writeAll writes r = .ok r') :
    q.IsOpen r' ↔ q.IsOpen r ∨ ∃ w ∈ writes, q.IsOnWayOf w.1 := by
  induction writes generalizing r with
  | nil => cases hr; simp
  | cons w writes ih =>
    have hw := hs w (by simp)
    have hroot : q.root = w.1.root := hq.root.trans hw.root.symm
    rw [ih (fun w' hw' => hs w' (by simp [hw'])) (hw.conforms_write h)
        (writeAll_cons_eq_ok.1 hr).2,
      hw.resolved.isOpen_write_iff hq.resolved hroot (hw.conforms h), or_assoc]
    simp

/-- **A path that is open and not written reads as before.** -/
theorem read_writeAll_of_isOpen (hs : ∀ w ∈ writes, w.1.ScalarOn s) (hq : q.ScalarOn s)
    (h : r.Conforms s) (hr : writeAll writes r = .ok r') (hne : ∀ w ∈ writes, q.names ≠ w.1.names)
    (ho : q.IsOpen r) : q.read r' = q.read r := by
  induction writes generalizing r with
  | nil => cases hr; rfl
  | cons w writes ih =>
    have hw := hs w (by simp)
    have hroot : q.root = w.1.root := hq.root.trans hw.root.symm
    rw [ih (fun w' hw' => hs w' (by simp [hw'])) (hw.conforms_write h)
        (writeAll_cons_eq_ok.1 hr).2 (fun w' hw' => hne w' (by simp [hw']))
        (hw.resolved.isOpen_write hq.resolved hroot (hw.conforms h) ho),
      hw.resolved.read_write_of_ne hq.resolved hroot (hw.conforms h) (hne w (by simp)) ho]

/-- **A path that becomes open and is not written reads what a default record holds there.** -/
theorem read_writeAll_opened (hs : ∀ w ∈ writes, w.1.ScalarOn s) (hq : q.ScalarOn s)
    (h : r.Conforms s) (hr : writeAll writes r = .ok r') (hne : ∀ w ∈ writes, q.names ≠ w.1.names)
    (hclosed : ¬ q.IsOpen r) (ho : q.IsOpen r') : q.read r' = q.leaf.initial := by
  induction writes generalizing r with
  | nil => cases hr; exact absurd ho hclosed
  | cons w writes ih =>
    have hw := hs w (by simp)
    have hroot : q.root = w.1.root := hq.root.trans hw.root.symm
    have hconf := hw.conforms h
    have hrest := (writeAll_cons_eq_ok.1 hr).2
    have hs' : ∀ w' ∈ writes, w'.1.ScalarOn s := fun w' hw' => hs w' (by simp [hw'])
    have hne' : ∀ w' ∈ writes, q.names ≠ w'.1.names := fun w' hw' => hne w' (by simp [hw'])
    by_cases hfirst : q.IsOpen (w.1.write r w.2).2
    · -- the first write opens the path, and the others leave it alone
      have hway : q.IsOnWayOf w.1 :=
        ((hw.resolved.isOpen_write_iff hq.resolved hroot hconf).1 hfirst).resolve_left hclosed
      rw [read_writeAll_of_isOpen hs' hq (hw.conforms_write h) hrest hne' hfirst]
      exact hw.resolved.read_write_opened hq.resolved hroot hconf (hne w (by simp)) hclosed hway
    · exact ih hs' (hw.conforms_write h) hrest hne' hfirst

/-- **What was written is read back** as the leaf stores it. -/
theorem store?_writeAll_self (hs : ∀ w ∈ writes, w.1.ScalarOn s) (h : r.Conforms s)
    (hr : writeAll writes r = .ok r') (hdistinct : (writes.map (·.1.names)).Nodup) :
    ∀ w ∈ writes, w.1.leaf.store? w.2 = some (w.1.read r') := by
  induction writes generalizing r with
  | nil => simp
  | cons first writes ih =>
    rw [List.map_cons, List.nodup_cons] at hdistinct
    obtain ⟨hnotin, hdistinct⟩ := hdistinct
    obtain ⟨hok, hrest⟩ := writeAll_cons_eq_ok.1 hr
    have hfirst := hs first (by simp)
    have hs' : ∀ w' ∈ writes, w'.1.ScalarOn s := fun w' hw' => hs w' (by simp [hw'])
    have hconf := hfirst.conforms h
    intro w hw
    obtain rfl | hw := List.mem_cons.1 hw
    · have hne : ∀ w' ∈ writes, w.1.names ≠ w'.1.names :=
        fun w' hw' heq => hnotin (List.mem_map.2 ⟨w', hw', heq.symm⟩)
      -- the write has opened its path, so the others leave it alone
      rw [read_writeAll_of_isOpen hs' hfirst (hfirst.conforms_write h) hrest hne
        (hfirst.resolved.isOpen_write_self hconf)]
      exact hfirst.resolved.store?_write_self hconf hok
    · exact ih hs' (hfirst.conforms_write h) hrest hdistinct w hw

/-- What was written is read back, converted to the kind of the leaf. -/
theorem read_writeAll_self (hs : ∀ w ∈ writes, w.1.ScalarOn s) (h : r.Conforms s)
    (hr : writeAll writes r = .ok r') (hdistinct : (writes.map (·.1.names)).Nodup) :
    ∀ w ∈ writes, w.2.cast w.1.leaf.type.kind = some (w.1.read r') := fun w hw =>
  Leads.cast_of_store? (hs w hw).resolved (store?_writeAll_self hs h hr hdistinct w hw)

end FieldPath

namespace MappingSet

/-- The writes of a projection. -/
theorem project_eq_writeAll (set : MappingSet) (model : Schema) (e : Record) :
    set.project model e =
      FieldPath.writeAll (set.mappings.map fun k => (k.model, k.entity.read e)) model.default := by
  rw [project, FieldPath.writeAll, List.foldlM_map]

/-- The mappings whose model field has a value. -/
def valued (set : MappingSet) (m : Record) : List Mapping :=
  set.mappings.filter fun k => !(k.model.read m).isNull

theorem mem_valued {set : MappingSet} {m : Record} {k : Mapping} :
    k ∈ set.valued m ↔ k ∈ set.mappings ∧ (k.model.read m).isNull = false := by
  rw [valued, List.mem_filter, Bool.not_eq_true']

/-- The writes of a model to an entity. -/
theorem writeEntity_eq_writeAll (set : MappingSet) (m e : Record) :
    set.writeEntity m e =
      FieldPath.writeAll ((set.valued m).map fun k => (k.entity, k.model.read m)) e := by
  rw [writeEntity, FieldPath.writeAll, List.foldlM_map, valued, List.foldlM_filter]
  congr 1
  funext r k
  cases (k.model.read m).isNull <;> rfl

theorem Sound.scalarOn_valued {set : MappingSet} {model entity : Schema}
    (hs : set.Sound model entity) (m : Record) :
    ∀ w ∈ (set.valued m).map (fun k => (k.entity, k.model.read m)), w.1.ScalarOn entity := by
  rintro _ hw
  obtain ⟨k, hk, rfl⟩ := List.mem_map.1 hw
  exact (hs.between k (mem_valued.1 hk).1).entity

end MappingSet

end RecordView
