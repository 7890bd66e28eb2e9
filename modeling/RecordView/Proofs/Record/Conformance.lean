import RecordView.Record.Basic

/-!
# Records that conform to a schema

A record that conforms to a schema has a cell of the right shape for every field of the schema
(`Record.Conforms.exists_cell`), and it still conforms when such a cell is replaced by another one
(`Record.Conforms.setCell`).  Everything else about conforming records follows from these two:

* a scalar field holds null or a value of its kind (`Record.Conforms.exists_value`), where
  `Value.HasKind` says what it is to be of a kind;
* a nested record conforms to the nested schema (`Record.Conforms.getRecord?`), also the default
  one that stands in for an absent record (`Record.Conforms.getOrDefault?`);
* a value that was written can be read back, converted to the kind of the field
  (`Record.getValue?_setValue`).
-/

namespace RecordView

/-! ### Kinds of values -/

namespace Value

/-- The value is null or of the given kind, so that conversion to the kind leaves it alone. -/
def HasKind (kind : FieldKind) (v : Value) : Prop := v.cast kind = some v

@[simp] theorem hasKind_null (kind : FieldKind) : Value.null.HasKind kind := rfl

theorem hasKind_kind (v : Value) : v.HasKind v.kind := by
  cases v <;> rfl

/-- Conversion to a kind yields a value of the kind. -/
theorem hasKind_of_cast {kind : FieldKind} {v w : Value} (h : v.cast kind = some w) :
    w.HasKind kind := by
  cases v <;> cases kind <;> simp only [cast, Option.map_eq_some_iff, Option.some.injEq,
    Option.ite_none_right_eq_some, reduceCtorEq] at h
  all_goals
    first
    | subst h; rfl
    | obtain ⟨_, _, rfl⟩ := h; rfl

/-- Only null is converted to null. -/
theorem eq_null_of_cast {kind : FieldKind} {v : Value} (h : v.cast kind = some .null) :
    v = .null := by
  cases v <;> cases kind <;> simp only [cast, Option.map_eq_some_iff, Option.some.injEq,
    Option.ite_none_right_eq_some, reduceCtorEq, and_false, exists_false] at h ⊢

theorem hasKind_bool_iff {v : Value} : v.HasKind .bool ↔ v = .null ∨ ∃ b, v = .bool b := by
  constructor
  · intro h
    cases v with
    | null => exact .inl rfl
    | bool b => exact .inr ⟨b, rfl⟩
    | _ => cases h
  · rintro (rfl | ⟨b, rfl⟩) <;> rfl

theorem hasKind_int_iff {v : Value} : v.HasKind .int ↔ v = .null ∨ ∃ i, v = .int i := by
  constructor
  · intro h
    cases v with
    | null => exact .inl rfl
    | int i => exact .inr ⟨i, rfl⟩
    | uint n | float x =>
      simp only [HasKind, cast, Option.map_eq_some_iff, reduceCtorEq, and_false,
        exists_false] at h
    | _ => cases h
  · rintro (rfl | ⟨i, rfl⟩) <;> rfl

end Value

/-- Every value fits a wide field. -/
theorem Width.fits_wide (v : Value) : Width.wide.fits v = true := by
  cases v with
  | int i =>
    exact Bool.and_eq_true_iff.2
      ⟨decide_eq_true i.minValue_le_toInt, decide_eq_true i.toInt_le⟩
  | uint n =>
    exact decide_eq_true (Nat.le_sub_one_of_lt n.toNat_lt_size)
  | _ => rfl

namespace Field

/-- A stored value is the written one, converted to the kind of the field. -/
theorem cast_of_store? {f : Field} {v w : Value} (h : f.store? v = some w) :
    v.cast f.type.kind = some w := by
  unfold store? at h
  split at h
  · rename_i hv
    obtain rfl := Value.isNull_iff.1 hv
    split at h
    · cases h; rfl
    · cases h
  · exact (Option.filter_eq_some_iff.1 h).1

theorem width_fits_of_store? {f : Field} {v w : Value} (h : f.store? v = some w) :
    f.width.fits w = true := by
  unfold store? at h
  split at h
  · split at h
    · cases h; rfl
    · cases h
  · exact (Option.filter_eq_some_iff.1 h).2

theorem hasKind_of_store? {f : Field} {v w : Value} (h : f.store? v = some w) :
    w.HasKind f.type.kind :=
  Value.hasKind_of_cast (cast_of_store? h)

/-- What was stored once can be stored again, and stays as it is. -/
theorem store?_of_store? {f : Field} {v w : Value} (h : f.store? v = some w) :
    f.store? w = some w := by
  have hkind : w.cast f.type.kind = some w := hasKind_of_store? h
  have hfits := width_fits_of_store? h
  by_cases hw : w = .null
  · subst hw
    unfold store? at h ⊢
    split at h
    · exact h
    · rename_i hv
      exact absurd (Value.eq_null_of_cast (Option.filter_eq_some_iff.1 h).1)
        (fun hnull => hv (Value.isNull_iff.2 hnull))
  · have hnull : w.isNull = false := by
      cases w <;> simp_all [Value.isNull]
    simp [store?, hnull, hkind, hfits]

/-- A wide field of signed numbers holds every signed word. -/
theorem store?_int {f : Field} (hk : f.type.kind = .int) (hw : f.width = .wide) (i : Int64) :
    f.store? (.int i) = some (.int i) := by
  simp [store?, Value.isNull, Value.cast, hk, hw, Width.fits_wide]

end Field

/-! ### Cells -/

/-- A cell under the name of its field. -/
theorem CellsConform.cons_named {c : Cell} {f : Field} {name : String}
    {cells : List (String × Cell)} {fields : List Field} (hname : f.name = name)
    (head : CellConforms c f) (tail : CellsConform cells fields) :
    CellsConform ((name, c) :: cells) (f :: fields) := by
  subst hname
  exact .cons head tail

theorem CellsConform.exists_cell {cells : List (String × Cell)} {fields : List Field}
    (h : CellsConform cells fields) {name : String} {f : Field}
    (hf : fields.find? (·.name == name) = some f) :
    ∃ c, cells.lookup name = some c ∧ CellConforms c f := by
  induction fields generalizing cells with
  | nil => cases hf
  | cons g fields ih =>
    cases h with
    | @cons c _ cells _ head tail =>
      by_cases hg : g.name = name
      · rw [List.find?_cons_of_pos (by simpa using hg)] at hf
        cases hf
        exact ⟨c, by simp [hg], head⟩
      · rw [List.find?_cons_of_neg (by simpa using hg)] at hf
        obtain ⟨d, hd, hconf⟩ := ih tail hf
        exact ⟨d, by simp [List.lookup_cons, beq_false_of_ne (Ne.symm hg), hd], hconf⟩

/-- Every cell is that of a field. -/
theorem CellsConform.exists_field {cells : List (String × Cell)} {fields : List Field}
    (h : CellsConform cells fields) {name : String} {c : Cell}
    (hc : cells.lookup name = some c) :
    ∃ f, fields.find? (·.name == name) = some f ∧ CellConforms c f := by
  induction fields generalizing cells with
  | nil =>
    cases h
    cases hc
  | cons g fields ih =>
    cases h with
    | @cons d _ cells _ head tail =>
      by_cases hg : g.name = name
      · subst hg
        rw [List.lookup_cons_self] at hc
        cases hc
        exact ⟨g, by simp, head⟩
      · rw [List.lookup_cons, beq_false_of_ne (Ne.symm hg)] at hc
        obtain ⟨f, hf, hconf⟩ := ih tail hc
        exact ⟨f, by rw [List.find?_cons_of_neg (by simpa using hg), hf], hconf⟩

theorem CellsConform.replaceCell {cells : List (String × Cell)} {fields : List Field}
    (h : CellsConform cells fields) {name : String} {f : Field}
    (hf : fields.find? (·.name == name) = some f) {c : Cell} (hc : CellConforms c f) :
    CellsConform (Record.replaceCell name c cells) fields := by
  induction fields generalizing cells with
  | nil => cases hf
  | cons g fields ih =>
    cases h with
    | @cons d _ cells _ head tail =>
      by_cases hg : g.name = name
      · rw [List.find?_cons_of_pos (by simpa using hg)] at hf
        cases hf
        simp only [Record.replaceCell, hg, beq_self_eq_true, if_true]
        rw [← hg]
        exact .cons hc tail
      · rw [List.find?_cons_of_neg (by simpa using hg)] at hf
        have hne : (name == g.name) = false := beq_false_of_ne (Ne.symm hg)
        simp only [Record.replaceCell, hne, Bool.false_eq_true, if_false]
        exact .cons head (ih tail hf)

/-! ### Default records -/

theorem Schema.cell?_default (s : Schema) (name : String) :
    s.default.cell? name = (s.field? name).map (·.type.defaultCell) := by
  simp only [Record.cell?, Schema.default, Schema.field?]
  induction s.fields with
  | nil => rfl
  | cons f fields ih =>
    by_cases hf : f.name = name
    · simp [hf]
    · simp [List.lookup_cons, beq_false_of_ne hf, beq_false_of_ne (Ne.symm hf), ih]

/-- A default record holds no nested record. -/
theorem Schema.getRecord?_default (s : Schema) (name : String) :
    s.default.getRecord? name = none := by
  rw [Record.getRecord?, s.cell?_default]
  cases s.field? name with
  | none => rfl
  | some f =>
    rw [Option.map_some, FieldType.defaultCell]
    cases f.type.kind <;> rfl

/-! ### Fields of conforming records -/

namespace Record

variable {r : Record} {s t : Schema} {name : String} {f : Field}

/-- A conforming record has a cell for every field of the schema. -/
theorem Conforms.exists_cell (h : r.Conforms s) (hf : s.field? name = some f) :
    ∃ c, r.cell? name = some c ∧ CellConforms c f := by
  cases h with
  | intro hcells => exact hcells.exists_cell hf

/-- Replacing a cell by one of the right shape keeps conformance. -/
theorem Conforms.setCell (h : r.Conforms s) (hf : s.field? name = some f) {c : Cell}
    (hc : CellConforms c f) : (r.setCell name c).Conforms s := by
  cases h with
  | intro hcells => exact .intro (hcells.replaceCell hf hc)

/-- A scalar field holds a value that it can store, so one of its kind. -/
theorem Conforms.exists_value (h : r.Conforms s) (hf : s.field? name = some f)
    (hs : f.type.kind.isScalar = true) :
    ∃ v, r.getValue? name = some v ∧ f.store? v = some v := by
  obtain ⟨c, hc, hconf⟩ := h.exists_cell hf
  cases hconf with
  | @value v _ _ stored => exact ⟨v, by simp [getValue?, hc], stored⟩
  | absent kind | record kind | records kind => simp [kind, FieldKind.isScalar] at hs

/-- A field with a nested record holds none, or one that conforms to the nested schema. -/
theorem Conforms.exists_record (h : r.Conforms s) (hf : s.field? name = some f)
    (hn : f.type.kind = .record t) :
    ∃ nested, r.cell? name = some (.record nested) ∧ ∀ n, nested = some n → n.Conforms t := by
  obtain ⟨c, hc, hconf⟩ := h.exists_cell hf
  cases hconf with
  | value scalar => simp [hn, FieldKind.isScalar] at scalar
  | absent kind => exact ⟨none, hc, by simp⟩
  | @record n _ u kind nested =>
    rw [hn] at kind
    cases kind
    exact ⟨some n, hc, by rintro _ ⟨⟩; exact nested⟩
  | records kind => rw [hn] at kind; cases kind

theorem Conforms.getRecord? (h : r.Conforms s) (hf : s.field? name = some f)
    (hn : f.type.kind = .record t) {nested : Record} (hr : r.getRecord? name = some nested) :
    nested.Conforms t := by
  obtain ⟨n, hc, hconf⟩ := h.exists_record hf hn
  simp only [Record.getRecord?, hc] at hr
  exact hconf nested hr

/-- A collection field holds records that conform to the nested schema. -/
theorem Conforms.exists_records (h : r.Conforms s) (hf : s.field? name = some f)
    (hn : f.type.kind = .records t) :
    ∃ rows, r.getRecords? name = some rows ∧ ∀ n ∈ rows, n.Conforms t := by
  obtain ⟨c, hc, hconf⟩ := h.exists_cell hf
  cases hconf with
  | value scalar => simp [hn, FieldKind.isScalar] at scalar
  | absent kind | record kind => rw [hn] at kind; cases kind
  | @records rows _ u kind nested =>
    rw [hn] at kind
    cases kind
    exact ⟨rows, by simp [Record.getRecords?, hc], nested⟩

/-- A nested record is in a field for such records. -/
theorem Conforms.exists_field_of_getRecord? (h : r.Conforms s) {nested : Record}
    (hr : r.getRecord? name = some nested) :
    ∃ f t, s.field? name = some f ∧ f.type.kind = .record t ∧ nested.Conforms t := by
  cases h with
  | intro hcells =>
    unfold Record.getRecord? at hr
    split at hr
    · rename_i found hcell
      obtain ⟨f, hf, hconf⟩ := hcells.exists_field hcell
      subst hr
      cases hconf with
      | record kind nested => exact ⟨f, _, hf, kind, nested⟩
    · cases hr

/-- Where a field may hold a nested record, the record or its stand-in conforms. -/
theorem Conforms.getOrDefault? (h : r.Conforms s) (hf : s.field? name = some f)
    (hn : f.type.kind = .record t) :
    r.getOrDefault? name = some ((r.getRecord? name).getD t.default) ∧
      ((r.getRecord? name).getD t.default).Conforms t := by
  obtain ⟨n, hc, hconf⟩ := h.exists_record hf hn
  have hread : r.getRecord? name = n := by simp [Record.getRecord?, hc]
  constructor
  · simp [Record.getOrDefault?, hc, h.schema_eq, hf, FieldType.recordSchema?, hn, hread]
  · rw [hread]
    cases n with
    | none => exact t.default_conforms
    | some n => exact hconf n rfl

theorem Conforms.setRecord (h : r.Conforms s) (hf : s.field? name = some f)
    (hn : f.type.kind = .record t) {nested : Record} (hr : nested.Conforms t) :
    (r.setRecord name (some nested)).Conforms s :=
  h.setCell hf (.record hn hr)

theorem Conforms.getRecord?_setRecord (h : r.Conforms s) (hf : s.field? name = some f)
    (nested : Option Record) : (r.setRecord name nested).getRecord? name = nested := by
  obtain ⟨c, hc, -⟩ := h.exists_cell hf
  simp [Record.getRecord?, Record.setRecord, cell?_setCell_self _ hc]

theorem getRecord?_setRecord_of_ne {other : String} (hne : other ≠ name)
    {nested : Option Record} : (r.setRecord name nested).getRecord? other = r.getRecord? other := by
  simp only [Record.getRecord?, Record.setRecord, cell?_setCell_of_ne hne]

/-- Replacing a nested record changes no value. -/
theorem Conforms.getValue?_setRecord (h : r.Conforms s) (hf : s.field? name = some f)
    (hn : f.type.kind = .record t) {nested : Option Record} (other : String) :
    (r.setRecord name nested).getValue? other = r.getValue? other := by
  by_cases hne : other = name
  · subst hne
    obtain ⟨n, hc, -⟩ := h.exists_record hf hn
    simp [getValue?, Record.setRecord, hc, cell?_setCell_self _ hc]
  · simp only [getValue?, Record.setRecord, cell?_setCell_of_ne hne]

/-! ### Writing values -/

/-- A write succeeds when the field is a scalar one that can store the value. -/
theorem setValue_eq_ok (hs : r.schema = s) (hf : s.field? name = some f) {v : Value}
    {r' : Record} :
    r.setValue name v = .ok r' ↔
      f.type.kind.isScalar = true ∧ ∃ w, f.store? v = some w ∧ r' = r.setCell name (.value w) := by
  subst hs
  simp only [setValue, hf]
  by_cases hk : f.type.kind.isScalar = true
  · simp only [hk, if_true, true_and]
    cases f.store? v with
    | none => simp
    | some w => simp [eq_comm]
  · simp [hk]

theorem Conforms.setValue (h : r.Conforms s) {v : Value} {r' : Record}
    (hw : r.setValue name v = .ok r') : r'.Conforms s := by
  cases hf : s.field? name with
  | none =>
    unfold Record.setValue at hw
    rw [h.schema_eq, hf] at hw
    cases hw
  | some f =>
    obtain ⟨hk, w, hstore, rfl⟩ := (setValue_eq_ok h.schema_eq hf).1 hw
    exact h.setCell hf (.value hk (Field.store?_of_store? hstore))

/-- What was written is read back, converted to the kind of the field. -/
theorem getValue?_setValue (h : r.Conforms s) (hf : s.field? name = some f) {v : Value}
    {r' : Record} (hw : r.setValue name v = .ok r') :
    ∃ w, r'.getValue? name = some w ∧ f.store? v = some w := by
  obtain ⟨-, w, hstore, rfl⟩ := (setValue_eq_ok h.schema_eq hf).1 hw
  obtain ⟨c, hc, -⟩ := h.exists_cell hf
  exact ⟨w, by simp [getValue?, cell?_setCell_self _ hc], hstore⟩

theorem cell?_setValue_of_ne {other : String} (hne : other ≠ name) {v : Value} {r' : Record}
    (hw : r.setValue name v = .ok r') : r'.cell? other = r.cell? other := by
  unfold setValue at hw
  split at hw
  · cases hw
  · split at hw
    · split at hw
      · cases hw
        exact cell?_setCell_of_ne hne r _
      · cases hw
    · cases hw

/-- Writing a value changes no nested record. -/
theorem getRecord?_setValue (h : r.Conforms s) (hf : s.field? name = some f)
    (hn : f.type.kind = .record t) {other : String} {v : Value} {r' : Record}
    (hw : r.setValue other v = .ok r') : r'.getRecord? name = r.getRecord? name := by
  have hne : name ≠ other := by
    rintro rfl
    obtain ⟨hk, -⟩ := (setValue_eq_ok h.schema_eq hf).1 hw
    simp [hn, FieldKind.isScalar] at hk
  simp only [Record.getRecord?, cell?_setValue_of_ne hne hw]

end Record

end RecordView
