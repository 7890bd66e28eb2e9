import RecordView.Proofs.Record.Conformance
import RecordView.Proofs.Store.Filter

/-!
# Where the rows of a commit come from

Every row of a table after a commit was a row before, or is the row of a replacement in the batch,
or was inserted, and then the identity counter has passed its identity (`Table.Origin`).  The counter
never goes back.

This holds of one write (`Table.continues_of_apply`), so of a run of writes
(`Table.Continues.trans`), so of a batch.  A commit leaves the identities of the rows distinct,
because it checks them in the end (`Table.continues_of_commit`).

A batch of one write commits what that write does (`Table.commit_singleton_eq_ok`).  A replacement
and a removal change the rows that meet their filter, where they stand
(`Table.commit_replace_eq_ok`, `Table.commit_remove_eq_ok`).  An insertion adds the rows that it
reports as inserted, and nothing else (`Table.after_insert`); these conform when the given rows do
(`Table.conforms_inserted`).
-/

namespace RecordView

/-! ### The identity counter -/

theorem toInt_nextWord {i : Int64} (h : i.toInt < Int64.maxValue.toInt) :
    (nextWord i).toInt = i.toInt + 1 := by
  have hlo := i.le_toInt
  have hne : i ≠ Int64.maxValue := by rintro rfl; omega
  rw [Int64.toInt_maxValue] at h
  rw [nextWord, if_neg hne, Int64.toInt_add, Int64.toInt_one]
  -- the sum does not wrap around
  apply Int.bmod_eq_of_le
  · simp only [Nat.reducePow]
    omega
  · simp only [Nat.reducePow]
    omega

theorem le_nextWord (i : Int64) : i ≤ nextWord i := by
  by_cases h : i = Int64.maxValue
  · rw [nextWord, if_pos h]
    exact Int64.le_refl i
  · have hle := i.toInt_le
    have hne := mt Int64.toInt_inj.1 h
    rw [Int64.le_iff_toInt_le, toInt_nextWord (by omega)]
    omega

theorem toInt_max (i j : Int64) : (max i j).toInt = max i.toInt j.toInt := by
  change (if i ≤ j then j else i).toInt = _
  split
  · have := Int64.le_iff_toInt_le.1 ‹_›
    omega
  · have := mt Int64.le_iff_toInt_le.2 ‹_›
    omega

namespace Table

theorem le_advance (next : Int64) (id? : Option Int64) : next ≤ advance next id? := by
  rw [Int64.le_iff_toInt_le]
  cases id? with
  | none => exact Int.le_refl _
  | some id =>
    rw [advance, toInt_max]
    omega

/-- The counter passes the identity that it is told of. -/
theorem lt_advance {next id : Int64} (h : id < Int64.maxValue) : id < advance next (some id) := by
  have hnext := toInt_nextWord (Int64.lt_iff_toInt_lt.1 h)
  rw [Int64.lt_iff_toInt_lt, advance, toInt_max]
  omega

/-! ### Distinct identities -/

/-- The identities of the rows, in storage order. -/
def identities (t : Table) : List Int64 := t.rows.filterMap (identityOf t.identity)

theorem firstRepeated_eq_none_iff (seen ids : List Int64) :
    firstRepeated seen ids = none ↔ ids.Nodup ∧ ∀ id ∈ ids, id ∉ seen := by
  induction ids generalizing seen with
  | nil => simp [firstRepeated]
  | cons id ids ih =>
    rw [firstRepeated]
    by_cases hid : id ∈ seen
    · simp [hid]
    · rw [if_neg (by simpa using hid), ih, List.nodup_cons]
      constructor
      · rintro ⟨hnodup, hfresh⟩
        refine ⟨⟨fun hmem => hfresh id hmem (by simp), hnodup⟩, ?_⟩
        rintro k hk
        obtain rfl | hk := List.mem_cons.1 hk
        · exact hid
        · exact fun hseen => hfresh k hk (by simp [hseen])
      · rintro ⟨⟨hnotin, hnodup⟩, hfresh⟩
        refine ⟨hnodup, fun k hk hmem => ?_⟩
        obtain rfl | hseen := List.mem_cons.1 hmem
        · exact hnotin hk
        · exact hfresh k (by simp [hk]) hseen

/-- The check at the end of a commit passes when the identities are distinct. -/
theorem checkIdentities_eq_ok {t : Table} {field : String} (ht : t.identity = some field) :
    t.checkIdentities = .ok () ↔ t.identities.Nodup := by
  have hnone := firstRepeated_eq_none_iff [] t.identities
  rw [identities, ht] at hnone
  rw [checkIdentities, identities, ht]
  cases hrep : firstRepeated [] (t.rows.filterMap (identityOf (some field))) with
  | none => simpa using (hnone.1 hrep).1
  | some id =>
    rw [hrep] at hnone
    simpa using hnone

/-- The check refuses nothing else, also where no field holds identities. -/
theorem checkIdentities_iff_nodup {t : Table} : t.checkIdentities = .ok () ↔ t.identities.Nodup := by
  cases ht : t.identity with
  | none =>
    have hnone : t.identities = [] := by
      rw [identities, ht]
      exact List.filterMap_eq_nil_iff.2 fun row _ => rfl
    simp [checkIdentities, ht, hnone]
  | some field => exact checkIdentities_eq_ok ht

/-! ### Origins -/

/-- Where a row comes from: it was there, or a write puts it in the place of others, or the counter
has passed its identity since. -/
def Origin (t t' : Table) (batch : WriteBatch) (row : Record) : Prop :=
  row ∈ t.rows ∨ (∃ filter, .replace filter row ∈ batch) ∨
    ∀ id, identityOf t.identity row = some id → id < Int64.maxValue → id < t'.nextIdentity

/-- What a run of writes leaves alone, and where its rows come from. -/
structure Continues (t t' : Table) (batch : WriteBatch) : Prop where
  schema : t'.schema = t.schema
  identity : t'.identity = t.identity
  next : t.nextIdentity ≤ t'.nextIdentity
  origin : ∀ row ∈ t'.rows, Origin t t' batch row

/-- What giving a row an identity can do: nothing where no field holds identities; else the row
keeps the identity that it has, or gets the next one where it has none or zero. -/
theorem identify_cases {identity : Option String} {next next' : Int64} {row stored : Record}
    (h : identify identity next row = .ok (next', stored)) :
    (identity = none ∧ next' = next ∧ stored = row) ∨
    ((identityOf identity row).any (· ≠ 0) = true ∧
      next' = advance next (identityOf identity row) ∧ stored = row) ∨
    ∃ field, identity = some field ∧ (identityOf identity row).any (· ≠ 0) = false ∧
      row.setValue field (.int next) = .ok stored ∧
      next' = advance (nextWord next) (identityOf identity stored) := by
  cases identity with
  | none =>
    cases h
    exact .inl ⟨rfl, rfl, rfl⟩
  | some field =>
    simp only [identify] at h
    split at h
    · rename_i hany
      cases h
      exact .inr (.inl ⟨hany, rfl, rfl⟩)
    · rename_i hany
      split at h
      · rename_i hset
        cases h
        exact .inr (.inr ⟨field, rfl, Bool.eq_false_iff.2 hany, hset, rfl⟩)
      · cases h

theorem passed_of_identify {identity : Option String} {next next' : Int64} {row stored : Record}
    (h : identify identity next row = .ok (next', stored)) :
    next ≤ next' ∧ ∀ id, identityOf identity stored = some id → id < Int64.maxValue →
      id < next' := by
  rcases identify_cases h with ⟨rfl, rfl, rfl⟩ | ⟨-, rfl, rfl⟩ | ⟨field, rfl, -, -, rfl⟩
  · exact ⟨Int64.le_refl _, fun id hid => by cases hid⟩
  · exact ⟨le_advance _ _, fun id hid hmax => by rw [hid]; exact lt_advance hmax⟩
  · exact ⟨Int64.le_trans (le_nextWord next) (le_advance _ _),
      fun id hid hmax => by rw [hid]; exact lt_advance hmax⟩

/-- The counter passes the identities of all rows that it is asked about. -/
theorem passed_of_identifyAll {identity : Option String} {next next' : Int64}
    {rows stored : List Record} (h : identifyAll identity next rows = .ok (next', stored)) :
    next ≤ next' ∧ ∀ row ∈ stored, ∀ id, identityOf identity row = some id →
      id < Int64.maxValue → id < next' := by
  induction rows generalizing next stored with
  | nil =>
    cases h
    exact ⟨Int64.le_refl _, by simp⟩
  | cons row rows ih =>
    obtain ⟨⟨next₁, first⟩, hfirst, h⟩ := bind_eq_ok.1 h
    obtain ⟨⟨next₂, rest⟩, hrest, h⟩ := bind_eq_ok.1 h
    cases h
    obtain ⟨hle, hpassed⟩ := passed_of_identify hfirst
    obtain ⟨hle', hpassed'⟩ := ih hrest
    refine ⟨Int64.le_trans hle hle', ?_⟩
    simp only [List.mem_cons]
    rintro r (rfl | hr) id hid hmax
    · exact Int64.lt_of_lt_of_le (hpassed id hid hmax) hle'
    · exact hpassed' r hr id hid hmax

theorem mem_of_replaceRows {filter : Lambda} {entity row : Record} {rows rows' : List Record}
    {n : Nat} (h : replaceRows filter entity rows = .ok (rows', n)) (hrow : row ∈ rows') :
    row ∈ rows ∨ row = entity := by
  obtain ⟨-, hresult⟩ := replaceRows_eq_ok.1 h
  cases hresult
  obtain ⟨old, hold, rfl⟩ := List.mem_map.1 hrow
  split
  · exact .inr rfl
  · exact .inl hold

theorem mem_of_removeRows {filter : Option Lambda} {row : Record} {rows rows' : List Record}
    {n : Nat} (h : removeRows filter rows = .ok (rows', n)) (hrow : row ∈ rows') :
    row ∈ rows := by
  obtain ⟨-, hresult⟩ := removeRows_eq_ok.1 h
  cases hresult
  exact (List.mem_filter.1 hrow).1

/-- One write. -/
theorem continues_of_apply {t t' : Table} {done done' : Committed} {op : WriteOp}
    (h : t.apply done op = .ok (t', done')) : Continues t t' [op] := by
  cases op with
  | insert entities =>
    obtain ⟨⟨next, stored⟩, hstored, h⟩ := bind_eq_ok.1 h
    cases h
    obtain ⟨hle, hpassed⟩ := passed_of_identifyAll hstored
    refine ⟨rfl, rfl, hle, fun row hrow => ?_⟩
    obtain hrow | hrow := List.mem_append.1 hrow
    · exact .inl hrow
    · exact .inr (.inr (hpassed row hrow))
  | replace filter entity =>
    obtain ⟨⟨rows, n⟩, hrows, h⟩ := bind_eq_ok.1 h
    cases h
    refine ⟨rfl, rfl, Int64.le_refl _, fun row hrow => ?_⟩
    obtain hrow | rfl := mem_of_replaceRows hrows hrow
    · exact .inl hrow
    · exact .inr (.inl ⟨filter, List.mem_singleton_self _⟩)
  | remove filter =>
    obtain ⟨⟨rows, n⟩, hrows, h⟩ := bind_eq_ok.1 h
    cases h
    exact ⟨rfl, rfl, Int64.le_refl _, fun row hrow => .inl (mem_of_removeRows hrows hrow)⟩

/-- No writes at all. -/
theorem Continues.refl (t : Table) : Continues t t [] :=
  ⟨rfl, rfl, Int64.le_refl _, fun _ hrow => .inl hrow⟩

/-- One run of writes after the other. -/
theorem Continues.trans {t₁ t₂ t₃ : Table} {batch batch' : WriteBatch}
    (h : Continues t₁ t₂ batch) (h' : Continues t₂ t₃ batch') :
    Continues t₁ t₃ (batch ++ batch') := by
  refine ⟨h'.schema.trans h.schema, h'.identity.trans h.identity, Int64.le_trans h.next h'.next,
    fun row hrow => ?_⟩
  obtain hold | ⟨filter, hfilter⟩ | hpassed := h'.origin row hrow
  · -- a row that the second run has found was brought by the first, or was there before
    obtain hold | ⟨filter, hfilter⟩ | hpassed := h.origin row hold
    · exact .inl hold
    · exact .inr (.inl ⟨filter, List.mem_append_left _ hfilter⟩)
    · exact .inr (.inr fun id hid hmax => Int64.lt_of_lt_of_le (hpassed id hid hmax) h'.next)
  · exact .inr (.inl ⟨filter, List.mem_append_right _ hfilter⟩)
  · exact .inr (.inr (h.identity ▸ hpassed))

theorem continues_of_applyAll {t t' : Table} {done done' : Committed} {batch : WriteBatch}
    (h : t.applyAll done batch = .ok (t', done')) : Continues t t' batch := by
  refine foldlM_invariant (fun batch (state : Table × Committed) => Continues t state.1 batch)
    (.refl t) ?_ h
  intro before op _ state state' _ hbefore hop
  exact hbefore.trans (continues_of_apply hop)

/-- What it takes to commit. -/
theorem commit_eq_ok {t after : Table} {batch : WriteBatch} {committed : Committed} :
    t.commit batch = .ok (committed, after) ↔
      t.applyAll .nothing batch = .ok (after, committed) ∧ after.checkIdentities = .ok () := by
  unfold commit
  constructor
  · intro h
    obtain ⟨⟨after', committed'⟩, hrun, h⟩ := bind_eq_ok.1 h
    obtain ⟨_, hcheck, h⟩ := bind_eq_ok.1 h
    cases h
    exact ⟨hrun, hcheck⟩
  · rintro ⟨hrun, hcheck⟩
    rw [hrun]
    simp only [bind, Except.bind, hcheck]
    rfl

/-- **A commit continues the table, and leaves its identities distinct.** -/
theorem continues_of_commit {t after : Table} {batch : WriteBatch} {committed : Committed}
    {field : String} (ht : t.identity = some field)
    (h : t.commit batch = .ok (committed, after)) :
    Continues t after batch ∧ after.identities.Nodup := by
  obtain ⟨hrun, hcheck⟩ := commit_eq_ok.1 h
  have hcont := continues_of_applyAll hrun
  exact ⟨hcont, (checkIdentities_eq_ok (hcont.identity.trans ht)).1 hcheck⟩

/-! ### Batches of one write -/

variable {t after : Table} {filter : Option Lambda} {committed : Committed}

/-- A batch of one write. -/
theorem commit_singleton_eq_ok {op : WriteOp} :
    t.commit [op] = .ok (committed, after) ↔
      t.apply .nothing op = .ok (after, committed) ∧ after.identities.Nodup := by
  rw [commit_eq_ok, checkIdentities_iff_nodup, applyAll, List.foldlM_cons]
  cases t.apply .nothing op <;> rfl

theorem commit_replace_eq_ok {filter : Lambda} {entity : Record} :
    t.commit [.replace filter entity] = .ok (committed, after) ↔
      Decides (some filter) t.rows ∧ after.identities.Nodup ∧
      after = { t with
        rows := t.rows.map fun row => if meets (some filter) row then entity else row } ∧
      committed = ⟨[], t.rows.countP (meets (some filter)), 0⟩ := by
  rw [commit_singleton_eq_ok, apply]
  constructor
  · rintro ⟨happly, hdistinct⟩
    obtain ⟨result, hrows, happly⟩ := bind_eq_ok.1 happly
    obtain ⟨hdecides, rfl⟩ := replaceRows_eq_ok.1 hrows
    cases happly
    exact ⟨hdecides, hdistinct, rfl, by simp [Committed.nothing]⟩
  · rintro ⟨hdecides, hdistinct, rfl, rfl⟩
    rw [replaceRows_eq_ok.2 ⟨hdecides, rfl⟩]
    exact ⟨by simp [Committed.nothing, bind, Except.bind, pure, Except.pure], hdistinct⟩

theorem commit_remove_eq_ok :
    t.commit [.remove filter] = .ok (committed, after) ↔
      Decides filter t.rows ∧ after.identities.Nodup ∧
      after = { t with rows := t.rows.filter fun row => !meets filter row } ∧
      committed = ⟨[], 0, t.rows.countP (meets filter)⟩ := by
  rw [commit_singleton_eq_ok, apply]
  constructor
  · rintro ⟨happly, hdistinct⟩
    obtain ⟨result, hrows, happly⟩ := bind_eq_ok.1 happly
    obtain ⟨hdecides, rfl⟩ := removeRows_eq_ok.1 hrows
    cases happly
    exact ⟨hdecides, hdistinct, rfl, by simp [Committed.nothing]⟩
  · rintro ⟨hdecides, hdistinct, rfl, rfl⟩
    rw [removeRows_eq_ok.2 ⟨hdecides, rfl⟩]
    exact ⟨by simp [Committed.nothing, bind, Except.bind, pure, Except.pure], hdistinct⟩

/-! ### Insertions -/

theorem conforms_of_identify {schema : Schema} {identity : Option String} {next next' : Int64}
    {row stored : Record} (h : identify identity next row = .ok (next', stored))
    (hrow : row.Conforms schema) : stored.Conforms schema := by
  rcases identify_cases h with ⟨-, -, rfl⟩ | ⟨-, -, rfl⟩ | ⟨field, -, -, hset, -⟩
  · exact hrow
  · exact hrow
  · exact hrow.setValue hset

theorem conforms_of_identifyAll {schema : Schema} {identity : Option String} {next next' : Int64}
    {rows stored : List Record} (h : identifyAll identity next rows = .ok (next', stored))
    (hrows : ∀ row ∈ rows, row.Conforms schema) : ∀ row ∈ stored, row.Conforms schema := by
  induction rows generalizing next stored with
  | nil => cases h; simp
  | cons row rows ih =>
    obtain ⟨⟨next₁, first⟩, hfirst, h⟩ := bind_eq_ok.1 h
    obtain ⟨⟨next₂, rest⟩, hrest, h⟩ := bind_eq_ok.1 h
    cases h
    have hconf := conforms_of_identify hfirst (hrows row (by simp))
    have hconfs := ih hrest fun r hr => hrows r (by simp [hr])
    intro r hr
    obtain rfl | hr := List.mem_cons.1 hr
    · exact hconf
    · exact hconfs r hr

variable {rows : List Record}

/-- The inserted rows are the given ones with their identities, and stand at the end. -/
theorem after_insert (h : t.commit [.insert rows] = .ok (committed, after)) :
    identifyAll t.identity t.nextIdentity rows = .ok (after.nextIdentity, committed.inserted) ∧
      after.rows = t.rows ++ committed.inserted := by
  obtain ⟨happly, -⟩ := commit_singleton_eq_ok.1 h
  obtain ⟨⟨next, stored⟩, hstored, happly⟩ := bind_eq_ok.1 happly
  cases happly
  exact ⟨hstored, rfl⟩

theorem after_insert_singleton {row : Record}
    (h : t.commit [.insert [row]] = .ok (committed, after)) :
    ∃ stored, identify t.identity t.nextIdentity row = .ok (after.nextIdentity, stored) ∧
      committed.inserted = [stored] ∧ after.rows = t.rows ++ [stored] := by
  obtain ⟨hidentify, hrows⟩ := after_insert h
  obtain ⟨⟨next, stored⟩, hstored, hresult⟩ := bind_eq_ok.1 hidentify
  obtain ⟨rfl, hinserted⟩ := Prod.mk.inj (Except.ok.inj hresult)
  rw [← hinserted] at hrows ⊢
  exact ⟨stored, hstored, rfl, hrows⟩

/-- **Inserted rows conform** where the given ones do. -/
theorem conforms_inserted {schema : Schema} (h : t.commit [.insert rows] = .ok (committed, after))
    (hrows : ∀ row ∈ rows, row.Conforms schema) :
    ∀ row ∈ committed.inserted, row.Conforms schema :=
  conforms_of_identifyAll (after_insert h).1 hrows

end Table

end RecordView
