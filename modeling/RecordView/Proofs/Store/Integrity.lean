import Mathlib.Data.List.Forall2
import Mathlib.Data.List.Nodup
import RecordView.Proofs.Store.Identity
import RecordView.Proofs.Value.Integer

/-!
# Identities beyond the signed words

A field for identities may hold unsigned numbers, and half of these are beyond the signed words in
which a table reads identities.  To the table such a row has no identity (`Table.Oversized`).  So an
insertion overwrites the number that it came with, and the check in the end of a commit does not see
it.

Nothing else goes wrong.  A commit keeps the identities of the rows that it inserts, and leaves all
identities distinct, exactly when no inserted row is oversized and no oversized replacement leaves
its number in several rows (`Table.commit_intact_iff`).  So it always does where the field is signed
or narrow.
-/

namespace RecordView

/-- The rows that a write brings. -/
def WriteOp.rows : WriteOp → List Record
  | .insert entities => entities
  | .replace _ entity => [entity]
  | .remove _ => []

namespace Table

variable {schema : Schema} {field : String} {f : Field} {row stored : Record}

/-! ### Identity numbers -/

/-- The number in the identity field of a row, however great it is. -/
def numberOf (field : String) (row : Record) : Option Int :=
  (row.getValue? field).bind Value.integer?

/-- The numbers in the identity field of rows, in storage order. -/
def numbers (field : String) (rows : List Record) : List Int := rows.filterMap (numberOf field)

/-- How many rows have the number in their identity field. -/
def holders (field : String) (n : Int) (rows : List Record) : Nat :=
  rows.countP fun row => numberOf field row == some n

/-- The number in the identity field is beyond the signed words. -/
def Oversized (field : String) (row : Record) : Prop :=
  ∃ n, numberOf field row = some n ∧ Int64.maxValue.toInt < n

theorem exists_word_or_oversized {n : Int} (h : numberOf field row = some n) :
    (∃ id : Int64, id.toInt = n) ∨ Int64.maxValue.toInt < n := by
  obtain ⟨v, -, hv⟩ := Option.bind_eq_some_iff.1 h
  exact Value.exists_word_or_lt hv

/-- A table reads the number as an identity when it is a signed word. -/
theorem identityOf_eq_some {id : Int64} :
    identityOf (some field) row = some id ↔ numberOf field row = some id.toInt := by
  unfold identityOf numberOf
  rw [Option.bind_some]
  cases row.getValue? field with
  | none => simp
  | some v =>
    cases v with
    | int word => simp [Int64.toInt_inj]
    | uint word => exact Value.int64?_eq_some.trans (by simp [eq_comm])
    | _ => simp [Value.integer?, Value.number?, Number.integer?]

theorem not_oversized_of_identityOf {id : Int64} (h : identityOf (some field) row = some id) :
    ¬ Oversized field row := by
  rintro ⟨n, hn, hlt⟩
  rw [identityOf_eq_some.1 h] at hn
  cases hn
  exact absurd id.toInt_le (by omega)

/-- An oversized row has no identity. -/
theorem Oversized.identityOf_eq_none (h : Oversized field row) :
    identityOf (some field) row = none := by
  rw [Option.eq_none_iff_forall_ne_some]
  exact fun id hid => not_oversized_of_identityOf hid h

/-- Only a wide unsigned field has room for numbers beyond the signed words. -/
theorem not_oversized_of_conforms (hf : schema.field? field = some f)
    (hk : f.type.kind.isInteger = true) (hfits : f.type.kind = .int ∨ f.width = .narrow)
    (hrow : row.Conforms schema) : ¬ Oversized field row := by
  rintro ⟨n, hn, hlt⟩
  obtain ⟨v, hv, hint⟩ := Option.bind_eq_some_iff.1 hn
  obtain ⟨w, hw, hstored⟩ := hrow.exists_value hf (FieldKind.isScalar_of_isInteger hk)
  obtain rfl := Option.some.inj (hv.symm.trans hw)
  obtain ⟨word, rfl, rfl⟩ | ⟨word, rfl, rfl⟩ := Value.integer?_eq_some.1 hint
  · exact absurd word.toInt_le (by omega)
  rcases hfits with hsigned | hnarrow
  · have hkind := Field.hasKind_of_store? hstored
    rw [hsigned] at hkind
    obtain hnull | ⟨i, hi⟩ := Value.hasKind_int_iff.1 hkind
    · cases hnull
    · cases hi
  · have hbound := Field.width_fits_of_store? hstored
    rw [hnarrow] at hbound
    have hle : word.toNat ≤ UInt32.size - 1 := of_decide_eq_true hbound
    have hsize : UInt32.size - 1 < Int64.maxValue.toInt := by decide
    omega

/-- No two rows have one number exactly when every number has one row at most. -/
theorem nodup_numbers_iff {rows : List Record} :
    (numbers field rows).Nodup ↔ ∀ n, holders field n rows ≤ 1 := by
  rw [List.nodup_iff_count_le_one]
  refine forall_congr' fun n => ?_
  rw [numbers, List.count_filterMap]
  rfl

/-- The rows with a signed word as their number are those that a table reads it of. -/
theorem holders_word (id : Int64) (rows : List Record) :
    holders field id.toInt rows = (rows.filterMap (identityOf (some field))).count id := by
  rw [List.count_filterMap, holders]
  refine List.countP_congr fun row _ => ?_
  rw [beq_iff_eq, beq_iff_eq, identityOf_eq_some]

/-- Distinct identities are distinct numbers, but for those beyond the signed words. -/
theorem holders_le_one {rows : List Record} {n : Int}
    (h : (rows.filterMap (identityOf (some field))).Nodup) (hle : n ≤ Int64.maxValue.toInt) :
    holders field n rows ≤ 1 := by
  by_cases hnone : holders field n rows = 0
  · omega
  obtain ⟨row, -, hrow⟩ := List.countP_pos_iff.1 (Nat.pos_of_ne_zero hnone)
  obtain ⟨id, rfl⟩ | hlt := exists_word_or_oversized (eq_of_beq hrow)
  · rw [holders_word]
    exact List.nodup_iff_count_le_one.1 h id
  · omega

/-! ### Insertions -/

/-- What becomes of a row that is inserted: it stays as it is, or gets a word where it had no
identity. -/
inductive Identified (field : String) (row : Record) : Record → Prop
  | kept (identified : ¬ Unidentified field row) : Identified field row row
  | assigned {stored : Record} (unidentified : Unidentified field row) (id : Int64)
    (number : numberOf field stored = some id.toInt) : Identified field row stored

/-- The row is stored with the identity that it came with, if that is neither null nor zero. -/
def Keeps (field : String) (row stored : Record) : Prop :=
  ∀ v, row.getValue? field = some v → v ≠ .null → v.integer? ≠ some 0 →
    stored.getValue? field = some v

theorem identified_of_identify (hf : schema.field? field = some f)
    (hk : f.type.kind.isInteger = true) (hrow : row.Conforms schema) {next next' : Int64}
    (h : identify (some field) next row = .ok (next', stored)) : Identified field row stored := by
  rcases identify_cases h with ⟨hnone, -⟩ | ⟨hany, -, rfl⟩ | ⟨_, ⟨⟩, hany, hset, -⟩
  · cases hnone
  · refine .kept fun hun => ?_
    rw [unidentified_iff.1 hun] at hany
    cases hany
  · -- the number that is written is the number of the row then, converted or not
    obtain ⟨w, hread, hw⟩ := Record.getValue?_setValue hrow hf hset
    have hint := Value.integer?_of_cast hk (Value.integer?_int next) (Field.cast_of_store? hw)
    exact .assigned (unidentified_iff.2 hany) next
      (by rw [numberOf, hread, Option.bind_some, hint])

theorem identified_of_identifyAll (hf : schema.field? field = some f)
    (hk : f.type.kind.isInteger = true) {rows stored : List Record}
    (hrows : ∀ row ∈ rows, row.Conforms schema) {next next' : Int64}
    (h : identifyAll (some field) next rows = .ok (next', stored)) :
    List.Forall₂ (Identified field) rows stored := by
  induction rows generalizing next stored with
  | nil => cases h; exact .nil
  | cons row rows ih =>
    obtain ⟨⟨next₁, first⟩, hfirst, h⟩ := bind_eq_ok.1 h
    obtain ⟨⟨next₂, rest⟩, hrest, h⟩ := bind_eq_ok.1 h
    cases h
    exact .cons (identified_of_identify hf hk (hrows row (by simp)) hfirst)
      (ih (fun r hr => hrows r (by simp [hr])) hrest)

/-- No row is oversized once it was inserted. -/
theorem Identified.not_oversized (h : Identified field row stored) : ¬ Oversized field stored := by
  cases h with
  | kept identified =>
    intro hover
    exact identified (.inl hover.identityOf_eq_none)
  | assigned _ id number => exact not_oversized_of_identityOf (identityOf_eq_some.2 number)

/-- **An inserted row keeps its identity exactly when it is not oversized.** -/
theorem Identified.keeps_iff (hf : schema.field? field = some f)
    (hk : f.type.kind.isInteger = true) (hrow : row.Conforms schema)
    (h : Identified field row stored) : Keeps field row stored ↔ ¬ Oversized field row := by
  constructor
  · rintro hkeeps ⟨n, hn, hlt⟩
    obtain ⟨v, hv, hint⟩ := Option.bind_eq_some_iff.1 hn
    have hmax : 0 < Int64.maxValue.toInt := by decide
    have hread := hkeeps v hv (by rintro rfl; cases hint) (by rw [hint]; simp; omega)
    exact h.not_oversized ⟨n, by rw [numberOf, hread, Option.bind_some, hint], hlt⟩
  · intro hover v hv hnull hzero
    cases h with
    | kept => exact hv
    | assigned unidentified =>
      obtain ⟨w, hw, hstored⟩ := hrow.exists_value hf (FieldKind.isScalar_of_isInteger hk)
      obtain rfl := Option.some.inj (hv.symm.trans hw)
      obtain rfl | ⟨n, hn⟩ := (Field.hasKind_of_store? hstored).eq_null_or_integer hk
      · exact absurd rfl hnull
      have hnumber : numberOf field row = some n := by rw [numberOf, hv, Option.bind_some, hn]
      obtain ⟨id, rfl⟩ | hlt := exists_word_or_oversized hnumber
      · obtain hnone | hid := unidentified
        · rw [identityOf_eq_some.2 hnumber] at hnone
          cases hnone
        · rw [identityOf_eq_some.1 hid] at hnumber
          rw [hn, ← Option.some.inj hnumber] at hzero
          exact absurd rfl hzero
      · exact absurd ⟨n, hnumber, hlt⟩ hover

/-- Inserted rows keep their identities exactly when none is oversized. -/
theorem forall_keeps_iff (hf : schema.field? field = some f) (hk : f.type.kind.isInteger = true)
    {rows stored : List Record} (hrows : ∀ row ∈ rows, row.Conforms schema)
    (h : List.Forall₂ (Identified field) rows stored) :
    List.Forall₂ (Keeps field) rows stored ↔ ∀ row ∈ rows, ¬ Oversized field row := by
  induction h with
  | nil => simp
  | @cons row first rows rest hfirst hrest ih =>
    rw [List.forall_mem_cons] at hrows ⊢
    rw [List.forall₂_cons, ih hrows.2, hfirst.keeps_iff hf hk hrows.1]

/-! ### Numbers beyond the signed words -/

theorem holders_append (n : Int) (rows rows' : List Record) :
    holders field n (rows ++ rows') = holders field n rows + holders field n rows' :=
  List.countP_append

/-- Inserted rows bring no number beyond the signed words. -/
theorem holders_inserted {rows stored : List Record}
    (h : List.Forall₂ (Identified field) rows stored) {n : Int} (hn : Int64.maxValue.toInt < n) :
    holders field n stored = 0 := by
  induction h with
  | nil => rfl
  | @cons row first rows rest hfirst hrest ih =>
    have hne : ¬ (numberOf field first == some n) = true := fun heq =>
      hfirst.not_oversized ⟨n, eq_of_beq heq, hn⟩
    rw [holders, List.countP_cons, if_neg hne]
    exact ih

theorem holders_of_replaceRows {filter : Lambda} {entity : Record} {rows rows' : List Record}
    {count : Nat} {n : Int} (h : replaceRows filter entity rows = .ok (rows', count))
    (hentity : numberOf field entity ≠ some n) : holders field n rows' ≤ holders field n rows := by
  obtain ⟨-, hresult⟩ := replaceRows_eq_ok.1 h
  cases hresult
  rw [holders, List.countP_map]
  refine List.countP_mono_left fun row _ hrow => ?_
  rw [Function.comp_apply] at hrow
  split at hrow
  · exact absurd (eq_of_beq hrow) hentity
  · exact hrow

theorem holders_of_removeRows {filter : Option Lambda} {rows rows' : List Record} {count : Nat}
    {n : Int} (h : removeRows filter rows = .ok (rows', count)) :
    holders field n rows' ≤ holders field n rows := by
  obtain ⟨-, hresult⟩ := removeRows_eq_ok.1 h
  cases hresult
  exact List.Sublist.countP_le List.filter_sublist

/-! ### Runs of writes -/

/-- What a run of writes makes of identities: how the rows that it inserts get theirs, where the
rows of the table come from, and that only replacements bring more rows with a number beyond the
signed words. -/
structure Carries (field : String) (t : Table) (batch : WriteBatch) (t' : Table)
    (done : Committed) : Prop where
  identity : t'.identity = some field
  inserted : List.Forall₂ (Identified field) (insertions batch) done.inserted
  origin : ∀ row ∈ t'.rows, row ∈ t.rows ∨ (∃ filter, .replace filter row ∈ batch) ∨
    row ∈ done.inserted
  holders : ∀ n, Int64.maxValue.toInt < n →
    (∀ filter entity, .replace filter entity ∈ batch → numberOf field entity ≠ some n) →
    holders field n t'.rows ≤ holders field n t.rows

variable {t t' after : Table} {batch : WriteBatch} {done done' committed : Committed}

/-- No writes at all. -/
theorem Carries.refl (ht : t.identity = some field) : Carries field t [] t .nothing :=
  ⟨ht, .nil, fun _ hrow => .inl hrow, fun _ _ _ => Nat.le_refl _⟩

/-- One more write. -/
theorem Carries.apply (hf : schema.field? field = some f) (hk : f.type.kind.isInteger = true)
    (h : Carries field t batch t' done) {op : WriteOp}
    (hop : ∀ row ∈ op.rows, row.Conforms schema) {t'' : Table}
    (happly : t'.apply done op = .ok (t'', done')) : Carries field t (batch ++ [op]) t'' done' := by
  obtain ⟨hidentity, hinserted, horigin, hholders⟩ := h
  -- what the run has found or brought so far is still accounted for
  have hbefore : ∀ row ∈ t'.rows, row ∈ t.rows ∨
      (∃ filter, .replace filter row ∈ batch ++ [op]) ∨ row ∈ done.inserted := by
    intro row hrow
    refine (horigin row hrow).imp_right (.imp_left ?_)
    exact fun ⟨filter, hfilter⟩ => ⟨filter, List.mem_append_left _ hfilter⟩
  have hbound : ∀ n, Int64.maxValue.toInt < n →
      (∀ filter entity, .replace filter entity ∈ batch ++ [op] → numberOf field entity ≠ some n) →
      Table.holders field n t'.rows ≤ Table.holders field n t.rows := by
    intro n hn hreplaced
    exact hholders n hn fun filter entity hmem =>
      hreplaced filter entity (List.mem_append_left _ hmem)
  cases op with
  | insert entities =>
    obtain ⟨⟨next, stored⟩, hstored, happly⟩ := bind_eq_ok.1 happly
    cases happly
    rw [hidentity] at hstored
    have hids := identified_of_identifyAll hf hk hop hstored
    refine ⟨hidentity, ?_, ?_, ?_⟩
    · rw [insertions_append]
      exact List.rel_append hinserted (by simpa [insertions, WriteOp.rows] using hids)
    · intro row hrow
      obtain hrow | hrow := List.mem_append.1 hrow
      · exact (hbefore row hrow).imp_right (.imp_right (List.mem_append_left _))
      · exact .inr (.inr (List.mem_append_right _ hrow))
    · intro n hn hreplaced
      rw [holders_append, holders_inserted hids hn, Nat.add_zero]
      exact hbound n hn hreplaced
  | replace filter entity =>
    obtain ⟨⟨rows, n⟩, hrows, happly⟩ := bind_eq_ok.1 happly
    cases happly
    refine ⟨hidentity, by simpa [insertions_append, insertions] using hinserted, ?_, ?_⟩
    · intro row hrow
      obtain hrow | rfl := mem_of_replaceRows hrows hrow
      · exact hbefore row hrow
      · exact .inr (.inl ⟨filter, by simp⟩)
    · intro n hn hreplaced
      exact Nat.le_trans (holders_of_replaceRows hrows (hreplaced filter entity (by simp)))
        (hbound n hn hreplaced)
  | remove filter =>
    obtain ⟨⟨rows, n⟩, hrows, happly⟩ := bind_eq_ok.1 happly
    cases happly
    refine ⟨hidentity, by simpa [insertions_append, insertions] using hinserted, ?_, ?_⟩
    · exact fun row hrow => hbefore row (mem_of_removeRows hrows hrow)
    · intro n hn hreplaced
      exact Nat.le_trans (holders_of_removeRows hrows) (hbound n hn hreplaced)

theorem carries_of_applyAll (hf : schema.field? field = some f)
    (hk : f.type.kind.isInteger = true) (ht : t.identity = some field)
    (hbatch : ∀ op ∈ batch, ∀ row ∈ op.rows, row.Conforms schema)
    (h : t.applyAll .nothing batch = .ok (t', done)) : Carries field t batch t' done := by
  refine foldlM_invariant
    (fun batch (state : Table × Committed) => Carries field t batch state.1 state.2)
    (.refl ht) ?_ h
  intro before op rest state state' hsplit hbefore hop
  exact hbefore.apply hf hk (hbatch op (by simp [← hsplit])) hop

/-! ### Commits -/

/-- The identities are as they should be after a commit: inserted rows have kept theirs, and no two
rows have the same one. -/
structure Intact (field : String) (batch : WriteBatch) (committed : Committed) (after : Table) :
    Prop where
  kept : List.Forall₂ (Keeps field) (insertions batch) committed.inserted
  distinct : (numbers field after.rows).Nodup

theorem conforms_of_mem_insertions (hbatch : ∀ op ∈ batch, ∀ row ∈ op.rows, row.Conforms schema) :
    ∀ row ∈ insertions batch, row.Conforms schema := by
  intro row hrow
  obtain ⟨op, hop, hrow⟩ := List.mem_flatMap.1 hrow
  cases op with
  | insert entities => exact hbatch _ hop row hrow
  | replace | remove => cases hrow

/-- Where identities are distinct before and after, only the numbers of oversized replacements may
be in several rows. -/
theorem Carries.nodup_numbers_iff (h : Carries field t batch t' done)
    (hdistinct : (numbers field t.rows).Nodup) (hids : t'.identities.Nodup) :
    (numbers field t'.rows).Nodup ↔ ∀ filter entity n, .replace filter entity ∈ batch →
      numberOf field entity = some n → Int64.maxValue.toInt < n →
        Table.holders field n t'.rows ≤ 1 := by
  constructor
  · intro hnodup _ _ n _ _ _
    exact Table.nodup_numbers_iff.1 hnodup n
  · intro hreplaced
    refine Table.nodup_numbers_iff.2 fun n => ?_
    by_cases hn : Int64.maxValue.toInt < n
    · by_cases hbrought : ∃ filter entity, .replace filter entity ∈ batch ∧
          numberOf field entity = some n
      · obtain ⟨filter, entity, hmem, hnumber⟩ := hbrought
        exact hreplaced filter entity n hmem hnumber hn
      · push Not at hbrought
        exact Nat.le_trans (h.holders n hn hbrought) (Table.nodup_numbers_iff.1 hdistinct n)
    · rw [identities, h.identity] at hids
      exact holders_le_one hids (Int.not_lt.1 hn)

/-- **A commit leaves identities intact exactly when no inserted row is oversized and no oversized
replacement leaves its number in several rows**, so always where the identity field is signed or
narrow.  The rows that it leaves were there, or are those of its replacements, or are reported as
inserted. -/
theorem commit_intact_iff (hf : schema.field? field = some f)
    (hk : f.type.kind.isInteger = true) (ht : t.identity = some field)
    (hdistinct : (numbers field t.rows).Nodup)
    (hbatch : ∀ op ∈ batch, ∀ row ∈ op.rows, row.Conforms schema)
    (h : t.commit batch = .ok (committed, after)) :
    (Intact field batch committed after ↔
      (∀ row ∈ insertions batch, ¬ Oversized field row) ∧
        ∀ filter entity n, .replace filter entity ∈ batch → numberOf field entity = some n →
          Int64.maxValue.toInt < n → holders field n after.rows ≤ 1) ∧
    (f.type.kind = .int ∨ f.width = .narrow → Intact field batch committed after) ∧
    ∀ row ∈ after.rows, row ∈ t.rows ∨ (∃ filter, .replace filter row ∈ batch) ∨
      row ∈ committed.inserted := by
  obtain ⟨hrun, -⟩ := commit_eq_ok.1 h
  have hcarries := carries_of_applyAll hf hk ht hbatch hrun
  have hinsertions := conforms_of_mem_insertions hbatch
  have hkept := forall_keeps_iff hf hk hinsertions hcarries.inserted
  have hnodup := hcarries.nodup_numbers_iff hdistinct (continues_of_commit ht h).2
  have hiff : Intact field batch committed after ↔
      (∀ row ∈ insertions batch, ¬ Oversized field row) ∧
        ∀ filter entity n, .replace filter entity ∈ batch → numberOf field entity = some n →
          Int64.maxValue.toInt < n → holders field n after.rows ≤ 1 :=
    ⟨fun hintact => ⟨hkept.1 hintact.kept, hnodup.1 hintact.distinct⟩,
      fun hsmall => ⟨hkept.2 hsmall.1, hnodup.2 hsmall.2⟩⟩
  refine ⟨hiff, fun hfits => hiff.2 ⟨fun row hrow => ?_, ?_⟩, hcarries.origin⟩
  · exact not_oversized_of_conforms hf hk hfits (hinsertions row hrow)
  · intro filter entity n hmem hnumber hn
    have hentity := hbatch _ hmem entity (List.mem_singleton_self entity)
    exact absurd ⟨n, hnumber, hn⟩ (not_oversized_of_conforms hf hk hfits hentity)

end Table

/-! ### Accounts -/

namespace Sample

open Table

/-- An account with a number, everything else as in a new one. -/
def numbered (uid : UInt64) : Record := account.default.setCell "uid" (.value (.uint uid))

/-- Accounts that are identified by their numbers. -/
def accounts (uids : List UInt64) (next : Int64) : Table :=
  ⟨account, some "uid", uids.map numbered, next⟩

/-- Replaces all accounts by one with another number. -/
def renumber (uid : UInt64) : WriteOp :=
  .replace (.over account fun _ => .constant (.bool true)) (numbered uid)

theorem numbered_conforms (uid : UInt64) : (numbered uid).Conforms account :=
  account.default_conforms.setCell rfl (.value rfl (by
    simp [Field.store?, req, FieldType.required, Value.isNull, Value.cast, Width.fits_wide]))

/-- A replacement by an account with an unsigned number beyond the signed words, and insertions of
an account without number and of one with the greatest signed word. -/
def renumberAndAdd : WriteBatch :=
  [renumber 18446744073709551615, .insert [numbered 0, numbered 9223372036854775807]]

theorem renumberAndAdd_intact :
    (accounts [4] 5).commit renumberAndAdd =
        .ok (⟨[numbered 5, numbered 9223372036854775807], 1, 0⟩,
          accounts [18446744073709551615, 5, 9223372036854775807] Int64.maxValue) ∧
      Intact "uid" renumberAndAdd ⟨[numbered 5, numbered 9223372036854775807], 1, 0⟩
        (accounts [18446744073709551615, 5, 9223372036854775807] Int64.maxValue) := by
  have hcommit : (accounts [4] 5).commit renumberAndAdd =
      .ok (⟨[numbered 5, numbered 9223372036854775807], 1, 0⟩,
        accounts [18446744073709551615, 5, 9223372036854775807] Int64.maxValue) := rfl
  have hdistinct : (numbers "uid" (accounts [4] 5).rows).Nodup := List.nodup_singleton 4
  have hbatch : ∀ op ∈ renumberAndAdd, ∀ row ∈ op.rows, row.Conforms account := by
    simp [renumberAndAdd, renumber, WriteOp.rows, numbered_conforms]
  have hzero : identityOf (some "uid") (numbered 0) = some 0 := rfl
  have hgreatest : identityOf (some "uid") (numbered 9223372036854775807) =
      some 9223372036854775807 := rfl
  refine ⟨hcommit, (commit_intact_iff rfl rfl rfl hdistinct hbatch hcommit).1.2 ⟨?_, ?_⟩⟩
  · intro row hrow
    obtain rfl | rfl : row = numbered 0 ∨ row = numbered 9223372036854775807 := by
      simpa [insertions, renumberAndAdd, renumber] using hrow
    · exact not_oversized_of_identityOf hzero
    · exact not_oversized_of_identityOf hgreatest
  · intro filter entity n hmem hnumber _
    obtain ⟨rfl, rfl⟩ : filter = .over account (fun _ => .constant (.bool true)) ∧
        entity = numbered 18446744073709551615 := by
      simpa [renumberAndAdd, renumber] using hmem
    cases hnumber
    exact Nat.le_refl 1

/-- An account with an unsigned number beyond the signed words is stored with another number, and
several accounts are replaced by one with such a number. -/
theorem oversized_not_intact :
    ((accounts [] 1).commit [.insert [numbered 9223372036854775808]] =
        .ok (⟨[numbered 1], 0, 0⟩, accounts [1] 2) ∧
      ¬ Intact "uid" [.insert [numbered 9223372036854775808]] ⟨[numbered 1], 0, 0⟩
        (accounts [1] 2)) ∧
    (accounts [1, 2] 3).commit [renumber 9223372036854775808] =
        .ok (⟨[], 2, 0⟩, accounts [9223372036854775808, 9223372036854775808] 3) ∧
      ¬ Intact "uid" [renumber 9223372036854775808] ⟨[], 2, 0⟩
        (accounts [9223372036854775808, 9223372036854775808] 3) := by
  refine ⟨⟨rfl, fun h => ?_⟩, rfl, fun h => ?_⟩
  · have hkeeps : Keeps "uid" (numbered 9223372036854775808) (numbered 1) :=
      (List.forall₂_cons.1 h.kept).1
    have hread := hkeeps (.uint 9223372036854775808) rfl (nomatch ·) (by decide)
    exact absurd (Value.uint.inj (Option.some.inj hread)) (by decide)
  · have hnodup : [(9223372036854775808 : Int), 9223372036854775808].Nodup := h.distinct
    exact absurd hnodup (by decide)

end Sample

end RecordView
