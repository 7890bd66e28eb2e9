import RecordView.Mapping.Path
import RecordView.Proofs.Record.Conformance

/-!
# Reading and writing through field paths

`FieldPath.Leads` describes a resolved path without the names it was resolved from: every hop is a
field with a nested record, and the next segment is a field of the nested schema.  Resolution
yields such paths (`FieldPath.ofNames_eq_ok`), and a root and the names determine the path
(`FieldPath.Resolved.ext`).

On records of the root schema a write through a resolved path

* keeps conformance (`FieldPath.Resolved.conforms_write`);
* is read back as the leaf stores it (`FieldPath.Resolved.store?_write_self`), which is the value
  converted to the kind of the leaf (`FieldPath.Resolved.read_write_self`);
* opens the paths through the records on its way, so that none of these is absent afterwards, and no
  other path (`FieldPath.Resolved.isOpen_write_iff`);
* leaves every other path alone that was open before (`FieldPath.Resolved.read_write_of_ne`), and a
  path that it opens reads what a default record holds there
  (`FieldPath.Resolved.read_write_opened`).

Both of the last two are cases of `FieldPath.readFrom_writeFrom_frame`, which says of every path what
it reads afterwards, from the records that it shares with the written one.

A write succeeds when the leaf stores the value (`FieldPath.Resolved.write_ok`), and what is read is
null, because a record on the way may be absent, or a value that the leaf stores
(`FieldPath.Resolved.stored_read`).
-/

namespace RecordView

/-- The value that the field of the segment holds after `v` is written to it. -/
def PathSegment.store? (p : PathSegment) (v : Value) : Option Value :=
  (p.owner.field? p.name).bind (·.store? v)

/-- What the field of the segment holds in a default record. -/
def PathSegment.initial (p : PathSegment) : Value := .ofOption (p.owner.default.getValue? p.name)

namespace FieldPath

/-! ### Resolved paths -/

/-- The segments follow the fields from a schema on: nested records, and a field at the end. -/
inductive Leads : Schema → List PathSegment → PathSegment → Prop
  | leaf {owner : Schema} {name : String} {f : Field} (field : owner.field? name = some f) :
    Leads owner [] ⟨name, owner, f.type⟩
  | hop {owner nested : Schema} {name : String} {f : Field} {hops : List PathSegment}
    {leaf : PathSegment} (field : owner.field? name = some f)
    (kind : f.type.kind = .record nested) (rest : Leads nested hops leaf) :
    Leads owner (⟨name, owner, f.type⟩ :: hops) leaf

/-- The names of a chain of segments, the leaf last. -/
def namesOf (hops : List PathSegment) (leaf : PathSegment) : List String :=
  (hops ++ [leaf]).map (·.name)

/-- Every segment of the path is the field that the one before it leads to. -/
def Resolved (p : FieldPath) : Prop := Leads p.root p.hops p.leaf

theorem leads_of_resolveNames {owner : Schema} {whole names : List String}
    {hops : List PathSegment} {leaf : PathSegment}
    (h : resolveNames owner whole names = .ok (hops, leaf)) :
    Leads owner hops leaf ∧ namesOf hops leaf = names := by
  induction names generalizing owner hops with
  | nil => cases h
  | cons name rest ih =>
    cases rest with
    | nil =>
      simp only [resolveNames] at h
      split at h
      · cases h
      · rename_i f hf
        cases h
        rw [Schema.name_of_field? hf]
        exact ⟨.leaf hf, rfl⟩
    | cons next rest =>
      simp only [resolveNames] at h
      split at h
      · cases h
      · rename_i f hf
        split at h
        · cases h
        · rename_i nested hn
          have hkind : f.type.kind = .record nested := by
            unfold FieldType.recordSchema? at hn
            split at hn
            · cases hn; assumption
            · cases hn
          cases hr : resolveNames nested whole (next :: rest) with
          | error e => rw [hr] at h; cases h
          | ok found =>
            rw [hr] at h
            cases h
            obtain ⟨hleads, hnames⟩ := ih hr
            rw [Schema.name_of_field? hf]
            refine ⟨.hop hf hkind hleads, ?_⟩
            simpa [namesOf] using hnames

theorem resolveNames_of_leads {owner : Schema} {hops : List PathSegment} {leaf : PathSegment}
    (h : Leads owner hops leaf) (whole : List String) :
    resolveNames owner whole (namesOf hops leaf) = .ok (hops, leaf) := by
  induction h with
  | leaf hf => simp [namesOf, resolveNames, hf, Schema.name_of_field? hf]
  | @hop owner nested name f hops leaf hf hkind rest ih =>
    -- the names after a hop are not empty, so resolution goes on
    obtain ⟨next, others, hcons⟩ : ∃ next others, namesOf hops leaf = next :: others := by
      cases hops with
      | nil => exact ⟨_, _, rfl⟩
      | cons hop hops => exact ⟨_, _, rfl⟩
    have hnames : namesOf (⟨name, owner, f.type⟩ :: hops) leaf = name :: next :: others := by
      rw [← hcons]; rfl
    rw [hnames, resolveNames]
    · rw [hcons] at ih
      simp only [hf, FieldType.recordSchema?, hkind, ih, Schema.name_of_field? hf]
      rfl
    · simp

theorem ofNames_eq_ok {root : Schema} {names : List String} {p : FieldPath}
    (h : ofNames root names = .ok p) : p.root = root ∧ p.Resolved ∧ p.names = names := by
  unfold ofNames at h
  cases hr : resolveNames root names names with
  | error e => rw [hr] at h; cases h
  | ok found =>
    obtain ⟨hops, leaf⟩ := found
    rw [hr] at h
    cases h
    obtain ⟨hleads, hnames⟩ := leads_of_resolveNames hr
    exact ⟨rfl, hleads, hnames⟩

/-- A selector picks the path of its names on its schema. -/
theorem resolve_eq_ok_iff {f : Lambda} {p : FieldPath} : resolve f = .ok p ↔
    f.fieldChain? = some p.names ∧ ofNames f.param.schema p.names = .ok p := by
  constructor
  · intro h
    unfold resolve at h
    split at h
    · rename_i names hchain
      obtain ⟨-, -, rfl⟩ := ofNames_eq_ok h
      exact ⟨hchain, h⟩
    · cases h
  · rintro ⟨hchain, h⟩
    rw [resolve, hchain]
    exact h

/-- The root and the names determine a resolved path. -/
theorem Resolved.ext {p q : FieldPath} (hp : p.Resolved) (hq : q.Resolved)
    (hroot : p.root = q.root) (hnames : p.names = q.names) : p = q := by
  obtain ⟨root, hops, leaf⟩ := p
  obtain ⟨root', hops', leaf'⟩ := q
  obtain rfl : root = root' := hroot
  have hp' := resolveNames_of_leads (show Leads root hops leaf from hp) []
  have hq' := resolveNames_of_leads (show Leads root hops' leaf' from hq) []
  rw [show namesOf hops leaf = namesOf hops' leaf' from hnames, hq'] at hp'
  cases hp'
  rfl

/-! ### One write -/

variable {s : Schema} {hops hops' : List PathSegment} {leaf leaf' : PathSegment} {r : Record}
  {v : Value}

/-- No record on the way is absent. -/
def OpenAlong : List PathSegment → Record → Prop
  | [], _ => True
  | hop :: hops, r => ∃ nested, r.getRecord? hop.name = some nested ∧ OpenAlong hops nested

/-- A write through a hop is a write to the nested record, or to the default one in its place. -/
theorem writeFrom_hop {nested : Schema} {name : String} {f : Field} (h : r.Conforms s)
    (hf : s.field? name = some f) (hn : f.type.kind = .record nested) :
    writeFrom leaf v (⟨name, s, f.type⟩ :: hops) r =
      ((writeFrom leaf v hops ((r.getRecord? name).getD nested.default)).1,
        r.setRecord name
          (some (writeFrom leaf v hops ((r.getRecord? name).getD nested.default)).2)) := by
  simp only [writeFrom, (h.getOrDefault? hf hn).1]

/-- A write to the leaf changes its cell, or nothing where the leaf refuses the value. -/
theorem writeFrom_leaf (leaf : PathSegment) (v : Value) (r : Record) :
    (∃ r', r.setValue leaf.name v = .ok r' ∧ writeFrom leaf v [] r = (.ok (), r')) ∨
      ∃ e, writeFrom leaf v [] r = (.error e, r) := by
  cases hw : r.setValue leaf.name v with
  | ok r' => exact .inl ⟨r', rfl, by simp [writeFrom, hw]⟩
  | error e => exact .inr ⟨e, by simp [writeFrom, hw]⟩

theorem conforms_writeFrom (h : r.Conforms s) (hp : Leads s hops leaf) :
    (writeFrom leaf v hops r).2.Conforms s := by
  induction hp generalizing r with
  | @leaf owner name f hf =>
    obtain ⟨r', hw, heq⟩ | ⟨e, heq⟩ := writeFrom_leaf ⟨name, owner, f.type⟩ v r
    · rw [heq]; exact h.setValue hw
    · rw [heq]; exact h
  | @hop owner nested name f hops leaf hf hn rest ih =>
    rw [writeFrom_hop h hf hn]
    exact h.setRecord hf hn (ih (h.getOrDefault? hf hn).2)

/-- In a default record only its own fields are open. -/
theorem openAlong_default : OpenAlong hops s.default ↔ hops = [] := by
  cases hops with
  | nil => simp [OpenAlong]
  | cons hop hops => simp [OpenAlong, s.getRecord?_default]

/-- **A write opens the paths through the records on its own way, and no others**, even where the
leaf refuses the value. -/
theorem openAlong_writeFrom_iff (h : r.Conforms s) (hp : Leads s hops leaf)
    (hq : Leads s hops' leaf') :
    OpenAlong hops' (writeFrom leaf v hops r).2 ↔
      OpenAlong hops' r ∨ hops'.map (·.name) <+: hops.map (·.name) := by
  induction hp generalizing r hops' leaf' with
  | @leaf owner name f hf =>
    cases hq with
    | leaf => simp [OpenAlong]
    | @hop _ _ name' f' _ _ hf' hn' rest' =>
      have hsame : (writeFrom ⟨name, owner, f.type⟩ v [] r).2.getRecord? name' =
          r.getRecord? name' := by
        obtain ⟨r', hw, heq⟩ | ⟨e, heq⟩ := writeFrom_leaf ⟨name, owner, f.type⟩ v r
        · rw [heq]
          exact Record.getRecord?_setValue h hf' hn' hw
        · rw [heq]
      simp [OpenAlong, hsame]
  | @hop owner nested name f hops leaf hf hn rest ih =>
    rw [writeFrom_hop h hf hn]
    cases hq with
    | leaf => simp [OpenAlong]
    | @hop _ nested' name' f' hops' _ hf' hn' rest' =>
      by_cases hname : name' = name
      · subst hname
        obtain rfl : f = f' := Option.some.inj (hf.symm.trans hf')
        obtain rfl : nested = nested' := FieldKind.record.inj (hn.symm.trans hn')
        have hbelow := ih (h.getOrDefault? hf hn).2 rest'
        simp only [OpenAlong, h.getRecord?_setRecord hf, Option.some.injEq, exists_eq_left',
          hbelow, List.map_cons, List.cons_prefix_cons, true_and]
        cases r.getRecord? name' with
        | some n => simp
        | none =>
          -- the default record in the place of the absent one opens nothing by itself
          rw [Option.getD_none, openAlong_default]
          constructor
          · rintro (rfl | hway)
            · exact .inr List.nil_prefix
            · exact .inr hway
          · rintro (⟨n, hn, -⟩ | hway)
            · cases hn
            · exact .inr hway
      · simp [OpenAlong, Record.getRecord?_setRecord_of_ne hname, hname]

/-- What was written is read back as the leaf stores it. -/
theorem store?_writeFrom_self (h : r.Conforms s) (hp : Leads s hops leaf)
    (hw : (writeFrom leaf v hops r).1 = .ok ()) :
    leaf.store? v = some (readFrom leaf hops (writeFrom leaf v hops r).2) := by
  induction hp generalizing r with
  | @leaf owner name f hf =>
    obtain ⟨r', hset, heq⟩ | ⟨e, heq⟩ := writeFrom_leaf ⟨name, owner, f.type⟩ v r
    · obtain ⟨w, hread, hstore⟩ := Record.getValue?_setValue h hf hset
      rw [heq]
      simpa only [readFrom, hread, Value.ofOption, Option.getD_some, PathSegment.store?, hf,
        Option.bind_some] using hstore
    · rw [heq] at hw; cases hw
  | @hop owner nested name f hops leaf hf hn rest ih =>
    rw [writeFrom_hop h hf hn] at hw ⊢
    simp only [readFrom, h.getRecord?_setRecord hf]
    exact ih (h.getOrDefault? hf hn).2 hw

/-- A leaf stores a value as its conversion to the kind of the leaf. -/
theorem Leads.cast_of_store? (hp : Leads s hops leaf) {w : Value} (h : leaf.store? v = some w) :
    v.cast leaf.type.kind = some w := by
  induction hp with
  | leaf hf =>
    rw [PathSegment.store?, hf, Option.bind_some] at h
    exact Field.cast_of_store? h
  | hop _ _ _ ih => exact ih h

/-- A value is written that the leaf stores. -/
theorem writeFrom_ok (h : r.Conforms s) (hp : Leads s hops leaf)
    (hs : leaf.type.kind.isScalar = true) (hv : (leaf.store? v).isSome = true) :
    (writeFrom leaf v hops r).1 = .ok () := by
  induction hp generalizing r with
  | @leaf owner name f hf =>
    obtain ⟨w, hw⟩ := Option.isSome_iff_exists.1 hv
    simp only [PathSegment.store?, hf, Option.bind_some] at hw
    have hset := (Record.setValue_eq_ok h.schema_eq hf).2 ⟨hs, w, hw, rfl⟩
    simp only [writeFrom, hset]
  | @hop owner nested name f hops leaf hf hn rest ih =>
    rw [writeFrom_hop h hf hn]
    exact ih (h.getOrDefault? hf hn).2 hs hv

/-- What is read is a value that the leaf stores, or null because a record on the way is absent. -/
theorem stored_readFrom (h : r.Conforms s) (hp : Leads s hops leaf)
    (hs : leaf.type.kind.isScalar = true) :
    (hops ≠ [] ∧ readFrom leaf hops r = .null) ∨
      leaf.store? (readFrom leaf hops r) = some (readFrom leaf hops r) := by
  induction hp generalizing r with
  | @leaf owner name f hf =>
    obtain ⟨w, hread, hstore⟩ := h.exists_value hf hs
    right
    simpa only [readFrom, hread, Value.ofOption, Option.getD_some, PathSegment.store?, hf,
      Option.bind_some] using hstore
  | @hop owner nested name f hops leaf hf hn rest ih =>
    cases hr : r.getRecord? name with
    | none => exact .inl ⟨by simp, by simp only [readFrom, hr]⟩
    | some n =>
      simp only [readFrom, hr]
      exact (ih (h.getRecord? hf hn hr) hs).imp_left fun hnull => ⟨by simp, hnull.2⟩

/-! ### The frame of a write -/

/-- The hops of the second path that it shares with the first one, from the root on. -/
def sharedHops : List PathSegment → List PathSegment → List PathSegment
  | hop :: hops, hop' :: hops' => if hop'.name = hop.name then hop' :: sharedHops hops hops' else []
  | _, _ => []

theorem sharedHops_nil_left : sharedHops [] hops = [] := by
  rw [sharedHops]
  nofun

theorem sharedHops_nil_right : sharedHops hops [] = [] := by
  rw [sharedHops]
  nofun

theorem sharedHops_isInitial (hops hops' : List PathSegment) : sharedHops hops hops' <+: hops' := by
  fun_induction sharedHops hops hops' with
  | case1 hop hops hop' hops' hname ih => exact List.cons_prefix_cons.2 ⟨rfl, ih⟩
  | case2 => exact List.nil_prefix
  | case3 => exact List.nil_prefix

/-- A path that goes on where another one ends shares all hops of it. -/
theorem sharedHops_of_onWay (hway : hops'.map (·.name) <+: hops.map (·.name)) :
    sharedHops hops hops' = hops' := by
  induction hops' generalizing hops with
  | nil => exact sharedHops_nil_right
  | cons hop' hops' ih =>
    cases hops with
    | nil => simp at hway
    | cons hop hops =>
      rw [List.map_cons, List.map_cons, List.cons_prefix_cons] at hway
      rw [sharedHops, if_pos hway.1, ih hway.2]

theorem OpenAlong.mono (h : hops <+: hops') (ho : OpenAlong hops' r) : OpenAlong hops r := by
  induction hops generalizing hops' r with
  | nil => trivial
  | cons hop hops ih =>
    obtain ⟨rest, rfl⟩ := h
    obtain ⟨n, hr, ho⟩ := ho
    exact ⟨n, hr, ih (List.prefix_append hops rest) ho⟩

/-- The schema of the record that holds the first field of a path. -/
def ownerOf (hops : List PathSegment) (leaf : PathSegment) : Schema := (hops.headD leaf).owner

theorem Leads.ownerOf_eq (h : Leads s hops leaf) : ownerOf hops leaf = s := by
  cases h <;> rfl

/-- A write to a field of the record itself changes nothing else, and nothing at all where the field
refuses the value. -/
theorem readFrom_writeFrom_leaf (h : r.Conforms s) (hq : Leads s hops' leaf')
    (hkept : namesOf hops' leaf' = namesOf [] leaf → (writeFrom leaf v [] r).1 ≠ .ok ()) :
    readFrom leaf' hops' (writeFrom leaf v [] r).2 = readFrom leaf' hops' r := by
  obtain ⟨r', hw, heq⟩ | ⟨e, heq⟩ := writeFrom_leaf leaf v r
  · rw [heq] at hkept ⊢
    cases hq with
    | @leaf _ name' f' hf' =>
      have hname : name' ≠ leaf.name := fun hc => hkept (congrArg ([·]) hc) rfl
      simp only [readFrom, Record.getValue?, Record.cell?_setValue_of_ne hname hw]
    | @hop _ _ name' f' _ _ hf' hn' rest' =>
      simp only [readFrom, Record.getRecord?_setValue h hf' hn' hw]
  · rw [heq]

/-- **The frame of a write.**  A path reads as before if no record was absent that it shares with
the written path; otherwise what is left of it after the shared records reads as in a default
record.  This leaves out the written path itself, unless its leaf refused the value. -/
theorem readFrom_writeFrom_frame (h : r.Conforms s) (hp : Leads s hops leaf)
    (hq : Leads s hops' leaf')
    (hkept : namesOf hops' leaf' = namesOf hops leaf → (writeFrom leaf v hops r).1 ≠ .ok ()) :
    (OpenAlong (sharedHops hops hops') r →
      readFrom leaf' hops' (writeFrom leaf v hops r).2 = readFrom leaf' hops' r) ∧
    (¬ OpenAlong (sharedHops hops hops') r →
      readFrom leaf' hops' (writeFrom leaf v hops r).2 =
        readFrom leaf' (hops'.drop (sharedHops hops hops').length)
          (ownerOf (hops'.drop (sharedHops hops hops').length) leaf').default) := by
  induction hp generalizing r hops' leaf' with
  | leaf hf =>
    rw [sharedHops_nil_left]
    exact ⟨fun _ => readFrom_writeFrom_leaf h hq hkept, (absurd trivial ·)⟩
  | @hop owner nested name f hops leaf hf hn rest ih =>
    rw [writeFrom_hop h hf hn] at hkept ⊢
    cases hq with
    | leaf =>
      -- a leaf that is a hop of the written path holds no value, before or after
      rw [sharedHops_nil_right]
      exact ⟨fun _ => by simp only [readFrom, h.getValue?_setRecord hf hn], (absurd trivial ·)⟩
    | @hop _ nested' name' f' hops' _ hf' hn' rest' =>
      by_cases hname : name' = name
      · subst hname
        obtain rfl : f = f' := Option.some.inj (hf.symm.trans hf')
        obtain rfl : nested = nested' := FieldKind.record.inj (hn.symm.trans hn')
        have hrest : namesOf hops' leaf' = namesOf hops leaf →
            (writeFrom leaf v hops ((r.getRecord? name').getD nested.default)).1 ≠ .ok () :=
          fun hc => hkept (congrArg (name' :: ·) hc)
        rw [sharedHops, if_pos rfl]
        simp only [OpenAlong, List.length_cons, List.drop_succ_cons, readFrom,
          h.getRecord?_setRecord hf]
        cases hr : r.getRecord? name' with
        | some n =>
          rw [hr] at hrest
          simpa using ih (h.getRecord? hf hn hr) rest' hrest
        | none =>
          rw [hr] at hrest
          refine ⟨fun ⟨_, hnone, _⟩ => (nomatch hnone), fun _ => ?_⟩
          obtain ⟨hkept, hdefault⟩ := ih nested.default_conforms rest' hrest
          by_cases ho : OpenAlong (sharedHops hops hops') nested.default
          · -- the rest of the path starts in the default record that was put here
            rw [Option.getD_none, hkept ho, openAlong_default.1 ho, List.length_nil,
              List.drop_zero, rest'.ownerOf_eq]
          · exact hdefault ho
      · rw [sharedHops, if_neg hname]
        exact ⟨fun _ => by simp only [readFrom, Record.getRecord?_setRecord_of_ne hname],
          (absurd trivial ·)⟩

/-- An open path with other names reads as before. -/
theorem readFrom_writeFrom_of_ne (h : r.Conforms s) (hp : Leads s hops leaf)
    (hq : Leads s hops' leaf') (hne : namesOf hops' leaf' ≠ namesOf hops leaf)
    (ho : OpenAlong hops' r) :
    readFrom leaf' hops' (writeFrom leaf v hops r).2 = readFrom leaf' hops' r :=
  (readFrom_writeFrom_frame h hp hq fun hc => absurd hc hne).1 (ho.mono (sharedHops_isInitial ..))

/-- A path with other names that the write opens reads what a default record holds there. -/
theorem readFrom_writeFrom_opened (h : r.Conforms s) (hp : Leads s hops leaf)
    (hq : Leads s hops' leaf') (hne : namesOf hops' leaf' ≠ namesOf hops leaf)
    (hclosed : ¬ OpenAlong hops' r) (hway : hops'.map (·.name) <+: hops.map (·.name)) :
    readFrom leaf' hops' (writeFrom leaf v hops r).2 = leaf'.initial := by
  have hframe := (readFrom_writeFrom_frame (v := v) h hp hq fun hc => absurd hc hne).2
  rw [sharedHops_of_onWay hway, List.drop_length] at hframe
  exact hframe hclosed

/-- A path that is not open reads null. -/
theorem readFrom_of_not_openAlong (h : ¬ OpenAlong hops r) : readFrom leaf hops r = .null := by
  induction hops generalizing r with
  | nil => exact absurd trivial h
  | cons hop hops ih =>
    rw [readFrom]
    cases hr : r.getRecord? hop.name with
    | none => rfl
    | some n => exact ih fun hopen => h ⟨n, hr, hopen⟩

/-! ### Resolved paths on records of their root -/

/-- No record on the way of the path is absent. -/
def IsOpen (p : FieldPath) (r : Record) : Prop := OpenAlong p.hops r

/-- The record that holds the leaf is on the way of the other path. -/
def IsOnWayOf (p q : FieldPath) : Prop := p.hops.map (·.name) <+: q.hops.map (·.name)

theorem isOnWayOf_self (p : FieldPath) : p.IsOnWayOf p := List.prefix_refl _

theorem read_of_not_isOpen {p : FieldPath} (h : ¬ p.IsOpen r) : p.read r = .null :=
  readFrom_of_not_openAlong h

namespace Resolved

variable {p q : FieldPath}

theorem leads (hp : p.Resolved) (hroot : p.root = s) : Leads s p.hops p.leaf := by
  subst hroot
  exact hp

theorem conforms_write (hp : p.Resolved) (h : r.Conforms p.root) :
    (p.write r v).2.Conforms p.root :=
  conforms_writeFrom h hp

theorem isOpen_write_iff (hp : p.Resolved) (hq : q.Resolved) (hroot : q.root = p.root)
    (h : r.Conforms p.root) : q.IsOpen (p.write r v).2 ↔ q.IsOpen r ∨ q.IsOnWayOf p :=
  openAlong_writeFrom_iff h hp (hq.leads hroot)

theorem isOpen_write_self (hp : p.Resolved) (h : r.Conforms p.root) :
    p.IsOpen (p.write r v).2 :=
  (hp.isOpen_write_iff hp rfl h).2 (.inr p.isOnWayOf_self)

theorem isOpen_write (hp : p.Resolved) (hq : q.Resolved) (hroot : q.root = p.root)
    (h : r.Conforms p.root) (ho : q.IsOpen r) : q.IsOpen (p.write r v).2 :=
  (hp.isOpen_write_iff hq hroot h).2 (.inl ho)

theorem store?_write_self (hp : p.Resolved) (h : r.Conforms p.root)
    (hw : (p.write r v).1 = .ok ()) :
    p.leaf.store? v = some (p.read (p.write r v).2) :=
  store?_writeFrom_self h hp hw

theorem read_write_self (hp : p.Resolved) (h : r.Conforms p.root)
    (hw : (p.write r v).1 = .ok ()) :
    v.cast p.leaf.type.kind = some (p.read (p.write r v).2) :=
  Leads.cast_of_store? hp (hp.store?_write_self h hw)

theorem read_write_of_ne (hp : p.Resolved) (hq : q.Resolved) (hroot : q.root = p.root)
    (h : r.Conforms p.root) (hne : q.names ≠ p.names) (ho : q.IsOpen r) :
    q.read (p.write r v).2 = q.read r :=
  readFrom_writeFrom_of_ne h hp (hq.leads hroot) hne ho

/-- A write to a field of the root itself leaves every other path alone. -/
theorem read_write_of_isSingleHop (hp : p.Resolved) (hq : q.Resolved) (hroot : q.root = p.root)
    (h : r.Conforms p.root) (hsingle : p.hops = []) (hne : q.names ≠ p.names) :
    q.read (p.write r v).2 = q.read r := by
  by_cases ho : q.IsOpen r
  · exact hp.read_write_of_ne hq hroot h hne ho
  · have hclosed : ¬ q.IsOpen (p.write r v).2 := by
      rw [hp.isOpen_write_iff hq hroot h, not_or]
      refine ⟨ho, fun hway => ho ?_⟩
      rw [IsOnWayOf, hsingle] at hway
      rw [IsOpen, List.map_eq_nil_iff.1 (List.prefix_nil.1 hway)]
      exact trivial
    rw [read_of_not_isOpen ho, read_of_not_isOpen hclosed]

theorem read_write_opened (hp : p.Resolved) (hq : q.Resolved) (hroot : q.root = p.root)
    (h : r.Conforms p.root) (hne : q.names ≠ p.names) (hclosed : ¬ q.IsOpen r)
    (hway : q.IsOnWayOf p) : q.read (p.write r v).2 = q.leaf.initial :=
  readFrom_writeFrom_opened h hp (hq.leads hroot) hne hclosed hway

theorem write_ok (hp : p.Resolved) (hs : p.leaf.type.kind.isScalar = true)
    (h : r.Conforms p.root) (hv : (p.leaf.store? v).isSome = true) :
    (p.write r v).1 = .ok () :=
  writeFrom_ok h hp hs hv

theorem stored_read (hp : p.Resolved) (hs : p.leaf.type.kind.isScalar = true)
    (h : r.Conforms p.root) :
    (p.type.nullable = true ∧ p.read r = .null) ∨ p.leaf.store? (p.read r) = some (p.read r) := by
  refine (stored_readFrom h hp hs).imp_left fun ⟨hhops, hnull⟩ => ⟨?_, hnull⟩
  rw [FieldPath.type, isSingleHop, if_neg (by simpa using hhops)]
  rfl

end Resolved

end FieldPath

end RecordView
