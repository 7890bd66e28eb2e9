import RecordView.Proofs.Aggregate.Scoping

/-!
# Scoping to a collection

A quantifier over a collection facet becomes its body, read of one element of the facet
(`FacetScope.eq_rebind_of_prune`).  Whatever else mentions the composite is dropped
(`FacetScope.prune_eq_none`), and what does not is kept.  So an element survives when the bodies of
all quantifiers are true of it, and the composites of a conjunction with one such quantifier keep
an element (`Lambda.test_scope_of_records`).

Three things make a facet lose all elements of a composite that satisfies the predicate
(`Sample.scope_loses_elements`), and the theorem leaves them out:

* two quantifiers, which may be true of two elements, while the facet asks both of one;
* a connective inside of a side, which may become true when it loses what mentions the composite,
  and so false the comparison it stands in;
* a function in the body of a quantifier that binds the facet's own parameter: nothing renames it,
  and the element is read as what that function is applied to.
-/

namespace RecordView

namespace Expr

variable {e k : Expr} {x : Param}

/-- The expression does not mention the field of `x`, and no connective in it mentions `x`. -/
structure Apart (x : Param) (field : String) (e : Expr) : Prop where
  chains : ∀ part ∈ e.parts, part.fieldChain? x ≠ some [field]
  connectives : ∀ part ∈ e.parts, part.references x = true → part.isConnective = false

theorem Apart.mono {field : String} (h : e.Apart x field) (hparts : k.parts ⊆ e.parts) :
    k.Apart x field :=
  ⟨fun part hp => h.chains part (hparts hp), fun part hp => h.connectives part (hparts hp)⟩

/-- The function of a quantifier that asks whether some element in the field of `x` matches. -/
def existential? (x : Param) (field : String) : Expr → Option Lambda
  | call .any (access (parameter q) name _) [lambda p body] =>
    if q == x && name == field then some ⟨p, body⟩ else none
  | _ => none

theorem existential?_eq_some {field : String} {f : Lambda}
    (h : k.existential? x field = some f) :
    ∃ q owner, (q == x) = true ∧
      k = .call .any (.access (.parameter q) field owner) [.lambda f.param f.body] := by
  unfold existential? at h
  split at h
  · rename_i q name owner p body
    split at h
    · rename_i hq
      rw [Bool.and_eq_true] at hq
      cases h
      exact ⟨q, owner, hq.1, by rw [eq_of_beq hq.2]⟩
    · cases h
  · cases h

/-- The function of a quantifier is closed where the quantifier is, if it does not mention `x`. -/
theorem closed_of_existential? {field : String} {f : Lambda}
    (hclosed : ∀ q ∈ k.freeParams, (x == q) = true) (h : k.existential? x field = some f)
    (href : f.body.references x = false) : f.Closed := by
  obtain ⟨_, _, -, rfl⟩ := existential?_eq_some h
  intro q hq
  cases hp : f.param == q with
  | true => rfl
  | false =>
    have hfree := hclosed q (by simp [freeParams, freeParamsOfAll, hq, hp])
    rw [references_of_mem_freeParams hq (BEq.symm hfree)] at href
    cases href

end Expr

namespace FacetScope

variable {s : FacetScope} {e e' k : Expr} {args : List Expr}

/-- For a collection, what survives as a whole does not mention the composite. -/
theorem Survives.not_references (h : s.Survives e e') (hmany : s.many = true)
    (he : e.Apart s.outer s.field) : e.references s.outer = false := by
  have hchain : ∀ e, s.chain? e = none := fun e => by rw [chain?, hmany, if_pos rfl]
  induction h with
  | kept unmentioned => exact unmentioned
  | chain loses | conversion _ loses =>
    rw [hchain] at loses
    cases loses
  | @element target e' args found =>
    have htarget := he.chains target
      (Expr.parts_subset_target .any target args (Expr.self_mem_parts target))
    simp [element?, htarget] at found
  | unary op operand ih => exact ih (he.mono (List.subset_cons_self _ _))
  | binary op left right ihl ihr =>
    exact Bool.or_eq_false_iff.2 ⟨ihl (he.mono (Expr.parts_subset_left op _ _)),
      ihr (he.mono (Expr.parts_subset_right op _ _))⟩
  | leftSide c mentioned | rightSide c mentioned =>
    cases he.connectives _ (Expr.self_mem_parts _) mentioned
  | @call method target target' args pruned _ _ _ ih ihs =>
    refine Bool.or_eq_false_iff.2 ⟨ih (he.mono (Expr.parts_subset_target method target args)),
      Expr.anyReferences_eq_false_iff.2 fun arg harg => ?_⟩
    exact ihs arg harg (he.mono (Expr.parts_subset_arg method target harg))

/-- **For a collection, what mentions the composite is dropped**, unless it is a quantifier over the
facet's field or a connective that keeps a side. -/
theorem prune_eq_none (hmany : s.many = true) (he : e.Apart s.outer s.field)
    (href : e.references s.outer = true) : s.prune e = none := by
  refine Option.eq_none_iff_forall_ne_some.2 fun e' hp => ?_
  rw [(survives_of_prune hp).not_references hmany he] at href
  cases href

/-- What survives of a quantifier over the facet's field is its body. -/
theorem eq_rebind_of_prune {f : Lambda} (hf : k.existential? s.outer s.field = some f)
    (hp : s.prune k = some e') : e' = f.body.rebind f.param s.inner := by
  obtain ⟨q, owner, hq, rfl⟩ := Expr.existential?_eq_some hf
  rw [prune_any (by simp [Expr.references, hq])] at hp
  obtain ⟨p, body, hargs, rfl, -⟩ := element?_eq_some hp
  cases hargs
  rfl

/-- The body of a closed function, read of one element, is true of the elements that satisfy the
function. -/
theorem test_rebind {f : Lambda} {m : Record} (hclosed : f.Closed)
    (hfresh : ∀ part ∈ f.body.parts, part.binds s.inner = false)
    (h : f.body.test [(f.param, m)] = .ok true) :
    (f.body.rebind f.param s.inner).test [(s.inner, m)] = .ok true := by
  refine (Expr.follows_rebind hfresh fun q hq => ?_).test h
  have hself := hclosed q hq
  rw [if_pos (BEq.symm hself), Env.lookup?_self hself, Env.lookup?_self s.inner.beq_self]

end FacetScope

namespace Lambda

variable {g f : Lambda} {field : String} {declared : Field} {model : Schema} {c : Record}

/-- Where a quantifier over the field of a composite is true, its function is of an element. -/
theorem exists_of_existential? {x : Param} {k : Expr} {rows : List Record}
    (hfield : x.schema.field? field = some declared) (hkind : declared.type.kind = .records model)
    (hc : c.Conforms x.schema) (hrows : c.getRecords? field = some rows)
    (hf : k.existential? x field = some f) (h : k.test [(x, c)] = .ok true) :
    ∃ m ∈ rows, f.body.test [(f.param, m), (x, c)] = .ok true := by
  obtain ⟨q, owner, hq, rfl⟩ := Expr.existential?_eq_some hf
  obtain ⟨o, found, ho, hfound, m, hm, htrue⟩ := Expr.exists_of_test_any h
  have htarget : ((Expr.parameter q).access field owner).eval [(x, c)] = .ok (.records rows) := by
    rw [Expr.eval, Expr.eval, Env.lookup?_self (BEq.symm hq)]
    simp only [bind, Except.bind, Operand.access, hc.schema_eq, hfield, Operand.present, hkind,
      Schema.name_of_field? hfield, hrows, Option.getD_some]
  rw [htarget] at ho
  cases ho
  cases hfound
  exact ⟨m, hm, htrue⟩

/-- **Scoping a conjunction to a collection facet keeps the elements that it asks for.**  An element
that satisfies all quantifiers over the facet's field survives, and where there is one quantifier,
some element does.  Two quantifiers may be true of two elements; scoping asks one element for
both. -/
theorem test_scope_of_records (hfield : g.param.schema.field? field = some declared)
    (hkind : declared.type.kind = .records model) (hclosed : g.Closed)
    (hany : ∀ k ∈ g.body.conjuncts, ∀ f, k.existential? g.param field = some f →
      f.body.references g.param = false ∧
        ∀ part ∈ f.body.parts, part.binds ⟨g.param.name, model⟩ = false)
    (hother : ∀ k ∈ g.body.conjuncts, k.existential? g.param field = none →
      k.Apart g.param field)
    (hc : c.Conforms g.param.schema) (h : g.test c = .ok true) :
    (∀ m ∈ (c.getRecords? field).getD [],
      (∀ f ∈ g.body.conjuncts.filterMap (·.existential? g.param field),
        f.body.test [(f.param, m)] = .ok true) → (g.scope field model true).test m = .ok true) ∧
    (∀ f, g.body.conjuncts.filterMap (·.existential? g.param field) = [f] →
      ∃ m ∈ (c.getRecords? field).getD [], (g.scope field model true).test m = .ok true) := by
  rw [test_eq_true hc.schema_eq] at h
  obtain ⟨rows, hrows, hconf⟩ := hc.exists_records hfield hkind
  rw [hrows, Option.getD_some]
  have hkclosed : ∀ k ∈ g.body.conjuncts, ∀ q ∈ k.freeParams, (g.param == q) = true :=
    fun k hk q hq => hclosed q (Expr.freeParams_subset_of_mem_conjuncts hk hq)
  have hsurvives : ∀ m ∈ rows, (∀ f ∈ g.body.conjuncts.filterMap (·.existential? g.param field),
      f.body.test [(f.param, m)] = .ok true) → (g.scope field model true).test m = .ok true := by
    intro m hm hasked
    let s : FacetScope := ⟨g.param, ⟨g.param.name, model⟩, field, true⟩
    refine test_scope (hconf m hm).schema_eq (s.test_prune_of_conjuncts fun k hk k' hp => ?_)
    cases hf : k.existential? g.param field with
    | none =>
      have href : k.references g.param = false := by
        rw [← Bool.not_eq_true]
        intro href
        rw [s.prune_eq_none rfl (hother k hk hf) href] at hp
        cases hp
      rw [s.prune_of_not_references href] at hp
      cases hp
      exact (s.follows_of_not_references (hkclosed k hk) href).test
        (Expr.test_of_mem_conjuncts h hk)
    | some f =>
      obtain ⟨href, hfresh⟩ := hany k hk f hf
      rw [s.eq_rebind_of_prune hf hp]
      exact s.test_rebind (Expr.closed_of_existential? (hkclosed k hk) hf href) hfresh
        (hasked f (List.mem_filterMap.2 ⟨k, hk, hf⟩))
  refine ⟨hsurvives, fun f honly => ?_⟩
  obtain ⟨k, hk, hf⟩ := List.mem_filterMap.1 (honly ▸ List.mem_singleton_self f)
  obtain ⟨m, hm, htrue⟩ := exists_of_existential? hfield hkind hc hrows hf
    (Expr.test_of_mem_conjuncts h hk)
  refine ⟨m, hm, hsurvives m hm ?_⟩
  rw [honly, List.forall_mem_singleton]
  -- the function asks for nothing but the element
  have hfclosed := Expr.closed_of_existential? (hkclosed k hk) hf (hany k hk f hf).1
  refine (Expr.follows_self fun q hq => ?_).test htrue
  rw [Env.lookup?_self (hfclosed q hq), Env.lookup?_self (hfclosed q hq)]

/-- The composite satisfies the predicate, and none of its elements satisfies what the facet asks
of them, so a join that needs one of them has no row for the composite. -/
def Loses (g : Lambda) (field : String) (model : Schema) (c : Record) : Prop :=
  g.Closed ∧ c.Conforms g.param.schema ∧ g.test c = .ok true ∧
    ∀ m ∈ (c.getRecords? field).getD [], (g.scope field model true).test m = .ok false

end Lambda

namespace Sample

/-- Ada with a location in Paris and one in London. -/
def adaOfBoth : Record :=
  residentView (some (userView 1 "Ada" (some "admin"))) (some (locationView 1 "PARIS"))
    [locationView 1 "PARIS", locationView 2 "LONDON"]

/-- Those who have a location in Paris and one in London. -/
def inBothTowns : Lambda :=
  .over composite fun x => (locatedIn x "PARIS").conj (locatedIn x "LONDON")

/-- Those in Paris of whom it is false that the memo is `a` and that truth is true. -/
def inParisWithoutMemo : Lambda :=
  .over composite fun x => (locatedIn x "PARIS").conj
    ((((x.field "memo").equals (.constant (.text "a"))).conj (.constant (.bool true))).equals
      (.constant (.bool false)))

/-- A node with a name, and the names of the nodes next to it. -/
def node : Schema :=
  ⟨"Node", [opt "name" .text, many "peers" ⟨"Node", [opt "name" .text]⟩]⟩

/-- Networks with a node that has another name than one of its peers, which is called `x` too. -/
def withForeignPeer : Lambda :=
  .over ⟨"Network", [many "nodes" node]⟩ fun x =>
    (x.field "nodes").anyElement "n" fun n =>
      (n.field "peers").anyElement "x" fun p =>
        .binary (.comparison .ne) (p.field "name") (n.field "name")

/-- A network of one node, with one peer of another name. -/
def pair : Record :=
  ⟨⟨"Network", [many "nodes" node]⟩, [("nodes", .records
    [⟨node, [("name", .value (.text "a")), ("peers", .records
      [⟨⟨"Node", [opt "name" .text]⟩, [("name", .value (.text "b"))]⟩])]⟩])]⟩

theorem adaOfBoth_conforms : adaOfBoth.Conforms composite :=
  residentView_conforms (userView_conforms ..) (locationView_conforms ..)
    (List.forall_mem_cons.2 ⟨locationView_conforms ..,
      List.forall_mem_singleton.2 (locationView_conforms ..)⟩)

theorem pair_conforms : pair.Conforms withForeignPeer.param.schema := by
  refine .intro (.cons_named rfl (.records (s := node) rfl
    (List.forall_mem_singleton.2 (.intro ?_))) .nil)
  exact .cons_named rfl (.value rfl rfl) (.cons_named rfl (.records rfl
    (List.forall_mem_singleton.2 (.intro (.cons_named rfl (.value rfl rfl) .nil)))) .nil)

/-- Two quantifiers may be true of two elements, a connective that loses a side may make a
comparison false, and a function that binds the facet's parameter takes the element for its own. -/
theorem scope_loses_elements :
    inBothTowns.Loses "locations" locationModel adaOfBoth ∧
      inParisWithoutMemo.Loses "locations" locationModel adaOfParis ∧
      withForeignPeer.Loses "nodes" node pair :=
  ⟨⟨List.all_eq_true.1 rfl, adaOfBoth_conforms, rfl,
      List.forall_mem_cons.2 ⟨rfl, List.forall_mem_singleton.2 rfl⟩⟩,
    ⟨List.all_eq_true.1 rfl, adaOfParis_conforms, rfl, List.forall_mem_singleton.2 rfl⟩,
    ⟨List.all_eq_true.1 rfl, pair_conforms, rfl, List.forall_mem_singleton.2 rfl⟩⟩

theorem adaInParis_elements :
    ∃ m ∈ [locationView 1 "PARIS"],
      (adaInParis.scope "locations" locationModel true).test m = .ok true := by
  have hclosed : adaInParis.Closed := List.all_eq_true.1 rfl
  have hconjuncts : (adaInParis.body.conjuncts.all fun k =>
      match k.existential? adaInParis.param "locations" with
      | some f => !f.body.references adaInParis.param &&
        f.body.parts.all (!·.binds ⟨adaInParis.param.name, locationModel⟩)
      | none => k.parts.all fun part =>
        part.fieldChain? adaInParis.param != some ["locations"] &&
          !(part.references adaInParis.param && part.isConnective)) = true := rfl
  have hany : ∀ k ∈ adaInParis.body.conjuncts, ∀ f,
      k.existential? adaInParis.param "locations" = some f →
      f.body.references adaInParis.param = false ∧
        ∀ part ∈ f.body.parts,
          part.binds ⟨adaInParis.param.name, locationModel⟩ = false := by
    intro k hk f hf
    have hcheck := List.all_eq_true.1 hconjuncts k hk
    simpa [hf] using hcheck
  have hother : ∀ k ∈ adaInParis.body.conjuncts,
      k.existential? adaInParis.param "locations" = none →
      k.Apart adaInParis.param "locations" := by
    intro k hk hf
    have hcheck := List.all_eq_true.1 hconjuncts k hk
    simp only [hf, List.all_eq_true] at hcheck
    refine ⟨fun part hp => ?_, fun part hp href => ?_⟩
    · have hchain := (Bool.and_eq_true_iff.1 (hcheck part hp)).1
      exact bne_iff_ne.1 hchain
    · simpa [href] using (Bool.and_eq_true_iff.1 (hcheck part hp)).2
  exact (Lambda.test_scope_of_records rfl rfl hclosed hany hother adaOfParis_conforms rfl).2 _ rfl

end Sample

end RecordView
