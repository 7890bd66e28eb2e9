import RecordView.Proofs.Expr.Rebinding
import RecordView.Proofs.Mapping.Commuting
import RecordView.Sample.Residents

/-!
# Scoping to a single record

A facet loads only the models that satisfy its part of a predicate (`Lambda.scope`), so this part
must be true of the model of every composite that satisfies the predicate.  For a conjunction it is
enough that this holds for each side (`FacetScope.test_prune_of_conjuncts`).

What scoping can do with an expression is said once (`FacetScope.Survives`,
`FacetScope.survives_of_prune`).  A side that does not mention the composite is kept, and means the
same anywhere (`FacetScope.follows_of_not_references`).  Of the other sides, a single-record facet keeps those
that speak of its own field alone.  Their chains lose the field and start at the model, so whatever
such a side comes to for the composite, it comes to for the model
(`FacetScope.Holds.follows_prune`).  This needs the accesses to be as the builders make them, since
the chains are built again, and it needs the sides to be without connectives about the composite: a
connective that loses a side is another condition, which is true where a conjunction was, but under
a comparison or a negation no longer implied by it.
-/

namespace RecordView

namespace Expr

variable {e k : Expr} {x : Param} {names : List String}

/-- The owner of an access is the schema of the record's static type, and a parameter that is equal
to `x` is `x`. -/
def TypedOver (x : Param) : Expr → Prop
  | access base _ owner => owner = base.type.recordSchema?
  | parameter q => (q == x) = true → q = x
  | _ => True

/-- The parts are as the builders make them. -/
def Built (x : Param) (e : Expr) : Prop := ∀ part ∈ e.parts, part.TypedOver x

theorem built_parameter {p : Param} (h : (p == x) = true → p = x) : (parameter p).Built x :=
  List.forall_mem_singleton.2 h

theorem built_constant (v : Value) : (constant v).Built x := List.forall_mem_singleton.2 trivial

theorem Built.field (h : e.Built x) (name : String) : (e.field name).Built x :=
  List.forall_mem_cons.2 ⟨rfl, h⟩

theorem Built.chain (h : e.Built x) (names : List String) : (e.chain names).Built x := by
  induction names generalizing e with
  | nil => exact h
  | cons name names ih => exact ih (h.field name)

theorem Built.unary (op : UnaryOp) (h : e.Built x) : (unary op e).Built x :=
  List.forall_mem_cons.2 ⟨trivial, h⟩

theorem Built.binary (op : BinaryOp) (hl : e.Built x) (hr : k.Built x) :
    (binary op e k).Built x :=
  List.forall_mem_cons.2 ⟨trivial, List.forall_mem_append.2 ⟨hl, hr⟩⟩

theorem Built.call (method : Method) (h : e.Built x) {args : List Expr}
    (hargs : ∀ arg ∈ args, arg.Built x) : (call method e args).Built x := by
  refine List.forall_mem_cons.2 ⟨trivial, List.forall_mem_append.2 ⟨h, fun part hp => ?_⟩⟩
  obtain ⟨arg, harg, hp⟩ := mem_partsOfAll.1 hp
  exact hargs arg harg part hp

theorem Built.lambda (p : Param) (h : e.Built x) : (lambda p e).Built x :=
  List.forall_mem_cons.2 ⟨trivial, h⟩

/-- The expression leaves nothing but `x` to its environment, the builders made it, without
conversions, and no connective in it mentions `x`. -/
structure Separable (x : Param) (e : Expr) : Prop where
  closed : ∀ q ∈ e.freeParams, (x == q) = true
  built : e.Built x
  plain : ∀ part ∈ e.parts, part.isConversion = false
  connectives : ∀ part ∈ e.parts, part.references x = true → part.isConnective = false

theorem Separable.mono (h : e.Separable x) (hfree : k.freeParams ⊆ e.freeParams)
    (hparts : k.parts ⊆ e.parts) : k.Separable x :=
  ⟨fun q hq => h.closed q (hfree hq), fun part hp => h.built part (hparts hp),
    fun part hp => h.plain part (hparts hp), fun part hp => h.connectives part (hparts hp)⟩

/-- A chain that the builders made is the chain of its names. -/
theorem eq_chain_of_namesFrom? (hbuilt : e.Built x)
    (hplain : ∀ part ∈ e.parts, part.isConversion = false) (h : e.namesFrom? x = some names) :
    e = (parameter x).chain names := by
  induction e using induct generalizing names with
  | parameter q =>
    rw [namesFrom?] at h
    split at h
    · rename_i hq
      cases h
      rw [hbuilt _ (self_mem_parts _) hq]
      rfl
    · cases h
  | access base name owner ih =>
    obtain ⟨before, hbase, rfl⟩ := Option.map_eq_some_iff.1 h
    have howner : owner = base.type.recordSchema? := hbuilt _ (self_mem_parts _)
    have hchain := ih (fun part hp => hbuilt part (by simp [parts, hp]))
      (fun part hp => hplain part (by simp [parts, hp])) hbase
    rw [howner, hchain, chain, chain, List.foldl_append]
    rfl
  | unary op e =>
    have hop : op.isConversion = false := hplain _ (self_mem_parts _)
    rw [namesFrom?, hop] at h
    cases h
  | binary | constant | call | lambda => cases h

end Expr

namespace FacetScope

variable {s : FacetScope} {e e' k : Expr} {args args' : List Expr} {env env' : Env}

/-! ### What is kept as it is -/

/-- What does not mention the composite is kept. -/
theorem prune_of_not_references (h : e.references s.outer = false) : s.prune e = some e := by
  cases e with
  | constant v => rw [prune]
  | parameter p | lambda p body | access base name owner | unary op operand =>
    rw [prune, if_neg (by simpa [Expr.references] using h)]
  | binary op left right =>
    cases op <;> rw [prune, if_neg (by simpa [Expr.references] using h)] <;> simp
  | call method target args =>
    cases method <;> rw [prune, if_neg (by simpa [Expr.references] using h)] <;> simp

/-- What does not mention the composite, and is closed but for it, means the same anywhere. -/
theorem follows_of_not_references (hclosed : ∀ q ∈ e.freeParams, (s.outer == q) = true)
    (h : e.references s.outer = false) : Expr.Follows env env' e e := by
  refine Expr.follows_self ?_
  rw [Expr.freeParams_eq_nil hclosed h]
  exact List.forall_mem_nil _

/-! ### Nodes that mention the composite -/

/-- An operator survives with both of its operands. -/
theorem prune_binary {op : BinaryOp} {l r : Expr}
    (hop : (Expr.binary op l r).isConnective = false)
    (href : (Expr.binary op l r).references s.outer = true) :
    s.prune (.binary op l r) = do
      let l ← s.prune l
      let r ← s.prune r
      return .binary op l r := by
  rw [Expr.references] at href
  cases op with
  | connective c => cases hop
  | comparison | arithmetic => rw [prune, if_pos href]; simp

theorem prune_any {target : Expr} (href : (Expr.call .any target args).references s.outer = true) :
    s.prune (.call .any target args) = s.element? target args := by
  rw [Expr.references] at href
  rw [prune, if_pos href]

/-- Any other call survives with its target and all of its arguments. -/
theorem prune_call {method : Method} {target : Expr} (hmethod : method ≠ .any)
    (href : (Expr.call method target args).references s.outer = true) :
    s.prune (.call method target args) = do
      let target ← s.prune target
      let args ← s.pruneAll args
      return .call method target args := by
  rw [Expr.references] at href
  cases method with
  | any => exact absurd rfl hmethod
  | _ => rw [prune, if_pos href]; simp

/-- A connective is cut down side by side. -/
theorem prune_connective (s : FacetScope) (c : Connective) (l r : Expr) :
    s.prune (.binary (.connective c) l r) = join c (s.prune l) (s.prune r) := by
  rw [prune]
  split
  · rfl
  · rename_i h
    rw [Bool.not_eq_true, Bool.or_eq_false_iff] at h
    rw [prune_of_not_references h.1, prune_of_not_references h.2]
    rfl

/-! ### What survives -/

/-- A chain through the facet's field loses that field. -/
theorem chain?_eq_some (h : s.chain? e = some e') :
    ∃ names, e.fieldChain? s.outer = some (s.field :: names) ∧
      e' = (Expr.parameter s.inner).chain names := by
  unfold chain? at h
  split at h
  · cases h
  · split at h
    · rename_i head next rest hnames
      split at h
      · rename_i hhead
        cases h
        exact ⟨next :: rest, by rw [hnames, eq_of_beq hhead], rfl⟩
      · cases h
    · cases h

/-- What is left of a quantifier is the body of its function, which does not mention the
composite. -/
theorem element?_eq_some {target : Expr} (h : s.element? target args = some e') :
    ∃ p body, args = [.lambda p body] ∧ e' = body.rebind p s.inner ∧
      e'.references s.outer = false := by
  unfold element? at h
  split at h
  · split at h
    · rename_i p body
      dsimp only at h
      split at h
      · cases h
      · rename_i href
        cases h
        exact ⟨p, body, rfl, rfl, Bool.not_eq_true _ ▸ href⟩
    · cases h
  · cases h

/-- The arguments of a call survive one by one. -/
theorem exists_of_pruneAll (h : s.pruneAll args = some args') :
    ∃ pruned : Expr → Expr, (∀ arg ∈ args, s.prune arg = some (pruned arg)) ∧
      args' = args.map pruned := by
  refine ⟨fun arg => (s.prune arg).getD arg, ?_⟩
  induction args generalizing args' with
  | nil =>
    rw [pruneAll] at h
    cases h
    simp
  | cons arg args ih =>
    rw [pruneAll] at h
    obtain ⟨arg', harg, h⟩ := Option.bind_eq_some_iff.1 h
    obtain ⟨rest, hrest, h⟩ := Option.bind_eq_some_iff.1 h
    cases h
    obtain ⟨heach, rfl⟩ := ih hrest
    refine ⟨List.forall_mem_cons.2 ⟨?_, heach⟩, ?_⟩
    · simp only [harg, Option.getD_some]
    · rw [List.map_cons, harg, Option.getD_some]

/-- What an expression may be cut down to. -/
inductive Survives (s : FacetScope) : Expr → Expr → Prop
  /-- It does not mention the composite. -/
  | kept {e : Expr} (unmentioned : e.references s.outer = false) : Survives s e e
  | chain {e e' : Expr} (loses : s.chain? e = some e') : Survives s e e'
  /-- A conversion around a chain goes with the field that the chain loses. -/
  | conversion {op : UnaryOp} {e e' : Expr} (isConversion : op.isConversion = true)
    (loses : s.chain? e = some e') : Survives s (.unary op e) e'
  | element {target e' : Expr} {args : List Expr} (found : s.element? target args = some e') :
    Survives s (.call .any target args) e'
  | unary (op : UnaryOp) {e e' : Expr} (operand : Survives s e e') :
    Survives s (.unary op e) (.unary op e')
  | binary (op : BinaryOp) {l r l' r' : Expr} (left : Survives s l l')
    (right : Survives s r r') : Survives s (.binary op l r) (.binary op l' r')
  /-- A connective that loses its right side is the left one. -/
  | leftSide (c : Connective) {l r l' : Expr}
    (mentioned : (Expr.binary (.connective c) l r).references s.outer = true)
    (left : Survives s l l') : Survives s (.binary (.connective c) l r) l'
  | rightSide (c : Connective) {l r r' : Expr}
    (mentioned : (Expr.binary (.connective c) l r).references s.outer = true)
    (right : Survives s r r') : Survives s (.binary (.connective c) l r) r'
  | call {method : Method} {e e' : Expr} {args : List Expr} {pruned : Expr → Expr}
    (notAny : method ≠ .any) (target : Survives s e e')
    (each : ∀ arg ∈ args, Survives s arg (pruned arg)) :
    Survives s (.call method e args) (.call method e' (args.map pruned))

/-- What does not mention the composite needs no argument of its own. -/
theorem survives_of_references (h : s.prune e = some e')
    (hmentioned : e.references s.outer = true → s.Survives e e') : s.Survives e e' := by
  cases href : e.references s.outer with
  | true => exact hmentioned href
  | false =>
    rw [prune_of_not_references href] at h
    cases h
    exact .kept href

/-- **Everything that scoping can do with an expression.** -/
theorem survives_of_prune (h : s.prune e = some e') : s.Survives e e' := by
  induction e using Expr.induct generalizing e' with
  | parameter p | lambda p body =>
    refine survives_of_references h fun href => ?_
    rw [Expr.references] at href
    rw [prune, if_pos href] at h
    cases h
  | constant v => exact survives_of_references h fun href => by cases href
  | access base name owner =>
    refine survives_of_references h fun href => ?_
    rw [Expr.references] at href
    rw [prune, if_pos href] at h
    exact .chain h
  | unary op operand ih =>
    refine survives_of_references h fun href => ?_
    rw [Expr.references] at href
    rw [prune, if_pos href] at h
    split at h
    · rename_i hop
      exact .conversion (Bool.and_eq_true_iff.1 hop).1 h
    · obtain ⟨operand', hoperand, rfl⟩ := Option.map_eq_some_iff.1 h
      exact .unary op (ih hoperand)
  | binary op l r ihl ihr =>
    refine survives_of_references h fun href => ?_
    cases op with
    | connective c =>
      rw [prune_connective] at h
      cases hl : s.prune l with
      | none =>
        rw [hl] at h
        exact .rightSide c href (ihr h)
      | some l' =>
        cases hr : s.prune r with
        | none =>
          rw [hl, hr] at h
          cases h
          exact .leftSide c href (ihl hl)
        | some r' =>
          rw [hl, hr] at h
          cases h
          exact .binary _ (ihl hl) (ihr hr)
    | comparison | arithmetic =>
      rw [prune_binary rfl href] at h
      obtain ⟨l', hl, h⟩ := Option.bind_eq_some_iff.1 h
      obtain ⟨r', hr, h⟩ := Option.bind_eq_some_iff.1 h
      cases h
      exact .binary _ (ihl hl) (ihr hr)
  | call method target args ih ihs =>
    refine survives_of_references h fun href => ?_
    by_cases hmethod : method = .any
    · subst hmethod
      rw [prune_any href] at h
      exact .element h
    · rw [prune_call hmethod href] at h
      obtain ⟨target', htarget, h⟩ := Option.bind_eq_some_iff.1 h
      obtain ⟨args', hargs, h⟩ := Option.bind_eq_some_iff.1 h
      cases h
      obtain ⟨pruned, heach, rfl⟩ := exists_of_pruneAll hargs
      exact .call hmethod (ih htarget) fun arg harg => ihs arg harg (heach arg harg)

/-! ### Conjunctions -/

theorem test_join {l r : Option Expr} (hl : ∀ l', l = some l' → l'.test env = .ok true)
    (hr : ∀ r', r = some r' → r'.test env = .ok true) (h : join .and l r = some e) :
    e.test env = .ok true := by
  cases l with
  | none => exact hr e h
  | some l' =>
    cases r with
    | none => exact hl e h
    | some r' =>
      cases h
      exact Expr.test_and_eq_true.2 ⟨hl l' rfl, hr r' rfl⟩

/-- **What survives of a conjunction is true** when it is for each of the sides. -/
theorem test_prune_of_conjuncts
    (hkeep : ∀ k ∈ e.conjuncts, ∀ k', s.prune k = some k' → k'.test env = .ok true) :
    ∀ e', s.prune e = some e' → e'.test env = .ok true := by
  fun_induction Expr.conjuncts e with
  | case1 l r ihl ihr =>
    intro e' hp
    rw [prune_connective] at hp
    exact test_join (ihl fun k hk => hkeep k (List.mem_append_left _ hk))
      (ihr fun k hk => hkeep k (List.mem_append_right _ hk)) hp
  | case2 e => exact hkeep e (List.mem_singleton_self e)

/-! ### Single-record facets -/

/-- The facet's field of the composite holds the model, as both schemas say. -/
structure Holds (s : FacetScope) (c m : Record) : Prop where
  single : s.many = false
  field : ∃ declared, s.outer.schema.field? s.field = some declared ∧
    declared.type.kind = .record s.inner.schema
  conforms : c.Conforms s.outer.schema
  record : c.getRecord? s.field = some m

/-- The facet's field of the composite comes to the model. -/
theorem Holds.eval_field {c m : Record} (h : s.Holds c m) :
    ((Expr.parameter s.outer).field s.field).eval [(s.outer, c)] =
      (Expr.parameter s.inner).eval [(s.inner, m)] := by
  obtain ⟨declared, hfield, hkind⟩ := h.field
  rw [Expr.field, Expr.eval, Expr.eval, Expr.eval, Env.lookup?_self s.outer.beq_self,
    Env.lookup?_self s.inner.beq_self]
  simp only [bind, Except.bind, Operand.access, h.conforms.schema_eq, hfield, Operand.present,
    hkind, Schema.name_of_field? hfield, h.record]

theorem Holds.recordSchema?_field {c m : Record} (h : s.Holds c m) :
    ((Expr.parameter s.outer).field s.field).type.recordSchema? =
      (Expr.parameter s.inner).type.recordSchema? := by
  obtain ⟨declared, hfield, hkind⟩ := h.field
  have htype : (Expr.parameter s.outer).type.recordSchema? = some s.outer.schema := rfl
  rw [Expr.recordSchema?_field, htype, Option.bind_some, hfield, Option.bind_some,
    FieldType.recordSchema?, hkind]
  rfl

/-- A chain through the facet's field means the same without that field. -/
theorem Holds.follows_chain {c m : Record} (h : s.Holds c m) (names : List String) :
    Expr.Follows [(s.outer, c)] [(s.inner, m)] ((Expr.parameter s.outer).chain (s.field :: names))
      ((Expr.parameter s.inner).chain names) := by
  have hbase : Expr.Follows [(s.outer, c)] [(s.inner, m)]
      ((Expr.parameter s.outer).field s.field) (Expr.parameter s.inner) :=
    .operand rfl fun o ho => h.eval_field ▸ ho
  exact hbase.chain h.recordSchema?_field names

theorem exists_of_chain? (hbuilt : e.Built s.outer)
    (hplain : ∀ part ∈ e.parts, part.isConversion = false) (h : s.chain? e = some e') :
    ∃ names, e = (Expr.parameter s.outer).chain (s.field :: names) ∧
      e' = (Expr.parameter s.inner).chain names := by
  obtain ⟨names, hchain, rfl⟩ := chain?_eq_some h
  have hfrom := (Option.filter_eq_some_iff.1 hchain).1
  exact ⟨names, Expr.eq_chain_of_namesFrom? hbuilt hplain hfrom, rfl⟩

/-- **What survives means the same of the model as of the composite.** -/
theorem Holds.follows_prune {c m : Record} (h : s.Holds c m) (he : e.Separable s.outer)
    (hp : s.prune e = some e') : Expr.Follows [(s.outer, c)] [(s.inner, m)] e e' := by
  have hsurvives := survives_of_prune hp
  clear hp
  induction hsurvives with
  | kept unmentioned => exact follows_of_not_references he.closed unmentioned
  | chain loses =>
    obtain ⟨names, hchain, rfl⟩ := exists_of_chain? he.built he.plain loses
    rw [hchain]
    exact h.follows_chain names
  | conversion isConversion =>
    rw [← Bool.not_eq_false, ← Expr.isConversion] at isConversion
    exact absurd (he.plain _ (Expr.self_mem_parts _)) isConversion
  | element found =>
    -- a single record has no elements
    simp [element?, h.single] at found
  | unary op operand ih =>
    exact .unary op (ih (he.mono (List.Subset.refl _) (List.subset_cons_self _ _)))
  | binary op left right ihl ihr =>
    exact .binary op
      (ihl (he.mono (List.subset_append_left _ _) (Expr.parts_subset_left op _ _)))
      (ihr (he.mono (List.subset_append_right _ _) (Expr.parts_subset_right op _ _)))
  | leftSide c mentioned | rightSide c mentioned =>
    cases he.connectives _ (Expr.self_mem_parts _) mentioned
  | @call method target target' args pruned _ htarget each ih ihs =>
    refine .call method (ih (he.mono (List.subset_append_left _ _)
      (Expr.parts_subset_target method target args)))
      (List.forall₂_map_right_iff.2 (List.forall₂_same.2 fun arg harg => ?_))
    exact ihs arg harg (he.mono (Expr.freeParams_subset_arg method target harg)
      (Expr.parts_subset_arg method target harg))

end FacetScope

namespace Lambda

variable {g f : Lambda} {field : String} {declared : Field} {model : Schema} {many : Bool}
  {c m : Record}

theorem test_scope (hm : m.schema = model)
    (h : ∀ e', (FacetScope.mk g.param ⟨g.param.name, model⟩ field many).prune g.body = some e' →
      e'.test [(⟨g.param.name, model⟩, m)] = .ok true) :
    (g.scope field model many).test m = .ok true := by
  rw [test_eq_true hm, scope]
  cases hp : (FacetScope.mk g.param ⟨g.param.name, model⟩ field many).prune g.body with
  | none => rfl
  | some e' => exact h e' hp

/-- **Scoping a conjunction to a single-record facet loses no answer.**  The conjunction is closed
and made by the builders without conversions, and no connective inside of its sides mentions the
composite. -/
theorem test_scope_of_record (hfield : g.param.schema.field? field = some declared)
    (hkind : declared.type.kind = .record model) (hclosed : g.Closed)
    (hbuilt : g.body.Built g.param)
    (hplain : ∀ part ∈ g.body.parts, part.isConversion = false)
    (hconn : ∀ k ∈ g.body.conjuncts, ∀ part ∈ k.parts, part.references g.param = true →
      part.isConnective = false)
    (hc : c.Conforms g.param.schema) (hm : c.getRecord? field = some m) (h : g.test c = .ok true) :
    (g.scope field model false).test m = .ok true := by
  rw [test_eq_true hc.schema_eq] at h
  refine test_scope (hc.getRecord? hfield hkind hm).schema_eq
    (FacetScope.test_prune_of_conjuncts fun k hk k' hp => ?_)
  have hholds : FacetScope.Holds ⟨g.param, ⟨g.param.name, model⟩, field, false⟩ c m :=
    ⟨rfl, ⟨declared, hfield, hkind⟩, hc, hm⟩
  have hparts := Expr.parts_subset_of_mem_conjuncts hk
  have hseparable : k.Separable g.param :=
    ⟨fun q hq => hclosed q (Expr.freeParams_subset_of_mem_conjuncts hk hq),
      fun part hp => hbuilt part (hparts hp), fun part hp => hplain part (hparts hp), hconn k hk⟩
  exact (hholds.follows_prune hseparable hp).test (Expr.test_of_mem_conjuncts h hk)

end Lambda

namespace Sample

theorem locationView_conforms (id : Int64) (name : String) :
    (locationView id name).Conforms locationModel := by
  have hid : (opt "id" .int).store? (.int id) = some (.int id) := Field.store?_int rfl rfl id
  exact .intro (.cons_named rfl (.value rfl hid) (.cons_named rfl (.value rfl rfl) .nil))

theorem residentView_conforms {user home : Record} {locations : List Record}
    (huser : user.Conforms userModel) (hhome : home.Conforms locationModel)
    (hlocations : ∀ l ∈ locations, l.Conforms locationModel) :
    (residentView (some user) (some home) locations).Conforms composite :=
  .intro (.cons_named rfl (.value rfl rfl) (.cons_named rfl (.record rfl huser)
    (.cons_named rfl (.record rfl hhome) (.cons_named rfl (.records rfl hlocations)
      (.cons_named rfl (.records (s := userModel) rfl (by simp)) .nil)))))

/-- Ada with one location, in Paris. -/
def adaOfParis : Record :=
  residentView (some (userView 1 "Ada" (some "admin"))) (some (locationView 1 "PARIS"))
    [locationView 1 "PARIS"]

theorem adaOfParis_conforms : adaOfParis.Conforms composite :=
  residentView_conforms (userView_conforms ..) (locationView_conforms ..)
    (List.forall_mem_singleton.2 (locationView_conforms ..))

/-- Whether some location of the composite has the name. -/
def locatedIn (x : Expr) (name : String) : Expr :=
  (x.field "locations").anyElement "l" fun l => (l.field "name").equals (.constant (.text name))

/-- Those called Ada who have a location in Paris and no age. -/
def adaInParis : Lambda :=
  .over composite fun x =>
    (((x.chain ["user", "name"]).equals (.constant (.text "Ada"))).conj (locatedIn x "PARIS")).conj
      (.unary .not (x.chain ["user", "age"]).isNotNull)

theorem adaInParis_built : adaInParis.body.Built adaInParis.param := by
  have hx : (Expr.parameter adaInParis.param).Built adaInParis.param :=
    Expr.built_parameter fun _ => rfl
  have hl : ∀ p : Param, p.name = "l" → (Expr.parameter p).Built adaInParis.param := fun p hp =>
    Expr.built_parameter fun h => absurd (hp.symm.trans (Param.beq_iff.1 h).1) (by decide)
  have hlocated : (locatedIn (.parameter adaInParis.param) "PARIS").Built adaInParis.param :=
    .call _ (hx.field _) (List.forall_mem_singleton.2
      (.lambda _ (.binary _ ((hl _ rfl).field _) (Expr.built_constant _))))
  exact .binary _ (.binary _ (.binary _ (hx.chain _) (Expr.built_constant _)) hlocated)
    (.unary _ (.binary _ (hx.chain _) (Expr.built_constant _)))

theorem adaInParis_scoped :
    adaInParis.test adaOfParis = .ok true ∧
      (adaInParis.scope "user" userModel false).test (userView 1 "Ada" (some "admin")) =
        .ok true := by
  have htrue : adaInParis.test adaOfParis = .ok true := rfl
  have hclosed : adaInParis.Closed := List.all_eq_true.1 rfl
  have hplain : (adaInParis.body.parts.all (!·.isConversion)) = true := rfl
  have hconn : (adaInParis.body.conjuncts.all fun k => k.parts.all fun part =>
      !(part.references adaInParis.param && part.isConnective)) = true := rfl
  refine ⟨htrue, Lambda.test_scope_of_record rfl rfl hclosed adaInParis_built
    (by simpa using hplain) (fun k hk part hp href => ?_) adaOfParis_conforms rfl htrue⟩
  simpa [href] using List.all_eq_true.1 (List.all_eq_true.1 hconn k hk) part hp

end Sample

end RecordView
