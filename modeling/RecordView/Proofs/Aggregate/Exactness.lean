import RecordView.Proofs.Aggregate.Scoping
import RecordView.Proofs.Expr.Chains

/-!
# Scoping a predicate that one record answers

Some predicates of composites speak of one field alone: the composite occurs in them only at the
start of chains through this field (`Expr.AnswerableBy`).  Where the field holds a single model,
nothing of such a predicate is lost, and it comes to the same for the model as for the composite, true
or false (`Lambda.test_scope_iff`).

This leaves out the quantifier `any`.  Scoping takes it for one over a collection facet, and drops
it also where it is asked about what is in the model of a single-record facet; under a disjunction or a
negation another answer is left (`Sample.scope_drops_any`).
-/

namespace RecordView

namespace Expr

variable {e : Expr} {x : Param} {field : String} {env env' : Env}

/-- The composite is mentioned only in chains through the field, and not in conversions or nested
functions. -/
inductive AnswerableBy (x : Param) (field : String) : Expr → Prop
  | apart {e : Expr} (unmentioned : e.references x = false) : AnswerableBy x field e
  | chain (name : String) (names : List String) :
    AnswerableBy x field ((parameter x).chain (field :: name :: names))
  | binary (op : BinaryOp) {l r : Expr} (left : AnswerableBy x field l)
    (right : AnswerableBy x field r) : AnswerableBy x field (.binary op l r)
  | unary {op : UnaryOp} {e : Expr} (isOperator : op.isConversion = false)
    (operand : AnswerableBy x field e) : AnswerableBy x field (.unary op e)
  | call (method : Method) {e : Expr} {args : List Expr} (target : AnswerableBy x field e)
    (each : ∀ arg ∈ args, AnswerableBy x field arg) : AnswerableBy x field (.call method e args)

theorem references_chain (e : Expr) (names : List String) (x : Param) :
    (e.chain names).references x = e.references x := by
  induction names generalizing e with
  | nil => rfl
  | cons name names ih => exact ih (e.field name)

/-- Whether the expression is a call of `any`. -/
def isSearch : Expr → Bool
  | call .any _ _ => true
  | _ => false

/-- No call of `any` in the expression mentions the composite. -/
def SearchesApart (x : Param) (e : Expr) : Prop :=
  ∀ part ∈ e.parts, part.isSearch = true → part.references x = false

theorem SearchesApart.mono {k : Expr} (h : e.SearchesApart x) (hparts : k.parts ⊆ e.parts) :
    k.SearchesApart x :=
  fun part hpart => h part (hparts hpart)

/-- Whatever one of the expressions comes to in its environment, the other one comes to as well. -/
structure Alike (env env' : Env) (e e' : Expr) : Prop where
  there : Follows env env' e e'
  back : Follows env' env e' e

end Expr

namespace FacetScope

variable {s : FacetScope} {e e' l l' r r' : Expr} {args args' : List Expr} {env env' : Env}

/-! ### What survives with all of its parts -/

/-- Of a chain on the composite, conversions included, the chain is what counts. -/
theorem prune_of_fieldChain? {names : List String} (h : e.fieldChain? s.outer = some names) :
    s.prune e = s.chain? e := by
  have href := Expr.references_of_namesFrom? (Expr.fieldChain?_eq_some.1 h).1
  cases e with
  | parameter p =>
    rw [Expr.fieldChain?, Expr.namesFrom?] at h
    split at h <;> cases h
  | access base name owner =>
    rw [Expr.references] at href
    rw [prune, if_pos href]
  | unary op operand =>
    rw [Expr.references] at href
    rw [Expr.fieldChain?, Expr.namesFrom?] at h
    split at h
    · rename_i hop
      have hchain : operand.fieldChain? s.outer = some names := h
      have hsame : (Expr.unary op operand).fieldChain? s.outer = operand.fieldChain? s.outer := by
        rw [Expr.fieldChain?, Expr.namesFrom?, if_pos hop]
        rfl
      rw [prune, if_pos href, hop, hchain, chain?, chain?, hsame]
      rfl
    · cases h
  | constant | binary | call | lambda => cases h

theorem prune_chain (hsingle : s.many = false) (name : String) (names : List String) :
    s.prune ((Expr.parameter s.outer).chain (s.field :: name :: names)) =
      some ((Expr.parameter s.inner).chain (name :: names)) := by
  have hchain : ((Expr.parameter s.outer).chain (s.field :: name :: names)).fieldChain? s.outer =
      some (s.field :: name :: names) := Expr.fieldChain?_chain (List.cons_ne_nil _ _)
  rw [prune_of_fieldChain? hchain, chain?, hchain, hsingle]
  simp

theorem prune_unary_of_some {op : UnaryOp} (hop : op.isConversion = false)
    (h : s.prune e = some e') : s.prune (.unary op e) = some (.unary op e') := by
  cases href : e.references s.outer with
  | true => rw [prune, if_pos href, hop, h]; rfl
  | false =>
    rw [prune_of_not_references href] at h
    cases h
    exact prune_of_not_references href

theorem prune_binary_of_some {op : BinaryOp} (hl : s.prune l = some l')
    (hr : s.prune r = some r') : s.prune (.binary op l r) = some (.binary op l' r') := by
  cases href : (Expr.binary op l r).references s.outer with
  | true =>
    rw [Expr.references] at href
    cases op <;> rw [prune, if_pos href] <;> simp [hl, hr, join]
  | false =>
    obtain ⟨hlref, hrref⟩ := Bool.or_eq_false_iff.1 href
    rw [prune_of_not_references hlref] at hl
    rw [prune_of_not_references hrref] at hr
    cases hl
    cases hr
    exact prune_of_not_references href

theorem pruneAll_of_each {pruned : Expr → Expr}
    (h : ∀ arg ∈ args, s.prune arg = some (pruned arg)) :
    s.pruneAll args = some (args.map pruned) := by
  induction args with
  | nil => rw [pruneAll]; rfl
  | cons arg args ih =>
    obtain ⟨harg, hargs⟩ := List.forall_mem_cons.1 h
    rw [pruneAll, harg, ih hargs]
    rfl

theorem prune_call_of_some {method : Method} (hmethod : method ≠ .any)
    (href : (Expr.call method e args).references s.outer = true) (he : s.prune e = some e')
    (hargs : s.pruneAll args = some args') :
    s.prune (.call method e args) = some (.call method e' args') := by
  rw [prune_call hmethod href, he, hargs]
  rfl

/-! ### What it comes to -/

theorem alike_of_not_references (hclosed : ∀ q ∈ e.freeParams, (s.outer == q) = true)
    (h : e.references s.outer = false) : Expr.Alike env env' e e :=
  ⟨follows_of_not_references hclosed h, follows_of_not_references hclosed h⟩

theorem Holds.alike_chain {c m : Record} (h : s.Holds c m) (names : List String) :
    Expr.Alike [(s.outer, c)] [(s.inner, m)] ((Expr.parameter s.outer).chain (s.field :: names))
      ((Expr.parameter s.inner).chain names) := by
  have hback : Expr.Follows [(s.inner, m)] [(s.outer, c)] (Expr.parameter s.inner)
      ((Expr.parameter s.outer).field s.field) := .operand rfl fun o ho => h.eval_field.trans ho
  exact ⟨h.follows_chain names, hback.chain h.recordSchema?_field.symm names⟩

/-- **What the model can answer alone survives, and comes to the same.** -/
theorem Holds.exists_alike {c m : Record} (h : s.Holds c m)
    (he : e.AnswerableBy s.outer s.field) (hclosed : ∀ q ∈ e.freeParams, (s.outer == q) = true)
    (hany : e.SearchesApart s.outer) :
    ∃ e', s.prune e = some e' ∧ Expr.Alike [(s.outer, c)] [(s.inner, m)] e e' := by
  induction he with
  | apart unmentioned =>
    exact ⟨_, prune_of_not_references unmentioned, alike_of_not_references hclosed unmentioned⟩
  | chain name names => exact ⟨_, prune_chain h.single name names, h.alike_chain (name :: names)⟩
  | @binary op l r left right ihl ihr =>
    obtain ⟨l', hl, hlalike⟩ := ihl (fun q hq => hclosed q (List.mem_append_left _ hq))
      (hany.mono (Expr.parts_subset_left op l r))
    obtain ⟨r', hr, hralike⟩ := ihr (fun q hq => hclosed q (List.mem_append_right _ hq))
      (hany.mono (Expr.parts_subset_right op l r))
    exact ⟨_, prune_binary_of_some hl hr, .binary op hlalike.there hralike.there,
      .binary op hlalike.back hralike.back⟩
  | @unary op e isOperator operand ih =>
    obtain ⟨e', he, halike⟩ := ih hclosed (hany.mono (List.subset_cons_self _ _))
    exact ⟨_, prune_unary_of_some isOperator he, .unary op halike.there, .unary op halike.back⟩
  | @call method e args target each ih ihs =>
    cases href : (Expr.call method e args).references s.outer with
    | false => exact ⟨_, prune_of_not_references href, alike_of_not_references hclosed href⟩
    | true =>
      have hmethod : method ≠ .any := by
        rintro rfl
        rw [hany _ (Expr.self_mem_parts _) rfl] at href
        cases href
      obtain ⟨e', he, halike⟩ := ih (fun q hq => hclosed q (List.mem_append_left _ hq))
        (hany.mono (Expr.parts_subset_target method e args))
      have hargs : ∀ arg ∈ args, ∃ arg', s.prune arg = some arg' ∧
          Expr.Alike [(s.outer, c)] [(s.inner, m)] arg arg' := fun arg harg =>
        ihs arg harg (fun q hq => hclosed q (Expr.freeParams_subset_arg method e harg hq))
          (hany.mono (Expr.parts_subset_arg method e harg))
      choose! pruned hpruned hargsalike using hargs
      refine ⟨_, prune_call_of_some hmethod href he (pruneAll_of_each hpruned),
        .call method halike.there ?_, .call method halike.back ?_⟩
      · rw [List.forall₂_map_right_iff, List.forall₂_same]
        exact fun arg harg => (hargsalike arg harg).there
      · rw [List.forall₂_map_left_iff, List.forall₂_same]
        exact fun arg harg => (hargsalike arg harg).back

end FacetScope

namespace Lambda

variable {g : Lambda} {field : String} {declared : Field} {model : Schema} {c m : Record}

/-- **Scoping a predicate that one record answers changes no answer.**  The predicate is closed and
mentions the composite only in chains through the field that holds the model, and not in a call of
`any`. -/
theorem test_scope_iff (hfield : g.param.schema.field? field = some declared)
    (hkind : declared.type.kind = .record model) (hclosed : g.Closed)
    (hg : g.body.AnswerableBy g.param field) (hany : g.body.SearchesApart g.param)
    (hc : c.Conforms g.param.schema) (hm : c.getRecord? field = some m) (b : Bool) :
    g.test c = .ok b ↔ (g.scope field model false).test m = .ok b := by
  have hholds : FacetScope.Holds ⟨g.param, ⟨g.param.name, model⟩, field, false⟩ c m :=
    ⟨rfl, ⟨declared, hfield, hkind⟩, hc, hm⟩
  obtain ⟨e', hprune, halike⟩ := hholds.exists_alike hg hclosed hany
  rw [test_eq_true hc.schema_eq, scope, test_eq_true (hc.getRecord? hfield hkind hm).schema_eq,
    hprune]
  exact ⟨halike.there.test, halike.back.test⟩

/-- The predicate speaks of one field alone, but scoped to the model there it has the other answer. -/
structure Flips (g : Lambda) (field : String) (model : Schema) (c m : Record) : Prop where
  closed : g.Closed
  answerable : g.body.AnswerableBy g.param field
  declared : ∃ declared, g.param.schema.field? field = some declared ∧
    declared.type.kind = .record model
  conforms : c.Conforms g.param.schema
  holds : c.getRecord? field = some m
  flips : ∃ b, g.test c = .ok b ∧ (g.scope field model false).test m = .ok !b

end Lambda

/-! ### Users and accounts -/

namespace Sample

/-- Those called Bob, and those without a role. -/
def bobOrNoRole : Lambda :=
  .over composite fun x =>
    .binary (.connective .or) ((x.chain ["user", "name"]).equals (.constant (.text "Bob")))
      (.unary .not (.call .any (x.chain ["user", "role"]) []))

/-- Ada, who has no role, in Paris. -/
def adaWithoutRole : Record :=
  residentView (some (userView 1 "Ada" none)) (some (locationView 1 "PARIS"))
    [locationView 1 "PARIS"]

/-- A place with one account. -/
def site : Schema := ⟨"Site", [one "account" accountView]⟩

/-- An account with a tag that has a name. -/
def taggedAccount (name : String) : Record :=
  accountView.default.setCell "tags"
    (.records [⟨tag, [("name", .value (.text name)), ("weight", .value .null)]⟩])

/-- The place with such an account. -/
def taggedSite (name : String) : Record :=
  ⟨site, [("account", .record (some (taggedAccount name)))]⟩

/-- Whether the tag is the one called "a". -/
def isTagA (t : Expr) : Expr := (t.field "name").equals (.constant (.text "a"))

/-- Places whose account has no tag called "a". -/
def withoutTagA : Lambda :=
  .over site fun x => .unary .not ((x.chain ["account", "tags"]).anyElement "t" isTagA)

/-- Places whose account has a total of 1, or no tags but those called "a". -/
def onlyTagsA : Lambda :=
  .over site fun x =>
    .binary (.connective .or)
      ((x.chain ["account", "total"]).equals (.constant (.int 1)))
      ((x.chain ["account", "tags"]).allElements "t" isTagA)

theorem adaWithoutRole_conforms : adaWithoutRole.Conforms composite :=
  residentView_conforms (userView_conforms ..) (locationView_conforms ..)
    (List.forall_mem_singleton.2 (locationView_conforms ..))

theorem taggedSite_conforms (name : String) : (taggedSite name).Conforms site := by
  have htag : Record.Conforms
      ⟨tag, [("name", .value (.text name)), ("weight", .value .null)]⟩ tag :=
    .intro (.cons_named rfl (.value rfl rfl) (.cons_named rfl (.value rfl rfl) .nil))
  have haccount : (taggedAccount name).Conforms accountView :=
    accountView.default_conforms.setCell (f := many "tags" tag) rfl
      (.records (s := tag) rfl (List.forall_mem_singleton.2 htag))
  exact .intro (.cons_named rfl (.record rfl haccount) .nil)

/-- A disjunction loses the side that asks for a role, and a negation is lost with the search for a
tag. -/
theorem scope_drops_any :
    bobOrNoRole.Flips "user" userModel adaWithoutRole (userView 1 "Ada" none) ∧
      withoutTagA.Flips "account" accountView (taggedSite "a") (taggedAccount "a") := by
  have hrole : bobOrNoRole.body.AnswerableBy bobOrNoRole.param "user" :=
    .binary _ (.binary _ (.chain "name" []) (.apart rfl))
      (.unary rfl (.call _ (.chain "role" []) (List.forall_mem_nil _)))
  have htag : withoutTagA.body.AnswerableBy withoutTagA.param "account" :=
    .unary rfl (.call _ (.chain "tags" []) (List.forall_mem_singleton.2 (.apart rfl)))
  exact ⟨
    ⟨List.all_eq_true.1 rfl, hrole, ⟨_, rfl, rfl⟩, adaWithoutRole_conforms, rfl, true, rfl, rfl⟩,
    ⟨List.all_eq_true.1 rfl, htag, ⟨_, rfl, rfl⟩, taggedSite_conforms "a", rfl, false, rfl, rfl⟩⟩

theorem onlyTagsA_scoped :
    onlyTagsA.test (taggedSite "b") = .ok false ∧
      (onlyTagsA.scope "account" accountView false).test (taggedAccount "b") = .ok false := by
  have hanswerable : onlyTagsA.body.AnswerableBy onlyTagsA.param "account" :=
    .binary _ (.binary _ (.chain "total" []) (.apart rfl))
      (.call _ (.chain "tags" []) (List.forall_mem_singleton.2 (.apart rfl)))
  have hnone : (onlyTagsA.body.parts.all fun part => !part.isSearch) = true := rfl
  have hany : onlyTagsA.body.SearchesApart onlyTagsA.param := fun part hpart hsearch => by
    simpa [hsearch] using List.all_eq_true.1 hnone part hpart
  have hfalse : onlyTagsA.test (taggedSite "b") = .ok false := rfl
  exact ⟨hfalse, (Lambda.test_scope_iff rfl rfl (List.all_eq_true.1 rfl) hanswerable hany
    (taggedSite_conforms "b") rfl false).1 hfalse⟩

end Sample

end RecordView
