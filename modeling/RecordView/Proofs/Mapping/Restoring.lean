import RecordView.Proofs.Mapping.Overwriting
import RecordView.Proofs.Mapping.Translation

/-!
# Translation there and back

Where no two mappings have the same entity path, translating a function of the model to the entity
and back restores it, up to the conversions that the way back puts in
(`MappingSet.translate_restores`).  A chain of the function comes back as the builders make it from
the names of its mapping, so all accesses have to be in such chains, on the parameter of the function
or on that of a nested one (`Expr.Chained`).  A nested parameter that is the one of the translated
function would be taken for it on the way back.
-/

namespace RecordView

/-- Parameters that are equal and over one schema are the same. -/
theorem Param.eq_of_beq {p q : Param} (h : (p == q) = true) (hschema : p.schema = q.schema) :
    p = q := by
  obtain ⟨name, schema⟩ := p
  obtain ⟨name', schema'⟩ := q
  obtain ⟨rfl, -⟩ := Param.beq_iff.1 h
  obtain rfl := hschema
  rfl

namespace Expr

variable {e : Expr}

/-! ### Erasing conversions -/

mutual

/-- The expression without the conversions in it. -/
def erase : Expr → Expr
  | parameter p => parameter p
  | access base name owner => access base.erase name owner
  | binary op left right => binary op left.erase right.erase
  | unary op operand => if op.isConversion then operand.erase else unary op operand.erase
  | constant v => constant v
  | call method target args => call method target.erase (eraseAll args)
  | lambda p body => lambda p body.erase

/-- The expressions without the conversions in them. -/
def eraseAll : List Expr → List Expr
  | [] => []
  | e :: es => e.erase :: eraseAll es

end

theorem eraseAll_eq_map (args : List Expr) : eraseAll args = args.map erase := by
  induction args with
  | nil => rfl
  | cons arg args ih => rw [eraseAll, ih, List.map_cons]

theorem erase_convertTo (e : Expr) (t : FieldType) : (e.convertTo t).erase = e.erase := by
  unfold convertTo
  split <;> rfl

theorem erase_coerce (op : BinaryOp) (l r : Expr) :
    (coerce op l r).erase = binary op l.erase r.erase := by
  obtain ⟨l', r', hcoerce, hcoerced⟩ := exists_coerced op l r
  rw [hcoerce, erase]
  cases hcoerced <;> simp only [erase_convertTo]

theorem erase_chain (h : e.erase = e) (names : List String) :
    (e.chain names).erase = e.chain names := by
  induction names generalizing e with
  | nil => exact h
  | cons name names ih => exact ih (congrArg (access · name _) h)

/-! ### Chains of the builders -/

/-- What the builders make without conversions, where all fields are accessed in chains on the
parameters in scope. -/
inductive Chained : List Param → Expr → Prop
  | chain {scope : List Param} {p : Param} (bound : p ∈ scope) (names : List String) :
    Chained scope ((parameter p).chain names)
  | constant {scope : List Param} (v : Value) : Chained scope (.constant v)
  | binary {scope : List Param} {l r : Expr} (op : BinaryOp) (left : Chained scope l)
    (right : Chained scope r) : Chained scope (.binary op l r)
  | unary {scope : List Param} {op : UnaryOp} {e : Expr} (isOperator : op.isConversion = false)
    (operand : Chained scope e) : Chained scope (.unary op e)
  | call {scope : List Param} {e : Expr} {args : List Expr} (method : Method)
    (target : Chained scope e) (each : ∀ arg ∈ args, Chained scope arg) :
    Chained scope (.call method e args)
  | lambda {scope : List Param} {e : Expr} (p : Param) (body : Chained (p :: scope) e) :
    Chained scope (.lambda p e)

end Expr

namespace MappingSet

variable {set : MappingSet} {d : Direction} {x y : Param} {e : Expr}

/-! ### What the second translation meets -/

/-- Conversions are dropped. -/
theorem translateExpr_convertTo (e : Expr) (t : FieldType) :
    set.translateExpr d x y (e.convertTo t) = set.translateExpr d x y e := by
  unfold Expr.convertTo
  split
  · rfl
  · rw [translateExpr]
    rfl

theorem translateExpr_coerce (op : BinaryOp) (l r : Expr) :
    set.translateExpr d x y (.coerce op l r) = do
      let l ← set.translateExpr d x y l
      let r ← set.translateExpr d x y r
      return .coerce op l r := by
  obtain ⟨l', r', hcoerce, hcoerced⟩ := Expr.exists_coerced op l r
  rw [hcoerce, translateExpr]
  cases hcoerced <;> simp only [translateExpr_convertTo]

/-- A chain that starts elsewhere stays as the builders made it. -/
theorem translateExpr_chain_of_free (hfree : e.namesFrom? x = none)
    (he : set.translateExpr d x y e = .ok e) (names : List String) :
    set.translateExpr d x y (e.chain names) = .ok (e.chain names) := by
  induction names generalizing e with
  | nil => exact he
  | cons name names ih =>
    have hchain : (e.field name).fieldChain? x = none := by
      rw [Expr.field, Expr.fieldChain?_access, hfree]
      rfl
    refine ih ?_ ?_
    · rw [Expr.field, Expr.namesFrom?_access, hfree]
      rfl
    · rw [Expr.field] at hchain ⊢
      rw [translateExpr, hchain, he]
      rfl

/-- A chain on another parameter is not translated. -/
theorem translateExpr_chain_of_ne {q : Param} (hq : (q == x) = false) (names : List String) :
    set.translateExpr d x y ((Expr.parameter q).chain names) =
      .ok ((Expr.parameter q).chain names) := by
  refine translateExpr_chain_of_free ?_ ?_ names
  · rw [Expr.namesFrom?, hq]
    rfl
  · rw [translateExpr, hq]
    rfl

/-! ### There and back -/

variable {model entity : Schema} {e' : Expr} {names : List String} {scope : List Param}

/-- What is found on the way there is found on the way back. -/
theorem Sound.find_entity (hs : set.Sound model entity) (hd : set.DistinctEntities) {m : Mapping}
    (h : set.find .modelToEntity names = .ok m) :
    set.find .entityToModel m.entity.names = .ok m := by
  have hm := (mem_of_find h).1
  exact find_of_nodup (hs.roots_eq_ok (List.ne_nil_of_mem hm) .entityToModel) hd hm

/-- A chain on the parameter of the model comes back from the path that is mapped to it. -/
theorem Sound.restores_chain (hs : set.Sound model entity) (hd : set.DistinctEntities)
    (hx : x.schema = model) (hnames : names ≠ [])
    (h : set.translateExpr .modelToEntity x y ((Expr.parameter x).chain names) = .ok e') :
    set.translateExpr .entityToModel y x e' = .ok ((Expr.parameter x).chain names) := by
  rw [translateExpr_of_fieldChain? (Expr.fieldChain?_chain hnames)] at h
  obtain ⟨m, hm, h⟩ := bind_eq_ok.1 h
  cases h
  obtain ⟨hmem, rfl⟩ := mem_of_find hm
  have hmodel := (hs.between m hmem).model
  rw [Mapping.target, translateExpr_toExpr, hs.find_entity hd hm, Mapping.source,
    hmodel.resolved.chain_names (hx.trans hmodel.root.symm)]
  rfl

/-- A parameter that equals `x` is `x`, and it will not be taken for `y`. -/
def Distinguished (x y q : Param) : Prop := ((q == x) = true → q = x) ∧ (q == y) = false

/-- The translation of `e` is translated back, to `e` with conversions. -/
def ComesBack (set : MappingSet) (x y : Param) (e e' : Expr) : Prop :=
  ∃ e'', set.translateExpr .entityToModel y x e' = .ok e'' ∧ e''.erase = e

namespace ComesBack

variable {l l' r r' : Expr} {args : List Expr}

theorem constant (v : Value) : set.ComesBack x y (.constant v) (.constant v) :=
  ⟨.constant v, by rw [translateExpr], rfl⟩

theorem coerce (op : BinaryOp) (hl : set.ComesBack x y l l') (hr : set.ComesBack x y r r') :
    set.ComesBack x y (.binary op l r) (.coerce op l' r') := by
  obtain ⟨l'', hl', hl⟩ := hl
  obtain ⟨r'', hr', hr⟩ := hr
  refine ⟨.coerce op l'' r'', ?_, ?_⟩
  · rw [translateExpr_coerce, hl', hr']
    rfl
  · rw [Expr.erase_coerce, hl, hr]

theorem unary {op : UnaryOp} (isOperator : op.isConversion = false) (h : set.ComesBack x y e e') :
    set.ComesBack x y (.unary op e) (.unary op e') := by
  obtain ⟨e'', h', he⟩ := h
  refine ⟨.unary op e'', ?_, ?_⟩
  · rw [translateExpr, isOperator, h']
    rfl
  · rw [Expr.erase, isOperator, he]
    rfl

theorem call (method : Method) {translated : Expr → Expr} (h : set.ComesBack x y e e')
    (hargs : ∀ arg ∈ args, set.ComesBack x y arg (translated arg)) :
    set.ComesBack x y (.call method e args) (.call method e' (args.map translated)) := by
  obtain ⟨e'', h', he⟩ := h
  choose! back hback herase using hargs
  have hargs : (args.map translated).mapM (set.translateExpr .entityToModel y x) =
      .ok (args.map back) := by
    rw [List.mapM_map]
    exact mapM_eq_map hback
  refine ⟨.call method e'' (args.map back), ?_, ?_⟩
  · rw [translateExpr, translateArgs_eq_mapM, h', hargs]
    rfl
  · rw [Expr.erase, Expr.eraseAll_eq_map, List.map_map, he]
    congr
    exact (List.map_congr_left herase).trans (List.map_id args)

theorem lambda (q : Param) (h : set.ComesBack x y e e') :
    set.ComesBack x y (.lambda q e) (.lambda q e') := by
  obtain ⟨e'', h', he⟩ := h
  refine ⟨.lambda q e'', ?_, ?_⟩
  · rw [translateExpr, h']
    rfl
  · rw [Expr.erase, he]

end ComesBack

/-- A chain comes back, on the parameter of the model or on another one. -/
theorem Sound.chain_comesBack (hs : set.Sound model entity) (hd : set.DistinctEntities)
    (hx : x.schema = model) {q : Param} (hq : Distinguished x y q)
    (h : set.translateExpr .modelToEntity x y ((Expr.parameter q).chain names) = .ok e') :
    set.ComesBack x y ((Expr.parameter q).chain names) e' := by
  refine ⟨_, ?_, Expr.erase_chain rfl names⟩
  cases hqx : q == x with
  | false =>
    rw [translateExpr_chain_of_ne hqx] at h
    cases h
    exact translateExpr_chain_of_ne hq.2 names
  | true =>
    obtain rfl := hq.1 hqx
    cases names with
    | nil =>
      rw [Expr.chain, List.foldl_nil, translateExpr, if_pos hqx] at h
      cases h
      rw [translateExpr, if_pos y.beq_self]
      rfl
    | cons name names => exact hs.restores_chain hd hx (List.cons_ne_nil name names) h

/-- **An expression that is translated there is translated back**, to itself with conversions. -/
theorem Sound.restores (hs : set.Sound model entity) (hd : set.DistinctEntities)
    (hx : x.schema = model) (he : e.Chained scope) (hscope : ∀ q ∈ scope, Distinguished x y q)
    (hbound : ∀ q body, Expr.lambda q body ∈ e.parts → Distinguished x y q)
    (h : set.translateExpr .modelToEntity x y e = .ok e') : set.ComesBack x y e e' := by
  induction he generalizing e' with
  | @chain _ q bound names => exact hs.chain_comesBack hd hx (hscope q bound) h
  | constant v =>
    rw [translateExpr] at h
    cases h
    exact .constant v
  | @binary _ l r op left right ihl ihr =>
    rw [translateExpr] at h
    obtain ⟨l', hl, h⟩ := bind_eq_ok.1 h
    obtain ⟨r', hr, h⟩ := bind_eq_ok.1 h
    cases h
    exact .coerce op
      (ihl hscope (fun q body hq => hbound q body (Expr.parts_subset_left op l r hq)) hl)
      (ihr hscope (fun q body hq => hbound q body (Expr.parts_subset_right op l r hq)) hr)
  | @unary _ op e isOperator operand ih =>
    rw [translateExpr, isOperator] at h
    obtain ⟨u, hu, h⟩ := bind_eq_ok.1 h
    cases h
    exact .unary isOperator (ih hscope (fun q body hq => hbound q body (.tail _ hq)) hu)
  | @call _ e args method target each ih ihs =>
    rw [translateExpr, translateArgs_eq_mapM] at h
    obtain ⟨t, ht, h⟩ := bind_eq_ok.1 h
    obtain ⟨args', hargs, h⟩ := bind_eq_ok.1 h
    cases h
    obtain ⟨translated, heach, rfl⟩ := exists_map_of_mapM hargs
    refine .call method
      (ih hscope (fun q body hq => hbound q body (Expr.parts_subset_target method e args hq)) ht)
      fun arg harg => ihs arg harg hscope (fun q body hq => ?_) (heach arg harg)
    exact hbound q body (Expr.parts_subset_arg method e harg hq)
  | @lambda _ e q body ih =>
    rw [translateExpr] at h
    obtain ⟨b, hb, h⟩ := bind_eq_ok.1 h
    cases h
    have hq : Distinguished x y q := hbound q e (Expr.self_mem_parts _)
    exact .lambda q (ih (List.forall_mem_cons.2 ⟨hq, hscope⟩)
      (fun q body hq => hbound q body (.tail _ hq)) hb)

/-- **Translating a function of the model to the entity and back restores it.**  In a set that was
built by insertions and has no two mappings with the same entity path, between different schemas: what
comes back of a function that is closed, has no conversions, and accesses fields in chains of its
parameters only, has its parameter, and without the conversions that were put in it has its body.  No
nested parameter may be the one that the function has on the side of the entity. -/
theorem translate_restores {known : Schema → Prop} (hk : Schema.Coherent known)
    {ms : List Mapping} (hms : ∀ m ∈ ms, TiesKnown known m) (hset : insertAll .empty ms = set)
    (hd : set.DistinctEntities) (hroots : set.roots? = some (model, entity))
    (hne : model.path ≠ entity.path) {p q : Lambda} (hp : known p.param.schema)
    (hchained : p.body.Chained [p.param])
    (hnested : ∀ x body, Expr.lambda x body ∈ p.body.parts →
      known x.schema ∧ (x == ⟨p.param.name, entity⟩) = false)
    (hq : set.translate .modelToEntity p = .ok q) :
    ∃ r, set.translate .entityToModel q = .ok r ∧ r.param = p.param ∧ r.body.erase = p.body := by
  obtain ⟨hschema, hparam, hbody⟩ := (translate_eq_ok hroots).1 hq
  have hbuilt : set.Built known := hset ▸ built_insertAll hk hms
  obtain rfl | ⟨model', entity', hmodel, hentity, hmappings, hs⟩ := hbuilt
  · cases hroots
  obtain ⟨rfl, rfl⟩ : model' = model ∧ entity' = entity := by
    simpa using (hs.roots hmappings).symm.trans hroots
  have hx : p.param.schema = model' := hk _ _ hp hmodel (Schema.beq_iff.1 hschema)
  have hself : Distinguished p.param q.param p.param := by
    refine ⟨fun _ => rfl, ?_⟩
    rw [← Bool.not_eq_true, Param.beq_iff, hparam]
    exact fun h => hne (hx ▸ h.2)
  have hothers : ∀ x body, Expr.lambda x body ∈ p.body.parts →
      Distinguished p.param q.param x := by
    intro x body hx
    obtain ⟨hknown, hapart⟩ := hnested x body hx
    refine ⟨fun hsame => Param.eq_of_beq hsame ?_, by rw [hparam]; exact hapart⟩
    exact hk _ _ hknown hp (Param.beq_iff.1 hsame).2
  obtain ⟨body, hback, herase⟩ :=
    hs.restores hd hx hchained (List.forall_mem_singleton.2 hself) hothers hbody
  refine ⟨⟨p.param, body⟩, (translate_eq_ok hroots).2 ⟨?_, ?_, hback⟩, rfl, herase⟩
  · rw [hparam]
    exact Schema.beq_self _
  · rw [hparam]
    exact congrArg (Param.mk p.param.name) hx

end MappingSet

/-! ### Users -/

namespace Sample

/-- Of the models, those that `adminOrYoung` is about and that have one of two roles. -/
def adminOfTwoRoles : Lambda :=
  .over userModel fun x =>
    adminOrYoung.body.conj ((Expr.constant (.list [.text "admin", .text "guest"])).anyElement "role"
      fun role => role.equals (x.field "role"))

theorem adminOfTwoRoles_chained : adminOfTwoRoles.body.Chained [adminOfTwoRoles.param] := by
  have hfield (name : String) (scope : List Param) (h : adminOfTwoRoles.param ∈ scope) :
      ((Expr.parameter adminOfTwoRoles.param).chain [name]).Chained scope := .chain h [name]
  have hadmin : adminOrYoung.body.Chained [adminOfTwoRoles.param] :=
    .binary _ (.binary _ (hfield "role" _ (.head _)) (.constant _))
      (.unary rfl (.binary _ (hfield "age" _ (.head _)) (.constant _)))
  refine .binary _ hadmin (.call _ (.constant _) (List.forall_mem_singleton.2 (.lambda _ ?_)))
  exact .binary _ (.chain (.head _) []) (hfield "role" _ (.tail _ (.head _)))

/-- Schemas of users, their models, and what is no record. -/
theorem coherent_usersAndUntyped :
    Schema.Coherent fun s => s ∈ [userModel, user, Expr.untyped] := by
  intro s t hs ht hpath
  simp only [List.mem_cons, List.not_mem_nil, or_false] at hs ht
  obtain rfl | rfl | rfl := hs <;> obtain rfl | rfl | rfl := ht <;>
    first | rfl | exact absurd hpath (by decide)

/-- The function comes back, although values were converted on the way. -/
theorem adminOfTwoRoles_restored :
    ∃ q, userMappings.translate .modelToEntity adminOfTwoRoles = .ok q ∧
      (∃ part ∈ q.body.parts, part.isConversion = true) ∧
      ∃ r, userMappings.translate .entityToModel q = .ok r ∧ r.param = adminOfTwoRoles.param ∧
        r.body.erase = adminOfTwoRoles.body := by
  obtain ⟨q, hq, hconverted⟩ : ∃ q, userMappings.translate .modelToEntity adminOfTwoRoles = .ok q ∧
      q.body.parts.any (·.isConversion) = true := ⟨_, rfl, rfl⟩
  have hsound : userMappings.Sound userModel user :=
    (MappingSet.sound_of_roots coherent_users rfl userDeclarations_known rfl).1
  have hknown : ∀ m ∈ userMappings.mappings,
      MappingSet.TiesKnown (fun s => s ∈ [userModel, user, Expr.untyped]) m :=
    fun m hm => ⟨userModel, user, by simp, by simp, hsound.between m hm⟩
  obtain ⟨b, hnested⟩ : ∃ b, adminOfTwoRoles.body.parts.filter (·.isLambda) =
      [.lambda ⟨"role", Expr.untyped⟩ b] := ⟨_, rfl⟩
  refine ⟨q, hq, List.any_eq_true.1 hconverted, ?_⟩
  refine MappingSet.translate_restores coherent_usersAndUntyped hknown rfl
    userMappings_distinctEntities rfl (by decide) (.head _) adminOfTwoRoles_chained
    (fun x body hx => ?_) hq
  have hx : Expr.lambda x body ∈ adminOfTwoRoles.body.parts.filter (·.isLambda) :=
    List.mem_filter.2 ⟨hx, rfl⟩
  rw [hnested, List.mem_singleton, Expr.lambda.injEq] at hx
  rw [hx.1]
  exact ⟨by simp, by decide⟩

end Sample

end RecordView
