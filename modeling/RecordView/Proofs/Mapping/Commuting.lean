import RecordView.Proofs.Expr.Parts
import RecordView.Proofs.Expr.Yields
import RecordView.Proofs.Mapping.Projection
import RecordView.Sample.Users

/-!
# Translation commutes with projection

An expression over the model and its translation come to the same on a model and on the entity that
it was projected from, and so do an expression over the entity and its translation
(`MappingSet.translate_commutes_with_project`).

`MappingSet.Translatable` describes the expressions.  Their chains are mapped, their operands have
the kinds that the operators ask for, and nothing else is asked for; they nest to any depth.  The
proof is by induction on that description.  An expression and its translation *mirror* each other
(`Expr.Mirrors`): they have one kind, and in their environments both come to the same value or both
fail.  There is one lemma for each constructor, and the conversions that the translation puts in
between operands are taken care of by `Expr.exists_coerce`.
-/

namespace RecordView

/-! ### Mirrored expressions -/

namespace Expr

/-- The expressions have one kind, and each in its environment they come to the same. -/
structure Mirrors (env env' : Env) (e e' : Expr) : Prop where
  kind : e'.type.kind = e.type.kind
  null : e = .constant .null → e' = .constant .null
  yields : ∃ o, e.Yields env o ∧ e'.Yields env' o

variable {env env' : Env} {e e' l l' r r' : Expr}

theorem Mirrors.constant (v : Value) :
    (Expr.constant v).Mirrors env env' (Expr.constant v) :=
  ⟨rfl, id, _, .constant v, .constant v⟩

theorem Comparable.mirror (h : Comparable l r) (hl : l.Mirrors env env' l')
    (hr : r.Mirrors env env' r') : Comparable l' r' := by
  cases h with
  | kinds same => exact .kinds (by rw [hl.kind, hr.kind, same])
  | numbers left right => exact .numbers (by rw [hl.kind]; exact left) (by rw [hr.kind]; exact right)
  | nullLeft null => exact .nullLeft (hl.null null)
  | nullRight null => exact .nullRight (hr.null null)

/-- A conversion that changes nothing keeps the mirror. -/
theorem Mirrors.recast {e'' : Expr} (h : e.Mirrors env env' e') (hr : e'.Recast e'')
    (hany : e.type.kind ≠ .any) : e.Mirrors env env' e'' := by
  obtain ⟨o, he, he'⟩ := h.yields
  refine ⟨?_, ?_, o, he, hr.yields he'⟩
  · rw [hr.kind (by rw [h.kind]; exact hany), h.kind]
  · rintro rfl
    exact absurd rfl hany

theorem Mirrors.comparison (c : Comparison) (hc : Comparable l r) (hl : l.Mirrors env env' l')
    (hr : r.Mirrors env env' r') :
    (binary (.comparison c) l r).Mirrors env env' (coerce (.comparison c) l' r') := by
  obtain ⟨l'', r'', hcoerce, hl'', hr''⟩ := exists_coerce (.comparison c) (hc.mirror hl hr)
  obtain ⟨ol, hol, hol'⟩ := hl.yields
  obtain ⟨or, hor, hor'⟩ := hr.yields
  rw [hcoerce]
  exact ⟨rfl, by rintro ⟨⟩, _, hol.comparison c hor,
    (hl''.yields hol').comparison c (hr''.yields hor')⟩

/-- The operands of an operator that wants both of one kind, after the translation. -/
theorem Mirrors.exists_coerce (op : BinaryOp) (hl : l.Mirrors env env' l')
    (hr : r.Mirrors env env' r') (hkind : l.type.kind = r.type.kind) (hany : l.type.kind ≠ .any) :
    ∃ l'' r'', coerce op l' r' = binary op l'' r'' ∧ l.Mirrors env env' l'' ∧
      r.Mirrors env env' r'' := by
  obtain ⟨l'', r'', hcoerce, hl'', hr''⟩ :=
    Expr.exists_coerce op (Comparable.mirror (.kinds hkind) hl hr)
  exact ⟨l'', r'', hcoerce, hl.recast hl'' hany, hr.recast hr'' (hkind ▸ hany)⟩

theorem Mirrors.connective (c : Connective) (hl : l.Mirrors env env' l')
    (hr : r.Mirrors env env' r') (hlk : l.type.kind = .bool) (hrk : r.type.kind = .bool) :
    (binary (.connective c) l r).Mirrors env env' (coerce (.connective c) l' r') := by
  obtain ⟨l'', r'', hcoerce, hl, hr⟩ :=
    Mirrors.exists_coerce (.connective c) hl hr (hlk.trans hrk.symm) (by simp [hlk])
  obtain ⟨ol, hol, hol'⟩ := hl.yields
  obtain ⟨or, hor, hor'⟩ := hr.yields
  rw [hcoerce]
  exact ⟨rfl, by rintro ⟨⟩, _, hol.connective c hor hlk hrk,
    hol'.connective c hor' (hl.kind.trans hlk) (hr.kind.trans hrk)⟩

theorem Mirrors.arithmetic (a : Arithmetic) (hl : l.Mirrors env env' l')
    (hr : r.Mirrors env env' r') (hlk : l.type.kind = .int) (hrk : r.type.kind = .int) :
    (binary (.arithmetic a) l r).Mirrors env env' (coerce (.arithmetic a) l' r') := by
  obtain ⟨l'', r'', hcoerce, hl, hr⟩ :=
    Mirrors.exists_coerce (.arithmetic a) hl hr (hlk.trans hrk.symm) (by simp [hlk])
  obtain ⟨ol, hol, hol'⟩ := hl.yields
  obtain ⟨or, hor, hor'⟩ := hr.yields
  rw [hcoerce]
  refine ⟨?_, by rintro ⟨⟩, _, hol.arithmetic a hor hlk hrk,
    hol'.arithmetic a hor' (hl.kind.trans hlk) (hr.kind.trans hrk)⟩
  simp only [type, hl.kind, hr.kind]

theorem Mirrors.not (he : e.Mirrors env env' e') (hk : e.type.kind = .bool) :
    (unary .not e).Mirrors env env' (unary .not e') := by
  obtain ⟨o, ho, ho'⟩ := he.yields
  exact ⟨rfl, by rintro ⟨⟩, _, ho.not hk, ho'.not (he.kind.trans hk)⟩

theorem Mirrors.neg (he : e.Mirrors env env' e') (hk : e.type.kind = .int) :
    (unary .neg e).Mirrors env env' (unary .neg e') := by
  obtain ⟨o, ho, ho'⟩ := he.yields
  exact ⟨he.kind, by rintro ⟨⟩, _, ho.neg hk, ho'.neg (he.kind.trans hk)⟩

theorem Mirrors.part {method : Method} (hm : method.asksForPart = true)
    (hl : l.Mirrors env env' l') (hr : r.Mirrors env env' r') :
    (call method l [r]).Mirrors env env' (call method l' [r']) := by
  obtain ⟨ol, hol, hol'⟩ := hl.yields
  obtain ⟨or, hor, hor'⟩ := hr.yields
  exact ⟨rfl, by rintro ⟨⟩, _, hol.part hm hor, hol'.part hm hor'⟩

end Expr

namespace MappingSet

variable {set : MappingSet} {model entity : Schema} {d : Direction} {x y : Param}

/-! ### Translatable expressions -/

/-- The expressions that are carried over as they are: mapped chains and constants, under operators
whose operands have the kinds that they ask for. -/
inductive Translatable (set : MappingSet) (d : Direction) (x : Param) : Expr → Prop
  | constant (v : Value) : Translatable set d x (.constant v)
  | chain {names : List String} {m : Mapping} (found : set.find d names = .ok m) :
    Translatable set d x ((Expr.parameter x).chain names)
  | comparison (c : Comparison) {l r : Expr} (left : Translatable set d x l)
    (right : Translatable set d x r) (comparable : Expr.Comparable l r) :
    Translatable set d x (.binary (.comparison c) l r)
  | connective (c : Connective) {l r : Expr} (left : Translatable set d x l)
    (right : Translatable set d x r) (leftKind : l.type.kind = .bool)
    (rightKind : r.type.kind = .bool) : Translatable set d x (.binary (.connective c) l r)
  | arithmetic (a : Arithmetic) {l r : Expr} (left : Translatable set d x l)
    (right : Translatable set d x r) (leftKind : l.type.kind = .int)
    (rightKind : r.type.kind = .int) : Translatable set d x (.binary (.arithmetic a) l r)
  | not {e : Expr} (operand : Translatable set d x e) (kind : e.type.kind = .bool) :
    Translatable set d x (.unary .not e)
  | neg {e : Expr} (operand : Translatable set d x e) (kind : e.type.kind = .int) :
    Translatable set d x (.unary .neg e)
  | part {method : Method} {l r : Expr} (asks : method.asksForPart = true)
    (whole : Translatable set d x l) (part : Translatable set d x r) :
    Translatable set d x (.call method l [r])

/-! ### Chains -/

theorem yields_toExpr {p : FieldPath} {s : Schema} (hp : p.ScalarOn s) {r : Record}
    (hr : r.Conforms s) {env : Env} (hx : env.lookup? x = some r) :
    (p.toExpr (.parameter x)).Yields env (some (p.read r)) := by
  have hconf := hp.conforms hr
  refine .value (hp.resolved.eval_toExpr hp.scalar hconf hx) ?_
  rw [hp.resolved.kind_toExpr]
  exact hp.resolved.hasKind_read hp.scalar hconf

/-- A chain on the parameter is looked up by its names. -/
theorem translateExpr_of_fieldChain? {e : Expr} {names : List String}
    (h : e.fieldChain? x = some names) :
    set.translateExpr d x y e = do
      let m ← set.find d names
      return (m.target d).toExpr (.parameter y) := by
  induction e using Expr.induct with
  | parameter p =>
    rw [Expr.fieldChain?, Expr.namesFrom?] at h
    split at h <;> cases h
  | access base name owner => rw [translateExpr, h]
  | unary op e ih =>
    rw [Expr.fieldChain?, Expr.namesFrom?] at h
    rw [translateExpr]
    split at h
    · rw [if_pos ‹_›, ih h]
    · cases h
  | constant | binary | call | lambda => cases h

/-- A path that is read on the parameter is looked up by its names. -/
theorem translateExpr_toExpr (p : FieldPath) :
    set.translateExpr d x y (p.toExpr (.parameter x)) = do
      let m ← set.find d p.names
      return (m.target d).toExpr (.parameter y) :=
  translateExpr_of_fieldChain? FieldPath.Resolved.fieldChain?_toExpr

/-- A mapped chain becomes the path at the other end of its mapping.  The two mirror each other on
records that agree there. -/
theorem exists_translate_chain {names : List String} {m : Mapping} {source target : Schema}
    (found : set.find d names = .ok m) (hsource : (m.source d).ScalarOn source)
    (htarget : (m.target d).ScalarOn target)
    (hkind : (m.target d).leaf.type.kind = (m.source d).leaf.type.kind) (hx : x.schema = source) :
    ∃ e', set.translateExpr d x y ((Expr.parameter x).chain names) = .ok e' ∧
      ∀ r r', r.Conforms source → r'.Conforms target →
        (m.source d).read r = (m.target d).read r' →
        ((Expr.parameter x).chain names).Mirrors [(x, r)] [(y, r')] e' := by
  have hnames := (mem_of_find found).2
  have hchain : (Expr.parameter x).chain names = (m.source d).toExpr (.parameter x) := by
    rw [← hnames]
    exact hsource.resolved.chain_names (hx.trans hsource.root.symm)
  refine ⟨(m.target d).toExpr (.parameter y), ?_, fun r r' hr hr' hread => ?_⟩
  · rw [hchain, translateExpr_toExpr, hnames, found]
    rfl
  · have hlookup : Env.lookup? [(x, r)] x = some r := by simp [Env.lookup?]
    have hlookup' : Env.lookup? [(y, r')] y = some r' := by simp [Env.lookup?]
    rw [hchain]
    refine ⟨?_, ?_, some ((m.source d).read r), yields_toExpr hsource hr hlookup,
      hread ▸ yields_toExpr htarget hr' hlookup'⟩
    · rw [htarget.resolved.kind_toExpr, hsource.resolved.kind_toExpr, hkind]
    · intro hnull
      obtain ⟨inner, hacc⟩ := (m.source d).exists_access (.parameter x)
      rw [hacc] at hnull
      cases hnull

/-! ### Simulation -/

/-- The two records conform to the roots and read the same at the two ends of every mapping. -/
structure Linked (set : MappingSet) (d : Direction) (source target : Schema) (r r' : Record) :
    Prop where
  source : r.Conforms source
  target : r'.Conforms target
  reads : ∀ m ∈ set.mappings, (m.source d).read r = (m.target d).read r'

/-- **A translatable expression is translated, and the two mirror each other** on all records that
are linked by the mappings. -/
theorem Translatable.exists_translate (hs : set.Sound model entity) (hk : set.SameKinds)
    (hx : x.schema = d.source model entity) {e : Expr} (he : set.Translatable d x e) :
    ∃ e', set.translateExpr d x y e = .ok e' ∧
      ∀ r r', set.Linked d (d.source model entity) (d.target model entity) r r' →
        e.Mirrors [(x, r)] [(y, r')] e' := by
  induction he with
  | constant v => exact ⟨.constant v, by rw [translateExpr], fun _ _ _ => .constant v⟩
  | @chain _ m found =>
    have hm := (mem_of_find found).1
    have hkind : (m.target d).leaf.type.kind = (m.source d).leaf.type.kind := by
      cases d with
      | modelToEntity => exact (hk m hm).symm
      | entityToModel => exact hk m hm
    have hb := hs.between m hm
    obtain ⟨e', he', hmirror⟩ :=
      exists_translate_chain (y := y) found (hb.source d) (hb.target d) hkind hx
    exact ⟨e', he', fun r r' h => hmirror r r' h.source h.target (h.reads m hm)⟩
  | comparison c _ _ comparable ihl ihr =>
    obtain ⟨l', hl', hl⟩ := ihl
    obtain ⟨r', hr', hr⟩ := ihr
    exact ⟨_, by rw [translateExpr, hl', hr']; rfl,
      fun s s' h => (hl s s' h).comparison c comparable (hr s s' h)⟩
  | connective c _ _ leftKind rightKind ihl ihr =>
    obtain ⟨l', hl', hl⟩ := ihl
    obtain ⟨r', hr', hr⟩ := ihr
    exact ⟨_, by rw [translateExpr, hl', hr']; rfl,
      fun s s' h => (hl s s' h).connective c (hr s s' h) leftKind rightKind⟩
  | arithmetic a _ _ leftKind rightKind ihl ihr =>
    obtain ⟨l', hl', hl⟩ := ihl
    obtain ⟨r', hr', hr⟩ := ihr
    exact ⟨_, by rw [translateExpr, hl', hr']; rfl,
      fun s s' h => (hl s s' h).arithmetic a (hr s s' h) leftKind rightKind⟩
  | not _ kind ih =>
    obtain ⟨e', he', he⟩ := ih
    exact ⟨_, by rw [translateExpr, he']; rfl, fun s s' h => (he s s' h).not kind⟩
  | neg _ kind ih =>
    obtain ⟨e', he', he⟩ := ih
    exact ⟨_, by rw [translateExpr, he']; rfl, fun s s' h => (he s s' h).neg kind⟩
  | part asks _ _ ihl ihr =>
    obtain ⟨l', hl', hl⟩ := ihl
    obtain ⟨r', hr', hr⟩ := ihr
    exact ⟨_, by rw [translateExpr, hl', translateArgs, translateArgs, hr']; rfl,
      fun s s' h => (hl s s' h).part asks (hr s s' h)⟩

/-- A model and the entity that it was projected from are linked, either way. -/
theorem Sound.linked_project (hs : set.Sound model entity) (hk : set.SameKinds) {m e : Record}
    (he : e.Conforms entity) (hm : set.project model e = .ok m) (d : Direction) :
    set.Linked d (d.source model entity) (d.target model entity) (d.source m e)
      (d.target m e) := by
  have hconf := (hs.read_project hm).1
  have hagrees := hs.agrees_project hk he hm
  cases d with
  | modelToEntity => exact ⟨hconf, he, hagrees⟩
  | entityToModel => exact ⟨he, hconf, fun k hmem => (hagrees k hmem).symm⟩

/-! ### Functions -/

/-- Both functions come to the same on their records, as predicates and as selectors. -/
structure SameResults (f g : Lambda) (r r' : Record) : Prop where
  test : (f.test r).toOption = (g.test r').toOption
  select : (f.select r).toOption = (g.select r').toOption

theorem sameResults_of_mirrors {f g : Lambda} {r r' : Record} (hr : r.Conforms f.param.schema)
    (hr' : r'.Conforms g.param.schema)
    (h : f.body.Mirrors [(f.param, r)] [(g.param, r')] g.body) : SameResults f g r r' := by
  have happly := Lambda.apply_of_conforms hr
  have happly' := Lambda.apply_of_conforms hr'
  obtain ⟨o, ho, ho'⟩ := h.yields
  cases ho with
  | failure hf =>
    cases ho' with | failure hg => ?_
    constructor
    · rw [Lambda.test, Lambda.test, happly, happly', hf, hg]; rfl
    · rw [Lambda.select, Lambda.select, happly, happly', hf, hg]; rfl
  | value hf =>
    cases ho' with | value hg => ?_
    constructor
    · rw [Lambda.test, Lambda.test, happly, happly', hf, hg]
    · rw [Lambda.select, Lambda.select, happly, happly', hf, hg]

/-- A function of the source schema is translated by translating its body. -/
theorem translate_eq_ok (hroots : set.roots? = some (model, entity)) {f g : Lambda} :
    set.translate d f = .ok g ↔ (f.param.schema == d.source model entity) = true ∧
      g.param = ⟨f.param.name, d.target model entity⟩ ∧
      set.translateExpr d f.param g.param f.body = .ok g.body := by
  rw [translate, roots_eq_ok hroots]
  constructor
  · intro h
    simp only [bind, Except.bind] at h
    split at h
    · rename_i hschema
      obtain ⟨body, hbody, h⟩ := bind_eq_ok.1 h
      cases h
      exact ⟨hschema, rfl, hbody⟩
    · cases h
  · rintro ⟨hschema, hparam, hbody⟩
    rw [hparam] at hbody
    simp only [bind, Except.bind, if_pos hschema, hbody]
    rw [← hparam]
    rfl

/-- A function is translated when its body is. -/
theorem Sound.translate_eq_ok (hs : set.Sound model entity) (hne : set.mappings ≠ [])
    {f : Lambda} (hf : f.param.schema = d.source model entity) {body : Expr}
    (hbody : set.translateExpr d f.param ⟨f.param.name, d.target model entity⟩ f.body =
      .ok body) :
    set.translate d f = .ok ⟨⟨f.param.name, d.target model entity⟩, body⟩ :=
  (MappingSet.translate_eq_ok (hs.roots hne)).2 ⟨hf ▸ Schema.beq_self _, rfl, hbody⟩

/-- A function with a translatable body is translated, and comes to the same on linked records. -/
theorem Sound.exists_translate (hs : set.Sound model entity) (hne : set.mappings ≠ [])
    (hk : set.SameKinds) {f : Lambda} (hf : f.param.schema = d.source model entity)
    (hbody : set.Translatable d f.param f.body) :
    ∃ g, set.translate d f = .ok g ∧
      ∀ r r', set.Linked d (d.source model entity) (d.target model entity) r r' →
        SameResults f g r r' := by
  obtain ⟨body, htranslate, hmirrors⟩ :=
    hbody.exists_translate (y := ⟨f.param.name, d.target model entity⟩) hs hk hf
  exact ⟨_, hs.translate_eq_ok hne hf htranslate, fun r r' h =>
    sameResults_of_mirrors (hf ▸ h.source) h.target (hmirrors r r' h)⟩

/-- **Translation commutes with projection, in both directions**: a function of the model and its
translation come to the same on a model and on the entity that it was projected from, and a
function of the entity and its translation on the entity and on the model. -/
theorem translate_commutes_with_project {known : Schema → Prop} (hknown : Schema.Coherent known)
    {declarations : List MappingDeclaration} (hdeclare : declare declarations = .ok set)
    (hdeclared : ∀ c ∈ declarations, known c.model.param.schema ∧ known c.entity.param.schema)
    (hroots : set.roots? = some (model, entity)) (hk : set.SameKinds) {m e : Record}
    (he : e.Conforms entity) (hm : set.project model e = .ok m) (d : Direction) {f : Lambda}
    (hf : f.param.schema = d.source model entity) (hbody : set.Translatable d f.param f.body) :
    ∃ g, set.translate d f = .ok g ∧ SameResults f g (d.source m e) (d.target m e) := by
  obtain ⟨hs, hne⟩ := sound_of_roots hknown hdeclare hdeclared hroots
  obtain ⟨g, hg, hsame⟩ := hs.exists_translate hne hk hf hbody
  exact ⟨g, hg, hsame _ _ (hs.linked_project hk he hm d)⟩

end MappingSet

/-! ### Users and their models -/

namespace Sample

theorem coherent_users : Schema.Coherent fun s => s = userModel ∨ s = user := by
  rintro _ _ (rfl | rfl) (rfl | rfl) h
  · rfl
  · exact absurd h (by decide)
  · exact absurd h (by decide)
  · rfl

theorem userDeclarations_known : ∀ c ∈ userDeclarations,
    (c.model.param.schema = userModel ∨ c.model.param.schema = user) ∧
      (c.entity.param.schema = userModel ∨ c.entity.param.schema = user) := by
  simp [userDeclarations, Lambda.over]

theorem userMappings_sameKinds : userMappings.SameKinds := List.map_inj_left.1 rfl

theorem userRow_conforms (id : Int64) (name : String) (roleName : Option String) :
    (userRow id name roleName).Conforms user := by
  have hid : (req "id" .int).store? (.int id) = some (.int id) := Field.store?_int rfl rfl id
  refine .intro (.cons_named rfl (.value rfl hid) (.cons_named rfl (.value rfl rfl)
    (.cons_named rfl (.value rfl rfl) (.cons_named rfl ?_ .nil))))
  cases roleName with
  | none => exact .absent (s := role) rfl
  | some text =>
    exact .record (s := role) rfl
      (.intro (.cons_named rfl (.value rfl rfl) (.cons_named rfl (.value rfl rfl) .nil)))

theorem userView_conforms (id : Int64) (name : String) (roleName : Option String) :
    (userView id name roleName).Conforms userModel := by
  have hid : (opt "id" .int).store? (.int id) = some (.int id) := Field.store?_int rfl rfl id
  refine .intro (.cons_named rfl (.value rfl hid) (.cons_named rfl (.value rfl rfl)
    (.cons_named rfl (.value rfl ?_) (.cons_named rfl (.value rfl rfl) .nil))))
  cases roleName <;> rfl

theorem twoUsers_conform : ∀ row ∈ twoUsers.rows, row.Conforms user :=
  List.forall_mem_cons.2 ⟨userRow_conforms .., List.forall_mem_singleton.2 (userRow_conforms ..)⟩

theorem adminOrSenior_translatable :
    userMappings.Translatable .entityToModel adminOrSenior.param adminOrSenior.body := by
  have hrole : userMappings.Translatable .entityToModel adminOrSenior.param
      ((Expr.parameter adminOrSenior.param).chain ["role", "name"]) := .chain rfl
  have hage : userMappings.Translatable .entityToModel adminOrSenior.param
      ((Expr.parameter adminOrSenior.param).chain ["age"]) := .chain rfl
  exact .connective .or (.comparison .eq hrole (.constant _) (.kinds rfl))
    (.comparison .gt (.arithmetic .add hage (.constant _) rfl rfl) (.constant _) (.kinds rfl)) rfl
    rfl

theorem adminOrSenior_commutes :
    ∃ g, userMappings.translate .entityToModel adminOrSenior = .ok g ∧
      MappingSet.SameResults adminOrSenior g (userRow 1 "Ada" (some "admin"))
        (userView 1 "Ada" (some "admin")) := by
  have hdeclare : MappingSet.declare userDeclarations = .ok userMappings := rfl
  exact MappingSet.translate_commutes_with_project coherent_users hdeclare userDeclarations_known
    rfl userMappings_sameKinds (userRow_conforms 1 "Ada" (some "admin")) rfl .entityToModel rfl
    adminOrSenior_translatable

end Sample

end RecordView
