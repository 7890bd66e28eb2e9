import Mathlib.Data.List.Forall2
import RecordView.Proofs.Expr.Chains
import RecordView.Proofs.Expr.Conversions
import RecordView.Proofs.Mapping.Insertion

/-!
# What is translated

A function is translated exactly if it is one of the source schema and each maximal field chain on
its parameter has the names of one mapping (`MappingSet.translate_iff_mapped`).

A successful translation is described node by node (`MappingSet.Translation`).  Its maximal chains
on the new parameter are the target paths of the mappings that were found, one for each chain of the
source and in the same order (`MappingSet.Translation.chains`), and the old parameter is gone.  The
new parameter must not occur in the function already: what is said with it would pass for translated.
-/

namespace RecordView

/-! ### Chains and parameters of what translation makes -/

namespace Expr

variable {e l r : Expr} {p : Param}

theorem chains_convertTo (e : Expr) (t : FieldType) : (e.convertTo t).chains p = e.chains p := by
  unfold convertTo
  split
  · rfl
  · exact chains_unary _

theorem references_convertTo (e : Expr) (t : FieldType) :
    (e.convertTo t).references p = e.references p := by
  unfold convertTo
  split <;> rfl

theorem chains_coerce (op : BinaryOp) (l r : Expr) :
    (coerce op l r).chains p = l.chains p ++ r.chains p := by
  obtain ⟨l', r', hcoerce, hcoerced⟩ := exists_coerced op l r
  rw [hcoerce, chains_binary]
  cases hcoerced <;> simp only [chains_convertTo]

theorem references_coerce (op : BinaryOp) (l r : Expr) :
    (coerce op l r).references p = (l.references p || r.references p) := by
  obtain ⟨l', r', hcoerce, hcoerced⟩ := exists_coerced op l r
  rw [hcoerce, references]
  cases hcoerced <;> simp only [references_convertTo]

/-- An operator starts at no parameter, whatever it is made of. -/
theorem namesFrom?_coerce (op : BinaryOp) (l r : Expr) : (coerce op l r).namesFrom? p = none := by
  obtain ⟨l', r', hcoerce, -⟩ := exists_coerced op l r
  rw [hcoerce]
  rfl

theorem chains_field (h : e.namesFrom? p = none) (name : String) :
    (e.field name).chains p = e.chains p :=
  chains_access (by rw [fieldChain?_access, h]; rfl)

end Expr

namespace FieldPath

theorem chains_toExpr (path : FieldPath) (p : Param) :
    (path.toExpr (.parameter p)).chains p = [path.names] := by
  have hbase : (Expr.parameter p).namesFrom? p = some [] := by
    rw [Expr.namesFrom?, if_pos (Param.beq_self p)]
  have hnames : path.names ≠ [] := by simp [names, segments]
  exact Expr.chains_of_fieldChain?
    (Expr.fieldChain?_eq_some.2 ⟨namesFrom?_toExprFrom path.hops path.leaf hbase, hnames⟩)

theorem references_toExpr (path : FieldPath) (e : Expr) (p : Param) :
    (path.toExpr e).references p = e.references p := by
  rw [toExpr]
  generalize path.segments = segments
  induction segments generalizing e with
  | nil => rfl
  | cons segment segments ih => exact ih _

end FieldPath

namespace MappingSet

variable {set : MappingSet} {d : Direction} {x y : Param} {e e' : Expr}

/-! ### The nodes of a translation -/

/-- What becomes of the nodes of an expression over `x`, over `y`. -/
inductive Translation (set : MappingSet) (d : Direction) (x y : Param) : Expr → Expr → Prop
  | source {p : Param} (isSource : (p == x) = true) :
    Translation set d x y (.parameter p) (.parameter y)
  | parameter {p : Param} (isOther : (p == x) = false) :
    Translation set d x y (.parameter p) (.parameter p)
  | constant (v : Value) : Translation set d x y (.constant v) (.constant v)
  | mapped {base : Expr} {name : String} {owner : Option Schema} {names : List String} {m : Mapping}
    (chain : (Expr.access base name owner).fieldChain? x = some names)
    (found : set.find d names = .ok m) :
    Translation set d x y (.access base name owner) ((m.target d).toExpr (.parameter y))
  | field {base base' : Expr} {name : String} {owner : Option Schema}
    (free : (Expr.access base name owner).fieldChain? x = none)
    (translated : Translation set d x y base base') :
    Translation set d x y (.access base name owner) (base'.field name)
  | binary (op : BinaryOp) {l l' r r' : Expr} (left : Translation set d x y l l')
    (right : Translation set d x y r r') :
    Translation set d x y (.binary op l r) (.coerce op l' r')
  | conversion {op : UnaryOp} {e e' : Expr} (isConversion : op.isConversion = true)
    (operand : Translation set d x y e e') : Translation set d x y (.unary op e) e'
  | unary {op : UnaryOp} {e e' : Expr} (isOperator : op.isConversion = false)
    (operand : Translation set d x y e e') :
    Translation set d x y (.unary op e) (.unary op e')
  | call (method : Method) {e e' : Expr} {args : List Expr} (translated : Expr → Expr)
    (target : Translation set d x y e e')
    (each : ∀ arg ∈ args, Translation set d x y arg (translated arg)) :
    Translation set d x y (.call method e args) (.call method e' (args.map translated))
  | lambda (p : Param) {e e' : Expr} (body : Translation set d x y e e') :
    Translation set d x y (.lambda p e) (.lambda p e')

theorem translateArgs_eq_mapM (args : List Expr) :
    set.translateArgs d x y args = args.mapM (set.translateExpr d x y) := by
  induction args with
  | nil => rfl
  | cons arg args ih => rw [translateArgs, List.mapM_cons, ih]

theorem translation_of_translateExpr (h : set.translateExpr d x y e = .ok e') :
    set.Translation d x y e e' := by
  induction e using Expr.induct generalizing e' with
  | parameter p =>
    rw [translateExpr] at h
    cases h
    split
    · exact .source ‹_›
    · exact .parameter (Bool.of_not_eq_true ‹_›)
  | constant v =>
    rw [translateExpr] at h
    cases h
    exact .constant v
  | access base name owner ih =>
    rw [translateExpr] at h
    split at h
    · rename_i names hchain
      obtain ⟨m, hm, h⟩ := bind_eq_ok.1 h
      cases h
      exact .mapped hchain hm
    · rename_i hfree
      obtain ⟨base', hbase, h⟩ := bind_eq_ok.1 h
      cases h
      exact .field hfree (ih hbase)
  | binary op l r ihl ihr =>
    rw [translateExpr] at h
    obtain ⟨l', hl, h⟩ := bind_eq_ok.1 h
    obtain ⟨r', hr, h⟩ := bind_eq_ok.1 h
    cases h
    exact .binary op (ihl hl) (ihr hr)
  | unary op e ih =>
    rw [translateExpr] at h
    split at h
    · exact .conversion ‹_› (ih h)
    · obtain ⟨u, hu, h⟩ := bind_eq_ok.1 h
      cases h
      exact .unary (Bool.of_not_eq_true ‹_›) (ih hu)
  | call method target args ih ihs =>
    rw [translateExpr, translateArgs_eq_mapM] at h
    obtain ⟨target', htarget, h⟩ := bind_eq_ok.1 h
    obtain ⟨args', hargs, h⟩ := bind_eq_ok.1 h
    cases h
    obtain ⟨translated, heach, rfl⟩ := exists_map_of_mapM hargs
    exact .call method translated (ih htarget) fun arg harg => ihs arg harg (heach arg harg)
  | lambda p body ih =>
    rw [translateExpr] at h
    obtain ⟨body', hbody, h⟩ := bind_eq_ok.1 h
    cases h
    exact .lambda p (ih hbody)

/-! ### When there is a translation -/

/-- **An expression is translated exactly if a mapping is found for each of its chains.** -/
theorem exists_translateExpr_iff : (∃ e', set.translateExpr d x y e = .ok e') ↔
    ∀ names ∈ e.chains x, ∃ m, set.find d names = .ok m := by
  induction e using Expr.induct with
  | parameter p =>
    rw [translateExpr]
    exact iff_of_true ⟨_, rfl⟩ (List.forall_mem_nil _)
  | constant v =>
    rw [translateExpr]
    exact iff_of_true ⟨_, rfl⟩ (List.forall_mem_nil _)
  | access base name owner ih =>
    rw [translateExpr]
    split
    · rename_i names hchain
      rw [Expr.chains_of_fieldChain? hchain, exists_bind_pure, List.forall_mem_singleton]
    · rename_i hfree
      rw [Expr.chains_access hfree, exists_bind_pure, ih]
  | binary op l r ihl ihr =>
    rw [translateExpr, exists_bind_bind_pure, ihl, ihr, Expr.chains_binary, List.forall_mem_append]
  | unary op e ih =>
    rw [translateExpr, Expr.chains_unary]
    split
    · exact ih
    · rw [exists_bind_pure, ih]
  | call method target args ih ihs =>
    rw [translateExpr, translateArgs_eq_mapM, exists_bind_bind_pure, ih, Expr.chains_call,
      List.forall_mem_append]
    refine and_congr_right' ⟨?_, ?_⟩
    · rintro ⟨args', hargs⟩ names hnames
      obtain ⟨arg, harg, hnames⟩ := Expr.mem_chainsOfAll.1 hnames
      obtain ⟨arg', -, hargs'⟩ := exists_of_mapM hargs arg harg
      exact (ihs arg harg).1 ⟨arg', hargs'⟩ names hnames
    · intro h
      exact exists_mapM fun arg harg => (ihs arg harg).2 fun names hnames =>
        h names (Expr.mem_chainsOfAll.2 ⟨arg, harg, hnames⟩)
  | lambda p body ih =>
    rw [translateExpr, exists_bind_pure, ih, Expr.chains_lambda]

/-! ### What a translation reads -/

/-- What starts at no chain on the source is translated to what starts at none on the target. -/
theorem Translation.namesFrom?_eq_none (h : set.Translation d x y e e')
    (hy : e.references y = false) (hfree : e.namesFrom? x = none) : e'.namesFrom? y = none := by
  induction h with
  | source isSource =>
    rw [Expr.namesFrom?, if_pos isSource] at hfree
    cases hfree
  | parameter isOther =>
    rw [Expr.references] at hy
    rw [Expr.namesFrom?, hy]
    rfl
  | mapped chain found =>
    rw [(Expr.fieldChain?_eq_some.1 chain).1] at hfree
    cases hfree
  | field free translated ih =>
    rw [Expr.namesFrom?_access, Option.map_eq_none_iff] at hfree
    rw [Expr.field, Expr.namesFrom?_access, ih hy hfree]
    rfl
  | binary op left right => exact Expr.namesFrom?_coerce ..
  | conversion isConversion operand ih =>
    rw [Expr.namesFrom?, if_pos isConversion] at hfree
    exact ih hy hfree
  | unary isOperator operand => rw [Expr.namesFrom?, isOperator]; rfl
  | constant v => rfl
  | call method translated target each => rfl
  | lambda p body => rfl

/-- A mapping is found for the first chain, and the second one is its path on the other side. -/
def Carries (set : MappingSet) (d : Direction) (names names' : List String) : Prop :=
  ∃ m, set.find d names = .ok m ∧ (m.target d).names = names'

theorem carries_chainsOfAll {translated : Expr → Expr} {args : List Expr}
    (h : ∀ arg ∈ args, List.Forall₂ (set.Carries d) (arg.chains x) ((translated arg).chains y)) :
    List.Forall₂ (set.Carries d) (Expr.chainsOfAll x args)
      (Expr.chainsOfAll y (args.map translated)) := by
  induction args with
  | nil => exact .nil
  | cons arg args ih =>
    obtain ⟨harg, hargs⟩ := List.forall_mem_cons.1 h
    exact List.rel_append harg (ih hargs)

/-- **A translation reads what is mapped to the chains of its source, and nothing else.** -/
theorem Translation.chains (h : set.Translation d x y e e') (hy : e.references y = false) :
    List.Forall₂ (set.Carries d) (e.chains x) (e'.chains y) := by
  induction h with
  | source isSource => exact .nil
  | parameter isOther => exact .nil
  | constant v => exact .nil
  | @mapped _ _ _ _ m chain found =>
    rw [Expr.chains_of_fieldChain? chain, FieldPath.chains_toExpr]
    exact .cons ⟨m, found, rfl⟩ .nil
  | field free translated ih =>
    -- the base starts at no chain before and after, so the access adds none
    have hbase := Expr.fieldChain?_access ▸ free
    rw [Option.map_eq_none_iff] at hbase
    rw [Expr.chains_access free, Expr.chains_field (translated.namesFrom?_eq_none hy hbase)]
    exact ih hy
  | binary op left right ihl ihr =>
    obtain ⟨hl, hr⟩ := Bool.or_eq_false_iff.1 hy
    rw [Expr.chains_binary, Expr.chains_coerce]
    exact List.rel_append (ihl hl) (ihr hr)
  | conversion isConversion operand ih =>
    rw [Expr.chains_unary]
    exact ih hy
  | unary isOperator operand ih =>
    rw [Expr.chains_unary, Expr.chains_unary]
    exact ih hy
  | call method translated target each ih ihs =>
    obtain ⟨htarget, hargs⟩ := Bool.or_eq_false_iff.1 hy
    rw [Expr.chains_call, Expr.chains_call]
    exact List.rel_append (ih htarget) (carries_chainsOfAll fun arg harg =>
      ihs arg harg (Expr.anyReferences_eq_false_iff.1 hargs arg harg))
  | lambda p body ih => exact ih hy

/-- A translation does not mention the source. -/
theorem Translation.not_references (h : set.Translation d x y e e') (hxy : (y == x) = false) :
    e'.references x = false := by
  induction h with
  | source isSource => exact hxy
  | parameter isOther => exact isOther
  | constant v => rfl
  | mapped chain found => exact (FieldPath.references_toExpr ..).trans hxy
  | field free translated ih => exact ih
  | binary op left right ihl ihr => rw [Expr.references_coerce, ihl, ihr]; rfl
  | conversion isConversion operand ih => exact ih
  | unary isOperator operand ih => exact ih
  | call method translated target each ih ihs =>
    rw [Expr.references, ih, Bool.false_or, Expr.anyReferences_eq_false_iff]
    simpa only [List.forall_mem_map] using ihs
  | lambda p body ih => exact ih

/-! ### Functions -/

variable {model entity : Schema}

/-- What is among the second chains is the other side of a mapping. -/
theorem exists_mem_mappings {chains chains' : List (List String)}
    (h : List.Forall₂ (set.Carries d) chains chains') :
    ∀ names ∈ chains', ∃ m ∈ set.mappings, (m.target d).names = names := by
  induction h with
  | nil => exact nofun
  | cons head tail ih =>
    obtain ⟨m, hm, hnames⟩ := head
    exact List.forall_mem_cons.2 ⟨⟨m, (mem_of_find hm).1, hnames⟩, ih⟩

/-- **When a function is translated, and what its translation reads.**  Between different schemas, a
function is translated exactly if it is one of the source schema and every maximal field chain on
its parameter is the source path of exactly one mapping.  The old parameter does not occur in the
translation.  If the new one did not occur in the function, then the translation has one maximal
chain on it for each of the function's, namely the path mapped to it, so that every one of them is
the target path of a mapping. -/
theorem translate_iff_mapped (hroots : set.roots? = some (model, entity))
    (hne : model.path ≠ entity.path) (d : Direction) (f : Lambda) :
    ((∃ g, set.translate d f = .ok g) ↔
      f.param.schema.path = (d.source model entity).path ∧
        ∀ names ∈ f.body.chains f.param, (set.named d names).length = 1) ∧
    ∀ g, set.translate d f = .ok g →
      g.param = ⟨f.param.name, d.target model entity⟩ ∧ g.body.references f.param = false ∧
        (f.body.references g.param = false →
          List.Forall₂ (set.Carries d) (f.body.chains f.param) (g.body.chains g.param) ∧
            ∀ names ∈ g.body.chains g.param, ∃ m ∈ set.mappings, (m.target d).names = names) := by
  have hfound : ∀ names, (∃ m, set.find d names = .ok m) ↔ (set.named d names).length = 1 := by
    intro names
    have hanswers := answersByNumber (roots_eq_ok hroots d) names
    refine ⟨fun ⟨m, hm⟩ => ((hanswers.found m).1 hm).1, fun hone => ?_⟩
    obtain ⟨m, hm⟩ := List.length_eq_one_iff.1 hone
    exact ⟨m, (hanswers.found m).2 ⟨hone, mem_named.1 (by simp [hm])⟩⟩
  constructor
  · simp only [← hfound, ← exists_translateExpr_iff (y := ⟨f.param.name, d.target model entity⟩),
      ← Schema.beq_iff]
    constructor
    · rintro ⟨g, hg⟩
      obtain ⟨hschema, hparam, hbody⟩ := (translate_eq_ok hroots).1 hg
      exact ⟨hschema, g.body, hparam ▸ hbody⟩
    · rintro ⟨hschema, body, hbody⟩
      exact ⟨⟨⟨f.param.name, d.target model entity⟩, body⟩,
        (translate_eq_ok hroots).2 ⟨hschema, rfl, hbody⟩⟩
  · intro g hg
    obtain ⟨hschema, hparam, hbody⟩ := (translate_eq_ok hroots).1 hg
    have htranslation := translation_of_translateExpr hbody
    refine ⟨hparam, htranslation.not_references ?_, fun hfresh =>
      have hchains := htranslation.chains hfresh
      ⟨hchains, exists_mem_mappings hchains⟩⟩
    -- the two parameters have one name, and differ in their schemas
    rw [← Bool.not_eq_true, Param.beq_iff, hparam]
    rintro ⟨-, hpath⟩
    rw [Schema.beq_iff.1 hschema] at hpath
    cases d with
    | modelToEntity => exact hne hpath.symm
    | entityToModel => exact hne hpath

end MappingSet

/-! ### Users -/

namespace Sample

theorem adminOrYoung_chains :
    adminOrYoung.body.chains adminOrYoung.param = [["role"], ["age"]] := rfl

theorem adminOrYoung_mapped : ∀ names ∈ adminOrYoung.body.chains adminOrYoung.param,
    (userMappings.named .modelToEntity names).length = 1 := by
  rw [adminOrYoung_chains, List.forall_mem_cons, List.forall_mem_singleton]
  exact ⟨rfl, rfl⟩

theorem adminOrYoung_translated :
    ∃ g, userMappings.translate .modelToEntity adminOrYoung = .ok g ∧
      g.body.references adminOrYoung.param = false ∧ ∀ names ∈ g.body.chains g.param,
        ∃ m ∈ userMappings.mappings, m.entity.names = names := by
  have hroots : userMappings.roots? = some (userModel, user) := rfl
  have hmapped :=
    MappingSet.translate_iff_mapped hroots (by decide) .modelToEntity adminOrYoung
  obtain ⟨g, hg⟩ := hmapped.1.2 ⟨rfl, adminOrYoung_mapped⟩
  obtain ⟨hparam, hgone, hreads⟩ := hmapped.2 g hg
  exact ⟨g, hg, hgone, (hreads (by rw [hparam]; rfl)).2⟩

end Sample

end RecordView
