import RecordView.Expr.Typing
import RecordView.Proofs.Expr.Parts

/-!
# The field chains of an expression

A field chain on a parameter is maximal in an expression where no further field is accessed on it,
conversions aside.  `Expr.chains` lists the maximal chains on a parameter, from left to right and in
nested functions too; those on a parameter that is bound again count as well, since a chain names
its parameter and not its binder.

An expression that is a chain itself has no other (`Expr.chains_of_fieldChain?`), and an access that
is none has those of its base (`Expr.chains_access`).  Every maximal chain is a part of the
expression (`Expr.exists_part_of_mem_chains`), and every part that is a chain is the beginning of a
maximal one (`Expr.exists_mem_chains`).
-/

namespace RecordView

namespace Expr

mutual

/-- The maximal chains on `p` in an expression, which may be one on which a field is accessed, with
only conversions in between. -/
def chainsUnder (p : Param) : Expr → Bool → List (List String)
  | access base name owner, accessed =>
    (if accessed then [] else ((access base name owner).fieldChain? p).toList) ++
      base.chainsUnder p true
  | unary op e, accessed => e.chainsUnder p (accessed && op.isConversion)
  | binary _ left right, _ => left.chainsUnder p false ++ right.chainsUnder p false
  | call _ target args, _ => target.chainsUnder p false ++ chainsOfAll p args
  | lambda _ body, _ => body.chainsUnder p false
  | parameter _, _ => []
  | constant _, _ => []

/-- The maximal chains on `p` in several expressions. -/
def chainsOfAll (p : Param) : List Expr → List (List String)
  | [] => []
  | e :: es => e.chainsUnder p false ++ chainsOfAll p es

end

/-- The maximal field chains on a parameter, with the names of each outermost last. -/
def chains (e : Expr) (p : Param) : List (List String) := e.chainsUnder p false

variable {e l r base : Expr} {p : Param} {name : String} {owner : Option Schema}
  {names : List String}

/-! ### One chain -/

theorem fieldChain?_eq_some :
    e.fieldChain? p = some names ↔ e.namesFrom? p = some names ∧ names ≠ [] := by
  simp [fieldChain?, Option.filter_eq_some_iff]

theorem namesFrom?_access : (access base name owner).namesFrom? p =
    (base.namesFrom? p).map (· ++ [name]) := rfl

/-- An access is a chain if it starts at the parameter. -/
theorem fieldChain?_access : (access base name owner).fieldChain? p =
    (base.namesFrom? p).map (· ++ [name]) := by
  rw [fieldChain?, namesFrom?_access]
  cases base.namesFrom? p <;> simp

theorem namesFrom?_chain {before : List String} (h : e.namesFrom? p = some before)
    (names : List String) : (e.chain names).namesFrom? p = some (before ++ names) := by
  induction names generalizing e before with
  | nil => rw [List.append_nil]; exact h
  | cons name names ih =>
    have hfield : (e.field name).namesFrom? p = some (before ++ [name]) := by
      rw [field, namesFrom?_access, h]
      rfl
    rw [List.append_cons]
    exact ih hfield

/-- What the builders chain is a chain with these names. -/
theorem fieldChain?_chain (hnames : names ≠ []) :
    ((parameter p).chain names).fieldChain? p = some names := by
  have hstart : (parameter p).namesFrom? p = some [] := by rw [namesFrom?, if_pos p.beq_self]
  exact fieldChain?_eq_some.2 ⟨namesFrom?_chain hstart names, hnames⟩

/-- What starts at the parameter mentions it. -/
theorem references_of_namesFrom? (h : e.namesFrom? p = some names) : e.references p = true := by
  induction e using induct generalizing names with
  | parameter q =>
    rw [namesFrom?] at h
    split at h
    · assumption
    · cases h
  | access base name owner ih =>
    obtain ⟨before, hbase, -⟩ := Option.map_eq_some_iff.1 h
    exact ih hbase
  | unary op e ih =>
    rw [namesFrom?] at h
    split at h
    · exact ih h
    · cases h
  | constant | binary | call | lambda => cases h

/-- What is part of a longer chain is not maximal. -/
theorem chainsUnder_of_namesFrom? (h : e.namesFrom? p = some names) :
    e.chainsUnder p true = [] := by
  induction e using induct generalizing names with
  | parameter q => rfl
  | access base name owner ih =>
    obtain ⟨before, hbefore, -⟩ := Option.map_eq_some_iff.1 h
    rw [chainsUnder, ih hbefore]
    rfl
  | unary op e ih =>
    rw [namesFrom?] at h
    split at h
    · rename_i hop
      rw [chainsUnder, hop]
      exact ih h
    · cases h
  | _ => cases h

/-- What does not start at the parameter is part of no chain. -/
theorem chainsUnder_of_free (h : e.namesFrom? p = none) (accessed : Bool) :
    e.chainsUnder p accessed = e.chains p := by
  induction e using induct generalizing accessed with
  | access base name owner ih =>
    have hnone : (access base name owner).fieldChain? p = none := by rw [fieldChain?, h]; rfl
    rw [chains, chainsUnder, chainsUnder, hnone]
    cases accessed <;> rfl
  | unary op e ih =>
    rw [chains, chainsUnder, chainsUnder, Bool.false_and]
    rw [namesFrom?] at h
    split at h
    · rename_i hop
      rw [hop, Bool.and_true]
      exact ih h accessed
    · rename_i hop
      rw [Bool.not_eq_true] at hop
      rw [hop, Bool.and_false]
  | _ => rfl

/-- A chain is the only maximal one in itself. -/
theorem chains_of_fieldChain? (h : e.fieldChain? p = some names) : e.chains p = [names] := by
  induction e using induct with
  | access base name owner ih =>
    rw [chains, chainsUnder, h]
    rw [fieldChain?_access] at h
    obtain ⟨before, hbefore, -⟩ := Option.map_eq_some_iff.1 h
    rw [chainsUnder_of_namesFrom? hbefore]
    rfl
  | parameter q =>
    obtain ⟨hnames, hne⟩ := fieldChain?_eq_some.1 h
    rw [namesFrom?] at hnames
    split at hnames
    · cases hnames; exact absurd rfl hne
    · cases hnames
  | unary op e ih =>
    rw [fieldChain?, namesFrom?] at h
    split at h
    · exact ih h
    · cases h
  | _ => cases h

/-! ### The chains of a node -/

/-- An access that is no chain has the chains of its base. -/
theorem chains_access (h : (access base name owner).fieldChain? p = none) :
    (access base name owner).chains p = base.chains p := by
  have hbase : base.namesFrom? p = none := by simpa [fieldChain?_access] using h
  rw [chains, chainsUnder, h, chainsUnder_of_free hbase]
  rfl

theorem chains_binary (op : BinaryOp) :
    (binary op l r).chains p = l.chains p ++ r.chains p := rfl

theorem chains_unary (op : UnaryOp) : (unary op e).chains p = e.chains p := by
  rw [chains, chainsUnder, Bool.false_and, chains]

theorem chains_call (method : Method) (args : List Expr) :
    (call method e args).chains p = e.chains p ++ chainsOfAll p args := rfl

theorem chains_lambda (q : Param) : (lambda q e).chains p = e.chains p := rfl

theorem mem_chainsOfAll {args : List Expr} :
    names ∈ chainsOfAll p args ↔ ∃ arg ∈ args, names ∈ arg.chains p := by
  induction args with
  | nil => simp [chainsOfAll]
  | cons arg args ih => simp [chainsOfAll, ih, chains]

/-! ### Maximal chains among all parts -/

theorem exists_part_of_mem_chainsUnder {accessed : Bool} (h : names ∈ e.chainsUnder p accessed) :
    ∃ part ∈ e.parts, part.fieldChain? p = some names := by
  induction e using induct generalizing accessed with
  | access base name owner ih =>
    rw [chainsUnder, List.mem_append] at h
    obtain h | h := h
    · refine ⟨_, self_mem_parts _, ?_⟩
      cases accessed with
      | true => cases h
      | false => exact Option.mem_toList.1 h
    · obtain ⟨part, hpart, hchain⟩ := ih h
      exact ⟨part, List.mem_cons_of_mem _ hpart, hchain⟩
  | unary op e ih =>
    obtain ⟨part, hpart, hchain⟩ := ih h
    exact ⟨part, List.mem_cons_of_mem _ hpart, hchain⟩
  | binary op l r ihl ihr =>
    obtain h | h := List.mem_append.1 h
    · obtain ⟨part, hpart, hchain⟩ := ihl h
      exact ⟨part, parts_subset_left op l r hpart, hchain⟩
    · obtain ⟨part, hpart, hchain⟩ := ihr h
      exact ⟨part, parts_subset_right op l r hpart, hchain⟩
  | call method target args ih ihs =>
    obtain h | h := List.mem_append.1 h
    · obtain ⟨part, hpart, hchain⟩ := ih h
      exact ⟨part, parts_subset_target method target args hpart, hchain⟩
    · obtain ⟨arg, harg, h⟩ := mem_chainsOfAll.1 h
      obtain ⟨part, hpart, hchain⟩ := ihs arg harg h
      exact ⟨part, parts_subset_arg method target harg hpart, hchain⟩
  | lambda q body ih =>
    obtain ⟨part, hpart, hchain⟩ := ih h
    exact ⟨part, List.mem_cons_of_mem _ hpart, hchain⟩
  | _ => cases h

/-- A maximal chain is one of the parts of the expression. -/
theorem exists_part_of_mem_chains (h : names ∈ e.chains p) :
    ∃ part ∈ e.parts, part.fieldChain? p = some names :=
  exists_part_of_mem_chainsUnder h

/-- A part that is a chain begins a maximal one, unless the whole expression is itself the
beginning of one. -/
theorem exists_longer_chain {part : Expr} (hpart : part ∈ e.parts)
    (h : part.fieldChain? p = some names) (accessed : Bool) :
    (∃ whole ∈ e.chainsUnder p accessed, names <+: whole) ∨
      accessed = true ∧ ∃ whole, e.namesFrom? p = some whole ∧ names <+: whole := by
  induction e using induct generalizing accessed part with
  | access base name owner ih =>
    -- the access goes on with a chain that its base is the beginning of
    have hlonger : ∀ whole, (access base name owner).fieldChain? p = some whole →
        names <+: whole → (∃ whole ∈ (access base name owner).chainsUnder p accessed,
          names <+: whole) ∨ accessed = true ∧
            ∃ whole, (access base name owner).namesFrom? p = some whole ∧ names <+: whole := by
      intro whole hwhole hbegins
      cases accessed with
      | true => exact .inr ⟨rfl, whole, (fieldChain?_eq_some.1 hwhole).1, hbegins⟩
      | false =>
        exact .inl ⟨whole, List.mem_append_left _ (Option.mem_toList.2 hwhole), hbegins⟩
    obtain rfl | hpart := List.mem_cons.1 hpart
    · exact hlonger names h List.prefix_rfl
    · obtain ⟨whole, hmem, hbegins⟩ | ⟨-, whole, hwhole, hbegins⟩ := ih hpart h true
      · exact .inl ⟨whole, List.mem_append_right _ hmem, hbegins⟩
      · exact hlonger (whole ++ [name]) (by rw [fieldChain?_access, hwhole]; rfl)
          (hbegins.trans (List.prefix_append ..))
  | unary op e ih =>
    have hpart : ∃ part ∈ e.parts, part.fieldChain? p = some names := by
      obtain rfl | hpart := List.mem_cons.1 hpart
      · rw [fieldChain?, namesFrom?] at h
        split at h
        · exact ⟨e, self_mem_parts e, h⟩
        · cases h
      · exact ⟨part, hpart, h⟩
    obtain ⟨part, hpart, h⟩ := hpart
    obtain ⟨whole, hmem, hbegins⟩ | ⟨hunder, whole, hwhole, hbegins⟩ :=
      ih hpart h (accessed && op.isConversion)
    · exact .inl ⟨whole, hmem, hbegins⟩
    · obtain ⟨haccessed, hop⟩ := Bool.and_eq_true_iff.1 hunder
      exact .inr ⟨haccessed, whole, by rw [namesFrom?, if_pos hop, hwhole], hbegins⟩
  | binary op l r ihl ihr =>
    obtain rfl | hpart := List.mem_cons.1 hpart
    · cases h
    · obtain hpart | hpart := List.mem_append.1 hpart
      · obtain ⟨whole, hmem, hbegins⟩ := (ihl hpart h false).resolve_right (nomatch ·.1)
        exact .inl ⟨whole, List.mem_append_left _ hmem, hbegins⟩
      · obtain ⟨whole, hmem, hbegins⟩ := (ihr hpart h false).resolve_right (nomatch ·.1)
        exact .inl ⟨whole, List.mem_append_right _ hmem, hbegins⟩
  | call method target args ih ihs =>
    obtain rfl | hpart := List.mem_cons.1 hpart
    · cases h
    · obtain hpart | hpart := List.mem_append.1 hpart
      · obtain ⟨whole, hmem, hbegins⟩ := (ih hpart h false).resolve_right (nomatch ·.1)
        exact .inl ⟨whole, List.mem_append_left _ hmem, hbegins⟩
      · obtain ⟨arg, harg, hpart⟩ := mem_partsOfAll.1 hpart
        obtain ⟨whole, hmem, hbegins⟩ := (ihs arg harg hpart h false).resolve_right (nomatch ·.1)
        exact .inl ⟨whole, List.mem_append_right _ (mem_chainsOfAll.2 ⟨arg, harg, hmem⟩), hbegins⟩
  | lambda q body ih =>
    obtain rfl | hpart := List.mem_cons.1 hpart
    · cases h
    · obtain ⟨whole, hmem, hbegins⟩ := (ih hpart h false).resolve_right (nomatch ·.1)
      exact .inl ⟨whole, hmem, hbegins⟩
  | parameter q =>
    obtain rfl := List.mem_singleton.1 hpart
    cases chains_of_fieldChain? h
  | constant v =>
    obtain rfl := List.mem_singleton.1 hpart
    cases h

/-- **Every part that is a chain begins a maximal one.** -/
theorem exists_mem_chains {part : Expr} (hpart : part ∈ e.parts)
    (h : part.fieldChain? p = some names) : ∃ whole ∈ e.chains p, names <+: whole :=
  (exists_longer_chain hpart h false).resolve_right (nomatch ·.1)

end Expr

end RecordView
