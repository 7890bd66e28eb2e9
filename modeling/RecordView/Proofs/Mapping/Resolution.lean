import RecordView.Proofs.Expr.Typing
import RecordView.Proofs.Mapping.Restoring

/-!
# Paths and their selectors

A selector picks a path (`FieldPath.resolve`), and a path makes an expression
(`FieldPath.toExpr`) that can be the body of a selector.  A selector picks a path of its schema if and
only if its body, without the conversions in it, accesses the fields of the path one after the other
on the parameter (`FieldPath.resolve_iff_sameChain`).  The owners that its accesses name are not
asked for: the path has those of the schemas that its fields lead through.

With the owners of the path a selector also reads what the path reads, in every record of the root
(`FieldPath.select_eq_read`): an owner is asked for where a record on the way is absent, and says that
the rest of the path is null there.
-/

namespace RecordView

namespace Expr

/-- The same fields are accessed one after the other on the same parameter, whatever owners the
accesses name. -/
inductive SameChain : Expr → Expr → Prop
  | parameter {p q : Param} (same : (p == q) = true) : SameChain (.parameter p) (.parameter q)
  | access {base base' : Expr} (bases : SameChain base base') (name : String)
    (owner owner' : Option Schema) :
    SameChain (.access base name owner) (.access base' name owner')

variable {e e' : Expr} {x : Param} {segments : List PathSegment}

/-- Conversions do not matter to what a chain names. -/
theorem namesFrom?_erase (e : Expr) (x : Param) : e.erase.namesFrom? x = e.namesFrom? x := by
  induction e using induct with
  | access base name owner ih => rw [erase, namesFrom?, namesFrom?, ih]
  | unary op e ih =>
    rw [erase, namesFrom?]
    cases hop : op.isConversion with
    | true => exact ih
    | false => simp [namesFrom?, hop]
  | _ => rfl

/-- Owners do not matter to it either. -/
theorem SameChain.namesFrom?_eq (h : SameChain e e') (x : Param) :
    e.namesFrom? x = e'.namesFrom? x := by
  induction h with
  | parameter same => rw [namesFrom?, namesFrom?, BEq.congr_left same]
  | access bases name owner owner' ih => rw [namesFrom?, namesFrom?, ih]

/-- What names fields from the parameter on is, without conversions, the accesses to these fields. -/
theorem sameChain_of_namesFrom? (h : e.namesFrom? x = some (segments.map (·.name))) :
    SameChain e.erase
      (segments.foldl (fun e segment => .access e segment.name (some segment.owner))
        (.parameter x)) := by
  induction e using induct generalizing segments with
  | parameter q =>
    rw [namesFrom?] at h
    split at h
    · rename_i hq
      obtain rfl : segments = [] := by simpa using h
      exact .parameter hq
    · cases h
  | access base name owner ih =>
    obtain ⟨before, hbefore, hnames⟩ := Option.map_eq_some_iff.1 h
    -- the access is to the last of the fields
    obtain ⟨hops, last, rfl, rfl, hlast⟩ := List.map_eq_append_iff.1 hnames.symm
    obtain ⟨leaf, rfl, rfl⟩ := List.map_eq_singleton_iff.1 hlast
    rw [List.foldl_append]
    exact .access (ih hbefore) leaf.name owner (some leaf.owner)
  | unary op e ih =>
    rw [namesFrom?] at h
    rw [erase]
    split at h
    · rename_i hop
      rw [if_pos hop]
      exact ih h
    · cases h
  | constant | binary | call | lambda => cases h

end Expr

namespace FieldPath

variable {f : Lambda} {p : FieldPath} {e e' : Expr} {x : Param} {root : Schema}
  {names : List String}

/-! ### Resolving -/

/-- The fields of a path are what an expression names if and only if it is, without conversions, the
expression of the path. -/
theorem sameChain_toExpr_iff :
    e.erase.SameChain (p.toExpr (.parameter x)) ↔ e.fieldChain? x = some p.names := by
  constructor
  · intro h
    rw [← Resolved.fieldChain?_toExpr (x := x), Expr.fieldChain?, Expr.fieldChain?,
      ← h.namesFrom?_eq, Expr.namesFrom?_erase]
  · intro h
    exact Expr.sameChain_of_namesFrom? (Expr.fieldChain?_eq_some.1 h).1

/-- A path makes the same accesses on the same chain. -/
theorem sameChain_toExpr (h : e.SameChain e') (p : FieldPath) :
    (p.toExpr e).SameChain (p.toExpr e') := by
  rw [toExpr, toExpr]
  induction p.segments generalizing e e' with
  | nil => exact h
  | cons segment segments ih => exact ih (.access h segment.name _ _)

/-- **Resolution inverts the expression of a path, and ignores conversions.**  A selector resolves to
a path of its schema if and only if its body, without the conversions in it and but for the owners, is
the expression of the path on the parameter.  The path then has exactly the names of the selector's
chain. -/
theorem resolve_iff_sameChain :
    (resolve f = .ok p ↔ (∃ names, ofNames f.param.schema names = .ok p) ∧
      f.body.erase.SameChain (p.toExpr (.parameter f.param))) ∧
    (resolve f = .ok p → ∀ names, p.isNamed names = true ↔ f.fieldChain? = some names) := by
  constructor
  · rw [resolve_eq_ok_iff, sameChain_toExpr_iff]
    constructor
    · rintro ⟨hchain, hnames⟩
      exact ⟨⟨p.names, hnames⟩, hchain⟩
    · rintro ⟨⟨names, hnames⟩, hchain⟩
      obtain ⟨-, -, rfl⟩ := ofNames_eq_ok hnames
      exact ⟨hchain, hnames⟩
  · intro h names
    rw [(resolve_eq_ok_iff.1 h).1, isNamed, beq_iff_eq, Option.some_inj]

/-! ### Reading -/

/-- **The two ways to read a path agree** in every record of its root, whatever records on the way are
absent: the selector made of its accesses comes to a value, and to the one that the path reads. -/
theorem select_eq_read (hp : ofNames root names = .ok p)
    (hscalar : p.leaf.type.kind.isScalar = true) (hx : x.schema = root) {r : Record}
    (hr : r.Conforms root) : Lambda.select ⟨x, p.toExpr (.parameter x)⟩ r = .ok (p.read r) := by
  obtain ⟨hroot, hresolved, -⟩ := ofNames_eq_ok hp
  exact hresolved.select_toExpr hscalar (hroot ▸ hr) (hx.trans hroot.symm)

end FieldPath

/-! ### The country of an account -/

namespace Sample

/-- The code of the country of an account's address. -/
def countryCode : FieldPath :=
  (FieldPath.ofNames account ["address", "country", "code"]).toOption.getD default

/-- An account whose address is in this country, or in none. -/
def accountIn (r : Option Record) : Record :=
  account.default.setCell "address"
    (.record (some (address.default.setCell "country" (.record r))))

/-- A country with this code. -/
def countryOf (code : String) : Record := country.default.setCell "code" (.value (.text code))

theorem countryOf_conforms (code : String) : (countryOf code).Conforms country :=
  country.default_conforms.setCell (f := req "code" .text) rfl (.value rfl rfl)

theorem accountIn_conforms {r : Option Record} (h : ∀ c ∈ r, c.Conforms country) :
    (accountIn r).Conforms account := by
  have haddress : (address.default.setCell "country" (.record r)).Conforms address := by
    refine address.default_conforms.setCell (f := one "country" country) rfl ?_
    cases r with
    | none => exact .absent rfl
    | some c => exact .record rfl (h c rfl)
  exact account.default_conforms.setCell (f := one "address" address) rfl (.record rfl haddress)

/-- The code that must not be null is null where the country or the whole address is absent. -/
theorem countryCode_selected :
    let x : Param := ⟨"x", account⟩
    let code : Lambda := ⟨x, countryCode.toExpr (.parameter x)⟩
    (code.select account.default = .ok (countryCode.read account.default) ∧
        countryCode.read account.default = .null) ∧
      (code.select (accountIn none) = .ok (countryCode.read (accountIn none)) ∧
        countryCode.read (accountIn none) = .null) ∧
      code.select (accountIn (some (countryOf "FR"))) =
          .ok (countryCode.read (accountIn (some (countryOf "FR")))) ∧
        countryCode.read (accountIn (some (countryOf "FR"))) = .text "FR" := by
  intro x code
  have hcode : FieldPath.ofNames account ["address", "country", "code"] = .ok countryCode := rfl
  have hselect : ∀ r : Record, r.Conforms account → code.select r = .ok (countryCode.read r) :=
    fun r hr => FieldPath.select_eq_read hcode rfl rfl hr
  refine ⟨⟨hselect _ account.default_conforms, rfl⟩, ⟨hselect _ (accountIn_conforms ?_), rfl⟩,
    hselect _ (accountIn_conforms ?_), rfl⟩
  · simp
  · simpa using countryOf_conforms "FR"

/-- The code of an account's country, unwrapped and converted on the way. -/
def unwrappedCode : Lambda :=
  .over account fun x =>
    .unary (.convert (.optional .text))
      ((Expr.unary .unwrap ((Expr.unary .unwrap ((Expr.unary .unwrap x).field "address")).field
        "country")).field "code")

theorem unwrappedCode_resolved :
    unwrappedCode.body.erase = countryCode.toExpr (.parameter unwrappedCode.param) ∧
      FieldPath.resolve unwrappedCode = .ok countryCode ∧
      ∀ names, countryCode.isNamed names = true ↔ unwrappedCode.fieldChain? = some names := by
  have herase : unwrappedCode.body.erase =
      countryCode.toExpr (.parameter unwrappedCode.param) := rfl
  have hresolve : FieldPath.resolve unwrappedCode = .ok countryCode :=
    FieldPath.resolve_iff_sameChain.1.2 ⟨⟨["address", "country", "code"], rfl⟩,
      herase ▸ FieldPath.sameChain_toExpr (.parameter (Param.beq_self _)) _⟩
  exact ⟨herase, hresolve, FieldPath.resolve_iff_sameChain.2 hresolve⟩

end Sample

end RecordView
