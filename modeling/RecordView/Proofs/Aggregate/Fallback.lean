import RecordView.Proofs.Expr.Chains
import RecordView.Proofs.Outcome
import RecordView.Sample.Residents

/-!
# Orders that fall back

A list of order terms is usable when every selector is a field chain.  One that is none makes a
service read in its default order, wherever it stands in the list
(`Service.get_unordered_of_mixed`).  An aggregation resolves its terms one by one: it reads in the
default order as well, unless a chain before the first term that is none cannot be resolved, because
its head has no facet, has a collection, or is all of it, or because the facet has no mapping for the
rest.  Then the whole read fails with that error, provided that there are join rows to be sorted.
So an aggregated read with such a list is the read without an order exactly if the chains before the
first term that is none resolve (`Aggregation.get_unordered_iff`), and the order of the terms
matters.
-/

namespace RecordView

/-- Whether the selector is a field chain on its own parameter. -/
def OrderTerm.isChain (term : OrderTerm) : Bool := term.selector.fieldChain?.isSome

/-- The same request without an order. -/
def ReadRequest.unordered (request : ReadRequest) : ReadRequest := { request with order := [] }

/-- Some term of the order is no field chain. -/
def ReadRequest.Mixed (request : ReadRequest) : Prop :=
  ∃ term ∈ request.order, term.isChain = false

namespace OrderTerm

variable {term : OrderTerm}

theorem isChain_eq_false_iff : term.isChain = false ↔ term.selector.fieldChain? = none := by
  rw [isChain, Option.isSome_eq_false_iff, Option.isNone_iff_eq_none]

/-- A chain has a first name. -/
theorem exists_chain (h : term.isChain = true) :
    ∃ head rest, term.selector.fieldChain? = some (head :: rest) := by
  obtain ⟨names, hnames⟩ := Option.isSome_iff_exists.1 h
  cases names with
  | nil => exact absurd rfl (Expr.fieldChain?_eq_some.1 hnames).2
  | cons head rest => exact ⟨head, rest, hnames⟩

end OrderTerm

/-! ### Services -/

namespace Service

variable {τ : Type} {order : List OrderTerm} {request : ReadRequest}

theorem plainTerms_eq_none (h : ∃ term ∈ order, term.isChain = false) : plainTerms order = none := by
  induction order with
  | nil => simp at h
  | cons term order ih =>
    rw [plainTerms, List.mapM_cons]
    cases hterm : term.isChain with
    | false => rw [OrderTerm.isChain_eq_false_iff.1 hterm]; rfl
    | true =>
      obtain ⟨head, rest, hchain⟩ := OrderTerm.exists_chain hterm
      have hrest := ih (by simpa [hterm] using h)
      rw [plainTerms] at hrest
      rw [hchain, hrest]
      rfl

/-- **A service falls back wherever the term that is no chain stands.** -/
theorem get_unordered_of_mixed (s : Service τ) (store : τ) (h : request.Mixed) :
    s.get store request = s.get store request.unordered := by
  have horder : s.entityOrder request.order = s.entityOrder request.unordered.order := by
    rw [entityOrder, plainTerms_eq_none h]
    rfl
  rw [get, get, read, read, horder]
  rfl

end Service

namespace Aggregation

variable {σ J : Type} {a : Aggregation σ J} {store : σ} {request : ReadRequest}
  {order : List OrderTerm} {term : OrderTerm} {row : J} {rows : List J} {e : Error}

/-! ### Terms -/

/-- The term is a chain with a sort key. -/
def Resolves (a : Aggregation σ J) (term : OrderTerm) : Prop :=
  ∃ head rest key, term.selector.fieldChain? = some (head :: rest) ∧
    a.orderKey head rest term.direction = .ok key

/-- The term is a chain that has no sort key. -/
def Refuses (a : Aggregation σ J) (term : OrderTerm) (e : Error) : Prop :=
  ∃ head rest, term.selector.fieldChain? = some (head :: rest) ∧
    a.orderKey head rest term.direction = .error e

theorem resolves_or_refuses (a : Aggregation σ J) (h : term.isChain = true) :
    a.Resolves term ∨ ∃ e, a.Refuses term e := by
  obtain ⟨head, rest, hchain⟩ := OrderTerm.exists_chain h
  cases hkey : a.orderKey head rest term.direction with
  | ok key => exact .inl ⟨head, rest, key, hchain, hkey⟩
  | error e => exact .inr ⟨e, head, rest, hchain, hkey⟩

theorem Refuses.not_resolves (h : a.Refuses term e) : ¬ a.Resolves term := by
  rintro ⟨head, rest, key, hchain, hkey⟩
  obtain ⟨head', rest', hchain', hkey'⟩ := h
  cases hchain.symm.trans hchain'
  cases hkey.symm.trans hkey'

/-- A term that cannot be resolved is an error of the aggregation. -/
theorem Refuses.origin_eq (h : a.Refuses term e) : e.origin = .aggregation := by
  obtain ⟨head, rest, -, hkey⟩ := h
  unfold orderKey at hkey
  split at hkey
  · cases hkey; rfl
  · rename_i f hf
    split at hkey
    · cases hkey; rfl
    · split at hkey
      · cases hkey; rfl
      · cases hpath : f.orderPath rest with
        | ok path => rw [hpath] at hkey; cases hkey
        | error cause => rw [hpath] at hkey; cases hkey; rfl

/-! ### Lists of terms -/

theorem orderKeys_of_not_chain (h : term.isChain = false) :
    a.orderKeys (term :: order) = .ok none := by
  rw [orderKeys, OrderTerm.isChain_eq_false_iff.1 h]

theorem Refuses.orderKeys_eq (h : a.Refuses term e) : a.orderKeys (term :: order) = .error e := by
  obtain ⟨head, rest, hchain, hkey⟩ := h
  rw [orderKeys, hchain]
  simp only [hkey]
  rfl

theorem Resolves.exists_orderKeys (h : a.Resolves term) (order : List OrderTerm) :
    ∃ key, a.orderKeys (term :: order) =
      (a.orderKeys order).map fun keys => keys.map (key :: ·) := by
  obtain ⟨head, rest, key, hchain, hkey⟩ := h
  refine ⟨key, ?_⟩
  rw [orderKeys, hchain]
  simp only [hkey]
  cases a.orderKeys order <;> rfl

/-- Terms of which one is no chain have no sort keys if the chains before it resolve; otherwise the
first of them that does not decides. -/
theorem orderKeys_mixed (h : ∃ term ∈ order, term.isChain = false) :
    ((∀ term ∈ order.takeWhile (·.isChain), a.Resolves term) ∧ a.orderKeys order = .ok none) ∨
      ∃ term ∈ order.takeWhile (·.isChain), ∃ e, a.Refuses term e ∧ a.orderKeys order = .error e := by
  induction order with
  | nil => simp at h
  | cons term order ih =>
    cases hterm : term.isChain with
    | false =>
      rw [List.takeWhile_cons_of_neg (by simp [hterm])]
      exact .inl ⟨by simp, orderKeys_of_not_chain hterm⟩
    | true =>
      rw [List.takeWhile_cons_of_pos hterm]
      obtain hres | ⟨e, href⟩ := a.resolves_or_refuses hterm
      · obtain ⟨key, hkeys⟩ := hres.exists_orderKeys order
        rw [hkeys]
        obtain ⟨hall, hnone⟩ | ⟨t, ht, e, href, herror⟩ := ih (by simpa [hterm] using h)
        · exact .inl ⟨List.forall_mem_cons.2 ⟨hres, hall⟩, by rw [hnone]; rfl⟩
        · exact .inr ⟨t, List.mem_cons_of_mem _ ht, e, href, by rw [herror]; rfl⟩
      · exact .inr ⟨term, List.mem_cons_self, e, href, href.orderKeys_eq⟩

/-! ### Reads -/

/-- Without sort keys the rows are in the default order. -/
theorem sort_of_orderKeys_eq_none (h : a.orderKeys order = .ok none) (rows : List J) :
    a.sort rows order = a.sort rows [] := by
  rw [sort, sort, h]
  rfl

/-- A composite that cannot be made is an error of a service. -/
theorem origin_of_project (h : a.project row = .error e) : e.origin = .service := by
  obtain ⟨composite, f, -, hf⟩ := exists_error_of_foldlM h
  have hservice : ∀ entity, f.service.project entity = .error e → e.origin = .service := by
    intro entity hproject
    rw [Service.project] at hproject
    cases hp : f.service.mappings.project f.service.model entity with
    | ok model => rw [hp] at hproject; cases hproject
    | error cause => rw [hp] at hproject; cases hproject; rfl
  unfold Facet.project at hf
  split at hf
  · split at hf
    · rename_i entity _
      cases hp : f.service.project entity with
      | ok model => rw [hp] at hf; cases hf
      | error cause => rw [hp] at hf; cases hf; exact hservice entity hp
    · cases hf
  · rename_i read write _
    cases hp : (read row).mapM f.service.project with
    | ok models => rw [hp] at hf; cases hf
    | error cause =>
      rw [hp] at hf
      cases hf
      obtain ⟨entity, -, hentity⟩ := exists_error_of_mapM hp
      exact hservice entity hentity

/-- The facets of the request attach, and their rows are joined. -/
def Joins (a : Aggregation σ J) (store : σ) (request : ReadRequest) : Prop :=
  ∃ attached rows, a.attach store request.filter = (attached, .ok ()) ∧ a.join attached = .ok rows

/-- A read that does not come to the join rows does not come to their order. -/
theorem read_unordered_of_not_joins (h : ¬ a.Joins store request) :
    a.read store request = a.read store request.unordered := by
  rw [read, read, show request.unordered.filter = request.filter from rfl]
  cases hattach : a.attach store request.filter with
  | mk attached outcome =>
    cases outcome with
    | error e => rfl
    | ok done =>
      cases hjoin : a.join attached with
      | error e =>
        change a.assemble attached request = a.assemble attached request.unordered
        rw [assemble, assemble, hjoin]
        rfl
      | ok rows => exact absurd ⟨attached, rows, hattach, hjoin⟩ h

/-- A read that comes to the join rows fails where their sort keys do. -/
theorem read_of_joins (h : a.Joins store request) (hkeys : a.orderKeys request.order = .error e) :
    a.read store request = .error e := by
  obtain ⟨attached, rows, hattach, hjoin⟩ := h
  rw [read, hattach]
  change a.assemble attached request = _
  rw [assemble, hjoin]
  simp only [bind, Except.bind, sort, hkeys]

/-- A read without an order that comes to the join rows fails for a composite or not at all. -/
theorem origin_of_read_unordered (h : a.Joins store request)
    (hread : a.read store request.unordered = .error e) : e.origin = .service := by
  obtain ⟨attached, rows, hattach, hjoin⟩ := h
  rw [read, show request.unordered.filter = request.filter from rfl, hattach] at hread
  change a.assemble attached request.unordered = _ at hread
  rw [assemble, hjoin] at hread
  simp only [bind, Except.bind, sort, orderKeys, ReadRequest.unordered, pure, Except.pure] at hread
  split at hread
  · rename_i hitems
    cases hread
    obtain ⟨row, -, hrow⟩ := exists_error_of_mapM hitems
    exact origin_of_project hrow
  · cases hread

theorem get_eq_unordered_iff : a.get store request = a.get store request.unordered ↔
    a.read store request = a.read store request.unordered := by
  constructor
  · exact congrArg Report.outcome
  · intro h
    rw [get, get, h]
    rfl

/-- **An order with a term that is no chain is no order exactly if the chains before it resolve**, or
the read fails before it comes to the order.  Services fall back in any case. -/
theorem get_unordered_iff (h : request.Mixed) :
    (a.get store request = a.get store request.unordered ↔
      (a.Joins store request → ∀ term ∈ request.order.takeWhile (·.isChain), a.Resolves term)) ∧
    ∀ {τ : Type} (s : Service τ) (store : τ), s.get store request = s.get store request.unordered := by
  refine ⟨?_, fun s store => s.get_unordered_of_mixed store h⟩
  rw [get_eq_unordered_iff]
  obtain ⟨hall, hnone⟩ | ⟨term, hterm, e, href, herror⟩ := a.orderKeys_mixed h
  · refine ⟨fun _ _ => hall, fun _ => ?_⟩
    have hsort := sort_of_orderKeys_eq_none hnone
    rw [read, read]
    simp only [assemble, hsort]
    rfl
  · constructor
    · intro heq hjoins
      have horigin := origin_of_read_unordered hjoins (heq.symm.trans (read_of_joins hjoins herror))
      cases href.origin_eq.symm.trans horigin
    · intro hresolves
      refine read_unordered_of_not_joins fun hjoins => ?_
      exact href.not_resolves (hresolves hjoins term hterm)

end Aggregation

/-! ### The directory of a town -/

namespace Sample

/-- By the number of locations, which is no chain. -/
def byLocationCount : OrderTerm :=
  ⟨.over composite fun x => .call .count (x.field "locations") [], .desc⟩

/-- By the locations, a chain for which the directory has no sort key. -/
def byLocations : OrderTerm := ⟨.over composite (·.field "locations"), .asc⟩

/-- All residents by name and then by their number of locations. -/
def residentsByCount : ReadRequest := ⟨none, [byUserName, byLocationCount, byLocations], none, none⟩

/-- All residents by locations and then by the number of them. -/
def residentsByLocations : ReadRequest := ⟨none, [byLocations, byLocationCount], none, none⟩

/-- Locations after the term that is no chain are not looked at. -/
theorem residentsByCount_unordered : residentsByCount.Mixed ∧
    residents.get town residentsByCount = residents.get town residentsByCount.unordered := by
  have hmixed : residentsByCount.Mixed := ⟨byLocationCount, by simp [residentsByCount], rfl⟩
  have hresolves : ∀ term ∈ residentsByCount.order.takeWhile (·.isChain),
      residents.Resolves term := by
    rw [show residentsByCount.order.takeWhile (·.isChain) = [byUserName] from rfl]
    simp only [List.mem_singleton, forall_eq]
    exact ⟨"user", ["name"], _, rfl, rfl⟩
  exact ⟨hmixed, (Aggregation.get_unordered_iff hmixed).1.2 fun _ => hresolves⟩

/-- Locations before it make a read fail that has an answer without an order. -/
theorem residentsByLocations_refused : residentsByLocations.Mixed ∧
    (residents.get town residentsByLocations).outcome = .error
      (.plain .unsupported .aggregation "cannot order by collection facet 'locations'") ∧
    (residents.get town residentsByLocations.unordered).outcome.isOk = true ∧
    residents.get town residentsByLocations ≠ residents.get town residentsByLocations.unordered := by
  have hok : (residents.get town residentsByLocations.unordered).outcome.isOk = true := rfl
  refine ⟨⟨byLocationCount, by simp [residentsByLocations], rfl⟩, rfl, hok, fun heq => ?_⟩
  rw [← heq] at hok
  cases hok

end Sample

end RecordView
