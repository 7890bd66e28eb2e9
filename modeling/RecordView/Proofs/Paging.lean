import RecordView.Proofs.Service.View
import RecordView.Sample.Residents

/-!
# Pages of a read

Reading page after page yields the whole answer, in order, with nothing lost and nothing twice
(`Partitions`).  This holds of services over every repository that pages its loads, tables among
them, and of aggregations (`pages_partition_reads`).

Two things come together.  A window is exact (`PaginationPolicy.exact_of_le`): no page number
and no size that the policy lets through is cut off on its way to an offset, and the offset fits its
word.  And everything that happens to the rows behind the window, the projection, happens to each
of them on its own (`mapM_applyTo`), so that it does not matter whether it is done before or
after.

Page numbers end at the greatest 32-bit word, and higher ones ask for that page again.  So pages of
a given size reach so many items and no further (`Partitions.upTo`), and they reach all of them when
the last page has a number (`Partitions.all`).
-/

namespace RecordView

/-- The same request without a page, so for everything. -/
def ReadRequest.whole (r : ReadRequest) : ReadRequest := { r with page := none, pageSize := none }

/-- The same request for a page of a given size. -/
def ReadRequest.onPage (r : ReadRequest) (page size : Nat) : ReadRequest :=
  { r with page := some (.ofNat page), pageSize := some (.ofNat size) }

/-- The number of pages of a size that items fill. -/
def pageCount (items size : Nat) : Nat := (items + size - 1) / size

/-- The answers to the pages `1, 2, …` of a size are the parts of one answer. -/
structure Partitions (whole : Results Record) (size : Nat)
    (answer : Nat → Except Error (Results Record)) : Prop where
  /-- Every page has the count of the whole, and no more items than asked for. -/
  page : ∀ k, 1 ≤ k → k < UInt32.size →
    ∃ items, answer k = .ok ⟨whole.count, items⟩ ∧ items.length ≤ size
  /-- The first pages, put together, are the first items. -/
  upTo : ∀ last, last < UInt32.size →
    ∃ pages, ((List.range last).mapM fun k => answer (k + 1)) = .ok pages ∧
      pages.flatMap (·.items) = whole.items.take (last * size)
  /-- All pages, put together, are all items. -/
  all : pageCount whole.count size < UInt32.size →
    ∃ pages, ((List.range (pageCount whole.count size)).mapM fun k => answer (k + 1)) =
        .ok pages ∧ pages.flatMap (·.items) = whole.items
  /-- The pages after the last are empty. -/
  later : ∀ k, pageCount whole.count size < k → k < UInt32.size →
    answer k = .ok ⟨whole.count, []⟩

/-! ### Windows -/

namespace PaginationPolicy

/-- The same policy without a size for requests that ask for none. -/
def unbounded (policy : PaginationPolicy) : PaginationPolicy :=
  { policy with defaultPageSize := none }

theorem toNat_capped {limit : UInt32} {n : Nat} (h : n ≤ limit.toNat) :
    (capped limit n).toNat = n := by
  have hsize : n < UInt32.size := Nat.lt_of_le_of_lt h limit.toNat_lt_size
  rw [capped, if_pos h]
  exact UInt32.toNat_ofNat_of_lt' hsize

variable {policy : PaginationPolicy} {page size : Nat}

theorem toNat_limitPage (hpos : 1 ≤ page) (hsize : page < UInt32.size) :
    (policy.limitPage (some (.ofNat page))).toNat = page := by
  have hbound : UInt32.size < 2 ^ 63 := by decide
  have hint : (Int64.ofNat page).toInt = page := Int64.toInt_ofNat_of_lt (by omega)
  have hpositive : (0 : Int64) < .ofNat page := by
    rw [Int64.lt_iff_toInt_lt, hint]
    exact Int.natCast_pos.2 hpos
  simp only [limitPage, if_pos hpositive, hint, Int.toNat_natCast]
  refine toNat_capped ?_
  have hlast : (UInt32.ofNat (UInt32.size - 1)).toNat = UInt32.size - 1 := by decide
  omega

theorem limitPageSize_ofNat (hsize : size ≤ policy.maxPageSize.toNat) :
    policy.limitPageSize (some (.ofNat size)) = some (capped policy.maxPageSize size) := by
  have hbound : UInt32.size < 2 ^ 63 := by decide
  have hword := policy.maxPageSize.toNat_lt_size
  have hint : (Int64.ofNat size).toInt = size := Int64.toInt_ofNat_of_lt (by omega)
  have hnonneg : (0 : Int64) ≤ .ofNat size := by
    rw [Int64.le_iff_toInt_le, hint]
    exact Int.natCast_nonneg size
  simp only [limitPageSize, if_pos hnonneg, hint, Int.toNat_natCast]

/-- The window of every page of a size skips the pages before it, and the offset fits its word. -/
def Exact (policy : PaginationPolicy) (size : Nat) : Prop :=
  ∀ page, 1 ≤ page → page < UInt32.size →
    ∃ w, policy.window (some (.ofNat page)) (some (.ofNat size)) = some w ∧
      (page - 1) * size < UInt64.size ∧ w.offset.toNat = (page - 1) * size ∧ w.limit.toNat = size

/-- **Windows are exact** for every size that is not capped. -/
theorem exact_of_le (hsize : size ≤ policy.maxPageSize.toNat) : policy.Exact size := by
  intro page hpos hpage
  have hlimit : (capped policy.maxPageSize size).toNat = size := toNat_capped hsize
  have hfits : (page - 1) * size < UInt64.size := by
    have hword := policy.maxPageSize.toNat_lt_size
    have hproduct : (page - 1) * size < UInt32.size * UInt32.size :=
      Nat.mul_lt_mul'' (by omega) (by omega)
    exact Nat.lt_of_lt_of_eq hproduct (by decide)
  refine ⟨_, by rw [window, limitPageSize_ofNat hsize]; rfl, hfits, ?_, hlimit⟩
  rw [toNat_limitPage hpos hpage, UInt64.toNat_mul, UInt32.toNat_toUInt64, hlimit]
  have hskipped : (page - 1).toUInt64.toNat = page - 1 :=
    UInt64.toNat_ofNat_of_lt' (Nat.lt_of_le_of_lt (Nat.sub_le _ _)
      (Nat.lt_trans hpage (by decide : UInt32.size < UInt64.size)))
  rw [hskipped]
  exact Nat.mod_eq_of_lt hfits

end PaginationPolicy

/-! ### Parts of a list -/

variable {α β ε : Type}

/-- Consecutive windows, put together, are the items up to the last of them. -/
theorem flatMap_windows (items : List α) (size last : Nat) :
    ((List.range last).flatMap fun k => (items.drop (k * size)).take size) =
      items.take (last * size) := by
  induction last with
  | zero => simp
  | succ last ih =>
    rw [List.range_succ, List.flatMap_append, ih, Nat.succ_mul, List.take_add]
    simp

theorem le_pageCount_mul (items : Nat) {size : Nat} (h : 1 ≤ size) :
    items ≤ pageCount items size * size := by
  have hdiv := Nat.div_add_mod (items + size - 1) size
  have hmod := Nat.mod_lt (items + size - 1) h
  rw [pageCount, Nat.mul_comm]
  omega

/-- Answers that cut their items out of a whole one partition it. -/
theorem partitions_of_windows {whole : Results Record} {size : Nat}
    {answer : Nat → Except Error (Results Record)} (hsize : 1 ≤ size)
    (hcount : whole.count = whole.items.length)
    (h : ∀ k, 1 ≤ k → k < UInt32.size →
      answer k = .ok ⟨whole.count, (whole.items.drop ((k - 1) * size)).take size⟩) :
    Partitions whole size answer := by
  have hupTo : ∀ last, last < UInt32.size →
      ∃ pages, ((List.range last).mapM fun k => answer (k + 1)) = .ok pages ∧
        pages.flatMap (·.items) = whole.items.take (last * size) := by
    intro last hlast
    refine ⟨_, mapM_eq_map fun k hk => h (k + 1) (by omega)
      (by have := List.mem_range.1 hk; omega), ?_⟩
    rw [List.flatMap_map]
    exact flatMap_windows whole.items size last
  have hfilled : whole.items.length ≤ pageCount whole.count size * size := by
    rw [← hcount]
    exact le_pageCount_mul whole.count hsize
  refine ⟨fun k hpos hk => ⟨_, h k hpos hk, List.length_take_le _ _⟩, hupTo, fun hlast => ?_,
    fun k hlater hk => ?_⟩
  · obtain ⟨pages, hpages, hitems⟩ := hupTo _ hlast
    exact ⟨pages, hpages, by rw [hitems, List.take_of_length_le hfilled]⟩
  · have hskipped : whole.items.length ≤ (k - 1) * size :=
      Nat.le_trans hfilled (Nat.mul_le_mul_right size (by omega))
    rw [h k (by omega) hk, List.drop_of_length_le hskipped, List.take_nil]

/-! ### Repositories -/

namespace Repository

variable {σ τ : Type}

/-- A window is cut out of what is loaded without one, and that is also what is counted. -/
structure Pages (r : Repository σ) : Prop where
  load : ∀ store filter order w found, r.load store ⟨filter, order, none⟩ = .ok found →
    r.load store ⟨filter, order, some w⟩ = .ok (w.apply found)
  count : ∀ store filter order n found, r.load store ⟨filter, order, none⟩ = .ok found →
    r.count store filter = .ok n → n = found.length

theorem Pages.within {r : Repository σ} (h : r.Pages) (get : τ → σ) (set : τ → σ → τ) :
    (r.within get set).Pages :=
  ⟨fun store => h.load (get store), fun store => h.count (get store)⟩

end Repository

theorem Table.pages_repository : Table.repository.Pages where
  load := by
    intro t filter order w found h
    obtain ⟨kept, hkept, h⟩ := bind_eq_ok.1 h
    obtain ⟨sorted, hsorted, h⟩ := bind_eq_ok.1 h
    cases h
    change t.load ⟨filter, order, some w⟩ = _
    simp only [Table.load, hkept, hsorted, bind, Except.bind]
    rfl
  count := by
    intro t filter order n found h hcount
    obtain ⟨kept, hkept, h⟩ := bind_eq_ok.1 h
    obtain ⟨sorted, hsorted, h⟩ := bind_eq_ok.1 h
    cases h
    change t.count filter = .ok n at hcount
    rw [Table.count, hkept] at hcount
    cases hcount
    exact (length_of_sortRows hsorted).symm

/-! ### Reads -/

namespace Service

variable {σ : Type} {s : Service σ} {store : σ} {request : ReadRequest} {whole : Results Record}

/-- The same service without a page size for requests that ask for none. -/
def unpaged (s : Service σ) : Service σ := { s with pagination := s.pagination.unbounded }

/-- A read of a page answers the window of the whole answer. -/
theorem read_onPage (hrepo : s.repository.Pages)
    (h : s.unpaged.read store request.whole = .ok whole) {page size : Nat} {w : PageWindow}
    (hw : s.pagination.window (some (.ofNat page)) (some (.ofNat size)) = some w) :
    whole.count = whole.items.length ∧
      s.read store (request.onPage page size) = .ok ⟨whole.count, w.apply whole.items⟩ := by
  obtain ⟨filter, hfilter, h⟩ := bind_eq_ok.1 h
  obtain ⟨order, horder, h⟩ := bind_eq_ok.1 h
  obtain ⟨count, hcount, h⟩ := bind_eq_ok.1 h
  obtain ⟨entities, hload, h⟩ := bind_eq_ok.1 h
  obtain ⟨items, hitems, h⟩ := bind_eq_ok.1 h
  cases h
  have hload := mapError_eq_ok.1 hload
  have hpage := hrepo.load store filter order w entities hload
  refine ⟨?_, ?_⟩
  · rw [hrepo.count store filter order count entities hload (mapError_eq_ok.1 hcount)]
    exact (length_of_mapM hitems).symm
  · have hprojected : (w.apply entities).mapM s.project = .ok (w.apply items) :=
      mapM_applyTo hitems (some w)
    have hfilter : s.translateFilter request.filter = .ok filter := hfilter
    have horder : s.entityOrder request.order = .ok order := horder
    have hcount : (s.repository.count store filter).mapError StoreError.toError = .ok count :=
      hcount
    rw [read]
    simp only [ReadRequest.onPage, hfilter, horder, hcount, hw, hpage, bind, Except.bind,
      mapError_ok, hprojected]
    rfl

end Service

namespace Aggregation

variable {σ J : Type} {a : Aggregation σ J} {store : σ} {request : ReadRequest}
  {whole : Results Record}

/-- The same aggregation without a page size for requests that ask for none. -/
def unpaged (a : Aggregation σ J) : Aggregation σ J :=
  { a with pagination := a.pagination.unbounded }

theorem orderKeys_unpaged (a : Aggregation σ J) (order : List OrderTerm) :
    a.unpaged.orderKeys order = a.orderKeys order := by
  induction order with
  | nil => rfl
  | cons term order ih =>
    rw [orderKeys, orderKeys, ih]
    rfl

theorem sort_unpaged (a : Aggregation σ J) (rows : List J) (order : List OrderTerm) :
    a.unpaged.sort rows order = a.sort rows order := by
  rw [sort, sort, orderKeys_unpaged]
  rfl

/-- A read of a page answers the window of the whole answer. -/
theorem read_onPage (h : a.unpaged.read store request.whole = .ok whole) {page size : Nat}
    {w : PageWindow}
    (hw : a.pagination.window (some (.ofNat page)) (some (.ofNat size)) = some w) :
    whole.count = whole.items.length ∧
      a.read store (request.onPage page size) = .ok ⟨whole.count, w.apply whole.items⟩ := by
  have hattach : a.unpaged.attach store request.whole.filter =
    a.attach store (request.onPage page size).filter := rfl
  rw [read, hattach] at h
  rw [read]
  generalize a.attach store (request.onPage page size).filter = attachment at h ⊢
  obtain ⟨attached, outcome⟩ := attachment
  cases outcome with
  | error e => cases h
  | ok u =>
    obtain ⟨rows, hrows, h⟩ := bind_eq_ok.1 h
    obtain ⟨sorted, hsorted, h⟩ := bind_eq_ok.1 h
    obtain ⟨items, hitems, h⟩ := bind_eq_ok.1 h
    cases h
    refine ⟨(length_of_mapM hitems).symm, ?_⟩
    have hprojected : (w.apply sorted).mapM a.project = .ok (w.apply items) :=
      mapM_applyTo hitems (some w)
    have hjoin : a.join attached = .ok rows := hrows
    have hsort : a.sort rows request.order = .ok sorted := sort_unpaged a rows _ ▸ hsorted
    change a.assemble attached (request.onPage page size) = _
    rw [assemble]
    simp only [ReadRequest.onPage, hjoin, hsort, hw, bind, Except.bind]
    rw [show PageWindow.applyTo (some w) sorted = w.apply sorted from rfl, hprojected]
    rfl

end Aggregation

/-- Answers to windows of exact offsets and limits partition the whole. -/
theorem partitions_of_exact {policy : PaginationPolicy} {whole : Results Record} {size : Nat}
    {answer : Nat → Except Error (Results Record)} (hsize : 1 ≤ size) (hexact : policy.Exact size)
    (h : ∀ k w, policy.window (some (.ofNat k)) (some (.ofNat size)) = some w →
      whole.count = whole.items.length ∧ answer k = .ok ⟨whole.count, w.apply whole.items⟩) :
    Partitions whole size answer := by
  obtain ⟨w, hw, -⟩ := hexact 1 (Nat.le_refl 1) (by decide)
  refine partitions_of_windows hsize (h 1 w hw).1 fun k hpos hk => ?_
  obtain ⟨w, hw, -, hoffset, hlimit⟩ := hexact k hpos hk
  rw [(h k w hw).2, PageWindow.apply, hoffset, hlimit]

/-- **The pages of a read partition its answer.**  Tables, alone or inside a larger store, page
their loads.  For services over repositories that do, and for aggregations, take a request that
succeeds without a window, and a size that the policy lets through: every page `1, 2, …` up to the
greatest word has an exact window and answers with the same count, and the pages put together are
the whole answer. -/
theorem pages_partition_reads {σ J : Type} :
    (∀ (get : σ → Table) (set : σ → Table → σ), (Table.repository.within get set).Pages) ∧
    (∀ (s : Service σ) (store : σ) (request : ReadRequest) (size : Nat) (whole : Results Record),
      s.repository.Pages → 1 ≤ size → size ≤ s.pagination.maxPageSize.toNat →
      (s.unpaged.get store request.whole).outcome = .ok whole →
      s.pagination.Exact size ∧
        Partitions whole size fun k => (s.get store (request.onPage k size)).outcome) ∧
    (∀ (a : Aggregation σ J) (store : σ) (request : ReadRequest) (size : Nat)
      (whole : Results Record), 1 ≤ size → size ≤ a.pagination.maxPageSize.toNat →
      (a.unpaged.get store request.whole).outcome = .ok whole →
      a.pagination.Exact size ∧
        Partitions whole size fun k => (a.get store (request.onPage k size)).outcome) := by
  refine ⟨fun get set => Table.pages_repository.within get set, ?_, ?_⟩
  · intro s store request size whole hrepo hpos hsize h
    have hexact := PaginationPolicy.exact_of_le hsize
    exact ⟨hexact, partitions_of_exact hpos hexact fun k w hw => Service.read_onPage hrepo h hw⟩
  · intro a store request size whole hpos hsize h
    have hexact := PaginationPolicy.exact_of_le hsize
    exact ⟨hexact, partitions_of_exact hpos hexact fun k w hw => Aggregation.read_onPage h hw⟩

namespace Sample

/-- Administrators and young users, by name, last first. -/
def adminsByName : ReadRequest :=
  { filter := some adminOrYoung, order := [⟨.over userModel (·.field "name"), .desc⟩] }

/-- The answer to it. -/
def adminsAnswer : Results Record :=
  ⟨2, [userView 2 "Bob" none, userView 1 "Ada" (some "admin")]⟩

/-- All residents, by the name of the user, last first. -/
def residentsByName : ReadRequest := { order := [byUserName] }

/-- The answer to it: the location of nobody comes last. -/
def residentsAnswer : Results Record :=
  ⟨3, [residentView (some (userView 2 "Bob" none)) (some (locationView 2 "MADRID"))
      [locationView 2 "MADRID"],
    residentView (some (userView 1 "Ada" (some "admin"))) (some (locationView 1 "PARIS"))
      [locationView 1 "PARIS"],
    residentView none (some (locationView 3 "LONDON")) [locationView 3 "LONDON"]]⟩

theorem town_pages :
    (townUsers.repository.Pages ∧ 1 ≤ townUsers.pagination.maxPageSize.toNat ∧
      (townUsers.unpaged.get town adminsByName.whole).outcome = .ok adminsAnswer ∧
      Partitions adminsAnswer 1
        fun k => (townUsers.get town (adminsByName.onPage k 1)).outcome) ∧
    (2 ≤ residents.pagination.maxPageSize.toNat ∧
      (residents.unpaged.get town residentsByName.whole).outcome = .ok residentsAnswer ∧
      Partitions residentsAnswer 2
        fun k => (residents.get town (residentsByName.onPage k 2)).outcome) := by
  obtain ⟨htables, hservices, haggregations⟩ :=
    pages_partition_reads (σ := Context) (J := DirectoryRow)
  have hrepo : townUsers.repository.Pages := htables (·.table 0) (·.setTable 0 ·)
  have husers : (townUsers.unpaged.get town adminsByName.whole).outcome =
      .ok adminsAnswer := rfl
  have hresidents : (residents.unpaged.get town residentsByName.whole).outcome =
      .ok residentsAnswer := rfl
  exact ⟨⟨hrepo, by decide, husers,
      (hservices _ _ _ 1 _ hrepo (Nat.le_refl 1) (by decide) husers).2⟩,
    by decide, hresidents, (haggregations _ _ _ 2 _ (by decide) (by decide) hresidents).2⟩

end Sample

end RecordView
