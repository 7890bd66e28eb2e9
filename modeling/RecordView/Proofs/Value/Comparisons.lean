import RecordView.Proofs.Value.Integer
import RecordView.Proofs.Value.Order

/-!
# Three comparisons of values without floats

Predicates use `Value.compareEq` and `Value.compareOrder`, which are undefined on values of different
sorts, and rows are sorted by `Value.canonicalCmp`, which compares any two values.  On values that
have no float in them, at any depth, the three agree (`Value.comparisons_agree`): values are equal in
a sorted list exactly if they are equal, and where two values are in an order they are sorted in it.

Equality does not depend on the side (`Value.compareEq_comm`), floats or not.  A value without floats
that is converted without loss, be it to a float, equals what it was (`Value.compareEq_of_cast`).
-/

namespace RecordView

namespace Number

variable {m n : Number} {i j : Int}

theorem compare?_of_integer? (hm : m.integer? = some i) (hn : n.integer? = some j) :
    m.compare? n = some (compare i j) := by
  rw [compare?, hm, hn]

/-- Comparing the other way round gives the opposite, where the numbers compare at all. -/
theorem compare?_swap (m n : Number) : n.compare? m = (m.compare? n).map Ordering.swap := by
  unfold compare?
  cases m.integer? <;> cases n.integer?
  case some.some i j => exact congrArg some Std.OrientedOrd.eq_swap
  all_goals exact Double.compare?_swap _ _

theorem canonicalCmp_of_integer? (hm : m.integer? = some i) (hn : n.integer? = some j) :
    m.canonicalCmp n = compare i j := by
  have hm' := isFloat_of_integer? hm
  have hn' := isFloat_of_integer? hn
  rw [integer?_eq_key hm', Option.some.injEq] at hm
  rw [integer?_eq_key hn', Option.some.injEq] at hn
  rw [canonicalCmp_of_isFloat_eq (hm'.trans hn'.symm), hm, hn]

end Number

namespace Value

variable {a b c : Value} {o : Ordering} {m n : Number}

/-- No number in the value, at any depth, is a float. -/
def FloatFree (v : Value) : Prop := v.Over (·.isFloat = false)

instance : DecidablePred FloatFree := fun v =>
  inferInstanceAs (Decidable (v.Over (·.isFloat = false)))

theorem floatFree_list {items : List Value} :
    (list items).FloatFree ↔ ∀ item ∈ items, item.FloatFree := over_list

theorem floatFree_ofNumber : (ofNumber n).FloatFree ↔ n.isFloat = false := over_ofNumber

theorem floatFree_text (s : String) : (text s).FloatFree := by
  simp [FloatFree, Over, numbers, number?]

/-- The comparisons of three values without floats fit together. -/
theorem FloatFree.fits (ha : a.FloatFree) (hb : b.FloatFree) (hc : c.FloatFree) :
    Fits (a.canonicalCmp b) (b.canonicalCmp c) (a.canonicalCmp c) := by
  have hnumbers : Number.OneToOne (fun n => n.isFloat = false) ∧
      Number.ApartFromNaN fun n => n.isFloat = false := Number.oneToOne_of_isFloat_eq id
  exact canonicalCmp_fits hnumbers.1 hnumbers.2 ha hb hc

/-! ### Values of one sort -/

/-- Values of different sorts are not equal. -/
theorem rank_eq_of_compareEq (h : a.compareEq b = some true) : a.rank = b.rank := by
  cases a <;> cases b <;> simp_all [compareEq, compareNumbers, number?, rank]

theorem compareEq_ofNumber (m n : Number) :
    (ofNumber m).compareEq (ofNumber n) = (m.compare? n).map (·.isEq) := by
  cases m <;> cases n <;> rfl

theorem compareOrder_ofNumber (m n : Number) :
    (ofNumber m).compareOrder (ofNumber n) = m.compare? n := by
  cases m <;> cases n <;> rfl

/-! ### Equality from both sides -/

theorem compareEqAll_comm (as : List Value)
    (ih : ∀ a ∈ as, ∀ b, b.compareEq a = a.compareEq b) (bs : List Value) :
    compareEqAll bs as = compareEqAll as bs := by
  induction as generalizing bs with
  | nil => cases bs <;> simp [compareEqAll]
  | cons a as ihs =>
    cases bs with
    | nil => simp [compareEqAll]
    | cons b bs =>
      rw [compareEqAll, compareEqAll, ih a List.mem_cons_self,
        ihs (fun a ha => ih a (List.mem_cons_of_mem _ ha))]

/-- Where the sorts differ, equality is undefined or false from both sides. -/
theorem compareEq_comm_of_rank_ne (h : a.rank ≠ b.rank) : b.compareEq a = a.compareEq b := by
  cases a <;> cases b <;> first | exact absurd rfl h | simp [compareEq, compareNumbers, number?]

/-- **Equality does not depend on the side**, also in where it is undefined. -/
theorem compareEq_comm (a b : Value) : b.compareEq a = a.compareEq b := by
  induction a using induct generalizing b with
  | step a ih =>
    by_cases hrank : a.rank = b.rank
    · obtain ⟨c, hsort⟩ := exists_oneSort hrank
      cases hsort with
      | null => rfl
      | bool x y => simp [compareEq, Bool.beq_comm]
      | number m n =>
        rw [compareEq_ofNumber, compareEq_ofNumber, Number.compare?_swap, Option.map_map]
        congr 1
        funext o
        cases o <;> rfl
      | text s t => simp [compareEq, BEq.comm (a := s)]
      | list as bs =>
        rw [compareEq, compareEq, compareEqAll_comm as (ih as rfl) bs]
        simp only [eq_comm (a := as.length)]
    · exact compareEq_comm_of_rank_ne hrank

/-! ### Equality and the sorted order -/

theorem canonicalCmpAll_eq_eq_iff (as : List Value)
    (ih : ∀ a ∈ as, ∀ b, a.FloatFree → b.FloatFree →
      (a.canonicalCmp b = .eq ↔ a.compareEq b = some true))
    {bs : List Value} (has : ∀ a ∈ as, a.FloatFree) (hbs : ∀ b ∈ bs, b.FloatFree) :
    canonicalCmpAll as bs = .eq ↔ as.length = bs.length ∧ compareEqAll as bs = some true := by
  induction as generalizing bs with
  | nil => cases bs <;> simp [canonicalCmpAll, compareEqAll]
  | cons a as ihs =>
    cases bs with
    | nil => simp [canonicalCmpAll]
    | cons b bs =>
      rw [List.forall_mem_cons] at has hbs
      have hhead := ih a List.mem_cons_self b has.1 hbs.1
      have htail := ihs (fun a ha => ih a (List.mem_cons_of_mem _ ha)) has.2 hbs.2
      rw [canonicalCmpAll, compareEqAll, Ordering.then_eq_eq, hhead, htail]
      cases a.compareEq b with
      | none => simp
      | some equal => cases equal <;> simp

/-- Two values without floats are sorted alike exactly if they are equal. -/
theorem canonicalCmp_eq_eq_iff (ha : a.FloatFree) (hb : b.FloatFree) :
    a.canonicalCmp b = .eq ↔ a.compareEq b = some true := by
  induction a using induct generalizing b with
  | step a ih =>
    rw [canonicalCmp_eq_then, Ordering.then_eq_eq, Nat.compare_eq_eq]
    by_cases hrank : a.rank = b.rank
    · rw [and_iff_right hrank]
      obtain ⟨c, hsort⟩ := exists_oneSort hrank
      cases hsort with
      | null => exact iff_of_true rfl rfl
      | bool x y => simp [compareWithin, compareOrder, compareEq]
      | number m n =>
        rw [floatFree_ofNumber] at ha hb
        have hm := Number.integer?_eq_key ha
        have hn := Number.integer?_eq_key hb
        rw [compareWithin_ofNumber, compareEq_ofNumber, Number.canonicalCmp_of_integer? hm hn,
          Number.compare?_of_integer? hm hn]
        cases compare m.key n.key <;> simp
      | text s t => simp [compareWithin, compareOrder, compareEq]
      | list as bs =>
        rw [floatFree_list] at ha hb
        rw [compareWithin, compareEq, canonicalCmpAll_eq_eq_iff as (ih as rfl) ha hb]
        split <;> simp_all
    · exact iff_of_false (fun h => hrank h.1) (fun h => hrank (rank_eq_of_compareEq h))

/-! ### The order of predicates -/

/-- The pairs of values that are in an order, and the order they are in. -/
inductive InOrder : Value → Value → Ordering → Prop
  | bool (x y : Bool) : InOrder (bool x) (bool y) (compare x y)
  | text (s t : String) : InOrder (text s) (text t) (compare s t)
  | integers {m n : Number} {i j : Int} (left : m.integer? = some i)
    (right : n.integer? = some j) : InOrder (ofNumber m) (ofNumber n) (compare i j)

/-- Two values without floats compare if they are Booleans, texts or integers. -/
theorem compareOrder_eq_some_iff (ha : a.FloatFree) (hb : b.FloatFree) :
    a.compareOrder b = some o ↔ InOrder a b o := by
  constructor
  · intro h
    by_cases hrank : a.rank = b.rank
    · obtain ⟨c, hsort⟩ := exists_oneSort hrank
      cases hsort with
      | null => cases h
      | bool x y => cases h; exact .bool x y
      | number m n =>
        rw [floatFree_ofNumber] at ha hb
        have hm := Number.integer?_eq_key ha
        have hn := Number.integer?_eq_key hb
        rw [compareOrder_ofNumber, Number.compare?_of_integer? hm hn] at h
        cases h
        exact .integers hm hn
      | text s t => cases h; exact .text s t
      | list as bs => cases h
    · cases a <;> cases b <;> first | exact absurd rfl hrank | cases h
  · intro h
    cases h with
    | bool x y => rfl
    | text s t => rfl
    | integers left right =>
      rw [compareOrder_ofNumber, Number.compare?_of_integer? left right]

/-- Values in an order are sorted in it, and equal if it says so. -/
theorem InOrder.agree (h : InOrder a b o) :
    a.canonicalCmp b = o ∧ a.compareEq b = some o.isEq := by
  cases h with
  | bool x y => cases x <;> cases y <;> decide
  | text s t =>
    refine ⟨by simp [canonicalCmp, rank, compareOrder], ?_⟩
    rw [compareEq, Option.some.injEq, Bool.eq_iff_iff]
    simp
  | integers left right =>
    rw [canonicalCmp_ofNumber, compareEq_ofNumber, Number.canonicalCmp_of_integer? left right,
      Number.compare?_of_integer? left right]
    exact ⟨rfl, rfl⟩

/-- **The three comparisons agree on values without floats.**  Two values are sorted alike exactly if
they are equal.  Two values are in an order exactly if they are Booleans, texts, or integers, and
integers are in the order of their values; they are then sorted in that order, and equal exactly if it
is that of equals.  Whether two values are equal, or cannot be compared, is the same from both
sides. -/
theorem comparisons_agree (a b : Value) (ha : a.FloatFree) (hb : b.FloatFree) :
    (a.canonicalCmp b = .eq ↔ a.compareEq b = some true) ∧
    (∀ o, a.compareOrder b = some o → a.canonicalCmp b = o ∧ a.compareEq b = some o.isEq) ∧
    (∀ o, a.compareOrder b = some o ↔ InOrder a b o) ∧
    b.compareEq a = a.compareEq b :=
  ⟨canonicalCmp_eq_eq_iff ha hb, fun _ h => ((compareOrder_eq_some_iff ha hb).1 h).agree,
    fun _ => compareOrder_eq_some_iff ha hb, compareEq_comm a b⟩

/-! ### Equality and conversion -/

variable {v w : Value} {kind : FieldKind}

theorem compareEq_self (hv : v.FloatFree) : v.compareEq v = some true := by
  refine (canonicalCmp_eq_eq_iff hv hv).1 ?_
  have hswap := canonicalCmp_swap v v
  cases hcmp : v.canonicalCmp v with
  | eq => rfl
  | lt | gt => rw [hcmp] at hswap; cases hswap

theorem compareEq_of_integer? {i : Int} (hv : v.integer? = some i) (hw : w.integer? = some i) :
    w.compareEq v = some true := by
  obtain ⟨word, rfl, rfl⟩ | ⟨word, rfl, rfl⟩ := integer?_eq_some.1 hv <;>
  obtain ⟨word', rfl, hword⟩ | ⟨word', rfl, hword⟩ := integer?_eq_some.1 hw <;>
  simp [compareEq, compareNumbers, number?, Number.compare?, Number.integer?, hword]

/-- A number equals the double that it is as a double, unless that is no number. -/
theorem compareEq_toDouble {n : Number} (hn : n.toDouble.isNaN = false) :
    (float n.toDouble).compareEq (ofNumber n) = some true := by
  have hcompare : Number.compare? (.float n.toDouble) n = some .eq := by
    simp only [Number.compare?, Number.integer?]
    exact (Double.compare?_of_not_isNaN hn hn).trans (by simp)
  exact (compareEq_ofNumber (.float n.toDouble) n).trans (by rw [hcompare]; rfl)

/-- **What is converted without loss stays equal to what it was**, unless it is a float. -/
theorem compareEq_of_cast (hv : v.FloatFree) (h : v.cast kind = some w) :
    w.compareEq v = some true := by
  have hsame : w = v → w.compareEq v = some true := fun heq => by rw [heq, compareEq_self hv]
  cases v with
  | null => exact hsame (Option.some.inj h).symm
  | bool | text | list =>
    refine hsame ?_
    cases kind <;> cases h <;> rfl
  | float x => exact absurd (hv (.float x) (List.mem_singleton_self _)) (by simp [Number.isFloat])
  | int i =>
    cases kind with
    | uint => exact compareEq_of_integer? (integer?_int i) (integer?_of_cast rfl (integer?_int i) h)
    | float =>
      cases (Option.ite_none_right_eq_some.1 h).2
      exact compareEq_toDouble (n := .int i) (Number.isNaN_toDouble rfl)
    | _ => exact hsame (by cases h <;> rfl)
  | uint n =>
    cases kind with
    | int => exact compareEq_of_integer? (integer?_uint n) (integer?_of_cast rfl (integer?_uint n) h)
    | float =>
      cases (Option.ite_none_right_eq_some.1 h).2
      exact compareEq_toDouble (n := .uint n) (Number.isNaN_toDouble rfl)
    | _ => exact hsame (by cases h <;> rfl)

end Value

namespace Sample

open Value

/-- Lists that hold the same integer once signed and once unsigned are equal and sorted alike; the
least signed word comes before the greatest unsigned one. -/
theorem mixedIntegers_agree :
    (list [int 1, list [null, text "a"]]).canonicalCmp (list [uint 1, list [null, text "a"]]) =
        .eq ∧
      (list [int 1, list [null, text "a"]]).compareEq (list [uint 1, list [null, text "a"]]) =
        some true ∧
      (int Int64.minValue).canonicalCmp (uint 18446744073709551615) = .lt := by
  have hlists := comparisons_agree (list [int 1, list [null, text "a"]])
    (list [uint 1, list [null, text "a"]]) (by decide) (by decide)
  have hwords := comparisons_agree (int Int64.minValue) (uint 18446744073709551615)
    (by decide) (by decide)
  have hequal : (list [int 1, list [null, text "a"]]).canonicalCmp
      (list [uint 1, list [null, text "a"]]) = .eq := by decide
  exact ⟨hequal, hlists.1.1 hequal, (hwords.2.1 .lt (by decide)).1⟩

end Sample

end RecordView
