import RecordView.Proofs.Value.Number

/-!
# The order of values by which rows are sorted

Swapping two values reverses their comparison (`Value.canonicalCmp_swap`).  Two comparisons fit
together with the third as far as those of the numbers in the values do: values of different sorts
are in the order of their sorts, lists are compared item by item, and within the other sorts nothing
but numbers is equal without being the same (`Value.canonicalCmp_fits`).

So the values over a set of numbers are in order exactly if integers and floats of the set equal
each other one to one (`Value.canonicalCmp_orders_iff`).
-/

namespace RecordView

namespace Value

variable {among : Number → Prop} {a b c v : Value} {items vs : List Value} {n : Number}

/-- What follows for every value from its items holds for all values. -/
theorem induct {motive : Value → Prop}
    (step : ∀ v, (∀ items, v = list items → ∀ item ∈ items, motive item) → motive v) (v : Value) :
    motive v :=
  @Value.rec motive (fun items => ∀ item ∈ items, motive item) (step _ nofun)
    (fun _ => step _ nofun) (fun _ => step _ nofun) (fun _ => step _ nofun)
    (fun _ => step _ nofun) (fun _ => step _ nofun)
    (fun _ hitems => step _ fun _ heq => list.inj heq ▸ hitems) (by simp)
    (fun _ _ head tail => List.forall_mem_cons.2 ⟨head, tail⟩) v

/-! ### Numbers in a value -/

mutual

/-- The numbers in a value, those in its items included. -/
def numbers : Value → List Number
  | list items => numbersOfAll items
  | v => v.number?.toList

/-- The numbers in several values. -/
def numbersOfAll : List Value → List Number
  | [] => []
  | v :: vs => v.numbers ++ numbersOfAll vs

end

/-- Whether all numbers in the value are in a set of them. -/
def Over (among : Number → Prop) (v : Value) : Prop := ∀ n ∈ v.numbers, among n

instance [DecidablePred among] : Decidable (v.Over among) :=
  inferInstanceAs (Decidable (∀ n ∈ v.numbers, among n))

theorem over_list : (list items).Over among ↔ ∀ item ∈ items, item.Over among := by
  rw [Over, numbers]
  induction items with
  | nil => simp [numbersOfAll]
  | cons item items ih => simp [numbersOfAll, Over, or_imp, forall_and, ih]

/-- A number as a value. -/
def ofNumber : Number → Value
  | .int i => int i
  | .uint n => uint n
  | .float x => float x

theorem over_ofNumber : (ofNumber n).Over among ↔ among n := by
  cases n <;> simp [ofNumber, Over, numbers, number?]

/-! ### Sorts -/

/-- The order of two values of one sort. -/
def compareWithin : Value → Value → Ordering
  | list as, list bs => canonicalCmpAll as bs
  | float x, float y => x.compareTotal y
  | a, b => (compareOrder a b).getD .eq

theorem canonicalCmp_eq_then (a b : Value) :
    a.canonicalCmp b = (compare a.rank b.rank).then (a.compareWithin b) := by
  cases a <;> cases b <;> simp [canonicalCmp, compareWithin, rank]

@[simp] theorem rank_ofNumber (n : Number) : (ofNumber n).rank = 2 := by
  cases n <;> rfl

@[simp] theorem compareWithin_ofNumber (m n : Number) :
    (ofNumber m).compareWithin (ofNumber n) = m.canonicalCmp n := by
  cases m <;> cases n <;> rfl

theorem canonicalCmp_ofNumber (m n : Number) :
    (ofNumber m).canonicalCmp (ofNumber n) = m.canonicalCmp n := by
  rw [canonicalCmp_eq_then, rank_ofNumber, rank_ofNumber, compareWithin_ofNumber]
  rfl

/-- Values of one sort. -/
inductive OneSort : Value → Value → Value → Prop
  | null : OneSort null null null
  | bool (x y z : Bool) : OneSort (bool x) (bool y) (bool z)
  | number (l m n : Number) : OneSort (ofNumber l) (ofNumber m) (ofNumber n)
  | text (s t u : String) : OneSort (text s) (text t) (text u)
  | list (as bs cs : List Value) : OneSort (list as) (list bs) (list cs)

theorem eq_null_of_rank (h : v.rank = 0) : v = null := by
  cases v <;> first | rfl | exact absurd h (by simp [rank])

theorem eq_bool_of_rank (h : v.rank = 1) : ∃ x, v = bool x := by
  cases v <;> first | exact ⟨_, rfl⟩ | exact absurd h (by simp [rank])

theorem eq_ofNumber_of_rank (h : v.rank = 2) : ∃ n, v = ofNumber n := by
  cases v with
  | int i => exact ⟨.int i, rfl⟩
  | uint n => exact ⟨.uint n, rfl⟩
  | float x => exact ⟨.float x, rfl⟩
  | _ => exact absurd h (by simp [rank])

theorem eq_text_of_rank (h : v.rank = 3) : ∃ s, v = text s := by
  cases v <;> first | exact ⟨_, rfl⟩ | exact absurd h (by simp [rank])

theorem eq_list_of_rank (h : v.rank = 4) : ∃ items, v = list items := by
  cases v <;> first | exact ⟨_, rfl⟩ | exact absurd h (by simp [rank])

theorem oneSort_of_rank (hab : a.rank = b.rank) (hbc : b.rank = c.rank) : OneSort a b c := by
  have hac := hab.trans hbc
  cases a with
  | null =>
    obtain rfl := eq_null_of_rank hab.symm
    obtain rfl := eq_null_of_rank hac.symm
    exact .null
  | bool x =>
    obtain ⟨y, rfl⟩ := eq_bool_of_rank hab.symm
    obtain ⟨z, rfl⟩ := eq_bool_of_rank hac.symm
    exact .bool x y z
  | text s =>
    obtain ⟨t, rfl⟩ := eq_text_of_rank hab.symm
    obtain ⟨u, rfl⟩ := eq_text_of_rank hac.symm
    exact .text s t u
  | list as =>
    obtain ⟨bs, rfl⟩ := eq_list_of_rank hab.symm
    obtain ⟨cs, rfl⟩ := eq_list_of_rank hac.symm
    exact .list as bs cs
  | int _ | uint _ | float _ =>
    obtain ⟨m, rfl⟩ := eq_ofNumber_of_rank hab.symm
    obtain ⟨n, rfl⟩ := eq_ofNumber_of_rank hac.symm
    first
    | exact .number (.int _) m n
    | exact .number (.uint _) m n
    | exact .number (.float _) m n

theorem exists_oneSort (h : a.rank = b.rank) : ∃ c, OneSort a b c :=
  ⟨b, oneSort_of_rank h rfl⟩

/-! ### Reversal -/

theorem canonicalCmpAll_swap (as : List Value)
    (ih : ∀ a ∈ as, ∀ b, b.canonicalCmp a = (a.canonicalCmp b).swap) (bs : List Value) :
    canonicalCmpAll bs as = (canonicalCmpAll as bs).swap := by
  induction as generalizing bs with
  | nil => cases bs <;> simp [canonicalCmpAll]
  | cons a as ihs =>
    cases bs with
    | nil => simp [canonicalCmpAll]
    | cons b bs =>
      rw [canonicalCmpAll, canonicalCmpAll, Ordering.swap_then, ih a List.mem_cons_self,
        ihs (fun a ha => ih a (List.mem_cons_of_mem _ ha))]

/-- Comparing the other way round gives the opposite. -/
theorem canonicalCmp_swap (a b : Value) : b.canonicalCmp a = (a.canonicalCmp b).swap := by
  induction a using induct generalizing b with
  | step a ih =>
    rw [canonicalCmp_eq_then, canonicalCmp_eq_then]
    refine then_eq_swap Std.OrientedCmp.eq_swap fun hrank => ?_
    obtain ⟨c, hsort⟩ := exists_oneSort (Nat.compare_eq_eq.1 hrank).symm
    cases hsort with
    | null => rfl
    | bool x y => exact (Std.OrientedOrd.eq_swap : compare y x = (compare x y).swap)
    | number m n =>
      rw [compareWithin_ofNumber, compareWithin_ofNumber]
      exact m.canonicalCmp_swap n
    | text s t => exact (Std.OrientedOrd.eq_swap : compare t s = (compare s t).swap)
    | list as bs => exact canonicalCmpAll_swap as (ih as rfl) bs

/-! ### Fitting together -/

theorem canonicalCmpAll_fits (as : List Value)
    (ih : ∀ a ∈ as, ∀ b c, b.Over among → c.Over among →
      Fits (a.canonicalCmp b) (b.canonicalCmp c) (a.canonicalCmp c)) {bs cs : List Value}
    (hbs : ∀ b ∈ bs, b.Over among) (hcs : ∀ c ∈ cs, c.Over among) :
    Fits (canonicalCmpAll as bs) (canonicalCmpAll bs cs) (canonicalCmpAll as cs) := by
  induction as generalizing bs cs with
  | nil => cases bs <;> cases cs <;> simp [canonicalCmpAll, Fits]
  | cons a as ihs =>
    cases bs with
    | nil => cases cs <;> simp [canonicalCmpAll, Fits]
    | cons b bs =>
      cases cs with
      | nil => simp [canonicalCmpAll, Fits, eq_comm]
      | cons c cs =>
        rw [List.forall_mem_cons] at hbs hcs
        rw [canonicalCmpAll, canonicalCmpAll, canonicalCmpAll]
        refine (ih a List.mem_cons_self b c hbs.1 hcs.1).then fun _ _ => ?_
        exact ihs (fun a ha => ih a (List.mem_cons_of_mem _ ha)) hbs.2 hcs.2

/-- The comparisons of three values fit together if those of their numbers do. -/
theorem canonicalCmp_fits (hone : Number.OneToOne among) (hnan : Number.ApartFromNaN among)
    (ha : a.Over among) (hb : b.Over among) (hc : c.Over among) :
    Fits (a.canonicalCmp b) (b.canonicalCmp c) (a.canonicalCmp c) := by
  induction a using induct generalizing b c with
  | step a ih =>
    rw [canonicalCmp_eq_then, canonicalCmp_eq_then, canonicalCmp_eq_then]
    -- where the sorts are not all the same, they decide
    refine (fits_compare a.rank b.rank c.rank).then fun hab hbc => ?_
    cases oneSort_of_rank (Nat.compare_eq_eq.1 hab) (Nat.compare_eq_eq.1 hbc) with
    | null => exact fits_compare 0 0 0
    | bool x y z => exact fits_compare x y z
    | number l m n =>
      rw [over_ofNumber] at ha hb hc
      simp only [compareWithin_ofNumber]
      exact hone.fits hnan ha hb hc
    | text s t u => exact fits_compare s t u
    | list as bs cs =>
      rw [over_list] at ha hb hc
      exact canonicalCmpAll_fits as (fun a hmem b c => ih as rfl a hmem (ha a hmem)) hb hc

/-- Comparing in either direction is reversed by the other.  Over a set of numbers in which no
integer stands beside a NaN, the comparison is transitive, and equal values compare alike with any
other, if and only if integers and floats of the set equal each other one to one. -/
theorem canonicalCmp_orders_iff (among : Number → Prop) (hnan : Number.ApartFromNaN among) :
    (∀ a b : Value, b.canonicalCmp a = (a.canonicalCmp b).swap) ∧
      ((∀ a b c : Value, a.Over among → b.Over among → c.Over among →
          (a.canonicalLE b = true → b.canonicalLE c = true → a.canonicalLE c = true) ∧
          (a.canonicalCmp b = .eq →
            a.canonicalCmp c = b.canonicalCmp c ∧ c.canonicalCmp a = c.canonicalCmp b)) ↔
        Number.OneToOne among) := by
  refine ⟨canonicalCmp_swap, fun horder => ?_, fun hone a b c ha hb hc => ⟨?_, fun hab => ?_⟩⟩
  · apply Number.oneToOne_of_alike
    intro l m n hl hm hn hlm
    have halike := (horder (ofNumber l) (ofNumber m) (ofNumber n) (over_ofNumber.2 hl)
      (over_ofNumber.2 hm) (over_ofNumber.2 hn)).2
    simp only [canonicalCmp_ofNumber] at halike
    exact (halike hlm).1
  · exact (canonicalCmp_fits hone hnan ha hb hc).isLE_trans
  · have hac := (canonicalCmp_fits hone hnan ha hb hc).1 hab
    refine ⟨hac, ?_⟩
    rw [canonicalCmp_swap a c, canonicalCmp_swap b c, hac]

end Value

namespace Sample

open Value

/-- A quiet NaN. -/
def nan : Double := ⟨0x7ff8000000000000⟩

/-- Equal to the same NaN, two integers are still different. -/
theorem nan_equals_integers :
    (int 1).canonicalCmp (float nan) = .eq ∧ (float nan).canonicalCmp (int 0) = .eq ∧
      (int 1).canonicalCmp (int 0) = .gt := by
  decide

example : (int 9007199254740993).canonicalCmp (float ⟨0x4340000000000000⟩) = .eq ∧
    (float ⟨0x4340000000000000⟩).canonicalCmp (int 9007199254740992) = .eq ∧
      (int 9007199254740993).canonicalCmp (int 9007199254740992) = .gt := by
  decide

/-- Lists of one, of one and a half and of two are in order. -/
theorem between_integers :
    let low : Value := list [int 1, text "a"]
    let middle : Value := list [float ⟨0x3ff8000000000000⟩]
    let high : Value := list [uint 2]
    low.canonicalLE middle = true ∧ middle.canonicalLE high = true ∧
      low.canonicalLE high = true := by
  intro low middle high
  have hlow : low.canonicalLE middle = true := by decide
  have hhigh : middle.canonicalLE high = true := by decide
  have horder := (canonicalCmp_orders_iff Number.Exact Number.oneToOne_exact.2).2.2
    Number.oneToOne_exact.1 low middle high (by decide) (by decide) (by decide)
  exact ⟨hlow, hhigh, horder.1 hlow hhigh⟩

end Sample

end RecordView
