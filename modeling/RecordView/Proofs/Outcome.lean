/-!
# Computations that may fail

A sequence of steps succeeds when every step does (`bind_eq_ok`), and what every step keeps
holds in the end (`foldlM_invariant`).  It succeeds as well when what every step keeps is enough for
the next one (`exists_foldlM`).  A list of computations that all succeed is a plain `map`
(`mapM_eq_map`, `exists_map_of_mapM`); one that fails does so at an item (`exists_error_of_mapM`),
and so does a sequence (`exists_error_of_foldlM`).
-/

namespace RecordView

variable {ε ε' α β : Type}

theorem bind_eq_ok {x : Except ε α} {f : α → Except ε β} {b : β} :
    (x >>= f) = .ok b ↔ ∃ a, x = .ok a ∧ f a = .ok b := by
  cases x with
  | error e => simp [bind, Except.bind]
  | ok a => simp [bind, Except.bind]

/-- A computation followed by a plain one succeeds when it does. -/
theorem exists_bind_pure {x : Except ε α} {f : α → β} :
    (∃ b, (do return f (← x)) = Except.ok b) ↔ ∃ a, x = .ok a := by
  simp only [bind_eq_ok]
  exact ⟨fun ⟨_, a, ha, _⟩ => ⟨a, ha⟩, fun ⟨a, ha⟩ => ⟨_, a, ha, rfl⟩⟩

theorem exists_bind_bind_pure {γ : Type} {x : Except ε α} {z : Except ε β} {f : α → β → γ} :
    (∃ c, (do
      let a ← x
      let b ← z
      return f a b) = Except.ok c) ↔ (∃ a, x = .ok a) ∧ ∃ b, z = .ok b := by
  simp only [bind_eq_ok]
  exact ⟨fun ⟨_, a, ha, b, hb, _⟩ => ⟨⟨a, ha⟩, b, hb⟩,
    fun ⟨⟨a, ha⟩, b, hb⟩ => ⟨_, a, ha, b, hb, rfl⟩⟩

theorem mapError_eq_ok {x : Except ε α} {f : ε → ε'} {a : α} :
    x.mapError f = .ok a ↔ x = .ok a := by
  cases x with
  | error e => exact ⟨(nomatch ·), (nomatch ·)⟩
  | ok b => exact ⟨fun h => by cases h; rfl, fun h => by cases h; rfl⟩

theorem map_eq_ok {x : Except ε α} {f : α → β} {b : β} :
    x.map f = .ok b ↔ ∃ a, x = .ok a ∧ b = f a := by
  cases x with
  | error e => exact ⟨(nomatch ·), fun ⟨_, h, _⟩ => nomatch h⟩
  | ok a =>
    constructor
    · rintro ⟨⟩
      exact ⟨a, rfl, rfl⟩
    · rintro ⟨_, ⟨⟩, rfl⟩
      rfl

theorem mapError_ok (f : ε → ε') (a : α) : (Except.ok a).mapError f = .ok a := rfl

/-- What holds at first and is kept by every step holds after all of them.  The invariant may speak
of the items that were dealt with. -/
theorem foldlM_invariant {f : β → α → Except ε β} {items : List α} (I : List α → β → Prop)
    {b r : β} (init : I [] b)
    (step : ∀ done a rest b b', done ++ a :: rest = items → I done b → f b a = .ok b' →
      I (done ++ [a]) b')
    (h : items.foldlM f b = .ok r) : I items r := by
  have run : ∀ rest done b, done ++ rest = items → I done b → rest.foldlM f b = .ok r →
      I items r := by
    intro rest
    induction rest with
    | nil =>
      intro done b hitems hb h
      cases h
      rwa [List.append_nil, ← hitems.symm] at *
    | cons a rest ih =>
      intro done b hitems hb h
      rw [List.foldlM_cons] at h
      obtain ⟨b', hstep, hrest⟩ := bind_eq_ok.1 h
      exact ih (done ++ [a]) b' (by simpa using hitems)
        (step done a rest b b' hitems hb hstep) hrest
  exact run items [] b rfl init h

/-- What holds at first, lets every step succeed and is kept by it, lets all steps succeed. -/
theorem exists_foldlM {f : β → α → Except ε β} {items : List α} (I : β → Prop) {b : β} (init : I b)
    (step : ∀ b, ∀ a ∈ items, I b → ∃ b', f b a = .ok b' ∧ I b') :
    ∃ r, items.foldlM f b = .ok r := by
  induction items generalizing b with
  | nil => exact ⟨b, rfl⟩
  | cons a items ih =>
    obtain ⟨b', hstep, hb'⟩ := step b a (by simp) init
    obtain ⟨r, hr⟩ := ih hb' fun c d hd => step c d (by simp [hd])
    exact ⟨r, by rw [List.foldlM_cons, hstep]; exact hr⟩

/-- A list of computations that all succeed. -/
theorem mapM_eq_map {f : α → Except ε β} {g : α → β} {items : List α}
    (h : ∀ a ∈ items, f a = .ok (g a)) : items.mapM f = .ok (items.map g) := by
  induction items with
  | nil => rfl
  | cons a items ih =>
    rw [List.mapM_cons, h a (by simp), ih fun b hb => h b (by simp [hb])]
    rfl

theorem exists_of_mapM {f : α → Except ε β} {items : List α} {results : List β}
    (h : items.mapM f = .ok results) : ∀ a ∈ items, ∃ b ∈ results, f a = .ok b := by
  induction items generalizing results with
  | nil => simp
  | cons a items ih =>
    rw [List.mapM_cons] at h
    obtain ⟨b, hb, h⟩ := bind_eq_ok.1 h
    obtain ⟨bs, hbs, h⟩ := bind_eq_ok.1 h
    cases h
    intro c hc
    obtain rfl | hc := List.mem_cons.1 hc
    · exact ⟨b, by simp, hb⟩
    · obtain ⟨d, hd, hok⟩ := ih hbs c hc
      exact ⟨d, by simp [hd], hok⟩

/-- A list of computations of which each succeeds. -/
theorem exists_mapM {f : α → Except ε β} {items : List α} (h : ∀ a ∈ items, ∃ b, f a = .ok b) :
    ∃ results, items.mapM f = .ok results := by
  induction items with
  | nil => exact ⟨[], rfl⟩
  | cons a items ih =>
    obtain ⟨b, hb⟩ := h a (by simp)
    obtain ⟨bs, hbs⟩ := ih fun c hc => h c (by simp [hc])
    exact ⟨b :: bs, by rw [List.mapM_cons, hb, hbs]; rfl⟩

theorem mapM_singleton_eq_ok {f : α → Except ε β} {a : α} {results : List β} :
    [a].mapM f = .ok results ↔ ∃ b, f a = .ok b ∧ results = [b] := by
  rw [List.mapM_cons]
  cases f a with
  | error e => exact ⟨(nomatch ·), fun ⟨_, h, _⟩ => nomatch h⟩
  | ok b =>
    constructor
    · rintro ⟨⟩
      exact ⟨b, rfl, rfl⟩
    · rintro ⟨_, ⟨⟩, rfl⟩
      rfl

/-- A list of computations fails with the error of one of them. -/
theorem exists_error_of_mapM {f : α → Except ε β} {items : List α} {e : ε}
    (h : items.mapM f = .error e) : ∃ a ∈ items, f a = .error e := by
  induction items with
  | nil => cases h
  | cons a items ih =>
    rw [List.mapM_cons] at h
    cases ha : f a with
    | error e' =>
      rw [ha] at h
      cases h
      exact ⟨a, by simp, ha⟩
    | ok b =>
      cases hrest : items.mapM f with
      | ok bs =>
        rw [ha, hrest] at h
        cases h
      | error e' =>
        rw [ha, hrest] at h
        cases h
        obtain ⟨c, hc, he⟩ := ih hrest
        exact ⟨c, by simp [hc], he⟩

/-- Steps that fail do so at one of them. -/
theorem exists_error_of_foldlM {f : β → α → Except ε β} {items : List α} {b : β} {e : ε}
    (h : items.foldlM f b = .error e) : ∃ c, ∃ a ∈ items, f c a = .error e := by
  induction items generalizing b with
  | nil => cases h
  | cons a items ih =>
    rw [List.foldlM_cons] at h
    cases ha : f b a with
    | error e' =>
      rw [ha] at h
      cases h
      exact ⟨b, a, by simp, ha⟩
    | ok b' =>
      rw [ha] at h
      obtain ⟨c, d, hd, he⟩ := ih h
      exact ⟨c, d, by simp [hd], he⟩

/-- The results of a list of computations that all succeed are the images of the items. -/
theorem exists_map_of_mapM [Inhabited β] {f : α → Except ε β} {items : List α} {results : List β}
    (h : items.mapM f = .ok results) :
    ∃ g : α → β, (∀ a ∈ items, f a = .ok (g a)) ∧ results = items.map g := by
  have hall : ∀ a ∈ items, f a = .ok ((f a).toOption.getD default) := by
    intro a ha
    obtain ⟨b, -, hb⟩ := exists_of_mapM h a ha
    rw [hb]
    rfl
  refine ⟨fun a => (f a).toOption.getD default, hall, ?_⟩
  rw [mapM_eq_map hall] at h
  cases h
  rfl

theorem length_of_mapM [Inhabited β] {f : α → Except ε β} {items : List α} {results : List β}
    (h : items.mapM f = .ok results) : results.length = items.length := by
  obtain ⟨g, -, rfl⟩ := exists_map_of_mapM h
  exact List.length_map g

/-- Searching for an item with a test that succeeds wherever another one does. -/
theorem anyM_eq_ok {f g : α → Except ε Bool} {items : List α} {b : Bool}
    (h : ∀ a b, f a = .ok b → g a = .ok b) (hf : items.anyM f = .ok b) : items.anyM g = .ok b := by
  induction items with
  | nil => exact hf
  | cons a items ih =>
    rw [List.anyM] at hf ⊢
    obtain ⟨found, hfound, hf⟩ := bind_eq_ok.1 hf
    refine bind_eq_ok.2 ⟨found, h a found hfound, ?_⟩
    cases found with
    | true => exact hf
    | false => exact ih hf

/-- Asking all items with a test that succeeds wherever another one does. -/
theorem allM_eq_ok {f g : α → Except ε Bool} {items : List α} {b : Bool}
    (h : ∀ a b, f a = .ok b → g a = .ok b) (hf : items.allM f = .ok b) : items.allM g = .ok b := by
  induction items with
  | nil => exact hf
  | cons a items ih =>
    rw [List.allM] at hf ⊢
    obtain ⟨held, hheld, hf⟩ := bind_eq_ok.1 hf
    refine bind_eq_ok.2 ⟨held, h a held hheld, ?_⟩
    cases held with
    | true => exact ih hf
    | false => exact hf

/-- A search that succeeds has found an item. -/
theorem exists_of_anyM {f : α → Except ε Bool} {items : List α} (h : items.anyM f = .ok true) :
    ∃ a ∈ items, f a = .ok true := by
  induction items with
  | nil => cases h
  | cons a items ih =>
    rw [List.anyM] at h
    obtain ⟨found, hfound, h⟩ := bind_eq_ok.1 h
    cases found with
    | true => exact ⟨a, by simp, hfound⟩
    | false =>
      obtain ⟨b, hb, hfound⟩ := ih h
      exact ⟨b, by simp [hb], hfound⟩

end RecordView
