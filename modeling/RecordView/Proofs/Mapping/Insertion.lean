import RecordView.Proofs.Mapping.Commuting

/-!
# Building mapping sets

A mapping set is built from the empty one by insertions, some of which may be refused
(`MappingSet.insertAll`).  An insertion sets the roots of a new set before it compares model paths,
and compares whole paths, with owners and types, while a lookup compares names only.  Where schemas
with one path are one schema, neither matters: every set that is built is empty or sound
(`MappingSet.Built`), and a refused insertion leaves it as it was (`MappingSet.Built.insert_refused`).

A lookup answers by the number of mappings that have the names (`MappingSet.AnswersByNumber`).  Of a
built set at most one has them on the side of the model, so that such a lookup is never ambiguous
(`MappingSet.insertAll_lookup`).
-/

namespace RecordView

namespace MappingSet

variable {set : MappingSet} {m : Mapping}

/-- The set after insertions, whether or not each is refused. -/
def insertAll (set : MappingSet) (ms : List Mapping) : MappingSet :=
  ms.foldl (fun set m => (set.insert m).2) set

/-! ### Insertions -/

/-- A mapping is added to a new set as it is in place. -/
theorem push_eq_insert (set : MappingSet) (m : Mapping) :
    set.push m = (set.insert m).1.map fun _ => (set.insert m).2 := by
  rw [push, insert]
  cases hroots : set.roots? with
  | none =>
    simp only [insert.add]
    split <;> rfl
  | some roots =>
    obtain ⟨model, entity⟩ := roots
    simp only [insert.add]
    cases matchRoot model m.model.root with
    | error e => rfl
    | ok _ =>
      cases matchRoot entity m.entity.root with
      | error e => rfl
      | ok _ =>
        simp only [bind, Except.bind]
        split
        · rfl
        · simp [Except.map, hroots]

/-- A refusal leaves the set as it was, unless it found mappings and no roots. -/
theorem insert_refused (hempty : set.roots? = none → set.mappings = []) {e : MappingError}
    (h : (set.insert m).1 = .error e) : (set.insert m).2 = set := by
  rw [insert] at h ⊢
  cases hroots : set.roots? with
  | none =>
    -- the roots were set, but then there is no path to be a duplicate of
    simp [hroots, insert.add, hempty hroots] at h
  | some roots =>
    obtain ⟨model, entity⟩ := roots
    simp only [hroots] at h ⊢
    cases hmodel : matchRoot model m.model.root with
    | error _ => rfl
    | ok _ =>
      simp only [hmodel] at h ⊢
      cases hentity : matchRoot entity m.entity.root with
      | error _ => rfl
      | ok _ =>
        simp only [hentity, insert.add] at h ⊢
        split at h
        · rw [if_pos ‹_›]
        · cases h

/-! ### Built sets -/

/-- The mapping ties paths of known schemas, as one that is made of two selectors does. -/
def TiesKnown (known : Schema → Prop) (m : Mapping) : Prop :=
  ∃ model entity, known model ∧ known entity ∧ m.Between model entity

/-- The set has no mappings and no roots, or it is sound between its roots. -/
def Built (known : Schema → Prop) (set : MappingSet) : Prop :=
  set = .empty ∨
    ∃ model entity, known model ∧ known entity ∧ set.mappings ≠ [] ∧ set.Sound model entity

variable {known : Schema → Prop}

theorem Built.noRoots_iff (h : set.Built known) : set.roots? = none ↔ set.mappings = [] := by
  obtain rfl | ⟨model, entity, -, -, hne, hs⟩ := h
  · exact ⟨fun _ => rfl, fun _ => rfl⟩
  · rw [hs.roots hne]
    exact ⟨(nomatch ·), fun hnil => absurd hnil hne⟩

theorem Built.insert_refused (h : set.Built known) {e : MappingError}
    (hrefused : (set.insert m).1 = .error e) : (set.insert m).2 = set :=
  MappingSet.insert_refused h.noRoots_iff.1 hrefused

/-- **One insertion** into a built set builds a set. -/
theorem Built.insert (hk : Schema.Coherent known) (h : set.Built known) (hm : TiesKnown known m) :
    (set.insert m).2.Built known := by
  cases hanswer : (set.insert m).1 with
  | error e =>
    rw [h.insert_refused hanswer]
    exact h
  | ok _ =>
    have hpush : set.push m = .ok (set.insert m).2 := by
      rw [push_eq_insert, hanswer]
      rfl
    obtain ⟨hroots, -, hafter⟩ := push_eq_ok hpush
    have hne : (set.insert m).2.mappings ≠ [] := by simp [hafter]
    obtain ⟨model', entity', hknown, hknown', hbetween⟩ := hm
    obtain rfl | ⟨model, entity, hmodel, hentity, hmappings, hs⟩ := h
    · exact .inr ⟨model', entity', hknown, hknown', hne,
        (sound_empty model' entity').push hbetween hpush⟩
    · -- the roots agree in their paths, so they are the same
      obtain ⟨hpath, hpath'⟩ := hroots model entity (hs.roots hmappings)
      rw [hbetween.model.root] at hpath
      rw [hbetween.entity.root] at hpath'
      obtain rfl := hk model model' hmodel hknown hpath
      obtain rfl := hk entity entity' hentity hknown' hpath'
      exact .inr ⟨model, entity, hmodel, hentity, hne, hs.push hbetween hpush⟩

/-- **Every run of insertions** into the empty set builds a set. -/
theorem built_insertAll (hk : Schema.Coherent known) {ms : List Mapping}
    (hms : ∀ m ∈ ms, TiesKnown known m) : (insertAll .empty ms).Built known := by
  have run : ∀ (ms : List Mapping) (set : MappingSet), (∀ m ∈ ms, TiesKnown known m) →
      set.Built known → (insertAll set ms).Built known := by
    intro ms
    induction ms with
    | nil => exact fun _ _ h => h
    | cons m ms ih =>
      intro set hms h
      exact ih (set.insert m).2 (fun n hn => hms n (.tail _ hn)) (h.insert hk (hms m (.head _)))
  exact run ms .empty hms (.inl rfl)

/-! ### Lookup -/

/-- The mappings whose source path has the names. -/
def named (set : MappingSet) (d : Direction) (names : List String) : List Mapping :=
  set.mappings.filter fun m => (m.source d).isNamed names

theorem mem_named {d : Direction} {names : List String} :
    m ∈ set.named d names ↔ m ∈ set.mappings ∧ (m.source d).names = names := by
  simp [named, FieldPath.isNamed]

/-- No mapping, one mapping, or several have the names, and a lookup answers accordingly. -/
structure AnswersByNumber (set : MappingSet) (d : Direction) (source : Schema)
    (names : List String) : Prop where
  notFound : set.find d names = .error (.notFound source.path (dotted names)) ↔
    (set.named d names).length = 0
  found : ∀ m, set.find d names = .ok m ↔
    (set.named d names).length = 1 ∧ m ∈ set.mappings ∧ (m.source d).names = names
  ambiguous : ∀ n, set.find d names = .error (.ambiguous source.path (dotted names) n) ↔
    2 ≤ n ∧ (set.named d names).length = n

theorem answersByNumber {d : Direction} {source target : Schema}
    (hroots : set.roots d = .ok (source, target)) (names : List String) :
    set.AnswersByNumber d source names := by
  have hmem : ∀ m, m ∈ set.named d names ↔ m ∈ set.mappings ∧ (m.source d).names = names :=
    fun _ => mem_named
  cases hnamed : set.named d names with
  | nil =>
    have hfind : set.find d names = .error (.notFound source.path (dotted names)) := by
      rw [named] at hnamed
      rw [find, hroots, hnamed]
      rfl
    exact ⟨by simp [hfind, hnamed], by simp [hfind, hnamed], by simp [hfind, hnamed]; omega⟩
  | cons k rest =>
    cases rest with
    | nil =>
      have hfind : set.find d names = .ok k := by
        rw [named] at hnamed
        rw [find, hroots, hnamed]
        rfl
      refine ⟨by simp [hfind, hnamed], fun m => ?_, by simp [hfind, hnamed]; omega⟩
      rw [← hmem, hfind, hnamed]
      simp [eq_comm]
    | cons l rest =>
      have hfind : set.find d names =
          .error (.ambiguous source.path (dotted names) (k :: l :: rest).length) := by
        rw [named] at hnamed
        rw [find, hroots, hnamed]
        rfl
      refine ⟨by simp [hfind, hnamed], by simp [hfind, hnamed], fun n => ?_⟩
      rw [hfind, hnamed]
      simp only [Except.error.injEq, MappingError.ambiguous.injEq, true_and, List.length_cons]
      omega

/-- At most one mapping of a sound set has the names on the side of the model. -/
theorem Sound.length_named_le {model entity : Schema} (hs : set.Sound model entity)
    (names : List String) : (set.named .modelToEntity names).length ≤ 1 := by
  have hnodup : ((set.named .modelToEntity names).map (·.model.names)).Nodup :=
    hs.distinct.sublist (List.filter_sublist.map _)
  have hsame : ∀ m ∈ set.named .modelToEntity names, m.model.names = names :=
    fun m hm => (mem_named.1 hm).2
  match hnamed : set.named .modelToEntity names with
  | [] | [_] => simp
  | m :: n :: rest =>
    rw [hnamed] at hnodup hsame
    simp [hsame m (by simp), hsame n (by simp)] at hnodup

/-- **What mapping sets keep, whatever is inserted.**  The roots are set exactly when there are
mappings, all mappings share them, no two model paths have the same names, and a refused insertion
leaves the set as it was.  So a lookup on the side of the model is never ambiguous, and finds the
mapping with the names where there is one; a lookup on the side of the entity finds the only mapping
with the names, or tells that there is none, or how many there are. -/
theorem insertAll_lookup (hk : Schema.Coherent known) {ms : List Mapping}
    (hms : ∀ m ∈ ms, TiesKnown known m) (hset : insertAll .empty ms = set) :
    (set.roots? ≠ none ↔ set.mappings ≠ []) ∧
    (∀ model entity, set.roots? = some (model, entity) →
      ∀ m ∈ set.mappings, m.model.root = model ∧ m.entity.root = entity) ∧
    (set.mappings.map (·.model.names)).Nodup ∧
    (∀ m e, (set.insert m).1 = .error e → (set.insert m).2 = set) ∧
    (set.mappings ≠ [] → ∃ model entity, set.roots? = some (model, entity) ∧ ∀ names,
      (∀ root path n, set.find .modelToEntity names ≠ .error (.ambiguous root path n)) ∧
      (∀ m, set.find .modelToEntity names = .ok m ↔ m ∈ set.mappings ∧ m.model.names = names) ∧
      set.AnswersByNumber .modelToEntity model names ∧
      set.AnswersByNumber .entityToModel entity names) := by
  have hbuilt : set.Built known := hset ▸ built_insertAll hk hms
  refine ⟨not_congr hbuilt.noRoots_iff, ?_, ?_, fun m e => hbuilt.insert_refused, fun hne => ?_⟩
  · intro model entity hroots m hm
    obtain rfl | ⟨model', entity', -, -, hne, hs⟩ := hbuilt
    · cases hm
    · obtain ⟨rfl, rfl⟩ : model' = model ∧ entity' = entity := by
        simpa using (hs.roots hne).symm.trans hroots
      exact ⟨(hs.between m hm).model.root, (hs.between m hm).entity.root⟩
  · obtain rfl | ⟨model, entity, -, -, -, hs⟩ := hbuilt
    · exact List.nodup_nil
    · exact hs.distinct
  · obtain rfl | ⟨model, entity, -, -, -, hs⟩ := hbuilt
    · exact absurd rfl hne
    refine ⟨model, entity, hs.roots hne, fun names => ?_⟩
    have hmodel := answersByNumber (hs.roots_eq_ok hne .modelToEntity) names
    have hle := hs.length_named_le names
    refine ⟨fun root path n h => ?_, fun m => ?_, hmodel,
      answersByNumber (hs.roots_eq_ok hne .entityToModel) names⟩
    · obtain hempty | hone : (set.named .modelToEntity names).length = 0 ∨
          (set.named .modelToEntity names).length = 1 := by omega
      · rw [hmodel.notFound.2 hempty] at h
        cases h
      · obtain ⟨m, hm⟩ := List.length_eq_one_iff.1 hone
        have hmem : m ∈ set.named .modelToEntity names := by simp [hm]
        rw [(hmodel.found m).2 ⟨hone, mem_named.1 hmem⟩] at h
        cases h
    · refine ⟨fun h => ((hmodel.found m).1 h).2, fun hm => (hmodel.found m).2 ⟨?_, hm⟩⟩
      have hpos : 0 < (set.named .modelToEntity names).length :=
        List.length_pos_of_mem (mem_named.2 hm)
      omega

end MappingSet

/-! ### Users -/

namespace Sample

/-- Two fields of the model that both show the name, a second mapping of the first of them, and one
in the wrong direction. -/
def nameDeclarations : List MappingDeclaration :=
  [⟨.over userModel (·.field "name"), .over user (·.field "name"), false⟩,
    ⟨.over userModel (·.field "role"), .over user (·.field "name"), false⟩,
    ⟨.over userModel (·.field "name"), .over user (·.chain ["role", "name"]), true⟩,
    ⟨.over user (·.field "name"), .over userModel (·.field "name"), false⟩]

/-- The mappings so declared. -/
def nameMappings : List Mapping := nameDeclarations.filterMap (·.resolve.toOption)

theorem nameMappings_known :
    ∀ m ∈ nameMappings, MappingSet.TiesKnown (fun s => s = userModel ∨ s = user) m := by
  intro m hm
  obtain ⟨d, hd, hresolve⟩ := List.mem_filterMap.1 hm
  have hroots : ∀ d ∈ nameDeclarations,
      (d.model.param.schema = userModel ∨ d.model.param.schema = user) ∧
        (d.entity.param.schema = userModel ∨ d.entity.param.schema = user) := by
    simp [nameDeclarations, Lambda.over]
  cases hok : d.resolve with
  | error e =>
    rw [hok] at hresolve
    cases hresolve
  | ok n =>
    rw [hok] at hresolve
    cases hresolve
    exact ⟨_, _, (hroots d hd).1, (hroots d hd).2, d.between_of_resolve hok⟩

/-- Of the four mappings two are refused, and two have the name of the user on their other side. -/
theorem nameMappings_lookup :
    nameMappings.length = 4 ∧ (MappingSet.insertAll .empty nameMappings).mappings.length = 2 ∧
    (∀ m e, ((MappingSet.insertAll .empty nameMappings).insert m).1 = .error e →
      ((MappingSet.insertAll .empty nameMappings).insert m).2 =
        MappingSet.insertAll .empty nameMappings) ∧
    (MappingSet.insertAll .empty nameMappings).find .entityToModel ["name"] =
      .error (.ambiguous "User" "name" 2) := by
  obtain ⟨-, -, -, hrefused, hlookup⟩ :=
    MappingSet.insertAll_lookup coherent_users nameMappings_known rfl
  obtain ⟨model, entity, hroots, hnames⟩ := hlookup (List.ne_nil_of_length_pos (by decide))
  cases hroots
  exact ⟨rfl, rfl, hrefused, ((hnames ["name"]).2.2.2.ambiguous 2).2 ⟨Nat.le_refl 2, rfl⟩⟩

end Sample

end RecordView
