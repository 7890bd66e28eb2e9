import RecordView.Proofs.Mapping.Rewriting
import RecordView.Proofs.Service.Update
import RecordView.Proofs.Value.Comparisons

/-!
# Repeated updates

The key filter of a model decides every row: a row passes if it has the values of the model in all
key fields, as predicates compare them (`Service.test_keyFilter`).  The row that an update leaves has
the values that were written, converted to the kinds of its fields, and these equal the written ones
unless they are null or floats.  So it is the row that the same update finds again, it has nothing
left to write, and the update puts it where it is (`Service.update_idempotent`).

A null in the key is not written, and the record that holds the field may be allocated for other
values, so that the row has a default there afterwards (`Sample.update_by_null_once`).  Floats are
left out because not every float equals itself.
-/

namespace RecordView

/-- The entity has the value of the model, as predicates compare them. -/
def Mapping.ties (k : Mapping) (m row : Record) : Bool :=
  ((k.entity.read row).compareEq (k.model.read m)).getD false

namespace Service

/-! ### The key filter -/

section KeyFilter

variable {σ : Type} {s : Service σ} {entity : Schema} {keys : List Mapping} {m row : Record}

/-- Conditions that are added to a Boolean decide it together with the Boolean. -/
theorem eval_keyConditions (hkeys : ∀ k ∈ keys, k.entity.ScalarOn entity)
    (hrow : row.Conforms entity) {x : Param} {env : Env} (hx : env.lookup? x = some row) {e : Expr}
    {b : Bool} (he : e.eval env = .ok (.value (.bool b))) :
    (keys.foldl (fun filter k => filter.conj ((k.entity.toExpr (.parameter x)).equals
      (.constant (k.model.read m)))) e).eval env =
        .ok (.value (.bool (b && keys.all (·.ties m row)))) := by
  induction keys generalizing e b with
  | nil => simpa using he
  | cons k keys ih =>
    rw [List.forall_mem_cons] at hkeys
    have hread := hkeys.1.resolved.eval_toExpr hkeys.1.scalar (hkeys.1.conforms hrow) hx
    have hcondition : ((k.entity.toExpr (.parameter x)).equals
        (.constant (k.model.read m))).eval env = .ok (.value (.bool (k.ties m row))) := by
      rw [Expr.equals, Expr.eval, hread]
      rfl
    have hconj : (e.conj ((k.entity.toExpr (.parameter x)).equals
        (.constant (k.model.read m)))).eval env =
          .ok (.value (.bool (b && k.ties m row))) := by
      cases b with
      | false => exact Expr.eval_connective_decided he rfl
      | true =>
        refine (Expr.eval_connective_undecided he rfl).trans ?_
        rw [hcondition]
        rfl
    rw [List.foldl_cons, ih hkeys.2 hconj, List.all_cons, Bool.and_assoc]

/-- **The key filter decides every row**, by what it has in the key fields. -/
theorem test_keyFilter (hkeys : ∀ k ∈ s.mappings.keys, k.entity.ScalarOn s.entity)
    (hrow : row.Conforms s.entity) :
    (s.keyFilter m).test row = .ok (s.mappings.keys.all (·.ties m row)) := by
  have hx : Env.lookup? [(⟨"x", s.entity⟩, row)] ⟨"x", s.entity⟩ = some row := by
    simp [Env.lookup?]
  have heval := eval_keyConditions (m := m) hkeys hrow hx (e := .constant (.bool true)) rfl
  rw [Lambda.test, Lambda.apply_of_conforms hrow]
  exact bind_eq_ok.2 ⟨_, heval, by rw [Bool.true_and]; rfl⟩

end KeyFilter

/-! ### The same update again -/

variable {model entity : Schema} {declarations : List MappingDeclaration}
  {defaultOrder : List OrderTerm} {pagination : PaginationPolicy} {s : Service Table} {t : Table}
  {m old new : Record} {before behind : List Record} {results : Results Record}

/-- The row that a model was written to has the key of the model. -/
theorem passes_keyFilter_of_written (hsound : s.mappings.Sound model s.entity)
    (hdistinct : s.mappings.DistinctEntities)
    (hkeys : ∀ k ∈ s.mappings.keys, k.model.read m ≠ .null ∧ (k.model.read m).FloatFree)
    (hold : old.Conforms s.entity) (h : s.mappings.writeEntity m old = .ok new) :
    passes (some (s.keyFilter m)) new = .ok true := by
  have hmem : ∀ k ∈ s.mappings.keys, k ∈ s.mappings.mappings :=
    fun k hk => (List.mem_filter.1 hk).1
  have hties : s.mappings.keys.all (·.ties m new) = true := by
    refine List.all_eq_true.2 fun k hk => ?_
    obtain ⟨hvalue, hfloat⟩ := hkeys k hk
    have hwritten := (hsound.partlyWritten hdistinct hold h).written k (hmem k hk) hvalue
    rw [Mapping.ties, Value.compareEq_of_cast hfloat hwritten]
    rfl
  have htest := test_keyFilter (m := m) (fun k hk => (hsound.between k (hmem k hk)).entity)
    (hsound.conforms_writeEntity hold h)
  rw [passes, htest, hties]
  rfl

/-- A row that was replaced can be replaced again, by itself. -/
theorem Overwrites.again (hsound : s.mappings.Sound model s.entity)
    (hdistinct : s.mappings.DistinctEntities)
    (hkeys : ∀ k ∈ s.mappings.keys, k.model.read m ≠ .null ∧ (k.model.read m).FloatFree)
    (hold : old.Conforms s.entity) (h : s.Overwrites t m before old behind new) :
    s.Overwrites { t with rows := before ++ new :: behind } m before new behind new := by
  have hwritten : s.mappings.writeEntity m old = .ok new := mapError_eq_ok.1 h.written
  refine ⟨rfl, passes_keyFilter_of_written hsound hdistinct hkeys hold hwritten, h.others, ?_,
    h.distinct⟩
  rw [writeEntity, hsound.writeEntity_again hdistinct hold hwritten]
  rfl

/-- **An update is idempotent.**  With a key that is neither null nor a float, an update that has
succeeded succeeds again with the same result, and leaves the table as the first one left it. -/
theorem update_idempotent
    (hbuild : build model entity declarations defaultOrder pagination (.ok Table.repository) =
      .ok s)
    (hdeclared : ∀ c ∈ declarations, c.model.param.schema = model ∧ c.entity.param.schema = entity)
    (hdistinct : s.mappings.DistinctEntities) (hrows : ∀ row ∈ t.rows, row.Conforms entity)
    (hkeys : ∀ k ∈ s.mappings.keys, k.model.read m ≠ .null ∧ (k.model.read m).FloatFree)
    (h : (s.update t m).outcome = .ok results) :
    (s.update (s.update t m).store m).outcome = .ok results ∧
      (s.update (s.update t m).store m).store = (s.update t m).store := by
  obtain ⟨hdeclare, -, -, -, rfl, -⟩ := build_eq_ok hbuild
  have hsound := MappingSet.sound_of_declare hdeclare hdeclared
  have hrepo := repository_of_build hbuild
  have hending : Ending s t m (s.overwrite t m) := ending_overwrite hrepo
  change (s.overwrite t m).1 = .ok results at h
  change (s.overwrite (s.overwrite t m).2 m).1 = .ok results ∧
    (s.overwrite (s.overwrite t m).2 m).2 = (s.overwrite t m).2
  generalize s.overwrite t m = result at hending h
  cases hending with
  | undecided | absent | ambiguous | refused | conflict => cases h
  | @replaced before behind old new overwrites =>
    have hold : old.Conforms s.entity := hrows old (by simp [overwrites.rows])
    rw [(overwrites.again hsound hdistinct hkeys hold).overwrite_eq hrepo]
    exact ⟨h, rfl⟩

end Service

namespace Sample

/-- The second user becomes an administrator, and is one when asked to become one again. -/
theorem update_bob_twice :
    let once := userService.update twoUsers (userView 2 "Bob" (some "admin"))
    let twice := userService.update once.store (userView 2 "Bob" (some "admin"))
    twice.outcome = .ok (.single (userView 2 "Bob" (some "admin"))) ∧ twice.store = once.store := by
  have hkeys : ∀ k ∈ userService.mappings.keys,
      k.model.read (userView 2 "Bob" (some "admin")) ≠ .null ∧
        (k.model.read (userView 2 "Bob" (some "admin"))).FloatFree :=
    List.forall_mem_singleton.2 ⟨nofun, by decide⟩
  exact Service.update_idempotent build_userService userDeclarations_over
    userMappings_distinctEntities twoUsers_conform hkeys rfl

/-- The mappings between users and their models by which a user is known by the number of the
role. -/
def roleKeyDeclarations : List MappingDeclaration :=
  [⟨.over userModel (·.field "role"), .over user (·.chain ["role", "name"]), false⟩,
    ⟨.over userModel (·.field "age"), .over user (·.chain ["role", "id"]), true⟩]

/-- The service that shows users in this way. -/
def roleKeyService : Service Table :=
  ⟨userModel, user, (MappingSet.declare roleKeyDeclarations).toOption.getD .empty,
    [⟨.over user (·.field "id"), .asc⟩], {}, Table.repository⟩

/-- The user without a role is found once by a key that is null.  The role that is allocated for its
name has a number. -/
theorem update_by_null_once :
    let once := roleKeyService.update twoUsers (userView 2 "Bob" (some "admin"))
    once.outcome = .ok (.single (userView 2 "Bob" (some "admin"))) ∧
      ∃ e, (roleKeyService.update once.store (userView 2 "Bob" (some "admin"))).outcome =
        .error e ∧ e.kind = .notFound :=
  ⟨rfl, _, rfl, rfl⟩

end Sample

end RecordView
