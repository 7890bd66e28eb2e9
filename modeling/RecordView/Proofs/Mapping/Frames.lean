import RecordView.Proofs.Mapping.Commuting
import RecordView.Proofs.Value.Comparisons

/-!
# The frame of a write

A write through a path that succeeds is read back: null as null, and any other value as one that
equals it, floats aside.  To every other path it does nothing, with one exception.  Where a record
on the way of the written path is absent, a default record takes its place, also if the value is
refused in the end.  A path that runs through the same record finds the default there now, in what
is left of it after the records that it shares with the written path (`FieldPath.Framed`).

`FieldPath.ScalarOn.write_frame` says all of this of one write, and of a write that fails that its
own path is no exception.
-/

namespace RecordView

namespace FieldPath

/-- The hops of the path that it shares with the written path, from the root on. -/
def sharedWith (q p : FieldPath) : List PathSegment := sharedHops p.hops q.hops

/-- The path runs through a record, on the way of the written path, that is absent. -/
def RunsThroughAbsent (q p : FieldPath) (r : Record) : Prop := ¬ OpenAlong (q.sharedWith p) r

/-- What is left of the path after some of its hops, from the record that they lead to. -/
def after (q : FieldPath) (n : Nat) : FieldPath :=
  ⟨ownerOf (q.hops.drop n) q.leaf, q.hops.drop n, q.leaf⟩

/-- What the path reads in the record that took the place of the deepest one that it shares with
the written path. -/
def readFresh (q p : FieldPath) : Value :=
  let rest := q.after (q.sharedWith p).length
  rest.read rest.root.default

/-- How the path reads after a write through `p` that changed `r` into `r'`. -/
structure Framed (p q : FieldPath) (r r' : Record) : Prop where
  kept : ¬ q.RunsThroughAbsent p r → q.read r' = q.read r
  fresh : q.RunsThroughAbsent p r → q.read r' = q.readFresh p

theorem Leads.after {s : Schema} {hops : List PathSegment} {leaf : PathSegment}
    (h : Leads s hops leaf) (n : Nat) : Leads (ownerOf (hops.drop n) leaf) (hops.drop n) leaf := by
  induction h generalizing n with
  | leaf field =>
    rw [List.drop_nil]
    exact .leaf field
  | hop field kind rest ih =>
    cases n with
    | zero => exact .hop field kind rest
    | succ n => exact ih n

/-- What is left of a resolved path is a resolved path. -/
theorem Resolved.after {p : FieldPath} (hp : p.Resolved) (n : Nat) : (p.after n).Resolved :=
  Leads.after hp n

namespace ScalarOn

variable {p q : FieldPath} {s : Schema} {r : Record} {v : Value}

theorem of_ofNames (names : List String) (h : ofNames s names = .ok p)
    (hs : p.leaf.type.kind.isScalar = true) : p.ScalarOn s :=
  ⟨(ofNames_eq_ok h).1, (ofNames_eq_ok h).2.1, hs⟩

theorem ext (hp : p.ScalarOn s) (hq : q.ScalarOn s) (h : q.names = p.names) : q = p :=
  hq.resolved.ext hp.resolved (hq.root.trans hp.root.symm) h

/-- What is written is read back as its conversion to the kind of the leaf. -/
theorem cast_eq_read (hp : p.ScalarOn s) (h : r.Conforms s) (hw : (p.write r v).1 = .ok ()) :
    v.cast p.leaf.type.kind = some (p.read (p.write r v).2) :=
  hp.resolved.read_write_self (hp.conforms h) hw

theorem framed (hp : p.ScalarOn s) (hq : q.ScalarOn s) (h : r.Conforms s)
    (hkept : q = p → (p.write r v).1 ≠ .ok ()) : p.Framed q r (p.write r v).2 := by
  have hframe := readFrom_writeFrom_frame (v := v) h (hp.resolved.leads hp.root)
    (hq.resolved.leads hq.root) fun hnames => hkept (hp.ext hq hnames)
  exact ⟨fun hopen => hframe.1 (Classical.not_not.1 hopen), hframe.2⟩

/-- **What a write does to a path.**  After a write that succeeds its own path reads null if null was
written, and a value that equals the written one if that is no float; every other path reads what it
read, or, past a record on the way that was absent, what is left of it reads in a default record.
After a write that fails this goes for its own path as well. -/
theorem write_frame (hp : p.ScalarOn s) (h : r.Conforms s) (v : Value) :
    ((p.write r v).1 = .ok () →
      (p.read (p.write r v).2 = .null ↔ v = .null) ∧
      (v.FloatFree → (p.read (p.write r v).2).compareEq v = some true) ∧
      ∀ q : FieldPath, q.ScalarOn s → q ≠ p → p.Framed q r (p.write r v).2) ∧
    ∀ e, (p.write r v).1 = .error e →
      ∀ q : FieldPath, q.ScalarOn s → p.Framed q r (p.write r v).2 := by
  refine ⟨fun hw => ?_, fun e hw q hq => hp.framed hq h fun _ hok => ?_⟩
  · have hread := hp.cast_eq_read h hw
    refine ⟨⟨fun hnull => Value.eq_null_of_cast (hnull ▸ hread), ?_⟩,
      fun hfloat => Value.compareEq_of_cast hfloat hread,
      fun q hq hne => hp.framed hq h fun heq => absurd heq hne⟩
    rintro rfl
    exact (Option.some.inj hread).symm
  · rw [hw] at hok
    cases hok

end ScalarOn

end FieldPath

namespace Sample

/-- The path of a user. -/
def userPath (names : List String) : FieldPath :=
  (FieldPath.ofNames user names).toOption.getD default

/-- A user without a role gets one by the name of the role, whose identity then reads zero.  If the
name is refused, it gets the role all the same. -/
theorem roleName_write_frame :
    let bob := userRow 2 "Bob" none
    let name := userPath ["role", "name"]
    let id := userPath ["role", "id"]
    let age := userPath ["age"]
    (name.read (name.write bob (.text "guest")).2).compareEq (.text "guest") = some true ∧
      id.read bob = .null ∧ id.read (name.write bob (.text "guest")).2 = .int 0 ∧
      age.read (name.write bob (.text "guest")).2 = age.read bob ∧
      id.read (name.write bob (.bool true)).2 = .int 0 := by
  have hname : (userPath ["role", "name"]).ScalarOn user := .of_ofNames ["role", "name"] rfl rfl
  have hid : (userPath ["role", "id"]).ScalarOn user := .of_ofNames ["role", "id"] rfl rfl
  have hage : (userPath ["age"]).ScalarOn user := .of_ofNames ["age"] rfl rfl
  have hbob := userRow_conforms 2 "Bob" none
  have habsent : (userPath ["role", "id"]).RunsThroughAbsent (userPath ["role", "name"])
      (userRow 2 "Bob" none) := fun ⟨_, hnone, _⟩ => nomatch hnone
  obtain ⟨-, hequal, hframe⟩ := (hname.write_frame hbob (.text "guest")).1 rfl
  have hrefused := (hname.write_frame hbob (.bool true)).2 _ rfl _ hid
  exact ⟨hequal (Value.floatFree_text "guest"), rfl,
    (hframe _ hid fun h => nomatch congrArg FieldPath.names h).fresh habsent,
    (hframe _ hage fun h => nomatch congrArg FieldPath.names h).kept (Classical.not_not.2 trivial),
    hrefused.fresh habsent⟩

end Sample

end RecordView
