import RecordView.Proofs.Mapping.Overwriting

/-!
# Writing what is there

A write of a value that the leaf of an open path holds already changes nothing
(`FieldPath.Resolved.write_eq_self`).  This is so of every write in a sequence, once the whole
sequence has been carried out: each has opened its path, and none has touched the path of another.
So a sequence of writes at different paths can be repeated (`FieldPath.writeAll_again`), and a model
that was written to an entity can be written to it again (`MappingSet.Sound.writeEntity_again`).
-/

namespace RecordView

namespace Record

variable {r : Record} {name : String} {c : Cell} {cells : List (String × Cell)}

theorem replaceCell_eq_self (h : cells.lookup name = some c) : replaceCell name c cells = cells := by
  induction cells with
  | nil => rfl
  | cons entry cells ih =>
    obtain ⟨key, old⟩ := entry
    rw [List.lookup_cons] at h
    rw [replaceCell]
    cases hkey : name == key with
    | true =>
      rw [hkey] at h
      cases h
      rw [if_pos rfl]
    | false =>
      rw [hkey] at h
      rw [if_neg Bool.false_ne_true, ih h]

/-- A cell that is replaced by itself stays as it is. -/
theorem setCell_eq_self (h : r.cell? name = some c) : r.setCell name c = r := by
  cases r
  exact congrArg _ (replaceCell_eq_self h)

theorem setRecord_eq_self {nested : Record} (h : r.getRecord? name = some nested) :
    r.setRecord name (some nested) = r := by
  refine setCell_eq_self ?_
  unfold getRecord? at h
  split at h
  · rename_i found hcell
    rw [hcell, h]
  · cases h

theorem setCell_value_eq_self {v : Value} (h : r.getValue? name = some v) :
    r.setCell name (.value v) = r := by
  refine setCell_eq_self ?_
  unfold getValue? at h
  split at h
  · rename_i found hcell
    rw [hcell, Option.some.inj h]
  · cases h

end Record

namespace FieldPath

variable {s : Schema} {hops : List PathSegment} {leaf : PathSegment} {r r' : Record} {v : Value}
  {p : FieldPath} {writes : List (FieldPath × Value)}

theorem writeFrom_eq_self (h : r.Conforms s) (hp : Leads s hops leaf)
    (hs : leaf.type.kind.isScalar = true) (ho : OpenAlong hops r)
    (hv : leaf.store? v = some (readFrom leaf hops r)) :
    writeFrom leaf v hops r = (.ok (), r) := by
  induction hp generalizing r with
  | @leaf owner name f hf =>
    obtain ⟨w, hread, -⟩ := h.exists_value hf hs
    simp only [PathSegment.store?, hf, Option.bind_some, readFrom, hread, Value.ofOption,
      Option.getD_some] at hv
    have hset : r.setValue name v = .ok r :=
      (Record.setValue_eq_ok h.schema_eq hf).2 ⟨hs, w, hv, (Record.setCell_value_eq_self hread).symm⟩
    simp only [writeFrom, hset]
  | @hop owner nested name f hops leaf hf hn rest ih =>
    obtain ⟨n, hr, ho⟩ := ho
    rw [readFrom, hr] at hv
    rw [writeFrom_hop h hf hn, hr, Option.getD_some, ih (h.getRecord? hf hn hr) hs ho hv,
      Record.setRecord_eq_self hr]

/-- **A write of what is there changes nothing.** -/
theorem Resolved.write_eq_self (hp : p.Resolved) (hs : p.leaf.type.kind.isScalar = true)
    (h : r.Conforms p.root) (ho : p.IsOpen r) (hv : p.leaf.store? v = some (p.read r)) :
    p.write r v = (.ok (), r) :=
  writeFrom_eq_self h hp hs ho hv

theorem writeAll_eq_self (h : ∀ w ∈ writes, w.1.write r w.2 = (.ok (), r)) :
    writeAll writes r = .ok r := by
  induction writes with
  | nil => rfl
  | cons w writes ih =>
    rw [List.forall_mem_cons] at h
    exact writeAll_cons_eq_ok.2 (by rw [h.1]; exact ⟨rfl, ih h.2⟩)

/-- **Writes at different paths can be repeated**, and change nothing the second time. -/
theorem writeAll_again (hs : ∀ w ∈ writes, w.1.ScalarOn s) (h : r.Conforms s)
    (hr : writeAll writes r = .ok r') (hdistinct : (writes.map (·.1.names)).Nodup) :
    writeAll writes r' = .ok r' := by
  have hstored := store?_writeAll_self hs h hr hdistinct
  refine writeAll_eq_self fun w hw => ?_
  have hopen : w.1.IsOpen r' :=
    (isOpen_writeAll_iff hs (hs w hw) h hr).2 (.inr ⟨w, hw, w.1.isOnWayOf_self⟩)
  exact (hs w hw).resolved.write_eq_self (hs w hw).scalar
    ((hs w hw).conforms (conforms_writeAll hs h hr)) hopen (hstored w hw)

end FieldPath

/-- **A model that was written to an entity is all there**: written once more, it changes
nothing. -/
theorem MappingSet.Sound.writeEntity_again {set : MappingSet} {model entity : Schema}
    {m old new : Record} (hs : set.Sound model entity) (hd : set.DistinctEntities)
    (hold : old.Conforms entity) (h : set.writeEntity m old = .ok new) :
    set.writeEntity m new = .ok new := by
  rw [writeEntity_eq_writeAll] at h ⊢
  exact FieldPath.writeAll_again (hs.scalarOn_valued m) hold h (hd.nodup_valued m)

end RecordView
