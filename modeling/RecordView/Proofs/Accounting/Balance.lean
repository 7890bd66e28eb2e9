import RecordView.Metrics
import RecordView.Proofs.Accounting.Blocks
import RecordView.Sample.Residents

/-!
# Counters in balance

Calls and failures are counted twice, overall by kind of call and by entity.  Both tables have
counted the same (`Counters.Balanced`): every event changes them alike as long as no counter is at
its largest number (`Counters.Balanced.start`, `Counters.Balanced.facet`,
`Counters.Balanced.finish`).  So after a run of calls that starts with counters at zero, they show
the attempted calls and the errors of the run (`run_balanced`).
-/

namespace RecordView

theorem raise_of_le {counter n : Nat} (h : counter + n ≤ counterMax) :
    raise counter n = counter + n := Nat.min_eq_left h

/-! ### Sums over entities -/

/-- A counter summed up over entities. -/
def sumOver (g : EntityCounters → Nat) : List (String × EntityCounters) → Nat
  | [] => 0
  | entry :: entries => g entry.2 + sumOver g entries

/-- What one entity's counter is raised by, the sum is raised by. -/
theorem sumOver_updateEntity {g : EntityCounters → Nat} {f : EntityCounters → EntityCounters}
    {n : Nat} (hzero : g {} = 0) (path : String) (entities : List (String × EntityCounters))
    (hf : ∀ e, g e ≤ sumOver g entities → g (f e) = g e + n) :
    sumOver g (updateEntity path f entities) = sumOver g entities + n := by
  induction entities with
  | nil =>
    -- an entity that is new starts at zero
    have hfirst := hf {} (by simp [hzero])
    simp [updateEntity, sumOver, hfirst, hzero]
  | cons entry entities ih =>
    have hsum : sumOver g (entry :: entities) = g entry.2 + sumOver g entities := rfl
    rw [updateEntity]
    split
    · have hentry := hf entry.2 (by omega)
      have hsum' : sumOver g ((path, f entry.2) :: entities) =
          g (f entry.2) + sumOver g entities := rfl
      omega
    · have hrest := ih fun e he => hf e (by omega)
      have hsum' : sumOver g (entry :: updateEntity path f entities) =
          g entry.2 + sumOver g (updateEntity path f entities) := rfl
      omega

namespace Counters

/-- The calls of all kinds. -/
def allCalls (c : Counters) : Nat :=
  c.getCalls + c.createCalls + c.updateCalls + c.deleteCalls + c.aggregateCalls

/-- So many calls and failures were counted, overall and over the entities. -/
structure Balanced (c : Counters) (calls failures : Nat) : Prop where
  calls_eq : c.allCalls = calls
  entityCalls_eq : sumOver (·.calls) c.entities = calls
  failures_eq : c.failedCalls = failures
  entityFailures_eq : sumOver (·.failedCalls) c.entities = failures

theorem balanced_zero : Balanced {} 0 0 := ⟨rfl, rfl, rfl, rfl⟩

variable {c : Counters} {calls failures : Nat}

/-! ### One event -/

section

variable (c) (kind : CallKind) (rows : Nat)

theorem entities_countCall : (c.countCall kind).entities = c.entities := by
  cases kind <;> rfl

theorem failedCalls_countCall : (c.countCall kind).failedCalls = c.failedCalls := by
  cases kind <;> rfl

theorem entities_countRows : (c.countRows rows kind).entities = c.entities := by
  cases kind <;> rfl

theorem failedCalls_countRows : (c.countRows rows kind).failedCalls = c.failedCalls := by
  cases kind <;> rfl

theorem allCalls_countRows : (c.countRows rows kind).allCalls = c.allCalls := by
  cases kind <;> rfl

end

theorem allCalls_countCall (h : c.allCalls + 1 ≤ counterMax) (kind : CallKind) :
    (c.countCall kind).allCalls = c.allCalls + 1 := by
  rw [allCalls] at h ⊢
  cases kind <;> simp only [countCall, allCalls] <;> rw [raise_of_le (by omega)] <;> omega

/-- A start raises the calls. -/
theorem Balanced.start (h : c.Balanced calls failures) (hroom : calls + 1 ≤ counterMax)
    (kind : CallKind) (path : String) :
    (c.record (.start kind path)).Balanced (calls + 1) failures where
  calls_eq := by
    have hcount := allCalls_countCall (c := c) (by rwa [h.calls_eq]) kind
    exact hcount.trans (by rw [h.calls_eq])
  entityCalls_eq := by
    rw [← h.entityCalls_eq] at hroom ⊢
    rw [record, entities_countCall]
    -- no counter is above the sum, for which there is room
    exact sumOver_updateEntity rfl path c.entities fun e he => raise_of_le (by omega)
  failures_eq := (failedCalls_countCall c kind).trans h.failures_eq
  entityFailures_eq := by
    rw [record, entities_countCall, ← h.entityFailures_eq]
    exact sumOver_updateEntity (n := 0) rfl path c.entities fun _ _ => rfl

/-- A facet raises neither. -/
theorem Balanced.facet (h : c.Balanced calls failures) (field : String) (rows : Nat)
    (filtered : Bool) : (c.record (.facet field rows filtered)).Balanced calls failures :=
  ⟨h.calls_eq, h.entityCalls_eq, h.failures_eq, h.entityFailures_eq⟩

/-- A finish raises the failures if it shows one. -/
theorem Balanced.finish (h : c.Balanced calls failures) {failed : Bool}
    (hroom : failures + (if failed then 1 else 0) ≤ counterMax) (kind : CallKind)
    (path : String) (rows : Nat) :
    (c.record (.finish kind path rows failed)).Balanced calls
      (failures + if failed then 1 else 0) where
  calls_eq := (allCalls_countRows c kind rows).trans h.calls_eq
  entityCalls_eq := by
    rw [record, entities_countRows, ← h.entityCalls_eq]
    exact sumOver_updateEntity (n := 0) rfl path c.entities fun _ _ => rfl
  failures_eq := by
    rw [record, failedCalls_countRows, h.failures_eq]
    exact raise_of_le hroom
  entityFailures_eq := by
    rw [← h.entityFailures_eq] at hroom ⊢
    rw [record, entities_countRows]
    exact sumOver_updateEntity rfl path c.entities fun e he =>
      raise_of_le (Nat.le_trans (Nat.add_le_add_right he _) hroom)

/-! ### Whole runs -/

theorem Balanced.facets (h : c.Balanced calls failures) (facets : AttachedFacets) :
    (c.recordAll (facets.map AttachedFacet.event)).Balanced calls failures := by
  induction facets generalizing c with
  | nil => exact h
  | cons f facets ih => exact ih (h.facet ..)

theorem recordAll_append (c : Counters) (first rest : List Event) :
    c.recordAll (first ++ rest) = (c.recordAll first).recordAll rest := List.foldl_append

/-- A block is counted as one call, and as a failure if it shows one. -/
theorem Balanced.block (h : c.Balanced calls failures) (b : Block)
    (hcalls : calls + 1 ≤ counterMax)
    (hfailures : failures + (if b.failed then 1 else 0) ≤ counterMax) :
    (c.recordAll b.events).Balanced (calls + 1) (failures + if b.failed then 1 else 0) := by
  have hstart := (h.start hcalls b.kind b.path).facets b.facets
  rw [Block.events, recordAll_append]
  exact hstart.finish hfailures b.kind b.path b.rows

/-- Blocks are counted as so many calls, of which some failed. -/
theorem Balanced.blocks (h : c.Balanced calls failures) (blocks : List Block)
    (hcalls : calls + blocks.length ≤ counterMax) (hle : failures ≤ calls) :
    (c.recordAll (blocks.flatMap Block.events)).Balanced (calls + blocks.length)
      (failures + blocks.countP (·.failed)) := by
  induction blocks generalizing c calls failures with
  | nil => exact h
  | cons b blocks ih =>
    rw [List.length_cons] at hcalls
    have hone : (if b.failed then 1 else 0) ≤ 1 := by split <;> omega
    have hb := h.block b (by omega) (by omega)
    have hrest := ih hb (by omega) (by omega)
    rw [List.flatMap_cons, recordAll_append, List.length_cons, List.countP_cons]
    rw [Nat.add_assoc, Nat.add_comm 1, Nat.add_assoc, Nat.add_comm (ite ..)] at hrest
    exact hrest

end Counters

variable {σ : Type}

/-- As many blocks of a ledger show a failure as attempts failed. -/
theorem failures_of_ledger {ledger : List (Attempt σ × Block)}
    (h : ∀ entry ∈ ledger, entry.2.Accounts entry.1.call entry.1.store) :
    (ledger.map (·.2)).countP (·.failed) = failures (ledger.map (·.1)) := by
  rw [failures, List.countP_map, List.countP_map]
  refine List.countP_congr fun entry hentry => ?_
  exact (h entry hentry).failed_iff.trans failed_iff.symm

/-- **Call accounting is balanced.**  The events of a run are one block for each attempted call, and
the counters of the run, which start at zero, show as many failures as the run has errors, and
altogether as many calls and failures as those of the entities. -/
theorem run_balanced (store : σ) (is : List (Invocation σ))
    (hroom : (attemptsOfRun store is).length ≤ counterMax) :
    let events := (runAll store is).flatMap (·.events)
    let c := Counters.recordAll {} events
    (∃ ledger : List (Attempt σ × Block), ledger.map (·.1) = attemptsOfRun store is ∧
      events = ledger.flatMap (·.2.events) ∧
      ∀ entry ∈ ledger, entry.2.Accounts entry.1.call entry.1.store) ∧
    c.failedCalls = (runAll store is).countP (failed ·.outcome) ∧
    c.failedCalls = sumOver (·.failedCalls) c.entities ∧
    c.allCalls = (attemptsOfRun store is).length ∧
    c.allCalls = sumOver (·.calls) c.entities := by
  intro events c
  obtain ⟨hevents, hfailures⟩ := runAll_attempts is store
  obtain ⟨ledger, hattempts, hblocks, haccounts⟩ := exists_ledger (attemptsOfRun store is)
  have hledger : events = ledger.flatMap (·.2.events) := hevents.trans hblocks
  have hc : c = Counters.recordAll {} ((ledger.map (·.2)).flatMap Block.events) := by
    rw [List.flatMap_map, ← hledger]
  have hlength : (ledger.map (·.2)).length = (attemptsOfRun store is).length := by
    rw [← hattempts, List.length_map, List.length_map]
  have hbalanced := Counters.balanced_zero.blocks (ledger.map (·.2)) (by omega) (Nat.le_refl 0)
  rw [← hc, hlength, failures_of_ledger haccounts, hattempts, ← hfailures, Nat.zero_add,
    Nat.zero_add] at hbalanced
  exact ⟨⟨ledger, hattempts, hledger, haccounts⟩, hbalanced.failures_eq,
    hbalanced.failures_eq.trans hbalanced.entityFailures_eq.symm, hbalanced.calls_eq,
    hbalanced.calls_eq.trans hbalanced.entityCalls_eq.symm⟩

/-! ### A run in the town -/

namespace Sample

/-- Bob is updated, a user who is not known fails, so Ada is not; then everybody is removed, and the
directory is read. -/
def townRun : List (Invocation Context) :=
  [.updateMany townUsers [userView 2 "Bo" none, userView 9 "Eve" none, userView 1 "Al" none],
    .call (.delete townUsers adminOrYoung), .call (.aggregate residents {})]

/-- Four calls were attempted, and one failed. -/
theorem townRun_counted :
    let c := Counters.recordAll {} ((runAll town townRun).flatMap (·.events))
    (attemptsOfRun town townRun).length ≤ counterMax ∧ c.failedCalls = 1 ∧
      sumOver (·.failedCalls) c.entities = 1 ∧ c.allCalls = 4 ∧
      sumOver (·.calls) c.entities = 4 := by
  have hroom : (attemptsOfRun town townRun).length ≤ counterMax := by decide
  have hattempts : (attemptsOfRun town townRun).length = 4 := by decide
  have herrors : (runAll town townRun).countP (failed ·.outcome) = 1 := by decide
  obtain ⟨-, hfailed, hfailures, hcalls, hsum⟩ := run_balanced town townRun hroom
  exact ⟨hroom, hfailed.trans herrors, hfailures.symm.trans (hfailed.trans herrors),
    hcalls.trans hattempts, hsum.symm.trans (hcalls.trans hattempts)⟩

end Sample

end RecordView
