import RecordView.Call
import RecordView.Service.Basic

/-!
# Calls of a service

Reads answer a page of models; writes change the store.

* `Service.read` translates the request, counts, loads the page, and projects it;
* `Service.insert` writes every model to a fresh entity and commits them together;
* `Service.overwrite` replaces the one entity that has the key of a model: it is looked up and
  counted (`Service.expectOne`), loaded and written to (`Service.loadOne`), and committed
  (`Service.storeOne`);
* `Service.remove` removes the entities that a predicate selects.

Each has a call of its own (`get`, `create`, `update`, `delete`) whose report has the events.
-/

namespace RecordView

/-- A read request in terms of models. -/
structure ReadRequest where
  filter : Option Lambda := none
  order : List OrderTerm := []
  page : Option Int64 := none
  pageSize : Option Int64 := none
deriving Inhabited

namespace Service

variable {σ : Type}

/-! ### Reading -/

/-- The page of models that a request asks for. -/
def read (s : Service σ) (store : σ) (request : ReadRequest) : Except Error (Results Record) := do
  let filter ← s.translateFilter request.filter
  let order ← s.entityOrder request.order
  let count ← (s.repository.count store filter).mapError StoreError.toError
  let window := s.pagination.window request.page request.pageSize
  let entities ← (s.repository.load store ⟨filter, order, window⟩).mapError StoreError.toError
  let items ← entities.mapM s.project
  return ⟨count, items⟩

/-- Answers a read request. -/
def get (s : Service σ) (store : σ) (request : ReadRequest) : Report σ (Results Record) :=
  .ofCall .get s.entity.path (·.length) [] (s.read store request, store)

/-! ### Creating -/

/-- Stores a new entity for every model, and answers the models of the stored entities. -/
def insert (s : Service σ) (store : σ) (models : List Record) :
    Except Error (Results Record) × σ :=
  match models.mapM fun model => s.writeEntity model s.entity.default with
  | .error e => (.error e, store)
  | .ok entities =>
    match s.repository.commit store [.insert entities] with
    | .error e => (.error e.toError, store)
    | .ok (committed, store) =>
      ((committed.inserted.mapM s.project).map fun items => ⟨items.length, items⟩, store)

/-- Creates an entity for every model. -/
def create (s : Service σ) (store : σ) (models : List Record) : Report σ (Results Record) :=
  .ofCall .create s.entity.path (·.length) [] (s.insert store models)

/-! ### Updating -/

/-- Refuses the update of a model whose key not exactly one entity has. -/
def expectOne (s : Service σ) (store : σ) (model : Record) : Except Error Unit := do
  let count ← (s.repository.count store (some (s.keyFilter model))).mapError StoreError.toError
  match count with
  | 0 => throw (.notFound s.entity.path (s.keyLabel model))
  | 1 => return ()
  | n => throw (.multipleMatch s.entity.path (s.keyLabel model) n)

/-- The entity that has the key of a model, with the values of the model written to it. -/
def loadOne (s : Service σ) (store : σ) (model : Record) : Except Error Record := do
  let found ← (s.repository.load store ⟨some (s.keyFilter model), [], none⟩).mapError
    StoreError.toError
  match found with
  | entity :: _ => s.writeEntity model entity
  | [] => throw (.notFound s.entity.path (s.keyLabel model))

/-- Puts an entity in the place of the one that has the key of a model. -/
def storeOne (s : Service σ) (store : σ) (model entity : Record) :
    Except Error (Results Record) × σ :=
  match s.repository.commit store [.replace (s.keyFilter model) entity] with
  | .error e => (.error e.toError, store)
  | .ok (committed, store) =>
    -- the entity is gone since it was counted
    if committed.replaced = 0 then
      (.error (.notFound s.entity.path (s.keyLabel model)), store)
    else
      (.ok (.single model), store)

/-- Overwrites the one entity that has the key of a model with the values of the model. -/
def overwrite (s : Service σ) (store : σ) (model : Record) :
    Except Error (Results Record) × σ :=
  match s.expectOne store model with
  | .error e => (.error e, store)
  | .ok () =>
    match s.loadOne store model with
    | .error e => (.error e, store)
    | .ok entity => s.storeOne store model entity

/-- Updates the entity of a model. -/
def update (s : Service σ) (store : σ) (model : Record) : Report σ (Results Record) :=
  .ofCall .update s.entity.path (fun _ => 1) [] (s.overwrite store model)

/-- Updates the entities of models one after the other, up to the first failure. -/
def updateMany (s : Service σ) (store : σ) (models : List Record) : Report σ (Results Record) :=
  models.foldl
    (fun report model => report.andThen fun results store =>
      (s.update store model).map results.merge)
    (.pure store .empty)

/-! ### Deleting -/

/-- Removes the entities that a predicate of models selects, and counts them. -/
def remove (s : Service σ) (store : σ) (filter : Lambda) : Except Error Nat × σ :=
  match s.translate filter with
  | .error e => (.error e, store)
  | .ok filter =>
    match s.repository.commit store [.remove (some filter)] with
    | .error e => (.error e.toError, store)
    | .ok (committed, store) => (.ok committed.removed, store)

/-- Deletes the entities that a predicate of models selects; true when there were any. -/
def delete (s : Service σ) (store : σ) (filter : Lambda) : Report σ Bool :=
  (Report.ofCall .delete s.entity.path id [] (s.remove store filter)).map (0 < ·)

end Service

end RecordView
