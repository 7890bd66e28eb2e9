import RecordView.Mapping.Transfer
import RecordView.Mapping.Translate
import RecordView.Store.Repository

/-!
# Services

A service shows the entities of a repository as models.  Its mapping set turns predicates and
order terms of models into those of entities, entities into models (`Service.project`), and the
values of a model into those of an entity (`Service.writeEntity`).
-/

namespace RecordView

/-- A mapping as declared by two selectors. -/
structure MappingDeclaration where
  model : Lambda
  entity : Lambda
  isKey : Bool
deriving Inhabited

/-- The mapping that was declared. -/
def MappingDeclaration.resolve (d : MappingDeclaration) : Except MappingError Mapping := do
  let m ← Mapping.ofSelectors d.model d.entity
  return if d.isKey then m.asKey else m

/-- The table of declared mappings; the first declaration that fails decides. -/
def MappingSet.declare (declarations : List MappingDeclaration) : Except MappingError MappingSet :=
  declarations.foldlM (fun set d => do set.push (← d.resolve)) .empty

/-- A view of the entities in a repository as models. -/
structure Service (σ : Type) where
  model : Schema
  entity : Schema
  mappings : MappingSet
  /-- The order of entities when a read asks for none. -/
  defaultOrder : List OrderTerm
  pagination : PaginationPolicy
  repository : Repository σ

namespace Service

variable {σ : Type}

/-- A service from its declaration.  It needs a mapping, a default order and a repository. -/
def build (model entity : Schema) (declarations : List MappingDeclaration)
    (defaultOrder : List OrderTerm) (pagination : PaginationPolicy)
    (repository : Except StoreError (Repository σ)) : Except Error (Service σ) := do
  let mappings ← (MappingSet.declare declarations).mapError MappingError.toError
  if mappings.mappings.isEmpty then
    throw MappingError.empty.toError
  if defaultOrder.isEmpty then
    throw (.configuration .service
      ("service " ++ model.path ++ " -> " ++ entity.path ++ " has no default order"))
  let repository ← repository.mapError StoreError.toError
  return ⟨model, entity, mappings, defaultOrder, pagination, repository⟩

/-! ### Predicates and order -/

/-- A predicate of models as one of entities. -/
def translate (s : Service σ) (filter : Lambda) : Except Error Lambda :=
  (s.mappings.translate .modelToEntity filter).mapError fun e => e.toError.withOrigin .translate

/-- An optional predicate of models as one of entities. -/
def translateFilter (s : Service σ) : Option Lambda → Except Error (Option Lambda)
  | none => .ok none
  | some f => (s.translate f).map some

/-- All entities that a model predicate selects, in default order. -/
def entityQuery (s : Service σ) (filter : Option Lambda) : Except Error EntityQuery := do
  return ⟨← s.translateFilter filter, s.defaultOrder, none⟩

/-- The entities that a model predicate selects, in default order. -/
def load (s : Service σ) (store : σ) (filter : Option Lambda) : Except Error (List Record) := do
  let query ← s.entityQuery filter
  (s.repository.load store query).mapError StoreError.toError

/-- The selector of entities for a chain of model fields. -/
def entitySelector (s : Service σ) (names : List String) : Except Error Lambda := do
  let m ← (s.mappings.find .modelToEntity names).mapError MappingError.toError
  return .over s.entity m.entity.toExpr

/-- The order terms as field chains with directions, if all of them are field chains. -/
def plainTerms (order : List OrderTerm) : Option (List (List String × OrderDirection)) :=
  order.mapM fun term => term.selector.fieldChain?.map fun names => (names, term.direction)

/-- The order of entities for an order of models: the mapped one when every term is a field chain,
else the default. -/
def entityOrder (s : Service σ) (order : List OrderTerm) : Except Error (List OrderTerm) :=
  match plainTerms order with
  | none | some [] => .ok s.defaultOrder
  | some terms => terms.mapM fun term => do
    return ⟨← s.entitySelector term.1, term.2⟩

/-! ### Models and entities -/

/-- The model of an entity. -/
def project (s : Service σ) (entity : Record) : Except Error Record :=
  (s.mappings.project s.model entity).mapError WriteError.toError

/-- An entity with the values of a model written to it. -/
def writeEntity (s : Service σ) (model entity : Record) : Except Error Record :=
  (s.mappings.writeEntity model entity).mapError WriteError.toError

/-- The predicate of entities that have the key of a model. -/
def keyFilter (s : Service σ) (model : Record) : Lambda :=
  .over s.entity fun x =>
    s.mappings.keys.foldl
      (fun filter m =>
        filter.conj ((m.entity.toExpr x).equals (.constant (m.model.read model))))
      (.constant (.bool true))

/-- The key of a model in messages. -/
def keyLabel (s : Service σ) (model : Record) : String :=
  match s.mappings.keys with
  | [] => "(no key)"
  | keys =>
    ", ".intercalate (keys.map fun m => m.model.render ++ "=" ++ (m.model.read model).render)

end Service

end RecordView
