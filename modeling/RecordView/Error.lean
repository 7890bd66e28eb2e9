import RecordView.Mapping.Path

/-!
# Errors of a service call

Every failure of a call is one `Error`: its class, where it arose, a message, and the cause when
there is one.  Causes turn into errors by `MappingError.toError` and its like; the class of the
error is a function of the cause.
-/

namespace RecordView

/-- Classes of errors. -/
inductive ErrorClass
  | configuration
  | mappingNotFound
  | ambiguousMapping
  | notFound
  | multipleMatch
  | storage
  | unsupported
  | invariantViolation
deriving DecidableEq, Repr, Inhabited

/-- The label of a class. -/
def ErrorClass.label : ErrorClass → String
  | configuration => "configuration"
  | mappingNotFound => "mapping_not_found"
  | ambiguousMapping => "ambiguous_mapping"
  | notFound => "not_found"
  | multipleMatch => "multiple_match"
  | storage => "storage"
  | unsupported => "unsupported"
  | invariantViolation => "invariant_violation"

/-- All classes. -/
def ErrorClass.all : List ErrorClass :=
  [configuration, mappingNotFound, ambiguousMapping, notFound, multipleMatch, storage, unsupported,
    invariantViolation]

/-- The class with a label. -/
def ErrorClass.ofLabel? (label : String) : Option ErrorClass := all.find? (·.label == label)

/-- The parts of the library in which an error can arise. -/
inductive ErrorOrigin
  | mapping
  | translate
  | eval
  | service
  | aggregation
  | store
deriving DecidableEq, Repr, Inhabited

/-- The label of an origin. -/
def ErrorOrigin.label : ErrorOrigin → String
  | mapping => "mapping"
  | translate => "translate"
  | eval => "eval"
  | service => "service"
  | aggregation => "aggregation"
  | store => "store"

/-- All origins. -/
def ErrorOrigin.all : List ErrorOrigin := [mapping, translate, eval, service, aggregation, store]

/-- The origin with a label. -/
def ErrorOrigin.ofLabel? (label : String) : Option ErrorOrigin := all.find? (·.label == label)

/-- Why a repository could not be found or used. -/
inductive StoreError
  | unknownRepository (entity : String)
  | conflict (entity field key : String)
  | backend (message : String)
deriving DecidableEq, Repr, Inhabited

/-- The message of a store error. -/
def StoreError.message : StoreError → String
  | unknownRepository entity => "no repository registered for " ++ entity
  | conflict entity field key => "identity conflict on " ++ entity ++ "." ++ field ++ ": " ++ key
  | backend message => "store backend failure: " ++ message

/-- The message of a write error. -/
def WriteError.message : WriteError → String
  | unknownField record field => "unknown field '" ++ field ++ "' on " ++ record
  | typeMismatch record field value =>
    "cannot write " ++ value.render ++ " into " ++ record ++ "." ++ field
  | notWritable record field =>
    "field " ++ record ++ "." ++ field ++ " is not a scalar and cannot be written"

/-- What an error goes back to. -/
inductive Cause
  | mapping (e : MappingError)
  | eval (e : EvalError)
  | write (e : WriteError)
  | store (e : StoreError)

/-- The name of a cause: where it is from, and what it is. -/
def Cause.label : Cause → String
  | mapping (.notFieldChain _) => "Mapping.NotFieldChain"
  | mapping (.unknownField _ _) => "Mapping.UnknownField"
  | mapping (.branchingPath _ _) => "Mapping.BranchingPath"
  | mapping (.nonScalarLeaf _ _) => "Mapping.NonScalarLeaf"
  | mapping (.rootMismatch _ _) => "Mapping.RootMismatch"
  | mapping (.duplicateModelPath _) => "Mapping.DuplicateModelPath"
  | mapping (.parameterMismatch _ _ _) => "Mapping.ParameterMismatch"
  | mapping .empty => "Mapping.Empty"
  | mapping (.notFound _ _) => "Mapping.NotFound"
  | mapping (.ambiguous _ _ _) => "Mapping.Ambiguous"
  | eval (.parameterMismatch _ _) => "Eval.ParameterMismatch"
  | eval (.unboundParameter _) => "Eval.UnboundParameter"
  | eval (.unknownField _ _) => "Eval.UnknownField"
  | eval (.typeMismatch _ _) => "Eval.TypeMismatch"
  | eval (.lossyConversion _ _) => "Eval.LossyConversion"
  | eval (.nullUnwrap _) => "Eval.NullUnwrap"
  | eval (.overflow _) => "Eval.Overflow"
  | eval (.divisionByZero _) => "Eval.DivideByZero"
  | eval (.unsupported _) => "Eval.Unsupported"
  | write (.unknownField _ _) => "Write.UnknownField"
  | write (.typeMismatch _ _ _) => "Write.TypeMismatch"
  | write (.notWritable _ _) => "Write.NotWritable"
  | store (.unknownRepository _) => "Store.UnknownRepository"
  | store (.conflict _ _ _) => "Store.Conflict"
  | store (.backend _) => "Store.Backend"

/-- A failed call. -/
structure Error where
  kind : ErrorClass
  origin : ErrorOrigin
  message : String
  cause : Option Cause

/-- The class of a mapping error: a failed lookup or a malformed declaration. -/
def MappingError.kind : MappingError → ErrorClass
  | notFound _ _ => .mappingNotFound
  | ambiguous _ _ _ => .ambiguousMapping
  | _ => .configuration

/-- The class of an evaluation error. -/
def EvalError.kind : EvalError → ErrorClass
  | unsupported _ => .unsupported
  | _ => .invariantViolation

/-- A mapping error as a failed call. -/
def MappingError.toError (e : MappingError) : Error :=
  ⟨e.kind, .mapping, e.message, some (.mapping e)⟩

/-- An evaluation error as a failed call. -/
def EvalError.toError (e : EvalError) : Error :=
  ⟨e.kind, .eval, e.message, some (.eval e)⟩

/-- A write error as a failed call. -/
def WriteError.toError (e : WriteError) : Error :=
  ⟨.invariantViolation, .service, e.message, some (.write e)⟩

/-- A store error as a failed call. -/
def StoreError.toError (e : StoreError) : Error :=
  ⟨.storage, .store, e.message, some (.store e)⟩

namespace Error

/-- An error that goes back to nothing else. -/
def plain (kind : ErrorClass) (origin : ErrorOrigin) (message : String) : Error :=
  ⟨kind, origin, message, none⟩

/-- A malformed declaration of a service or facet. -/
def configuration (origin : ErrorOrigin) (message : String) : Error :=
  plain .configuration origin message

/-- No entity has the key of an update. -/
def notFound (entity key : String) : Error :=
  plain .notFound .service ("no " ++ entity ++ " matches key " ++ key)

/-- Several entities have the key of an update. -/
def multipleMatch (entity key : String) (count : Nat) : Error :=
  plain .multipleMatch .service
    (toString count ++ " " ++ entity ++ " records match key " ++ key ++ ", expected exactly one")

/-- The same error, raised elsewhere. -/
def withOrigin (e : Error) (origin : ErrorOrigin) : Error := { e with origin := origin }

/-- Whether an update matched no entity. -/
def isNotFound (e : Error) : Bool := e.kind = .notFound

/-- Whether a repository failed. -/
def isStorage (e : Error) : Bool := e.kind = .storage

/-- Origin, class and message in one line. -/
def render (e : Error) : String :=
  e.origin.label ++ ":" ++ e.kind.label ++ ": " ++ e.message

end Error

end RecordView
