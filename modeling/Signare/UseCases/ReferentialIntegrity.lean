import Signare.Storage.Repository

/-!
# Referential integrity

Dependencies between resources are kept by hand: each create adds an entry under a fresh internal
resource id, each delete looks for children and removes its own entries. Transactions are added by
decorators.
-/

namespace Signare

/-- `govalidator.ValidateStruct`. -/
def validateStruct (valid : Bool) (message : String) : UseCase Unit :=
  if valid then return ()
  else Program.fail (invalidArgumentFromErr (.text "does not validate") message)

/-- `if !ok { return err }`. -/
def require (ok : Bool) (err : SignareError) : UseCase Unit :=
  if ok then return () else Program.fail err

/-- `valid:"required,maxstringlength(64)"`. -/
def validID (id : String) : Bool := id ≠ "" && id.length ≤ 64

def ApplicationStandardID.valid (key : ApplicationStandardID) : Bool :=
  validID key.id && key.applicationId ≠ ""

def AccountID.valid (key : AccountID) : Bool :=
  !key.address.isEmpty && key.userId ≠ "" && key.applicationId ≠ ""

def couldNotValidate : String := "couldn't validate input data"

/-- `if errors.IsNotFound(err) { return f(err) }; return errors.InternalFromErr(err)`. -/
def onNotFound (f : SignareError → SignareError) (err : SignareError) : SignareError :=
  if isNotFound err then f err else asInternal err

/-- `if errors.IsAlreadyExists(err) { return f(err) }; return errors.InternalFromErr(err)`. -/
def onAlreadyExists (f : SignareError → SignareError) (err : SignareError) : SignareError :=
  if isAlreadyExists err then f err else asInternal err

/-- `if errors.IsNotFound(err) { return f(err) }; return err`. -/
def replaceNotFound (f : SignareError → SignareError) (err : SignareError) : SignareError :=
  if isNotFound err then f err else err

/-- Whether the context has a transaction. -/
inductive TxContext
  | background
  | inTransaction
  deriving DecidableEq

/-- `ExecuteInTransaction`: the outermost call begins the transaction and ends it. -/
def executeUseCaseInTransaction {α : Type} (ctx : TxContext) (transactionalFunc : UseCase α) :
    UseCase α :=
  match ctx with
  | .inTransaction => transactionalFunc
  | .background => do
    match ← Program.request Effect.begin_ with
    | .error err =>
      Program.fail (internalFromErr (.text ("can not begin transaction: " ++ err.message)) "")
    | .ok _ =>
      match ← transactionalFunc.attempt with
      | .error failure =>
        let _ ← Program.request Effect.rollback
        Program.fail failure
      | .ok response =>
        match ← Program.request Effect.commit with
        | .error err =>
          Program.fail (internalFromErr (.text ("can not commit transaction: " ++ err.message)) "")
        | .ok _ => return response

def createEntry (resourceId : String) (resourceKind : ResourceKind) (parentResourceId : String)
    (parentResourceKind : ResourceKind) : UseCase EntryRow := do
  validateStruct (resourceId ≠ "" && parentResourceId ≠ "") "input data is not valid"
  let id ← newUUID
  let addInput : EntryRow := ⟨id, resourceId, resourceKind, parentResourceId, parentResourceKind⟩
  Program.orElse (onAlreadyExists alreadyExistsFromErr) do
    Program.lift ((EntryDB.mapToCreateDB addInput).mapError asInternal)
    repositoryAdd .entry EntryDB.mapFromDB addInput

def filterByParent (parentResourceId : String) (parentResourceKind : ResourceKind)
    (entry : EntryRow) : Bool :=
  entry.parentResourceId = parentResourceId && entry.parentResourceKind = parentResourceKind

def filterByResource (resourceId : String) (resourceKind : ResourceKind) (entry : EntryRow) :
    Bool :=
  entry.resourceId = resourceId && entry.resourceKind = resourceKind

def listMyChildrenEntries (parentResourceId : String) (parentResourceKind : ResourceKind) :
    UseCase (List EntryRow) := do
  validateStruct (parentResourceId ≠ "") "input data is not valid"
  (repositoryAll .entry EntryDB.mapFromDB
    (filterByParent parentResourceId parentResourceKind)).orElse asInternal

def deleteMyEntriesIfAny (resourceId : String) (resourceKind : ResourceKind) : UseCase Unit := do
  validateStruct (resourceId ≠ "") "input data is not valid"
  Program.orElse asInternal do
    let _ ← repositoryAll .entry EntryDB.mapFromDB (filterByResource resourceId resourceKind)
    let _ ← execute (.deleteAll .entry (filterByResource resourceId resourceKind))
    return ()

/-- The end of `addUserToApplicationDependency` and its siblings. -/
def addDependency (resourceId : String) (resourceKind : ResourceKind) (parentResourceId : String)
    (parentResourceKind : ResourceKind) : UseCase Unit := do
  match ← (createEntry resourceId resourceKind parentResourceId parentResourceKind).attempt with
  | .ok _ => return ()
  | .error createEntryErr =>
    if isAlreadyExists createEntryErr then return () else Program.fail createEntryErr

/-- The end of `removeAllDependencies` and its siblings: `description` names the resource. -/
def removeDependencies (internalResourceId : String) (kind : ResourceKind)
    (description : String) : UseCase Unit := do
  let children ← listMyChildrenEntries internalResourceId kind
  if children ≠ [] then
    Program.fail (preconditionFailed
      (description ++ " can't be removed, there are elements depending on it"))
  else deleteMyEntriesIfAny internalResourceId kind

end Signare
