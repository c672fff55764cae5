import Signare.Storage.Statement

/-!
# Repositories

The output adapters and the infrastructure below them: what each stored resource is checked for on
its way in and out, and the statements that an operation on it is made of.
-/

namespace Signare

def PersistenceError.message : PersistenceError → String
  | .alreadyExists => "already exists"
  | .notFound => "not found"
  | .entryNotAdded => "entry not added"
  | .statementFailed message => message

def mapPersistenceErrorToSignerError (err : PersistenceError) : SignareError :=
  match err with
  | .alreadyExists => alreadyExistsFromErr (.text err.message)
  | .notFound => notFoundFromErr (.text err.message) ""
  | _ => internalFromErr (.text err.message) ""

/-- `errors.InternalFromErr(err)`. -/
def asInternal (err : SignareError) : SignareError := internalFromErr err ""

def notEmpty (field s : String) : Except SignareError Unit :=
  if s = "" then .error (internal (field ++ " cannot be empty")) else .ok ()

theorem notEmpty_of_ne {field s : String} (h : s ≠ "") : notEmpty field s = .ok () := if_neg h

theorem notEmpty_eq_ok {field s : String} {u : Unit} (h : notEmpty field s = .ok u) : s ≠ "" := by
  intro hs
  simp [notEmpty, hs] at h

/-- A statement, with the error of the persistence layer translated. -/
def execute (s : Statement) : UseCase s.Result := do
  match ← Program.request (Effect.statement s) with
  | .error err => Program.fail (mapPersistenceErrorToSignerError err)
  | .ok result => return result

def newUUID : UseCase String := Program.request Effect.newUUID

section Repository

variable (t : Table) {β : Type} (resource : String) (mapFromDB : Row t → Except SignareError β)

def repositoryGet (key : Key t) : UseCase β := do
  match ← execute (.getById t key) with
  | [] => Program.fail (notFound ("resource " ++ resource ++ " does not exist"))
  | [row] => Program.lift (mapFromDB row)
  | _ =>
    Program.fail (internal ("unexpected number of results when obtaining " ++ resource))

def repositoryAdd (row : Row t) : UseCase β := do
  execute (.insert t row)
  match ← execute (.getById t (keyOf t row)) with
  | [] => Program.fail (mapPersistenceErrorToSignerError .entryNotAdded)
  | row' :: _ => Program.lift (mapFromDB row')

/-- An update guarded by the version of the resource. The new version is part of what is assigned. -/
def repositoryEdit (key : Key t) (resourceVersion : String)
    (assign : String → Row t → Row t) : UseCase β := do
  let found : Bool ← execute (.exists_ t key)
  if ¬ found then Program.fail (mapPersistenceErrorToSignerError .notFound)
  else
    let newResourceVersion ← newUUID
    let rowsAffected : Nat ← execute (.update t key resourceVersion (assign newResourceVersion))
    if rowsAffected = 0 then
      Program.fail (notFound ("resource " ++ resource ++ " does not match the one stored"))
    else if rowsAffected > 1 then
      Program.fail (internal ("unexpected number of results when obtaining " ++ resource))
    else (repositoryGet t resource mapFromDB key).orElse asInternal

/-- The number of rows that are deleted is not looked at. -/
def repositoryRemove (key : Key t) : UseCase β := do
  let storageData ← repositoryGet t resource mapFromDB key
  let _ ← execute (.delete t key)
  return storageData

def repositoryAll (filter : Row t → Bool) : UseCase (List β) := do
  let storageData ← execute (.list t filter none)
  Program.lift (storageData.mapM mapFromDB)

end Repository

namespace AdminDB

def mapToCreateDB (admin : AdminRow) : Except SignareError Unit := do
  notEmpty "'ID'" admin.id
  notEmpty "'InternalResourceID'" admin.internalResourceId
  if admin.roles = [] then .error (internal "'Roles' cannot be empty") else .ok ()

def mapToUpdateDB (id : String) (roles : List String) : Except SignareError Unit := do
  notEmpty "'ID'" id
  if roles = [] then .error (internal "'Roles' cannot be empty") else .ok ()

def mapFromDB (db : AdminRow) : Except SignareError AdminRow := (do
  notEmpty "'ID'" db.id
  notEmpty "'InternalResourceID'" db.internalResourceId
  return db).mapError asInternal

end AdminDB

namespace ApplicationDB

def mapToCreateDB (application : ApplicationRow) : Except SignareError Unit := do
  notEmpty "id" application.id
  notEmpty "'InternalResourceID'" application.internalResourceId

def mapFromDB (db : ApplicationRow) : Except SignareError ApplicationRow := (do
  notEmpty "id" db.id
  notEmpty "'InternalResourceID'" db.internalResourceId
  return db).mapError asInternal

end ApplicationDB

namespace UserDB

def mapToCreateDB (user : UserRow) : Except SignareError Unit := do
  notEmpty "'AdminID'" user.key.id
  notEmpty "'InternalResourceID'" user.internalResourceId
  notEmpty "'ApplicationID'" user.key.applicationId
  if user.roles = [] then .error (internal "'Roles' cannot be empty") else .ok ()

def mapToUpdateDB (key : ApplicationStandardID) (roles : List String) :
    Except SignareError Unit := do
  notEmpty "'AdminID'" key.id
  notEmpty "'ApplicationID'" key.applicationId
  if roles = [] then .error (internal "'Roles' cannot be empty") else .ok ()

def mapFromDB (db : UserRow) : Except SignareError UserRow := (do
  notEmpty "'InternalResourceID'" db.internalResourceId
  return db).mapError asInternal

end UserDB

namespace AccountDB

def mapToCreateDB (account : AccountRow) : Except SignareError Unit := do
  notEmpty "'InternalResourceID'" account.internalResourceId
  if account.key.address.isEmpty then .error (internal "'Address' cannot be empty")
  notEmpty "'UserID'" account.key.userId
  notEmpty "'ApplicationID'" account.key.applicationId

def mapFromDB (db : AccountRow) : Except SignareError AccountRow := (do
  notEmpty "'InternalResourceID'" db.internalResourceId
  if db.key.address.isEmpty then .error (internal "'Address' cannot be empty")
  notEmpty "'UserID'" db.key.userId
  notEmpty "'ApplicationID'" db.key.applicationId
  return db).mapError asInternal

end AccountDB

namespace HSMModuleDB

def mapToCreateDB (module : HSMModuleRow) : Except SignareError Unit := do
  notEmpty "id" module.id
  notEmpty "'InternalResourceID'" module.internalResourceId

def mapFromDB (db : HSMModuleRow) : Except SignareError HSMModuleRow := (do
  notEmpty "id" db.id
  notEmpty "'InternalResourceID'" db.internalResourceId
  return db).mapError asInternal

end HSMModuleDB

namespace EntryDB

def mapToCreateDB (entry : EntryRow) : Except SignareError Unit := do
  notEmpty "'ID'" entry.id
  notEmpty "'ResourceID'" entry.resourceId
  notEmpty "'ParentResourceID'" entry.parentResourceId

def mapFromDB (db : EntryRow) : Except SignareError EntryRow := (do
  notEmpty "'ID'" db.id
  notEmpty "'ResourceID'" db.resourceId
  notEmpty "'ParentResourceID'" db.parentResourceId
  return db).mapError asInternal

end EntryDB

end Signare
