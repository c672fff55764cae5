import Signare.UseCases.ReferentialIntegrity

/-!
# Applications, HSM modules and admins

Resources that depend on no other. Operations on applications and admins run outside any
transaction, those on HSM modules each in its own.
-/

namespace Signare

/-- The id of a resource that is created without one. -/
def orRandomID : Option String → UseCase String
  | some id => return id
  | none => newUUID

structure CreateApplicationInput where
  id : Option String
  chainId : Int
  description : Option String

def createApplication (input : CreateApplicationInput) : UseCase ApplicationRow := do
  validateStruct (1 ≤ input.chainId) couldNotValidate
  let id ← orRandomID input.id
  let internalResourceId ← newUUID
  Program.orElse
      (onAlreadyExists (alreadyExistsReadableFromErr ·
        ("application [" ++ id ++ "] already exists"))) do
    let application : ApplicationRow :=
      ⟨id, internalResourceId, input.chainId, input.description, ""⟩
    Program.lift ((ApplicationDB.mapToCreateDB application).mapError asInternal)
    let resourceVersion ← newUUID
    repositoryAdd .application ApplicationDB.mapFromDB { application with resourceVersion }

def getApplication (id : String) : UseCase ApplicationRow := do
  validateStruct (validID id) couldNotValidate
  (repositoryGet .application "application" ApplicationDB.mapFromDB id).orElse
    (onNotFound (notFoundReadableFromErr · ("application [" ++ id ++ "] not found")))

def removeAllApplicationDependencies (id : String) : UseCase Unit := do
  let application ← getApplication id
  removeDependencies application.internalResourceId .application ("application '" ++ id ++ "'")

def deleteApplication (id : String) : UseCase ApplicationRow := do
  validateStruct (validID id) couldNotValidate
  removeAllApplicationDependencies id
  (repositoryRemove .application "application" ApplicationDB.mapFromDB id).orElse
    (onNotFound (notFoundReadableFromErr · ("application [" ++ id ++ "] not found")))

/-- A kind that is not one of the three does not validate. -/
structure CreateHSMModuleInput where
  id : Option String
  description : Option String
  moduleKind : Option HSMModuleKind

def createHSMModule (ctx : TxContext) (input : CreateHSMModuleInput) : UseCase HSMModuleRow :=
  executeUseCaseInTransaction ctx do
    match input.moduleKind with
    | none => Program.fail (invalidArgumentFromErr (.text "does not validate") couldNotValidate)
    | some kind =>
      let id ← orRandomID input.id
      let internalResourceId ← newUUID
      Program.orElse
          (onAlreadyExists (alreadyExistsReadableFromErr ·
            ("hsm module [" ++ id ++ "] already exists"))) do
        let hsmModule : HSMModuleRow :=
          ⟨id, internalResourceId, kind, "", input.description.getD "", ""⟩
        Program.lift ((HSMModuleDB.mapToCreateDB hsmModule).mapError asInternal)
        let resourceVersion ← newUUID
        repositoryAdd .hsmModule HSMModuleDB.mapFromDB { hsmModule with resourceVersion }

/-- `GetHSMModule` of the use case that is decorated. -/
def getHSMModuleUndecorated (id : String) : UseCase HSMModuleRow := do
  validateStruct (validID id) couldNotValidate
  (repositoryGet .hsmModule "HSM" HSMModuleDB.mapFromDB id).orElse
    (onNotFound (notFoundFromErr · ("hsm module [" ++ id ++ "] not found")))

def getHSMModule (ctx : TxContext) (id : String) : UseCase HSMModuleRow :=
  executeUseCaseInTransaction ctx (getHSMModuleUndecorated id)

def removeAllHSMModuleDependencies (id : String) : UseCase Unit := do
  let hsmModule ← getHSMModuleUndecorated id
  removeDependencies hsmModule.internalResourceId .hsmModule ("HSM '" ++ id ++ "'")

def deleteHSMModule (ctx : TxContext) (id : String) : UseCase HSMModuleRow :=
  executeUseCaseInTransaction ctx do
    validateStruct (validID id) couldNotValidate
    removeAllHSMModuleDependencies id
    (repositoryRemove .hsmModule "HSM" HSMModuleDB.mapFromDB id).orElse
      (onNotFound (notFoundFromErr · ("hsm module [" ++ id ++ "] not found")))

def signerAdminRole : String := "signer-admin"

/-- `persistence.DefaultPageLimit`, and the one more that shows whether there are more. -/
def defaultPageLimit : Nat := 30

def createAdmin (id : String) (description : Option String) : UseCase AdminRow := do
  validateStruct (validID id) couldNotValidate
  let id ← if id = "" then newUUID else pure id
  let internalResourceId ← newUUID
  Program.orElse
      (onAlreadyExists (alreadyExistsReadableFromErr ·
        ("admin [" ++ id ++ "] already exists"))) do
    let data : AdminRow := ⟨id, internalResourceId, [signerAdminRole], description.getD "", ""⟩
    Program.lift ((AdminDB.mapToCreateDB data).mapError asInternal)
    let resourceVersion ← newUUID
    repositoryAdd .admin AdminDB.mapFromDB { data with resourceVersion }

def getAdmin (id : String) : UseCase AdminRow := do
  validateStruct (validID id) couldNotValidate
  (repositoryGet .admin "'admin'" AdminDB.mapFromDB id).orElse
    (onNotFound (notFoundReadableFromErr · ("admin [" ++ id ++ "] not found")))

/-- The first page of the admins. -/
def listAdmins : UseCase (List AdminRow) :=
  Program.orElse asInternal do
    let storageData ← execute (.list .admin (fun _ => true) (some (defaultPageLimit + 1)))
    Program.lift ((storageData.take defaultPageLimit).mapM AdminDB.mapFromDB)

structure EditAdminInput where
  id : String
  resourceVersion : String
  description : Option String

def assignAdmin (description newResourceVersion : String) (row : AdminRow) : AdminRow :=
  { row with roles := [signerAdminRole], description, resourceVersion := newResourceVersion }

def editAdmin (input : EditAdminInput) : UseCase AdminRow := do
  validateStruct (validID input.id) couldNotValidate
  Program.orElse
      (onNotFound (notFoundReadableFromErr · ("admin [" ++ input.id ++ "] not found"))) do
    Program.lift ((AdminDB.mapToUpdateDB input.id [signerAdminRole]).mapError asInternal)
    repositoryEdit .admin "'admin'" AdminDB.mapFromDB input.id input.resourceVersion
      (assignAdmin (input.description.getD ""))

def removeAllAdminDependencies (id : String) : UseCase Unit := do
  let admin ← getAdmin id
  removeDependencies admin.internalResourceId .admin ("admin '" ++ id ++ "'")

def deleteAdmin (id : String) : UseCase AdminRow := do
  validateStruct (validID id) couldNotValidate
  let admins ← listAdmins
  if admins.length ≤ 1 then Program.fail (preconditionFailed "not possible to delete admin")
  else
    removeAllAdminDependencies id
    (repositoryRemove .admin "'admin'" AdminDB.mapFromDB id).orElse
      (onNotFound (notFoundReadableFromErr · ("admin [" ++ id ++ "] not found")))

end Signare
