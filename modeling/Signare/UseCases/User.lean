import Signare.UseCases.HSMSlot

/-!
# Users and their accounts

A user belongs to an application, an account to a user. None of these operations runs inside a
transaction.
-/

namespace Signare

open ByteCodec

inductive Scope
  | admin
  | application
  | other (name : String)
  deriving DecidableEq

/-- `role.Role`. -/
structure Role where
  id : String
  scope : Scope
  deriving DecidableEq

def Role.isApplicationScoped (role : Role) : Bool := role.scope = .application

/-- Roles are looked up by id, and of two with one id the later counts. -/
def validateApplicationScopedRoles (supportedRoles : List Role) :
    List String → Except SignareError Unit
  | [] => .ok ()
  | roleID :: roles =>
    match supportedRoles.reverse.find? fun role => role.id = roleID with
    | none => .error (invalidArgumentBoth ("the role '" ++ roleID ++ "' is not supported"))
    | some supportedRole =>
      if ¬ supportedRole.isApplicationScoped then
        .error (invalidArgumentBoth
          ("the role '" ++ roleID ++ "' cannot be assigned to an application user"))
      else validateApplicationScopedRoles supportedRoles roles

def filterByUser (key : ApplicationStandardID) (account : AccountRow) : Bool :=
  account.key.applicationId = key.applicationId && account.key.userId = key.id

def listAccounts (key : ApplicationStandardID) : UseCase (List AccountRow) := do
  validateStruct (key.applicationId ≠ "") couldNotValidate
  (repositoryAll .account AccountDB.mapFromDB (filterByUser key)).orElse asInternal

def getUserFromStorage (key : ApplicationStandardID) : UseCase UserRow :=
  repositoryGet .user "'user'" UserDB.mapFromDB key

def getUser (key : ApplicationStandardID) : UseCase (UserRow × List AccountRow) := do
  validateStruct key.valid couldNotValidate
  let user ← (getUserFromStorage key).orElse
    (onNotFound (notFoundFromErr · ("user [" ++ key.id ++ "] not found")))
  let accounts ← (listAccounts user.key).orElse asInternal
  return (user, accounts)

def getAccountFromStorage (key : AccountID) : UseCase AccountRow :=
  repositoryGet .account "'account'" AccountDB.mapFromDB key

def accountText (keccak : Hash256) (key : AccountID) : String :=
  "\x7b" ++ key.address.string keccak ++ " " ++ key.userId ++ " " ++ key.applicationId ++ "\x7d"

def getAccount (keccak : Hash256) (key : AccountID) : UseCase AccountRow := do
  validateStruct key.valid couldNotValidate
  (getAccountFromStorage key).orElse (onNotFound (notFoundReadableFromErr ·
    ("account [" ++ accountText keccak key ++ "] not found")))

structure CreateUserInput where
  id : Option String
  applicationId : String
  description : Option String
  roles : List String

def addUserToApplicationDependency (data : UserRow) : UseCase Unit := do
  let application ← (getApplication data.key.applicationId).orElse (replaceNotFound fun _ =>
    preconditionFailed ("user can't be created because the application '" ++
      data.key.applicationId ++ "' does not exist"))
  addDependency data.internalResourceId .user application.internalResourceId .application

def createUser (supportedRoles : List Role) (input : CreateUserInput) : UseCase UserRow := do
  validateStruct (input.applicationId ≠ "" && input.roles ≠ []) "couldn't validate input user"
  let id ← orRandomID input.id
  Program.lift (validateApplicationScopedRoles supportedRoles input.roles)
  let internalResourceId ← newUUID
  let user : UserRow := ⟨⟨id, input.applicationId⟩, internalResourceId, input.roles,
    input.description.getD "", ""⟩
  addUserToApplicationDependency user
  Program.orElse (onAlreadyExists alreadyExistsFromErr) do
    Program.lift ((UserDB.mapToCreateDB user).mapError asInternal)
    let resourceVersion ← newUUID
    repositoryAdd .user UserDB.mapFromDB { user with resourceVersion }

structure EditUserInput where
  key : ApplicationStandardID
  resourceVersion : String
  description : Option String
  roles : List String

def assignUser (roles : List String) (description newResourceVersion : String) (row : UserRow) :
    UserRow :=
  { row with roles, description, resourceVersion := newResourceVersion }

def editUser (supportedRoles : List Role) (input : EditUserInput) :
    UseCase (UserRow × List AccountRow) := do
  validateStruct (input.key.valid && input.resourceVersion ≠ "") couldNotValidate
  require (input.roles ≠ []) (invalidArgument "the 'Role' cannot be empty")
  Program.lift (validateApplicationScopedRoles supportedRoles input.roles)
  let editedUser ← Program.orElse
      (onNotFound (notFoundFromErr · ("user [" ++ input.key.id ++ "] not found"))) do
    Program.lift ((UserDB.mapToUpdateDB input.key input.roles).mapError asInternal)
    repositoryEdit .user "'user'" UserDB.mapFromDB input.key input.resourceVersion
      (assignUser input.roles (input.description.getD ""))
  let accounts ← (listAccounts input.key).orElse asInternal
  return (editedUser, accounts)

def removeAllUserDependencies (key : ApplicationStandardID) : UseCase Unit := do
  let (user, _) ← getUser key
  removeDependencies user.internalResourceId .user
    ("user '" ++ key.applicationId ++ ":" ++ key.id ++ "'")

def deleteUser (key : ApplicationStandardID) : UseCase UserRow := do
  validateStruct key.valid couldNotValidate
  removeAllUserDependencies key
  (repositoryRemove .user "'user'" UserDB.mapFromDB key).orElse
    (onNotFound (notFoundFromErr · ("user [" ++ key.id ++ "] not found")))

def AccountID.user (key : AccountID) : ApplicationStandardID := ⟨key.userId, key.applicationId⟩

def addAccountToUserDependency (keccak : Hash256) (data : AccountRow) : UseCase Unit := do
  let (user, _) ← (getUser data.key.user).orElse (replaceNotFound fun _ =>
    preconditionFailed ("can't create account '" ++ data.key.address.string keccak ++
      "' because user '" ++ data.key.userId ++ "' does not exist"))
  addDependency data.internalResourceId .account user.internalResourceId .user

def createAccount (keccak : Hash256) (key : AccountID) : UseCase AccountRow := do
  validateStruct key.valid "couldn't validate input account"
  let internalResourceId ← newUUID
  let account : AccountRow := ⟨key, internalResourceId⟩
  addAccountToUserDependency keccak account
  Program.orElse (onAlreadyExists (alreadyExistsReadableFromErr ·
      ("addedAccount [" ++ accountText keccak key ++ "] already exists"))) do
    Program.lift ((AccountDB.mapToCreateDB account).mapError asInternal)
    repositoryAdd .account AccountDB.mapFromDB account

def removeAllAccountDependencies (keccak : Hash256) (key : AccountID) : UseCase Unit := do
  let account ← getAccount keccak key
  removeDependencies account.internalResourceId .account
    ("acount '" ++ key.applicationId ++ ":" ++ key.userId ++ ":" ++ key.address.string keccak ++
      "'")

def deleteAccount (keccak : Hash256) (key : AccountID) : UseCase AccountRow := do
  validateStruct key.valid couldNotValidate
  removeAllAccountDependencies keccak key
  (repositoryRemove .account "'account'" AccountDB.mapFromDB key).orElse
    (onNotFound (notFoundReadableFromErr ·
      ("account [" ++ accountText keccak key ++ "] not found")))

def disableAccount (keccak : Hash256) (key : AccountID) :
    UseCase (UserRow × List AccountRow) := do
  validateStruct key.valid couldNotValidate
  let _ ← (deleteAccount keccak key).orElse (onNotFound (notFoundReadableFromErr ·
    ("account [" ++ key.address.string keccak ++ "] not found for user [" ++ key.userId ++ "]")))
  let user ← (getUserFromStorage key.user).orElse (onNotFound (notFoundReadableFromErr ·
    ("could not find user [" ++ key.userId ++ "] on application [" ++ key.applicationId ++ "]")))
  let accounts ← (listAccounts key.user).orElse asInternal
  return (user, accounts)

/-- `hsmconnection.HSMConnection`. -/
structure HSMConnection where
  slot : HSMSlot
  moduleKind : HSMModuleKind
  applicationDefaultChainId : Int

def byApplication (applicationId : String) : UseCase HSMConnection := do
  let app ← (getApplication applicationId).orElse asInternal
  let slot ← (getHSMSlotByApplication app.id).orElse asInternal
  let hsmModule ← (getHSMModule .background slot.hsmModuleId).orElse asInternal
  return ⟨slot, hsmModule.kind, app.defaultChainId⟩

def hsmListAddresses (slot pin : String) (kind : HSMModuleKind) : UseCase (List Address) := do
  match ← Program.request (Effect.hsm (.listAddresses slot pin kind)) with
  | .error err => Program.fail err
  | .ok addresses => return addresses

def hsmRemoveAddress (slot pin : String) (kind : HSMModuleKind) (address : Address) :
    UseCase Unit := do
  match ← Program.request (Effect.hsm (.removeAddress slot pin kind address)) with
  | .error err => Program.fail err
  | .ok _ => return ()

def addressesBackedByModule (hsmConnection : HSMConnection) : UseCase (List Address) :=
  Program.orElse asInternal <|
    match hsmConnection.moduleKind with
    | .softHSM => hsmListAddresses hsmConnection.slot.slot hsmConnection.slot.pin .softHSM
    | .lkv => listLocalKeys hsmConnection.slot.id
    | .akv => Program.lift (hsmConnection.slot.config.akv.mapM fun akvConfig =>
        Address.newFromHexString akvConfig.keyPublicAddress)

/-- The loop over the accounts to create, and the addresses that were not added. -/
def createAccounts (keccak : Hash256) : List AccountID → UseCase (List Address)
  | [] => return []
  | key :: keys => do
    let created ← (createAccount keccak key).attempt
    let accountsNotAdded ← createAccounts keccak keys
    match created with
    | .ok _ => return accountsNotAdded
    | .error createAccountErr =>
      if isAlreadyExists createAccountErr then return accountsNotAdded
      else return key.address :: accountsNotAdded

structure EnableAccountsInput where
  userId : String
  applicationId : String
  addresses : List Address

def EnableAccountsInput.user (input : EnableAccountsInput) : ApplicationStandardID :=
  ⟨input.userId, input.applicationId⟩

def EnableAccountsInput.keys (input : EnableAccountsInput) : List AccountID :=
  input.addresses.map fun address => ⟨address, input.userId, input.applicationId⟩

def addressesText (keccak : Hash256) (separator : String) (addresses : List Address) : String :=
  "[" ++ separator.intercalate (addresses.map (Address.string keccak)) ++ "]"

def enableAccounts (keccak : Hash256) (input : EnableAccountsInput) :
    UseCase (UserRow × List AccountRow) := do
  validateStruct (input.userId ≠ "" && input.applicationId ≠ "" &&
    input.addresses.all fun address => !address.isEmpty) couldNotValidate
  require (input.addresses ≠ []) (invalidArgumentReadable "at least one address is required")
  let user ← (getUserFromStorage input.user).orElse (onNotFound (notFoundReadableFromErr ·
    ("could not find user [" ++ input.userId ++ "] on application [" ++ input.applicationId ++
      "]")))
  let hsmConnection ← byApplication input.applicationId
  let knownAddresses ← addressesBackedByModule hsmConnection
  require (input.addresses.all fun address => address ∈ knownAddresses)
    (preconditionFailed ("one or more accounts '" ++ addressesText keccak " " input.addresses ++
      "' do not exist in the HSM"))
  let accountsNotAdded ← createAccounts keccak input.keys
  require (accountsNotAdded = []) (internal
    ("error while adding accounts to the user. The following accounts were not added: " ++
      addressesText keccak ", " accountsNotAdded))
  let accounts ← (listAccounts input.user).orElse asInternal
  return (user, accounts)

def filterByAddress (applicationId : String) (address : Address) (account : AccountRow) : Bool :=
  account.key.applicationId = applicationId && account.key.address = address

/-- The key goes first, the accounts second. -/
def deleteAllAccountsForAddress (keccak : Hash256) (applicationId : String) (address : Address) :
    UseCase (List AccountRow) := do
  validateStruct (!address.isEmpty && applicationId ≠ "") couldNotValidate
  let hsmConnection ← byApplication applicationId
  Program.orElse (onNotFound (notFoundFromErr · "")) <|
    match hsmConnection.moduleKind with
    | .lkv => removeLocalKey keccak hsmConnection.slot.id address
    | kind => hsmRemoveAddress hsmConnection.slot.slot hsmConnection.slot.pin kind address
  Program.orElse asInternal do
    let accounts ←
      repositoryAll .account AccountDB.mapFromDB (filterByAddress applicationId address)
    let _ ← execute (.deleteAll .account (filterByAddress applicationId address))
    return accounts

end Signare
