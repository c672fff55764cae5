import Signare.Authorization.PipInFile
import Signare.UseCases.User

/-!
# Deciding on a user and an action

The roles file is read twice when the server starts: for where a role may be assigned, and for what
it grants. A request for an application is decided by the roles of the user of the application, any
other by the roles of the admin.
-/

namespace Signare

open ByteCodec

namespace Rbac

/-- An entry of the roles file, of which each reader takes what it needs. -/
structure RoleEntry where
  id : String
  scope : String
  permissions : List String

def RoleEntry.role (entry : RoleEntry) : Role := ⟨entry.id, entry.permissions⟩

structure ServerFiles where
  roles : Except FileError (List RoleEntry)
  permissions : Except FileError PermissionCollection
  actionsManual : Except FileError ActionCollection
  actionsGenerated : Except FileError ActionCollection

namespace ServerFiles

/-- The files as they are read for what roles grant. -/
def granting (files : ServerFiles) : Files :=
  ⟨files.roles.map fun entries => ⟨entries.map RoleEntry.role⟩, files.permissions,
    files.actionsManual, files.actionsGenerated⟩

/-- A role of the files. -/
def Knows (files : ServerFiles) (roleID : String) : Prop :=
  ∃ entries, files.roles = .ok entries ∧ ∃ entry ∈ entries, entry.id = roleID

/-- Some permission that is listed for the role lists the action. -/
def Grants (files : ServerFiles) (roleID action : String) : Prop :=
  ∃ entries permissions, files.roles = .ok entries ∧ files.permissions = .ok permissions ∧
    ∃ entry ∈ entries, entry.id = roleID ∧ ∃ permission ∈ permissions.permissions,
      permission.id ∈ entry.permissions ∧ action ∈ permission.actions

/-- The role may be assigned to application users. Of two entries of one id the later counts, as it
does for what the role grants. -/
def ApplicationScoped (files : ServerFiles) (roleID : String) : Prop :=
  ∃ entries, files.roles = .ok entries ∧ ∃ entry,
    entries.reverse.find? (fun entry => entry.id = roleID) = some entry ∧
      entry.scope = "application"

end ServerFiles

end Rbac

def Scope.ofText (scope : String) : Scope :=
  if scope = "admin" then .admin else if scope = "application" then .application else .other scope

namespace RoleInFile

open Rbac

def unsupportedScope (join : String → String) (entry : RoleEntry) : SignareError :=
  internal ("role '" ++ entry.id ++ "' has an unsupported scope '" ++ entry.scope ++ "' in file " ++
    join "roles.yaml")

def loadRoles (join : String → String) (file : Except FileError (List RoleEntry)) :
    Except SignareError (List RoleEntry) := do
  let roles ← PipInFile.readFile join "roles" "roles.yaml" file
  match roles.find? fun entry =>
      Scope.ofText entry.scope ≠ .admin ∧ Scope.ofText entry.scope ≠ .application with
  | some entry => .error (unsupportedScope join entry)
  | none => .ok roles

/-- `ListRoles`. -/
def listRoles (rolesInfo : List RoleEntry) : List Role :=
  rolesInfo.map fun entry => ⟨entry.id, .ofText entry.scope⟩

end RoleInFile

/-- What the server has made of files that it accepts. -/
structure LoadedFiles (join : String → String) (files : Rbac.ServerFiles) where
  rolesInfo : List Rbac.RoleEntry
  roleActionMap : AList fun _ : String => Actions
  hroles : RoleInFile.loadRoles join files.roles = .ok rolesInfo
  hactions : PipInFile.loadRolesAndActions join files.granting = .ok roleActionMap

def adminActionPrefix : String := "admin."

/-- `strings.HasPrefix`. -/
def hasPrefix (s start : String) : Bool := start.toList.isPrefixOf s.toList

/-- `PreconditionFailed().SetHumanReadableMessage(message)`. -/
def actionNotAuthorized (userID : String) : SignareError :=
  .typed .preconditionFailed "" (some ("action not authorized for user [" ++ userID ++ "]"))

def getUserRoles (userID applicationID : String) : UseCase (List String) := do
  let (user, _) ← getUser ⟨userID, applicationID⟩
  return user.roles

def getAdminRoles (adminID : String) : UseCase (List String) := do
  let admin ← getAdmin adminID
  return admin.roles

/-- The roles of the user of the application that is named, or of the admin where none is. -/
def rolesOf (userID actionID : String) (applicationID : Option String) : UseCase (List String) := do
  if applicationID.getD "" ≠ "" then
    require (!hasPrefix actionID adminActionPrefix) (actionNotAuthorized userID)
    getUserRoles userID (applicationID.getD "")
  else getAdminRoles userID

def authorizeUser (roleActionMap : AList fun _ : String => Actions) (userID : String)
    (applicationID : Option String) (actionID : String) : UseCase Unit := do
  let roles ← rolesOf userID actionID applicationID
  let actions ← Program.lift (PipInFile.listActions roleActionMap roles)
  require (actionID ∈ actions.actionSet) (actionNotAuthorized userID)

/-- `AuthorizeUserAccount`. -/
def authorizeUserAccount (keccak : Hash256) (key : AccountID) : UseCase Unit := do
  validateStruct key.valid couldNotValidate
  let _ ← getAccount keccak key
  return ()

namespace LoadedFiles

open Rbac PipInFile

variable {join : String → String} {files : ServerFiles} (loaded : LoadedFiles join files)

include loaded

theorem roles_eq : files.roles = .ok loaded.rolesInfo := by
  have h := loaded.hroles
  unfold RoleInFile.loadRoles at h
  obtain ⟨roles, hread, hscopes⟩ := Except.bind_eq_ok.mp h
  have hroles : roles = loaded.rolesInfo := by
    split at hscopes
    · cases hscopes
    · exact Except.ok.inj hscopes
  cases hfile : files.roles with
  | ok entries =>
    rw [hfile, readFile] at hread
    rw [Except.ok.inj hread, hroles]
  | error err =>
    rw [hfile] at hread
    cases err with
    | notRead => simp [readFile] at hread
    | notUnmarshalled => simp [readFile] at hread

theorem exists_permissions : ∃ permissions, files.permissions = .ok permissions ∧
    loaded.roleActionMap =
      PipInFile.roleActionMap (permissionMap permissions)
        (loaded.rolesInfo.map RoleEntry.role) := by
  obtain ⟨roles, permissions, hroles, hpermissions, hmap⟩ :=
    exists_of_loadRolesAndActions loaded.hactions
  rw [ServerFiles.granting, loaded.roles_eq] at hroles
  cases hroles
  exact ⟨permissions, hpermissions, hmap⟩

variable {roleID action : String}

theorem exists_entry {granted : Actions} (h : loaded.roleActionMap.lookup roleID = some granted) :
    ∃ permissions, files.permissions = .ok permissions ∧ ∃ entry ∈ loaded.rolesInfo,
      entry.id = roleID ∧
        granted = .newActions (grantedActions (permissionMap permissions) entry.role) := by
  obtain ⟨permissions, hpermissions, hmap⟩ := loaded.exists_permissions
  rw [hmap, lookup_roleActionMap, Option.map_eq_some_iff] at h
  obtain ⟨role, hfind, hgranted⟩ := h
  have hroleID : role.id = roleID := by simpa using List.find?_some hfind
  have hmem := List.mem_reverse.mp (List.mem_of_find?_eq_some hfind)
  obtain ⟨entry, hentry, rfl⟩ := List.mem_map.mp hmem
  exact ⟨permissions, hpermissions, entry, hentry, hroleID, hgranted.symm⟩

theorem knows_of_lookup (h : (loaded.roleActionMap.lookup roleID).isSome) :
    files.Knows roleID := by
  obtain ⟨granted, hlookup⟩ := Option.isSome_iff_exists.mp h
  obtain ⟨-, -, entry, hentry, hroleID, -⟩ := loaded.exists_entry hlookup
  exact ⟨_, loaded.roles_eq, entry, hentry, hroleID⟩

theorem grants_of_lookup {granted : Actions}
    (h : loaded.roleActionMap.lookup roleID = some granted) (haction : action ∈ granted.actionSet) :
    files.Grants roleID action := by
  obtain ⟨permissions, hpermissions, entry, hentry, hroleID, rfl⟩ := loaded.exists_entry h
  have hmem : action ∈ grantedActions (permissionMap permissions) entry.role :=
    List.mem_toFinset.mp haction
  obtain ⟨permissionID, hpermission, actions, hlookup, hlisted⟩ := mem_grantedActions.mp hmem
  rw [lookup_permissionMap, Option.map_eq_some_iff] at hlookup
  obtain ⟨permission, hfind, rfl⟩ := hlookup
  have hpermissionID : permission.id = permissionID := by simpa using List.find?_some hfind
  refine ⟨_, permissions, loaded.roles_eq, hpermissions, entry, hentry, hroleID, permission,
    List.mem_reverse.mp (List.mem_of_find?_eq_some hfind), ?_, hlisted⟩
  rw [hpermissionID]
  exact hpermission

/-- Roles that are checked may be assigned to application users. -/
theorem scoped_of_validate {roles : List String}
    (h : validateApplicationScopedRoles (RoleInFile.listRoles loaded.rolesInfo) roles = .ok ()) :
    ∀ roleID ∈ roles, files.ApplicationScoped roleID := by
  induction roles with
  | nil => exact List.forall_mem_nil _
  | cons roleID roles ih =>
    unfold validateApplicationScopedRoles at h
    split at h
    · cases h
    · rename_i role hfind
      split at h
      · cases h
      · rename_i hscoped
        rw [List.forall_mem_cons]
        refine ⟨?_, ih h⟩
        rw [RoleInFile.listRoles, ← List.map_reverse, List.find?_map,
          Option.map_eq_some_iff] at hfind
        obtain ⟨entry, hentry, rfl⟩ := hfind
        refine ⟨_, loaded.roles_eq, entry, hentry, ?_⟩
        have happlication : Scope.ofText entry.scope = .application := by
          simpa [Role.isApplicationScoped] using hscoped
        unfold Scope.ofText at happlication
        split at happlication
        · cases happlication
        · split at happlication
          · assumption
          · cases happlication

end LoadedFiles

end Signare
