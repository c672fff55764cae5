import Mathlib.Data.Finset.Basic
import Signare.Commons.Errors
import Signare.Lib.Association
import Signare.Lib.Outcome

/-!
# Roles, permissions and actions in files

The server reads what its roles grant when it starts. The files are taken as what reading and
unmarshalling makes of them.
-/

namespace Signare

namespace Rbac

structure Role where
  id : String
  permissions : List String
  deriving DecidableEq

structure Permission where
  id : String
  actions : List String
  deriving DecidableEq

structure RoleCollection where
  roles : List Role

structure PermissionCollection where
  permissions : List Permission

structure ActionCollection where
  actions : List String

inductive FileError
  | notRead (err : String)
  | notUnmarshalled (err : String)

/-- The four files of the server. -/
structure Files where
  roles : Except FileError RoleCollection
  permissions : Except FileError PermissionCollection
  actionsManual : Except FileError ActionCollection
  actionsGenerated : Except FileError ActionCollection

end Rbac

/-- `pdp.Actions`. -/
structure Actions where
  actionSet : Finset String
  deriving DecidableEq

namespace Actions

def newActions (actions : List String) : Actions := ⟨actions.toFinset⟩

def merge (a actions : Actions) : Actions := ⟨a.actionSet ∪ actions.actionSet⟩

end Actions

namespace PipInFile

open Rbac

def mergeActions (actionsOne actionsTwo : ActionCollection) : ActionCollection :=
  ⟨actionsOne.actions ++ actionsTwo.actions⟩

/-- The file's name is joined to the base path. -/
def readFile {α : Type} (join : String → String) (kind name : String) :
    Except FileError α → Except SignareError α
  | .ok content => .ok content
  | .error (.notRead _) =>
    .error (internal ("could not read " ++ kind ++ " file from " ++ join name))
  | .error (.notUnmarshalled _) =>
    .error (internal (kind ++ " from file " ++ join name ++ " could not be unmarshalled"))

/-- The first action of a permission that does not exist. -/
def missingAction (actions : List String) : List Permission → Option (String × String)
  | [] => none
  | permission :: permissions =>
    match permission.actions.find? (· ∉ actions) with
    | some action => some (permission.id, action)
    | none => missingAction actions permissions

def danglingAction (permission action : String) : String :=
  "permission '" ++ permission ++ "' points to an action '" ++ action ++ "' that does not exist"

def danglingPermission (role permission : String) : String :=
  "role '" ++ role ++ "' points to a permission '" ++ permission ++ "' that does not exist"

def validatePermissions (permissions : PermissionCollection) (actions : ActionCollection) :
    Except SignareError Unit :=
  match missingAction actions.actions permissions.permissions with
  | some missing => .error (internal (danglingAction missing.1 missing.2))
  | none => .ok ()

/-- The map from permissions to their actions: of two with one id the later is kept. -/
def permissionMap (permissions : PermissionCollection) : AList fun _ : String => List String :=
  permissions.permissions.foldl (fun m permission => m.insert permission.id permission.actions) ∅

/-- The inner loop: the actions of the permissions of a role. -/
def permissionGrantedActions (permissions : AList fun _ : String => List String) (role : Role) :
    Except SignareError ActionCollection :=
  role.permissions.foldlM (fun granted permission =>
    match permissions.lookup permission with
    | none => .error (internal (danglingPermission role.id permission))
    | some actionsForPermission => .ok (mergeActions granted ⟨actionsForPermission⟩)) ⟨[]⟩

def loadRolesAndActions (join : String → String) (files : Files) :
    Except SignareError (AList fun _ : String => Actions) := do
  let actionsManual ← readFile join "manual actions" "actions-manual.yaml" files.actionsManual
  let actionsGenerated ←
    readFile join "generated actions" "actions-generated.yaml" files.actionsGenerated
  let actions := mergeActions actionsManual actionsGenerated
  let permissions ← readFile join "permissions" "permissions.yaml" files.permissions
  validatePermissions permissions actions
  let roles ← readFile join "roles" "roles.yaml" files.roles
  roles.roles.foldlM (fun roleActionMap role => do
    let granted ← permissionGrantedActions (permissionMap permissions) role
    return roleActionMap.insert role.id (.newActions granted.actions)) ∅

/-- `ListActions`. -/
def listActions (roleActionMap : AList fun _ : String => Actions) (roles : List String) :
    Except SignareError Actions :=
  if roles.length < 1 then .error (invalidArgument "no 'Roles' provided")
  else
    roles.foldlM (fun actions role =>
      match roleActionMap.lookup role with
      | none => .error (invalidArgument ("role " ++ role ++ " does not exist"))
      | some acts => .ok (actions.merge acts)) (.newActions [])

theorem missingAction_eq_none {actions : List String} {permissions : List Permission} :
    missingAction actions permissions = none ↔
      ∀ permission ∈ permissions, ∀ action ∈ permission.actions, action ∈ actions := by
  induction permissions with
  | nil => exact iff_of_true rfl (List.forall_mem_nil _)
  | cons permission permissions ih =>
    rw [missingAction, List.forall_mem_cons]
    cases hfind : permission.actions.find? (· ∉ actions) with
    | some action =>
      have haction : action ∉ actions := by simpa using List.find?_some hfind
      constructor
      · intro h
        cases h
      · intro h
        exact absurd (h.1 action (List.mem_of_find?_eq_some hfind)) haction
    | none =>
      have hall : ∀ action ∈ permission.actions, action ∈ actions := by
        simpa using List.find?_eq_none.mp hfind
      rw [ih]
      constructor
      · intro h
        exact ⟨hall, h⟩
      · intro h
        exact h.2

section Load

variable (permissions : AList fun _ : String => List String)

/-- All permissions of the role exist. -/
def Defined (role : Role) : Prop :=
  ∀ permission ∈ role.permissions, (permissions.lookup permission).isSome

def grantedActions (role : Role) : List String :=
  (role.permissions.filterMap permissions.lookup).flatten

/-- The map that is built where all permissions of all roles exist. -/
def roleActionMap (roles : List Role) : AList fun _ : String => Actions :=
  roles.foldl (fun m role => m.insert role.id (.newActions (grantedActions permissions role))) ∅

variable {permissions} {role : Role} {action roleID : String}

theorem mem_grantedActions : action ∈ grantedActions permissions role ↔
    ∃ permission ∈ role.permissions, ∃ actions, permissions.lookup permission = some actions ∧
      action ∈ actions := by
  unfold grantedActions
  rw [List.mem_flatten]
  constructor
  · intro h
    obtain ⟨actions, hactions, haction⟩ := h
    obtain ⟨permission, hpermission, hlookup⟩ := List.mem_filterMap.mp hactions
    exact ⟨permission, hpermission, actions, hlookup, haction⟩
  · intro h
    obtain ⟨permission, hpermission, actions, hlookup, haction⟩ := h
    exact ⟨actions, List.mem_filterMap.mpr ⟨permission, hpermission, hlookup⟩, haction⟩

theorem permissionGrantedActions_eq_ok {granted : ActionCollection} :
    permissionGrantedActions permissions role = .ok granted ↔
      Defined permissions role ∧ granted = ⟨grantedActions permissions role⟩ := by
  have hmerge (acc : List String) (ls : List (List String)) :
      ls.foldl (fun granted actions => mergeActions granted ⟨actions⟩) ⟨acc⟩ =
        (⟨acc ++ ls.flatten⟩ : ActionCollection) := by
    induction ls generalizing acc with
    | nil => simp
    | cons l ls ih => rw [List.foldl_cons, mergeActions, ih, List.flatten_cons, List.append_assoc]
  have hfold : (role.permissions.filterMap permissions.lookup).foldl
      (fun granted actions => mergeActions granted ⟨actions⟩) ⟨[]⟩ =
        (⟨grantedActions permissions role⟩ : ActionCollection) := hmerge [] _
  rw [← hfold]
  apply AList.foldlM_lookup_eq_ok
    (fun permission => internal (danglingPermission role.id permission))
    (fun granted actions => mergeActions granted ⟨actions⟩)
  · intro granted permission hlookup
    simp only [hlookup]
  · intro granted permission actions hlookup
    simp only [hlookup]

theorem lookup_roleActionMap (roles : List Role) :
    (roleActionMap permissions roles).lookup roleID =
      (roles.reverse.find? fun role => role.id = roleID).map fun role =>
        .newActions (grantedActions permissions role) :=
  AList.lookup_foldl_insert

theorem lookup_permissionMap (collection : PermissionCollection) (permissionID : String) :
    (permissionMap collection).lookup permissionID =
      (collection.permissions.reverse.find? fun p => p.id = permissionID).map
        Permission.actions :=
  AList.lookup_foldl_insert

end Load

/-- What is loaded from files that are accepted. -/
theorem exists_of_loadRolesAndActions {join : String → String} {files : Files}
    {m : AList fun _ : String => Actions} (h : loadRolesAndActions join files = .ok m) :
    ∃ roles permissions, files.roles = .ok roles ∧ files.permissions = .ok permissions ∧
      m = roleActionMap (permissionMap permissions) roles.roles := by
  have hread {α : Type} {kind name : String} {file : Except FileError α} {content : α}
      (hfile : readFile join kind name file = .ok content) : file = .ok content := by
    cases file with
    | ok content' => simpa [readFile] using hfile
    | error err =>
      cases err with
      | notRead => simp [readFile] at hfile
      | notUnmarshalled => simp [readFile] at hfile
  simp only [loadRolesAndActions, Except.bind_eq_ok] at h
  obtain ⟨_, -, _, -, permissions, hpermissions, _, -, roles, hroles, hfold⟩ := h
  refine ⟨roles, permissions, hread hroles, hread hpermissions, ?_⟩
  apply Except.foldl_of_foldlM_eq_ok _ hfold
  intro role m m' hstep
  obtain ⟨granted, hgranted, hm'⟩ := Except.bind_eq_ok.mp hstep
  obtain ⟨-, rfl⟩ := permissionGrantedActions_eq_ok.mp hgranted
  exact (Except.pure_eq_ok.mp hm').symm

/-- Of roles that are all known, the actions that one of them is granted are allowed. -/
theorem listActions_eq_ok {m : AList fun _ : String => Actions} {roles : List String}
    {actions : Actions} (h : listActions m roles = .ok actions) :
    (∀ role ∈ roles, (m.lookup role).isSome) ∧ ∀ action ∈ actions.actionSet,
      ∃ role ∈ roles, ∃ granted, m.lookup role = some granted ∧ action ∈ granted.actionSet := by
  have hmerge (granted : List Actions) (acc : Actions) (action : String)
      (haction : action ∈ (granted.foldl Actions.merge acc).actionSet) :
      action ∈ acc.actionSet ∨ ∃ acts ∈ granted, action ∈ acts.actionSet := by
    induction granted generalizing acc with
    | nil => exact .inl haction
    | cons acts granted ih =>
      cases ih (acc.merge acts) haction with
      | inl hmem =>
        cases Finset.mem_union.mp hmem with
        | inl hmem => exact .inl hmem
        | inr hmem => exact .inr ⟨acts, List.mem_cons_self, hmem⟩
      | inr hmem =>
        obtain ⟨acts', hacts', hmem⟩ := hmem
        exact .inr ⟨acts', List.mem_cons_of_mem acts hacts', hmem⟩
  unfold listActions at h
  split at h
  · cases h
  · have hfold := (AList.foldlM_lookup_eq_ok (m := m)
      (fun role => invalidArgument ("role " ++ role ++ " does not exist")) Actions.merge
      (fun actions role hlookup => by simp only [hlookup])
      (fun actions role acts hlookup => by simp only [hlookup])).mp h
    obtain ⟨hknown, rfl⟩ := hfold
    refine ⟨hknown, fun action haction => ?_⟩
    cases hmerge _ _ action haction with
    | inl hmem => exact absurd hmem (Finset.notMem_empty action)
    | inr hmem =>
      obtain ⟨granted, hgranted, hmem⟩ := hmem
      obtain ⟨role, hrole, hlookup⟩ := List.mem_filterMap.mp hgranted
      exact ⟨role, hrole, granted, hlookup, hmem⟩

/-- The files are loaded where permissions and roles point to what exists. -/
theorem loadRolesAndActions_eq_ok (join : String → String) {files : Files}
    {roles : RoleCollection} {permissions : PermissionCollection}
    {actionsManual actionsGenerated : ActionCollection} (hroles : files.roles = .ok roles)
    (hpermissions : files.permissions = .ok permissions)
    (hmanual : files.actionsManual = .ok actionsManual)
    (hgenerated : files.actionsGenerated = .ok actionsGenerated)
    (hactions : ∀ permission ∈ permissions.permissions, ∀ action ∈ permission.actions,
      action ∈ actionsManual.actions ++ actionsGenerated.actions)
    (hdefined : ∀ role ∈ roles.roles, Defined (permissionMap permissions) role) :
    loadRolesAndActions join files = .ok (roleActionMap (permissionMap permissions) roles.roles) := by
  have hvalid : validatePermissions permissions (mergeActions actionsManual actionsGenerated) =
      .ok () := by
    have hnone : missingAction (mergeActions actionsManual actionsGenerated).actions
        permissions.permissions = none := missingAction_eq_none.mpr hactions
    unfold validatePermissions
    rw [hnone]
  unfold loadRolesAndActions
  rw [hroles, hpermissions, hmanual, hgenerated]
  simp only [readFile, Except.ok_bind, hvalid]
  apply Except.foldlM_eq_ok
  intro role hrole m
  rw [permissionGrantedActions_eq_ok.mpr ⟨hdefined role hrole, rfl⟩]
  rfl

end PipInFile

end Signare
