import Signare.Authorization.PipInFile

/-!
# The validator of the files

A tool reads the files of the server and the operation ids of its API, and checks that they fit
together. It looks at all entries of a role, of which the server keeps the last.
-/

namespace Signare

namespace RbacValidator

open Rbac PipInFile

/-- The actions of both, but for those to exclude. -/
def mergeActions (actionsOne actionsTwo : ActionCollection) (actionsToExclude : List String) :
    ActionCollection :=
  ⟨(actionsOne.actions ++ actionsTwo.actions).filter (· ∉ actionsToExclude)⟩

/-- All operation ids of the specifications, but for those to exclude. -/
def getOperationIds (operationIds operationIdExclusions : List String) : List String :=
  operationIds.filter (· ∉ operationIdExclusions)

def validatePermissions (permissions : PermissionCollection) (actions : ActionCollection) :
    Except String Unit :=
  match missingAction actions.actions permissions.permissions with
  | some missing => .error (danglingAction missing.1 missing.2)
  | none => .ok ()

/-- The first permission of a role that does not exist. -/
def missingPermission (permissions : List String) : List Role → Option (String × String)
  | [] => none
  | role :: roles =>
    match role.permissions.find? (· ∉ permissions) with
    | some permission => some (role.id, permission)
    | none => missingPermission permissions roles

def validateRoles (roles : RoleCollection) (permissions : PermissionCollection) :
    Except String Unit :=
  match missingPermission (permissions.permissions.map Permission.id) roles.roles with
  | some missing => .error (danglingPermission missing.1 missing.2)
  | none => .ok ()

/-- The items that come again, in the order they do; the order of a map is not promised. -/
def repeatedItems (seen : List String) : List String → List String
  | [] => []
  | item :: items =>
    if item ∈ seen then item :: (repeatedItems seen items).erase item
    else repeatedItems (item :: seen) items

def checkActionsAndOperationIDs (actions operationIDs : List String) : Except String Unit :=
  let repeatedActions := repeatedItems [] actions
  let repeatedOperationIDs := repeatedItems [] operationIDs
  let unmappedActions := actions.filter (· ∉ operationIDs)
  let unmappedOperationIDs := operationIDs.filter (· ∉ actions)
  if repeatedActions ≠ [] then
    .error ("actions '" ++ ",".intercalate repeatedActions ++ "' are repeated\n")
  else if repeatedOperationIDs ≠ [] then
    .error ("operationIDs '" ++ ",".intercalate repeatedOperationIDs ++ "' are repeated\n")
  else if unmappedActions ≠ [] then
    .error ("actions '" ++ ",".intercalate unmappedActions ++
      "' are not mapped to any operationID\n")
  else if unmappedOperationIDs ≠ [] then
    .error ("operationIDs '" ++ ",".intercalate unmappedOperationIDs ++
      "' are not mapped to any action\n")
  else .ok ()

def checkOrphanedActions (actions rolesActions : List String) : Except String Unit :=
  let orphanActions := actions.filter (· ∉ rolesActions)
  if orphanActions ≠ [] then
    .error ("actions [" ++ " ".intercalate orphanActions ++ "] are not assigned to any role")
  else .ok ()

def fileErrorText : FileError → String
  | .notRead err => err
  | .notUnmarshalled err => err

def readActions (actionsToExclude : List String) (actions : ActionCollection) :
    List (Except FileError ActionCollection) → Except String ActionCollection
  | [] => .ok actions
  | actionsFile :: actionsFiles => do
    let actionsFromFile ← actionsFile.mapError fileErrorText
    readActions actionsToExclude (mergeActions actions actionsFromFile actionsToExclude) actionsFiles

/-- The inner loop: the actions of the permissions of an entry are added. -/
def pointedByRole (permissions : AList fun _ : String => List String) (pointed : List String)
    (role : Role) : Except String (List String) :=
  role.permissions.foldlM (fun pointed permission =>
    match permissions.lookup permission with
    | none => .error (danglingPermission role.id permission)
    | some actionsForPermission => .ok (pointed ++ actionsForPermission)) pointed

/-- The actions that any entry of any role points to. -/
def actionsPointedByRoles (permissions : AList fun _ : String => List String)
    (roles : List Role) : Except String (List String) :=
  roles.foldlM (pointedByRole permissions) []

/-- What the flags of the command name, their lists split at the commas: the operation ids of the
specifications, the exclusions and the inclusions, and the files. -/
structure Flags where
  /-- The operation ids of all operations, or an error of loading the specifications. -/
  specOperationIds : Except String (List String)
  operationIdExclusions : List String
  operationIdInclusions : List String
  roles : Except FileError RoleCollection
  permissions : Except FileError PermissionCollection
  actionsFiles : List (Except FileError ActionCollection)

def Flags.operationIds (flags : Flags) : Except String (List String) :=
  flags.specOperationIds.map fun operationIds =>
    getOperationIds operationIds flags.operationIdExclusions ++ flags.operationIdInclusions

def executeCmd (flags : Flags) : Except String Unit := do
  let operationIds ← flags.operationIds
  let actions ← readActions flags.operationIdExclusions ⟨[]⟩ flags.actionsFiles
  let permissions ← flags.permissions.mapError fileErrorText
  let roles ← flags.roles.mapError fileErrorText
  let pointed ← actionsPointedByRoles (permissionMap permissions) roles.roles
  checkActionsAndOperationIDs actions.actions operationIds
  validatePermissions permissions actions
  validateRoles roles permissions
  checkOrphanedActions actions.actions pointed

section Accepted

variable {permissions : AList fun _ : String => List String} {roles : List Role}

theorem pointedByRole_eq_ok {acc pointed : List String} {role : Role} :
    pointedByRole permissions acc role = .ok pointed ↔
      Defined permissions role ∧ pointed = acc ++ grantedActions permissions role := by
  have hflatten (acc : List String) (ls : List (List String)) :
      ls.foldl (fun pointed actions => pointed ++ actions) acc = acc ++ ls.flatten := by
    induction ls generalizing acc with
    | nil => simp
    | cons l ls ih => rw [List.foldl_cons, ih, List.flatten_cons, List.append_assoc]
  unfold Defined grantedActions
  rw [← hflatten]
  refine AList.foldlM_lookup_eq_ok (danglingPermission role.id)
    (fun pointed actions => pointed ++ actions) ?_ ?_
  · intro pointed permission hlookup
    simp only [hlookup]
  · intro pointed permission actions hlookup
    simp only [hlookup]

theorem pointed_of_foldlM {acc pointed : List String}
    (h : roles.foldlM (pointedByRole permissions) acc = .ok pointed) :
    (∀ role ∈ roles, Defined permissions role) ∧ ∀ action, action ∈ pointed ↔
      action ∈ acc ∨ ∃ role ∈ roles, action ∈ grantedActions permissions role := by
  induction roles generalizing acc with
  | nil =>
    cases h
    exact ⟨List.forall_mem_nil _, fun action => by simp⟩
  | cons role roles ih =>
    rw [List.foldlM_cons, Except.bind_eq_ok] at h
    obtain ⟨next, hnext, hrest⟩ := h
    obtain ⟨hdefined, rfl⟩ := pointedByRole_eq_ok.mp hnext
    obtain ⟨hall, hmem⟩ := ih hrest
    refine ⟨List.forall_mem_cons.mpr ⟨hdefined, hall⟩, fun action => ?_⟩
    rw [hmem, List.mem_append, or_assoc]
    simp

theorem filter_notMem_eq_nil {items others : List String} :
    items.filter (· ∉ others) = [] ↔ ∀ item ∈ items, item ∈ others := by
  rw [List.filter_eq_nil_iff]
  simp

theorem subset_of_checkActionsAndOperationIDs {actions operationIDs : List String}
    (h : checkActionsAndOperationIDs actions operationIDs = .ok ()) :
    ∀ action ∈ actions, action ∈ operationIDs := by
  rw [← filter_notMem_eq_nil]
  by_contra hunmapped
  unfold checkActionsAndOperationIDs at h
  dsimp only at h
  split at h
  · cases h
  · split at h
    · cases h
    · cases h

theorem subset_of_checkOrphanedActions {actions rolesActions : List String}
    (h : checkOrphanedActions actions rolesActions = .ok ()) :
    ∀ action ∈ actions, action ∈ rolesActions := by
  rw [← filter_notMem_eq_nil]
  by_contra horphan
  cases (if_pos horphan).symm.trans h

theorem exists_of_validatePermissions {permissions : PermissionCollection}
    {actions : ActionCollection} (h : validatePermissions permissions actions = .ok ()) :
    ∀ permission ∈ permissions.permissions, ∀ action ∈ permission.actions,
      action ∈ actions.actions := by
  apply missingAction_eq_none.mp
  unfold validatePermissions at h
  split at h
  · cases h
  · assumption

theorem readActions_eq_ok {exclusions : List String} {actions result : ActionCollection}
    {actionsFiles : List (Except FileError ActionCollection)}
    (h : readActions exclusions actions actionsFiles = .ok result)
    (hactions : ∀ action ∈ actions.actions, action ∉ exclusions) :
    ∃ contents : List ActionCollection, actionsFiles = contents.map .ok ∧
      ∀ action, action ∈ result.actions ↔
        (action ∈ actions.actions ∨ ∃ content ∈ contents, action ∈ content.actions) ∧
          action ∉ exclusions := by
  induction actionsFiles generalizing actions with
  | nil =>
    cases h
    refine ⟨[], rfl, fun action => ?_⟩
    constructor
    · intro haction
      exact ⟨.inl haction, hactions action haction⟩
    · intro haction
      cases haction.1 with
      | inl hmem => exact hmem
      | inr hnone => simp at hnone
  | cons actionsFile actionsFiles ih =>
    rw [readActions, Except.bind_eq_ok] at h
    obtain ⟨content, hcontent, hrest⟩ := h
    rw [Except.mapError_eq_ok] at hcontent
    have hmerged : ∀ action ∈ (mergeActions actions content exclusions).actions,
        action ∉ exclusions := by
      intro action haction
      simpa using (List.mem_filter.mp haction).2
    obtain ⟨contents, hfiles, hmem⟩ := ih hrest hmerged
    refine ⟨content :: contents, by rw [hcontent, hfiles, List.map_cons], fun action => ?_⟩
    rw [hmem]
    simp only [mergeActions, List.mem_filter, List.mem_append, decide_not, Bool.not_eq_true',
      decide_eq_false_iff_not, List.exists_mem_cons_iff]
    tauto

end Accepted

/-- The tool and the server are given the same files. -/
structure Flags.Reads (flags : Flags) (files : Files) : Prop where
  roles : flags.roles = files.roles
  permissions : flags.permissions = files.permissions
  actionsFiles : flags.actionsFiles.Perm [files.actionsManual, files.actionsGenerated]

/-- What four files that can be read hold. -/
structure Content where
  roles : RoleCollection
  permissions : PermissionCollection
  actionsManual : ActionCollection
  actionsGenerated : ActionCollection

namespace Content

def files (content : Content) : Files :=
  ⟨.ok content.roles, .ok content.permissions, .ok content.actionsManual,
    .ok content.actionsGenerated⟩

def actions (content : Content) : List String :=
  content.actionsManual.actions ++ content.actionsGenerated.actions

/-- The files list an action for a role: some entry of the role has a permission, some entry of
which has the action. -/
def Lists (content : Content) (roleID action : String) : Prop :=
  ∃ role ∈ content.roles.roles, role.id = roleID ∧
    ∃ permission ∈ content.permissions.permissions, permission.id ∈ role.permissions ∧
      action ∈ permission.actions

/-- So do the last entry of the role and the last entry of the permission. -/
def ListsLast (content : Content) (roleID action : String) : Prop :=
  ∃ role, content.roles.roles.reverse.find? (fun role => role.id = roleID) = some role ∧
    ∃ permissionID ∈ role.permissions, ∃ permission,
      content.permissions.permissions.reverse.find? (fun p => p.id = permissionID) =
        some permission ∧ action ∈ permission.actions

/-- No action is listed for a role in overridden entries only. -/
def NothingOverridden (content : Content) : Prop :=
  ∀ roleID action, content.Lists roleID action → content.ListsLast roleID action

/-- The server loads the files. Every action that is not excluded is granted to a role, every action
that is granted is an operation id, and a role is granted just what the files list for it. -/
def Holds (content : Content) (join : String → String) (flags : Flags) : Prop :=
  ∃ operationIds roleActionMap, flags.operationIds = .ok operationIds ∧
    loadRolesAndActions join content.files = .ok roleActionMap ∧
    (∀ action ∈ content.actions, action ∉ flags.operationIdExclusions →
      ∃ roleID granted, roleActionMap.lookup roleID = some granted ∧
        action ∈ granted.actionSet) ∧
    (∀ roleID granted, roleActionMap.lookup roleID = some granted →
      ∀ action ∈ granted.actionSet, action ∈ operationIds) ∧
    ∀ roleID, ((roleActionMap.lookup roleID).isSome ↔
        ∃ role ∈ content.roles.roles, role.id = roleID) ∧
      ∀ granted, roleActionMap.lookup roleID = some granted →
        ∀ action, action ∈ granted.actionSet ↔ content.Lists roleID action

variable {content : Content} {roleID action : String}

theorem mem_grantedActions_iff {role : Role} :
    action ∈ grantedActions (permissionMap content.permissions) role ↔
      ∃ permissionID ∈ role.permissions, ∃ permission,
        content.permissions.permissions.reverse.find? (fun p => p.id = permissionID) =
          some permission ∧ action ∈ permission.actions := by
  rw [mem_grantedActions]
  constructor
  · intro h
    obtain ⟨permissionID, hpermission, actions, hlookup, haction⟩ := h
    rw [lookup_permissionMap, Option.map_eq_some_iff] at hlookup
    obtain ⟨permission, hfind, rfl⟩ := hlookup
    exact ⟨permissionID, hpermission, permission, hfind, haction⟩
  · intro h
    obtain ⟨permissionID, hpermission, permission, hfind, haction⟩ := h
    refine ⟨permissionID, hpermission, permission.actions, ?_, haction⟩
    rw [lookup_permissionMap, hfind]
    rfl

theorem ListsLast.lists (h : content.ListsLast roleID action) : content.Lists roleID action := by
  obtain ⟨role, hrole, permissionID, hpermission, permission, hfind, haction⟩ := h
  have hroleID : role.id = roleID := by simpa using List.find?_some hrole
  have hpermissionID : permission.id = permissionID := by simpa using List.find?_some hfind
  exact ⟨role, List.mem_reverse.mp (List.mem_of_find?_eq_some hrole), hroleID, permission,
    List.mem_reverse.mp (List.mem_of_find?_eq_some hfind), hpermissionID ▸ hpermission, haction⟩

theorem mem_actionSet_iff {granted : Actions}
    (h : (roleActionMap (permissionMap content.permissions) content.roles.roles).lookup roleID =
      some granted) : action ∈ granted.actionSet ↔ content.ListsLast roleID action := by
  rw [lookup_roleActionMap, Option.map_eq_some_iff] at h
  obtain ⟨role, hrole, rfl⟩ := h
  have hmem : action ∈ (Actions.newActions
      (grantedActions (permissionMap content.permissions) role)).actionSet ↔
        action ∈ grantedActions (permissionMap content.permissions) role := List.mem_toFinset
  rw [hmem, mem_grantedActions_iff]
  constructor
  · intro hgranted
    exact ⟨role, hrole, hgranted⟩
  · intro hlast
    obtain ⟨role', hrole', hgranted⟩ := hlast
    cases hrole.symm.trans hrole'
    exact hgranted

theorem isSome_lookup_iff :
    ((roleActionMap (permissionMap content.permissions) content.roles.roles).lookup roleID).isSome ↔
      ∃ role ∈ content.roles.roles, role.id = roleID := by
  rw [lookup_roleActionMap, Option.isSome_map, List.find?_isSome]
  simp

end Content

theorem exists_content {flags : Flags} {files : Files} (hsame : flags.Reads files)
    (haccept : executeCmd flags = .ok ()) :
    ∃ (content : Content) (operationIds : List String), files = content.files ∧
      flags.operationIds = .ok operationIds ∧
      (∀ role ∈ content.roles.roles, Defined (permissionMap content.permissions) role) ∧
      (∀ permission ∈ content.permissions.permissions, ∀ action ∈ permission.actions,
        action ∈ content.actions ∧ action ∈ operationIds) ∧
      ∀ action ∈ content.actions, action ∉ flags.operationIdExclusions →
        ∃ role ∈ content.roles.roles,
          action ∈ grantedActions (permissionMap content.permissions) role := by
  simp only [executeCmd, Except.bind_eq_ok, Except.mapError_eq_ok] at haccept
  obtain ⟨operationIds, hids, actions, hactions, permissions, hpermissions, roles, hroles, pointed,
    hpointed, ⟨⟩, hmapped, ⟨⟩, hexist, ⟨⟩, -, horphaned⟩ := haccept
  obtain ⟨contents, hcontents, hmem⟩ := readActions_eq_ok hactions (List.forall_mem_nil _)
  obtain ⟨hdefined, hgranted⟩ := pointed_of_foldlM hpointed
  have hperm : (contents.map (Except.ok : ActionCollection → Except FileError _)).Perm
      [files.actionsManual, files.actionsGenerated] := hcontents ▸ hsame.actionsFiles
  have hread {file : Except FileError ActionCollection}
      (hfile : file ∈ [files.actionsManual, files.actionsGenerated]) :
      ∃ content ∈ contents, .ok content = file := List.mem_map.mp (hperm.mem_iff.mpr hfile)
  obtain ⟨manual, -, hmanual⟩ := hread List.mem_cons_self
  obtain ⟨generated, -, hgenerated⟩ := hread (List.mem_cons_of_mem _ List.mem_cons_self)
  have hboth : contents.Perm [manual, generated] := by
    rw [← hmanual, ← hgenerated] at hperm
    have hinjective : Function.Injective (Except.ok : ActionCollection → Except FileError _) :=
      fun _ _ => Except.ok.inj
    exact (List.map_perm_map_iff hinjective).mp hperm
  have hfile (action : String) : action ∈ actions.actions ↔
      action ∈ manual.actions ++ generated.actions ∧ action ∉ flags.operationIdExclusions := by
    rw [hmem]
    refine and_congr_left fun _ => ?_
    simp [hboth.mem_iff]
  refine ⟨⟨roles, permissions, manual, generated⟩, operationIds, ?_, hids, hdefined, ?_, ?_⟩
  · have hfileRoles : files.roles = .ok roles := hsame.roles.symm.trans hroles
    have hfilePermissions : files.permissions = .ok permissions :=
      hsame.permissions.symm.trans hpermissions
    cases files
    rw [Content.files, Files.mk.injEq]
    exact ⟨hfileRoles, hfilePermissions, hmanual.symm, hgenerated.symm⟩
  · intro permission hpermission action haction
    have hvalid := exists_of_validatePermissions hexist permission hpermission action haction
    exact ⟨((hfile action).mp hvalid).1,
      subset_of_checkActionsAndOperationIDs hmapped action hvalid⟩
  · intro action haction hincluded
    have hpointed := subset_of_checkOrphanedActions horphaned action
      ((hfile action).mpr ⟨haction, hincluded⟩)
    simpa using (hgranted action).mp hpointed

namespace Content

variable {content : Content}

theorem lists_of_mem_grantedActions {role : Role} {action : String}
    (hrole : role ∈ content.roles.roles)
    (h : action ∈ grantedActions (permissionMap content.permissions) role) :
    content.Lists role.id action := by
  obtain ⟨permissionID, hpermission, permission, hfind, haction⟩ := mem_grantedActions_iff.mp h
  have hpermissionID : permission.id = permissionID := by simpa using List.find?_some hfind
  exact ⟨role, hrole, rfl, permission, List.mem_reverse.mp (List.mem_of_find?_eq_some hfind),
    hpermissionID ▸ hpermission, haction⟩

theorem Lists.exists_granted {roleID action : String} (h : content.Lists roleID action) :
    ∃ granted, (roleActionMap (permissionMap content.permissions) content.roles.roles).lookup
      roleID = some granted := by
  obtain ⟨role, hrole, hroleID, -⟩ := h
  exact Option.isSome_iff_exists.mp (isSome_lookup_iff.mpr ⟨role, hrole, hroleID⟩)

end Content

/-- What the tool accepts is so in the server if and only if no action is listed for a role only in
entries that later ones override. -/
theorem accepted_holds_iff (join : String → String) {flags : Flags} {files : Files}
    (hsame : flags.Reads files) (haccept : executeCmd flags = .ok ()) :
    ∃ content : Content, files = content.files ∧
      (content.Holds join flags ↔ content.NothingOverridden) := by
  obtain ⟨content, operationIds, hfiles, hids, hdefined, hactions, hgranted⟩ :=
    exists_content hsame haccept
  have hload : loadRolesAndActions join content.files =
      .ok (roleActionMap (permissionMap content.permissions) content.roles.roles) :=
    loadRolesAndActions_eq_ok join rfl rfl rfl rfl
      (fun permission hpermission action haction =>
        (hactions permission hpermission action haction).1) hdefined
  refine ⟨content, hfiles, ?_⟩
  constructor
  · intro h roleID action hlists
    obtain ⟨_, roleActions, -, hload', -, -, hexact⟩ := h
    cases hload.symm.trans hload'
    obtain ⟨granted, hlookup⟩ := hlists.exists_granted
    exact (Content.mem_actionSet_iff hlookup).mp
      (((hexact roleID).2 granted hlookup action).mpr hlists)
  · intro h
    refine ⟨operationIds, _, hids, hload, ?_, ?_, fun roleID => ⟨Content.isSome_lookup_iff, ?_⟩⟩
    · intro action haction hincluded
      obtain ⟨role, hrole, hmem⟩ := hgranted action haction hincluded
      have hlists := Content.lists_of_mem_grantedActions hrole hmem
      obtain ⟨granted, hlookup⟩ := hlists.exists_granted
      exact ⟨role.id, granted, hlookup,
        (Content.mem_actionSet_iff hlookup).mpr (h role.id action hlists)⟩
    · intro roleID granted hlookup action haction
      obtain ⟨_, _, _, permission, hpermission, _, hlisted⟩ :=
        ((Content.mem_actionSet_iff hlookup).mp haction).lists
      exact (hactions permission hpermission action hlisted).2
    · intro granted hlookup action
      rw [Content.mem_actionSet_iff hlookup]
      exact ⟨Content.ListsLast.lists, h roleID action⟩

def twoActions : Content where
  roles := ⟨[⟨"signer", ["sign"]⟩, ⟨"reader", ["read"]⟩]⟩
  permissions := ⟨[⟨"sign", ["rpc.sign"]⟩, ⟨"read", ["rpc.accounts"]⟩]⟩
  actionsManual := ⟨["rpc.sign"]⟩
  actionsGenerated := ⟨["rpc.accounts"]⟩

/-- The same, with both entries for one role. -/
def oneRoleTwice : Content :=
  { twoActions with roles := ⟨[⟨"signer", ["sign"]⟩, ⟨"signer", ["read"]⟩]⟩ }

/-- The flags that name the files, one operation id being included by hand. -/
def Content.flags (content : Content) : Flags where
  specOperationIds := .ok ["rpc.accounts"]
  operationIdExclusions := [""]
  operationIdInclusions := ["rpc.sign"]
  roles := .ok content.roles
  permissions := .ok content.permissions
  actionsFiles := [.ok content.actionsGenerated, .ok content.actionsManual]

theorem Content.flags_reads (content : Content) : content.flags.Reads content.files :=
  ⟨rfl, rfl, .swap ..⟩

theorem accepted_holds_iff_twoActions :
    ∃ content : Content, twoActions.files = content.files ∧
      (content.Holds ("include/rbac/" ++ ·) twoActions.flags ↔ content.NothingOverridden) :=
  accepted_holds_iff ("include/rbac/" ++ ·) twoActions.flags_reads (by decide)

/-- The tool accepts the files, and the server grants nobody the action of the first entry. -/
theorem accepted_not_granted :
    executeCmd oneRoleTwice.flags = .ok () ∧
      ∃ roleActionMap,
        loadRolesAndActions ("include/rbac/" ++ ·) oneRoleTwice.files = .ok roleActionMap ∧
        "rpc.sign" ∈ oneRoleTwice.actions ∧ oneRoleTwice.Lists "signer" "rpc.sign" ∧
        ∀ roleID granted, roleActionMap.lookup roleID = some granted →
          "rpc.sign" ∉ granted.actionSet := by
  refine ⟨by decide, roleActionMap (permissionMap oneRoleTwice.permissions)
    oneRoleTwice.roles.roles, rfl, by decide, ?_, ?_⟩
  · exact ⟨_, List.mem_cons_self, rfl, _, List.mem_cons_self, by decide, by decide⟩
  · intro roleID granted hlookup haction
    obtain ⟨role, hrole, permissionID, hpermission, permission, hfind, hlisted⟩ :=
      (Content.mem_actionSet_iff hlookup).mp haction
    by_cases hroleID : "signer" = roleID
    · subst hroleID
      cases hrole
      cases List.mem_singleton.mp hpermission
      cases hfind
      exact absurd hlisted (by decide)
    · have hnone : oneRoleTwice.roles.roles.reverse.find? (fun role => role.id = roleID) = none := by
        simp [oneRoleTwice, hroleID]
      cases hnone.symm.trans hrole

end RbacValidator

end Signare
