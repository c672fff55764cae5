import Signare.Authorization.PolicyDecision
import Signare.Concurrent.Admins
import Signare.Lib.Answering
import Signare.RpcInfra.Requests

/-!
# Requests up to their handler

A request passes one check after the other before a handler is called: for an action, a user and an
application in its context, for the application of its path, and for what its user may do.
-/

namespace Signare

open ByteCodec Interleaving Rbac

namespace Mediation

inductive HTTPErrorStatus
  | invalidArgument
  | permissionDenied
  | notFound
  deriving DecidableEq

/-- What a client is told. The original error is only logged. -/
structure HTTPError where
  status : HTTPErrorStatus
  message : String
  deriving DecidableEq

def newForbiddenHTTPError : HTTPError := ⟨.permissionDenied, "request not authorized"⟩

/-- What a request comes to: an error, or the handler of an action. -/
abbrev Response := Except HTTPError String

def validateAction (action : String) : Except HTTPError Unit :=
  if action = "" then .error ⟨.permissionDenied, "the action can't be empty"⟩ else .ok ()

def validateUser (user : String) : Except HTTPError Unit :=
  if user = "" then .error ⟨.permissionDenied, "the user can't be empty"⟩ else .ok ()

/-- Without an application in the context the user may be an admin. -/
def validateApplication (application : Option String) (applicationPathParam : String) :
    Except HTTPError Unit :=
  if application = none ∨ applicationPathParam = "" then .ok ()
  else if application = some applicationPathParam then .ok ()
  else .error newForbiddenHTTPError

/-- What the chains of HTTP and RPC requests have in common, from the action on. -/
def authorized (roleActionMap : AList fun _ : String => Actions) (user action : String)
    (application : Option String) (applicationPathParam : String)
    (next : UseCase Response) : UseCase Response :=
  match validateAction action *> validateUser user *>
      validateApplication application applicationPathParam with
  | .error err => return .error err
  | .ok _ => do
    match ← (authorizeUser roleActionMap user application action).attempt with
    | .error _ => return .error newForbiddenHTTPError
    | .ok _ => next

/-- A route that was matched: its name, and the application in its path, empty where it has none. -/
structure HTTPRoute where
  action : String
  applicationId : String

/-- A request for a route, or to the RPC entry point. -/
inductive HTTPRequest
  | http (route : HTTPRoute)
  | rpc (body : JsonText)

/-- The application in the path. That of the RPC entry point has none. -/
def HTTPRequest.applicationPathParam : HTTPRequest → String
  | .http route => route.applicationId
  | .rpc _ => ""

variable (keccak : Hash256) (roleActionMap : AList fun _ : String => Actions)
  (headers : RequestHeaders)

def serveHTTP (route : HTTPRoute) : UseCase Response :=
  authorized roleActionMap headers.definedUser route.action headers.contextApplication
    route.applicationId (return .ok route.action)

/-- The methods that are registered. -/
def supportedMethods : List String :=
  [generateAccountMethod, importAccountMethod, removeAccountMethod, listAccountsMethod,
    signTransactionMethod, signTypedDataMethod]

def methodAction (method : String) : String := rpcRoute ++ "." ++ method

def defineRPCAction (body : JsonText) : Except HTTPError String :=
  match unmarshalRPCRequest body with
  | none => .error newForbiddenHTTPError
  | some rpcRequest =>
    if rpcRequest.rpcVersion ≠ supportedRPCVersion then
      .error ⟨.permissionDenied,
        "request parameter [jsonrpc] must be exactly '" ++ supportedRPCVersion ++ "'"⟩
    else if rpcRequest.method ∈ supportedMethods then .ok (methodAction rpcRequest.method)
    else .ok rpcRoute

/-- `AuthorizeAccount`: requests that sign need the account. -/
def accountAuthorized (action : String) (body : JsonText) (next : UseCase Response) :
    UseCase Response :=
  match accountSigningField action with
  | none => next
  | some usesAddressParam =>
    match unmarshalAuthorizeAccountRPCBody body >>= fun b => bodyAddress usesAddressParam b.params with
    | none => return .error ⟨.invalidArgument, ""⟩
    | some addr => do
      match ← (authorizeUserAccount keccak
          ⟨addr, headers.definedUser, headers.definedApplication⟩).attempt with
      | .error _ => return .error newForbiddenHTTPError
      | .ok _ => next

/-- `HandleRPCRequest` reads the body again to find the handler. -/
def calledHandler (body : JsonText) : Response :=
  match unmarshalRPCRequest body with
  | none => .error ⟨.invalidArgument, ""⟩
  | some rpcRequest =>
    if rpcRequest.method ∈ supportedMethods then .ok (methodAction rpcRequest.method)
    else .error ⟨.invalidArgument, ""⟩

/-- A single request, or one of a batch. -/
def serveRPC (body : JsonText) : UseCase Response :=
  match defineRPCAction body with
  | .error err => return .error err
  | .ok action =>
    authorized roleActionMap headers.definedUser action (some headers.definedApplication) ""
      (accountAuthorized keccak headers action body (return calledHandler body))

def serve : HTTPRequest → UseCase Response
  | .http route => serveHTTP roleActionMap headers route
  | .rpc body => serveRPC keccak roleActionMap headers body

inductive UserCall
  | createUser (input : CreateUserInput)
  | editUser (input : EditUserInput)
  | deleteUser (key : ApplicationStandardID)
  | createAdmin (id : String) (description : Option String)
  | editAdmin (input : EditAdminInput)
  | deleteAdmin (id : String)

def UserCall.program (supportedRoles : List Role) : UserCall → UseCase Unit
  | .createUser input => do let _ ← Signare.createUser supportedRoles input
  | .editUser input => do let _ ← Signare.editUser supportedRoles input
  | .deleteUser key => do let _ ← Signare.deleteUser key
  | .createAdmin id description => do let _ ← Signare.createAdmin id description
  | .editAdmin input => do let _ ← Signare.editAdmin input
  | .deleteAdmin id => do let _ ← Signare.deleteAdmin id

/-- Application users hold only roles that may be assigned to them. -/
def UsersScoped (files : ServerFiles) (db : Database) : Prop :=
  ∀ user ∈ db .user, ∀ roleID ∈ UserRow.roles user, files.ApplicationScoped roleID

/-- Whose role lets a handler be called. -/
inductive Mediated (files : ServerFiles) (db : Database) (headers : RequestHeaders)
    (request : HTTPRequest) (action : String) : Prop
  | admin (hblank : headers.definedApplication = "") (admin : AdminRow)
      (hadmin : admin ∈ db .admin) (hid : admin.id = headers.definedUser)
      (hknown : ∀ roleID ∈ admin.roles, files.Knows roleID)
      (hgrants : ∃ roleID ∈ admin.roles, files.Grants roleID action)
  | user (hnamed : headers.definedApplication ≠ "")
      (hpath : request.applicationPathParam = "" ∨
        request.applicationPathParam = headers.definedApplication)
      (hnamespace : hasPrefix action adminActionPrefix = false) (user : UserRow)
      (huser : user ∈ db .user)
      (hkey : user.key = ⟨headers.definedUser, headers.definedApplication⟩)
      (hknown : ∀ roleID ∈ user.roles, files.Knows roleID)
      (hgrants : ∃ roleID ∈ user.roles, files.Grants roleID action)

variable {files : ServerFiles} {join : String → String}

/-- The calls outside any transaction that give application users only roles for them. -/
def KeepsScoped (files : ServerFiles) : Effect → Prop
  | .statement (.insert .user row) => ∀ roleID ∈ UserRow.roles row, files.ApplicationScoped roleID
  | .statement (.update .user _ _ assign) =>
    ∀ row, ∀ roleID ∈ UserRow.roles (assign row), files.ApplicationScoped roleID
  | .begin_ | .commit | .rollback => False
  | _ => True

theorem keepsScoped_reads : AllowsReads (KeepsScoped files) :=
  ⟨fun _ _ => trivial, fun _ _ => trivial, fun _ _ _ => trivial⟩

theorem only_unlinked {get : UseCase α} {p : α → UseCase Unit} {id description : α → String}
    {kind : ResourceKind} (hget : get.Only (KeepsScoped files))
    (hp : ∀ a, p a = removeDependencies (id a) kind (description a)) :
    (get >>= p).Only (KeepsScoped files) := by
  apply Program.only_bind hget
  intro a
  rw [hp]
  exact only_removeDependencies trivial trivial trivial

section Only

variable (loaded : LoadedFiles join files)

theorem keepsScoped_createUser (input : CreateUserInput) :
    (createUser (RoleInFile.listRoles loaded.rolesInfo) input).Only (KeepsScoped files) := by
  apply Program.only_bind (only_validateStruct _ _)
  intro _
  apply Program.only_bind (only_orRandomID trivial)
  intro id
  apply only_lift_bind
  intro _ hvalid
  have hscoped := loaded.scoped_of_validate hvalid
  apply Program.only_bind (only_newUUID trivial)
  intro internalResourceId
  apply Program.only_bind
  · apply Program.only_bind (Program.only_orElse (only_getApplication keepsScoped_reads _))
    intro application
    exact only_addDependency keepsScoped_reads trivial fun _ => trivial
  · intro _
    apply Program.only_orElse
    apply only_lift_bind
    intro _ _
    apply Program.only_bind (only_newUUID trivial)
    intro resourceVersion
    exact only_repositoryAdd hscoped trivial

theorem keepsScoped_editUser (input : EditUserInput) :
    (editUser (RoleInFile.listRoles loaded.rolesInfo) input).Only (KeepsScoped files) := by
  apply Program.only_bind (only_validateStruct _ _)
  intro _
  apply Program.only_bind (only_require _ _)
  intro _
  apply only_lift_bind
  intro _ hvalid
  have hscoped := loaded.scoped_of_validate hvalid
  apply Program.only_bind
  · apply Program.only_orElse
    apply only_lift_bind
    intro _ _
    exact only_repositoryEdit keepsScoped_reads trivial fun _ _ => hscoped
  · intro edited
    apply Program.only_bind (Program.only_orElse (only_listAccounts keepsScoped_reads _))
    intro accounts
    trivial

theorem keepsScoped_deleteUser (key : ApplicationStandardID) :
    (deleteUser key).Only (KeepsScoped files) := by
  apply Program.only_bind (only_validateStruct _ _)
  intro _
  apply Program.only_bind (only_unlinked (only_getUser keepsScoped_reads key) fun _ => rfl)
  intro _
  exact Program.only_orElse (only_repositoryRemove trivial trivial)

theorem keepsScoped_createAdmin (id : String) (description : Option String) :
    (createAdmin id description).Only (KeepsScoped files) :=
  (createAdmin_only id description).mono fun s h => by
    have h := h []
    cases s with
    | statement s =>
      cases s with
      | insert t row =>
        cases t with
        | admin => trivial
        | _ => cases h
      | update => cases h
      | _ => trivial
    | newUUID => trivial
    | _ => cases h

theorem keepsScoped_editAdmin (input : EditAdminInput) :
    (editAdmin input).Only (KeepsScoped files) := by
  apply Program.only_bind (only_validateStruct _ _)
  intro _
  apply Program.only_orElse
  apply only_lift_bind
  intro _ _
  exact only_repositoryEdit keepsScoped_reads trivial fun _ => trivial

theorem keepsScoped_deleteAdmin (id : String) : (deleteAdmin id).Only (KeepsScoped files) := by
  apply Program.only_bind (only_validateStruct _ _)
  intro _
  apply Program.only_bind
  · apply Program.only_orElse
    apply Program.only_bind (only_execute trivial)
    intro rows
    trivial
  · intro admins
    split
    · trivial
    · apply Program.only_bind (only_unlinked (only_getAdmin keepsScoped_reads id) fun _ => rfl)
      intro _
      exact Program.only_orElse (only_repositoryRemove trivial trivial)

theorem UserCall.only (call : UserCall) :
    (call.program (RoleInFile.listRoles loaded.rolesInfo)).Only (KeepsScoped files) := by
  have hdiscard {α : Type} {p : UseCase α} (h : p.Only (KeepsScoped files)) :
      (p >>= fun _ => (pure () : UseCase Unit)).Only (KeepsScoped files) :=
    Program.only_bind h fun _ => trivial
  cases call with
  | createUser input => exact hdiscard (keepsScoped_createUser loaded input)
  | editUser input => exact hdiscard (keepsScoped_editUser loaded input)
  | deleteUser key => exact hdiscard (keepsScoped_deleteUser key)
  | createAdmin id description => exact hdiscard (keepsScoped_createAdmin id description)
  | editAdmin input => exact hdiscard (keepsScoped_editAdmin input)
  | deleteAdmin id => exact hdiscard (keepsScoped_deleteAdmin id)

end Only

theorem UsersScoped.written {s : Statement} {db : Database} (h : UsersScoped files db)
    (hs : KeepsScoped files (.statement s)) : UsersScoped files (s.written db) := by
  cases s with
  | insert t row =>
    cases t with
    | user =>
      intro user huser
      have huser : user ∈ db .user ++ [row] := huser
      cases List.mem_append.mp huser with
      | inl hmem => exact h user hmem
      | inr hmem =>
        rw [List.mem_singleton.mp hmem]
        exact hs
    | _ => exact h
  | delete t key =>
    cases t with
    | user => exact fun user huser => h user (List.mem_of_mem_filter huser)
    | _ => exact h
  | deleteAll t filter =>
    cases t with
    | user => exact fun user huser => h user (List.mem_of_mem_filter huser)
    | _ => exact h
  | update t key resourceVersion assign =>
    cases t with
    | user =>
      intro user huser
      obtain ⟨row, hrow, rfl⟩ := List.mem_map.mp huser
      split
      · exact hs row
      · exact h row hrow
    | _ => exact h
  | _ => exact h

theorem scoped_perform {source : UUIDSource} {s : Effect} {fault : Option PersistenceError}
    {shared shared' : Shared} {answer : s.Answer} {session : Session}
    (hs : KeepsScoped files s) (h : UsersScoped files shared.db)
    (hperform : s.perform source fault .idle shared = (answer, session, shared')) :
    session = .idle ∧ UsersScoped files shared'.db := by
  cases s with
  | statement s =>
    obtain ⟨rfl, ⟨-, rfl⟩ | ⟨result, -, -, rfl⟩⟩ := Effect.perform_statement_idle hperform
    · exact ⟨rfl, h⟩
    · exact ⟨rfl, h.written hs⟩
  | newUUID =>
    cases hperform
    exact ⟨rfl, h⟩
  | hsm request =>
    cases fault with
    | none =>
      cases hperform
      exact ⟨rfl, h⟩
    | some err =>
      cases hperform
      exact ⟨rfl, h⟩
  | _ => exact hs.elim

/-- In any order of the statements of any number of calls, whichever of them fail, application users
hold only roles for them. -/
theorem usersScoped_of_run (loaded : LoadedFiles join files) {source : UUIDSource}
    {faults : PersistenceError → Prop} {ι : Type} [DecidableEq ι] {calls : ι → UserCall}
    {w : Shared} {c : StorageConfig ι Unit} (hw : UsersScoped files w.db)
    (hrun : Run (storage source faults) (Config.start .idle
      (fun i => (calls i).program (RoleInFile.listRoles loaded.rolesInfo)) w) c) :
    UsersScoped files c.shared.db := by
  let inv (c : StorageConfig ι Unit) : Prop :=
    UsersScoped files c.shared.db ∧ ∀ i, (c.threads i).session = .idle
  have hmeets (i : ι) : ((calls i).program (RoleInFile.listRoles loaded.rolesInfo)).Meets
      (fun _ => KeepsScoped files) (fun _ _ => True) [] :=
    ((calls i).only loaded).meets (fun _ _ h => h) fun _ _ => trivial
  have hstart : inv (Config.start .idle
      (fun i => (calls i).program (RoleInFile.listRoles loaded.rolesInfo)) w) :=
    ⟨hw, fun _ => rfl⟩
  have hstep (c : StorageConfig ι Unit) (i : ι) (s : Effect) (next : s.Answer → UseCase Unit)
      (answer : s.Answer) (session : Session) (shared : Shared)
      (_ : c.Meets (fun _ _ => KeepsScoped files) fun _ _ _ => True) (hc : inv c)
      (_ : (c.threads i).program = .call s next) (hs : KeepsScoped files s)
      (hact : storage source faults c i s answer session shared) :
      inv (c.after i s next answer session shared) := by
    obtain ⟨fault, -, -, hperform⟩ := hact
    rw [hc.2 i] at hperform
    obtain ⟨hsession, hscoped⟩ := scoped_perform hs hc.1 hperform
    refine ⟨hscoped, fun j => ?_⟩
    by_cases hj : j = i
    · rw [hj, Config.after_threads_self, hsession]
    · rw [Config.after_threads_of_ne hj, hc.2 j]
  obtain ⟨hinv, -⟩ := Run.invariant hrun hmeets hstart hstep
  exact hinv.1

/-- How a call of a request may be answered: it goes through, or fails. -/
def mayAnswer (source : UUIDSource) :
    Program.Answering Effect Effect.Answer (Session × Shared) := fun st s answer st' =>
  ∃ fault, s.perform source fault st.1 st.2 = (answer, st'.1, st'.2)

section Reading

variable {source : UUIDSource} {w : Shared}

theorem always_repositoryGet {t : Table} {β : Type} {resource : String}
    {mapFromDB : Row t → Except SignareError β} {key : Key t} :
    (repositoryGet t resource mapFromDB key).Always (mayAnswer source) (fun result _ =>
      ∀ b, result = .ok b → ∃ row ∈ w.db t, keyOf t row = key ∧ mapFromDB row = .ok b)
      (.idle, w) := by
  intro answer st hanswer
  obtain ⟨fault, hperform⟩ := hanswer
  obtain ⟨-, ⟨⟨err, rfl⟩, -⟩ | ⟨rows, rfl, hrows, -⟩⟩ := Effect.perform_statement_idle hperform
  · exact nofun
  · have hfound : (w.db t).filter (keyOf t · = key) = rows := Except.ok.inj hrows
    cases rows with
    | nil => exact nofun
    | cons row rest =>
      cases rest with
      | nil =>
        have hmem : row ∈ (w.db t).filter (keyOf t · = key) := by
          rw [hfound]
          exact List.mem_cons_self
        rw [List.mem_filter, decide_eq_true_eq] at hmem
        exact fun b hb => ⟨row, hmem.1, hmem.2, hb⟩
      | cons row' rest => exact nofun

theorem always_orElse {α : Type} {p : UseCase α} {g : SignareError → SignareError}
    {expected : α → Prop} {st : Session × Shared}
    (h : p.Always (mayAnswer source) (fun result _ => ∀ a, result = .ok a → expected a) st) :
    (p.orElse g).Always (mayAnswer source) (fun result _ => ∀ a, result = .ok a → expected a) st := by
  apply Program.Always.orElse
  apply h.mono
  intro result _ hresult a ha
  exact hresult a (Except.mapError_eq_ok.mp ha)

theorem always_getUserRoles (userID applicationID : String) :
    (getUserRoles userID applicationID).Always (mayAnswer source) (fun result _ =>
      ∀ roles, result = .ok roles → ∃ user ∈ w.db .user,
        UserRow.key user = ⟨userID, applicationID⟩ ∧ UserRow.roles user = roles) (.idle, w) := by
  let key : ApplicationStandardID := ⟨userID, applicationID⟩
  have huser : (getUserFromStorage key).Always (mayAnswer source) (fun result _ =>
      ∀ user, result = .ok user → user ∈ w.db .user ∧ UserRow.key user = key) (.idle, w) := by
    apply always_repositoryGet.mono
    intro result _ hresult user hok
    obtain ⟨row, hrow, hkey, hmap⟩ := hresult user hok
    obtain ⟨-, -, hsame⟩ := Except.bind_eq_ok.mp (Except.mapError_eq_ok.mp hmap)
    rw [← Except.pure_eq_ok.mp hsame]
    exact ⟨hrow, hkey⟩
  have hget : (getUser key).Always (mayAnswer source) (fun result _ =>
      ∀ found, result = .ok found → found.1 ∈ w.db .user ∧ UserRow.key found.1 = key)
      (.idle, w) := by
    unfold getUser validateStruct
    split
    · apply (always_orElse huser).bind
      · intro err _ _
        exact nofun
      · intro user st hfound
        apply (Program.always_true _ _).bind
        · intro err _ _
          exact nofun
        · intro accounts _ _ found hok
          cases hok
          exact hfound user rfl
    · exact nofun
  apply hget.bind
  · intro err _ _
    exact nofun
  · intro found _ hfound roles hroles
    cases hroles
    exact ⟨found.1, (hfound found rfl).1, (hfound found rfl).2, rfl⟩

theorem always_getAdminRoles (adminID : String) :
    (getAdminRoles adminID).Always (mayAnswer source) (fun result _ =>
      ∀ roles, result = .ok roles → ∃ admin ∈ w.db .admin,
        AdminRow.id admin = adminID ∧ AdminRow.roles admin = roles) (.idle, w) := by
  have hget : (getAdmin adminID).Always (mayAnswer source) (fun result _ =>
      ∀ admin, result = .ok admin → admin ∈ w.db .admin ∧ AdminRow.id admin = adminID)
      (.idle, w) := by
    unfold getAdmin validateStruct
    split
    · apply always_orElse
      apply always_repositoryGet.mono
      intro result _ hresult admin hok
      obtain ⟨row, hrow, hkey, hmap⟩ := hresult admin hok
      obtain ⟨-, -, hrest⟩ := Except.bind_eq_ok.mp (Except.mapError_eq_ok.mp hmap)
      obtain ⟨-, -, hsame⟩ := Except.bind_eq_ok.mp hrest
      rw [← Except.pure_eq_ok.mp hsame]
      exact ⟨hrow, hkey⟩
    · exact nofun
  apply hget.bind
  · intro err _ _
    exact nofun
  · intro admin _ hadmin roles hroles
    cases hroles
    exact ⟨admin, (hadmin admin rfl).1, (hadmin admin rfl).2, rfl⟩

/-- Whose roles a decision goes by. -/
def DecidedBy (db : Database) (userID actionID application : String) (roles : List String) : Prop :=
  (application = "" ∧ ∃ admin ∈ db .admin,
    AdminRow.id admin = userID ∧ AdminRow.roles admin = roles) ∨
  (application ≠ "" ∧ hasPrefix actionID adminActionPrefix = false ∧ ∃ user ∈ db .user,
    UserRow.key user = ⟨userID, application⟩ ∧ UserRow.roles user = roles)

theorem always_authorizeUser {roleActionMap : AList fun _ : String => Actions}
    (userID actionID : String) (applicationID : Option String) :
    (authorizeUser roleActionMap userID applicationID actionID).Always (mayAnswer source)
      (fun result _ => result = .ok () → ∃ roles actions,
        DecidedBy w.db userID actionID (applicationID.getD "") roles ∧
          PipInFile.listActions roleActionMap roles = .ok actions ∧
          actionID ∈ actions.actionSet) (.idle, w) := by
  have hroles : (rolesOf userID actionID applicationID).Always (mayAnswer source)
      (fun result _ => ∀ roles, result = .ok roles →
        DecidedBy w.db userID actionID (applicationID.getD "") roles) (.idle, w) := by
    unfold rolesOf
    split
    · rename_i hnamed
      cases hprefix : hasPrefix actionID adminActionPrefix with
      | true => exact nofun
      | false =>
        apply (always_getUserRoles userID (applicationID.getD "")).mono
        intro result _ hresult roles hok
        exact .inr ⟨hnamed, hprefix, hresult roles hok⟩
    · rename_i hblank
      apply (always_getAdminRoles userID).mono
      intro result _ hresult roles hok
      exact .inl ⟨not_not.mp hblank, hresult roles hok⟩
  apply hroles.bind
  · intro err _ _
    exact nofun
  · intro roles st hdecided
    cases hlist : PipInFile.listActions roleActionMap roles with
    | error err => exact nofun
    | ok actions =>
      show Program.Always _ (require (actionID ∈ actions.actionSet) _) _ _
      unfold require
      split
      · rename_i hmem
        exact fun _ => ⟨roles, actions, hdecided roles rfl, hlist, of_decide_eq_true hmem⟩
      · exact nofun

end Reading

theorem contextApplication_getD (headers : RequestHeaders) :
    headers.contextApplication.getD "" = headers.definedApplication := by
  unfold RequestHeaders.contextApplication
  split
  · rename_i habsent
    rw [RequestHeaders.definedApplication, habsent]
    rfl
  · rfl

section Chain

variable {source : UUIDSource} {w : Shared} {keccak : Hash256} {headers : RequestHeaders}
  (loaded : LoadedFiles join files)

/-- A handler is called for the action alone. -/
def Calls (source : UUIDSource) (action : String) (p : UseCase Response) : Prop :=
  ∀ st, p.Always (mayAnswer source)
    (fun result _ => ∀ response, result = .ok (.ok response) → response = action) st

theorem validateApplication_ok {application : Option String} {path : String} {u : Unit}
    (h : validateApplication application path = .ok u) (happlication : application.getD "" ≠ "") :
    path = "" ∨ path = application.getD "" := by
  cases application with
  | none => exact absurd rfl happlication
  | some application =>
    by_cases hpath : path = ""
    · exact .inl hpath
    · by_cases hsame : application = path
      · exact .inr hsame.symm
      · simp [validateApplication, hpath, hsame] at h

theorem always_authorized {action : String} {application : Option String}
    {next : UseCase Response} (request : HTTPRequest)
    (happlication : application.getD "" = headers.definedApplication)
    (hnext : Calls source action next) :
    (authorized loaded.roleActionMap headers.definedUser action application
        request.applicationPathParam next).Always (mayAnswer source) (fun result _ =>
      ∀ response, result = .ok (.ok response) → Mediated files w.db headers request response)
      (.idle, w) := by
  unfold authorized
  split
  · intro response hresponse
    cases hresponse
  · rename_i hvalid
    have hvalidApplication : ∃ u, validateApplication application
        request.applicationPathParam = .ok u := by
      cases haction : validateAction action with
      | error err =>
        rw [haction] at hvalid
        cases hvalid
      | ok _ =>
        cases huser : validateUser headers.definedUser with
        | error err =>
          rw [haction, huser] at hvalid
          cases hvalid
        | ok _ =>
          rw [haction, huser] at hvalid
          exact ⟨_, hvalid⟩
    apply Program.Always.attempt_bind
    apply (always_authorizeUser headers.definedUser action application).mono
    intro result st hdecided
    cases result with
    | error err => exact nofun
    | ok _ =>
      obtain ⟨roles, actions, hroles, hlist, hmem⟩ := hdecided rfl
      rw [happlication] at hroles
      obtain ⟨hknown, hgranted⟩ := PipInFile.listActions_eq_ok hlist
      have hroleKnown : ∀ roleID ∈ roles, files.Knows roleID :=
        fun roleID hrole => loaded.knows_of_lookup (hknown roleID hrole)
      have hroleGrants : ∃ roleID ∈ roles, files.Grants roleID action := by
        obtain ⟨roleID, hrole, granted, hlookup, haction⟩ := hgranted action hmem
        exact ⟨roleID, hrole, loaded.grants_of_lookup hlookup haction⟩
      apply (hnext st).mono
      intro result _ hresult response hok
      rw [hresult response hok]
      cases hroles with
      | inl hadmin =>
        obtain ⟨hblank, admin, hmemAdmin, hid, rfl⟩ := hadmin
        exact .admin hblank admin hmemAdmin hid hroleKnown hroleGrants
      | inr huser =>
        obtain ⟨hnamed, hnamespace, user, hmemUser, hkey, rfl⟩ := huser
        obtain ⟨_, hpath⟩ := hvalidApplication
        have hpath := validateApplication_ok hpath (happlication ▸ hnamed)
        rw [happlication] at hpath
        exact .user hnamed hpath hnamespace user hmemUser hkey hroleKnown hroleGrants

theorem calls_accountAuthorized {action : String} {body : JsonText} {next : UseCase Response}
    (hnext : Calls source action next) :
    Calls source action (accountAuthorized keccak headers action body next) := by
  intro st
  unfold accountAuthorized
  split
  · exact hnext st
  · split
    · intro response hresponse
      cases hresponse
    · apply Program.Always.attempt_bind
      apply (Program.always_true _ st).mono
      intro result st' _
      cases result with
      | error err => exact nofun
      | ok _ => exact hnext st'

theorem calls_calledHandler {action : String} {body : JsonText}
    (h : defineRPCAction body = .ok action) :
    Calls source action (return calledHandler body) := by
  intro st response hresponse
  have hcalled : calledHandler body = .ok response := Except.ok.inj hresponse
  unfold calledHandler at hcalled
  unfold defineRPCAction at h
  cases hbody : unmarshalRPCRequest body with
  | none =>
    rw [hbody] at hcalled
    cases hcalled
  | some rpcRequest =>
    simp only [hbody] at hcalled h
    by_cases hmethod : rpcRequest.method ∈ supportedMethods
    · rw [if_pos hmethod] at hcalled h
      split at h
      · cases h
      · exact (Except.ok.inj hcalled).symm.trans (Except.ok.inj h)
    · rw [if_neg hmethod] at hcalled
      cases hcalled

theorem always_serve (request : HTTPRequest) :
    (serve keccak loaded.roleActionMap headers request).Always (mayAnswer source)
      (fun result _ => ∀ response, result = .ok (.ok response) →
        Mediated files w.db headers request response) (.idle, w) := by
  cases request with
  | http route =>
    have hcalls : Calls source route.action (return .ok route.action) := by
      intro st response hresponse
      cases hresponse
      rfl
    exact always_authorized loaded (.http route) (contextApplication_getD headers) hcalls
  | rpc body =>
    show Program.Always _ (serveRPC keccak loaded.roleActionMap headers body) _ _
    unfold serveRPC
    cases haction : defineRPCAction body with
    | error err => exact nofun
    | ok action =>
      exact always_authorized loaded (.rpc body) rfl
        (calls_accountAuthorized (calls_calledHandler haction))

end Chain

/-- After any calls that change users and admins, side by side, with any failing statements:
application users hold only roles for them, and a handler is called only for an admin without an
application, or for a user of the application that is named, one of whose roles grants the action.
Whoever holds an unknown role is refused. -/
theorem requests_mediated {files : ServerFiles} {join : String → String}
    (loaded : LoadedFiles join files) (keccak : Hash256) {source : UUIDSource}
    {faults : PersistenceError → Prop} {ι : Type} [DecidableEq ι] {calls : ι → UserCall}
    {w : Shared} {c : StorageConfig ι Unit} (hw : UsersScoped files w.db)
    (hrun : Run (storage source faults) (Config.start .idle
      (fun i => (calls i).program (RoleInFile.listRoles loaded.rolesInfo)) w) c) :
    UsersScoped files c.shared.db ∧ ∀ headers request action st,
      (serve keccak loaded.roleActionMap headers request).EndsIn (mayAnswer source)
        (.idle, c.shared) (.ok (.ok action)) st →
      Mediated files c.shared.db headers request action := by
  refine ⟨usersScoped_of_run loaded hw hrun, fun headers request action st hends => ?_⟩
  exact Program.always_iff_endsIn.mp (always_serve loaded request) _ st hends action rfl

/-- One role for admins and one for users. -/
def shopFiles : ServerFiles where
  roles := .ok [⟨"signer-admin", "admin", ["manage"]⟩, ⟨"reader", "application", ["read"]⟩]
  permissions := .ok ⟨[⟨"manage", ["admin.users.list"]⟩, ⟨"read", ["application.users.list"]⟩]⟩
  actionsManual := .ok ⟨["admin.users.list", "application.users.list"]⟩
  actionsGenerated := .ok ⟨[]⟩

def loadedShop : LoadedFiles id shopFiles where
  rolesInfo := [⟨"signer-admin", "admin", ["manage"]⟩, ⟨"reader", "application", ["read"]⟩]
  roleActionMap := PipInFile.roleActionMap
    (PipInFile.permissionMap
      ⟨[⟨"manage", ["admin.users.list"]⟩, ⟨"read", ["application.users.list"]⟩]⟩)
    [⟨"signer-admin", ["manage"]⟩, ⟨"reader", ["read"]⟩]
  hroles := rfl
  hactions := rfl

def shop : Row .application := ApplicationRow.mk "shop" "internal-shop" 1 none "version-shop"

def createsReader : Unit → UserCall := fun _ => .createUser ⟨some "alice", "shop", none, ["reader"]⟩

def shopStart : StorageConfig Unit Unit :=
  Config.start .idle
    (fun i => (createsReader i).program (RoleInFile.listRoles loadedShop.rolesInfo))
    ⟨Function.update Database.empty .application [shop], 0, emptyKeyStores⟩

/-- After all statements of the call. -/
def shopOpen : StorageConfig Unit Unit := follow unaryUUIDs shopStart (List.replicate 8 ())

private theorem quiet_shop :
    ∀ n ≤ 8, Quiet (follow unaryUUIDs shopStart ((List.replicate 8 ()).take n)) := by
  decide +kernel

def readerHeaders : RequestHeaders := ⟨some "alice", some " shop "⟩

def listShopUsers : HTTPRequest := .http ⟨"application.users.list", "shop"⟩

/-- The request of the user that the call has created reaches its handler, as it may. -/
theorem requests_mediated_shop :
    UsersScoped shopFiles shopOpen.shared.db ∧
      Mediated shopFiles shopOpen.shared.db readerHeaders listShopUsers "application.users.list" := by
  have hstart : UsersScoped shopFiles shopStart.shared.db := by
    intro user huser
    cases huser
  have hrun : Run (storage unaryUUIDs noFaults) shopStart shopOpen := run_follow _ quiet_shop
  have hgoes (s : Effect) (st : Session × Shared) : mayAnswer unaryUUIDs st s
      (s.perform unaryUUIDs none st.1 st.2).1 (s.perform unaryUUIDs none st.1 st.2).2 :=
    ⟨none, rfl⟩
  have hends := Program.endsIn_run hgoes
    (serve keccak256 loadedShop.roleActionMap readerHeaders listShopUsers) (.idle, shopOpen.shared)
  have hmediated := requests_mediated loadedShop keccak256 hstart hrun
  exact ⟨hmediated.1, hmediated.2 readerHeaders listShopUsers "application.users.list" _ hends⟩

end Mediation

end Signare
