import Signare.UseCases.User

/-!
# The calls of the use cases

Which calls each use case is made of: what it can do whatever it is answered.
-/

namespace Signare

/-- An identifier that was made for the use case. -/
def Given (history : History) (id : String) : Prop :=
  (⟨.newUUID, id⟩ : Program.Event Effect.Answer) ∈ history

theorem Given.append {history : History} {id : String} (h : Given history id) (more : History) :
    Given (history ++ more) id :=
  List.mem_append_left _ h

theorem given_append_newUUID (history : History) (id : String) :
    Given (history ++ [⟨.newUUID, id⟩]) id :=
  List.mem_append_right _ (List.mem_singleton_self _)

variable {p : Effect → Prop}

theorem only_execute {s : Statement} (h : p (.statement s)) : (execute s).Only p := by
  refine ⟨h, fun r => ?_⟩
  cases r with
  | error err => trivial
  | ok result => trivial

/-- A statement, and what is done with its result. -/
theorem meets_execute_bind {α : Type}
    {allowed : List (Program.Event Effect.Answer) → Effect → Prop} {s : Statement}
    {f : s.Result → UseCase α}
    {expected : Except SignareError α → List (Program.Event Effect.Answer) → Prop}
    {history : List (Program.Event Effect.Answer)} (hallowed : allowed history (.statement s))
    (herror : ∀ err, expected (.error (mapPersistenceErrorToSignerError err))
      (history ++ [⟨.statement s, .error err⟩]))
    (hok : ∀ result, (f result).Meets allowed expected
      (history ++ [⟨.statement s, .ok result⟩])) :
    (execute s >>= f).Meets allowed expected history := by
  refine ⟨hallowed, fun r => ?_⟩
  cases r with
  | error err => exact herror err
  | ok result => exact hok result

theorem meets_validateStruct_bind {α : Type}
    {allowed : List (Program.Event Effect.Answer) → Effect → Prop} {valid : Bool}
    {message : String} {f : Unit → UseCase α}
    {expected : Except SignareError α → List (Program.Event Effect.Answer) → Prop}
    {history : List (Program.Event Effect.Answer)} (herror : ∀ err, expected (.error err) history)
    (hok : valid → (f ()).Meets allowed expected history) :
    (validateStruct valid message >>= f).Meets allowed expected history := by
  cases valid with
  | false => exact herror _
  | true => exact hok rfl

theorem only_newUUID (h : p .newUUID) : newUUID.Only p := ⟨h, fun _ => trivial⟩

theorem only_validateStruct (valid : Bool) (message : String) :
    (validateStruct valid message).Only p := by
  cases valid with
  | false => trivial
  | true => trivial

/-- What follows a check is left only where it succeeds. -/
theorem only_lift_bind {α β : Type} {x : Except SignareError α} {f : α → UseCase β}
    (h : ∀ a, x = .ok a → (f a).Only p) : (Program.lift x >>= f).Only p := by
  cases x with
  | error err => trivial
  | ok a => exact h a rfl

section Repository

variable {t : Table} {β : Type} {resource : String} {mapFromDB : Row t → Except SignareError β}

theorem only_repositoryGet {key : Key t} (h : p (.statement (.getById t key))) :
    (repositoryGet t resource mapFromDB key).Only p := by
  refine Program.only_bind (only_execute h) fun rows => ?_
  split
  · trivial
  · trivial
  · trivial

theorem only_repositoryAdd {row : Row t} (hinsert : p (.statement (.insert t row)))
    (hget : p (.statement (.getById t (keyOf t row)))) :
    (repositoryAdd t mapFromDB row).Only p := by
  refine Program.only_bind (only_execute hinsert) fun _ =>
    Program.only_bind (only_execute hget) fun rows => ?_
  split
  · trivial
  · trivial

theorem only_repositoryAll {filter : Row t → Bool} (h : p (.statement (.list t filter none))) :
    (repositoryAll t mapFromDB filter).Only p :=
  Program.only_bind (only_execute h) fun _ => trivial

theorem only_repositoryRemove {key : Key t} (hget : p (.statement (.getById t key)))
    (hdelete : p (.statement (.delete t key))) :
    (repositoryRemove t resource mapFromDB key).Only p :=
  Program.only_bind (only_repositoryGet hget) fun _ =>
    Program.only_bind (only_execute hdelete) fun _ => trivial

end Repository

theorem only_require (ok : Bool) (err : SignareError) : (require ok err).Only p := by
  cases ok with
  | false => trivial
  | true => trivial

theorem only_orRandomID {id : Option String} (h : p .newUUID) : (orRandomID id).Only p := by
  cases id with
  | some id => trivial
  | none => exact only_newUUID h

theorem only_listMyChildrenEntries {id : String} {kind : ResourceKind}
    (h : p (.statement (.list .entry (filterByParent id kind) none))) :
    (listMyChildrenEntries id kind).Only p :=
  Program.only_bind (only_validateStruct _ _) fun _ => Program.only_orElse (only_repositoryAll h)

theorem only_deleteMyEntriesIfAny {id : String} {kind : ResourceKind}
    (hlist : p (.statement (.list .entry (filterByResource id kind) none)))
    (hdelete : p (.statement (.deleteAll .entry (filterByResource id kind)))) :
    (deleteMyEntriesIfAny id kind).Only p :=
  Program.only_bind (only_validateStruct _ _) fun _ => Program.only_orElse <|
    Program.only_bind (only_repositoryAll hlist) fun _ =>
      Program.only_bind (only_execute hdelete) fun _ => trivial

theorem only_removeDependencies {id : String} {kind : ResourceKind} {description : String}
    (hchildren : p (.statement (.list .entry (filterByParent id kind) none)))
    (hlist : p (.statement (.list .entry (filterByResource id kind) none)))
    (hdelete : p (.statement (.deleteAll .entry (filterByResource id kind)))) :
    (removeDependencies id kind description).Only p := by
  refine Program.only_bind (only_listMyChildrenEntries hchildren) fun children => ?_
  split
  · trivial
  · exact only_deleteMyEntriesIfAny hlist hdelete

theorem only_listAccounts_of (key : ApplicationStandardID)
    (hlist : ∀ filter, p (.statement (.list .account filter none))) : (listAccounts key).Only p :=
  Program.only_bind (only_validateStruct _ _) fun _ =>
    Program.only_orElse (only_repositoryAll (hlist _))

theorem only_getUser_of (key : ApplicationStandardID)
    (hget : p (.statement (.getById .user key)))
    (hlist : ∀ filter, p (.statement (.list .account filter none))) : (getUser key).Only p :=
  Program.only_bind (only_validateStruct _ _) fun _ =>
    Program.only_bind (Program.only_orElse (only_repositoryGet hget)) fun _ =>
      Program.only_bind (Program.only_orElse (only_listAccounts_of _ hlist)) fun _ => trivial

/-- An entry more. -/
theorem only_addDependency_of {resourceId parentResourceId : String}
    {resourceKind parentResourceKind : ResourceKind} (hnew : p .newUUID)
    (hinsert : ∀ entry, p (.statement (.insert .entry entry)))
    (hget : ∀ id, p (.statement (.getById .entry id))) :
    (addDependency resourceId resourceKind parentResourceId parentResourceKind).Only p := by
  have hcreate :
      (createEntry resourceId resourceKind parentResourceId parentResourceKind).Only p := by
    apply Program.only_bind (only_validateStruct _ _)
    intro _
    apply Program.only_bind (only_newUUID hnew)
    intro id
    apply Program.only_orElse
    apply only_lift_bind
    intro _ _
    exact only_repositoryAdd (hinsert _) (hget _)
  apply Program.only_bind (Program.only_attempt hcreate)
  intro result
  cases result with
  | ok entry => trivial
  | error err =>
    dsimp only
    split
    · trivial
    · trivial

/-- What reads a table may be called. -/
structure AllowsReads (p : Effect → Prop) : Prop where
  getById : ∀ t key, p (.statement (.getById t key))
  exists_ : ∀ t key, p (.statement (.exists_ t key))
  list : ∀ t filter limit, p (.statement (.list t filter limit))

section Reads

variable (h : AllowsReads p)

include h

theorem only_getApplication (id : String) : (getApplication id).Only p :=
  Program.only_bind (only_validateStruct _ _) fun _ =>
    Program.only_orElse (only_repositoryGet (h.getById _ _))

theorem only_getHSMSlot (id : String) : (getHSMSlot id).Only p :=
  Program.only_bind (only_validateStruct _ _) fun _ =>
    Program.only_orElse (only_repositoryGet (h.getById _ _))

theorem only_getAdmin (id : String) : (getAdmin id).Only p :=
  Program.only_bind (only_validateStruct _ _) fun _ =>
    Program.only_orElse (only_repositoryGet (h.getById _ _))

theorem only_listAccounts (key : ApplicationStandardID) : (listAccounts key).Only p :=
  only_listAccounts_of key fun _ => h.list _ _ _

theorem only_getUser (key : ApplicationStandardID) : (getUser key).Only p :=
  only_getUser_of key (h.getById _ _) fun _ => h.list _ _ _

theorem only_getAccount (keccak : ByteCodec.Hash256) (key : AccountID) :
    (getAccount keccak key).Only p :=
  Program.only_bind (only_validateStruct _ _) fun _ =>
    Program.only_orElse (only_repositoryGet (h.getById _ _))

theorem only_getHSMModuleUndecorated (id : String) : (getHSMModuleUndecorated id).Only p :=
  Program.only_bind (only_validateStruct _ _) fun _ =>
    Program.only_orElse (only_repositoryGet (h.getById _ _))

/-- An update, and what is read around it. -/
theorem only_repositoryEdit {t : Table} {β : Type} {resource : String}
    {mapFromDB : Row t → Except SignareError β} {key : Key t} {resourceVersion : String}
    {assign : String → Row t → Row t} (hnew : p .newUUID)
    (hupdate : ∀ version, p (.statement (.update t key resourceVersion (assign version)))) :
    (repositoryEdit t resource mapFromDB key resourceVersion assign).Only p := by
  apply Program.only_bind (only_execute (h.exists_ t key))
  intro found
  split
  · trivial
  · apply Program.only_bind (only_newUUID hnew)
    intro version
    apply Program.only_bind (only_execute (hupdate version))
    intro rowsAffected
    split
    · trivial
    · split
      · trivial
      · exact Program.only_orElse (only_repositoryGet (h.getById t key))

theorem only_addDependency {resourceId parentResourceId : String}
    {resourceKind parentResourceKind : ResourceKind} (hnew : p .newUUID)
    (hinsert : ∀ entry, p (.statement (.insert .entry entry))) :
    (addDependency resourceId resourceKind parentResourceId parentResourceKind).Only p :=
  only_addDependency_of hnew hinsert fun _ => h.getById _ _

end Reads

theorem only_executeUseCaseInTransaction {α : Type} {transactionalFunc : UseCase α}
    (hbegin : p .begin_) (hcommit : p .commit) (hrollback : p .rollback)
    (h : transactionalFunc.Only p) (ctx : TxContext) :
    (executeUseCaseInTransaction ctx transactionalFunc).Only p := by
  cases ctx with
  | inTransaction => exact h
  | background =>
    refine ⟨hbegin, fun begun => ?_⟩
    cases begun with
    | error err => trivial
    | ok _ =>
      apply Program.only_bind (Program.only_attempt h)
      intro result
      cases result with
      | error failure => exact ⟨hrollback, fun _ => trivial⟩
      | ok response =>
        refine ⟨hcommit, fun committed => ?_⟩
        cases committed with
        | error err => trivial
        | ok _ => trivial

/-- What reads, also in a transaction of its own, may be called. -/
structure AllowsTransactions (p : Effect → Prop) : Prop extends AllowsReads p where
  begin_ : p .begin_
  commit : p .commit
  rollback : p .rollback

section Transactions

variable (h : AllowsTransactions p)

include h

theorem only_getHSMModule (ctx : TxContext) (id : String) : (getHSMModule ctx id).Only p :=
  only_executeUseCaseInTransaction h.begin_ h.commit h.rollback
    (only_getHSMModuleUndecorated h.toAllowsReads id) ctx

theorem only_byApplication (applicationId : String) : (byApplication applicationId).Only p := by
  have hslot (id : String) : (getHSMSlotByApplication id).Only p := by
    apply Program.only_bind (only_validateStruct _ _)
    intro _
    apply Program.only_orElse
    apply Program.only_bind (only_execute (h.list _ _ _))
    intro rows
    split
    · trivial
    · trivial
    · trivial
  exact Program.only_bind (Program.only_orElse (only_getApplication h.toAllowsReads _)) fun app =>
    Program.only_bind (Program.only_orElse (hslot _)) fun slot =>
      Program.only_bind (Program.only_orElse (only_getHSMModule h _ _)) fun _ => trivial

theorem only_getLocalKeySlot (id verb : String) : (getLocalKeySlot id verb).Only p := by
  apply Program.only_bind (only_getHSMSlot h.toAllowsReads id)
  intro slot
  apply Program.only_bind (Program.only_orElse (only_getHSMModule h _ _))
  intro hsmModule
  split
  · trivial
  · trivial

end Transactions

theorem only_resetModule (h : ∀ request, p (.hsm request)) (kind : HSMModuleKind) :
    (resetModule kind).Only p := by
  refine ⟨h _, fun answer => ?_⟩
  cases answer with
  | error err => trivial
  | ok _ => trivial

theorem only_requireAlive (h : ∀ request, p (.hsm request)) (slot pin : String)
    (kind : HSMModuleKind) (msg : String) : (requireAlive slot pin kind msg).Only p := by
  refine ⟨h _, fun answer => ?_⟩
  cases answer with
  | error err => trivial
  | ok alive =>
    cases alive with
    | true => trivial
    | false => trivial

end Signare
