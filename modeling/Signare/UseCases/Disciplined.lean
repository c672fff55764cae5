import Signare.UseCases.Sound
import Signare.UseCases.Footprints
import Signare.UseCases.Keys

/-!
# What the use cases write

A row that a use case inserts can be read back, and it is marked by identifiers that were made for
it; an update changes nothing that rows are told apart by. Either is under a version that was made
just before. This is so whatever the calls are answered, so it is so in any order of the calls of
many use cases, and whichever of them fail.
-/

namespace Signare

open ByteCodec

/-- The identifiers in a row that no two writes share. -/
def stamps : (t : Table) → Row t → List String
  | .admin, row => [AdminRow.internalResourceId row, AdminRow.resourceVersion row]
  | .application, row => [ApplicationRow.internalResourceId row, ApplicationRow.resourceVersion row]
  | .user, row => [UserRow.internalResourceId row, UserRow.resourceVersion row]
  | .account, row => [AccountRow.internalResourceId row]
  | .hsmModule, row => [HSMModuleRow.internalResourceId row, HSMModuleRow.resourceVersion row]
  | .hsmSlot, row => [HSMSlotRow.internalResourceId row, HSMSlotRow.resourceVersion row]
  | .entry, row => [EntryRow.id row, EntryRow.resourceId row]

/-- Resources with a version. -/
def HasVersion : Table → Prop
  | .account => False
  | .entry => False
  | _ => True

theorem stamps_of_versioned {t : Table} (h : HasVersion t) (row : Row t) :
    stamps t row = [identity t row, versionOf t row] := by
  cases t with
  | account => exact h.elim
  | entry => exact h.elim
  | _ => rfl

/-- The identifier that was made last, and for which nothing has been done yet. -/
def JustGiven (history : History) (id : String) : Prop :=
  history.getLast? = some ⟨.newUUID, id⟩

theorem justGiven_append_newUUID (history : History) (id : String) :
    JustGiven (history ++ [⟨.newUUID, id⟩]) id := by
  simp [JustGiven]

theorem JustGiven.given {history : History} {id : String} (h : JustGiven history id) :
    Given history id :=
  List.mem_of_getLast? h

/-- The calls of a use case that writes only what can be read back. -/
def Disciplined (history : History) : Effect → Prop
  | .statement (.insert t row) =>
    (fits t row = true → Readable t row) ∧ (∀ id ∈ stamps t row, Given history id) ∧
      (HasVersion t → JustGiven history (versionOf t row))
  | .statement (.update t _ _ assign) =>
    KeepsKeys t assign ∧ HasVersion t ∧
      (∃ version, JustGiven history version ∧ ∀ row, versionOf t (assign row) = version) ∧
      ∀ row, Readable t row → fits t (assign row) = true → Readable t (assign row)
  | _ => True

theorem disciplined_insert {t : Table} (hversioned : HasVersion t) {row : Row t} {history : History}
    (hread : fits t row = true → Readable t row) (hidentity : Given history (identity t row)) :
    Disciplined (history ++ [⟨.newUUID, versionOf t row⟩]) (.statement (.insert t row)) := by
  refine ⟨hread, fun id hid => ?_, fun _ => justGiven_append_newUUID _ _⟩
  rw [stamps_of_versioned hversioned, List.mem_cons, List.mem_singleton] at hid
  cases hid with
  | inl heq =>
    rw [heq]
    exact hidentity.append _
  | inr heq =>
    rw [heq]
    exact given_append_newUUID _ _

/-- A use case that is disciplined from here on. -/
abbrev KeepsDiscipline {α : Type} (p : UseCase α) (history : History) : Prop :=
  p.Meets Disciplined (fun _ _ => True) history

/-- The calls that write nothing in particular. -/
def WritesNoRow : Effect → Prop
  | .statement (.insert ..) => False
  | .statement (.update ..) => False
  | _ => True

theorem WritesNoRow.disciplined {s : Effect} (h : WritesNoRow s) (history : History) :
    Disciplined history s := by
  cases s with
  | statement s =>
    cases s with
    | insert t row => exact h.elim
    | update t key resourceVersion assign => exact h.elim
    | _ => trivial
  | _ => trivial

theorem writesNoRow_reads : AllowsReads WritesNoRow :=
  ⟨fun _ _ => trivial, fun _ _ => trivial, fun _ _ _ => trivial⟩

section Rules

variable {α β : Type} {history : History}

theorem keepsDiscipline_of_only {p : UseCase α} (h : p.Only WritesNoRow) :
    KeepsDiscipline p history :=
  h.meets (fun _ _ hs => hs.disciplined _) fun _ _ => trivial

theorem keepsDiscipline_newUUID_bind {f : String → UseCase α}
    (hf : ∀ id, KeepsDiscipline (f id) (history ++ [⟨.newUUID, id⟩])) :
    KeepsDiscipline (newUUID >>= f) history :=
  ⟨trivial, hf⟩

theorem keepsDiscipline_validateStruct_bind {valid : Bool} {message : String}
    {f : Unit → UseCase α} (hf : valid = true → KeepsDiscipline (f ()) history) :
    KeepsDiscipline (validateStruct valid message >>= f) history :=
  meets_validateStruct_bind (fun _ => trivial) hf

theorem keepsDiscipline_lift_bind {x : Except SignareError α} {f : α → UseCase β}
    (hf : ∀ a, x = .ok a → KeepsDiscipline (f a) history) :
    KeepsDiscipline (Program.lift x >>= f) history := by
  cases x with
  | error err => trivial
  | ok a => exact hf a rfl

theorem keepsDiscipline_require_bind {ok : Bool} {err : SignareError} {f : Unit → UseCase β}
    (hf : KeepsDiscipline (f ()) history) : KeepsDiscipline (require ok err >>= f) history := by
  cases ok with
  | false => trivial
  | true => exact hf

theorem keepsDiscipline_orRandomID_bind {id : Option String} {f : String → UseCase β}
    (hf : ∀ id more, KeepsDiscipline (f id) (history ++ more)) :
    KeepsDiscipline (orRandomID id >>= f) history := by
  cases id with
  | some id =>
    have h := hf id []
    rwa [List.append_nil] at h
  | none => exact keepsDiscipline_newUUID_bind fun id => hf id _

theorem keepsDiscipline_executeUseCaseInTransaction {ctx : TxContext} {p : UseCase α}
    (hp : ∀ more, KeepsDiscipline p (history ++ more)) :
    KeepsDiscipline (executeUseCaseInTransaction ctx p) history := by
  cases ctx with
  | inTransaction =>
    have h := hp []
    rwa [List.append_nil] at h
  | background =>
    refine ⟨trivial, fun begun => ?_⟩
    cases begun with
    | error err => trivial
    | ok _ =>
      apply (hp _).attempt_any.bind_any
      intro result more
      cases result with
      | error failure => exact ⟨trivial, fun _ => trivial⟩
      | ok response =>
        refine ⟨trivial, fun committed => ?_⟩
        cases committed with
        | error err => trivial
        | ok _ => trivial

section Repository

variable {t : Table} {resource : String} {mapFromDB : Row t → Except SignareError β}

theorem keepsDiscipline_repositoryAdd {row : Row t}
    (hrow : Disciplined history (.statement (.insert t row))) :
    KeepsDiscipline (repositoryAdd t mapFromDB row) history := by
  apply meets_execute_bind hrow
  · intro err
    trivial
  · intro _
    apply keepsDiscipline_of_only
    apply Program.only_bind (only_execute trivial)
    intro rows
    cases rows with
    | nil => trivial
    | cons row' rows => trivial

theorem keepsDiscipline_repositoryEdit {key : Key t} {resourceVersion : String}
    {assign : String → Row t → Row t} (hversioned : HasVersion t)
    (hkeys : ∀ version, KeepsKeys t (assign version))
    (hversion : ∀ version row, versionOf t (assign version row) = version)
    (hread : ∀ version row, Readable t row → Readable t (assign version row)) :
    KeepsDiscipline (repositoryEdit t resource mapFromDB key resourceVersion assign) history := by
  apply meets_execute_bind trivial
  · intro err
    trivial
  · intro found
    split
    · trivial
    · apply keepsDiscipline_newUUID_bind
      intro version
      apply meets_execute_bind
      · exact ⟨hkeys version, hversioned, ⟨version, justGiven_append_newUUID _ _, hversion version⟩,
          fun row hrow _ => hread version row hrow⟩
      · intro err
        trivial
      · intro rowsAffected
        apply keepsDiscipline_of_only
        split
        · trivial
        · split
          · trivial
          · exact Program.only_orElse (only_repositoryGet trivial)

end Repository

theorem keepsDiscipline_addDependency {resourceId parentResourceId : String}
    {resourceKind parentResourceKind : ResourceKind} (hid : Given history resourceId) :
    KeepsDiscipline (addDependency resourceId resourceKind parentResourceId parentResourceKind)
      history := by
  have hcreate : KeepsDiscipline
      (createEntry resourceId resourceKind parentResourceId parentResourceKind) history := by
    apply keepsDiscipline_validateStruct_bind
    intro _
    apply keepsDiscipline_newUUID_bind
    intro id
    apply Program.Meets.orElse_any
    apply keepsDiscipline_lift_bind
    intro _ hmap
    apply keepsDiscipline_repositoryAdd
    refine ⟨?_, ?_, fun hversioned => hversioned.elim⟩
    · intro _
      obtain ⟨_, hid, hrest⟩ := Except.bind_eq_ok.mp (Except.mapError_eq_ok.mp hmap)
      obtain ⟨_, hresource, hparent⟩ := Except.bind_eq_ok.mp hrest
      exact entry_mapFromDB (notEmpty_eq_ok hid) (notEmpty_eq_ok hresource)
        (notEmpty_eq_ok hparent)
    · intro stamp hstamp
      simp only [stamps, List.mem_cons, List.not_mem_nil, or_false] at hstamp
      cases hstamp with
      | inl heq =>
        rw [heq]
        exact given_append_newUUID history id
      | inr heq =>
        rw [heq]
        exact hid.append _
  apply hcreate.attempt_any.bind_any
  intro result more
  cases result with
  | ok entry => trivial
  | error err =>
    dsimp only
    split
    · trivial
    · trivial

end Rules

theorem writesNoRow_transactions : AllowsTransactions WritesNoRow :=
  ⟨writesNoRow_reads, trivial, trivial, trivial⟩

theorem writesNoRow_upkeep : AllowsUpkeep WritesNoRow :=
  ⟨writesNoRow_reads, trivial, fun _ => trivial, fun _ => trivial⟩

section Operations

variable (keccak : Hash256) (supportedRoles : List Role) (ctx : TxContext) {history : History}

theorem keepsDiscipline_createApplication (input : CreateApplicationInput) :
    KeepsDiscipline (createApplication input) history := by
  apply keepsDiscipline_validateStruct_bind
  intro _
  apply keepsDiscipline_orRandomID_bind
  intro id more
  apply keepsDiscipline_newUUID_bind
  intro internalResourceId
  apply Program.Meets.orElse_any
  apply keepsDiscipline_lift_bind
  intro _ hmap
  apply keepsDiscipline_newUUID_bind
  intro resourceVersion
  apply keepsDiscipline_repositoryAdd
  exact disciplined_insert (t := .application) trivial (application_readable (Except.mapError_eq_ok.mp hmap))
    (given_append_newUUID _ _)

theorem keepsDiscipline_createHSMModule (input : CreateHSMModuleInput) :
    KeepsDiscipline (createHSMModule ctx input) history := by
  apply keepsDiscipline_executeUseCaseInTransaction
  intro more
  cases input.moduleKind with
  | none => trivial
  | some kind =>
    apply keepsDiscipline_orRandomID_bind
    intro id more'
    apply keepsDiscipline_newUUID_bind
    intro internalResourceId
    apply Program.Meets.orElse_any
    apply keepsDiscipline_lift_bind
    intro _ hmap
    apply keepsDiscipline_newUUID_bind
    intro resourceVersion
    apply keepsDiscipline_repositoryAdd
    exact disciplined_insert (t := .hsmModule) trivial (hsmModule_readable (Except.mapError_eq_ok.mp hmap))
      (given_append_newUUID _ _)

theorem keepsDiscipline_createAdmin (id : String) (description : Option String) :
    KeepsDiscipline (createAdmin id description) history := by
  have hadd (id' : String) (more : History) : KeepsDiscipline (do
      let internalResourceId ← newUUID
      Program.orElse
          (onAlreadyExists (alreadyExistsReadableFromErr ·
            ("admin [" ++ id' ++ "] already exists"))) do
        let data : AdminRow := ⟨id', internalResourceId, [signerAdminRole], description.getD "", ""⟩
        Program.lift ((AdminDB.mapToCreateDB data).mapError asInternal)
        let resourceVersion ← newUUID
        repositoryAdd .admin AdminDB.mapFromDB { data with resourceVersion }) (history ++ more) := by
    apply keepsDiscipline_newUUID_bind
    intro internalResourceId
    apply Program.Meets.orElse_any
    apply keepsDiscipline_lift_bind
    intro _ hmap
    apply keepsDiscipline_newUUID_bind
    intro resourceVersion
    apply keepsDiscipline_repositoryAdd
    exact disciplined_insert (t := .admin) trivial (admin_readable (Except.mapError_eq_ok.mp hmap))
      (given_append_newUUID _ _)
  apply keepsDiscipline_validateStruct_bind
  intro _
  dsimp only
  split
  · apply keepsDiscipline_newUUID_bind
    intro id'
    exact hadd id' _
  · have h := hadd id []
    rwa [List.append_nil] at h

theorem keepsDiscipline_createUser (input : CreateUserInput) :
    KeepsDiscipline (createUser supportedRoles input) history := by
  apply keepsDiscipline_validateStruct_bind
  intro _
  apply keepsDiscipline_orRandomID_bind
  intro id more
  apply keepsDiscipline_lift_bind
  intro _ _
  apply keepsDiscipline_newUUID_bind
  intro internalResourceId
  have hadd : KeepsDiscipline (addUserToApplicationDependency ⟨⟨id, input.applicationId⟩,
      internalResourceId, input.roles, input.description.getD "", ""⟩)
      (history ++ more ++ [⟨.newUUID, internalResourceId⟩]) := by
    apply (keepsDiscipline_of_only (Program.only_orElse (only_getApplication writesNoRow_reads _))).bind_any
    intro application more'
    exact keepsDiscipline_addDependency ((given_append_newUUID _ _).append _)
  apply hadd.bind_any
  intro _ more'
  apply Program.Meets.orElse_any
  apply keepsDiscipline_lift_bind
  intro _ hmap
  apply keepsDiscipline_newUUID_bind
  intro resourceVersion
  apply keepsDiscipline_repositoryAdd
  exact disciplined_insert (t := .user) trivial (user_readable (Except.mapError_eq_ok.mp hmap))
    ((given_append_newUUID _ _).append _)

theorem keepsDiscipline_createAccount (key : AccountID) :
    KeepsDiscipline (createAccount keccak key) history := by
  apply keepsDiscipline_validateStruct_bind
  intro hvalid
  apply keepsDiscipline_newUUID_bind
  intro internalResourceId
  have hadd : KeepsDiscipline (addAccountToUserDependency keccak ⟨key, internalResourceId⟩)
      (history ++ [⟨.newUUID, internalResourceId⟩]) := by
    apply (keepsDiscipline_of_only (Program.only_orElse (only_getUser writesNoRow_reads _))).bind_any
    intro user more
    exact keepsDiscipline_addDependency ((given_append_newUUID _ _).append _)
  apply hadd.bind_any
  intro _ more
  apply Program.Meets.orElse_any
  apply keepsDiscipline_lift_bind
  intro _ hmap
  apply keepsDiscipline_repositoryAdd
  refine ⟨?_, ?_, fun hversioned => hversioned.elim⟩
  · intro _
    obtain ⟨_, hinternal, -⟩ := Except.bind_eq_ok.mp (Except.mapError_eq_ok.mp hmap)
    exact ⟨hvalid, (account_mapToCreateDB (notEmpty_eq_ok hinternal) hvalid).2⟩
  · intro stamp hstamp
    rw [stamps, List.mem_singleton] at hstamp
    rw [hstamp]
    exact (given_append_newUUID _ _).append _

theorem keepsDiscipline_createSlot (input : CreateHSMSlotInput) :
    KeepsDiscipline (createSlot keccak ctx input) history := by
  apply keepsDiscipline_orRandomID_bind
  intro id more
  apply keepsDiscipline_newUUID_bind
  intro internalResourceId
  dsimp only
  have hfirst : KeepsDiscipline (addApplicationDependency ⟨id, internalResourceId,
      input.applicationId, input.hsmModuleId, input.slot, input.pin, input.config, ""⟩)
      (history ++ more ++ [⟨.newUUID, internalResourceId⟩]) := by
    apply (keepsDiscipline_of_only (Program.only_orElse (only_getApplication writesNoRow_reads _))).bind_any
    intro application more'
    exact keepsDiscipline_addDependency ((given_append_newUUID _ _).append _)
  apply hfirst.bind_any
  intro _ more₁
  have hsecond : KeepsDiscipline (addHSMModuleDependency ctx ⟨id, internalResourceId,
      input.applicationId, input.hsmModuleId, input.slot, input.pin, input.config, ""⟩)
      (history ++ more ++ [⟨.newUUID, internalResourceId⟩] ++ more₁) := by
    apply (keepsDiscipline_of_only (Program.only_orElse (only_getHSMModule writesNoRow_transactions _ _))).bind_any
    intro hsmModule more'
    exact keepsDiscipline_addDependency (((given_append_newUUID _ _).append _).append _)
  apply hsecond.bind_any
  intro _ more₂
  apply Program.Meets.orElse_any
  apply keepsDiscipline_lift_bind
  intro db hdb
  obtain ⟨hid, hinternal, hdb⟩ := slot_mapToCreateDB (Except.mapError_eq_ok.mp hdb)
  subst hdb
  apply keepsDiscipline_newUUID_bind
  intro resourceVersion
  apply keepsDiscipline_repositoryAdd
  exact disciplined_insert (t := .hsmSlot) trivial (slot_readable hid hinternal)
    (((given_append_newUUID _ _).append _).append _)

theorem keepsDiscipline_createHSMSlot (input : CreateHSMSlotInput) :
    KeepsDiscipline (createHSMSlot keccak ctx input) history := by
  apply keepsDiscipline_executeUseCaseInTransaction
  intro more
  apply keepsDiscipline_validateStruct_bind
  intro _
  apply (keepsDiscipline_of_only (Program.only_orElse (only_getHSMModule writesNoRow_transactions _ _))).bind_any
  intro hsmModule more₁
  have hcreate (more₂ : History) : KeepsDiscipline ((createSlot keccak .inTransaction input).orElse
      fun err => if isAlreadyExists err then alreadyExistsFromErr err
        else if isPreconditionFailed err then err
        else asInternal err) (history ++ more ++ more₁ ++ more₂) :=
    (keepsDiscipline_createSlot keccak .inTransaction input).orElse_any
  dsimp only
  split
  · apply (keepsDiscipline_of_only (only_resetModule (fun _ => trivial) _)).bind_any
    intro _ more₂
    apply (keepsDiscipline_of_only (only_requireAlive (fun _ => trivial) _ _ _ _)).bind_any
    intro _ more₃
    rw [List.append_assoc _ more₂]
    exact hcreate _
  · have h := hcreate []
    rwa [List.append_nil] at h

theorem keepsDiscipline_createAccounts (keys : List AccountID) :
    KeepsDiscipline (createAccounts keccak keys) history := by
  induction keys generalizing history with
  | nil => trivial
  | cons key keys ih =>
    apply (keepsDiscipline_createAccount keccak key).attempt_any.bind_any
    intro created more
    apply ih.bind_any
    intro accountsNotAdded more'
    split
    · trivial
    · split
      · trivial
      · trivial

theorem keepsDiscipline_enableAccounts (input : EnableAccountsInput) :
    KeepsDiscipline (enableAccounts keccak input) history := by
  apply keepsDiscipline_validateStruct_bind
  intro _
  apply keepsDiscipline_require_bind
  apply (keepsDiscipline_of_only (Program.only_orElse (only_repositoryGet trivial))).bind_any
  intro user more
  apply (keepsDiscipline_of_only (only_byApplication writesNoRow_transactions _)).bind_any
  intro connection more
  apply (keepsDiscipline_of_only (only_addressesBackedByModule writesNoRow_upkeep writesNoRow_transactions _)).bind_any
  intro knownAddresses more
  apply keepsDiscipline_require_bind
  apply (keepsDiscipline_createAccounts keccak _).bind_any
  intro accountsNotAdded more
  apply keepsDiscipline_require_bind
  apply keepsDiscipline_of_only
  exact Program.only_bind (Program.only_orElse (only_listAccounts writesNoRow_reads _)) fun _ => trivial

theorem keepsDiscipline_editUser (input : EditUserInput) :
    KeepsDiscipline (editUser supportedRoles input) history := by
  apply keepsDiscipline_validateStruct_bind
  intro _
  apply keepsDiscipline_require_bind
  apply keepsDiscipline_lift_bind
  intro _ _
  have hedit : KeepsDiscipline (Program.orElse
      (onNotFound (notFoundFromErr · ("user [" ++ input.key.id ++ "] not found"))) (do
      Program.lift ((UserDB.mapToUpdateDB input.key input.roles).mapError asInternal)
      repositoryEdit .user "'user'" UserDB.mapFromDB input.key input.resourceVersion
        (assignUser input.roles (input.description.getD "")))) history := by
    apply Program.Meets.orElse_any
    apply keepsDiscipline_lift_bind
    intro _ _
    apply keepsDiscipline_repositoryEdit
    · trivial
    · exact fun _ _ => ⟨rfl, rfl, fun _ => rfl⟩
    · exact fun _ _ => rfl
    · intro version row hread
      obtain ⟨_, hinternal, -⟩ := Except.bind_eq_ok.mp (Except.mapError_eq_ok.mp hread.2)
      refine ⟨hread.1, ?_⟩
      simp only [UserDB.mapFromDB, assignUser, hinternal, Except.ok_bind]
      rfl
  apply hedit.bind_any
  intro editedUser more
  apply keepsDiscipline_of_only
  exact Program.only_bind (Program.only_orElse (only_listAccounts writesNoRow_reads _)) fun _ => trivial

theorem keepsDiscipline_hsmSlotEditPin (id resourceVersion pin : String) :
    KeepsDiscipline (hsmSlotEditPin id resourceVersion pin) history := by
  apply keepsDiscipline_lift_bind
  intro _ _
  apply keepsDiscipline_repositoryEdit
  · trivial
  · exact fun _ _ => ⟨rfl, rfl, fun _ => rfl⟩
  · exact fun _ _ => rfl
  · intro version row hread
    obtain ⟨hid, slot, hslot⟩ := hread
    obtain ⟨hconfig, -⟩ := HSMSlotDB.mapFromDB_ok hslot
    obtain ⟨_, hinternal, -⟩ := Except.bind_eq_ok.mp hslot
    refine ⟨hid, readSlot (assignPin pin version row) slot.config, ?_⟩
    simp only [HSMSlotDB.mapFromDB, assignPin, hinternal, hconfig, Except.ok_bind]
    rfl

theorem keepsDiscipline_hsmSlotEditConfig (slot : HSMSlot) :
    KeepsDiscipline (hsmSlotEditConfig keccak slot) history := by
  apply keepsDiscipline_lift_bind
  intro _ _
  apply keepsDiscipline_repositoryEdit
  · trivial
  · exact keepsKeys_assignConfig _
  · exact fun _ _ => rfl
  · intro version row hread
    obtain ⟨hid, slot', hslot⟩ := hread
    obtain ⟨config, hconfig, -⟩ := HSMSlotDB.deserialize_serialize keccak slot.config
    obtain ⟨_, hinternal, -⟩ := Except.bind_eq_ok.mp hslot
    refine ⟨hid, readSlot (assignConfig (HSMSlotDB.serialize keccak slot.config) version row)
      config, ?_⟩
    simp only [HSMSlotDB.mapFromDB, assignConfig, hinternal, hconfig, Except.ok_bind]
    rfl

theorem keepsDiscipline_editPin (input : EditPinInput) :
    KeepsDiscipline (editPin ctx input) history := by
  apply keepsDiscipline_executeUseCaseInTransaction
  intro more
  apply keepsDiscipline_validateStruct_bind
  intro _
  apply (keepsDiscipline_of_only (only_getHSMSlot writesNoRow_reads _)).bind_any
  intro hsmSlot more₁
  apply keepsDiscipline_require_bind
  apply (keepsDiscipline_of_only (Program.only_orElse (only_getHSMModule writesNoRow_transactions _ _))).bind_any
  intro hsmModule more₂
  apply (keepsDiscipline_of_only (only_requireAlive (fun _ => trivial) _ _ _ _)).bind_any
  intro _ more₃
  exact (keepsDiscipline_hsmSlotEditPin _ _ _).orElse_any

theorem keepsDiscipline_editConfig (input : EditConfigInput) :
    KeepsDiscipline (editConfig keccak ctx input) history := by
  apply keepsDiscipline_executeUseCaseInTransaction
  intro more
  apply keepsDiscipline_validateStruct_bind
  intro _
  apply (keepsDiscipline_of_only (only_getHSMSlot writesNoRow_reads _)).bind_any
  intro hsmSlot more₁
  apply keepsDiscipline_require_bind
  apply (keepsDiscipline_of_only (Program.only_orElse (only_getHSMModule writesNoRow_transactions _ _))).bind_any
  intro hsmModule more₂
  apply keepsDiscipline_require_bind
  exact (keepsDiscipline_hsmSlotEditConfig keccak _).orElse_any

theorem keepsDiscipline_editApplication (input : EditApplicationInput) :
    KeepsDiscipline (editApplication input) history := by
  apply keepsDiscipline_validateStruct_bind
  intro _
  apply Program.Meets.orElse_any
  apply keepsDiscipline_lift_bind
  intro _ _
  apply keepsDiscipline_repositoryEdit
  · trivial
  · exact fun _ _ => ⟨rfl, rfl, fun _ => rfl⟩
  · exact fun _ _ => rfl
  · intro version row hread
    obtain ⟨_, hid, hrest⟩ := Except.bind_eq_ok.mp (Except.mapError_eq_ok.mp hread.2)
    obtain ⟨_, hinternal, -⟩ := Except.bind_eq_ok.mp hrest
    refine ⟨hread.1, ?_⟩
    simp only [ApplicationDB.mapFromDB, assignApplication, hid, hinternal, Except.ok_bind]
    rfl

theorem keepsDiscipline_editHSMModule (input : EditHSMModuleInput) :
    KeepsDiscipline (editHSMModule ctx input) history := by
  apply keepsDiscipline_executeUseCaseInTransaction
  intro more
  apply keepsDiscipline_validateStruct_bind
  intro _
  apply Program.Meets.orElse_any
  apply keepsDiscipline_lift_bind
  intro _ _
  apply keepsDiscipline_repositoryEdit
  · trivial
  · exact fun _ _ => ⟨rfl, rfl, fun _ => rfl⟩
  · exact fun _ _ => rfl
  · intro version row hread
    obtain ⟨_, hid, hrest⟩ := Except.bind_eq_ok.mp (Except.mapError_eq_ok.mp hread.2)
    obtain ⟨_, hinternal, -⟩ := Except.bind_eq_ok.mp hrest
    refine ⟨hread.1, ?_⟩
    simp only [HSMModuleDB.mapFromDB, assignHSMModule, hid, hinternal, Except.ok_bind]
    rfl

theorem keepsDiscipline_editAdmin (input : EditAdminInput) :
    KeepsDiscipline (editAdmin input) history := by
  apply keepsDiscipline_validateStruct_bind
  intro _
  apply Program.Meets.orElse_any
  apply keepsDiscipline_lift_bind
  intro _ _
  apply keepsDiscipline_repositoryEdit
  · trivial
  · exact fun _ _ => ⟨rfl, rfl, fun _ => rfl⟩
  · exact fun _ _ => rfl
  · intro version row hread
    obtain ⟨_, hid, hrest⟩ := Except.bind_eq_ok.mp (Except.mapError_eq_ok.mp hread.2)
    obtain ⟨_, hinternal, -⟩ := Except.bind_eq_ok.mp hrest
    refine ⟨hread.1, ?_⟩
    simp only [AdminDB.mapFromDB, assignAdmin, hid, hinternal, Except.ok_bind]
    rfl

theorem keepsDiscipline_addLocalKey (input : AddLocalKeyInput) :
    KeepsDiscipline (addLocalKey keccak input) history := by
  apply keepsDiscipline_validateStruct_bind
  intro _
  apply (keepsDiscipline_of_only (only_getLocalKeySlot writesNoRow_transactions _ _)).bind_any
  intro storedSlot more
  split
  · trivial
  · apply (keepsDiscipline_hsmSlotEditConfig keccak _).orElse_any.bind_any
    intro _ more'
    trivial

theorem keepsDiscipline_removeLocalKey (id : String) (address : Address) :
    KeepsDiscipline (removeLocalKey keccak id address) history := by
  apply keepsDiscipline_validateStruct_bind
  intro _
  apply (keepsDiscipline_of_only (only_getLocalKeySlot writesNoRow_transactions _ _)).bind_any
  intro storedSlot more
  split
  · trivial
  · apply (keepsDiscipline_hsmSlotEditConfig keccak _).orElse_any.bind_any
    intro _ more'
    trivial

theorem keepsDiscipline_deleteAllAccountsForAddress (applicationId : String) (address : Address) :
    KeepsDiscipline (deleteAllAccountsForAddress keccak applicationId address) history := by
  apply keepsDiscipline_validateStruct_bind
  intro _
  apply (keepsDiscipline_of_only (only_byApplication writesNoRow_transactions _)).bind_any
  intro connection more
  apply Program.Meets.bind_any
  · apply Program.Meets.orElse_any
    split
    · exact keepsDiscipline_removeLocalKey keccak _ _
    · refine ⟨trivial, fun answer => ?_⟩
      cases answer with
      | error err => trivial
      | ok _ => trivial
  intro _ more'
  apply keepsDiscipline_of_only
  exact Program.only_orElse <| Program.only_bind (only_repositoryAll trivial) fun _ =>
    Program.only_bind (only_execute trivial) fun _ => trivial

end Operations

end Signare
