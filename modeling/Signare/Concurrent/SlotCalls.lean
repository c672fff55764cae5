import Signare.Concurrent.SlotHistory
import Signare.Concurrent.SlotRows

/-!
# The operations on a slot

What the operations that change a slot call, in the order they call it. Keys are added and removed
outside any transaction, by an update that is guarded by the version that was read; the others run
in a transaction and change the slot last.
-/

namespace Signare

open ByteCodec

/-- The operations on a slot that change it. -/
inductive SlotCall
  | addLocalKey (privateKey : HexBytes) (address : Address)
  | removeLocalKey (address : Address)
  | editPin (resourceVersion pin hsmModuleId : String)
  | deleteHSMSlot
  | createHSMSlot (applicationId hsmModuleId slot pin : String) (config : HSMSlot.SlotConfig)

namespace SlotCall

def program (keccak : Hash256) (id : String) : SlotCall → UseCase Unit
  | addLocalKey privateKey address => Signare.addLocalKey keccak ⟨id, privateKey, address⟩
  | removeLocalKey address => Signare.removeLocalKey keccak id address
  | editPin resourceVersion pin hsmModuleId => do
    let _ ← Signare.editPin .background ⟨id, resourceVersion, pin, hsmModuleId⟩
    return ()
  | deleteHSMSlot => do
    let _ ← Signare.deleteHSMSlot .background id
    return ()
  | createHSMSlot applicationId hsmModuleId slot pin config => do
    let _ ← Signare.createHSMSlot keccak .background
      ⟨some id, applicationId, hsmModuleId, slot, pin, config⟩
    return ()

/-- Whether the operation runs in a transaction. -/
def transactional : SlotCall → Bool
  | addLocalKey .. => false
  | removeLocalKey .. => false
  | _ => true

/-- What becomes of the keys that were read. -/
def editStore : SlotCall → HSMSlot.KeyStore → HSMSlot.KeyStore
  | addLocalKey privateKey address => fun keyStore =>
    keyStore.insert address (privateKeyText privateKey)
  | removeLocalKey address => fun keyStore => keyStore.erase address
  | _ => fun keyStore => keyStore

/-- What a successful call does to the content of the slot. -/
def apply (call : SlotCall) (content : Option SlotContent) : Option SlotContent :=
  match call with
  | addLocalKey privateKey address => content.map fun content => { content with
      privateKey := Function.update content.privateKey address
        (some (privateKeyText privateKey)) }
  | removeLocalKey address => content.map fun content => { content with
      privateKey := Function.update content.privateKey address none }
  | editPin _ pin _ => content.map fun content => { content with pin }
  | deleteHSMSlot => none
  | createHSMSlot _ _ _ pin config =>
    some ⟨pin, fun address => (config.localKeyVault.getD ∅).lookup address⟩

end SlotCall

/-- Whether the last call was a commit that went through. -/
def committed (history : History) : Bool :=
  match history.getLast? with
  | some ⟨.commit, .ok _⟩ => true
  | _ => false

@[simp] theorem committed_commit (history : History) (u : Unit) :
    committed (history ++ [⟨.commit, .ok u⟩]) = true := by
  simp [committed]

theorem committed_concat_of_ne {history : History} {s : Effect} {r : s.Answer}
    (h : s ≠ .commit) : committed (history ++ [⟨s, r⟩]) = false := by
  rw [committed, List.getLast?_concat]
  cases s with
  | commit => exact absurd rfl h
  | _ => rfl

theorem committed_concat_error {history : History} (err : PersistenceError) :
    committed (history ++ [⟨.commit, .error err⟩]) = false := by
  simp [committed]

namespace SlotCall

variable (keccak : Hash256) (id : String) (call : SlotCall)

/-- The row that a call creates. -/
def Inserts (history : History) (row : HSMSlotRow) : Prop :=
  ∃ applicationId hsmModuleId slot config,
    call = createHSMSlot applicationId hsmModuleId slot row.pin config ∧ row.id = id ∧
      row.internalResourceId ≠ "" ∧ row.configuration = HSMSlotDB.serialize keccak config ∧
      Given history row.resourceVersion

/-- The update of a call, with the new version among its assignments. -/
inductive Updates (history : History) : String → String → (HSMSlotRow → HSMSlotRow) → Prop
  | keys {row : HSMSlotRow} {slot : HSMSlot} {key resourceVersion version : String}
      (hcall : call.transactional = false) (hidle : began history = false)
      (hread : ReadAt id history (.ok [row]))
      (hslot : HSMSlotDB.mapFromDB row = .ok slot)
      (hkey : key = slot.id) (hguard : resourceVersion = slot.resourceVersion)
      (hversion : Given history version) :
      Updates history key resourceVersion
        (assignConfig (HSMSlotDB.serialize keccak
          (slot.withKeyStore (call.editStore slot.keyStore)).config) version)
  | pin {resourceVersion pin hsmModuleId version : String}
      (hcall : call = editPin resourceVersion pin hsmModuleId)
      (hversion : Given history version) :
      Updates history id resourceVersion (assignPin pin version)

/-- Slots are read outside any transaction by who will change their keys, and changed once, by the
statement of the operation. -/
def allowedStatement (history : History) : Statement → Prop
  | .getById t _ => t = .hsmSlot → call.transactional = false → began history = false
  | .exists_ .. => True
  | .list .. => True
  | .insert .hsmSlot row => wrote history = false ∧ call.Inserts keccak id history row
  | .update .hsmSlot key resourceVersion assign =>
    wrote history = false ∧ call.Updates keccak id history key resourceVersion assign
  | .delete .hsmSlot key => wrote history = false ∧ call = deleteHSMSlot ∧ key = id
  | .deleteAll .hsmSlot _ => False
  | _ => wrote history = false

def allowed (history : History) : Effect → Prop
  | .begin_ => wrote history = false
  | .commit => call.transactional → began history
  | .rollback =>
    (call.transactional → began history) ∧ (call = deleteHSMSlot → wrote history = false)
  | .newUUID => wrote history = false
  | .hsm _ => wrote history = false
  | .statement s => (call.transactional → began history) ∧
      (call = deleteHSMSlot → wrote history = false) ∧ call.allowedStatement keccak id history s

/-- The slot has been read last, and there was none that could be read. -/
def Unread (history : History) : Prop :=
  ∃ (row : HSMSlotRow) (answer : Except PersistenceError (List HSMSlotRow)),
    ReadAt id history (.ok [row]) ∧
      history.getLast? = some ⟨.statement (.getById .hsmSlot row.id), answer⟩ ∧
      ∀ row' slot, answer = .ok [row'] → HSMSlotDB.mapFromDB row' ≠ .ok slot

/-- How a call ends: a transaction that has changed the slot is committed if and only if the call
succeeds; a change of the keys that succeeds has been made, and one that fails has not been made, or
the slot was gone when it was read again. -/
def expected {α : Type} (result : Except SignareError α) (history : History) : Prop :=
  if call.transactional then
    began history = false ∧
      ((∃ a, result = .ok a) ↔ wrote history = true ∧ committed history = true)
  else
    ((∃ a, result = .ok a) → wrote history = true) ∧
      ((∃ err, result = .error err) → wrote history = true → Unread id history)

variable {keccak id call} {history : History}

theorem expected_of_transactional {α : Type} {result : Except SignareError α}
    (hcall : call.transactional = true) (hended : began history = false)
    (hiff : (∃ a, result = .ok a) ↔ wrote history = true ∧ committed history = true) :
    call.expected id result history := by
  rw [expected, if_pos hcall]
  exact ⟨hended, hiff⟩

theorem expected_map {α : Type} {result : Except SignareError α}
    (h : call.expected id result history) {β : Type} {result' : Except SignareError β}
    (hok : (∃ a, result' = .ok a) ↔ ∃ a, result = .ok a) : call.expected id result' history := by
  have herror : (∃ err, result' = .error err) ↔ ∃ err, result = .error err := by
    cases result with
    | ok a =>
      obtain ⟨a', rfl⟩ := hok.mpr ⟨a, rfl⟩
      simp
    | error err =>
      cases result' with
      | ok a' =>
        obtain ⟨a, ha⟩ := hok.mp ⟨a', rfl⟩
        cases ha
      | error err' => simp
  unfold expected at h ⊢
  rw [hok, herror]
  exact h

/-- How the function of a transaction leaves it. -/
def leaves {α : Type} (result : Except SignareError α) (history : History) : Prop :=
  began history = true ∧ ((∃ a, result = .ok a) → wrote history = true) ∧
    ((∃ err, result = .error err) → call = deleteHSMSlot → wrote history = false)

theorem meets_executeUseCaseInTransaction {α : Type} {transactionalFunc : UseCase α}
    (hcall : call.transactional = true)
    (h : transactionalFunc.Meets (call.allowed keccak id) call.leaves [⟨.begin_, .ok ()⟩]) :
    (executeUseCaseInTransaction .background transactionalFunc).Meets (call.allowed keccak id)
      (call.expected id) [] := by
  refine ⟨rfl, fun answer => ?_⟩
  cases answer with
  | error err =>
    apply expected_of_transactional hcall
    · rfl
    · simp [committed]
  | ok u =>
    change (transactionalFunc.attempt >>= _).Meets _ _ _
    rw [Program.meets_bind, Program.meets_attempt]
    refine h.mono fun result history' hleaves => ?_
    obtain ⟨hbegan, hok, herror⟩ := hleaves
    cases result with
    | error err =>
      refine ⟨⟨fun _ => hbegan, herror ⟨err, rfl⟩⟩, fun answer => ?_⟩
      have hended : began (history' ++ [⟨.rollback, answer⟩]) = false := began_concat ..
      have hnot : committed (history' ++ [⟨.rollback, answer⟩]) = false :=
        committed_concat_of_ne (by simp)
      apply expected_of_transactional hcall hended
      simp [hnot]
    | ok a =>
      refine ⟨fun _ => hbegan, fun answer => ?_⟩
      have hended : began (history' ++ [⟨.commit, answer⟩]) = false := began_concat ..
      have hwrote : wrote (history' ++ [⟨.commit, answer⟩]) = (wrote history' || false) :=
        wrote_concat ..
      cases answer with
      | error err =>
        apply expected_of_transactional hcall hended
        simp [committed_concat_error]
      | ok u' =>
        apply expected_of_transactional hcall hended
        simp [hwrote, hok ⟨a, rfl⟩]

/-- What a transaction on a slot calls beside the statement that changes it. -/
def Aside : Effect → Prop
  | .statement (.getById ..) => True
  | .statement (.exists_ ..) => True
  | .statement (.list ..) => True
  | .statement (.insert .entry _) => True
  | .statement (.deleteAll .entry _) => True
  | .newUUID => True
  | .hsm _ => True
  | _ => False

theorem aside_reads : AllowsReads Aside :=
  ⟨fun _ _ => trivial, fun _ _ => trivial, fun _ _ _ => trivial⟩

theorem Aside.quiet {s : Effect} (h : Aside s) : s.Quiet := by
  intro r
  cases s with
  | statement s =>
    cases s with
    | insert t row =>
      cases t with
      | entry => exact ⟨fun _ => rfl, rfl⟩
      | _ => exact h.elim
    | deleteAll t filter => exact ⟨fun _ => rfl, rfl⟩
    | delete t key => exact h.elim
    | update t key resourceVersion assign => exact h.elim
    | _ => exact ⟨fun _ => rfl, rfl⟩
  | newUUID => exact ⟨fun _ => rfl, rfl⟩
  | hsm request => exact ⟨fun _ => rfl, rfl⟩
  | _ => exact h.elim

theorem Aside.allowed {s : Effect} (h : Aside s) (hcall : call.transactional = true)
    (hbegan : began history = true) (hwrote : wrote history = false) :
    call.allowed keccak id history s := by
  cases s with
  | statement s =>
    refine ⟨fun _ => hbegan, fun _ => hwrote, ?_⟩
    cases s with
    | getById t key =>
      intro _ hnot
      rw [hcall] at hnot
      cases hnot
    | exists_ t key => trivial
    | list t filter limit => trivial
    | insert t row =>
      cases t with
      | entry => exact hwrote
      | _ => exact h.elim
    | deleteAll t filter =>
      cases t with
      | entry => exact hwrote
      | _ => exact h.elim
    | delete t key => exact h.elim
    | update t key resourceVersion assign => exact h.elim
  | newUUID => exact hwrote
  | hsm request => exact hwrote
  | _ => exact h.elim

/-- A part of a transaction before its slot is changed. -/
def Preparing (before history : History) : Prop :=
  began history = true ∧ wrote history = false ∧ ∃ more, history = before ++ more

theorem meets_aside {α : Type} {q : UseCase α} (hq : q.Only Aside)
    (hcall : call.transactional = true) (hbegan : began history = true)
    (hwrote : wrote history = false) :
    q.Meets (call.allowed keccak id) (fun _ history' => Preparing history history') history := by
  have hmeets : q.Meets (call.allowed keccak id) (fun _ history' => Leaves history history')
      history := by
    apply meets_of_quiet hq (fun s hs => hs.quiet) hwrote
    intro history' s h hs
    exact hs.allowed hcall (h.began_eq.trans hbegan) h.wrote_eq
  exact hmeets.mono fun _ history' h => ⟨h.began_eq.trans hbegan, h.wrote_eq, h.append⟩

theorem meets_aside_bind {α β : Type} {q : UseCase α} {f : α → UseCase β} (hq : q.Only Aside)
    (hcall : call.transactional = true) (hbegan : began history = true)
    (hwrote : wrote history = false)
    (hf : ∀ a more, began (history ++ more) = true → wrote (history ++ more) = false →
      (f a).Meets (call.allowed keccak id) call.leaves (history ++ more)) :
    (q >>= f).Meets (call.allowed keccak id) call.leaves history := by
  apply (meets_aside hq hcall hbegan hwrote).bind
  · intro err history' h
    exact ⟨h.1, nofun, fun _ _ => h.2.1⟩
  · intro a history' h
    obtain ⟨more, hmore⟩ := h.2.2
    rw [hmore] at h ⊢
    exact hf a more h.1 h.2.1

theorem leaves_orElse {α : Type} {q : UseCase α} {f : SignareError → SignareError}
    (h : q.Meets (call.allowed keccak id) call.leaves history) :
    (q.orElse f).Meets (call.allowed keccak id) call.leaves history := by
  apply h.orElse
  · intro err history' h
    exact ⟨h.1, nofun, fun _ => h.2.2 ⟨err, rfl⟩⟩
  · intro a history' h
    exact ⟨h.1, fun _ => h.2.1 ⟨a, rfl⟩, nofun⟩

theorem meets_repositoryRemove {β : Type} {resource : String}
    {mapFromDB : HSMSlotRow → Except SignareError β} (hcall : call = deleteHSMSlot)
    (hbegan : began history = true) (hwrote : wrote history = false) :
    (repositoryRemove .hsmSlot resource mapFromDB id).Meets (call.allowed keccak id) call.leaves
      history := by
  have htransactional : call.transactional = true := by
    rw [hcall]
    rfl
  apply meets_aside_bind (only_repositoryGet trivial) htransactional hbegan hwrote
  intro storageData more hbegan' hwrote'
  have hdelete : call.allowed keccak id (history ++ more) (.statement (.delete .hsmSlot id)) :=
    ⟨fun _ => hbegan', fun _ => hwrote', hwrote', hcall, rfl⟩
  refine ⟨hdelete, fun answer => ?_⟩
  have hstill : began (history ++ more ++ [⟨.statement (.delete .hsmSlot id), answer⟩]) =
      began (history ++ more) := began_concat ..
  have hwritten : wrote (history ++ more ++ [⟨.statement (.delete .hsmSlot id), answer⟩]) =
      (wrote (history ++ more) || Effect.wroteSlot (.statement (.delete .hsmSlot id)) answer) :=
    wrote_concat ..
  cases answer with
  | error err =>
    refine ⟨hstill.trans hbegan', nofun, fun _ _ => ?_⟩
    rw [hwritten, hwrote']
    rfl
  | ok rowsAffected =>
    refine ⟨hstill.trans hbegan', fun _ => ?_, nofun⟩
    rw [hwritten]
    exact Bool.or_true _

theorem meets_deleteHSMSlot :
    (Signare.deleteHSMSlot .background id).Meets (allowed keccak id deleteHSMSlot)
      (expected id deleteHSMSlot) [] := by
  apply meets_executeUseCaseInTransaction rfl
  apply meets_aside_bind (only_validateStruct _ _) rfl rfl rfl
  intro _ more hbegan hwrote
  have hremove : (removeAllHSMSlotDependencies id).Only Aside :=
    Program.only_bind (only_getHSMSlot aside_reads id) fun slot =>
      only_removeDependencies trivial trivial trivial
  apply meets_aside_bind hremove rfl hbegan hwrote
  intro _ more' hbegan' hwrote'
  exact leaves_orElse (meets_repositoryRemove rfl hbegan' hwrote')

theorem meets_repositoryAdd {β : Type} {mapFromDB : HSMSlotRow → Except SignareError β}
    {row : HSMSlotRow} (hrow : call.Inserts keccak id history row)
    (hbegan : began history = true) (hwrote : wrote history = false) :
    (repositoryAdd .hsmSlot mapFromDB row).Meets (call.allowed keccak id) call.leaves history := by
  have hinserts := hrow
  obtain ⟨applicationId, hsmModuleId, slot, config, hcall, -⟩ := hinserts
  have hne : call ≠ deleteHSMSlot := by
    rw [hcall]
    nofun
  have hinsert : call.allowed keccak id history (.statement (.insert .hsmSlot row)) :=
    ⟨fun _ => hbegan, fun _ => hwrote, hwrote, hrow⟩
  refine ⟨hinsert, fun answer => ?_⟩
  have hstill : began (history ++ [⟨.statement (.insert .hsmSlot row), answer⟩]) =
      began history := began_concat ..
  have hwritten : wrote (history ++ [⟨.statement (.insert .hsmSlot row), answer⟩]) =
      (wrote history || Effect.wroteSlot (.statement (.insert .hsmSlot row)) answer) :=
    wrote_concat ..
  cases answer with
  | error err => exact ⟨hstill.trans hbegan, nofun, fun _ h => absurd h hne⟩
  | ok u =>
    let history' : History := history ++ [⟨.statement (.insert .hsmSlot row), .ok u⟩]
    have hget : call.allowed keccak id history' (.statement (.getById .hsmSlot row.id)) := by
      refine ⟨fun _ => hstill.trans hbegan, fun h => absurd h hne, fun _ hnot => ?_⟩
      rw [hcall] at hnot
      cases hnot
    refine ⟨hget, fun answer => ?_⟩
    have hstill' : began (history' ++ [⟨.statement (.getById .hsmSlot row.id), answer⟩]) =
        began history' := began_concat ..
    have hwritten' : wrote (history' ++ [⟨.statement (.getById .hsmSlot row.id), answer⟩]) =
        (wrote history' || false) := wrote_concat ..
    have hwrote' : wrote (history' ++ [⟨.statement (.getById .hsmSlot row.id), answer⟩]) = true := by
      rw [hwritten', hwritten]
      simp [Effect.wroteSlot]
    have hleaves (result : Except SignareError β) : call.leaves result
        (history' ++ [⟨.statement (.getById .hsmSlot row.id), answer⟩]) :=
      ⟨hstill'.trans (hstill.trans hbegan), fun _ => hwrote', fun _ h => absurd h hne⟩
    cases answer with
    | error err => exact hleaves _
    | ok rows =>
      cases rows with
      | nil => exact hleaves _
      | cons row' rows => exact hleaves _

theorem meets_createSlot {input : CreateHSMSlotInput} (hid : input.id = some id)
    (hcall : call = createHSMSlot input.applicationId input.hsmModuleId input.slot input.pin
      input.config) (hbegan : began history = true) (hwrote : wrote history = false) :
    (createSlot keccak .inTransaction input).Meets (call.allowed keccak id) call.leaves
      history := by
  have htransactional : call.transactional = true := by
    rw [hcall]
    rfl
  have hrandom : (orRandomID input.id : UseCase String) = pure id := by
    rw [hid]
    rfl
  rw [createSlot, hrandom, Program.pure_eq, Program.done_ok_bind]
  apply meets_aside_bind (only_newUUID trivial) htransactional hbegan hwrote
  intro internalResourceId more hbegan hwrote
  have happlication : (addApplicationDependency ⟨id, internalResourceId, input.applicationId,
      input.hsmModuleId, input.slot, input.pin, input.config, ""⟩).Only Aside :=
    Program.only_bind (Program.only_orElse (only_getApplication aside_reads _)) fun _ =>
      only_addDependency aside_reads trivial fun _ => trivial
  apply meets_aside_bind happlication htransactional hbegan hwrote
  intro _ more₁ hbegan hwrote
  have hhsmModule : (addHSMModuleDependency .inTransaction ⟨id, internalResourceId,
      input.applicationId, input.hsmModuleId, input.slot, input.pin, input.config, ""⟩).Only
      Aside :=
    Program.only_bind (Program.only_orElse (only_getHSMModuleUndecorated aside_reads _)) fun _ =>
      only_addDependency aside_reads trivial fun _ => trivial
  apply meets_aside_bind hhsmModule htransactional hbegan hwrote
  intro _ more₂ hbegan hwrote
  apply leaves_orElse
  cases hmap : (HSMSlotDB.mapToCreateDB keccak ⟨id, internalResourceId, input.applicationId,
      input.hsmModuleId, input.slot, input.pin, input.config, ""⟩).mapError asInternal with
  | error err => exact ⟨hbegan, nofun, fun _ _ => hwrote⟩
  | ok db =>
    obtain ⟨-, hinternal, hdb⟩ := slot_mapToCreateDB (Except.mapError_eq_ok.mp hmap)
    subst hdb
    rw [Program.lift_eq, Program.done_ok_bind]
    refine ⟨hwrote, fun resourceVersion => ?_⟩
    apply meets_repositoryAdd
    · exact ⟨_, _, _, _, hcall, rfl, hinternal, rfl,
        List.mem_append_right _ (List.mem_singleton_self _)⟩
    · rw [began_concat]
      exact hbegan
    · rw [wrote_concat, hwrote]
      rfl

theorem meets_createHSMSlot (applicationId hsmModuleId slot pin : String)
    (config : HSMSlot.SlotConfig) :
    (Signare.createHSMSlot keccak .background
      ⟨some id, applicationId, hsmModuleId, slot, pin, config⟩).Meets
      (allowed keccak id (createHSMSlot applicationId hsmModuleId slot pin config))
      (expected id (createHSMSlot applicationId hsmModuleId slot pin config)) [] := by
  apply meets_executeUseCaseInTransaction rfl
  apply meets_aside_bind (only_validateStruct _ _) rfl rfl rfl
  intro _ more hbegan hwrote
  apply meets_aside_bind (Program.only_orElse (only_getHSMModuleUndecorated aside_reads _)) rfl
    hbegan hwrote
  intro hsmModule more₁ hbegan hwrote
  dsimp only
  split
  · apply meets_aside_bind (only_resetModule (fun _ => trivial) _) rfl hbegan hwrote
    intro _ more₂ hbegan hwrote
    apply meets_aside_bind (only_requireAlive (fun _ => trivial) _ _ _ _) rfl hbegan hwrote
    intro _ more₃ hbegan hwrote
    exact leaves_orElse (meets_createSlot rfl rfl hbegan hwrote)
  · exact leaves_orElse (meets_createSlot rfl rfl hbegan hwrote)

theorem meets_editPin (resourceVersion pin hsmModuleId : String) :
    (Signare.editPin .background ⟨id, resourceVersion, pin, hsmModuleId⟩).Meets
      (allowed keccak id (editPin resourceVersion pin hsmModuleId))
      (expected id (editPin resourceVersion pin hsmModuleId)) [] := by
  apply meets_executeUseCaseInTransaction rfl
  apply meets_aside_bind (only_validateStruct _ _) rfl rfl rfl
  intro _ more hbegan hwrote
  apply meets_aside_bind (only_getHSMSlot aside_reads id) rfl hbegan hwrote
  intro hsmSlot more₁ hbegan hwrote
  apply meets_aside_bind (only_require _ _) rfl hbegan hwrote
  intro _ more₂ hbegan hwrote
  apply meets_aside_bind (Program.only_orElse (only_getHSMModuleUndecorated aside_reads _)) rfl
    hbegan hwrote
  intro hsmModule more₃ hbegan hwrote
  apply meets_aside_bind (only_requireAlive (fun _ => trivial) _ _ _ _) rfl hbegan hwrote
  intro _ more₄ hbegan hwrote
  apply leaves_orElse
  apply meets_aside_bind (Program.only_done _) rfl hbegan hwrote
  intro _ more₅ hbegan hwrote
  let start : History := [⟨.begin_, .ok ()⟩] ++ more ++ more₁ ++ more₂ ++ more₃ ++ more₄ ++ more₅
  have hedit : (repositoryEdit .hsmSlot "'hsm_slot'" HSMSlotDB.mapFromDB id resourceVersion
      (assignPin pin)).Meets (allowed keccak id (editPin resourceVersion pin hsmModuleId))
      (Updated id start) start :=
    meets_repositoryEdit hwrote ⟨fun _ => hbegan, nofun, trivial⟩ (fun _ h => h.wrote_eq)
      (fun version history' h hversion =>
        ⟨fun _ => h.began_eq.trans hbegan, nofun, h.wrote_eq, .pin rfl hversion⟩)
      fun history' hbegan' _ => ⟨fun _ => hbegan'.trans hbegan, nofun, fun _ => nofun⟩
  exact hedit.mono fun result history' h => ⟨h.began_eq.trans hbegan, h.wrote_of_ok, fun _ => nofun⟩

theorem not_deleteHSMSlot (hcall : call.transactional = false) : call ≠ deleteHSMSlot := by
  intro h
  rw [h] at hcall
  cases hcall

theorem allowed_readsModule (hcall : call.transactional = false) {hsmModuleId : String}
    {s : Effect} (hwrote : wrote history = false) (hs : ReadsModule hsmModuleId s) :
    call.allowed keccak id history s := by
  have htransactional : ¬ call.transactional = true := by
    rw [hcall]
    exact Bool.false_ne_true
  cases s with
  | begin_ => exact hwrote
  | commit => exact fun h => absurd h htransactional
  | rollback => exact ⟨fun h => absurd h htransactional, fun _ => hwrote⟩
  | statement s =>
    cases s with
    | getById t key =>
      cases t with
      | hsmModule => exact ⟨fun h => absurd h htransactional, fun _ => hwrote, nofun⟩
      | _ => exact hs.elim
    | _ => exact hs.elim
  | _ => exact hs.elim

theorem meets_getLocalKeySlot_start (hcall : call.transactional = false) (verb : String) :
    (getLocalKeySlot id verb).Meets (call.allowed keccak id) (fun result history =>
      Leaves [] history ∧ ∀ slot, result = .ok slot → ∃ row,
        ReadAt id history (.ok [row]) ∧ HSMSlotDB.mapFromDB row = .ok slot) [] := by
  have htransactional : ¬ call.transactional = true := by
    rw [hcall]
    exact Bool.false_ne_true
  apply meets_getLocalKeySlot rfl rfl
  · exact ⟨fun h => absurd h htransactional, fun _ => rfl, fun _ _ => rfl⟩
  · intro history' s hsmModuleId hwrote _ hs
    exact allowed_readsModule hcall hwrote hs

theorem meets_editKeys (hcall : call.transactional = false) {row : HSMSlotRow}
    {slot : HSMSlot} (hbegan : began history = false) (hwrote : wrote history = false)
    (hread : ReadAt id history (.ok [row])) (hslot : HSMSlotDB.mapFromDB row = .ok slot)
    {α : Type} (a : α) {f : SignareError → SignareError} :
    Program.Meets (call.allowed keccak id) (do
      let _ ← (hsmSlotEditConfig keccak
        (slot.withKeyStore (call.editStore slot.keyStore))).orElse f
      return a) (call.expected id) history := by
  have htransactional : ¬ call.transactional = true := by
    rw [hcall]
    exact Bool.false_ne_true
  have hne : call ≠ deleteHSMSlot := not_deleteHSMSlot hcall
  have hconfig : (hsmSlotEditConfig keccak
      (slot.withKeyStore (call.editStore slot.keyStore))).Meets (call.allowed keccak id)
      (Updated slot.id history) history := by
    apply meets_hsmSlotEditConfig hwrote
    · exact ⟨fun h => absurd h htransactional, fun h => absurd h hne, trivial⟩
    · intro history' h
      exact h.wrote_eq
    · intro version history' h hversion
      refine ⟨fun h => absurd h htransactional, fun h => absurd h hne, h.wrote_eq, ?_⟩
      exact .keys hcall (h.began_eq.trans hbegan) (h.mem hread) hslot rfl rfl hversion
    · intro history' hbegan' _
      exact ⟨fun h => absurd h htransactional, fun h => absurd h hne,
        fun _ _ => hbegan'.trans hbegan⟩
  have hfield : slot.id = row.id := by rw [(HSMSlotDB.mapFromDB_ok hslot).2]
  rw [Program.meets_bind, Program.meets_orElse]
  apply hconfig.mono
  intro result history' h
  cases result with
  | error err =>
    change call.expected id _ _
    rw [expected, if_neg htransactional]
    refine ⟨nofun, fun _ hwrote' => ?_⟩
    obtain ⟨answer, hlast, hnot⟩ := h.last_of_error ⟨err, rfl⟩ hwrote'
    rw [hfield] at hlast
    exact ⟨row, answer, h.mem hread, hlast, hnot⟩
  | ok slot' =>
    change call.expected id _ _
    rw [expected, if_neg htransactional]
    exact ⟨fun _ => h.wrote_of_ok ⟨slot', rfl⟩, nofun⟩

theorem expected_of_not_wrote (hcall : call.transactional = false) {α : Type} {err : SignareError}
    (hwrote : wrote history = false) :
    call.expected id (.error err : Except SignareError α) history := by
  rw [expected, if_neg (by rw [hcall]; exact Bool.false_ne_true)]
  refine ⟨nofun, fun _ h => ?_⟩
  rw [hwrote] at h
  cases h

theorem meets_addLocalKey (privateKey : HexBytes) (address : Address) :
    (Signare.addLocalKey keccak ⟨id, privateKey, address⟩).Meets
      (allowed keccak id (addLocalKey privateKey address))
      (expected id (addLocalKey privateKey address)) [] := by
  apply meets_validateStruct_bind
  · intro err
    exact expected_of_not_wrote rfl rfl
  · intro _
    apply (meets_getLocalKeySlot_start rfl _).bind
    · intro err history h
      exact expected_of_not_wrote rfl h.1.wrote_eq
    · intro storedSlot history h
      obtain ⟨row, hread, hrow⟩ := h.2 storedSlot rfl
      dsimp only
      split
      · exact expected_of_not_wrote rfl h.1.wrote_eq
      · exact meets_editKeys rfl h.1.began_eq h.1.wrote_eq hread hrow ()

theorem meets_removeLocalKey (address : Address) :
    (Signare.removeLocalKey keccak id address).Meets (allowed keccak id (removeLocalKey address))
      (expected id (removeLocalKey address)) [] := by
  apply meets_validateStruct_bind
  · intro err
    exact expected_of_not_wrote rfl rfl
  · intro _
    apply (meets_getLocalKeySlot_start rfl _).bind
    · intro err history h
      exact expected_of_not_wrote rfl h.1.wrote_eq
    · intro storedSlot history h
      obtain ⟨row, hread, hrow⟩ := h.2 storedSlot rfl
      split
      · exact expected_of_not_wrote rfl h.1.wrote_eq
      · exact meets_editKeys rfl h.1.began_eq h.1.wrote_eq hread hrow ()

theorem meets (call : SlotCall) :
    (call.program keccak id).Meets (call.allowed keccak id) (call.expected id) [] := by
  have hdrop {α : Type} {q : UseCase α} (hq : q.Meets (call.allowed keccak id) (call.expected id) []) :
      Program.Meets (call.allowed keccak id) (do
        let _ ← q
        return ()) (call.expected id) [] := by
    apply hq.bind
    · intro err history h
      exact expected_map h (by simp)
    · intro a history h
      exact expected_map h (by simp)
  cases call with
  | addLocalKey privateKey address => exact meets_addLocalKey privateKey address
  | removeLocalKey address => exact meets_removeLocalKey address
  | editPin resourceVersion pin hsmModuleId =>
    exact hdrop (meets_editPin resourceVersion pin hsmModuleId)
  | deleteHSMSlot => exact hdrop meets_deleteHSMSlot
  | createHSMSlot applicationId hsmModuleId slot pin config =>
    exact hdrop (meets_createHSMSlot applicationId hsmModuleId slot pin config)

end SlotCall

end Signare
