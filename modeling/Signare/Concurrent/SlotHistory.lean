import Signare.UseCases.Calls
import Signare.UseCases.SlotConfig

/-!
# What has been done to a slot

What the calls of a use case tell of a transaction and of the slot, and what the functions that
read and update a slot leave of it.
-/

namespace Signare

open ByteCodec

/-- Whether a transaction is under way after a call, where `b` says so before it. -/
def Effect.begins (b : Bool) : (s : Effect) → s.Answer → Bool
  | .begin_, .ok _ => true
  | .commit, _ => false
  | .rollback, _ => false
  | _, _ => b

/-- Whether a statement has changed a slot. A delete also counts where there is no slot. -/
def Effect.wroteSlot : (s : Effect) → s.Answer → Bool
  | .statement (.insert .hsmSlot _), .ok _ => true
  | .statement (.delete .hsmSlot _), .ok _ => true
  | .statement (.update .hsmSlot _ _ _), .ok (rowsAffected : Nat) => rowsAffected == 1
  | _, _ => false

/-- Whether a transaction is under way. -/
def began (history : History) : Bool :=
  history.foldl (fun b event => event.1.begins b event.2) false

/-- Whether the slot has been changed. -/
def wrote (history : History) : Bool := history.any fun event => event.1.wroteSlot event.2

@[simp] theorem began_concat (history : History) (s : Effect) (r : s.Answer) :
    began (history ++ [⟨s, r⟩]) = s.begins (began history) r := by
  simp [began]

@[simp] theorem wrote_concat (history : History) (s : Effect) (r : s.Answer) :
    wrote (history ++ [⟨s, r⟩]) = (wrote history || s.wroteSlot r) := by
  simp [wrote]

/-- What was answered when the slot was read. -/
def ReadAt (id : String) (history : History)
    (answer : Except PersistenceError (List HSMSlotRow)) : Prop :=
  (⟨.statement (.getById .hsmSlot id), answer⟩ : Program.Event Effect.Answer) ∈ history

theorem ReadAt.append {id : String} {history : History}
    {answer : Except PersistenceError (List HSMSlotRow)} (h : ReadAt id history answer)
    (more : History) : ReadAt id (history ++ more) answer :=
  List.mem_append_left _ h

/-- Calls that neither begin nor end a transaction nor change a slot. -/
def Effect.Quiet (s : Effect) : Prop :=
  ∀ r : s.Answer, (∀ b, s.begins b r = b) ∧ s.wroteSlot r = false

theorem quiet_getById (t : Table) (key : Key t) : (Effect.statement (.getById t key)).Quiet :=
  fun _ => ⟨fun _ => rfl, rfl⟩

/-- A part of an operation, under way in the same transaction or in none, before which and by which
the slot is not changed. -/
structure Leaves (before history : History) : Prop where
  began_eq : began history = began before
  wrote_eq : wrote history = false
  append : ∃ more, history = before ++ more

theorem Leaves.refl {history : History} (hwrote : wrote history = false) : Leaves history history :=
  ⟨rfl, hwrote, [], (List.append_nil history).symm⟩

theorem Leaves.trans {history₁ history₂ history₃ : History} (h : Leaves history₁ history₂)
    (h' : Leaves history₂ history₃) : Leaves history₁ history₃ := by
  obtain ⟨more, hmore⟩ := h.append
  obtain ⟨more', hmore'⟩ := h'.append
  exact ⟨h'.began_eq.trans h.began_eq, h'.wrote_eq, more ++ more', by
    rw [hmore', hmore, List.append_assoc]⟩

theorem Leaves.mem {before history : History} (h : Leaves before history)
    {event : Program.Event Effect.Answer} (hmem : event ∈ before) : event ∈ history := by
  obtain ⟨more, hmore⟩ := h.append
  rw [hmore]
  exact List.mem_append_left _ hmem

theorem Leaves.concat {before history : History} (h : Leaves before history) {s : Effect}
    (hs : s.Quiet) (r : s.Answer) : Leaves before (history ++ [⟨s, r⟩]) := by
  obtain ⟨more, hmore⟩ := h.append
  obtain ⟨hbegins, hnot⟩ := hs r
  refine ⟨?_, ?_, more ++ [⟨s, r⟩], by rw [hmore, List.append_assoc]⟩
  · rw [began_concat, hbegins, h.began_eq]
  · rw [wrote_concat, h.wrote_eq, hnot]
    rfl

variable {α : Type} {allowed : History → Effect → Prop} {history : History}

theorem meets_of_quiet {p : Effect → Prop} {q : UseCase α} (hq : q.Only p)
    (hquiet : ∀ s, p s → s.Quiet) (hwrote : wrote history = false)
    (hallowed : ∀ history' s, Leaves history history' → p s → allowed history' s) :
    q.Meets allowed (fun _ history' => Leaves history history') history := by
  apply hq.meets_invariant (Leaves.refl hwrote)
  intro history' s hleaves hs
  exact ⟨hallowed history' s hleaves hs, fun r => hleaves.concat (hquiet s hs) r⟩

theorem meets_repositoryGet {t : Table} {β : Type} {resource : String}
    {mapFromDB : Row t → Except SignareError β} {key : Key t}
    (hallowed : allowed history (.statement (.getById t key))) :
    (repositoryGet t resource mapFromDB key).Meets allowed (fun result history' =>
      ∃ answer : Except PersistenceError (List (Row t)),
        history' = history ++ [⟨.statement (.getById t key), answer⟩] ∧
        ((∃ err, result = .error err) → ∀ row a, answer = .ok [row] → mapFromDB row ≠ .ok a) ∧
        ∀ a, result = .ok a → ∃ row, answer = .ok [row] ∧ mapFromDB row = .ok a) history := by
  refine ⟨hallowed, fun answer => ?_⟩
  cases answer with
  | error err => exact ⟨_, rfl, nofun, nofun⟩
  | ok rows =>
    cases rows with
    | nil => exact ⟨_, rfl, nofun, nofun⟩
    | cons row rows =>
      cases rows with
      | cons row' rows => exact ⟨_, rfl, nofun, nofun⟩
      | nil =>
        refine ⟨_, rfl, fun herr row' a hrow hmap => ?_, fun a ha => ⟨row, rfl, ha⟩⟩
        cases hrow
        obtain ⟨err, herr⟩ := herr
        rw [hmap] at herr
        cases herr

theorem meets_get {t : Table} {β : Type} {resource : String}
    {mapFromDB : Row t → Except SignareError β} {key : Key t} {valid : Bool} {message : String}
    {f : SignareError → SignareError} (hwrote : wrote history = false)
    (hallowed : allowed history (.statement (.getById t key))) :
    Program.Meets allowed (do
      validateStruct valid message
      (repositoryGet t resource mapFromDB key).orElse f)
      (fun result history' => Leaves history history' ∧ ∀ a, result = .ok a → ∃ row : Row t,
        (⟨.statement (.getById t key), .ok [row]⟩ : Program.Event Effect.Answer) ∈ history' ∧
          mapFromDB row = .ok a) history := by
  apply meets_validateStruct_bind
  · intro err
    exact ⟨Leaves.refl hwrote, nofun⟩
  · intro _
    apply (meets_repositoryGet hallowed).orElse
    · intro err history' h
      obtain ⟨answer, rfl, -⟩ := h
      exact ⟨(Leaves.refl hwrote).concat (quiet_getById _ _) answer, nofun⟩
    · intro a history' h
      obtain ⟨answer, rfl, -, hrow⟩ := h
      refine ⟨(Leaves.refl hwrote).concat (quiet_getById _ _) answer, fun _ heq => ?_⟩
      cases heq
      obtain ⟨row, rfl, hmap⟩ := hrow a rfl
      exact ⟨row, List.mem_append_right _ (List.mem_singleton_self _), hmap⟩

theorem meets_inTransaction {transactionalFunc : UseCase α}
    {between expected : Except SignareError α → History → Prop} (hbegin : allowed history .begin_)
    (hfailed : ∀ err err', expected (.error err') (history ++ [⟨.begin_, .error err⟩]))
    (h : transactionalFunc.Meets allowed between (history ++ [⟨.begin_, .ok ()⟩]))
    (hrollback : ∀ err history', between (.error err) history' → allowed history' .rollback ∧
      ∀ answer, expected (.error err) (history' ++ [⟨.rollback, answer⟩]))
    (hcommit : ∀ a history', between (.ok a) history' → allowed history' .commit ∧
      (∀ err err', expected (.error err') (history' ++ [⟨.commit, .error err⟩])) ∧
        expected (.ok a) (history' ++ [⟨.commit, .ok ()⟩])) :
    (executeUseCaseInTransaction .background transactionalFunc).Meets allowed expected history := by
  refine ⟨hbegin, fun answer => ?_⟩
  cases answer with
  | error err => exact hfailed err _
  | ok u =>
    change (transactionalFunc.attempt >>= _).Meets _ _ _
    rw [Program.meets_bind, Program.meets_attempt]
    apply h.mono
    intro result history' hbetween
    cases result with
    | error err => exact hrollback err history' hbetween
    | ok a =>
      obtain ⟨hallowed, herror, hok⟩ := hcommit a history' hbetween
      refine ⟨hallowed, fun answer => ?_⟩
      cases answer with
      | error err => exact herror err _
      | ok u' => exact hok

/-- What reads a module outside any transaction. -/
def ReadsModule (id : String) : Effect → Prop
  | .begin_ | .commit | .rollback => True
  | .statement (.getById .hsmModule key) => key = id
  | _ => False

theorem meets_getHSMModule {id : String} (hwrote : wrote history = false)
    (hbegan : began history = false)
    (hallowed : ∀ history' s, wrote history' = false → (∃ more, history' = history ++ more) →
      ReadsModule id s → allowed history' s) :
    (getHSMModule .background id).Meets allowed (fun result history' => Leaves history history' ∧
      ∀ hsmModule, result = .ok hsmModule → ∃ row : HSMModuleRow,
        (⟨.statement (.getById .hsmModule id), .ok [row]⟩ : Program.Event Effect.Answer) ∈ history' ∧
          HSMModuleDB.mapFromDB row = .ok hsmModule) history := by
  let start : History := history ++ [⟨.begin_, .ok ()⟩]
  have hwrote_start : wrote start = (wrote history || false) := wrote_concat ..
  rw [hwrote] at hwrote_start
  have hget : (getHSMModuleUndecorated id).Meets allowed (fun result history' =>
      Leaves start history' ∧ ∀ hsmModule, result = .ok hsmModule → ∃ row : HSMModuleRow,
        (⟨.statement (.getById .hsmModule id), .ok [row]⟩ : Program.Event Effect.Answer) ∈ history' ∧
          HSMModuleDB.mapFromDB row = .ok hsmModule) start :=
    meets_get hwrote_start (hallowed start _ hwrote_start ⟨_, rfl⟩ rfl)
  have hended {history' : History} (h : Leaves start history') {s : Effect} {r : s.Answer}
      (hbegins : ∀ b, s.begins b r = false) (hnot : s.wroteSlot r = false) :
      Leaves history (history' ++ [⟨s, r⟩]) := by
    obtain ⟨more, hmore⟩ := h.append
    refine ⟨?_, ?_, [⟨.begin_, .ok ()⟩] ++ more ++ [⟨s, r⟩], ?_⟩
    · rw [began_concat, hbegins, hbegan]
    · rw [wrote_concat, h.wrote_eq, hnot]
      rfl
    · rw [hmore]
      simp [start]
  have hmore {history' : History} (h : Leaves start history') :
      ∃ more, history' = history ++ more := by
    obtain ⟨more, hmore⟩ := h.append
    exact ⟨[⟨.begin_, .ok ()⟩] ++ more, by rw [hmore]; simp [start]⟩
  apply meets_inTransaction (hallowed history .begin_ hwrote ⟨[], by simp⟩ trivial) _ hget
  · intro err history' h
    refine ⟨hallowed history' .rollback h.1.wrote_eq (hmore h.1) trivial, fun answer => ?_⟩
    exact ⟨hended h.1 (fun _ => rfl) rfl, nofun⟩
  · intro hsmModule history' h
    refine ⟨hallowed history' .commit h.1.wrote_eq (hmore h.1) trivial, fun err err' => ?_, ?_⟩
    · exact ⟨hended h.1 (fun _ => rfl) rfl, nofun⟩
    · refine ⟨hended h.1 (fun _ => rfl) rfl, fun _ heq => ?_⟩
      cases heq
      obtain ⟨row, hmem, hmap⟩ := h.2 hsmModule rfl
      exact ⟨row, List.mem_append_left _ hmem, hmap⟩
  · intro err err'
    have hnot : wrote (history ++ [⟨.begin_, .error err⟩]) = (wrote history || false) :=
      wrote_concat ..
    rw [hwrote] at hnot
    exact ⟨⟨began_concat .., hnot, _, rfl⟩, nofun⟩

/-- The slot of a key is read before any transaction, and has been read as it is. -/
theorem meets_getLocalKeySlot {id : String} (hwrote : wrote history = false)
    (hbegan : began history = false) (hread : allowed history (.statement (.getById .hsmSlot id)))
    (hallowed : ∀ history' s hsmModuleId, wrote history' = false →
      (∃ more, history' = history ++ more) → ReadsModule hsmModuleId s → allowed history' s)
    (verb : String) :
    (getLocalKeySlot id verb).Meets allowed (fun result history' => Leaves history history' ∧
      ∀ slot, result = .ok slot → ∃ row, ReadAt id history' (.ok [row]) ∧
        HSMSlotDB.mapFromDB row = .ok slot) history := by
  have hget : (getHSMSlot id).Meets allowed (fun result history' => Leaves history history' ∧
      ∀ slot, result = .ok slot → ∃ row, ReadAt id history' (.ok [row]) ∧
        HSMSlotDB.mapFromDB row = .ok slot) history :=
    meets_get hwrote hread
  apply hget.bind
  · intro err history₁ h
    exact ⟨h.1, nofun⟩
  · intro storedSlot history₁ h
    have hreads (history' : History) (s : Effect) (hwrote' : wrote history' = false)
        (hmore' : ∃ more, history' = history₁ ++ more)
        (hs : ReadsModule storedSlot.hsmModuleId s) : allowed history' s := by
      obtain ⟨more, hmore⟩ := h.1.append
      obtain ⟨more', hmore'⟩ := hmore'
      have happend : history' = history ++ (more ++ more') := by
        rw [hmore', hmore, List.append_assoc]
      exact hallowed history' s _ hwrote' ⟨_, happend⟩ hs
    have hmodule := meets_getHSMModule h.1.wrote_eq (h.1.began_eq.trans hbegan) hreads
    have hmodule' : (getHSMModuleOfSlot .background storedSlot.hsmModuleId).Meets allowed
        (fun _ history' => Leaves history₁ history') history₁ := by
      apply hmodule.orElse
      · intro err history' h'
        exact h'.1
      · intro hsmModule history' h'
        exact h'.1
    apply hmodule'.bind
    · intro err history₂ h'
      exact ⟨h.1.trans h', nofun⟩
    · intro storedHSM history₂ h'
      split
      · exact ⟨h.1.trans h', nofun⟩
      · refine ⟨h.1.trans h', fun slot hslot => ?_⟩
        cases hslot
        obtain ⟨row, hmem, hrow⟩ := h.2 storedSlot rfl
        exact ⟨row, h'.mem hmem, hrow⟩

/-- How an update of a slot ends. -/
structure Updated (key : String) (before : History) (result : Except SignareError HSMSlot)
    (history : History) : Prop where
  began_eq : began history = began before
  append : ∃ more, history = before ++ more
  wrote_of_ok : (∃ slot, result = .ok slot) → wrote history = true
  last_of_error : (∃ err, result = .error err) → wrote history = true →
    ∃ answer : Except PersistenceError (List HSMSlotRow),
      history.getLast? = some ⟨.statement (.getById .hsmSlot key), answer⟩ ∧
        ∀ row slot, answer = .ok [row] → HSMSlotDB.mapFromDB row ≠ .ok slot

theorem Updated.mem {key : String} {before : History} {result : Except SignareError HSMSlot}
    (h : Updated key before result history) {event : Program.Event Effect.Answer}
    (hmem : event ∈ before) : event ∈ history := by
  obtain ⟨more, hmore⟩ := h.append
  rw [hmore]
  exact List.mem_append_left _ hmem

theorem updated_of_leaves {key : String} {before : History} (h : Leaves before history)
    (err : SignareError) : Updated key before (.error err) history := by
  refine ⟨h.began_eq, h.append, nofun, fun _ hwrote => ?_⟩
  rw [h.wrote_eq] at hwrote
  cases hwrote

theorem meets_repositoryGet_updated {key : String} {history' : History}
    (hbegan : began history' = began history) (happend : ∃ more, history' = history ++ more)
    (hwrote : wrote history' = true)
    (hallowed : allowed history' (.statement (.getById .hsmSlot key))) :
    ((repositoryGet .hsmSlot "'hsm_slot'" HSMSlotDB.mapFromDB key).orElse asInternal).Meets
      allowed (Updated key history) history' := by
  have hlast (answer : Except PersistenceError (List HSMSlotRow)) :
      let read : Program.Event Effect.Answer := ⟨.statement (.getById .hsmSlot key), answer⟩
      began (history' ++ [read]) = began history ∧ wrote (history' ++ [read]) = true ∧
        (∃ more, history' ++ [read] = history ++ more) ∧
        (history' ++ [read]).getLast? = some read := by
    intro read
    have hbegan' : began (history' ++ [read]) = began history' := began_concat ..
    have hwrote' : wrote (history' ++ [read]) = (wrote history' || false) := wrote_concat ..
    rw [hwrote] at hwrote'
    obtain ⟨more, hmore⟩ := happend
    exact ⟨hbegan'.trans hbegan, hwrote', ⟨more ++ [read], by rw [hmore, List.append_assoc]⟩,
      List.getLast?_concat ..⟩
  apply (meets_repositoryGet hallowed).orElse
  · intro err history₂ h
    obtain ⟨answer, rfl, hbad, -⟩ := h
    obtain ⟨hbegan', -, happend', hread⟩ := hlast answer
    exact ⟨hbegan', happend', nofun, fun _ _ => ⟨answer, hread, hbad ⟨err, rfl⟩⟩⟩
  · intro slot history₂ h
    obtain ⟨answer, rfl, -, -⟩ := h
    obtain ⟨hbegan', hwrote', happend', -⟩ := hlast answer
    exact ⟨hbegan', happend', fun _ => hwrote', nofun⟩

theorem quiet_exists (t : Table) (key : Key t) : (Effect.statement (.exists_ t key)).Quiet :=
  fun _ => ⟨fun _ => rfl, rfl⟩

theorem quiet_newUUID : Effect.newUUID.Quiet := fun _ => ⟨fun _ => rfl, rfl⟩

variable {key resourceVersion : String} {assign : String → HSMSlotRow → HSMSlotRow}

theorem meets_repositoryEdit (hwrote : wrote history = false)
    (hexists : allowed history (.statement (.exists_ .hsmSlot key)))
    (hnew : ∀ history', Leaves history history' → allowed history' .newUUID)
    (hupdate : ∀ version history', Leaves history history' → Given history' version →
      allowed history' (.statement (.update .hsmSlot key resourceVersion (assign version))))
    (hread : ∀ history', began history' = began history → (∃ more, history' = history ++ more) →
      allowed history' (.statement (.getById .hsmSlot key))) :
    (repositoryEdit .hsmSlot "'hsm_slot'" HSMSlotDB.mapFromDB key resourceVersion assign).Meets
      allowed (Updated key history) history := by
  refine ⟨hexists, fun answer => ?_⟩
  have hleaves₁ : Leaves history (history ++ [⟨.statement (.exists_ .hsmSlot key), answer⟩]) :=
    (Leaves.refl hwrote).concat (quiet_exists .hsmSlot key) answer
  cases answer with
  | error err => exact updated_of_leaves hleaves₁ _
  | ok found =>
    cases found with
    | false => exact updated_of_leaves hleaves₁ _
    | true =>
      refine ⟨hnew _ hleaves₁, fun version => ?_⟩
      let history₂ : History :=
        history ++ [⟨.statement (.exists_ .hsmSlot key), .ok true⟩] ++ [⟨.newUUID, version⟩]
      have hleaves₂ : Leaves history history₂ := hleaves₁.concat quiet_newUUID version
      have hversion : Given history₂ version := given_append_newUUID ..
      refine ⟨hupdate version history₂ hleaves₂ hversion, fun answer => ?_⟩
      let update : Statement := .update .hsmSlot key resourceVersion (assign version)
      let history₃ : History := history₂ ++ [⟨.statement update, answer⟩]
      have hbegan₃ : began history₃ = began history :=
        (began_concat ..).trans hleaves₂.began_eq
      have hwrote₃ : wrote history₃ =
          (wrote history₂ || (Effect.statement update).wroteSlot answer) := wrote_concat ..
      rw [hleaves₂.wrote_eq, Bool.false_or] at hwrote₃
      have happend₃ : ∃ more, history₃ = history ++ more := by
        obtain ⟨more, hmore⟩ := hleaves₂.append
        exact ⟨more ++ [⟨.statement update, answer⟩], by rw [← List.append_assoc, ← hmore]⟩
      have hfails (hnot : wrote history₃ = false) (err : SignareError) :
          Updated key history (.error err) history₃ :=
        updated_of_leaves ⟨hbegan₃, hnot, happend₃⟩ err
      cases answer with
      | error err => exact hfails hwrote₃ _
      | ok rowsAffected =>
        change Nat at rowsAffected
        have hwrote₃ : wrote history₃ = (rowsAffected == 1) := hwrote₃
        by_cases hzero : rowsAffected = 0
        · subst hzero
          exact hfails hwrote₃ _
        · by_cases hmany : rowsAffected > 1
          · have hnot : wrote history₃ = false := by
              rw [hwrote₃, beq_eq_false_iff_ne]
              exact hmany.ne'
            change Program.Meets _ (if rowsAffected = 0 then _ else
              if rowsAffected > 1 then _ else _) _ _
            rw [if_neg hzero, if_pos hmany]
            exact hfails hnot _
          · have hone : rowsAffected = 1 := by omega
            subst hone
            exact meets_repositoryGet_updated hbegan₃ happend₃ hwrote₃
              (hread history₃ hbegan₃ happend₃)

/-- The configuration is written over what was read. -/
theorem meets_hsmSlotEditConfig {keccak : Hash256} {slot : HSMSlot}
    (hwrote : wrote history = false)
    (hexists : allowed history (.statement (.exists_ .hsmSlot slot.id)))
    (hnew : ∀ history', Leaves history history' → allowed history' .newUUID)
    (hupdate : ∀ version history', Leaves history history' → Given history' version →
      allowed history' (.statement (.update .hsmSlot slot.id slot.resourceVersion
        (assignConfig (HSMSlotDB.serialize keccak slot.config) version))))
    (hread : ∀ history', began history' = began history → (∃ more, history' = history ++ more) →
      allowed history' (.statement (.getById .hsmSlot slot.id))) :
    (hsmSlotEditConfig keccak slot).Meets allowed (Updated slot.id history) history := by
  rw [hsmSlotEditConfig]
  cases (notEmpty "'ID'" slot.id).mapError asInternal with
  | error err => exact updated_of_leaves (Leaves.refl hwrote) err
  | ok u => exact meets_repositoryEdit hwrote hexists hnew hupdate hread

end Signare
