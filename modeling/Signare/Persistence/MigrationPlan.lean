import Mathlib.Data.List.Forall2
import Signare.Persistence.MigrationRecord

/-!
# Plans of the migrator

A plan goes from the stored version to the target, one step for each version between them. The
target is checked against the number of steps before the loop over the versions begins, the stored
version is not.
-/

namespace Signare.DbMigrator

variable {Schema : Type}

/-- The numbers of the steps between two versions, upwards. -/
def numbersUp (version target : Int) : List Int :=
  (List.range (target - version).toNat).map fun k : Nat => version + 1 + (k : Int)

/-- The numbers of the steps between two versions, downwards. -/
def numbersDown (version target : Int) : List Int :=
  (List.range (version - target).toNat).map fun k : Nat => version - (k : Int)

/-- Step `number` upwards: it is the one at `number - 1` and leads to version `number`. -/
def UpStep (steps : List MigrationStep) (number : Int) (entry : StepToMigrate) : Prop :=
  ∃ step, stepAt steps (number - 1) = .ok step ∧
    entry = { file := step.upFile, version := number, description := step.versionDescription }

/-- Step `number` downwards leads to the version below. -/
def DownStep (steps : List MigrationStep) (number : Int) (entry : StepToMigrate) : Prop :=
  ∃ step, stepAt steps (number - 1) = .ok step ∧
    entry = { file := step.downFile, version := number - 1,
              description := step.versionDescription }

def IsPlan (steps : List MigrationStep) (version target : Int) (plan : List StepToMigrate) :
    Prop :=
  List.Forall₂ (UpStep steps) (numbersUp version target) plan ∧ version ≤ target ∨
    List.Forall₂ (DownStep steps) (numbersDown version target) plan ∧ target ≤ version

/-- The target passes its checks, and the loop begins outside the steps. -/
def Overreaches (version target : Int) (count : Nat) : Prop :=
  version < 0 ∧ version < target ∧ target ≤ count ∨ 0 ≤ target ∧ target ≤ count ∧ count < version

/-- The record a call on `migration` finds. -/
def World.stored (w : World Schema) (migration : Migration) : MigrationVersion :=
  w.database.recorded (migrationsTableName migration.migrationsTablePrefix)

/-- A plan from the stored version to the target. -/
def Migration.IsPlan (migration : Migration) (w : World Schema) (plan : List StepToMigrate) :
    Prop :=
  DbMigrator.IsPlan migration.steps (w.stored migration).version migration.targetVersion plan

/-- Nothing stops the call before it plans. -/
structure Plans (w : World Schema) (faults : Faults Schema) (migration : Migration) : Prop where
  openConnection : faults.openConnection = none
  initMigration : faults.initMigration = none
  getMigrationVersion : faults.getMigrationVersion = none
  clean : (w.stored migration).dirty = false

/-- How a call on `migration` may end: without a panic, with the steps of a plan or with an error,
and where there is no plan with an error, no script run and the record as it was. -/
structure EndsCleanly (exec : String → Schema → Schema) (w : World Schema)
    (faults : Faults Schema) (migration : Migration) (result : Except Failure Unit)
    (w' : World Schema) : Prop where
  no_panic : result ≠ .error .panic
  planned : result = .ok () → ∃ plan w₀, migration.IsPlan w plan ∧ w₀.opened = w.opened ∧
    w₀.executed = [] ∧ w₀.stored migration = w.stored migration ∧
    (migrateSteps exec faults.step plan).run w₀ = .ok () w'
  unplanned : (∀ plan, ¬ migration.IsPlan w plan) →
    (∃ message, result = .error (.error message)) ∧ w'.executed = [] ∧
      ∀ database ∈ w'.visited,
        database.recorded (migrationsTableName migration.migrationsTablePrefix) = w.stored migration

/-- The call ends so. -/
def FailsCleanly (exec : String → Schema → Schema) (w : World Schema) (faults : Faults Schema)
    (migration : Migration) : Prop :=
  EndsCleanly exec w faults migration (w.migrate exec faults migration).1
    (w.migrate exec faults migration).2

/-- The files of the steps are open. -/
def FilesOpen (w : World Schema) (migration : Migration) : Prop :=
  ∀ step ∈ migration.steps, step.upFile < w.opened.length ∧ step.downFile < w.opened.length

variable {steps : List MigrationStep} {plan : List StepToMigrate} {version target c : Int} {n : Nat}

theorem exists_stepAt_iff : (∃ step, stepAt steps c = .ok step) ↔ 0 ≤ c ∧ c < steps.length := by
  cases c with
  | ofNat i =>
    show (∃ step, (steps[i]?.map Except.ok).getD (.error Failure.panic) = .ok step) ↔ _
    by_cases hi : i < steps.length
    · rw [List.getElem?_eq_getElem hi]
      have hbound : (0 : Int) ≤ i ∧ (i : Int) < steps.length := by omega
      exact iff_of_true ⟨_, rfl⟩ hbound
    · rw [List.getElem?_eq_none (Nat.not_lt.mp hi)]
      apply iff_of_false
      · intro h
        obtain ⟨step, hstep⟩ := h
        cases hstep
      · intro h
        have hlt : (i : Int) < steps.length := h.2
        omega
  | negSucc i =>
    apply iff_of_false
    · intro h
      obtain ⟨step, hstep⟩ := h
      cases hstep
    · intro h
      exact absurd h.1 (by omega)

theorem stepAt_error {failure : Failure} (h : stepAt steps c = .error failure) :
    failure = .panic := by
  cases c with
  | ofNat i =>
    change (steps[i]?.map Except.ok).getD (.error Failure.panic) = .error failure at h
    cases hstep : steps[i]? with
    | none =>
      rw [hstep] at h
      cases h
      rfl
    | some step =>
      rw [hstep] at h
      cases h
  | negSucc i =>
    cases h
    rfl

theorem numbersUp_succ (h : (target - version).toNat = n + 1) :
    numbersUp version target = (version + 1) :: numbersUp (version + 1) target := by
  have hrest : (target - (version + 1)).toNat = n := by omega
  rw [numbersUp, numbersUp, h, hrest, List.range_succ_eq_map, List.map_cons, List.map_map]
  congr 1
  · exact Int.add_zero _
  · apply List.map_congr_left
    intro k _
    rw [Function.comp_apply]
    omega

theorem numbersDown_succ (h : (version - target).toNat = n + 1) :
    numbersDown version target = version :: numbersDown (version - 1) target := by
  have hrest : (version - 1 - target).toNat = n := by omega
  rw [numbersDown, numbersDown, h, hrest, List.range_succ_eq_map, List.map_cons, List.map_map]
  congr 1
  · exact Int.sub_zero _
  · apply List.map_congr_left
    intro k _
    rw [Function.comp_apply]
    omega

theorem stepsUp_eq_ok (h : (target - version).toNat = n) : stepsUp steps n version = .ok plan ↔
    List.Forall₂ (UpStep steps) (numbersUp version target) plan := by
  induction n generalizing version plan with
  | zero =>
    rw [numbersUp, h, List.range_zero, List.map_nil, List.forall₂_nil_left_iff]
    exact ⟨fun hplan => (Except.ok.inj hplan).symm, fun hplan => congrArg Except.ok hplan.symm⟩
  | succ n ih =>
    have hnext (later : List StepToMigrate) : stepsUp steps n (version + 1) = .ok later ↔
        List.Forall₂ (UpStep steps) (numbersUp (version + 1) target) later := ih (by omega)
    rw [numbersUp_succ h, List.forall₂_cons_left_iff, stepsUp]
    simp only [Except.bind_eq_ok, hnext, Except.pure_eq_ok]
    constructor
    · intro hplan
      obtain ⟨step, hstep, later, hlater, rfl⟩ := hplan
      refine ⟨_, later, ⟨step, ?_, rfl⟩, hlater, rfl⟩
      rw [Int.add_sub_cancel]
      exact hstep
    · intro hplan
      obtain ⟨entry, later, ⟨step, hstep, rfl⟩, hlater, rfl⟩ := hplan
      rw [Int.add_sub_cancel] at hstep
      exact ⟨step, hstep, later, hlater, rfl⟩

theorem stepsDown_eq_ok (h : (version - target).toNat = n) :
    stepsDown steps n version = .ok plan ↔
      List.Forall₂ (DownStep steps) (numbersDown version target) plan := by
  induction n generalizing version plan with
  | zero =>
    rw [numbersDown, h, List.range_zero, List.map_nil, List.forall₂_nil_left_iff]
    exact ⟨fun hplan => (Except.ok.inj hplan).symm, fun hplan => congrArg Except.ok hplan.symm⟩
  | succ n ih =>
    have hnext (later : List StepToMigrate) : stepsDown steps n (version - 1) = .ok later ↔
        List.Forall₂ (DownStep steps) (numbersDown (version - 1) target) later := ih (by omega)
    rw [numbersDown_succ h, List.forall₂_cons_left_iff, stepsDown]
    simp only [Except.bind_eq_ok, hnext, Except.pure_eq_ok]
    constructor
    · intro hplan
      obtain ⟨step, hstep, later, hlater, rfl⟩ := hplan
      exact ⟨_, later, ⟨step, hstep, rfl⟩, hlater, rfl⟩
    · intro hplan
      obtain ⟨entry, later, ⟨step, hstep, rfl⟩, hlater, rfl⟩ := hplan
      exact ⟨step, hstep, later, hlater, rfl⟩

theorem stepsUp_cases (steps : List MigrationStep) (n : Nat) (c : Int) :
    (∃ plan, stepsUp steps n c = .ok plan) ∧ (n = 0 ∨ 0 ≤ c ∧ c + n ≤ steps.length) ∨
      stepsUp steps n c = .error .panic ∧ ¬ (n = 0 ∨ 0 ≤ c ∧ c + n ≤ steps.length) := by
  induction n generalizing c with
  | zero => exact .inl ⟨⟨[], rfl⟩, .inl rfl⟩
  | succ n ih =>
    have hat : (∃ step, stepAt steps c = .ok step) ↔ 0 ≤ c ∧ c < steps.length :=
      exists_stepAt_iff
    cases hstep : stepAt steps c with
    | error failure =>
      right
      have hout : ¬ (0 ≤ c ∧ c < steps.length) := by
        rw [← hat, hstep]
        intro h
        obtain ⟨step, h⟩ := h
        cases h
      rw [stepsUp, hstep, stepAt_error hstep]
      refine ⟨rfl, ?_⟩
      omega
    | ok step =>
      have hin : 0 ≤ c ∧ c < steps.length := hat.mp ⟨step, hstep⟩
      rcases ih (c + 1) with ⟨⟨later, hlater⟩, hrange⟩ | ⟨hlater, hrange⟩
      · left
        let entry : StepToMigrate :=
          { file := step.upFile, version := c + 1, description := step.versionDescription }
        refine ⟨⟨entry :: later, ?_⟩, by omega⟩
        rw [stepsUp, hstep, Except.ok_bind, hlater]
        rfl
      · right
        refine ⟨?_, by omega⟩
        rw [stepsUp, hstep, Except.ok_bind, hlater]
        rfl

theorem stepsDown_cases (steps : List MigrationStep) (n : Nat) (c : Int) :
    (∃ plan, stepsDown steps n c = .ok plan) ∧ (n = 0 ∨ n ≤ c ∧ c ≤ steps.length) ∨
      stepsDown steps n c = .error .panic ∧ ¬ (n = 0 ∨ n ≤ c ∧ c ≤ steps.length) := by
  induction n generalizing c with
  | zero => exact .inl ⟨⟨[], rfl⟩, .inl rfl⟩
  | succ n ih =>
    have hat : (∃ step, stepAt steps (c - 1) = .ok step) ↔ 0 ≤ c - 1 ∧ c - 1 < steps.length :=
      exists_stepAt_iff
    cases hstep : stepAt steps (c - 1) with
    | error failure =>
      right
      have hout : ¬ (0 ≤ c - 1 ∧ c - 1 < steps.length) := by
        rw [← hat, hstep]
        intro h
        obtain ⟨step, h⟩ := h
        cases h
      rw [stepsDown, hstep, stepAt_error hstep]
      refine ⟨rfl, ?_⟩
      omega
    | ok step =>
      have hin : 0 ≤ c - 1 ∧ c - 1 < steps.length := hat.mp ⟨step, hstep⟩
      rcases ih (c - 1) with ⟨⟨later, hlater⟩, hrange⟩ | ⟨hlater, hrange⟩
      · left
        let entry : StepToMigrate :=
          { file := step.downFile, version := c - 1, description := step.versionDescription }
        refine ⟨⟨entry :: later, ?_⟩, by omega⟩
        rw [stepsDown, hstep, Except.ok_bind, hlater]
        rfl
      · right
        refine ⟨?_, by omega⟩
        rw [stepsDown, hstep, Except.ok_bind, hlater]
        rfl

theorem isPlan_up (h : version < target) : IsPlan steps version target plan ↔
    stepsUp steps (target - version).toNat version = .ok plan := by
  rw [stepsUp_eq_ok rfl, IsPlan]
  constructor
  · intro hplan
    rcases hplan with hup | hdown
    · exact hup.1
    · exact absurd hdown.2 (by omega)
  · intro hplan
    exact .inl ⟨hplan, by omega⟩

theorem isPlan_down (h : target < version) : IsPlan steps version target plan ↔
    stepsDown steps (version - target).toNat version = .ok plan := by
  rw [stepsDown_eq_ok rfl, IsPlan]
  constructor
  · intro hplan
    rcases hplan with hup | hdown
    · exact absurd hup.2 (by omega)
    · exact hdown.1
  · intro hplan
    exact .inr ⟨hplan, by omega⟩

theorem not_isPlan_up (h : version < target) (hout : ¬ (0 ≤ version ∧ target ≤ steps.length)) :
    ¬ IsPlan steps version target plan := by
  rw [isPlan_up h]
  intro hplan
  rcases stepsUp_cases steps (target - version).toNat version with ⟨-, hrange⟩ | ⟨hpanic, -⟩
  · omega
  · rw [hpanic] at hplan
    cases hplan

theorem not_isPlan_down (h : target < version) (hout : ¬ (0 ≤ target ∧ version ≤ steps.length)) :
    ¬ IsPlan steps version target plan := by
  rw [isPlan_down h]
  intro hplan
  rcases stepsDown_cases steps (version - target).toNat version with ⟨-, hrange⟩ | ⟨hpanic, -⟩
  · omega
  · rw [hpanic] at hplan
    cases hplan

theorem stepsToMigrate_cases (version target : Int) (steps : List MigrationStep) :
    (∃ plan, stepsToMigrate version target steps = .ok plan ∧ IsPlan steps version target plan) ∧
        ¬ Overreaches version target steps.length ∨
      (∀ plan, ¬ IsPlan steps version target plan) ∧
        ((∃ message, stepsToMigrate version target steps = .error (.error message)) ∧
            ¬ Overreaches version target steps.length ∨
          stepsToMigrate version target steps = .error .panic ∧
            Overreaches version target steps.length) := by
  unfold Overreaches stepsToMigrate
  by_cases hup : version < target
  · rw [if_pos hup, mapMigrationsUp]
    by_cases hhigh : (steps.length : Int) < target
    · rw [if_pos hhigh]
      right
      refine ⟨fun plan => not_isPlan_up hup (by omega), .inl ⟨⟨_, rfl⟩, by omega⟩⟩
    · rw [if_neg hhigh]
      rcases stepsUp_cases steps (target - version).toNat version with
        ⟨⟨plan, hplan⟩, hrange⟩ | ⟨hpanic, hrange⟩
      · exact .inl ⟨⟨plan, hplan, (isPlan_up hup).mpr hplan⟩, by omega⟩
      · exact .inr ⟨fun plan => not_isPlan_up hup (by omega), .inr ⟨hpanic, by omega⟩⟩
  · rw [if_neg hup]
    by_cases hdown : target < version
    · rw [if_pos hdown, mapMigrationsDown]
      by_cases hlow : target < 0
      · rw [if_pos hlow]
        exact .inr ⟨fun plan => not_isPlan_down hdown (by omega), .inl ⟨⟨_, rfl⟩, by omega⟩⟩
      · rw [if_neg hlow]
        by_cases hhigh : (steps.length : Int) < target
        · rw [if_pos hhigh]
          exact .inr ⟨fun plan => not_isPlan_down hdown (by omega), .inl ⟨⟨_, rfl⟩, by omega⟩⟩
        · rw [if_neg hhigh]
          rcases stepsDown_cases steps (version - target).toNat version with
            ⟨⟨plan, hplan⟩, hrange⟩ | ⟨hpanic, hrange⟩
          · exact .inl ⟨⟨plan, hplan, (isPlan_down hdown).mpr hplan⟩, by omega⟩
          · exact .inr ⟨fun plan => not_isPlan_down hdown (by omega), .inr ⟨hpanic, by omega⟩⟩
    · rw [if_neg hdown]
      have hsame : version = target := by omega
      have hnone : numbersUp version target = [] := by
        rw [hsame, numbersUp, Int.sub_self]
        rfl
      refine .inl ⟨⟨[], rfl, .inl ⟨?_, by omega⟩⟩, by omega⟩
      rw [hnone]
      exact .nil

theorem mem_of_stepAt {step : MigrationStep} (h : stepAt steps c = .ok step) : step ∈ steps := by
  cases c with
  | ofNat i => exact List.mem_of_getElem? (stepAt_ofNat h)
  | negSucc i => cases h

theorem IsPlan.file_lt {count : Nat} (h : IsPlan steps version target plan)
    (hopen : ∀ step ∈ steps, step.upFile < count ∧ step.downFile < count) :
    ∀ entry ∈ plan, entry.file < count := by
  rcases h with ⟨hup, -⟩ | ⟨hdown, -⟩
  · have hfiles := hup.flip.imp (S := fun entry number =>
      entry.file < count ∧ flip (UpStep steps) entry number) fun entry number hentry => by
        obtain ⟨step, hstep, heq⟩ := hentry
        refine ⟨?_, step, hstep, heq⟩
        rw [heq]
        exact (hopen step (mem_of_stepAt hstep)).1
    exact ((List.forall₂_and_left _ _).mp hfiles).1
  · have hfiles := hdown.flip.imp (S := fun entry number =>
      entry.file < count ∧ flip (DownStep steps) entry number) fun entry number hentry => by
        obtain ⟨step, hstep, heq⟩ := hentry
        refine ⟨?_, step, hstep, heq⟩
        rw [heq]
        exact (hopen step (mem_of_stepAt hstep)).2
    exact ((List.forall₂_and_left _ _).mp hfiles).1

variable {exec : String → Schema → Schema} {w : World Schema}

theorem ends_migrateStep_open (faults : StepFaults Schema) {step : StepToMigrate}
    (hconnected : w.connected = true) (hfile : step.file < w.opened.length) :
    Ends (migrateStep exec faults step) w fun result w' =>
      result ≠ .error .panic ∧ w'.connected = true ∧ w'.opened.length = w.opened.length := by
  have hread : w.opened[step.file]? = some w.opened[step.file] := List.getElem?_eq_getElem hfile
  have hlength : (w.opened.set step.file "").length = w.opened.length := List.length_set
  unfold migrateStep
  apply ends_setMigrationVersion_bind hconnected
  · intro message
    exact ⟨nofun, hconnected, rfl⟩
  · intro message
    exact ⟨nofun, hconnected, rfl⟩
  apply ends_readFile_bind (w := w.goTo _) hread
  · intro message
    exact ⟨nofun, hconnected, hlength⟩
  refine ends_runMigration_bind ?_ ?_ ?_
  · exact hconnected
  · intro message left
    exact ⟨nofun, hconnected, hlength⟩
  rw [← bind_pure (setMigrationVersion _ _)]
  refine ends_setMigrationVersion_bind ?_ ?_ ?_ ?_
  · exact hconnected
  · intro message
    exact ⟨nofun, hconnected, hlength⟩
  · intro message
    exact ⟨nofun, hconnected, hlength⟩
  · exact ⟨nofun, hconnected, hlength⟩

theorem ends_migrateSteps_open (faults : Nat → StepFaults Schema) {plan : List StepToMigrate}
    (hconnected : w.connected = true) (hfiles : ∀ entry ∈ plan, entry.file < w.opened.length) :
    Ends (migrateSteps exec faults plan) w fun result w' =>
      result ≠ .error .panic ∧ w'.connected = true := by
  induction plan generalizing w faults with
  | nil => exact ⟨nofun, hconnected⟩
  | cons step later ih =>
    rw [List.forall_mem_cons] at hfiles
    apply (ends_migrateStep_open (faults 0) hconnected hfiles.1).bind
    · intro failure w' hend
      exact ⟨hend.1, hend.2.1⟩
    · intro _ w' hend
      apply ih _ hend.2.1
      rw [hend.2.2]
      exact hfiles.2

variable {faults : Faults Schema} {migration : Migration}

theorem ends_migrateConnected_overreaches (hplans : Plans w faults migration)
    (hover : Overreaches (w.stored migration).version migration.targetVersion
      migration.steps.length) :
    Ends (migrateConnected exec faults migration) w fun result _ => result = .error .panic := by
  apply ends_migrateConnected
  · intro message w' hfault
    rcases hfault with ⟨hconnection, -⟩ | ⟨-, hinit⟩
    · exact absurd hplans.openConnection hconnection
    · rw [hplans.initMigration] at hinit
      cases hinit
  · intro w' _ _ hconnected hname _ _ hdatabase _
    have hstored : w'.database.recorded w'.migrationsTable = w.stored migration := by
      rw [hdatabase, hname, recorded_ensureMigrationTables, World.stored]
    apply ends_getMigrationVersion_bind hconnected
    · intro message hfault
      rw [hplans.getMigrationVersion] at hfault
      cases hfault
    intro _
    rw [hstored, if_neg (Bool.eq_false_iff.mp hplans.clean)]
    rcases stepsToMigrate_cases (w.stored migration).version migration.targetVersion
      migration.steps with ⟨-, hfits⟩ | ⟨-, ⟨-, hfits⟩ | ⟨hpanic, -⟩⟩
    · exact absurd hover hfits
    · exact absurd hover hfits
    · rw [hpanic]
      exact rfl

theorem ends_migrateConnected_cleanly (hopen : FilesOpen w migration)
    (hfits : ¬ (Plans w faults migration ∧ Overreaches (w.stored migration).version
      migration.targetVersion migration.steps.length)) :
    Ends (migrateConnected exec faults migration) w.begin fun result w' =>
      (faults.openConnection = none ∨ w.connected = true → w'.connected = true) ∧
        EndsCleanly exec w faults migration result w' := by
  apply ends_migrateConnected
  · intro message w' hfault hdatabase hvisited hexecuted
    refine ⟨?_, nofun, nofun, fun _ => ⟨⟨message, rfl⟩, hexecuted, ?_⟩⟩
    · intro h
      rcases hfault with ⟨hconnection, hsame⟩ | ⟨hconnected, -⟩
      · rw [hsame]
        exact h.resolve_left hconnection
      · exact hconnected
    · rw [hvisited]
      intro database hmem
      rw [List.mem_singleton.mp hmem]
      rfl
  · intro w' hconnection hinit hconnected hname hfiles hexecuted hdatabase hvisited
    have hsame (database : Database Schema) (hmem : database ∈ w'.visited) :
        database.recorded (migrationsTableName migration.migrationsTablePrefix) =
          w.stored migration := by
      rw [hvisited, hdatabase, hname] at hmem
      rcases List.mem_append.mp hmem with hmem | hmem
      · rw [List.mem_singleton.mp hmem]
        rfl
      · rw [List.mem_singleton.mp hmem, recorded_ensureMigrationTables]
        rfl
    have hrefused (message : String) :
        EndsCleanly exec w faults migration (.error (.error message)) w' :=
      ⟨nofun, nofun, fun _ => ⟨⟨message, rfl⟩, hexecuted, hsame⟩⟩
    have hstored : w'.database.recorded w'.migrationsTable = w.stored migration := by
      rw [hdatabase, hname, recorded_ensureMigrationTables]
      rfl
    apply ends_getMigrationVersion_bind hconnected
    · intro message _
      exact ⟨fun _ => hconnected, hrefused message⟩
    intro hversion
    rw [hstored]
    by_cases hdirty : (w.stored migration).dirty = true
    · rw [if_pos hdirty]
      exact ⟨fun _ => hconnected, hrefused _⟩
    rw [if_neg hdirty]
    have hplans : Plans w faults migration :=
      ⟨hconnection, hinit, hversion, Bool.eq_false_iff.mpr hdirty⟩
    rcases stepsToMigrate_cases (w.stored migration).version migration.targetVersion
      migration.steps with ⟨⟨plan, hplan, hisPlan⟩, -⟩ | ⟨-, ⟨⟨message, hrefuse⟩, -⟩ | ⟨-, hover⟩⟩
    · rw [hplan]
      have hlt : ∀ entry ∈ plan, entry.file < w'.opened.length := by
        rw [hfiles]
        exact hisPlan.file_lt hopen
      have hends : Ends (migrateSteps exec faults.step plan) w' _ :=
        ends_migrateSteps_open faults.step hconnected hlt
      apply hends.with_run.mono
      intro result w'' hend
      obtain ⟨⟨hpanic, hconnected'⟩, hrun⟩ := hend
      refine ⟨fun _ => hconnected', hpanic, ?_, fun hnone => absurd hisPlan (hnone plan)⟩
      intro hok
      refine ⟨plan, w', hisPlan, hfiles, hexecuted, ?_, hrun () hok⟩
      rw [World.stored, ← hname]
      exact hstored
    · rw [hrefuse]
      exact ⟨fun _ => hconnected, hrefused message⟩
    · exact absurd ⟨hplans, hover⟩ hfits

/-- A call ends cleanly exactly if there is a connection to close, and the stored version is not
outside the steps while the target is within them. -/
theorem failsCleanly_iff (exec : String → Schema → Schema) (w : World Schema)
    (faults : Faults Schema) (migration : Migration) (hopen : FilesOpen w migration) :
    FailsCleanly exec w faults migration ↔
      (faults.openConnection = none ∨ w.connected = true) ∧
        ¬ (Plans w faults migration ∧ Overreaches (w.stored migration).version
          migration.targetVersion migration.steps.length) := by
  have hpanics (h : (w.migrate exec faults migration).1 = .error .panic) :
      ¬ FailsCleanly exec w faults migration := fun hclean => hclean.no_panic h
  constructor
  · intro h
    constructor
    · by_contra hnone
      rw [not_or] at hnone
      have hend : Ends (migrateConnected exec faults migration) w.begin fun _ w' =>
          w' = w.begin := by
        obtain ⟨message, hfault⟩ := Option.ne_none_iff_exists'.mp hnone.1
        unfold migrateConnected openConnection
        rw [hfault]
        exact rfl
      apply hpanics _ h
      apply migrate_of_ends (Q := fun result _ => result = .error .panic)
      apply ends_migrate_closing hend
      · intro _ w' hsame hconnected
        rw [hsame] at hconnected
        exact absurd hconnected hnone.2
      · intro _ _ _ _
        rfl
    · intro hover
      obtain ⟨hplans, hover⟩ := hover
      have hend : Ends (migrateConnected exec faults migration) w.begin fun result _ =>
          result = .error .panic :=
        ends_migrateConnected_overreaches
          ⟨hplans.openConnection, hplans.initMigration, hplans.getMigrationVersion, hplans.clean⟩
          hover
      apply hpanics _ h
      apply migrate_of_ends (Q := fun result _ => result = .error .panic)
      apply ends_migrate_closing hend
      · intro _ _ hpanic _
        exact hpanic
      · intro _ _ _ _
        rfl
  · intro h
    obtain ⟨hconnection, hfits⟩ := h
    apply migrate_of_ends (Q := EndsCleanly exec w faults migration)
    apply ends_migrate_closing (ends_migrateConnected_cleanly hopen hfits)
    · intro result w' hend _
      exact hend.2
    · intro result w' hend hclosed
      rw [hend.1 hconnection] at hclosed
      cases hclosed

/-- The switch is turned on, in one step that is found and planned. -/
theorem failsCleanly_iff_onOff : FailsCleanly onOff onOffWorld {} (onOffMigration 1) := by
  have hopen : FilesOpen onOffWorld (onOffMigration 1) := by
    intro step hstep
    rw [List.mem_singleton.mp hstep]
    decide
  rw [failsCleanly_iff onOff onOffWorld {} (onOffMigration 1) hopen]
  refine ⟨.inl rfl, ?_⟩
  intro hover
  rcases hover.2 with ⟨hlow, -⟩ | ⟨-, -, hhigh⟩
  · exact absurd hlow (by decide)
  · exact absurd hhigh (by decide)

/-- A newer program has stored version 2; an older one that has a single step panics. -/
theorem newerDatabase_panics :
    ¬ FailsCleanly onOff
      (onOffWorld.goTo (newDatabase.record defaultMigrationsTable
        { version := 2, dirty := false, description := "second" })) {} (onOffMigration 1) := by
  intro h
  exact h.no_panic rfl

end Signare.DbMigrator
