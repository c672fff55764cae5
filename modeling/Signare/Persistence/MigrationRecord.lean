import Signare.Lib.Outcome
import Signare.Persistence.DbMigrator

/-!
# The migration record

A clean version record names the schema, in every state a run of migrations goes through, provided
that every call is given files that are read for the first time.
-/

namespace Signare.DbMigrator

structure Script where
  up : String
  down : String

variable {Schema : Type} (exec : String → Schema → Schema) (base : Schema) (scripts : List Script)
  (table : String)

/-- The result of the first `v` up scripts. -/
def schemaAt (v : Nat) : Schema :=
  (scripts.take v).foldl (fun schema script => exec script.up schema) base

theorem schemaAt_succ {exec : String → Schema → Schema} {base : Schema} {scripts : List Script}
    {v : Nat} {script : Script} (h : scripts[v]? = some script) :
    schemaAt exec base scripts (v + 1) = exec script.up (schemaAt exec base scripts v) := by
  obtain ⟨hv, rfl⟩ := List.getElem?_eq_some_iff.mp h
  rw [schemaAt, List.take_succ_eq_append_getElem hv, List.foldl_append]
  rfl

/-- The record says that version `v` is complete. -/
def Database.CleanAt {Schema : Type} (database : Database Schema) (table : String) (v : Int) :
    Prop :=
  (database.recorded table).dirty = false ∧ (database.recorded table).version = v

/-- A clean record names the schema. -/
def Database.Truthful (database : Database Schema) : Prop :=
  ∀ v : Int, database.CleanAt table v →
    ∃ n : Nat, v = n ∧ n ≤ scripts.length ∧ database.schema = schemaAt exec base scripts n

/-- Each down script undoes the up script of its version. -/
def Undoes : Prop :=
  ∀ (v : Nat) (script : Script), scripts[v]? = some script →
    exec script.down (schemaAt exec base scripts (v + 1)) = schemaAt exec base scripts v

/-- The files of the steps are the scripts, each open under an index of its own and not read. -/
structure Opened (scripts : List Script) (steps : List MigrationStep) (opened : List String) :
    Prop where
  length : steps.length = scripts.length
  up {i : Nat} {step : MigrationStep} {script : Script} : steps[i]? = some step →
    scripts[i]? = some script → opened[step.upFile]? = some script.up
  down {i : Nat} {step : MigrationStep} {script : Script} : steps[i]? = some step →
    scripts[i]? = some script → opened[step.downFile]? = some script.down
  upFile_inj {i j : Nat} {step step' : MigrationStep} : steps[i]? = some step →
    steps[j]? = some step' → step.upFile = step'.upFile → i = j
  downFile_inj {i j : Nat} {step step' : MigrationStep} : steps[i]? = some step →
    steps[j]? = some step' → step.downFile = step'.downFile → i = j

variable {exec base scripts table} {w : World Schema} {database : Database Schema}

@[simp] theorem recorded_record (row : MigrationVersion) :
    (database.record table row).recorded table = row := by
  simp [Database.recorded, Database.record]

@[simp] theorem schema_record (row : MigrationVersion) :
    (database.record table row).schema = database.schema := rfl

@[simp] theorem recorded_ensureMigrationTables :
    (database.ensureMigrationTables table).recorded table = database.recorded table := by
  unfold Database.ensureMigrationTables
  cases h : database.tables table with
  | none => simp [Database.recorded, h]
  | some rows => rfl

@[simp] theorem schema_ensureMigrationTables :
    (database.ensureMigrationTables table).schema = database.schema := by
  unfold Database.ensureMigrationTables
  cases database.tables table with
  | none => rfl
  | some rows => rfl

theorem Database.Truthful.of_dirty (h : (database.recorded table).dirty = true) :
    database.Truthful exec base scripts table := by
  intro v hclean
  rw [hclean.1] at h
  cases h

theorem Database.Truthful.of_eq {database' : Database Schema}
    (h : database.Truthful exec base scripts table)
    (hrecorded : database'.recorded table = database.recorded table)
    (hschema : database'.schema = database.schema) :
    database'.Truthful exec base scripts table := by
  intro v hclean
  rw [hschema]
  apply h v
  rw [CleanAt, ← hrecorded]
  exact hclean

section Operations

variable {α : Type} {Q : Except Failure α → World Schema → Prop}
  {f : Unit → Migrating Schema α}

theorem ends_failOn_bind {fault : Option String}
    (herror : ∀ message, fault = some message → Q (.error (.error message)) w)
    (hok : fault = none → Ends (f ()) w Q) : Ends (failOn fault >>= f) w Q := by
  cases fault with
  | none => exact hok rfl
  | some message => exact herror message rfl

theorem ends_requireConnection_bind (hconnected : w.connected = true) (hok : Ends (f ()) w Q) :
    Ends (requireConnection >>= f) w Q := by
  simp only [requireConnection, bind_assoc, ends_get_bind, hconnected, not_true_eq_false, if_false,
    pure_bind]
  exact hok

/-- A failure leaves the record as it was, or the write was made and its answer lost. -/
theorem ends_setMigrationVersion_bind {fault : Option (RecordFault × String)}
    {row : MigrationVersion} (hconnected : w.connected = true)
    (herror : ∀ message, Q (.error (.error message)) w)
    (hlost : ∀ message, Q (.error (.error message)) (w.goTo (w.database.record w.migrationsTable row)))
    (hok : Ends (f ()) (w.goTo (w.database.record w.migrationsTable row)) Q) :
    Ends (setMigrationVersion fault row >>= f) w Q := by
  unfold setMigrationVersion
  rw [bind_assoc]
  apply ends_requireConnection_bind hconnected
  match fault with
  | none => exact hok
  | some (.commit true, message) => exact hlost _
  | some (.commit false, message) => exact herror _
  | some (.begin, message) => exact herror _
  | some (.truncate, message) => exact herror _
  | some (.insert, message) => exact herror _

theorem ends_readFile_bind {fault : Option String} {file : Nat} {script : String}
    {g : String → Migrating Schema α} (hfile : w.opened[file]? = some script)
    (herror : ∀ message, Q (.error (.error message)) (w.read file))
    (hok : Ends (g script) (w.read file) Q) :
    Ends (readFile fault file >>= g) w Q := by
  simp only [readFile, bind_assoc, ends_get_bind, hfile, ends_modify_bind]
  exact ends_failOn_bind (fun message _ => herror message) fun _ => hok

theorem ends_runMigration_bind {fault : Option (Schema × String)} {script : String}
    (hconnected : w.connected = true)
    (herror : ∀ message left, Q (.error (.error message))
      ((w.execute script).goTo { w.database with schema := left }))
    (hok : Ends (f ()) ((w.execute script).goTo
      { w.database with schema := exec script w.database.schema }) Q) :
    Ends (runMigration exec fault script >>= f) w Q := by
  unfold runMigration
  rw [bind_assoc]
  apply ends_requireConnection_bind hconnected
  match fault with
  | none => exact hok
  | some (left, message) => exact herror _ left

end Operations

variable (exec base scripts table) in
/-- Every state of the database so far is truthful. -/
structure World.Honest (w : World Schema) : Prop where
  database : w.database.Truthful exec base scripts table
  visited : ∀ d ∈ w.visited, d.Truthful exec base scripts table

variable (exec base scripts table) in
/-- What holds between two operations of a call. -/
structure Ongoing (w : World Schema) : Prop extends w.Honest exec base scripts table where
  connected : w.connected = true
  migrationsTable : w.migrationsTable = table

theorem World.Honest.goTo (h : w.Honest exec base scripts table)
    (hdatabase : database.Truthful exec base scripts table) :
    (w.goTo database).Honest exec base scripts table := by
  refine ⟨hdatabase, fun d hd => ?_⟩
  rcases List.mem_append.mp hd with hd | hd
  · exact h.visited d hd
  · rw [List.mem_singleton.mp hd]
    exact hdatabase

theorem Ongoing.goTo (h : Ongoing exec base scripts table w)
    (hdatabase : database.Truthful exec base scripts table) :
    Ongoing exec base scripts table (w.goTo database) :=
  ⟨h.toHonest.goTo hdatabase, h.connected, h.migrationsTable⟩

theorem Ongoing.read (h : Ongoing exec base scripts table w) (file : Nat) :
    Ongoing exec base scripts table (w.read file) :=
  ⟨⟨h.database, h.visited⟩, h.connected, h.migrationsTable⟩

theorem Ongoing.execute (h : Ongoing exec base scripts table w) (migration : String) :
    Ongoing exec base scripts table (w.execute migration) :=
  ⟨⟨h.database, h.visited⟩, h.connected, h.migrationsTable⟩

variable {v v' target : Nat} {step : StepToMigrate} {script : String} {plan : List StepToMigrate}

theorem ends_migrateStep (h : Ongoing exec base scripts table w) (faults : StepFaults Schema)
    (hschema : w.database.schema = schemaAt exec base scripts v)
    (hfile : w.opened[step.file]? = some script) (hversion : step.version = v')
    (hle : v' ≤ scripts.length)
    (hexec : exec script (schemaAt exec base scripts v) = schemaAt exec base scripts v') :
    Ends (migrateStep exec faults step) w fun result w' =>
      w'.Honest exec base scripts table ∧ (result = .ok () →
        Ongoing exec base scripts table w' ∧ w'.database.CleanAt table v' ∧
          w'.database.schema = schemaAt exec base scripts v' ∧
          w'.opened = w.opened.set step.file "") := by
  have htable := h.migrationsTable
  let mark : MigrationVersion :=
    { version := step.version, dirty := true, description := step.description }
  have hmarked : Ongoing exec base scripts table (w.goTo (w.database.record table mark)) := by
    apply h.goTo
    apply Database.Truthful.of_dirty
    rw [recorded_record]
  have hread := hmarked.read step.file
  have hran (schema : Schema) : Ongoing exec base scripts table
      ((((w.goTo (w.database.record table mark)).read step.file).execute script).goTo
        { w.database.record table mark with schema }) := by
    apply (hread.execute script).goTo
    apply Database.Truthful.of_dirty
    exact congrArg MigrationVersion.dirty (recorded_record mark)
  have hcompleted : exec script w.database.schema = schemaAt exec base scripts v' := by
    rw [hschema, hexec]
  let complete := Database.record
    { w.database.record table mark with schema := exec script w.database.schema } table
    { mark with dirty := false }
  have hclean : complete.CleanAt table v' := by
    rw [Database.CleanAt, recorded_record]
    exact ⟨rfl, hversion⟩
  have htruthful : complete.Truthful exec base scripts table := by
    intro n hn
    refine ⟨v', hn.2.symm.trans hclean.2, hle, hcompleted⟩
  unfold migrateStep
  apply ends_setMigrationVersion_bind h.connected
  · intro failure
    exact ⟨h.toHonest, nofun⟩
  · intro failure
    rw [htable]
    exact ⟨hmarked.toHonest, nofun⟩
  rw [htable]
  apply ends_readFile_bind (w := w.goTo _) hfile
  · intro failure
    exact ⟨hread.toHonest, nofun⟩
  apply ends_runMigration_bind hread.connected
  · intro failure left
    exact ⟨(hran left).toHonest, nofun⟩
  rw [← bind_pure (setMigrationVersion _ _)]
  have hcomplete := (hran (exec script w.database.schema)).goTo htruthful
  apply ends_setMigrationVersion_bind (hran _).connected
  · intro failure
    exact ⟨(hran _).toHonest, nofun⟩
  · intro failure
    rw [(hran _).migrationsTable]
    exact ⟨hcomplete.toHonest, nofun⟩
  · rw [(hran _).migrationsTable]
    exact ⟨hcomplete.toHonest, fun _ => ⟨hcomplete, hclean, hcompleted, rfl⟩⟩

/-- The scripts of a plan, in files that are open and not read, lead from version to version. -/
inductive Leads (exec : String → Schema → Schema) (states : Nat → Schema) (last : Nat)
    (opened : List String) : Nat → List StepToMigrate → Nat → Prop
  | nil {v : Nat} : Leads exec states last opened v [] v
  | cons {v v' target : Nat} {step : StepToMigrate} {script : String} {later : List StepToMigrate}
      (hfile : opened[step.file]? = some script) (hversion : step.version = v') (hle : v' ≤ last)
      (hexec : exec script (states v) = states v') (hother : ∀ s ∈ later, s.file ≠ step.file)
      (hlater : Leads exec states last opened v' later target) :
      Leads exec states last opened v (step :: later) target

theorem Leads.read {states : Nat → Schema} {last file : Nat} {opened : List String}
    (h : Leads exec states last opened v plan target) (hother : ∀ s ∈ plan, s.file ≠ file) :
    Leads exec states last (opened.set file "") v plan target := by
  induction h with
  | nil => exact .nil
  | @cons v v' target step script later hfile hversion hle hexec hdistinct _ ih =>
    have hne : file ≠ step.file := (hother step List.mem_cons_self).symm
    have hfile' : (opened.set file "")[step.file]? = some script := by
      rw [List.getElem?_set_ne hne]
      exact hfile
    exact .cons hfile' hversion hle hexec hdistinct
      (ih fun s hs => hother s (List.mem_cons_of_mem step hs))

theorem ends_migrateSteps (h : Ongoing exec base scripts table w)
    (faults : Nat → StepFaults Schema) (hschema : w.database.schema = schemaAt exec base scripts v)
    (hclean : w.database.CleanAt table v)
    (hplan : Leads exec (schemaAt exec base scripts) scripts.length w.opened v plan target) :
    Ends (migrateSteps exec faults plan) w fun result w' =>
      w'.Honest exec base scripts table ∧ (result = .ok () → w'.database.CleanAt table target) := by
  induction plan generalizing w v faults with
  | nil =>
    cases hplan
    exact ⟨h.toHonest, fun _ => hclean⟩
  | cons step later ih =>
    cases hplan with
    | cons hfile hversion hle hexec hother hlater =>
      apply (ends_migrateStep h (faults 0) hschema hfile hversion hle hexec).bind
      · intro failure w' hend
        exact ⟨hend.1, nofun⟩
      · intro _ w' hend
        have hend' := hend.2 rfl
        apply ih hend'.1 _ hend'.2.2.1 hend'.2.1
        rw [hend'.2.2.2]
        exact hlater.read hother

variable {steps : List MigrationStep} {opened : List String} {n c : Nat}

theorem stepAt_ofNat {step : MigrationStep} (h : stepAt steps (c : Int) = .ok step) :
    steps[c]? = some step := by
  change (steps[c]?.map Except.ok).getD (.error Failure.panic) = .ok step at h
  cases hstep : steps[c]? with
  | none =>
    rw [hstep] at h
    cases h
  | some found =>
    rw [hstep] at h
    cases h
    rfl

theorem Opened.exists_script (hopened : Opened scripts steps opened) {step : MigrationStep}
    (hstep : steps[c]? = some step) : ∃ script, scripts[c]? = some script := by
  have hc : c < scripts.length := by
    rw [← hopened.length]
    exact (List.getElem?_eq_some_iff.mp hstep).1
  exact ⟨scripts[c], List.getElem?_eq_getElem hc⟩

theorem leads_stepsUp (hopened : Opened scripts steps opened) (hc : c + n ≤ scripts.length)
    (h : stepsUp steps n c = .ok plan) :
    Leads exec (schemaAt exec base scripts) scripts.length opened c plan (c + n) ∧
      ∀ s ∈ plan, ∃ i step, c ≤ i ∧ steps[i]? = some step ∧ s.file = step.upFile := by
  induction n generalizing c plan with
  | zero =>
    cases h
    exact ⟨.nil, nofun⟩
  | succ n ih =>
    obtain ⟨step, hstep, h⟩ := Except.bind_eq_ok.mp h
    obtain ⟨later, hlater, hplan⟩ := Except.bind_eq_ok.mp h
    cases hplan
    have hstep := stepAt_ofNat hstep
    obtain ⟨script, hscript⟩ := hopened.exists_script hstep
    obtain ⟨hleads, hfiles⟩ := ih (c := c + 1) (by omega) hlater
    have hle : c + 1 ≤ scripts.length := by omega
    rw [show c + (n + 1) = c + 1 + n by omega]
    refine ⟨.cons (hopened.up hstep hscript) rfl hle (schemaAt_succ hscript).symm ?_ hleads, ?_⟩
    · intro s hs heq
      obtain ⟨i, step', hi, hstep', hfile⟩ := hfiles s hs
      have := hopened.upFile_inj hstep' hstep (hfile.symm.trans heq)
      omega
    · intro s hs
      rcases List.mem_cons.mp hs with rfl | hs
      · exact ⟨c, step, Nat.le_refl c, hstep, rfl⟩
      · obtain ⟨i, step', hi, hstep', hfile⟩ := hfiles s hs
        exact ⟨i, step', by omega, hstep', hfile⟩

theorem leads_stepsDown (hundoes : Undoes exec base scripts)
    (hopened : Opened scripts steps opened) (hc : c + n ≤ scripts.length)
    (h : stepsDown steps n ((c + n : Nat) : Int) = .ok plan) :
    Leads exec (schemaAt exec base scripts) scripts.length opened (c + n) plan c ∧
      ∀ s ∈ plan, ∃ i step, i < c + n ∧ steps[i]? = some step ∧ s.file = step.downFile := by
  induction n generalizing plan with
  | zero =>
    cases h
    exact ⟨.nil, nofun⟩
  | succ n ih =>
    have hprevious : ((c + (n + 1) : Nat) : Int) - 1 = ((c + n : Nat) : Int) := by omega
    rw [stepsDown, hprevious] at h
    obtain ⟨step, hstep, h⟩ := Except.bind_eq_ok.mp h
    obtain ⟨later, hlater, hplan⟩ := Except.bind_eq_ok.mp h
    cases hplan
    have hstep := stepAt_ofNat hstep
    obtain ⟨script, hscript⟩ := hopened.exists_script hstep
    obtain ⟨hleads, hfiles⟩ := ih (by omega) hlater
    refine ⟨.cons (hopened.down hstep hscript) rfl (by omega) (hundoes _ _ hscript) ?_ hleads, ?_⟩
    · intro s hs heq
      obtain ⟨i, step', hi, hstep', hfile⟩ := hfiles s hs
      have := hopened.downFile_inj hstep' hstep (hfile.symm.trans heq)
      omega
    · intro s hs
      rcases List.mem_cons.mp hs with rfl | hs
      · exact ⟨c + n, step, by omega, hstep, rfl⟩
      · obtain ⟨i, step', hi, hstep', hfile⟩ := hfiles s hs
        exact ⟨i, step', by omega, hstep', hfile⟩

theorem leads_stepsToMigrate (hundoes : Undoes exec base scripts)
    (hopened : Opened scripts steps opened) (hv : v ≤ scripts.length) {targetVersion : Int}
    (h : stepsToMigrate v targetVersion steps = .ok plan) :
    ∃ target : Nat, targetVersion = target ∧
      Leads exec (schemaAt exec base scripts) scripts.length opened v plan target := by
  have hlength := hopened.length
  unfold stepsToMigrate at h
  split at h
  · next hup =>
    unfold mapMigrationsUp at h
    split at h
    · cases h
    · next hle =>
      refine ⟨v + (targetVersion - v).toNat, by omega, ?_⟩
      exact (leads_stepsUp hopened (by omega) h).1
  · split at h
    · next hdown =>
      unfold mapMigrationsDown at h
      split at h
      · cases h
      · split at h
        · cases h
        · next hpos hle =>
          have hv' : v = targetVersion.toNat + ((v : Int) - targetVersion).toNat := by omega
          refine ⟨targetVersion.toNat, by omega, ?_⟩
          have hplan : stepsDown steps ((v : Int) - targetVersion).toNat
              ((targetVersion.toNat + ((v : Int) - targetVersion).toNat : Nat) : Int) =
                .ok plan := by
            rw [← hv']
            exact h
          have hleads := (leads_stepsDown hundoes hopened (by omega) hplan).1
          rw [← hv'] at hleads
          exact hleads
    · next hsame hsame' =>
      cases h
      exact ⟨v, by omega, .nil⟩

variable {migration : Migration}

theorem ends_ofExcept_bind {α β : Type} {x : Except Failure α} {f : α → Migrating Schema β}
    {Q : Except Failure β → World Schema → Prop}
    (herror : ∀ failure, x = .error failure → Q (.error failure) w)
    (hok : ∀ a, x = .ok a → Ends (f a) w Q) : Ends (MonadExcept.ofExcept x >>= f) w Q := by
  cases x with
  | error failure => exact herror failure rfl
  | ok a => exact hok a rfl

/-- Up to the version record, a call opens a connection and creates the version table. -/
theorem ends_migrateConnected {Q : Except Failure Unit → World Schema → Prop}
    {faults : Faults Schema}
    (herror : ∀ message w',
      (faults.openConnection ≠ none ∧ w'.connected = w.connected ∨
        w'.connected = true ∧ faults.initMigration = some message) →
      w'.database = w.database → w'.visited = w.visited → w'.executed = w.executed →
      Q (.error (.error message)) w')
    (hread : ∀ w', faults.openConnection = none → faults.initMigration = none →
      w'.connected = true → w'.migrationsTable = migrationsTableName migration.migrationsTablePrefix →
      w'.opened = w.opened → w'.executed = w.executed →
      w'.database = w.database.ensureMigrationTables w'.migrationsTable →
      w'.visited = w.visited ++ [w'.database] →
      Ends (do
        let version ← getMigrationVersion faults.getMigrationVersion
        if version.dirty then throw (dirtyError version.version)
        let plan ← MonadExcept.ofExcept <|
          stepsToMigrate version.version migration.targetVersion migration.steps
        migrateSteps exec faults.step plan) w' Q) :
    Ends (migrateConnected exec faults migration) w Q := by
  unfold migrateConnected openConnection
  rw [bind_assoc]
  apply ends_failOn_bind
  · intro message hopen
    rw [hopen] at herror
    exact herror message w (.inl ⟨nofun, rfl⟩) rfl rfl rfl
  intro hopen
  unfold initMigration
  rw [ends_modify_bind, bind_assoc]
  apply ends_requireConnection_bind rfl
  rw [bind_assoc, ends_modify_bind, bind_assoc]
  apply ends_failOn_bind
  · intro message hinit
    exact herror message _ (.inr ⟨rfl, hinit⟩) rfl rfl rfl
  · intro hinit
    exact hread _ hopen hinit rfl rfl rfl rfl rfl rfl

theorem ends_getMigrationVersion_bind {α : Type} {fault : Option String}
    {f : MigrationVersion → Migrating Schema α} {Q : Except Failure α → World Schema → Prop}
    (hconnected : w.connected = true)
    (herror : ∀ message, fault = some message → Q (.error (.error message)) w)
    (hok : fault = none → Ends (f (w.database.recorded w.migrationsTable)) w Q) :
    Ends (getMigrationVersion fault >>= f) w Q := by
  unfold getMigrationVersion
  rw [bind_assoc]
  apply ends_requireConnection_bind hconnected
  rw [bind_assoc]
  exact ends_failOn_bind herror hok

theorem ends_migrateConnected_honest (hundoes : Undoes exec base scripts)
    (hopened : Opened scripts migration.steps w.opened)
    (htable : migrationsTableName migration.migrationsTablePrefix = table)
    (h : w.Honest exec base scripts table) (faults : Faults Schema) :
    Ends (migrateConnected exec faults migration) w fun result w' =>
      w'.Honest exec base scripts table ∧
        (result = .ok () → w'.database.CleanAt table migration.targetVersion) := by
  apply ends_migrateConnected
  · intro message w' _ hdatabase hvisited _
    refine ⟨⟨?_, ?_⟩, nofun⟩
    · rw [hdatabase]
      exact h.database
    · rw [hvisited]
      exact h.visited
  · intro w' _ _ hconnected hname hfiles _ hdatabase hvisited
    rw [htable] at hname
    rw [hname] at hdatabase
    have htruthful : w'.database.Truthful exec base scripts table := by
      apply h.database.of_eq
      · rw [hdatabase, recorded_ensureMigrationTables]
      · rw [hdatabase, schema_ensureMigrationTables]
    have hongoing : Ongoing exec base scripts table w' := by
      refine ⟨⟨htruthful, ?_⟩, hconnected, hname⟩
      rw [hvisited]
      exact (h.goTo htruthful).visited
    apply ends_getMigrationVersion_bind hconnected
    · intro message _
      exact ⟨hongoing.toHonest, nofun⟩
    intro _
    rw [hname]
    by_cases hdirty : (w'.database.recorded table).dirty = true
    · rw [if_pos hdirty]
      exact ⟨hongoing.toHonest, nofun⟩
    · rw [if_neg hdirty]
      have hclean : w'.database.CleanAt table (w'.database.recorded table).version :=
        ⟨Bool.eq_false_iff.mpr hdirty, rfl⟩
      obtain ⟨v, hv, hle, hschema⟩ := htruthful _ hclean
      rw [hv] at hclean ⊢
      apply ends_ofExcept_bind
      · intro failure _
        exact ⟨hongoing.toHonest, nofun⟩
      · intro plan hplan
        rw [← hfiles] at hopened
        obtain ⟨target, htarget, hleads⟩ := leads_stepsToMigrate hundoes hopened hle hplan
        rw [htarget]
        exact ends_migrateSteps hongoing _ hschema hclean hleads

theorem ends_migrateConnected_dirty
    (hdirty : (w.database.recorded (migrationsTableName migration.migrationsTablePrefix)).dirty =
      true) (faults : Faults Schema) :
    Ends (migrateConnected exec faults migration) w fun _ w' =>
      w'.executed = w.executed ∧ w'.database = w.database ∧
        ∀ d ∈ w'.visited, d ∈ w.visited ∨ d = w.database := by
  apply ends_migrateConnected
  · intro message w' _ hdatabase hvisited hexecuted
    refine ⟨hexecuted, hdatabase, fun d hd => .inl ?_⟩
    rw [← hvisited]
    exact hd
  · intro w' _ _ hconnected hname _ hexecuted hdatabase hvisited
    have hsame : w'.database = w.database := by
      rw [hdatabase, hname]
      unfold Database.recorded at hdirty
      unfold Database.ensureMigrationTables
      split at hdirty
      · next heq => rw [heq]
      · cases hdirty
    have hend : w'.executed = w.executed ∧ w'.database = w.database ∧
        ∀ d ∈ w'.visited, d ∈ w.visited ∨ d = w.database := by
      refine ⟨hexecuted, hsame, fun d hd => ?_⟩
      rw [hvisited, hsame] at hd
      exact (List.mem_append.mp hd).imp_right List.mem_singleton.mp
    apply ends_getMigrationVersion_bind hconnected
    · intro message _
      exact hend
    intro _
    rw [hname, hsame, if_pos hdirty]
    exact hend

/-- Closing the connection changes no state. It panics where there is none. -/
theorem ends_migrate_closing {faults : Faults Schema}
    {Q R : Except Failure Unit → World Schema → Prop}
    (h : Ends (migrateConnected exec faults migration) w Q)
    (hclosed : ∀ result w', Q result w' → w'.connected = true → R result w')
    (hpanic : ∀ result w', Q result w' → w'.connected = false → R (.error .panic) w') :
    Ends (migrate exec faults migration) w R := by
  apply ends_tryFinally h
  · intro _ w' hend
    unfold closeConnection
    rw [ends_get_bind]
    by_cases hconnected : w'.connected = true
    · rw [if_neg (not_not.mpr hconnected)]
      exact hclosed _ w' hend hconnected
    · rw [if_pos hconnected]
      exact hpanic _ w' hend (Bool.eq_false_iff.mpr hconnected)
  · intro failure w' hend
    unfold closeConnection
    rw [ends_get_bind]
    by_cases hconnected : w'.connected = true
    · rw [if_neg (not_not.mpr hconnected)]
      exact hclosed _ w' hend hconnected
    · rw [if_pos hconnected]
      exact hpanic _ w' hend (Bool.eq_false_iff.mpr hconnected)

theorem ends_migrate {faults : Faults Schema} {Q R : Except Failure Unit → World Schema → Prop}
    (h : Ends (migrateConnected exec faults migration) w Q)
    (hok : ∀ w', Q (.ok ()) w' → R (.ok ()) w')
    (herror : ∀ result failure w', Q result w' → R (.error failure) w') :
    Ends (migrate exec faults migration) w R := by
  apply ends_migrate_closing h
  · intro result w' hend _
    cases result with
    | ok _ => exact hok w' hend
    | error failure => exact herror _ failure w' hend
  · intro result w' hend _
    exact herror result .panic w' hend

/-- The log is begun anew. -/
def World.begin (w : World Schema) : World Schema :=
  { w with visited := [w.database], executed := [] }

variable (exec) in
/-- A call as the caller sees it. -/
def World.migrate (w : World Schema) (faults : Faults Schema) (migration : Migration) :
    Except Failure Unit × World Schema :=
  match (DbMigrator.migrate exec faults migration).run w.begin with
  | .ok _ w' => (.ok (), w')
  | .error failure w' => (.error failure, w')

theorem migrate_of_ends {faults : Faults Schema} {Q : Except Failure Unit → World Schema → Prop}
    (h : Ends (migrate exec faults migration) w.begin Q) :
    Q (w.migrate exec faults migration).1 (w.migrate exec faults migration).2 := by
  unfold Ends at h
  unfold World.migrate
  cases hrun : (migrate exec faults migration).run w.begin with
  | ok _ w' =>
    rw [hrun] at h
    exact h
  | error failure w' =>
    rw [hrun] at h
    exact h

/-- The process between two calls, after any calls on the same scripts and the same version table,
each on files that are open and not read. The process may stop in any state that a call goes
through, and be started again. -/
inductive Between (exec : String → Schema → Schema) (scripts : List Script) (table : String)
    (database : Database Schema) : World Schema → Prop
  | start : Between exec scripts table database { database }
  | openFiles {w : World Schema} (hw : Between exec scripts table database w)
      (files : List String) :
      Between exec scripts table database { w with opened := w.opened ++ files }
  | call {w : World Schema} (hw : Between exec scripts table database w) (faults : Faults Schema)
      {migration : Migration} (hopened : Opened scripts migration.steps w.opened)
      (htable : migrationsTableName migration.migrationsTablePrefix = table) :
      Between exec scripts table database (w.migrate exec faults migration).2
  | restart {w : World Schema} (hw : Between exec scripts table database w)
      {database' : Database Schema} (hvisited : database' ∈ w.visited) :
      Between exec scripts table database { database := database' }

theorem honest_migrate (hundoes : Undoes exec base scripts)
    (hopened : Opened scripts migration.steps w.opened)
    (htable : migrationsTableName migration.migrationsTablePrefix = table)
    (h : w.database.Truthful exec base scripts table) (faults : Faults Schema) :
    (w.migrate exec faults migration).2.Honest exec base scripts table ∧
      ((w.migrate exec faults migration).1 = .ok () →
        (w.migrate exec faults migration).2.database.CleanAt table migration.targetVersion) := by
  have hbegin : w.begin.Honest exec base scripts table :=
    ⟨h, fun d hd => (List.mem_singleton.mp hd).symm ▸ h⟩
  apply migrate_of_ends (Q := fun result w' => w'.Honest exec base scripts table ∧
    (result = .ok () → w'.database.CleanAt table migration.targetVersion))
  apply ends_migrate
    (ends_migrateConnected_honest (w := w.begin) hundoes hopened htable hbegin faults)
  · intro w' hend
    exact hend
  · intro result failure w' hend
    exact ⟨hend.1, nofun⟩

theorem Between.honest (hundoes : Undoes exec base scripts)
    (h : database.Truthful exec base scripts table) (hw : Between exec scripts table database w) :
    w.Honest exec base scripts table := by
  induction hw with
  | start => exact ⟨h, nofun⟩
  | openFiles _ files ih => exact ⟨ih.database, ih.visited⟩
  | call _ faults hopened htable ih =>
    exact (honest_migrate hundoes hopened htable ih.database faults).1
  | restart _ hvisited ih => exact ⟨ih.visited _ hvisited, nofun⟩

theorem dirty_migrate (hdirty : (w.database.recorded table).dirty = true)
    (htable : migrationsTableName migration.migrationsTablePrefix = table)
    (faults : Faults Schema) :
    (w.migrate exec faults migration).2.executed = [] ∧
      (w.migrate exec faults migration).2.database = w.database ∧
        ∀ d ∈ (w.migrate exec faults migration).2.visited, d = w.database := by
  rw [← htable] at hdirty
  apply migrate_of_ends (Q := fun _ w' => w'.executed = [] ∧ w'.database = w.database ∧
    ∀ d ∈ w'.visited, d = w.database)
  have hend : Ends (migrateConnected exec faults migration) w.begin fun _ w' => w'.executed = [] ∧
      w'.database = w.database ∧ ∀ d ∈ w'.visited, d = w.database := by
    apply (ends_migrateConnected_dirty (w := w.begin) hdirty faults).mono
    intro _ w' h
    refine ⟨h.1, h.2.1, fun d hd => ?_⟩
    rcases h.2.2 d hd with hd | hd
    · exact List.mem_singleton.mp hd
    · exact hd
  apply ends_migrate hend
  · intro w' h
    exact h
  · intro _ _ w' h
    exact h

/-- After any run, a call goes through truthful states only, does nothing where the record is
dirty, and succeeds only with a clean record of the target version. -/
theorem migrationRecord_truthful (hundoes : Undoes exec base scripts)
    (htruthful : database.Truthful exec base scripts table)
    (hw : Between exec scripts table database w) (faults : Faults Schema)
    (hopened : Opened scripts migration.steps w.opened)
    (htable : migrationsTableName migration.migrationsTablePrefix = table) :
    (w.migrate exec faults migration).2.Honest exec base scripts table ∧
      ((w.database.recorded table).dirty = true →
        (w.migrate exec faults migration).2.executed = [] ∧
          (w.migrate exec faults migration).2.database = w.database ∧
            ∀ d ∈ (w.migrate exec faults migration).2.visited, d = w.database) ∧
      ((w.migrate exec faults migration).1 = .ok () →
        (w.migrate exec faults migration).2.database.CleanAt table migration.targetVersion) := by
  have hhonest := hw.honest hundoes htruthful
  obtain ⟨hhonest', hclean⟩ := honest_migrate hundoes hopened htable hhonest.database faults
  exact ⟨hhonest', fun hdirty => dirty_migrate hdirty htable faults, hclean⟩

/-- The scripts in the files of a configuration. -/
def scriptsOf (fs : String → Option String) : List StepConfig → Option (List Script)
  | [] => some []
  | config :: later => do
    let up ← fs (removeLeadingDashFromFilename config.up)
    let down ← fs (removeLeadingDashFromFilename config.down)
    let scripts ← scriptsOf fs later
    return { up, down } :: scripts

theorem Opened.nil (opened : List String) : Opened [] [] opened :=
  ⟨rfl, nofun, nofun, nofun, nofun⟩

theorem Opened.cons {upFile downFile : Nat} {up down description : String}
    (h : Opened scripts steps opened) (hup : opened[upFile]? = some up)
    (hdown : opened[downFile]? = some down)
    (hother : ∀ step ∈ steps, step.upFile ≠ upFile ∧ step.downFile ≠ downFile) :
    Opened ({ up, down } :: scripts)
      ({ upFile, downFile, versionDescription := description } :: steps) opened := by
  have hne {i : Nat} {step : MigrationStep} (hstep : steps[i]? = some step) :=
    hother step (List.mem_of_getElem? hstep)
  refine ⟨congrArg (· + 1) h.length, ?_, ?_, ?_, ?_⟩
  · intro i step script hstep hscript
    cases i with
    | zero =>
      cases hstep
      cases hscript
      exact hup
    | succ i => exact h.up hstep hscript
  · intro i step script hstep hscript
    cases i with
    | zero =>
      cases hstep
      cases hscript
      exact hdown
    | succ i => exact h.down hstep hscript
  · intro i j step step' hstep hstep' heq
    cases i with
    | zero =>
      cases j with
      | zero => rfl
      | succ j =>
        cases hstep
        exact absurd heq.symm (hne hstep').1
    | succ i =>
      cases j with
      | zero =>
        cases hstep'
        exact absurd heq (hne hstep).1
      | succ j => exact congrArg (· + 1) (h.upFile_inj hstep hstep' heq)
  · intro i j step step' hstep hstep' heq
    cases i with
    | zero =>
      cases j with
      | zero => rfl
      | succ j =>
        cases hstep
        exact absurd heq.symm (hne hstep').2
    | succ i =>
      cases j with
      | zero =>
        cases hstep'
        exact absurd heq (hne hstep).2
      | succ j => exact congrArg (· + 1) (h.downFile_inj hstep hstep' heq)

theorem run_openFile {fs : String → Option String} {filename content : String}
    (h : fs filename = some content) (w : World Schema) :
    (openFile fs filename).run w =
      .ok w.opened.length { w with opened := w.opened ++ [content] } := by
  unfold openFile
  rw [h]
  rfl

theorem run_openSteps {fs : String → Option String} {config : List StepConfig}
    (h : scriptsOf fs config = some scripts) (w : World Schema) :
    ∃ steps files, (openSteps fs config).run w = .ok steps { w with opened := w.opened ++ files } ∧
      Opened scripts steps (w.opened ++ files) ∧
        ∀ step ∈ steps, w.opened.length ≤ step.upFile ∧ w.opened.length ≤ step.downFile := by
  induction config generalizing scripts w with
  | nil =>
    cases h
    refine ⟨[], [], ?_, .nil _, nofun⟩
    rw [List.append_nil]
    rfl
  | cons step later ih =>
    obtain ⟨up, hup, h⟩ := Option.bind_eq_some_iff.mp h
    obtain ⟨down, hdown, h⟩ := Option.bind_eq_some_iff.mp h
    obtain ⟨scripts', hscripts, h⟩ := Option.bind_eq_some_iff.mp h
    cases h
    let w₁ : World Schema := { w with opened := w.opened ++ [up] }
    let w₂ : World Schema := { w with opened := w.opened ++ [up] ++ [down] }
    obtain ⟨steps, files, hrun, hopened, hnew⟩ := ih hscripts w₂
    have hlength : w₁.opened.length = w.opened.length + 1 := List.length_append
    have hlength' : w₂.opened.length = w.opened.length + 2 := by
      simp only [w₂, List.length_append, List.length_singleton]
    refine ⟨{ upFile := w.opened.length, downFile := w₁.opened.length,
              versionDescription := step.versionDescription } :: steps,
      [up, down] ++ files, ?_, ?_, ?_⟩
    · unfold openSteps
      rw [EStateM.run_bind, run_openFile hup]
      show (openFile fs _ >>= _).run w₁ = _
      rw [EStateM.run_bind, run_openFile hdown]
      show (openSteps fs later >>= _).run w₂ = _
      rw [EStateM.run_bind, hrun]
      simp only [w₂, List.append_assoc]
      rfl
    · have hfiles : w.opened ++ ([up, down] ++ files) = w₂.opened ++ files := by
        simp only [w₂, List.append_assoc, List.cons_append, List.nil_append]
      rw [hfiles]
      apply hopened.cons
      · simp [w₂]
      · simp [w₂, hlength]
      · intro s hs
        have := hnew s hs
        omega
    · intro s hs
      rcases List.mem_cons.mp hs with rfl | hs
      · refine ⟨Nat.le_refl _, ?_⟩
        show w.opened.length ≤ w₁.opened.length
        omega
      · have := hnew s hs
        omega

variable (exec) in
/-- `MigrateFromFiles` as the caller sees it. -/
def World.migrateFromFiles (w : World Schema) (unmarshal : String → Option (List StepConfig))
    (dialectName : String) (faults : Faults Schema) (input : MigrateFromFilesInput) :
    Except Failure Unit × World Schema :=
  match (DbMigrator.migrateFromFiles exec unmarshal dialectName faults input).run w.begin with
  | .ok _ w' => (.ok (), w')
  | .error failure w' => (.error failure, w')

/-- The files a configuration names are there, and hold the scripts. -/
structure MigrateFromFilesInput.Names (input : MigrateFromFilesInput)
    (unmarshal : String → Option (List StepConfig)) (dialectName : String)
    (fs : String → Option String) (config : List StepConfig) (scripts : List Script) : Prop where
  given : input.fs = some fs
  listed : (fs (dbSchemas ++ "/" ++ dialectName ++ "/" ++ migrationFileName)).bind unmarshal =
    some config
  read : scriptsOf fs config = some scripts

section FromFiles

variable {unmarshal : String → Option (List StepConfig)} {dialectName : String}
  {input : MigrateFromFilesInput} {fs : String → Option String} {config : List StepConfig}

theorem migrateFromFiles_opens (hnames : input.Names unmarshal dialectName fs config scripts)
    (faults : Faults Schema) (w : World Schema) :
    ∃ steps files, Opened scripts steps (w.opened ++ files) ∧
      w.migrateFromFiles exec unmarshal dialectName faults input =
        World.migrate exec { w with opened := w.opened ++ files } faults
          { steps, targetVersion := input.targetVersion.getD config.length,
            migrationsTablePrefix := input.migrationsTablePrefix } := by
  obtain ⟨steps, files, hrun, hopened, -⟩ := run_openSteps hnames.read w.begin
  refine ⟨steps, files, hopened, ?_⟩
  unfold World.migrateFromFiles DbMigrator.migrateFromFiles
  simp only [hnames.given, hnames.listed]
  rw [EStateM.run_bind, hrun]
  rfl

/-- The record is true of a process whose every call migrates from the same files: such a call goes
through truthful states only, does nothing where the record is dirty, succeeds only with a clean
record of the target version, and is one after which this holds again. -/
theorem migrateFromFiles_truthful (hundoes : Undoes exec base scripts)
    (htruthful : database.Truthful exec base scripts table)
    (hw : Between exec scripts table database w) (faults : Faults Schema)
    (hnames : input.Names unmarshal dialectName fs config scripts)
    (htable : migrationsTableName input.migrationsTablePrefix = table) :
    Between exec scripts table database
        (w.migrateFromFiles exec unmarshal dialectName faults input).2 ∧
      (w.migrateFromFiles exec unmarshal dialectName faults input).2.Honest exec base scripts table ∧
      ((w.database.recorded table).dirty = true →
        (w.migrateFromFiles exec unmarshal dialectName faults input).2.executed = [] ∧
          (w.migrateFromFiles exec unmarshal dialectName faults input).2.database = w.database) ∧
      ((w.migrateFromFiles exec unmarshal dialectName faults input).1 = .ok () →
        (w.migrateFromFiles exec unmarshal dialectName faults input).2.database.CleanAt table
          (input.targetVersion.getD config.length)) := by
  obtain ⟨steps, files, hopened, hmigrate⟩ := migrateFromFiles_opens hnames faults w
  rw [hmigrate]
  let migration : Migration :=
    { steps, targetVersion := input.targetVersion.getD config.length,
      migrationsTablePrefix := input.migrationsTablePrefix }
  have hopened' : Opened scripts migration.steps (w.opened ++ files) := hopened
  have htable' : migrationsTableName migration.migrationsTablePrefix = table := htable
  have hopenFiles := hw.openFiles files
  have hhonest := hopenFiles.honest hundoes htruthful
  obtain ⟨hhonest', hclean⟩ := honest_migrate hundoes hopened' htable' hhonest.database faults
  refine ⟨hopenFiles.call faults hopened' htable', hhonest', fun hdirty => ?_, hclean⟩
  obtain ⟨hexecuted, hdatabase, -⟩ := dirty_migrate (w := { w with opened := w.opened ++ files })
    hdirty htable' faults
  exact ⟨hexecuted, hdatabase⟩

end FromFiles

def onOff (migration : String) (schema : Bool) : Bool :=
  if migration = "up" then true else if migration = "down" then false else schema

def onOffScripts : List Script := [{ up := "up", down := "down" }]

def onOffMigration (targetVersion : Int) : Migration where
  steps := [{ upFile := 0, downFile := 1, versionDescription := "switch" }]
  targetVersion := targetVersion
  migrationsTablePrefix := none

def newDatabase : Database Bool := { tables := fun _ => none, schema := false }

def onOffWorld : World Bool := { database := newDatabase, opened := ["up", "down"] }

theorem undoes_onOff : Undoes onOff false onOffScripts := by
  intro v script h
  cases v with
  | zero =>
    cases h
    decide
  | succ v => cases h

/-- The files stay at their end: a third call on the same steps runs an empty script. -/
theorem reusedFiles_not_truthful :
    let up := (onOffWorld.migrate onOff {} (onOffMigration 1)).2
    let down := (up.migrate onOff {} (onOffMigration 0)).2
    let again := down.migrate onOff {} (onOffMigration 1)
    Undoes onOff false onOffScripts ∧ again.1 = .ok () ∧
      again.2.database.CleanAt defaultMigrationsTable 1 ∧
      again.2.database.schema ≠ schemaAt onOff false onOffScripts 1 := by
  refine ⟨undoes_onOff, ?_, ?_, ?_⟩
  · rfl
  · exact ⟨rfl, rfl⟩
  · decide

def tablesAfter (migration : String) (schema : List String) : List String :=
  if migration = "create users" then "users" :: schema
  else if migration = "create roles" then "roles" :: schema
  else schema.tail

def tableScripts : List Script :=
  [{ up := "create users", down := "drop users" }, { up := "create roles", down := "drop roles" }]

def tableFiles : List String := ["create users", "drop users", "create roles", "drop roles"]

/-- The files were opened when `opened` others had been. -/
def tablesMigration (opened : Nat) (targetVersion : Int) : Migration where
  steps := [{ upFile := opened, downFile := opened + 1, versionDescription := "users" },
    { upFile := opened + 2, downFile := opened + 3, versionDescription := "roles" }]
  targetVersion := targetVersion
  migrationsTablePrefix := none

theorem undoes_tables : Undoes tablesAfter [] tableScripts := by
  intro v script h
  rcases v with _ | _ | v
  · cases h
    decide
  · cases h
    decide
  · cases h

theorem opened_tables (opened : List String) (targetVersion : Int) :
    Opened tableScripts (tablesMigration opened.length targetVersion).steps
      (opened ++ tableFiles) := by
  refine ((Opened.nil _).cons ?_ ?_ nofun).cons ?_ ?_ ?_
  · simp [tableFiles]
  · simp [tableFiles]
  · simp [tableFiles]
  · simp [tableFiles]
  · intro step hstep
    rw [List.mem_singleton.mp hstep]
    simp

def noTables : Database (List String) := { tables := fun _ => none, schema := [] }

theorem noTables_truthful :
    noTables.Truthful tablesAfter [] tableScripts defaultMigrationsTable := by
  intro v hv
  exact ⟨0, hv.2.symm, by decide, rfl⟩

/-- The files are opened anew. -/
def reopened (w : World (List String)) : World (List String) :=
  { w with opened := w.opened ++ tableFiles }

/-- The users are there. -/
def usersCreated : World (List String) :=
  (World.migrate tablesAfter (reopened { database := noTables }) {} (tablesMigration 0 1)).2

/-- The second script fails halfway. -/
def rolesFail : Faults (List String) where
  step := fun _ => { runMigration := some (["half of roles", "users"], "syntax error") }

def rolesAborted : Except Failure Unit × World (List String) :=
  World.migrate tablesAfter (reopened usersCreated) rolesFail
    (tablesMigration usersCreated.opened.length 2)

/-- The same again, with no fault. -/
def rolesAgain : Except Failure Unit × World (List String) :=
  World.migrate tablesAfter (reopened rolesAborted.2) {}
    (tablesMigration rolesAborted.2.opened.length 2)

/-- The users are there; the roles fail, and after that nothing is run. -/
theorem migrationRecord_truthful_tables :
    usersCreated.database.CleanAt defaultMigrationsTable 1 ∧
      rolesAborted.1 = .error (.error "syntax error") ∧
      rolesAborted.2.Honest tablesAfter [] tableScripts defaultMigrationsTable ∧
      rolesAgain.2.Honest tablesAfter [] tableScripts defaultMigrationsTable ∧
      rolesAgain.2.executed = [] ∧ rolesAgain.2.database = rolesAborted.2.database := by
  let Runs : World (List String) → Prop :=
    Between tablesAfter tableScripts defaultMigrationsTable noTables
  have hfirst : Runs (reopened { database := noTables }) := Between.start.openFiles tableFiles
  have husers : Runs usersCreated := hfirst.call {} (opened_tables [] 1) rfl
  have hsecond : Runs (reopened usersCreated) := husers.openFiles tableFiles
  have hroles : Runs rolesAborted.2 :=
    hsecond.call rolesFail (opened_tables usersCreated.opened 2) rfl
  have hthird : Runs (reopened rolesAborted.2) := hroles.openFiles tableFiles
  have hhonest := (migrationRecord_truthful undoes_tables noTables_truthful hsecond rolesFail
    (opened_tables usersCreated.opened 2) rfl).1
  obtain ⟨hagain, hdirty, -⟩ := migrationRecord_truthful undoes_tables noTables_truthful hthird {}
    (opened_tables rolesAborted.2.opened 2) rfl
  obtain ⟨hexecuted, hdatabase, -⟩ := hdirty (by decide +kernel)
  have hclean : usersCreated.database.CleanAt defaultMigrationsTable 1 :=
    ⟨by decide +kernel, by decide +kernel⟩
  exact ⟨hclean, by decide +kernel, hhonest, hagain, hexecuted, hdatabase⟩

end Signare.DbMigrator
