import Cinder.Programs.Commands
import Cinder.Programs.MoveRuns
import Cinder.Storage.UniqueTable
import Cinder.Upgrades.LegacyDatabase
import Mathlib.Data.List.Perm.Basic
set_option autoImplicit false

/-!
Schema migrations, each applied and recorded in one transaction, by a run that may be
interrupted anywhere. What the script of a migration does to the tables is a parameter.
-/

namespace Cinder.Upgrades
open Cinder.Programs Cinder.Storage

def classroomsName : String := "0002_cinder_classrooms"

/-- The name under which the classroom migration was recorded before. -/
def formerName : String := "0002_" ++ previousProductName ++ "_classrooms"

def MIGRATIONS : List String :=
  ["0001_init", classroomsName, "0003_student_recovery", "0004_reliability_and_editing",
    "0005_school_and_classroom_ownership", "0006_classroom_attendance",
    "0007_live_module_sessions", "0008_host_administration", "0009_live_classroom_tasks",
    "0010_quizzes", "0011_quiz_delivery_snapshots", "0012_question_papers", "0013_ai_usage"]

theorem nodup_MIGRATIONS : MIGRATIONS.Nodup := by decide

theorem formerName_not_mem : formerName ∉ MIGRATIONS := by decide

structure MigrationRow where
  name : String
  appliedAt : String
  deriving DecidableEq, Repr

instance : Keyed MigrationRow where
  clash r r' := r.name == r'.name
  refl _ := by simp
  symm r r' := Bool.beq_comm

/-- `recorded` is the table `schema_migrations`, once there is one. -/
structure MigrationDb (σ : Type) where
  recorded : Option (Table MigrationRow)
  tables : σ

def namesIn (t : Table MigrationRow) : List String := t.rows.map (·.name)

theorem nodup_namesIn (t : Table MigrationRow) : (namesIn t).Nodup :=
  List.pairwise_map.mpr (t.unique.imp fun h => by simpa [Keyed.clash] using h)

inductive MigrateStep where
  | createTable | deleteFormer | renameFormer
  | look (name : String)
  | begin (name : String)
  | execute (name : String)
  | record (name : String)
  | commit (name : String)
  deriving DecidableEq, Repr

structure MigrationRun where
  stops : MigrateStep → Option Interruption
  now : String → String

def MigrationRun.fine (now : String → String) : MigrationRun := ⟨fun _ => none, now⟩

def Interruption.withContext (name : String) : Interruption → Interruption
  | .crash => .crash
  | .error e => .error ("applying migration " ++ name ++ ": " ++ e)

section Migrating
variable {σ : Type}

abbrev MigrationCommand (σ α : Type) := Command (MigrationDb σ) Interruption α

def MigrationDb.names (db : MigrationDb σ) : List String := (db.recorded.map namesIn).getD []

/-- A migration counts as recorded under the former name too. -/
def MigrationDb.isRecorded (db : MigrationDb σ) (name : String) : Bool :=
  decide (name ∈ db.names ∨ name = classroomsName ∧ formerName ∈ db.names)

def MigrationDb.Known (db : MigrationDb σ) : Prop := ∀ n ∈ db.names, n ∈ formerName :: MIGRATIONS

variable (script : String → σ → Except String σ) (r : MigrationRun)

def schemaMigrations : MigrationCommand σ (Table MigrationRow) := fun db =>
  match db.recorded with
  | some t => (.ok t, db)
  | none => (.error (.error "no such table: schema_migrations"), db)

def setMigrations : Option (Table MigrationRow) → MigrationCommand σ Unit
  | some t => Command.modify fun db => { db with recorded := some t }
  | none => Command.fail (.error "UNIQUE constraint failed: schema_migrations.name")

def createMigrationsTable : MigrationCommand σ Unit := do
  Command.attempt (r.stops .createTable)
  Command.modify fun db => { db with recorded := some (db.recorded.getD .empty) }

def deleteFormer : MigrationCommand σ Unit := do
  Command.attempt (r.stops .deleteFormer)
  let t ← schemaMigrations
  setMigrations (some (t.delete fun row =>
    row.name == formerName && t.rows.any fun row => row.name == classroomsName))

def renameFormer : MigrationCommand σ Unit := do
  Command.attempt (r.stops .renameFormer)
  let t ← schemaMigrations
  setMigrations (t.rekey (fun row => row.name == formerName)
    fun row => { row with name := classroomsName })

def applied (name : String) (s : σ) : Except Interruption σ :=
  (script name s).mapError fun e => (Interruption.error e).withContext name

def executeScript (name : String) : MigrationCommand σ Unit := do
  Command.attempt ((r.stops (.execute name)).map (·.withContext name))
  let db ← Command.get
  let tables ← Command.ofExcept (applied script name db.tables)
  Command.modify fun db => { db with tables := tables }

def recordMigration (name : String) : MigrationCommand σ Unit := do
  Command.attempt (r.stops (.record name))
  let t ← schemaMigrations
  setMigrations (t.insert ⟨name, r.now name⟩)

def transactMigration (name : String) : MigrationCommand σ Unit := do
  Command.attempt (r.stops (.begin name))
  executeScript script r name
  recordMigration r name
  Command.attempt (r.stops (.commit name))

def applyMigration (name : String) : MigrationCommand σ Unit := do
  Command.attempt (r.stops (.look name))
  let t ← schemaMigrations
  if (t.rows.any fun row => row.name == name) = true then pure ()
  else (transactMigration script r name).atomically

def migrate : MigrationCommand σ Unit := do
  createMigrationsTable r
  deleteFormer r
  renameFormer r
  MIGRATIONS.forM (applyMigration script r)

def afterMigrations (runs : List MigrationRun) (db : MigrationDb σ) : MigrationDb σ :=
  runs.foldl (fun db r => (migrate script r db).2) db

def MigrationRun.Uninterrupted : Prop := ∀ step, r.stops step = none

def MigrationDb.outcome (db : MigrationDb σ) : Except Interruption σ :=
  outcomeOf (applied script) MIGRATIONS db.isRecorded db.tables

structure MigrationDb.Complete (db : MigrationDb σ) : Prop where
  table : db.recorded.isSome = true
  names : db.names.Perm MIGRATIONS

/-- From `db` to `db'` nothing was applied that was recorded, and nothing else than what
comes next. -/
structure Resumes (db db' : MigrationDb σ) : Prop where
  known : db'.Known
  outcome : db'.outcome script = db.outcome script

variable {script : String → σ → Except String σ} {r : MigrationRun}
  {db db' db'' : MigrationDb σ} {t t' : Table MigrationRow}

theorem Resumes.refl (h : db.Known) : Resumes script db db := ⟨h, rfl⟩

theorem Resumes.trans (h : Resumes script db db') (h' : Resumes script db' db'') :
    Resumes script db db'' := ⟨h'.known, h'.outcome.trans h.outcome⟩

theorem names_of_some (h : db.recorded = some t) : db.names = namesIn t := by
  rw [MigrationDb.names, h]
  rfl

theorem nodup_names (db : MigrationDb σ) : db.names.Nodup := by
  unfold MigrationDb.names
  cases db.recorded with
  | none => exact List.nodup_nil
  | some t => exact nodup_namesIn t

theorem isRecorded_iff {name : String} : db.isRecorded name = true ↔
    name ∈ db.names ∨ name = classroomsName ∧ formerName ∈ db.names := decide_eq_true_iff

theorem isRecorded_of_settled {name : String} (hformer : formerName ∉ db.names) :
    db.isRecorded name = true ↔ name ∈ db.names := by
  rw [isRecorded_iff]
  exact or_iff_left fun h => hformer h.2

theorem Resumes.of_names (hknown : db.Known) (htables : db'.tables = db.tables)
    (hnames : ∀ n, n ≠ formerName → (n ∈ db'.names ↔
      n ∈ db.names ∨ n = classroomsName ∧ formerName ∈ db.names ∧ formerName ∉ db'.names))
    (hformer : formerName ∈ db'.names → formerName ∈ db.names) :
    Resumes script db db' := by
  refine ⟨?_, ?_⟩
  · intro n hn
    by_cases h : n = formerName
    · exact h ▸ List.mem_cons_self
    rcases (hnames n h).mp hn with h | ⟨rfl, -, -⟩
    · exact hknown n h
    · decide
  rw [MigrationDb.outcome, htables]
  refine outcomeOf_congr fun m hm => ?_
  have hne : m ≠ formerName := fun h => formerName_not_mem (h ▸ hm)
  rw [Bool.eq_iff_iff, isRecorded_iff, isRecorded_iff, hnames m hne]
  by_cases hthere : formerName ∈ db'.names
  · simp [hthere, hformer hthere]
  · by_cases hwas : formerName ∈ db.names
    · simp [hthere, hwas]
    · simp [hthere, hwas]

theorem interrupted {step : MigrateStep} {e : Interruption} (h : r.stops step = some e) :
    ¬r.Uninterrupted := by
  intro hr
  rw [hr step] at h
  cases h

theorem schemaMigrations_run (ht : db.recorded = some t) : schemaMigrations db = (.ok t, db) := by
  rw [schemaMigrations, ht]

theorem createMigrationsTable_cases (r : MigrationRun) (db : MigrationDb σ) :
    (∃ e, ¬r.Uninterrupted ∧ createMigrationsTable r db = (.error e, db)) ∨
      createMigrationsTable r db =
        (.ok (), { db with recorded := some (db.recorded.getD .empty) }) := by
  unfold createMigrationsTable
  cases h : r.stops .createTable with
  | some e => exact .inl ⟨e, interrupted h, rfl⟩
  | none => exact .inr rfl

theorem deleteFormer_cases (r : MigrationRun) (db : MigrationDb σ) (ht : db.recorded = some t) :
    (∃ e, ¬r.Uninterrupted ∧ deleteFormer r db = (.error e, db)) ∨
      deleteFormer r db = (.ok (), { db with recorded := some (t.delete fun row =>
        row.name == formerName && t.rows.any fun row => row.name == classroomsName) }) := by
  unfold deleteFormer
  cases h : r.stops .deleteFormer with
  | some e => exact .inl ⟨e, interrupted h, rfl⟩
  | none =>
    refine .inr ?_
    rw [Command.bind_ok (Command.attempt_run none db), Command.bind_ok (schemaMigrations_run ht)]
    rfl

theorem mem_namesIn_delete {n : String} : n ∈ namesIn (t.delete fun row =>
      row.name == formerName && t.rows.any fun row => row.name == classroomsName) ↔
    n ∈ namesIn t ∧ ¬(n = formerName ∧ classroomsName ∈ namesIn t) := by
  simp only [namesIn, List.mem_map, Table.mem_delete]
  constructor
  · rintro ⟨row, ⟨hrow, hp⟩, rfl⟩
    refine ⟨⟨row, hrow, rfl⟩, fun ⟨hname, other, hother, hc⟩ => ?_⟩
    have hany : (t.rows.any fun row => row.name == classroomsName) = true :=
      List.any_eq_true.mpr ⟨other, hother, by simpa using hc⟩
    simp [hname, hany] at hp
  · rintro ⟨⟨row, hrow, rfl⟩, hnot⟩
    refine ⟨row, ⟨hrow, ?_⟩, rfl⟩
    rw [Bool.and_eq_false_iff]
    by_cases hname : row.name = formerName
    · refine .inr (Bool.eq_false_iff.mpr fun hany => hnot ⟨hname, ?_⟩)
      obtain ⟨other, hother, hc⟩ := List.any_eq_true.mp hany
      exact ⟨other, hother, by simpa using hc⟩
    · exact .inl (by simpa using hname)

theorem renameFormer_cases (r : MigrationRun) (db : MigrationDb σ) (ht : db.recorded = some t)
    (hnot : formerName ∈ namesIn t → classroomsName ∉ namesIn t) :
    (∃ e, ¬r.Uninterrupted ∧ renameFormer r db = (.error e, db)) ∨
      ∃ t', t.rekey (fun row => row.name == formerName)
          (fun row => { row with name := classroomsName }) = some t' ∧
        renameFormer r db = (.ok (), { db with recorded := some t' }) := by
  unfold renameFormer
  cases h : r.stops .renameFormer with
  | some e => exact .inl ⟨e, interrupted h, rfl⟩
  | none =>
    have hrows : (t.rows.map fun row => if (row.name == formerName) = true then
        { row with name := classroomsName } else row).Pairwise
          fun row row' => Keyed.clash row row' = false := by
      rw [List.pairwise_map]
      refine t.unique.imp_of_mem fun {row row'} hrow hrow' hclash => ?_
      have hne : row.name ≠ row'.name := by simpa [Keyed.clash] using hclash
      have hmem : row.name ∈ namesIn t := List.mem_map_of_mem hrow
      have hmem' : row'.name ∈ namesIn t := List.mem_map_of_mem hrow'
      simp only [Keyed.clash, beq_eq_false_iff_ne, beq_iff_eq]
      split <;> split
      · next h h' => exact absurd (h.trans h'.symm) hne
      · next h _ => exact fun (heq : classroomsName = row'.name) => hnot (h ▸ hmem) (heq ▸ hmem')
      · next _ h => exact fun (heq : row.name = classroomsName) => hnot (h ▸ hmem') (heq ▸ hmem)
      · exact hne
    obtain ⟨t', ht'⟩ : ∃ t', t.rekey (fun row => row.name == formerName)
        (fun row => { row with name := classroomsName }) = some t' := Table.ofRows_isSome hrows
    refine .inr ⟨t', ht', ?_⟩
    rw [Command.bind_ok (Command.attempt_run none db),
      Command.bind_ok (schemaMigrations_run ht), ht']
    rfl

theorem mem_namesIn_rekey (h : t.rekey (fun row => row.name == formerName)
      (fun row => { row with name := classroomsName }) = some t') {n : String} :
    n ∈ namesIn t' ↔ (n ∈ namesIn t ∧ n ≠ formerName) ∨
      (n = classroomsName ∧ formerName ∈ namesIn t) := by
  simp only [namesIn, Table.rows_rekey h, List.map_map, List.mem_map, Function.comp_apply]
  constructor
  · rintro ⟨row, hrow, rfl⟩
    by_cases hname : row.name = formerName
    · exact .inr ⟨by simp [hname], row, hrow, hname⟩
    · exact .inl ⟨⟨row, hrow, by simp [hname]⟩, by simp [hname]⟩
  · rintro (⟨⟨row, hrow, rfl⟩, hne⟩ | ⟨rfl, row, hrow, hname⟩)
    · exact ⟨row, hrow, by simp [hne]⟩
    · exact ⟨row, hrow, by simp [hname]⟩

theorem executeScript_cases (script : String → σ → Except String σ) (r : MigrationRun)
    (name : String) (db : MigrationDb σ) :
    (∃ e, (¬r.Uninterrupted ∨ applied script name db.tables = .error e) ∧
      executeScript script r name db = (.error e, db)) ∨
    ∃ tables, applied script name db.tables = .ok tables ∧
      executeScript script r name db = (.ok (), { db with tables := tables }) := by
  unfold executeScript
  cases h : r.stops (.execute name) with
  | some e => exact .inl ⟨e.withContext name, .inl (interrupted h), rfl⟩
  | none =>
    rw [Option.map_none, Command.bind_ok (Command.attempt_run none db),
      Command.bind_ok (Command.get_run db)]
    cases happly : applied script name db.tables with
    | error e => exact .inl ⟨e, .inr rfl, rfl⟩
    | ok tables => exact .inr ⟨tables, rfl, rfl⟩

theorem recordMigration_cases (r : MigrationRun) (db : MigrationDb σ)
    (ht : db.recorded = some t) {name : String} (hname : name ∉ namesIn t) :
    (∃ e, ¬r.Uninterrupted ∧ recordMigration r name db = (.error e, db)) ∨
      ∃ t', namesIn t' = namesIn t ++ [name] ∧
        recordMigration r name db = (.ok (), { db with recorded := some t' }) := by
  unfold recordMigration
  cases h : r.stops (.record name) with
  | some e => exact .inl ⟨e, interrupted h, rfl⟩
  | none =>
    obtain ⟨t', ht'⟩ : ∃ t', t.insert ⟨name, r.now name⟩ = some t' := by
      refine Table.insert_isSome fun row hrow => ?_
      simp only [Keyed.clash, beq_eq_false_iff_ne]
      exact fun h => hname (h ▸ List.mem_map_of_mem hrow)
    refine .inr ⟨t', ?_, ?_⟩
    · rw [namesIn, Table.rows_insert ht', List.map_append]
      rfl
    · rw [Command.bind_ok (Command.attempt_run none db), Command.bind_ok (schemaMigrations_run ht),
        ht']
      rfl

theorem transactMigration_cases (script : String → σ → Except String σ) (r : MigrationRun)
    (ht : db.recorded = some t) {name : String} (hname : name ∉ namesIn t) :
    (∃ e, (¬r.Uninterrupted ∨ applied script name db.tables = .error e) ∧
      ∃ d, transactMigration script r name db = (.error e, d)) ∨
    ∃ tables t', applied script name db.tables = .ok tables ∧ namesIn t' = namesIn t ++ [name] ∧
      transactMigration script r name db = (.ok (), ⟨some t', tables⟩) := by
  unfold transactMigration
  cases hbegin : r.stops (.begin name) with
  | some e => exact .inl ⟨e, .inl (interrupted hbegin), _, rfl⟩
  | none =>
  rw [Command.bind_ok (Command.attempt_run none db)]
  rcases executeScript_cases script r name db with ⟨e, he, hrun⟩ | ⟨tables, happly, hrun⟩
  · exact .inl ⟨e, he, _, Command.bind_error hrun⟩
  rw [Command.bind_ok hrun]
  rcases recordMigration_cases r { db with tables := tables } ht hname with
    ⟨e, hr, hrecord⟩ | ⟨t', hnames, hrecord⟩
  · exact .inl ⟨e, .inl hr, _, Command.bind_error hrecord⟩
  rw [Command.bind_ok hrecord]
  cases hcommit : r.stops (.commit name) with
  | some e => exact .inl ⟨e, .inl (interrupted hcommit), _, rfl⟩
  | none => exact .inr ⟨tables, t', happly, hnames, rfl⟩

/-- A migration that is not recorded is applied and recorded, or nothing has changed. -/
theorem applyMigration_cases (script : String → σ → Except String σ) (r : MigrationRun)
    (ht : db.recorded = some t) (name : String) :
    (∃ e, (¬r.Uninterrupted ∨ name ∉ namesIn t ∧ applied script name db.tables = .error e) ∧
      applyMigration script r name db = (.error e, db)) ∨
    (name ∈ namesIn t ∧ applyMigration script r name db = (.ok (), db)) ∨
    (name ∉ namesIn t ∧ ∃ tables t', applied script name db.tables = .ok tables ∧
      namesIn t' = namesIn t ++ [name] ∧
        applyMigration script r name db = (.ok (), ⟨some t', tables⟩)) := by
  have hany : (t.rows.any fun row => row.name == name) = true ↔ name ∈ namesIn t := by
    simp [namesIn, List.any_eq_true]
  unfold applyMigration
  cases hlook : r.stops (.look name) with
  | some e => exact .inl ⟨e, .inl (interrupted hlook), rfl⟩
  | none =>
  rw [Command.bind_ok (Command.attempt_run none db), Command.bind_ok (schemaMigrations_run ht)]
  by_cases hname : name ∈ namesIn t
  · rw [if_pos (hany.mpr hname)]
    exact .inr (.inl ⟨hname, rfl⟩)
  rw [if_neg (mt hany.mp hname)]
  rcases transactMigration_cases script r ht hname with
    ⟨e, he, d, hrun⟩ | ⟨tables, t', happly, hnames, hrun⟩
  · exact .inl ⟨e, he.imp_right fun he => ⟨hname, he⟩, Command.atomically_error hrun⟩
  · exact .inr (.inr ⟨hname, tables, t', happly, hnames, Command.atomically_ok hrun⟩)

/-- The alias is resolved: from here on a migration is recorded by its own name. -/
structure Settled (db : MigrationDb σ) : Prop where
  known : db.Known
  table : db.recorded.isSome = true
  former : formerName ∉ db.names

/-- How a run ends: with everything recorded, or with an error that is met there whenever
nothing interrupts. -/
def Ended (script : String → σ → Except String σ) (r : MigrationRun) (db : MigrationDb σ) :
    Except Interruption Unit → Prop
  | .ok _ => db.Complete
  | .error e => r.Uninterrupted → db.outcome script = .error e

theorem complete_of_settled (h : Settled db) (hall : ∀ m ∈ MIGRATIONS, m ∈ db.names) :
    db.Complete := by
  refine ⟨h.table, (List.perm_ext_iff_of_nodup (nodup_names db) nodup_MIGRATIONS).mpr fun n => ?_⟩
  refine ⟨fun hn => ?_, hall n⟩
  rcases List.mem_cons.mp (h.known n hn) with rfl | hn'
  · exact absurd hn h.former
  · exact hn'

theorem created_resumes (hknown : db.Known) :
    Resumes script db { db with recorded := some (db.recorded.getD .empty) } := by
  have hsame : ({ db with recorded := some (db.recorded.getD .empty) } : MigrationDb σ).names =
      db.names := by
    unfold MigrationDb.names
    cases db.recorded <;> rfl
  refine .of_names hknown rfl (fun n _ => ?_) (fun h => hsame ▸ h)
  rw [hsame]
  exact ⟨.inl, fun h => h.resolve_right fun h => h.2.2 h.2.1⟩

theorem deleted_resumes (hknown : db.Known) (ht : db.recorded = some t) :
    Resumes script db { db with recorded := some (t.delete fun row =>
      row.name == formerName && t.rows.any fun row => row.name == classroomsName) } := by
  have hnames : db.names = namesIn t := names_of_some ht
  refine .of_names hknown rfl (fun n hn => ?_)
    (fun h => hnames ▸ (mem_namesIn_delete.mp h).1)
  rw [names_of_some rfl, hnames, mem_namesIn_delete, mem_namesIn_delete]
  constructor
  · exact fun h => .inl h.1
  · rintro (h | ⟨rfl, hthere, hgone⟩)
    · exact ⟨h, fun hf => hn hf.1⟩
    · by_contra hnot
      exact hgone ⟨hthere, fun hc => hnot ⟨hc.2, fun hf => hn hf.1⟩⟩

theorem renamed_resumes (hknown : db.Known) (ht : db.recorded = some t)
    (hrekey : t.rekey (fun row => row.name == formerName)
      (fun row => { row with name := classroomsName }) = some t') :
    Resumes script db { db with recorded := some t' } ∧
      Settled ({ db with recorded := some t' } : MigrationDb σ) := by
  have hnames : db.names = namesIn t := names_of_some ht
  have hnames' : ({ db with recorded := some t' } : MigrationDb σ).names = namesIn t' := rfl
  have hformer : formerName ∉ namesIn t' := by
    rw [mem_namesIn_rekey hrekey]
    rintro (h | h)
    · exact h.2 rfl
    · exact absurd h.1 (by decide)
  have hresumes : Resumes script db { db with recorded := some t' } := by
    refine .of_names hknown rfl (fun n hn => ?_) (fun h => absurd h hformer)
    rw [hnames', hnames, mem_namesIn_rekey hrekey]
    simp [hn, hformer]
  exact ⟨hresumes, hresumes.known, rfl, hformer⟩

theorem recorded_resumes {before rest : List String} {m : String} {tables : σ}
    (hall : MIGRATIONS = before ++ m :: rest) (hs : Settled db) (ht : db.recorded = some t)
    (hbefore : ∀ b ∈ before, b ∈ db.names) (hm : m ∉ namesIn t)
    (happly : applied script m db.tables = .ok tables) (ht' : namesIn t' = namesIn t ++ [m]) :
    Resumes script db ⟨some t', tables⟩ ∧ Settled (⟨some t', tables⟩ : MigrationDb σ) := by
  have hnames : db.names = namesIn t := names_of_some ht
  have hmem : ∀ n, n ∈ (⟨some t', tables⟩ : MigrationDb σ).names ↔ n ∈ db.names ∨ n = m := by
    intro n
    rw [names_of_some rfl, ht', hnames, List.mem_append, List.mem_singleton]
  have hmine : m ∈ MIGRATIONS := hall ▸ List.mem_append_right _ List.mem_cons_self
  have hformer : formerName ∉ (⟨some t', tables⟩ : MigrationDb σ).names := by
    rw [hmem, not_or]
    exact ⟨hs.former, fun h => formerName_not_mem (h ▸ hmine)⟩
  have hknown : (⟨some t', tables⟩ : MigrationDb σ).Known := by
    intro n hn
    rcases (hmem n).mp hn with hn | rfl
    · exact hs.known n hn
    · exact List.mem_cons_of_mem _ hmine
  refine ⟨⟨hknown, ?_⟩, hknown, rfl, hformer⟩
  have hnodup := nodup_MIGRATIONS
  unfold MigrationDb.outcome
  rw [hall] at hnodup ⊢
  refine outcomeOf_record hnodup (fun b hb => ?_) ?_ happly ?_ fun n hn => ?_
  · exact (isRecorded_of_settled hs.former).mpr (hbefore b hb)
  · rw [Bool.eq_false_iff, ne_eq, isRecorded_of_settled hs.former, hnames]
    exact hm
  · exact (isRecorded_of_settled hformer).mpr ((hmem m).mpr (.inr rfl))
  · rw [Bool.eq_iff_iff, isRecorded_of_settled hformer, isRecorded_of_settled hs.former, hmem]
    exact or_iff_left hn

theorem loop_resumes (script : String → σ → Except String σ) (r : MigrationRun)
    (before rest : List String) (hall : MIGRATIONS = before ++ rest) (hs : Settled db)
    (hbefore : ∀ b ∈ before, b ∈ db.names) :
    Resumes script db (rest.forM (applyMigration script r) db).2 ∧
      Ended script r (rest.forM (applyMigration script r) db).2
        (rest.forM (applyMigration script r) db).1 := by
  induction rest generalizing before db with
  | nil =>
    rw [List.append_nil] at hall
    exact ⟨.refl hs.known, complete_of_settled hs (hall ▸ hbefore)⟩
  | cons m rest ih =>
    obtain ⟨t, ht⟩ := Option.isSome_iff_exists.mp hs.table
    have hnames : db.names = namesIn t := names_of_some ht
    have hsplit : MIGRATIONS = (before ++ [m]) ++ rest := by rw [hall]; simp
    rw [Command.forM_cons]
    rcases applyMigration_cases script r ht m with
      ⟨e, he, hrun⟩ | ⟨hm, hrun⟩ | ⟨hm, tables, t', happly, ht', hrun⟩
    · rw [Command.bind_error hrun]
      refine ⟨.refl hs.known, fun hr => ?_⟩
      obtain ⟨hm, happly⟩ := he.resolve_left (not_not_intro hr)
      rw [MigrationDb.outcome, hall]
      refine outcomeOf_error (fun b hb => ?_) ?_ happly
      · exact (isRecorded_of_settled hs.former).mpr (hbefore b hb)
      · rw [Bool.eq_false_iff, ne_eq, isRecorded_of_settled hs.former, hnames]
        exact hm
    · rw [Command.bind_ok hrun]
      refine ih _ hsplit hs fun b hb => ?_
      rcases List.mem_append.mp hb with hb | hb
      · exact hbefore b hb
      · rw [List.mem_singleton.mp hb, hnames]
        exact hm
    · rw [Command.bind_ok hrun]
      obtain ⟨hresumes, hs'⟩ := recorded_resumes hall hs ht hbefore hm happly ht'
      have hbefore' : ∀ b ∈ before ++ [m], b ∈ (⟨some t', tables⟩ : MigrationDb σ).names := by
        intro b hb
        rw [names_of_some rfl, ht', ← hnames, List.mem_append]
        rcases List.mem_append.mp hb with hb | hb
        · exact .inl (hbefore b hb)
        · exact .inr hb
      obtain ⟨hrest, hended⟩ := ih _ hsplit hs' hbefore'
      exact ⟨hresumes.trans hrest, hended⟩

theorem migrate_resumes (script : String → σ → Except String σ) (r : MigrationRun)
    (hknown : db.Known) :
    Resumes script db (migrate script r db).2 ∧
      Ended script r (migrate script r db).2 (migrate script r db).1 := by
  have hstopped : ∀ {e d}, ¬r.Uninterrupted → Resumes script db d →
      migrate script r db = (.error e, d) → Resumes script db (migrate script r db).2 ∧
        Ended script r (migrate script r db).2 (migrate script r db).1 := by
    intro e d hr hd hrun
    rw [hrun]
    exact ⟨hd, fun h => absurd h hr⟩
  unfold migrate at hstopped ⊢
  rcases createMigrationsTable_cases r db with ⟨e, hr, hrun⟩ | hrun
  · exact hstopped hr (.refl hknown) (Command.bind_error hrun)
  rw [Command.bind_ok hrun] at hstopped ⊢
  have hcreated : Resumes script db { db with recorded := some (db.recorded.getD .empty) } :=
    created_resumes hknown
  generalize db.recorded.getD .empty = t at hcreated hstopped ⊢
  rcases deleteFormer_cases r { db with recorded := some t } rfl with ⟨e, hr, hrun⟩ | hrun
  · exact hstopped hr hcreated (Command.bind_error hrun)
  rw [Command.bind_ok hrun] at hstopped ⊢
  have hdeleted := hcreated.trans (deleted_resumes hcreated.known rfl)
  rcases renameFormer_cases r { db with recorded := some (t.delete fun row =>
        row.name == formerName && t.rows.any fun row => row.name == classroomsName) } rfl
      (fun hf hc => (mem_namesIn_delete.mp hf).2 ⟨rfl, (mem_namesIn_delete.mp hc).1⟩) with
    ⟨e, hr, hrun⟩ | ⟨t', ht', hrun⟩
  · exact hstopped hr hdeleted (Command.bind_error hrun)
  rw [Command.bind_ok hrun]
  obtain ⟨hrenamed, hsettled⟩ := renamed_resumes hdeleted.known rfl ht'
  obtain ⟨hloop, hended⟩ := loop_resumes script r [] _ rfl hsettled
    (fun _ h => absurd h (List.not_mem_nil))
  exact ⟨(hdeleted.trans hrenamed).trans hloop, hended⟩

theorem loop_complete (script : String → σ → Except String σ) (r : MigrationRun)
    (ht : db.recorded = some t) {rest : List String} (hrest : ∀ m ∈ rest, m ∈ namesIn t) :
    (rest.forM (applyMigration script r) db).2 = db := by
  induction rest with
  | nil => rfl
  | cons m rest ih =>
    rw [Command.forM_cons]
    rcases applyMigration_cases script r ht m with ⟨e, -, hrun⟩ | ⟨-, hrun⟩ | ⟨hnot, -⟩
    · rw [Command.bind_error hrun]
    · rw [Command.bind_ok hrun]
      exact ih fun m hm => hrest m (List.mem_cons_of_mem _ hm)
    · exact absurd (hrest m List.mem_cons_self) hnot

theorem migrate_complete (script : String → σ → Except String σ) (r : MigrationRun)
    (h : db.Complete) : (migrate script r db).2 = db := by
  obtain ⟨t, ht⟩ := Option.isSome_iff_exists.mp h.table
  have hnames : db.names = namesIn t := names_of_some ht
  have hmem : ∀ n, n ∈ namesIn t ↔ n ∈ MIGRATIONS := fun n => hnames ▸ h.names.mem_iff
  have hformer : ∀ row ∈ t.rows, (row.name == formerName) = false := by
    intro row hrow
    rw [beq_eq_false_iff_ne]
    exact fun hname => formerName_not_mem ((hmem _).mp (hname ▸ List.mem_map_of_mem hrow))
  have hself : ({ db with recorded := some t } : MigrationDb σ) = db := by rw [← ht]
  unfold migrate
  rcases createMigrationsTable_cases r db with ⟨e, -, hrun⟩ | hrun
  · rw [Command.bind_error hrun]
  rw [ht, Option.getD_some, hself] at hrun
  rw [Command.bind_ok hrun]
  rcases deleteFormer_cases r db ht with ⟨e, -, hrun⟩ | hrun
  · rw [Command.bind_error hrun]
  have hdelete : (t.delete fun row => row.name == formerName &&
      t.rows.any fun row => row.name == classroomsName) = t := by
    ext1
    rw [Table.rows_delete, List.filter_eq_self]
    intro row hrow
    rw [hformer row hrow]
    rfl
  rw [hdelete, hself] at hrun
  rw [Command.bind_ok hrun]
  have hnone : formerName ∉ namesIn t := fun hf => formerName_not_mem ((hmem _).mp hf)
  rcases renameFormer_cases r db ht (fun hf => absurd hf hnone) with ⟨e, -, hrun⟩ | ⟨t', ht', hrun⟩
  · rw [Command.bind_error hrun]
  have hrename : t' = t := by
    ext1
    have hsame : (t.rows.map fun row => if (row.name == formerName) = true then
        { row with name := classroomsName } else row) = t.rows.map id :=
      List.map_congr_left fun row hrow => by simp [hformer row hrow]
    rw [Table.rows_rekey ht', hsame, List.map_id]
  rw [hrename, hself] at hrun
  rw [Command.bind_ok hrun]
  exact loop_complete script r ht fun m hm => (hmem m).mpr hm

theorem afterMigrations_resumes (script : String → σ → Except String σ) (hknown : db.Known)
    (runs : List MigrationRun) :
    Resumes script db (afterMigrations script runs db) := by
  induction runs generalizing db with
  | nil => exact .refl hknown
  | cons r runs ih =>
    obtain ⟨hstep, -⟩ := migrate_resumes script r hknown
    exact hstep.trans (ih hstep.known)

/-- `done` is what a start makes of `db'`: what was not recorded there has been applied, each
once and in order, all is recorded as after a first start, and no further run applies
anything. -/
structure Finished (script : String → σ → Except String σ) (db' done : MigrationDb σ) : Prop where
  applied : (pending MIGRATIONS db'.isRecorded).foldlM (fun s m => applied script m s) db'.tables =
    .ok done.tables
  recorded : done.names.Perm MIGRATIONS
  first : ∀ (s : σ) (now : String → String) (db₀ : MigrationDb σ),
    migrate script (.fine now) ⟨none, s⟩ = (.ok (), db₀) → db₀.names.Perm done.names
  settled : ∀ r, (migrate script r done).2 = done
  again : ∀ now, migrate script (.fine now) done = (.ok (), done)

theorem finished_of_resumes (hresumes : Resumes script db' db) (hcomplete : db.Complete) :
    Finished script db' db := by
  have hrecorded : ∀ m ∈ MIGRATIONS, db.isRecorded m = true := fun m hm =>
    isRecorded_iff.mpr (.inl (hcomplete.names.mem_iff.mpr hm))
  have hdone : db.outcome script = .ok db.tables := outcomeOf_nil hrecorded
  refine ⟨hresumes.outcome.symm.trans hdone, hcomplete.names, ?_, ?_, ?_⟩
  · intro s now db₀ hrun
    obtain ⟨-, hended⟩ := migrate_resumes script (.fine now)
      (fun n hn => absurd hn List.not_mem_nil : MigrationDb.Known ⟨none, s⟩)
    rw [hrun] at hended
    exact hended.names.trans hcomplete.names.symm
  · exact fun r => migrate_complete script r hcomplete
  · intro now
    have hsame := migrate_complete script (.fine now) hcomplete
    obtain ⟨-, hended⟩ := migrate_resumes script (.fine now) hresumes.known
    rcases hrun : migrate script (.fine now) db with ⟨e | u, db'⟩
    · rw [hrun] at hsame hended
      have hdb : db' = db := hsame
      have herror := hended fun _ => rfl
      rw [hdb, hdone] at herror
      cases herror
    · rw [hrun] at hsame
      have hdb : db' = db := hsame
      rw [hdb]

end Migrating

/-- However often a start was interrupted, the next one that is not comes to the same
tables as one that never was, and there it ends. If a script fails, it says so. -/
theorem schema_migrations_once {σ : Type} (script : String → σ → Except String σ)
    {db : MigrationDb σ} (hknown : db.Known) (runs : List MigrationRun) (now : String → String) :
    (∀ t, db.outcome script = .ok t → ∃ done : MigrationDb σ,
      migrate script (.fine now) (afterMigrations script runs db) = (.ok (), done) ∧
        done.tables = t ∧ Finished script (afterMigrations script runs db) done) ∧
    ∀ e, db.outcome script = .error e →
      (migrate script (.fine now) (afterMigrations script runs db)).1 = .error e := by
  have hruns := afterMigrations_resumes script hknown runs
  obtain ⟨hrun, hended⟩ := migrate_resumes script (.fine now) hruns.known
  have hfine : (MigrationRun.fine now).Uninterrupted := fun _ => rfl
  have hall := hruns.trans hrun
  rcases hlast : migrate script (.fine now) (afterMigrations script runs db) with ⟨e | u, done⟩
  · rw [hlast] at hended hrun hall
    have herror : db.outcome script = .error e := hall.outcome.symm.trans (hended hfine)
    refine ⟨fun t ht => ?_, fun e' he' => ?_⟩
    · rw [herror] at ht
      cases ht
    · rw [Except.error.inj (herror.symm.trans he')]
  · rw [hlast] at hended hrun hall
    have hfinished := finished_of_resumes hrun hended
    have hok : db.outcome script = .ok done.tables :=
      hruns.outcome.symm.trans hfinished.applied
    refine ⟨fun t ht => ⟨done, rfl, ?_, hfinished⟩, fun e he => ?_⟩
    · exact Except.ok.inj (hok.symm.trans ht)
    · rw [hok] at he
      cases he

/-! The classroom migration is recorded under both names, and two starts are cut short. -/

def listScript (name : String) (s : List String) : Except String (List String) := .ok (s ++ [name])

def sampleMigrations : Table MigrationRow :=
  ⟨[⟨"0001_init", "now"⟩, ⟨formerName, "now"⟩, ⟨classroomsName, "now"⟩], by decide⟩

def sampleMigrationDb : MigrationDb (List String) :=
  ⟨some sampleMigrations, ["0001_init", classroomsName]⟩

def crashAt (step : MigrateStep) : MigrationRun :=
  ⟨fun step' => if step' = step then some .crash else none, fun _ => "later"⟩

theorem schema_migrations_once_sample : ∃ done : MigrationDb (List String),
    migrate listScript (.fine fun _ => "last") (afterMigrations listScript
      [crashAt (.commit "0003_student_recovery"), crashAt (.look "0010_quizzes")]
        sampleMigrationDb) = (.ok (), done) ∧ done.tables = MIGRATIONS ∧
      Finished listScript (afterMigrations listScript
        [crashAt (.commit "0003_student_recovery"), crashAt (.look "0010_quizzes")]
          sampleMigrationDb) done := by
  have hknown : ∀ n ∈ sampleMigrationDb.names, n ∈ formerName :: MIGRATIONS := by decide
  exact (schema_migrations_once listScript hknown _ _).1 MIGRATIONS (by decide)

end Cinder.Upgrades
