import Cinder.Programs.Commands
import Cinder.Storage.FileScripts
set_option autoImplicit false

/-!
The database under the product's former name, which takes the new name when the Host
starts: three files, moved one after the other by a run that may be interrupted.
-/

namespace Cinder.Upgrades
open Cinder.Programs Cinder.Storage

/-- The files of the data directory, by name. -/
abbrev DataDir := Disk String UInt8

def previousProductName : String :=
  String.ofList (([0x36, 0x2f, 0x37, 0x33, 0x34, 0x3b] : List UInt8).map fun byte =>
    Char.ofNat (byte ^^^ 0x5a).toNat)

def currentName : String := "cinder.db"

def legacyName : String := previousProductName ++ ".db"

example : legacyName = "lumina.db" := by decide

inductive Interruption where
  | crash
  | error (e : String)
  deriving DecidableEq, Repr

inductive LookStep where
  | current | legacy
  | source (suffix : String)
  deriving DecidableEq, Repr

inductive MoveStep where
  | createDirAll
  | rename (suffix : String)
  deriving DecidableEq, Repr

structure MigrateRun where
  crashes : LookStep → Bool
  stops : MoveStep → Option Interruption

def MigrateRun.fine : MigrateRun := ⟨fun _ => false, fun _ => none⟩

abbrev DataCommand (α : Type) := Command DataDir Interruption α

section Migrating
variable (r : MigrateRun)

def pathExists (step : LookStep) (path : String) : DataCommand Bool := do
  Command.require (r.crashes step = false) .crash
  let d ← Command.get
  pure (d path).isSome

def moveFile (suffix : String) : DataCommand Unit := do
  let there ← pathExists r (.source suffix) (legacyName ++ suffix)
  if there then do
    Command.attempt (r.stops (.rename suffix))
    Command.modify fun d =>
      (d.set (currentName ++ suffix) (d (legacyName ++ suffix))).set (legacyName ++ suffix) none
  else pure ()

def migrateLegacyDatabase : DataCommand String := do
  Command.attempt (r.stops .createDirAll)
  let current ← pathExists r .current currentName
  if current then pure currentName
  else do
    let legacy ← pathExists r .legacy legacyName
    if legacy then do
      ["", "-wal", "-shm"].forM (moveFile r)
      pure currentName
    else pure currentName

end Migrating

def afterRuns (runs : List MigrateRun) (d : DataDir) : DataDir :=
  runs.foldl (fun d r => (migrateLegacyDatabase r d).2) d

/-- A database of the former name, with or without its log, and none of the new name. -/
structure Legacy (d : DataDir) : Prop where
  database : (d legacyName).isSome = true
  unnamed : d currentName = none
  unlogged : d (currentName ++ "-wal") = none

/-- What is in a database that is opened under a name: what its log holds counts. -/
def shown {T : Type} (read : List UInt8 → Option (List UInt8) → T) (d : DataDir) (name : String) :
    Option T :=
  (d name).map fun database => read database (d (name ++ "-wal"))

/-- The database and its log are under the new name, and whatever the one and the other
held is seen there. -/
structure Migrated (d d' : DataDir) : Prop where
  database : d' currentName = d legacyName
  log : d' (currentName ++ "-wal") = d (legacyName ++ "-wal")
  shown : ∀ (T : Type) (read : List UInt8 → Option (List UInt8) → T),
    shown read d' currentName = shown read d legacyName

def movesDatabase (r : MigrateRun) : Bool :=
  (r.stops .createDirAll).isNone && !r.crashes .current && !r.crashes .legacy &&
    !r.crashes (.source "") && (r.stops (.rename "")).isNone

def movesLog (r : MigrateRun) : Bool :=
  !r.crashes (.source "-wal") && (r.stops (.rename "-wal")).isNone

section Moving
variable {r : MigrateRun} {d : DataDir}

theorem pathExists_run {step : LookStep} (h : r.crashes step = false) (path : String) :
    pathExists r step path d = (.ok (d path).isSome, d) := by
  rw [pathExists, Command.require_bind_ok h]
  rfl

theorem pathExists_crash {step : LookStep} (h : r.crashes step = true) (path : String) :
    pathExists r step path d = (.error .crash, d) := by
  rw [pathExists, Command.require_bind_error (by simp [h])]

def moved (d : DataDir) (suffix : String) : DataDir :=
  (d.set (currentName ++ suffix) (d (legacyName ++ suffix))).set (legacyName ++ suffix) none

theorem moveFile_missing {suffix : String} (h : d (legacyName ++ suffix) = none) :
    (moveFile r suffix d).2 = d := by
  unfold moveFile
  cases hlook : r.crashes (.source suffix) with
  | true => rw [Command.bind_error (pathExists_crash hlook _)]
  | false =>
    rw [Command.bind_ok (pathExists_run hlook _), h]
    rfl

theorem moveFile_there {suffix : String} (h : (d (legacyName ++ suffix)).isSome = true) :
    moveFile r suffix d = if r.crashes (.source suffix) = true then (.error .crash, d)
      else match r.stops (.rename suffix) with
        | some e => (.error e, d)
        | none => (.ok (), moved d suffix) := by
  unfold moveFile
  cases hlook : r.crashes (.source suffix) with
  | true => rw [Command.bind_error (pathExists_crash hlook _), if_pos rfl]
  | false =>
    rw [Command.bind_ok (pathExists_run hlook _), h, if_pos rfl, if_neg (by decide)]
    cases r.stops (.rename suffix) <;> rfl

theorem moveFile_keeps {suffix name : String} (hold : name ≠ legacyName ++ suffix)
    (hnew : name ≠ currentName ++ suffix) : (moveFile r suffix).Keeps fun d => d name := by
  intro d
  cases h : d (legacyName ++ suffix) with
  | none => rw [moveFile_missing h]
  | some content =>
    rw [moveFile_there (by rw [h]; rfl)]
    split
    · rfl
    · split
      · rfl
      · exact (Disk.set_of_ne hold).trans (Disk.set_of_ne hnew)

theorem migrate_current (h : (d currentName).isSome = true) :
    (migrateLegacyDatabase r d).2 = d := by
  unfold migrateLegacyDatabase
  cases hdir : r.stops .createDirAll with
  | some e => rfl
  | none =>
    rw [Command.bind_ok (Command.attempt_run none d)]
    cases hlook : r.crashes .current with
    | true => rw [Command.bind_error (pathExists_crash hlook _)]
    | false =>
      rw [Command.bind_ok (pathExists_run hlook _), h]
      rfl

theorem moved_self (d : DataDir) (suffix : String)
    (h : currentName ++ suffix ≠ legacyName ++ suffix) :
    moved d suffix (currentName ++ suffix) = d (legacyName ++ suffix) :=
  (Disk.set_of_ne h).trans (Disk.set_self ..)

theorem moved_of_ne {suffix name : String} (hold : name ≠ legacyName ++ suffix)
    (hnew : name ≠ currentName ++ suffix) : moved d suffix name = d name :=
  (Disk.set_of_ne hold).trans (Disk.set_of_ne hnew)

theorem migrate_legacy (h : Legacy d) : (migrateLegacyDatabase r d).2 =
    if movesDatabase r = true then (["-wal", "-shm"].forM (moveFile r) (moved d "")).2 else d := by
  have hthere : (d (legacyName ++ "")).isSome = true := by
    rw [String.append_empty]
    exact h.database
  unfold migrateLegacyDatabase movesDatabase
  cases hdir : r.stops .createDirAll with
  | some e => rfl
  | none =>
  rw [Command.bind_ok (Command.attempt_run none d)]
  cases hcurrent : r.crashes .current with
  | true => rw [Command.bind_error (pathExists_crash hcurrent _)]; rfl
  | false =>
  rw [Command.bind_ok (pathExists_run hcurrent _), h.unnamed]
  cases hlegacy : r.crashes .legacy with
  | true =>
    rw [Option.isSome_none, if_neg (by decide), Command.bind_error (pathExists_crash hlegacy _)]
    rfl
  | false =>
  rw [Option.isSome_none, if_neg (by decide), Command.bind_ok (pathExists_run hlegacy _),
    h.database, if_pos rfl]
  have hname : ∀ _ : PUnit, (pure currentName : DataCommand String).Keeps id := fun _ _ => rfl
  have hloop : ((["", "-wal", "-shm"].forM (moveFile r) >>= fun _ => pure currentName) d).2 =
      ((moveFile r "" >>= fun _ => ["-wal", "-shm"].forM (moveFile r)) d).2 :=
    Command.Keeps.after hname _ d
  rw [hloop]
  have hmove := moveFile_there (r := r) hthere
  cases hsource : r.crashes (.source "") with
  | true =>
    rw [hsource, if_pos rfl] at hmove
    rw [Command.bind_error hmove]
    simp
  | false =>
    rw [hsource, if_neg (by decide)] at hmove
    cases hrename : r.stops (.rename "") with
    | some e =>
      rw [hrename] at hmove
      rw [Command.bind_error hmove]
      simp
    | none =>
      rw [hrename] at hmove
      rw [Command.bind_ok hmove]
      rfl

theorem migrate_moves (h : Legacy d) (hmoves : movesDatabase r = true) :
    (migrateLegacyDatabase r d).2 currentName = d legacyName ∧
      (migrateLegacyDatabase r d).2 (currentName ++ "-wal") =
        if movesLog r = true then d (legacyName ++ "-wal") else none := by
  rw [migrate_legacy h, if_pos hmoves]
  have hdatabase : moved d "" currentName = d legacyName := moved_self d "" (by decide)
  have hlog : moved d "" (legacyName ++ "-wal") = d (legacyName ++ "-wal") :=
    moved_of_ne (by decide) (by decide)
  have hunlogged : moved d "" (currentName ++ "-wal") = none :=
    (moved_of_ne (by decide) (by decide)).trans h.unlogged
  have hlast : ∀ name, name ≠ legacyName ++ "-shm" → name ≠ currentName ++ "-shm" →
      (["-wal", "-shm"].forM (moveFile r) (moved d "")).2 name =
        (moveFile r "-wal" (moved d "")).2 name := by
    intro name hold hnew
    have hshm : ∀ _ : PUnit, (["-shm"].forM (moveFile r)).Keeps fun d => d name :=
      fun _ => .bind (moveFile_keeps hold hnew) fun _ => .pure _
    exact Command.Keeps.after hshm (moveFile r "-wal") (moved d "")
  have hkeeps : (moveFile r "-wal").Keeps fun d => d currentName :=
    moveFile_keeps (by decide) (by decide)
  refine ⟨?_, ?_⟩
  · exact (hlast _ (by decide) (by decide)).trans ((hkeeps _).trans hdatabase)
  rw [hlast _ (by decide) (by decide)]
  cases hwal : d (legacyName ++ "-wal") with
  | none =>
    rw [moveFile_missing (hlog.trans hwal), hunlogged, ite_self]
  | some content =>
    rw [moveFile_there (by rw [hlog, hwal]; rfl), movesLog]
    cases hsource : r.crashes (.source "-wal") with
    | true => simp [hunlogged]
    | false =>
      cases hrename : r.stops (.rename "-wal") with
      | some e => simp [hunlogged]
      | none =>
        simp only [Bool.false_eq_true, if_false, Bool.not_false, Bool.true_and, Option.isNone_none,
          if_true]
        rw [moved_self _ _ (by decide), hlog, hwal]

theorem afterRuns_eq (h : Legacy d) (runs : List MigrateRun) :
    afterRuns runs d = match runs.find? movesDatabase with
      | none => d
      | some r => (migrateLegacyDatabase r d).2 := by
  have hrest : ∀ (runs : List MigrateRun) (d : DataDir), (d currentName).isSome = true →
      afterRuns runs d = d := by
    intro runs
    induction runs with
    | nil => exact fun _ _ => rfl
    | cons r runs ih =>
      intro d hd
      rw [afterRuns, List.foldl_cons, migrate_current hd]
      exact ih d hd
  induction runs with
  | nil => rfl
  | cons r runs ih =>
    rw [afterRuns, List.foldl_cons, List.find?_cons]
    cases hmoves : movesDatabase r with
    | true =>
      refine hrest runs _ ?_
      rw [(migrate_moves h hmoves).1]
      exact h.database
    | false =>
      rw [migrate_legacy h, hmoves, if_neg (by decide)]
      exact ih

end Moving

/-- However often the Host is started and interrupted: after a start that comes to its
end the database has its log if and only if there was none, or the run that moved the
database was not interrupted between the two. -/
theorem migration_keeps_log_iff {d : DataDir} (hlegacy : Legacy d) (runs : List MigrateRun) :
    Migrated d (afterRuns (runs ++ [.fine]) d) ↔ d (legacyName ++ "-wal") = none ∨
      ∀ r ∈ runs.find? movesDatabase, movesLog r = true := by
  obtain ⟨r, hmoves, hafter, hr⟩ : ∃ r, movesDatabase r = true ∧
      afterRuns (runs ++ [.fine]) d = (migrateLegacyDatabase r d).2 ∧
        ((∀ r ∈ runs.find? movesDatabase, movesLog r = true) ↔ movesLog r = true) := by
    rw [afterRuns_eq hlegacy, List.find?_append]
    cases hfind : runs.find? movesDatabase with
    | none => exact ⟨.fine, rfl, rfl, iff_of_true (fun _ h => (by cases h)) rfl⟩
    | some r => exact ⟨r, List.find?_some hfind, rfl, ⟨fun h => h r rfl, fun h _ hr =>
        Option.some.inj hr ▸ h⟩⟩
  obtain ⟨hdatabase, hlog⟩ := migrate_moves hlegacy hmoves
  rw [hr, hafter]
  constructor
  · intro h
    by_cases hr : movesLog r = true
    · exact .inr hr
    · refine .inl ?_
      rw [← h.log, hlog, if_neg hr]
  · intro h
    have hkept : (migrateLegacyDatabase r d).2 (currentName ++ "-wal") =
        d (legacyName ++ "-wal") := by
      rw [hlog]
      split
      · rfl
      · next hnot => exact (h.resolve_right hnot).symm
    refine ⟨hdatabase, hkept, fun T read => ?_⟩
    rw [shown, shown, hdatabase, hkept]

def legacyDir : DataDir := fun name =>
  if name = "lumina.db" then some [1] else if name = "lumina.db-wal" then some [2] else none

theorem legacyDir_legacy : Legacy legacyDir := ⟨by decide, by decide, by decide⟩

theorem migration_keeps_log_iff_fine : Migrated legacyDir (afterRuns ([] ++ [.fine]) legacyDir) :=
  (migration_keeps_log_iff legacyDir_legacy []).mpr (.inr fun _ h => by cases h)

def stoppedBetween : MigrateRun :=
  ⟨fun step => decide (step = .source "-wal"), fun _ => none⟩

/-- The next start finds a database of the new name and leaves the log where it is. -/
theorem log_stays_behind : Legacy legacyDir ∧
    ¬Migrated legacyDir (afterRuns ([stoppedBetween] ++ [.fine]) legacyDir) := by
  refine ⟨legacyDir_legacy, fun h => absurd h.log ?_⟩
  decide

end Cinder.Upgrades
