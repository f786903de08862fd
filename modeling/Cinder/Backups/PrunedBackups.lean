import Cinder.Backups.ScheduledBackups
import Cinder.Backups.SwappedFolders
set_option autoImplicit false

/-!
Whether the backup that was just made survives the pruning that follows it. The pruning goes
by the times in the names, which a clock has written that may have been wrong.
-/

namespace Cinder.Backups
open Cinder.Host Cinder.HostApp Cinder.Programs Cinder.Storage

theorem automatic?_eq_some {e : DriveEntry} {name : List Char} (h : e.automatic? = some name) :
    e.name = .text name ∧ ∃ rest, name = autoBackupPrefix ++ ['-'] ++ rest := by
  obtain ⟨n, item⟩ := e
  unfold DriveEntry.automatic? at h
  split at h
  next name' content hname hitem =>
    split at h
    next hp =>
      obtain rfl := Option.some.inj h
      obtain ⟨rest, hrest⟩ := List.isPrefixOf_iff_prefix.mp hp.2
      exact ⟨hname, rest, hrest.symm⟩
    next => cases h
  next => cases h

theorem mem_automaticNames {drive : Drive} {name : List Char} :
    name ∈ automaticNames drive ↔ ∃ e ∈ drive.rows, e.automatic? = some name :=
  List.mem_filterMap

theorem nodup_automaticNames (drive : Drive) : (automaticNames drive).Nodup := by
  refine List.pairwise_filterMap.mpr (drive.unique.imp fun hclash name hname name' hname' => ?_)
  rintro rfl
  simp only [Keyed.clash, decide_eq_false_iff_not] at hclash
  exact hclash ((automatic?_eq_some hname).1.trans (automatic?_eq_some hname').1.symm)

def without (names : List (List Char)) (drive : Drive) : Drive :=
  drive.delete fun e => names.any fun name => e.name = .text name

theorem mem_without {names : List (List Char)} {drive : Drive} {e : DriveEntry} :
    e ∈ (without names drive).rows ↔ e ∈ drive.rows ∧ ∀ name ∈ names, e.name ≠ .text name := by
  simp [without]

theorem without_cons (name : List Char) (names : List (List Char)) (drive : Drive) :
    without names (drive.delete fun e => e.name = .text name) = without (name :: names) drive := by
  refine Table.ext ?_
  simp [without, List.filter_filter, Bool.and_comm]

theorem forM_removeBackup {r : PruneRun} {names : List (List Char)} {drive drive' : Drive}
    {u : Unit} (h : names.forM (removeBackup r) drive = (.ok u, drive')) :
    drive' = without names drive := by
  induction names generalizing drive with
  | nil =>
    obtain rfl := congrArg Prod.snd h
    exact Table.ext (by simp [without])
  | cons name names ih =>
    rw [Command.forM_cons] at h
    obtain ⟨_, t, hremove, hrest⟩ := Command.of_bind_ok h
    cases hfails : r.removeFails name with
    | some e =>
      rw [removeBackup, hfails] at hremove
      cases congrArg Prod.fst hremove
    | none =>
      rw [removeBackup, hfails] at hremove
      obtain rfl := congrArg Prod.snd hremove
      rw [ih hrest]
      exact without_cons name names drive

theorem pruneAutoBackups_ok {r : PruneRun} {keep : Nat} {drive drive' : Drive} {u : Unit}
    (h : pruneAutoBackups r keep drive = (.ok u, drive')) :
    drive' = without (surplus (automaticNames drive) (max keep 1)) drive := by
  rcases Command.attempt_bind_cases h with ⟨e, -, he, -⟩ | ⟨-, h⟩
  · cases he
  · rw [Command.bind_ok (Command.get_run drive)] at h
    exact forM_removeBackup h

theorem automaticNames_without (names : List (List Char)) (drive : Drive) :
    automaticNames (without names drive) =
      (automaticNames drive).filter fun name => !names.contains name := by
  unfold automaticNames without Table.delete
  dsimp only
  rw [List.filterMap_filter, List.filter_filterMap]
  refine List.filterMap_congr fun e _ => ?_
  cases he : e.automatic? with
  | none => simp
  | some name =>
    have hany : (names.any fun x => e.name = .text x) = names.contains name := by
      rw [(automatic?_eq_some he).1, List.contains_eq_any_beq]
      exact List.any_congr rfl fun x => by
        rw [Bool.eq_iff_iff, decide_eq_true_eq, OsName.text.injEq, beq_iff_eq]
    simp [hany, Option.filter]

def stampOf (name : List Char) : List Char := (name.drop (autoBackupPrefix.length+1)).take 15

/-- The backup that has just been made is newer than any other; of two others the one with the
later time in its name is the newer one. -/
def Newer (made a b : List Char) : Prop :=
  b ≠ made ∧ (a = made ∨ stampOf b < stampOf a)

/-- What is to hold of the backup folder when a new backup has been put into it and the limit has
been applied. -/
structure NewestKept (keep : Nat) (before after : Drive) (made : List Char) (folder : Folder) :
    Prop where
  complete : ⟨.text made, .folder folder⟩ ∈ after.rows
  remaining : min keep (automaticNames (before.put ⟨.text made, .folder folder⟩)).length ≤
    (automaticNames after).length
  oldest : ∀ e ∈ before.rows, e.name ≠ .text made → e ∉ after.rows →
    ∃ name, e.automatic? = some name ∧ ∀ kept ∈ automaticNames after, ¬Newer made name kept
  nothingElse : ∀ e ∈ after.rows, e ∈ before.rows ∨ e = ⟨.text made, .folder folder⟩

def afterPruning (keep : Nat) (before : Drive) (made : List Char) (folder : Folder) : Drive :=
  let drive := before.put ⟨.text made, .folder folder⟩
  without (surplus (automaticNames drive) (max keep 1)) drive

section Pruning
variable {keep : Nat} {before : Drive} {made : List Char} {folder : Folder}

theorem stamp_le_stamp {a b : List Char} {drive : Drive} (ha : a ∈ automaticNames drive)
    (hb : b ∈ automaticNames drive) (h : a ≤ b) : stampOf a ≤ stampOf b := by
  obtain ⟨e, -, he⟩ := mem_automaticNames.mp ha
  obtain ⟨e', -, he'⟩ := mem_automaticNames.mp hb
  obtain ⟨-, rest, rfl⟩ := automatic?_eq_some he
  obtain ⟨-, rest', rfl⟩ := automatic?_eq_some he'
  have hdrop : ∀ r, (autoBackupPrefix ++ ['-'] ++ r).drop (autoBackupPrefix.length+1) = r :=
    fun r => List.drop_left' (by simp)
  rw [stampOf, stampOf, hdrop, hdrop]
  exact take_le_take_of_append h 15

theorem automatic?_of_name {drive : Drive} {e : DriveEntry} {name : List Char}
    (he : e ∈ drive.rows) (hname : name ∈ automaticNames drive) (hename : e.name = .text name) :
    e.automatic? = some name := by
  obtain ⟨e', he', hname'⟩ := mem_automaticNames.mp hname
  have hsame : e' = e := Table.eq_of_clash he' he (by
    simp [Keyed.clash, (automatic?_eq_some hname').1, hename])
  rw [← hsame, hname']

theorem mem_automaticNames_put (hnew : DriveEntry.automatic? ⟨.text made, .folder folder⟩ =
    some made) {name : List Char} :
    name ∈ automaticNames (before.put ⟨.text made, .folder folder⟩) ↔
      name ∈ automaticNames before ∨ name = made := by
  simp only [mem_automaticNames, Table.mem_put]
  constructor
  · rintro ⟨e, ⟨he, -⟩ | rfl, hname⟩
    · exact .inl ⟨e, he, hname⟩
    · exact .inr (Option.some.inj (hname.symm.trans hnew))
  · by_cases hmade : name = made
    · exact fun _ => ⟨_, .inr rfl, hmade ▸ hnew⟩
    · rintro (⟨e, he, hname⟩ | h)
      · refine ⟨e, .inl ⟨he, ?_⟩, hname⟩
        simpa [Keyed.clash, (automatic?_eq_some hname).1] using hmade
      · exact absurd h hmade

theorem later_put (hnew : DriveEntry.automatic? ⟨.text made, .folder folder⟩ = some made) :
    later (automaticNames (before.put ⟨.text made, .folder folder⟩)) made =
      later (automaticNames before) made := by
  refine later_congr (nodup_automaticNames _) (nodup_automaticNames _) fun name hlt => ?_
  rw [mem_automaticNames_put hnew]
  exact or_iff_left (ne_of_gt hlt)

theorem stays_iff (keep : Nat) (before : Drive)
    (hnew : DriveEntry.automatic? ⟨.text made, .folder folder⟩ = some made) :
    (∃ e ∈ (afterPruning keep before made folder).rows, e.name = .text made) ↔
      later (automaticNames before) made < max keep 1 := by
  have hmade : made ∈ automaticNames (before.put ⟨.text made, .folder folder⟩) :=
    (mem_automaticNames_put hnew).mpr (.inr rfl)
  have hover : made ∈ surplus (automaticNames (before.put ⟨.text made, .folder folder⟩))
      (max keep 1) ↔ max keep 1 ≤ later (automaticNames before) made := by
    rw [mem_surplus_iff (nodup_automaticNames _), later_put hnew]
    exact and_iff_right hmade
  rw [← not_le, ← hover]
  constructor
  · rintro ⟨e, he, hname⟩ hmem
    exact (mem_without.mp he).2 made hmem hname
  · intro hmem
    refine ⟨⟨.text made, .folder folder⟩, mem_without.mpr ⟨Table.mem_put.mpr (.inr rfl), ?_⟩, rfl⟩
    rintro name hname heq
    exact hmem (OsName.text.inj heq ▸ hname)

theorem newestKept (hnew : DriveEntry.automatic? ⟨.text made, .folder folder⟩ = some made)
    (hfew : later (automaticNames before) made < max keep 1) :
    NewestKept keep before (afterPruning keep before made folder) made folder := by
  have hnodup := nodup_automaticNames (before.put ⟨.text made, .folder folder⟩)
  obtain ⟨e, he, hmade⟩ := (stays_iff keep before hnew).mpr hfew
  have hput : ⟨.text made, .folder folder⟩ ∈ (before.put ⟨.text made, .folder folder⟩).rows :=
    Table.mem_put.mpr (.inr rfl)
  have hsame : e = ⟨.text made, .folder folder⟩ :=
    Table.eq_of_clash (mem_without.mp he).1 hput (by simp [Keyed.clash, hmade])
  have hnames := automaticNames_without (surplus (automaticNames
    (before.put ⟨.text made, .folder folder⟩)) (max keep 1))
      (before.put ⟨.text made, .folder folder⟩)
  exact
    { complete := hsame ▸ he
      remaining := by
        have hlength := length_kept hnodup (max keep 1) (fun x => !(surplus (automaticNames
          (before.put ⟨.text made, .folder folder⟩)) (max keep 1)).contains x)
            fun x _ => by rw [Bool.not_eq_true', List.contains_eq_mem, decide_eq_false_iff_not]
        rw [afterPruning, hnames, hlength]
        omega
      oldest := fun e he hne hremoved => by
        have hin : e ∈ (before.put ⟨.text made, .folder folder⟩).rows :=
          Table.mem_put.mpr (.inl ⟨he, by simpa [Keyed.clash] using hne⟩)
        obtain ⟨name, hname, hename⟩ : ∃ name ∈ surplus (automaticNames
            (before.put ⟨.text made, .folder folder⟩)) (max keep 1), e.name = .text name := by
          simpa [afterPruning, mem_without, hin] using hremoved
        refine ⟨name, automatic?_of_name hin (mem_of_mem_surplus hname) hename, ?_⟩
        rintro kept hkept ⟨-, hnewer⟩
        rw [afterPruning, hnames, List.mem_filter] at hkept
        have hstays : kept ∉ surplus (automaticNames
            (before.put ⟨.text made, .folder folder⟩)) (max keep 1) := by simpa using hkept.2
        rcases hnewer with rfl | hlt
        · exact hne hename
        · exact absurd hlt (not_lt.mpr (stamp_le_stamp (mem_of_mem_surplus hname) hkept.1
            (le_of_surplus hname hkept.1 hstays)))
      nothingElse := fun e he => by
        rcases Table.mem_put.mp (mem_without.mp he).1 with ⟨hold, -⟩ | hmade
        · exact .inl hold
        · exact .inr hmade }

end Pruning

section Scheduled
variable {Other : Type} {lib : Libraries Other} {env : Surroundings} {r : ScheduledRun}

/-- `create_backup` has finished the backup, and has read it back. -/
def IsFinished (lib : Libraries Other) (r : ScheduledRun) (config : HostConfig) (parent : String)
    (folder : Folder) : Prop :=
  ∃ key encryption, createBackup lib r.named config parent r.live key encryption =
    .ok (String.ofList r.name, folder)

theorem createBackup_name {run : Run} {config : HostConfig} {parent name : String}
    {live folder : Folder} {key : BackupKey} {encryption : BackupEncryption}
    (h : createBackup lib run config parent live key encryption = .ok (name, folder)) :
    name = run.name := by
  obtain ⟨_, -, h⟩ := bind_eq_ok.mp h
  obtain ⟨_, -, h⟩ := bind_eq_ok.mp h
  obtain ⟨_, -, h⟩ := bind_eq_ok.mp h
  obtain ⟨_, -, h⟩ := bind_eq_ok.mp h
  obtain ⟨_, -, h⟩ := bind_eq_ok.mp h
  obtain ⟨folder', -, h⟩ := bind_eq_ok.mp h
  exact (Prod.mk.inj (Except.ok.inj h)).1.symm

theorem automatic?_of_finished {config : HostConfig} {parent : String} {folder : Folder}
    (h : IsFinished lib r config parent folder) :
    DriveEntry.automatic? ⟨.text r.name, .folder folder⟩ = some r.name := by
  obtain ⟨key, encryption, hcreate⟩ := h
  obtain ⟨_, _, _, _, _, hfinished⟩ := createBackup_eq_ok hcreate
  have hprefix : (autoBackupPrefix ++ ['-']).isPrefixOf r.name = true := by
    rw [List.isPrefixOf_iff_prefix, ScheduledRun.name, List.append_assoc, List.append_assoc]
    exact List.prefix_append _ _
  simp [DriveEntry.automatic?, hfinished.manifest, hprefix]

theorem createAutoBackup_ok {config : HostConfig} {parent : String} {key : BackupKey}
    {encryption : BackupEncryption} {drive drive' : Drive} {name : List Char}
    (h : createAutoBackup lib r config parent key encryption drive = (.ok name, drive')) :
    name = r.name ∧ ∃ folder, IsFinished lib r config parent folder ∧
      drive' = drive.put ⟨.text r.name, .folder folder⟩ := by
  unfold createAutoBackup at h
  rw [Command.bind_ok (Command.get_run drive)] at h
  rcases Command.require_bind_cases h with ⟨he, -⟩ | ⟨-, h⟩
  · cases he
  cases hcreate : createBackup lib r.named config parent r.live key encryption with
  | error e =>
    rw [hcreate] at h
    cases congrArg Prod.fst h
  | ok made =>
    obtain ⟨made, folder⟩ := made
    rw [hcreate] at h
    obtain rfl : made = String.ofList r.name := createBackup_name hcreate
    cases h
    exact ⟨rfl, folder, ⟨key, encryption, hcreate⟩, rfl⟩

theorem keeps_drive_forHost {α : Type} (p : AdminCommand α) :
    (forHost p).Keeps ScheduledHost.drive := fun _ => rfl

theorem recordSetting_keeps (step : ScheduledStep) (key value : String) :
    (recordSetting r step key value).Keeps ScheduledHost.drive :=
  .bind (.attempt _) fun _ => .modify fun _ => rfl

theorem auditBackup_keeps (name : List Char) : (auditBackup r name).Keeps ScheduledHost.drive :=
  .bind (.attempt _) fun _ => .modify fun _ => rfl

theorem forDrive_run {α : Type} {p : Command Drive String α} {s : ScheduledHost} {a : α}
    {drive : Drive} (h : p s.drive = (.ok a, drive)) :
    forDrive p s = (.ok a, { s with drive := drive }) := by
  rw [forDrive, Command.zoom, h]

theorem forHost_ok {α : Type} {p : AdminCommand α} {s s' : ScheduledHost} {a : α}
    (h : forHost p s = (.ok a, s')) : p s.host = (.ok a, s'.host) := by
  obtain ⟨hfst, hsnd⟩ := Prod.mk.inj h
  rw [← hsnd]
  exact Prod.ext hfst rfl

theorem forDrive_ok {α : Type} {p : Command Drive String α} {s s' : ScheduledHost} {a : α}
    (h : forDrive p s = (.ok a, s')) : p s.drive = (.ok a, s'.drive) := by
  obtain ⟨hfst, hsnd⟩ := Prod.mk.inj h
  rw [← hsnd]
  exact Prod.ext hfst rfl

/-- The operation changes the backup folder in two ways: a new backup, and the limit. -/
theorem scheduledBackup_ok {config : HostConfig} {s s' : ScheduledHost} {name : List Char}
    (h : scheduledBackup lib env r config s = (.ok (some name), s')) :
    ∃ schedule folder, config.autoBackup = some schedule ∧ name = r.name ∧
      IsFinished lib r config schedule.folder folder ∧
      s'.drive = afterPruning schedule.keep s.drive r.name folder := by
  unfold scheduledBackup at h
  rcases Command.ofExcept_bind_cases h with ⟨e, -, he, -⟩ | ⟨schedule, hschedule, h⟩
  · cases he
  have hsome := orError_eq_ok.mp hschedule
  obtain ⟨_, t, -, ht, h⟩ := (keeps_drive_forHost _).of_bind_ok h
  rcases Command.attempt_bind_cases h with ⟨e, -, he, -⟩ | ⟨-, h⟩
  · cases he
  rw [Command.bind_ok (Command.get_run t)] at h
  dsimp only at h
  split at h
  next => cases congrArg Prod.fst h
  next =>
    obtain ⟨_, t₁, -, ht₁, h⟩ := (keeps_drive_forHost _).of_bind_ok h
    rcases Command.ofExcept_bind_cases h with ⟨e, -, he, -⟩ | ⟨⟨key, encryption⟩, -, h⟩
    · cases he
    obtain ⟨name', t₂, hcreate, h⟩ := Command.of_bind_ok h
    obtain ⟨rfl, folder, hfinished, hput⟩ := createAutoBackup_ok (forDrive_ok hcreate)
    obtain ⟨_, t₃, -, ht₃, h⟩ := (recordSetting_keeps _ _ _).of_bind_ok h
    obtain ⟨_, t₄, -, ht₄, h⟩ := (recordSetting_keeps _ _ _).of_bind_ok h
    obtain ⟨_, t₅, -, ht₅, h⟩ := (recordSetting_keeps _ _ _).of_bind_ok h
    obtain ⟨_, t₆, -, ht₆, h⟩ := (auditBackup_keeps _).of_bind_ok h
    obtain ⟨_, t₇, hprune, h⟩ := Command.of_bind_ok h
    have hpruned := pruneAutoBackups_ok (forDrive_ok hprune)
    rw [ht₆, ht₅, ht₄, ht₃, hput, ht₁, ht] at hpruned
    cases h
    exact ⟨schedule, folder, hsome, rfl, hfinished, hpruned⟩

theorem enterScheduled_config {s s' : HostState} {config : HostConfig}
    (h : enterScheduled env s = (.ok (some config), s')) : s.config = some config := by
  unfold enterScheduled at h
  rcases Command.attempt_bind_cases h with ⟨e, -, he, -⟩ | ⟨-, h⟩
  · cases he
  rw [Command.bind_ok (Command.get_run s)] at h
  cases hconfig : s.config with
  | none =>
    rw [hconfig] at h
    cases congrArg Prod.fst h
  | some config' =>
    rw [hconfig] at h
    dsimp only at h
    split at h
    next => cases congrArg Prod.fst h
    next => exact congrArg some (Option.some.inj (Except.ok.inj (congrArg Prod.fst h)))

/-- A run that answers with a new backup has put it into the folder and applied the limit. -/
theorem runScheduledBackup_ok {s s' : ScheduledHost} {name : List Char}
    (h : runScheduledBackup lib env r s = (.ok (some name), s')) :
    ∃ config schedule folder, s.host.config = some config ∧ config.autoBackup = some schedule ∧
      name = r.name ∧ IsFinished lib r config schedule.folder folder ∧
      s'.drive = afterPruning schedule.keep s.drive r.name folder := by
  unfold runScheduledBackup at h
  obtain ⟨entered, t, henter, ht, h⟩ := (keeps_drive_forHost _).of_bind_ok h
  cases entered with
  | none => cases congrArg Prod.fst h
  | some config =>
    dsimp only at h
    rw [Command.outcome_bind_run] at h
    rcases hbackup : scheduledBackup lib env r config t with ⟨e | made, u⟩
    · rw [hbackup] at h
      dsimp only at h
      obtain ⟨_, v, -, h⟩ := Command.of_bind_ok h
      obtain ⟨_, w, -, h⟩ := Command.of_bind_ok h
      cases congrArg Prod.fst h
    · rw [hbackup] at h
      dsimp only at h
      obtain ⟨_, w, -, hw, h⟩ := (keeps_drive_forHost _).of_bind_ok h
      cases h
      obtain ⟨schedule, folder, hschedule, hname, hfinished, hdrive⟩ := scheduledBackup_ok hbackup
      refine ⟨config, schedule, folder, ?_, hschedule, hname, hfinished, ?_⟩
      · exact enterScheduled_config (forHost_ok henter)
      · rw [hw, hdrive, ht]

end Scheduled

/-- After a run the backup that was just made is there, with all else that was to be kept. -/
def KeepsTheNewest {Other : Type} (lib : Libraries Other) (r : ScheduledRun)
    (s s' : ScheduledHost) (name : List Char) : Prop :=
  ∃ config schedule folder, s.host.config = some config ∧ config.autoBackup = some schedule ∧
    IsFinished lib r config schedule.folder folder ∧
    NewestKept schedule.keep s.drive s'.drive name folder

def FewLaterNames (s : ScheduledHost) (name : List Char) : Prop :=
  ∀ config schedule, s.host.config = some config → config.autoBackup = some schedule →
    later (automaticNames s.drive) name < max schedule.keep 1

section Results
variable {Other : Type} (lib : Libraries Other) (env : Surroundings) (r : ScheduledRun)

theorem fewLaterNames_of_kept {s s' : ScheduledHost} {name : List Char}
    (h : runScheduledBackup lib env r s = (.ok (some name), s'))
    (hkept : KeepsTheNewest lib r s s' name) : FewLaterNames s name := by
  obtain ⟨config, schedule, folder, hconfig, hschedule, rfl, hfinished, hdrive⟩ :=
    runScheduledBackup_ok h
  obtain ⟨_, _, folder', -, -, -, hstored⟩ := hkept
  intro config' schedule' hconfig' hschedule'
  obtain rfl := Option.some.inj (hconfig.symm.trans hconfig')
  obtain rfl := Option.some.inj (hschedule.symm.trans hschedule')
  refine (stays_iff schedule.keep s.drive (automatic?_of_finished hfinished)).mp
    ⟨⟨.text r.name, .folder folder'⟩, ?_, rfl⟩
  rw [← hdrive]
  exact hstored.complete

/-- The newest backup is kept unless the folder holds as many automatic backups as are kept with
names after its own. -/
theorem newest_backup_is_kept_iff {s s' : ScheduledHost} {name : List Char}
    (h : runScheduledBackup lib env r s = (.ok (some name), s')) :
    KeepsTheNewest lib r s s' name ↔ FewLaterNames s name := by
  refine ⟨fewLaterNames_of_kept lib env r h, fun hfew => ?_⟩
  obtain ⟨config, schedule, folder, hconfig, hschedule, rfl, hfinished, hdrive⟩ :=
    runScheduledBackup_ok h
  refine ⟨config, schedule, folder, hconfig, hschedule, hfinished, ?_⟩
  rw [hdrive]
  exact newestKept (automatic?_of_finished hfinished) (hfew config schedule hconfig hschedule)

end Results

def sampleScheduled (stamp : String) : ScheduledRun where
  run := sampleRun
  prune := ⟨none, fun _ => none, fun _ => .file⟩
  live := sampleLive
  fails _ := none
  now _ := 0
  stamp _ := stamp.toList
  code := "abcdef".toList
  rfc3339 _ := "1970-01-01T00:00:00+00:00"
  parseTime _ := none
  display name := "/backups/" ++ String.ofList name

def sampleSchedule : HostConfig := { sampleConfig with autoBackup := some ⟨"/backups", 1⟩ }

def scheduledHost (drive : Drive) : ScheduledHost :=
  ⟨⟨some sampleSchedule, none, true, false, some sampleSchedule⟩, [], [], drive⟩

def sampleHeld (drive : Drive) : ScheduledHost :=
  ⟨⟨some sampleSchedule, none, true, true, some sampleSchedule⟩, [], [], drive⟩

def earlierBackup : DriveEntry :=
  ⟨.text "cinder-autobackup-20990101-000000-uvwxyz".toList, .folder plainBackup⟩

theorem forM_removeBackup_clean {r : PruneRun} (h : ∀ name, r.removeFails name = none)
    (names : List (List Char)) (drive : Drive) :
    ∃ drive', names.forM (removeBackup r) drive = (.ok (), drive') := by
  induction names generalizing drive with
  | nil => exact ⟨drive, rfl⟩
  | cons name names ih =>
    have hremove : removeBackup r name drive =
        (.ok (), drive.delete fun e => e.name = .text name) := by
      rw [removeBackup, h]
      rfl
    obtain ⟨drive', hrest⟩ := ih (drive.delete fun e => e.name = .text name)
    exact ⟨drive', by rw [Command.forM_cons, Command.bind_ok hremove, hrest]⟩

theorem sampleScheduled_runs (stamp : String) (drive : Drive)
    (hfree : isFile drive (sampleScheduled stamp).name = false) :
    ∃ s', runScheduledBackup sampleLibraries restoreEnv (sampleScheduled stamp)
      (scheduledHost drive) = (.ok (some (sampleScheduled stamp).name), s') := by
  obtain ⟨folder, hcreate⟩ : ∃ folder, createBackup sampleLibraries (sampleScheduled stamp).named
      sampleSchedule "/backups" (sampleScheduled stamp).live sampleKey sampleEncryption =
        .ok (String.ofList (sampleScheduled stamp).name, folder) := by
    have houtside : ¬["/school"] <+: ["/backups"] := by decide
    exact createBackup_of_archivable sampleLibraries_lawful ⟨fun _ => rfl, fun _ _ => .refl _⟩
      houtside sampleLive_archivable
  have hmade : createAutoBackup sampleLibraries (sampleScheduled stamp) sampleSchedule "/backups"
      sampleKey sampleEncryption drive = (.ok (sampleScheduled stamp).name,
        drive.put ⟨.text (sampleScheduled stamp).name, .folder folder⟩) := by
    unfold createAutoBackup
    rw [Command.bind_ok (Command.get_run drive), Command.require_bind_ok hfree, hcreate]
    rfl
  obtain ⟨pruned, hprune⟩ := forM_removeBackup_clean (r := (sampleScheduled stamp).prune)
    (fun _ => rfl) (surplus (automaticNames
      (drive.put ⟨.text (sampleScheduled stamp).name, .folder folder⟩)) 1)
    (drive.put ⟨.text (sampleScheduled stamp).name, .folder folder⟩)
  have hlimit : pruneAutoBackups (sampleScheduled stamp).prune 1
      (drive.put ⟨.text (sampleScheduled stamp).name, .folder folder⟩) = (.ok (), pruned) := hprune
  have hbackup : ∃ s', scheduledBackup sampleLibraries restoreEnv (sampleScheduled stamp)
      sampleSchedule (sampleHeld drive) = (.ok (some (sampleScheduled stamp).name), s') := by
    have hsteps : scheduledBackup sampleLibraries restoreEnv (sampleScheduled stamp)
      sampleSchedule (sampleHeld drive) = (do
        let name ← forDrive (createAutoBackup sampleLibraries (sampleScheduled stamp)
          sampleSchedule "/backups" sampleKey sampleEncryption)
        recordSetting (sampleScheduled stamp) .recordLastAuto "last_auto_backup"
          "1970-01-01T00:00:00+00:00"
        recordSetting (sampleScheduled stamp) .recordLast "last_backup" "1970-01-01T00:00:00+00:00"
        recordSetting (sampleScheduled stamp) .recordNoError "last_auto_backup_error" ""
        auditBackup (sampleScheduled stamp) name
        forDrive (pruneAutoBackups (sampleScheduled stamp).prune 1)
        pure (some name) : ScheduledCommand (Option (List Char))) (sampleHeld drive) := rfl
    rw [hsteps, Command.bind_ok (forDrive_run hmade)]
    exact ⟨_, Command.bind_ok (forDrive_run hlimit)⟩
  obtain ⟨s', hs'⟩ := hbackup
  have henter : forHost (enterScheduled restoreEnv) (scheduledHost drive) =
      (.ok (some sampleSchedule), sampleHeld drive) := rfl
  rw [runScheduledBackup, Command.bind_ok henter]
  dsimp only
  rw [Command.outcome_bind_run, hs']
  exact ⟨_, rfl⟩

theorem newest_backup_is_kept_iff_sample :
    ∃ s', KeepsTheNewest sampleLibraries (sampleScheduled "20260101-000000")
      (scheduledHost (.single ⟨.text "holiday.jpg".toList, .file⟩)) s'
      (sampleScheduled "20260101-000000").name := by
  obtain ⟨s', hrun⟩ := sampleScheduled_runs "20260101-000000"
    (.single ⟨.text "holiday.jpg".toList, .file⟩) (by decide)
  refine ⟨s', (newest_backup_is_kept_iff sampleLibraries restoreEnv _ hrun).mpr ?_⟩
  intro config schedule hconfig hschedule
  obtain rfl := Option.some.inj hconfig
  obtain rfl := Option.some.inj hschedule
  decide

/-- With a later name in the folder the backup that was just made is the one that is removed. -/
theorem newest_backup_removed : ∃ s',
    runScheduledBackup sampleLibraries restoreEnv (sampleScheduled "20260101-000000")
      (scheduledHost (.single earlierBackup)) =
        (.ok (some (sampleScheduled "20260101-000000").name), s') ∧
    ¬KeepsTheNewest sampleLibraries (sampleScheduled "20260101-000000")
      (scheduledHost (.single earlierBackup)) s' (sampleScheduled "20260101-000000").name := by
  obtain ⟨s', hrun⟩ := sampleScheduled_runs "20260101-000000" (.single earlierBackup) (by decide)
  refine ⟨s', hrun, fun hkept => ?_⟩
  have hfew := fewLaterNames_of_kept sampleLibraries restoreEnv _ hrun hkept _ _ rfl rfl
  exact absurd hfew (by decide)

end Cinder.Backups
