import Cinder.Backups.ArchivableData
import Cinder.Backups.SchoolRestore
set_option autoImplicit false

/-!
A restore puts the staged folder in the place of the live one as a whole, or leaves
the live one. What it may leave there besides is an empty database, where none was.
-/

namespace Cinder.Backups
open Cinder.Host Cinder.HostApp Cinder.Programs

section Swaps
variable {r : RestoreRun} {s s' : SchoolFolders}

theorem renameFolder_cases {step : RestoreStep} {context : String} {src dst : FolderPlace}
    {result : Except String Unit} (h : renameFolder r step context src dst s = (result, s')) :
    (∃ e, result = .error e ∧ s' = s) ∨ (result = .ok () ∧ (s.folder src).isSome = true ∧
      s' = (s.put dst (s.folder src)).put src none) := by
  rcases Command.attempt_bind_cases h with ⟨e, -, hr, rfl⟩ | ⟨-, h⟩
  · exact .inl ⟨e, hr, rfl⟩
  rw [Command.bind_ok (Command.get_run s)] at h
  rcases Command.require_bind_cases h with ⟨hr, rfl⟩ | ⟨hsrc, h⟩
  · exact .inl ⟨_, hr, rfl⟩
  · cases h
    exact .inr ⟨rfl, hsrc, rfl⟩

theorem renameFolder_fine {step : RestoreStep} {src dst : FolderPlace} (hstep : r.fails step = none)
    (hsrc : (s.folder src).isSome = true) (context : String) :
    renameFolder r step context src dst s = (.ok (), (s.put dst (s.folder src)).put src none) := by
  have hattempt : (Command.attempt ((r.fails step).map (context ++ ·)) : FolderCommand Unit) s =
      (.ok (), s) := by rw [hstep]; rfl
  rw [renameFolder, Command.bind_ok hattempt, Command.bind_ok (Command.get_run s),
    Command.require_bind_ok hsrc]
  rfl

/-- The renames of the swap. After an error the live folder has been taken back, if it
was taken away. -/
theorem swapDataDirs_cases {dataDir : String} {injectFailure : Bool} {result : Except String Unit}
    (hback : r.fails .renameBack = none) (h : swapDataDirs r dataDir injectFailure s = (result, s')) :
    (∃ e, result = .error e ∧ s'.folder .live = s.folder .live) ∨
      (result = .ok () ∧ (s.folder .live).isSome = true ∧ (s.folder .stage).isSome = true ∧
        s'.folder .live = s.folder .stage) := by
  rcases Command.ofExcept_bind_cases h with ⟨e, -, hr, rfl⟩ | ⟨parent, -, h⟩
  · exact .inl ⟨e, hr, rfl⟩
  rcases hprepare : renameFolder r .renameLive "Could not prepare school-data swap: " .live
    .rollback s with ⟨prepared, t⟩
  rcases renameFolder_cases hprepare with ⟨e, rfl, rfl⟩ | ⟨rfl, hlive, rfl⟩
  · rw [Command.bind_error hprepare] at h
    cases h
    exact .inl ⟨e, rfl, rfl⟩
  rw [Command.bind_ok hprepare, Command.outcome_bind_run] at h
  generalize hafter : (s.put .rollback (s.folder .live)).put .live none = after at h
  have hrollback : after.folder .rollback = s.folder .live := by simp [← hafter]
  have hstage : after.folder .stage = s.folder .stage := by simp [← hafter]
  rcases hinstall : (if injectFailure then Command.fail "Injected install failure."
    else renameFolder r .renameStaged "Could not install staged school data: " .stage .live
      : FolderCommand Unit) after with ⟨installed, t⟩
  rw [hinstall] at h
  have hcases : (∃ e, installed = .error e ∧ t = after) ∨ (installed = .ok () ∧
      (after.folder .stage).isSome = true ∧
        t = (after.put .live (after.folder .stage)).put .stage none) := by
    cases injectFailure with
    | true =>
      cases hinstall
      exact .inl ⟨_, rfl, rfl⟩
    | false => exact renameFolder_cases hinstall
  rcases hcases with ⟨e, rfl, rfl⟩ | ⟨rfl, hsome, rfl⟩
  · have hkept : (t.folder .rollback).isSome = true := by rw [hrollback]; exact hlive
    have hmoved : renameFolder r .renameBack (e ++ " Automatic rollback also failed: ") .rollback
        .live t = (.ok (), (t.put .live (t.folder .rollback)).put .rollback none) :=
      renameFolder_fine hback hkept _
    dsimp only at h
    rw [Command.bind_ok hmoved] at h
    cases h
    refine .inl ⟨e, rfl, ?_⟩
    simp [hrollback]
  · cases h
    refine .inr ⟨rfl, hlive, hstage ▸ hsome, ?_⟩
    simp [hstage]

end Swaps

section Restores
variable {Other : Type} {lib : Libraries Other} {env : Surroundings} {r : RestoreRun}
  {s s' : SchoolFolders}

/-- A safety backup that is made has opened the live database, and read a copy of it. -/
theorem createBackup_reads {config : HostConfig} {parent : String} {live : Folder} {key : BackupKey}
    {encryption : BackupEncryption} {archive : String × Folder}
    (h : createBackup lib r.run config parent live key encryption = .ok archive) :
    opensLive r config parent = true ∧ ∃ copy, lib.copyDatabase (live.database.getD []) = .ok copy ∧
      ∀ e, lib.readDatabase copy ≠ .error e := by
  obtain ⟨_, hparent, h⟩ := bind_eq_ok.mp h
  obtain ⟨_, hlive, h⟩ := bind_eq_ok.mp h
  obtain ⟨_, hcanonical, h⟩ := bind_eq_ok.mp h
  obtain ⟨_, houtside, h⟩ := bind_eq_ok.mp h
  obtain ⟨_, hdestination, h⟩ := bind_eq_ok.mp h
  obtain ⟨_, h, -⟩ := bind_eq_ok.mp h
  obtain ⟨_, h, -⟩ := bind_eq_ok.mp h
  obtain ⟨_, hscratch, h⟩ := bind_eq_ok.mp h
  obtain ⟨_, hopen, h⟩ := bind_eq_ok.mp h
  obtain ⟨copy, hcopy, h⟩ := bind_eq_ok.mp h
  obtain ⟨_, -, h⟩ := bind_eq_ok.mp h
  obtain ⟨_, -, h⟩ := bind_eq_ok.mp h
  obtain ⟨_, -, h⟩ := bind_eq_ok.mp h
  obtain ⟨_, hread, -⟩ := bind_eq_ok.mp h
  rw [Run.step_eq_ok] at hparent hlive hcanonical hdestination hscratch hopen
  have hprefix : ¬r.run.canonicalize config.dataDir <+: r.run.canonicalize parent :=
    ensure_eq_ok.mp houtside
  refine ⟨?_, copy, hcopy, fun e he => ?_⟩
  · simp [opensLive, hparent, hlive, hcanonical, hdestination, hscratch, hopen, hprefix]
  · rw [he] at hread
    cases hread

def EmptyUnreadable (lib : Libraries Other) : Prop :=
  ∀ copy, lib.copyDatabase [] = .ok copy → ∃ e, lib.readDatabase copy = .error e

/-- The safety backup leaves the staged folder alone, and the live one but for an empty
database. -/
theorem createBackupHere_cases {config : HostConfig} {parent : String} {key : BackupKey}
    {encryption : BackupEncryption} {result : Except String String}
    (hempty : EmptyUnreadable lib)
    (h : createBackupHere lib r config parent key encryption s = (result, s')) :
    s'.folder .stage = s.folder .stage ∧
      ((∃ e, result = .error e ∧ s'.folder .live =
        if opensLive r config parent = true then (s.folder .live).map Folder.opened
        else s.folder .live) ∨
      (∃ name live, result = .ok name ∧ opensLive r config parent = true ∧
        s.folder .live = some live ∧ live.database ≠ none ∧ s'.folder .live = some live)) := by
  rw [createBackupHere, Command.bind_ok (Command.get_run s)] at h
  cases hlive : s.folder .live with
  | none =>
    rw [hlive] at h
    rcases Command.attempt_bind_cases h with ⟨e, -, rfl, rfl⟩ | ⟨-, h⟩
    · exact ⟨rfl, .inl ⟨e, rfl, by simp [hlive]⟩⟩
    · cases h
      exact ⟨rfl, .inl ⟨_, rfl, by simp [hlive]⟩⟩
  | some live =>
    rw [hlive] at h
    dsimp only at h
    rw [Command.bind_ok (Command.modify_run _ s)] at h
    rcases Command.ofExcept_bind_cases h with ⟨e, -, rfl, rfl⟩ | ⟨⟨name, archive⟩, hmade, h⟩
    · refine ⟨by split <;> simp, .inl ⟨e, rfl, ?_⟩⟩
      split <;> simp [hlive]
    · obtain ⟨hopens, copy, hcopy, hread⟩ := createBackup_reads hmade
      have hdatabase : live.database ≠ none := by
        intro hnone
        rw [hnone] at hcopy
        obtain ⟨e, he⟩ := hempty copy hcopy
        exact hread e he
      rw [if_pos hopens, Folder.opened_eq.mpr hdatabase] at h
      cases h
      refine ⟨by simp, .inr ⟨_, live, rfl, hopens, rfl, hdatabase, by simp⟩⟩

theorem orRemoveStage_error {α : Type} {p : FolderCommand α} {e : String}
    (h : p s = (.error e, s')) : orRemoveStage r p s = (.error e, s'.put .stage r.leftStage) := by
  rw [orRemoveStage, Command.outcome_bind_run, h]
  rfl

theorem orRemoveStage_ok {α : Type} {p : FolderCommand α} {a : α} (h : p s = (.ok a, s')) :
    orRemoveStage r p s = (.ok a, s') := by
  rw [orRemoveStage, Command.outcome_bind_run, h]
  rfl

theorem stageHere_cases {backup : Folder} {secret : String} {result : Except String Unit}
    (h : stageHere lib r backup secret s = (result, s')) : s'.folder .live = s.folder .live ∧
      ((∃ e, stageBackup lib r.run backup secret = .error e ∧ result = .error e) ∨
        ∃ staged, stageBackup lib r.run backup secret = .ok staged ∧ result = .ok () ∧
          s'.folder .stage = some staged) := by
  unfold stageHere at h
  rcases hstage : stageBackup lib r.run backup secret with e | staged <;> rw [hstage] at h <;> cases h
  · exact ⟨by simp, .inl ⟨e, rfl, rfl⟩⟩
  · exact ⟨by simp, .inr ⟨staged, rfl, rfl, by simp⟩⟩

def restoreEntry (r : RestoreRun) (backup : String) : AuditEntry :=
  ⟨"school.restore", some "backup", none, backup, r.auditedAt⟩

theorem auditStaged_cases {backup : String} {staged : Folder} {result : Except String Unit}
    (hstaged : s.folder .stage = some staged) (h : auditStaged lib r backup s = (result, s')) :
    s'.folder .live = s.folder .live ∧ ((∃ e, result = .error e) ∨ ∃ database,
      lib.insertAudit (restoreEntry r backup) (staged.database.getD []) = .ok database ∧
        result = .ok () ∧ s'.folder .stage = some { staged with database := some database }) := by
  rcases Command.attempt_bind_cases h with ⟨e, -, rfl, rfl⟩ | ⟨-, h⟩
  · exact ⟨rfl, .inl ⟨e, rfl⟩⟩
  rw [Command.bind_ok (Command.get_run s), hstaged] at h
  rcases Command.ofExcept_bind_cases h with ⟨e, -, rfl, rfl⟩ | ⟨database, hdatabase, h⟩
  · exact ⟨rfl, .inl ⟨e, rfl⟩⟩
  · cases h
    exact ⟨by simp, .inr ⟨database, hdatabase, rfl, by simp⟩⟩

/-- What follows the safety backup: the staged folder takes the place of the live one, or
the live one stays. -/
theorem auditAndSwap_cases {backup dataDir safety : String} {staged : Folder}
    {result : Except String String} (hback : r.fails .renameBack = none)
    (hstaged : s.folder .stage = some staged)
    (h : (auditStaged lib r backup >>= fun _ => swapDataDirs r dataDir false >>= fun _ =>
      pure safety) s = (result, s')) :
    (∃ e, result = .error e ∧ s'.folder .live = s.folder .live) ∨ ∃ database,
      lib.insertAudit (restoreEntry r backup) (staged.database.getD []) = .ok database ∧
        result = .ok safety ∧
          s'.folder .live = some { staged with database := some database } := by
  rcases haudit : auditStaged lib r backup s with ⟨audited, t⟩
  obtain ⟨hlive, ⟨e, rfl⟩ | ⟨database, hinsert, rfl, hstage⟩⟩ := auditStaged_cases hstaged haudit
  · rw [Command.bind_error haudit] at h
    cases h
    exact .inl ⟨e, rfl, hlive⟩
  rw [Command.bind_ok haudit] at h
  rcases hswap : swapDataDirs r dataDir false t with ⟨swapped, t'⟩
  rcases swapDataDirs_cases hback hswap with ⟨e, rfl, hkept⟩ | ⟨rfl, -, -, hswapped⟩
  · rw [Command.bind_error hswap] at h
    cases h
    exact .inl ⟨e, rfl, hkept.trans hlive⟩
  · rw [Command.bind_ok hswap] at h
    cases h
    exact .inr ⟨database, hinsert, rfl, hswapped.trans hstage⟩

/-- The restore comes to open the database of the school. -/
def ReachesDatabase (lib : Libraries Other) (env : Surroundings) (r : RestoreRun)
    (password backup : String) (backupPassword : Option String) (config : HostConfig) : Prop :=
  env.verifyPassword config.passwordHash password = true ∧
    (∃ staged, stageBackup lib r.run (r.folderAt backup) (secretFor password backupPassword) =
      .ok staged) ∧
    (∃ keys, backupEncryption (storedKey env) config = .ok keys) ∧
    ∃ parent, r.parent config.dataDir = some parent ∧
      opensLive r config (parent ++ "/Cinder recovery archives") = true

/-- The folder of the backup, with a row about its restore in the database. -/
def StagedFrom (lib : Libraries Other) (r : RestoreRun) (password backup : String)
    (backupPassword : Option String) (folder : Folder) : Prop :=
  ∃ staged database,
    stageBackup lib r.run (r.folderAt backup) (secretFor password backupPassword) = .ok staged ∧
      lib.insertAudit (restoreEntry r backup) (staged.database.getD []) = .ok database ∧
        folder = { staged with database := some database }

theorem restoreData_cases {password backup : String} {backupPassword : Option String}
    {config : HostConfig} {result : Except String String} (hback : r.fails .renameBack = none)
    (hempty : EmptyUnreadable lib)
    (h : restoreData lib env r password backup backupPassword config s = (result, s')) :
    (∃ e, result = .error e ∧ ¬ReachesDatabase lib env r password backup backupPassword config ∧
      s'.folder .live = s.folder .live) ∨
    (∃ e, result = .error e ∧ ReachesDatabase lib env r password backup backupPassword config ∧
      s'.folder .live = (s.folder .live).map Folder.opened) ∨
    ∃ name live staged, result = .ok name ∧ s.folder .live = some live ∧ live.database ≠ none ∧
      StagedFrom lib r password backup backupPassword staged ∧ s'.folder .live = some staged := by
  by_cases hverify : env.verifyPassword config.passwordHash password = true
  case neg =>
    rw [restoreData, Command.require_bind_error hverify] at h
    cases h
    exact .inl ⟨_, rfl, fun hreach => hverify hreach.1, rfl⟩
  rw [restoreData, Command.require_bind_ok hverify] at h
  rcases hstaged : stageHere lib r (r.folderAt backup) (secretFor password backupPassword) s with
    ⟨staging, s₁⟩
  obtain ⟨hlive₁, ⟨e, hstage, rfl⟩ | ⟨staged, hstage, rfl, hstaged₁⟩⟩ := stageHere_cases hstaged
  · rw [Command.bind_error hstaged] at h
    cases h
    refine .inl ⟨e, rfl, fun hreach => ?_, hlive₁⟩
    obtain ⟨-, ⟨staged, hok⟩, -⟩ := hreach
    rw [hstage] at hok
    cases hok
  rw [Command.bind_ok hstaged] at h
  rcases Command.ofExcept_bind_cases h with ⟨e, hparent, rfl, rfl⟩ | ⟨parent, hparent, h⟩
  · refine .inl ⟨e, rfl, fun hreach => ?_, hlive₁⟩
    obtain ⟨-, -, -, parent, hsome, -⟩ := hreach
    rw [hsome] at hparent
    cases hparent
  rw [orError_eq_ok] at hparent
  rcases hkeys : backupEncryption (storedKey env) config with e | ⟨key, encryption⟩
  · have hfail : (Command.ofExcept (backupEncryption (storedKey env) config) :
        FolderCommand (BackupKey × BackupEncryption)) s₁ = (.error e, s₁) := by rw [hkeys]; rfl
    rw [Command.bind_error (orRemoveStage_error hfail)] at h
    cases h
    refine .inl ⟨e, rfl, fun hreach => ?_, by rw [SchoolFolders.put_stage_live, hlive₁]⟩
    obtain ⟨-, -, ⟨keys, hok⟩, -⟩ := hreach
    rw [hkeys] at hok
    cases hok
  have hdone : (Command.ofExcept (backupEncryption (storedKey env) config) :
      FolderCommand (BackupKey × BackupEncryption)) s₁ = (.ok (key, encryption), s₁) := by
    rw [hkeys]
    rfl
  have hreaches : ReachesDatabase lib env r password backup backupPassword config ↔
      opensLive r config (parent ++ "/Cinder recovery archives") = true := by
    refine ⟨fun hreach => ?_, fun hopens => ?_⟩
    · obtain ⟨-, -, -, other, hother, hopens⟩ := hreach
      rw [hparent] at hother
      exact Option.some.inj hother ▸ hopens
    · exact ⟨hverify, ⟨staged, hstage⟩, ⟨_, hkeys⟩, parent, hparent, hopens⟩
  rw [Command.bind_ok (orRemoveStage_ok hdone)] at h
  dsimp only at h
  rcases hmade : createBackupHere lib r config (parent ++ "/Cinder recovery archives") key
    encryption s₁ with ⟨made, s₂⟩
  obtain ⟨hstage₂, ⟨e, rfl, hlive₂⟩ | ⟨name, live, rfl, hopens, hlive, hdatabase, hlive₂⟩⟩ :=
    createBackupHere_cases hempty hmade
  · rw [Command.bind_error (orRemoveStage_error hmade)] at h
    cases h
    rw [SchoolFolders.put_stage_live, hlive₂, hlive₁]
    split
    · next hopens => exact .inr (.inl ⟨e, rfl, hreaches.mpr hopens, rfl⟩)
    · next hnot => exact .inl ⟨e, rfl, fun hreach => hnot (hreaches.mp hreach), rfl⟩
  -- From here on the live database was there, and opening it has changed nothing.
  rw [hlive₁] at hlive
  have hsame : s₂.folder .live = (s.folder .live).map Folder.opened := by
    rw [hlive₂, hlive, Option.map_some, Folder.opened_eq.mpr hdatabase]
  rw [Command.bind_ok (orRemoveStage_ok hmade)] at h
  rcases auditAndSwap_cases hback (hstage₂.trans hstaged₁) h with
    ⟨e, rfl, hlive₃⟩ | ⟨database, hinsert, rfl, hlive₃⟩
  · exact .inr (.inl ⟨e, rfl, hreaches.mpr hopens, hlive₃.trans hsame⟩)
  · exact .inr (.inr ⟨name, live, _, rfl, hlive, hdatabase, ⟨staged, database, hstage, hinsert, rfl⟩,
      hlive₃⟩)

end Restores

section Schools
variable {Other : Type} (lib : Libraries Other) (env : Surroundings) (r : RestoreRun)
  (token password backup : String) (backupPassword : Option String)

/-- The live folder is the one that it was, or the staged one, and it is there. -/
structure AllOrNothing (s : RestoringHost) (result : Except String String) (s' : RestoringHost) :
    Prop where
  failed : ∀ e, result = .error e → s'.folders.folder .live = s.folders.folder .live
  done : ∀ name, result = .ok name → ∃ folder,
    StagedFrom lib r password backup backupPassword folder ∧ s'.folders.folder .live = some folder
  present : (s.folders.folder .live).isSome = true → (s'.folders.folder .live).isSome = true

def HasDatabase (s : RestoringHost) : Prop :=
  ∀ live config, s.folders.folder .live = some live → env.fails .hostDir = none →
    (enterMaintenance env token s.host).1 = .ok config →
      ReachesDatabase lib env r password backup backupPassword config → live.database ≠ none

variable {lib env r token password backup backupPassword}

theorem onAdmin_run {α : Type} (p : AdminCommand α) (s : RestoringHost) :
    onAdmin p s = ((p s.host).1, { s with host := (p s.host).2 }) := rfl

theorem onFolders_run {α : Type} (p : FolderCommand α) (s : RestoringHost) :
    onFolders p s = ((p s.folders).1, { s with folders := (p s.folders).2 }) := rfl

theorem restoreSchool_cases {s s' : RestoringHost} {result : Except String String}
    (h : restoreSchool lib env r token password backup backupPassword s = (result, s')) :
    (∃ e, result = .error e ∧ s'.folders = s.folders ∧
      ∀ config, env.fails .hostDir = none → (enterMaintenance env token s.host).1 ≠ .ok config) ∨
    ∃ config, env.fails .hostDir = none ∧ (enterMaintenance env token s.host).1 = .ok config ∧
      restoreData lib env r password backup backupPassword config s.folders =
        (result, s'.folders) := by
  cases hdir : env.fails .hostDir with
  | some e =>
    have hstop : onAdmin (env.inner .hostDir) s = (.error e, s) := by
      rw [onAdmin_run, Surroundings.inner, hdir]
      rfl
    rw [restoreSchool, Command.bind_error hstop] at h
    cases h
    exact .inl ⟨e, rfl, rfl, fun _ hnone => (by cases hnone)⟩
  | none =>
    have hpass : onAdmin (env.inner .hostDir) s = (.ok (), s) := by
      rw [onAdmin_run, Surroundings.inner, hdir]
      rfl
    rw [restoreSchool, Command.bind_ok hpass] at h
    rcases henter : enterMaintenance env token s.host with ⟨e | config, host⟩
    · have hrun : onAdmin (enterMaintenance env token) s = (.error e, { s with host }) := by
        rw [onAdmin_run, henter]
      rw [Command.bind_error hrun] at h
      cases h
      exact .inl ⟨e, rfl, rfl, fun _ _ hok => (by cases hok)⟩
    · have hrun : onAdmin (enterMaintenance env token) s = (.ok config, { s with host }) := by
        rw [onAdmin_run, henter]
      rw [Command.bind_ok hrun, Command.outcome_bind_run, onFolders_run] at h
      have hend : ∀ t : RestoringHost, onAdmin (endMaintenance env) t =
          (.ok (), { t with host := (endMaintenance env t.host).2 }) := fun t => by
        rw [onAdmin_run, endMaintenance]
        split <;> rfl
      rw [Command.bind_ok (hend _)] at h
      refine .inr ⟨config, rfl, rfl, ?_⟩
      rcases hdata : restoreData lib env r password backup backupPassword config s.folders with
        ⟨_ | _, folders⟩ <;> simp only [hdata] at h <;> cases h <;> rfl

/-- A restore whose rollback can be trusted is all or nothing if and only if it does not
open a database that is not there. -/
theorem restore_all_or_nothing_iff (lib : Libraries Other) (env : Surroundings) (r : RestoreRun)
    (token password backup : String) (backupPassword : Option String) (s : RestoringHost)
    (hback : r.fails .renameBack = none) (hempty : EmptyUnreadable lib) :
    AllOrNothing lib r password backup backupPassword s
        (restoreSchool lib env r token password backup backupPassword s).1
        (restoreSchool lib env r token password backup backupPassword s).2 ↔
      HasDatabase lib env r token password backup backupPassword s := by
  rcases hrun : restoreSchool lib env r token password backup backupPassword s with ⟨result, s'⟩
  dsimp only
  rcases restoreSchool_cases hrun with ⟨e, rfl, hsame, hstops⟩ | ⟨config, hdir, henter, hdata⟩
  · refine iff_of_true ⟨fun _ _ => by rw [hsame], fun _ hok => (by cases hok), by rw [hsame]; exact id⟩ ?_
    exact fun live config _ hdir henter => absurd henter (hstops config hdir)
  have hconfig : ∀ other, (enterMaintenance env token s.host).1 = .ok other → other = config :=
    fun other hother => Except.ok.inj (hother.symm.trans henter)
  rcases restoreData_cases hback hempty hdata with
    ⟨e, rfl, hnot, hsame⟩ | ⟨e, rfl, hreach, hopened⟩ |
    ⟨name, live, staged, rfl, hlive, hdatabase, hfrom, hinstalled⟩
  · refine iff_of_true ⟨fun _ _ => hsame, fun _ hok => (by cases hok), by rw [hsame]; exact id⟩ ?_
    exact fun live other _ _ hother hreach => absurd (hconfig other hother ▸ hreach) hnot
  · constructor
    · intro h live other hlive _ _ _
      have hkept := h.failed e rfl
      rw [hopened, hlive, Option.map_some, Option.some.injEq] at hkept
      exact Folder.opened_eq.mp hkept
    · intro h
      have hkept : s'.folders.folder .live = s.folders.folder .live := by
        rw [hopened]
        cases hlive : s.folders.folder .live with
        | none => rfl
        | some live =>
          rw [Option.map_some, Folder.opened_eq.mpr (h live config hlive hdir henter hreach)]
      exact ⟨fun _ _ => hkept, fun _ hok => (by cases hok), by rw [hkept]; exact id⟩
  · refine iff_of_true ⟨fun _ he => (by cases he), fun _ _ => ⟨staged, hfrom, hinstalled⟩,
      fun _ => by rw [hinstalled]; rfl⟩ ?_
    intro other _ hother _ _ _
    obtain rfl := Option.some.inj (hlive.symm.trans hother)
    exact hdatabase

end Schools

/-! A backup from before there were encrypted ones, on a Host whose database is there,
and on one whose database is not. -/

def plainBackup : Folder :=
  let manifest : BackupManifest := ⟨asU64 1, "Test School", "2026-01-01T00:00:00+00:00",
    "cinder.db", "files", asU64 1, asU64 1, asU64 1, none, none⟩
  ⟨some (some manifest.json), some [1], sampleLive.blobs⟩

def restoreEnv : Surroundings where
  fails _ := none
  now _ := 0
  passwordHash := ""
  recoveryHash := ""
  newKey := sampleKey
  nextRecovery := ""
  storedSecret := some sampleKey.1
  verifyPassword _ secret := secret = "host-pass"
  unwrap := sampleLibraries.unwrap
  wrap _ secret := ⟨secret, "", ""⟩
  isAbsolute _ := true
  isDir _ := true
  canonicalize path := [path]

def sampleRestore : RestoreRun where
  run := sampleRun
  fails _ := none
  folderAt _ := plainBackup
  parent _ := some ""
  auditedAt := "2026-01-02T00:00:00+00:00"
  makesDatabase := false
  leftStage := none
  leftRollback := none

def restoringHost (live : Folder) : RestoringHost where
  host := ⟨some sampleConfig, some ⟨"token", 0⟩, false, false, some sampleConfig⟩
  folders := ⟨fun place => if place = .live then some live else none, []⟩

theorem sampleLibraries_emptyUnreadable : EmptyUnreadable sampleLibraries := by
  intro copy hcopy
  obtain rfl := Except.ok.inj hcopy
  exact ⟨_, rfl⟩

theorem restore_all_or_nothing_iff_sample :
    AllOrNothing sampleLibraries sampleRestore "host-pass" "/usb/backup" none
      (restoringHost sampleLive)
      (restoreSchool sampleLibraries restoreEnv sampleRestore "token" "host-pass" "/usb/backup" none
        (restoringHost sampleLive)).1
      (restoreSchool sampleLibraries restoreEnv sampleRestore "token" "host-pass" "/usb/backup" none
        (restoringHost sampleLive)).2 := by
  refine (restore_all_or_nothing_iff sampleLibraries restoreEnv sampleRestore "token" "host-pass"
    "/usb/backup" none (restoringHost sampleLive) rfl sampleLibraries_emptyUnreadable).mpr ?_
  intro live _ hlive _ _ _ hnone
  obtain rfl := Option.some.inj hlive
  cases hnone

/-- The safety backup makes an empty `cinder.db` and fails on it. -/
theorem failed_restore_makes_database :
    ¬AllOrNothing sampleLibraries sampleRestore "host-pass" "/usb/backup" none
      (restoringHost ⟨none, none, []⟩)
      (restoreSchool sampleLibraries restoreEnv sampleRestore "token" "host-pass" "/usb/backup" none
        (restoringHost ⟨none, none, []⟩)).1
      (restoreSchool sampleLibraries restoreEnv sampleRestore "token" "host-pass" "/usb/backup" none
        (restoringHost ⟨none, none, []⟩)).2 := by
  intro h
  obtain ⟨e, hfailed⟩ : ∃ e, (restoreSchool sampleLibraries restoreEnv sampleRestore "token"
      "host-pass" "/usb/backup" none (restoringHost ⟨none, none, []⟩)).1 = .error e := ⟨_, by rfl⟩
  have hkept := h.failed e hfailed
  exact absurd hkept (by decide)

end Cinder.Backups
