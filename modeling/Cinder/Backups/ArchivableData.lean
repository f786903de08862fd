import Cinder.Backups.RestorableBackups
set_option autoImplicit false

/-!
Which data of a school can be backed up: a whole database whose every stored file
is there with the right contents. What was backed up comes back.
-/

namespace Cinder.Backups
open Cinder.Host Cinder.HostApp Cinder.Library Cinder.Materials Cinder.Programs Cinder.Streams

/-- The most that one file may hold: 2^32 chunks, which is 256 TiB. -/
def maxPlain : Nat := chunkSize*2^32

structure BlobSound {Other : Type} (lib : Libraries Other) (live : Folder) (blob : String × U64)
    (content : Bytes) : Prop where
  valid : validSha blob.1 = true
  found : live.blob? blob.1 = some content
  hash : lib.sha256 content = blob.1
  size : asU64 content.length = blob.2
  fits : content.length ≤ maxPlain

structure Archivable {Other : Type} (lib : Libraries Other) (live : Folder) (copy : Bytes)
    (db : SchoolDatabase Other) : Prop where
  copied : lib.copyDatabase (live.database.getD []) = .ok copy
  fits : copy.length ≤ maxPlain
  whole : lib.integrityCheck copy = .ok "ok"
  read : lib.readDatabase copy = .ok db
  counted : ∃ n, countFiles db.files = .ok n
  blobs : ∃ blobs, storedBlobs db.files = .ok blobs ∧ sumSizes (blobs.map Prod.snd) < 2^64 ∧
    ∀ blob ∈ blobs, ∃ content, BlobSound lib live blob content

section Writing
variable {Other : Type} {lib : Libraries Other} {run : Run} {key : BackupKey}
  {config : HostConfig} {encryption : BackupEncryption} {live : Folder}

theorem encryptFrom_of_fits (hrun : run.Clean) (label : String) {plain : Bytes}
    (h : plain.length ≤ maxPlain) :
    ∃ file, encryptFrom lib run key label (some plain) =
      .ok (file, lib.sha256 plain, plain.length) := by
  have hfits : (sealedAs run key label plain).plain.length ≤ chunkSize*2^32 := by
    unfold maxPlain at h
    exact h
  obtain ⟨⟨file, sha, size⟩, henc⟩ : ∃ r, encryptFile lib.cipher key label lib.sha256
      (run.short 0 label) (run.pre label).1 plain = .ok r :=
    encryptFile_isOk hfits
  obtain ⟨rfl, rfl, -⟩ := encryptFile_ok (s := sealedAs run key label plain) henc
  exact ⟨file, bind_eq_ok.mpr ⟨(), hrun.step _, henc⟩⟩

theorem writeBlobs_of_sound (hrun : run.Clean) {blobs : List (String × U64)}
    (hsound : ∀ blob ∈ blobs, ∃ content, BlobSound lib live blob content)
    (written : List BlobFile × U64) (hsum : written.2.1+sumSizes (blobs.map Prod.snd) < 2^64) :
    ∃ r, blobs.foldlM (writeBlob lib run key live) written = .ok r := by
  induction blobs generalizing written with
  | nil => exact ⟨written, rfl⟩
  | cons blob blobs ih =>
    rw [List.map_cons, sumSizes_cons] at hsum
    obtain ⟨content, hblob⟩ := hsound blob List.mem_cons_self
    obtain ⟨file, henc⟩ : ∃ file, encryptFrom lib run key (labelOf (blobPath blob.1))
        (some content) = .ok (file, lib.sha256 content, content.length) :=
      encryptFrom_of_fits hrun _ hblob.fits
    have hfit : written.2.1+blob.2.1 < 2^64 := by omega
    have hstep : writeBlob lib run key live written blob =
        .ok (putBlob written.1 (blobPath blob.1) file, ⟨_, hfit⟩) := by
      refine bind_eq_ok.mpr ⟨(), validateSha_eq_ok.mpr hblob.valid, bind_eq_ok.mpr ⟨(),
        hrun.step _, bind_eq_ok.mpr ⟨(file, lib.sha256 content, content.length), ?_,
        bind_eq_ok.mpr ⟨(), ensure_eq_ok.mpr ?_,
        bind_eq_ok.mpr ⟨⟨_, hfit⟩, orError_eq_ok.mpr (checkedAdd_eq_some.mpr ?_), rfl⟩⟩⟩⟩⟩
      · rw [hblob.found]
        exact henc
      · exact ⟨hblob.hash, hblob.size⟩
      · rw [hblob.size]
    obtain ⟨r, hr⟩ := ih (fun b hb => hsound b (List.mem_cons_of_mem _ hb))
      (putBlob written.1 (blobPath blob.1) file, ⟨_, hfit⟩) (by dsimp only; omega)
    exact ⟨r, foldlM_cons_eq_ok.mpr ⟨_, hstep, hr⟩⟩

theorem writeEncryptedBackup_of_archivable (hlib : lib.Lawful) (hrun : run.Clean) {copy : Bytes}
    {db : SchoolDatabase Other} (h : Archivable lib live copy db) :
    ∃ folder, writeEncryptedBackup lib run config live key encryption = .ok folder := by
  obtain ⟨n, hcount⟩ := h.counted
  obtain ⟨blobs, hblobs, hsum, hsound⟩ := h.blobs
  obtain ⟨database, henc⟩ : ∃ file, encryptFrom lib run key "cinder.db" (some copy) =
      .ok (file, lib.sha256 copy, copy.length) := encryptFrom_of_fits hrun _ h.fits
  obtain ⟨⟨files, total⟩, hwritten⟩ : ∃ r, blobs.foldlM (writeBlob lib run key live)
      ([], ⟨0, u64_pos⟩) = .ok r :=
    writeBlobs_of_sound hrun hsound ([], ⟨0, u64_pos⟩)
      ((Nat.zero_add _).trans_lt hsum)
  have hsnapshot : snapshot lib run live = .ok (copy, db) :=
    bind_eq_ok.mpr ⟨(), hrun.step _, bind_eq_ok.mpr ⟨(), hrun.step _, bind_eq_ok.mpr ⟨copy,
      h.copied, bind_eq_ok.mpr ⟨(), hrun.step _, bind_eq_ok.mpr ⟨"ok", h.whole,
      bind_eq_ok.mpr ⟨(), ensure_eq_ok.mpr rfl, bind_eq_ok.mpr ⟨db, h.read, rfl⟩⟩⟩⟩⟩⟩⟩
  have hdatabase : Encrypts lib run key "cinder.db" copy database := by
    obtain ⟨plain, hplain, -, -, hwr⟩ := encryptFrom_eq_ok henc
    obtain rfl := Option.some.inj hplain
    exact hwr
  have hnodup : (blobs.map Prod.fst).Nodup := by
    rw [storedBlobs_digests hblobs]
    exact nodup_digests _
  obtain ⟨files', hstored, hfiles, htotal⟩ :=
    writeBlobs_eq_ok hnodup (fun _ _ b hb => absurd hb List.not_mem_nil) hwritten
  rw [List.nil_append] at hfiles
  subst hfiles
  have hfinished : Finished lib run config live key encryption
      ⟨some (some (manifestOf lib run config encryption copy blobs n total).json), some database,
        files⟩ copy db blobs n total :=
    ⟨h.copied, h.whole, h.read, hcount, hblobs, ⟨database, rfl, hdatabase⟩, hstored,
      htotal.trans (Nat.zero_add _), rfl⟩
  exact ⟨_, bind_eq_ok.mpr ⟨_, hsnapshot, bind_eq_ok.mpr ⟨n, hcount, bind_eq_ok.mpr ⟨blobs, hblobs,
    bind_eq_ok.mpr ⟨_, henc, bind_eq_ok.mpr ⟨_, hwritten, bind_eq_ok.mpr ⟨(), hrun.step _,
    bind_eq_ok.mpr ⟨(), hrun.step _, bind_eq_ok.mpr ⟨(), verifyEncrypted_finished hlib hrun
      hfinished, rfl⟩⟩⟩⟩⟩⟩⟩⟩⟩

theorem createBackup_of_archivable (hlib : lib.Lawful) (hrun : run.Clean) {parent : String}
    (houtside : ¬ run.canonicalize config.dataDir <+: run.canonicalize parent) {copy : Bytes}
    {db : SchoolDatabase Other} (h : Archivable lib live copy db) :
    ∃ folder, createBackup lib run config parent live key encryption = .ok (run.name, folder) := by
  obtain ⟨folder, hfolder⟩ : ∃ folder,
      writeEncryptedBackup lib run config live key encryption = .ok folder :=
    writeEncryptedBackup_of_archivable hlib hrun h
  exact ⟨folder, bind_eq_ok.mpr ⟨(), hrun.step _, bind_eq_ok.mpr ⟨(), hrun.step _, bind_eq_ok.mpr
    ⟨(), hrun.step _, bind_eq_ok.mpr ⟨(), ensure_eq_ok.mpr houtside, bind_eq_ok.mpr ⟨(),
    hrun.step _, bind_eq_ok.mpr ⟨folder, hfolder, rfl⟩⟩⟩⟩⟩⟩⟩

end Writing

/-- What was backed up without an error comes back with any secret that opens a
locked copy of the key. -/
theorem finished_backup_is_restorable {Other : Type} {lib : Libraries Other} (hlib : lib.Lawful)
    {run run' : Run} (hrun : run'.Clean) {stored : Except String (Option BackupKey)}
    {config : HostConfig} {key : BackupKey} {encryption : BackupEncryption}
    (hkey : backupEncryption stored config = .ok (key, encryption))
    (hlocks : Locks lib.unwrap key [config.backupPasswordWrap, config.backupRecoveryWrap])
    {parent name : String} {live folder : Folder}
    (hsame : ∀ copy db, lib.copyDatabase (live.database.getD []) = .ok copy →
      lib.readDatabase copy = .ok db → SameSizes db.files)
    (hcreate : createBackup lib run config parent live key encryption = .ok (name, folder))
    {wrap : KeyWrap} {secret : String}
    (hwrap : some wrap ∈ [config.backupPasswordWrap, config.backupRecoveryWrap])
    (hsecret : lib.unwrap wrap secret ≠ none) :
    ∃ copy db staged, lib.copyDatabase (live.database.getD []) = .ok copy ∧
      lib.readDatabase copy = .ok db ∧ stageBackup lib run' folder secret = .ok staged ∧
      Staged lib live db staged := by
  obtain ⟨copy, db, blobs, fileCount, total, hfinished⟩ := createBackup_eq_ok hcreate
  obtain ⟨-, rfl⟩ := backupEncryption_eq_ok hkey
  obtain ⟨staged, hstage, hstaged⟩ := stageBackup_finished hlib hrun hfinished rfl
    (hsame copy db hfinished.copied hfinished.read) (unlock_eq_key hlocks hwrap hsecret)
  exact ⟨copy, db, staged, hfinished.copied, hfinished.read, hstage, hstaged⟩

def sampleSha : String := "aaaaaaaaaaaaaaaaaaaaaaaaaaaaaaaaaaaaaaaaaaaaaaaaaaaaaaaaaaaaaaaa"

def sampleKey : BackupKey := ⟨List.replicate 32 0, rfl⟩

def sampleSchool : SchoolDatabase Unit where
  lib := { files := ⟨[⟨1, sampleSha, "file.pdf", 1, "application/pdf", 0⟩], by simp⟩ }
  settings := []
  operatorAudit := []
  other := ()

def sampleLibraries : Libraries Unit where
  cipher := ⟨fun _ m => m ++ List.replicate 16 0, fun _ c => some (c.take (c.length-16))⟩
  sha256 content := if content = [7] then sampleSha else "another file"
  unwrap wrap secret := if secret = wrap.salt then some sampleKey else none
  readDatabase file := if file = [1] then .ok sampleSchool
    else if file = [2] then .ok sampleSchool.withoutSessions else .error "file is not a database"
  integrityCheck _ := .ok "ok"
  copyDatabase file := .ok file
  deleteSessions _ := .ok [2]
  insertAudit _ file := .ok file

def sampleRun : Run where
  fails _ := none
  ioError := ""
  now := "2026-01-01T00:00:00+00:00"
  name := "/backups/cinder-backup-20260101-000000-abcdef"
  canonicalize path := [path]
  pre _ := ⟨List.replicate 7 0, rfl⟩
  short _ _ _ := 1000
  order _ files := files

def sampleConfig : HostConfig :=
  ⟨"/school", "Test School", "0.0.0.0", 7373, "hash", "hash", some ⟨"host-pass", "", ""⟩, none, none⟩

def sampleLive : Folder := ⟨none, some [1], [⟨blobPath sampleSha, [7]⟩]⟩

theorem sampleLibraries_lawful : sampleLibraries.Lawful where
  opens := ⟨fun p m _ => by simp [sampleLibraries], fun p m => by simp [sampleLibraries, tagSize]⟩
  read_deleteSessions file db h := by
    refine ⟨[2], rfl, ?_⟩
    simp only [sampleLibraries] at h
    split at h
    · obtain rfl := Except.ok.inj h
      rfl
    · split at h
      · obtain rfl := Except.ok.inj h
        rfl
      · cases h

theorem sampleRun_clean : sampleRun.Clean := ⟨fun _ => rfl, fun _ _ => .refl _⟩

theorem sampleLive_archivable : Archivable sampleLibraries sampleLive [1] sampleSchool where
  copied := rfl
  fits := by decide
  whole := rfl
  read := rfl
  counted := ⟨⟨1, by decide⟩, rfl⟩
  blobs := by
    refine ⟨[(sampleSha, ⟨1, by decide⟩)], rfl, by decide, fun blob hblob => ?_⟩
    obtain rfl := List.mem_singleton.mp hblob
    exact ⟨[7], by decide, by decide, by decide, by decide, by decide⟩

def sampleEncryption : BackupEncryption := ⟨cipherName, sampleConfig.backupPasswordWrap, none⟩

theorem sampleLocks : Locks sampleLibraries.unwrap sampleKey
    [sampleConfig.backupPasswordWrap, sampleConfig.backupRecoveryWrap] := by
  intro wrap hwrap secret k hk
  simp only [sampleLibraries] at hk
  split at hk
  · exact (Option.some.inj hk).symm
  · cases hk

theorem sampleSchool_sameSizes : SameSizes sampleSchool.files := by
  intro f hf g hg _
  rw [List.mem_singleton.mp hf, List.mem_singleton.mp hg]

theorem finished_backup_is_restorable_sample :
    ∃ folder staged, createBackup sampleLibraries sampleRun sampleConfig "/backups" sampleLive
        sampleKey sampleEncryption = .ok (sampleRun.name, folder) ∧
      stageBackup sampleLibraries sampleRun folder "host-pass" = .ok staged ∧
      Staged sampleLibraries sampleLive sampleSchool staged := by
  obtain ⟨folder, hcreate⟩ : ∃ folder, createBackup sampleLibraries sampleRun sampleConfig "/backups"
      sampleLive sampleKey sampleEncryption = .ok (sampleRun.name, folder) :=
    createBackup_of_archivable sampleLibraries_lawful sampleRun_clean (by decide)
      sampleLive_archivable
  have hkey : backupEncryption (.ok (some sampleKey)) sampleConfig =
      .ok (sampleKey, sampleEncryption) := rfl
  have hsame : ∀ copy db, sampleLibraries.copyDatabase (sampleLive.database.getD []) = .ok copy →
      sampleLibraries.readDatabase copy = .ok db → SameSizes db.files := by
    intro copy db hcopy hread
    obtain rfl := Except.ok.inj hcopy
    obtain rfl := Except.ok.inj hread
    exact sampleSchool_sameSizes
  have hsecret : sampleLibraries.unwrap ⟨"host-pass", "", ""⟩ "host-pass" ≠ none := by decide
  obtain ⟨copy, db, staged, hcopy, hread, hstage, hstaged⟩ :=
    finished_backup_is_restorable sampleLibraries_lawful sampleRun_clean hkey sampleLocks hsame
      hcreate List.mem_cons_self hsecret
  obtain rfl := Except.ok.inj hcopy
  obtain rfl := Except.ok.inj hread
  exact ⟨folder, staged, hcreate, hstage, hstaged⟩

end Cinder.Backups
