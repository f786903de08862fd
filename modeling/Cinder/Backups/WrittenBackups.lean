import Cinder.Backups.BackupStaging
import Cinder.Backups.SealedFiles
import Cinder.Programs.CheckedLists
import Mathlib.Data.List.Dedup
set_option autoImplicit false

/-!
What a backup that was made without an error holds: the copy of the database and
every stored file, each sealed under the key, with the counts of the manifest.
-/

namespace Cinder.Backups
open Cinder.Host Cinder.HostApp Cinder.Library Cinder.Materials Cinder.Programs Cinder.Streams

theorem validateSha_eq_ok {sha : String} {u : Unit} :
    validateSha sha = .ok u ↔ validSha sha = true := ensure_eq_ok

def sumSizes (sizes : List U64) : Nat := (sizes.map Subtype.val).sum

theorem sumSizes_cons (size : U64) (sizes : List U64) :
    sumSizes (size :: sizes) = size.1+sumSizes sizes := by
  rw [sumSizes, List.map_cons, List.sum_cons, sumSizes]

theorem foldlM_total {α : Type} {step : U64 → α → Except String U64} {xs : List α}
    {sizes : List U64} (h : List.Forall₂ (fun x size => ∀ t r, checkedAdd t size = some r →
      step t x = .ok r) xs sizes) {t r : U64} (hsum : r.1 = t.1+sumSizes sizes) :
    xs.foldlM step t = .ok r := by
  induction h generalizing t with
  | nil =>
    obtain rfl : r = t := Subtype.ext hsum
    rfl
  | @cons x size xs sizes hx _ ih =>
    rw [sumSizes_cons] at hsum
    have hfit : t.1+size.1 < 2^64 := by
      have hr := r.2
      omega
    rw [foldlM_cons_eq_ok]
    exact ⟨⟨_, hfit⟩, hx t _ (checkedAdd_eq_some.mpr rfl), ih (by rw [hsum, Nat.add_assoc])⟩

section Written
variable {Other : Type} {lib : Libraries Other} {run : Run} {key : BackupKey}

def sealedAs (run : Run) (key : BackupKey) (label : String) (plain : Bytes) :
    SealedFile BackupKey :=
  ⟨key, (run.pre label).1, label, plain⟩

/-- The file is what `encrypt_file` writes. -/
def Encrypts (lib : Libraries Other) (run : Run) (key : BackupKey) (label : String)
    (plain file : Bytes) : Prop :=
  ∃ cs, Written lib.cipher (sealedAs run key label plain) file cs

theorem encryptFrom_eq_ok {label : String} {source : Option Bytes} {file : Bytes} {sha : String}
    {size : Nat} (h : encryptFrom lib run key label source = .ok (file, sha, size)) :
    ∃ plain, source = some plain ∧ sha = lib.sha256 plain ∧ size = plain.length ∧
      Encrypts lib run key label plain file := by
  obtain ⟨_, -, h⟩ := bind_eq_ok.mp h
  obtain ⟨plain, hplain, h⟩ := bind_eq_ok.mp h
  obtain ⟨hsha, hsize, hwritten⟩ := encryptFile_ok (s := sealedAs run key label plain) h
  exact ⟨plain, orError_eq_ok.mp hplain, hsha, hsize, hwritten⟩

structure StoredIn (lib : Libraries Other) (run : Run) (key : BackupKey) (live : Folder)
    (blob : String × U64) (file : BlobFile) (content : Bytes) : Prop where
  valid : validSha blob.1 = true
  path : file.path = blobPath blob.1
  found : live.blob? blob.1 = some content
  hash : lib.sha256 content = blob.1
  size : asU64 content.length = blob.2
  encrypted : Encrypts lib run key (labelOf file.path) content file.content

def Stored (lib : Libraries Other) (run : Run) (key : BackupKey) (live : Folder)
    (blob : String × U64) (file : BlobFile) : Prop :=
  ∃ content, StoredIn lib run key live blob file content

theorem putBlob_of_new {blobs : List BlobFile} {path : BlobPath} (content : Bytes)
    (h : ∀ b ∈ blobs, b.path ≠ path) : putBlob blobs path content = blobs ++ [⟨path, content⟩] := by
  rw [putBlob, List.filter_eq_self.mpr fun b hb => decide_eq_true (h b hb)]

variable {live : Folder}

theorem writeBlob_eq_ok {written r : List BlobFile × U64} {blob : String × U64}
    (hnew : ∀ b ∈ written.1, b.path ≠ blobPath blob.1)
    (h : writeBlob lib run key live written blob = .ok r) :
    ∃ file, Stored lib run key live blob file ∧ r.1 = written.1 ++ [file] ∧
      r.2.1 = written.2.1+blob.2.1 := by
  obtain ⟨_, hvalid, h⟩ := bind_eq_ok.mp h
  obtain ⟨_, -, h⟩ := bind_eq_ok.mp h
  obtain ⟨⟨content, actual, size⟩, henc, h⟩ := bind_eq_ok.mp h
  obtain ⟨_, hcheck, h⟩ := bind_eq_ok.mp h
  obtain ⟨total, htotal, h⟩ := bind_eq_ok.mp h
  obtain ⟨plain, hfound, hsha, hsize, hwritten⟩ := encryptFrom_eq_ok henc
  obtain ⟨hactual, hbytes⟩ := ensure_eq_ok.mp hcheck
  have hsum := checkedAdd_eq_some.mp (orError_eq_ok.mp htotal)
  obtain rfl := Except.ok.inj h
  refine ⟨⟨blobPath blob.1, content⟩, ⟨plain, validateSha_eq_ok.mp hvalid, rfl, hfound,
    hsha.symm.trans hactual, by rw [← hsize]; exact hbytes, hwritten⟩,
    putBlob_of_new content hnew, ?_⟩
  rw [← hbytes]
  exact hsum

theorem writeBlobs_eq_ok {blobs : List (String × U64)} (hnodup : (blobs.map Prod.fst).Nodup)
    {written r : List BlobFile × U64}
    (hnew : ∀ blob ∈ blobs, ∀ b ∈ written.1, b.path ≠ blobPath blob.1)
    (h : blobs.foldlM (writeBlob lib run key live) written = .ok r) :
    ∃ files, List.Forall₂ (Stored lib run key live) blobs files ∧ r.1 = written.1 ++ files ∧
      r.2.1 = written.2.1+sumSizes (blobs.map Prod.snd) := by
  induction blobs generalizing written with
  | nil =>
    obtain rfl := Except.ok.inj h
    exact ⟨[], .nil, (List.append_nil _).symm, rfl⟩
  | cons blob blobs ih =>
    obtain ⟨hfresh, hnodup⟩ := List.nodup_cons.mp hnodup
    obtain ⟨next, hstep, h⟩ := foldlM_cons_eq_ok.mp h
    obtain ⟨file, hstored, hfiles, htotal⟩ := writeBlob_eq_ok (hnew blob List.mem_cons_self) hstep
    obtain ⟨files, hall, hr, hsum⟩ := ih hnodup (fun blob' hblob' b hb => by
      rw [hfiles] at hb
      rcases List.mem_append.mp hb with hb | hb
      · exact hnew blob' (List.mem_cons_of_mem _ hblob') b hb
      · obtain rfl := List.mem_singleton.mp hb
        obtain ⟨content, hin⟩ := hstored
        rw [hin.path]
        intro hpath
        exact hfresh (List.mem_map.mpr ⟨blob', hblob', (blobPath_injective hpath).symm⟩)) h
    refine ⟨file :: files, .cons hstored hall, ?_, ?_⟩
    · rw [hr, hfiles, List.append_assoc]
      rfl
    · rw [hsum, htotal, List.map_cons, sumSizes_cons, Nat.add_assoc]

theorem storedBlobs_digests {files : List FileRow} {blobs : List (String × U64)}
    (h : storedBlobs files = .ok blobs) : blobs.map Prod.fst = digests files := by
  have hall := mapM_eq_ok.mp h
  clear h
  generalize digests files = shas at hall
  induction hall with
  | nil => rfl
  | cons hx _ ih =>
    obtain ⟨bytes, -, hpure⟩ := bind_eq_ok.mp hx
    obtain rfl := Except.ok.inj hpure
    rw [List.map_cons, ih]

theorem nodup_digests (files : List FileRow) : (digests files).Nodup := List.nodup_dedup _

theorem mem_digests {files : List FileRow} {sha : String} :
    sha ∈ digests files ↔ ∃ f ∈ files, f.sha256 = sha := by
  rw [digests, List.mem_dedup, List.mem_map]

/-- A backup that was finished: what is in the folder and in its manifest. -/
structure Finished (lib : Libraries Other) (run : Run) (config : HostConfig) (live : Folder)
    (key : BackupKey) (encryption : BackupEncryption) (folder : Folder) (copy : Bytes)
    (db : SchoolDatabase Other) (blobs : List (String × U64)) (fileCount total : U64) : Prop where
  copied : lib.copyDatabase (live.database.getD []) = .ok copy
  whole : lib.integrityCheck copy = .ok "ok"
  read : lib.readDatabase copy = .ok db
  counted : countFiles db.files = .ok fileCount
  listed : storedBlobs db.files = .ok blobs
  database : ∃ file, folder.database = some file ∧ Encrypts lib run key "cinder.db" copy file
  stored : List.Forall₂ (Stored lib run key live) blobs folder.blobs
  total_eq : total.1 = sumSizes (blobs.map Prod.snd)
  manifest : folder.manifest = some (some (newManifest run config.schoolName
    (lib.sha256 copy) fileCount total blobs.length encryption).json)

theorem snapshot_eq_ok {copy : Bytes} {db : SchoolDatabase Other}
    (h : snapshot lib run live = .ok (copy, db)) :
    lib.copyDatabase (live.database.getD []) = .ok copy ∧ lib.integrityCheck copy = .ok "ok" ∧
      lib.readDatabase copy = .ok db := by
  obtain ⟨_, -, h⟩ := bind_eq_ok.mp h
  obtain ⟨_, -, h⟩ := bind_eq_ok.mp h
  obtain ⟨copy', hcopy, h⟩ := bind_eq_ok.mp h
  obtain ⟨_, -, h⟩ := bind_eq_ok.mp h
  obtain ⟨check, hcheck, h⟩ := bind_eq_ok.mp h
  obtain ⟨_, hok, h⟩ := bind_eq_ok.mp h
  obtain ⟨db', hread, h⟩ := bind_eq_ok.mp h
  obtain ⟨rfl, rfl⟩ := Prod.mk.inj (Except.ok.inj h)
  rw [ensure_eq_ok.mp hok] at hcheck
  exact ⟨hcopy, hcheck, hread⟩

theorem writeEncryptedBackup_eq_ok {config : HostConfig} {encryption : BackupEncryption}
    {folder : Folder} (h : writeEncryptedBackup lib run config live key encryption = .ok folder) :
    ∃ copy db blobs fileCount total,
      Finished lib run config live key encryption folder copy db blobs fileCount total := by
  obtain ⟨⟨copy, db⟩, hsnapshot, h⟩ := bind_eq_ok.mp h
  obtain ⟨fileCount, hcount, h⟩ := bind_eq_ok.mp h
  obtain ⟨blobs, hblobs, h⟩ := bind_eq_ok.mp h
  obtain ⟨⟨database, sha, _⟩, henc, h⟩ := bind_eq_ok.mp h
  obtain ⟨⟨written, total⟩, hwritten, h⟩ := bind_eq_ok.mp h
  obtain ⟨_, -, h⟩ := bind_eq_ok.mp h
  obtain ⟨_, -, h⟩ := bind_eq_ok.mp h
  obtain ⟨_, -, h⟩ := bind_eq_ok.mp h
  obtain rfl := Except.ok.inj h
  obtain ⟨hcopied, hwhole, hread⟩ := snapshot_eq_ok hsnapshot
  obtain ⟨plain, hplain, rfl, -, hdatabase⟩ := encryptFrom_eq_ok henc
  obtain rfl := Option.some.inj hplain
  have hnodup : (blobs.map Prod.fst).Nodup := by
    rw [storedBlobs_digests hblobs]
    exact nodup_digests _
  obtain ⟨files, hstored, hfiles, htotal⟩ :=
    writeBlobs_eq_ok hnodup (fun _ _ b hb => absurd hb List.not_mem_nil) hwritten
  rw [List.nil_append] at hfiles
  subst hfiles
  exact ⟨copy, db, blobs, fileCount, total, hcopied, hwhole, hread, hcount, hblobs,
    ⟨database, rfl, hdatabase⟩, hstored, htotal.trans (Nat.zero_add _), rfl⟩

theorem createBackup_eq_ok {config : HostConfig} {encryption : BackupEncryption} {parent name : String}
    {folder : Folder} (h : createBackup lib run config parent live key encryption = .ok (name, folder)) :
    ∃ copy db blobs fileCount total,
      Finished lib run config live key encryption folder copy db blobs fileCount total := by
  obtain ⟨_, -, h⟩ := bind_eq_ok.mp h
  obtain ⟨_, -, h⟩ := bind_eq_ok.mp h
  obtain ⟨_, -, h⟩ := bind_eq_ok.mp h
  obtain ⟨_, -, h⟩ := bind_eq_ok.mp h
  obtain ⟨_, -, h⟩ := bind_eq_ok.mp h
  obtain ⟨folder', hwritten, h⟩ := bind_eq_ok.mp h
  obtain ⟨-, rfl⟩ := Prod.mk.inj (Except.ok.inj h)
  exact writeEncryptedBackup_eq_ok hwritten

end Written

end Cinder.Backups
