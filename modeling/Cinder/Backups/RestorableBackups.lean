import Cinder.Backups.WrittenBackups
import Mathlib.Algebra.BigOperators.Group.List.Basic
import Mathlib.Data.List.Perm.Basic
set_option autoImplicit false

namespace Cinder.Backups
open Cinder.Host Cinder.HostApp Cinder.Library Cinder.Materials Cinder.Programs Cinder.Streams

structure Libraries.Lawful {Other : Type} (lib : Libraries Other) : Prop where
  opens : Opens lib.cipher tagSize fun _ _ => True
  read_deleteSessions : ∀ file db, lib.readDatabase file = .ok db → ∃ file',
    lib.deleteSessions file = .ok file' ∧ lib.readDatabase file' = .ok db.withoutSessions

structure Run.Clean (run : Run) : Prop where
  fine : ∀ step, run.fails step = none
  listed : ∀ time files, (run.order time files).Perm files

def Locks (unwrap : KeyWrap → String → Option BackupKey) (key : BackupKey)
    (wraps : List (Option KeyWrap)) : Prop :=
  ∀ wrap, some wrap ∈ wraps → ∀ secret k, unwrap wrap secret = some k → k = key

section ReadingBack
variable {Other : Type} {lib : Libraries Other} {run run' : Run} {key : BackupKey}
  {live folder : Folder}

theorem Run.Clean.step (h : run.Clean) (step : BackupStep) : run.step step = .ok () :=
  Run.step_eq_ok.mpr (h.fine step)

theorem Encrypts.decryptFile (hlib : lib.Lawful) {label : String} {plain file : Bytes}
    (h : Encrypts lib run key label plain file) (short : Nat → Nat) :
    Backups.decryptFile lib.cipher key label short file = .ok plain := by
  obtain ⟨cs, hw⟩ := h
  exact decryptFile_written hlib.opens (fun _ _ _ => trivial) (run.pre label).2 hw short

theorem decryptFrom_encrypted (hlib : lib.Lawful) (hrun : run'.Clean) {label : String}
    {plain file : Bytes} (h : Encrypts lib run key label plain file) :
    decryptFrom lib run' key label (some file) = .ok plain :=
  bind_eq_ok.mpr ⟨(), hrun.step _, h.decryptFile hlib _⟩

theorem decryptedShaOf_encrypted (hlib : lib.Lawful) (hrun : run'.Clean) (time : Nat)
    {label : String} {plain file : Bytes} (h : Encrypts lib run key label plain file) :
    decryptedShaOf lib run' time key label (some file) = .ok (lib.sha256 plain, plain.length) := by
  refine bind_eq_ok.mpr ⟨(), ensure_eq_ok.mpr (by rw [hrun.fine]; rfl), ?_⟩
  show decryptedSha lib.cipher key label lib.sha256 _ file = _
  rw [decryptedSha_eq, h.decryptFile hlib]
  rfl

structure PlainOf (lib : Libraries Other) (live : Folder) (blob : String × U64) (file : BlobFile) :
    Prop where
  valid : validSha blob.1 = true
  path : file.path = blobPath blob.1
  found : live.blob? blob.1 = some file.content
  hash : lib.sha256 file.content = blob.1
  size : asU64 file.content.length = blob.2

structure OpensTo (lib : Libraries Other) (run : Run) (key : BackupKey) (file plain : BlobFile) :
    Prop where
  path : plain.path = file.path
  valid : ∃ sha, validSha sha = true ∧ file.path = blobPath sha ∧ lib.sha256 plain.content = sha
  encrypted : Encrypts lib run key (labelOf file.path) plain.content file.content

theorem stored_plains {blobs : List (String × U64)} {files : List BlobFile}
    (h : List.Forall₂ (Stored lib run key live) blobs files) :
    ∃ plains, List.Forall₂ (PlainOf lib live) blobs plains ∧
      List.Forall₂ (OpensTo lib run key) files plains := by
  induction h with
  | nil => exact ⟨[], .nil, .nil⟩
  | cons hx _ ih =>
    obtain ⟨content, hin⟩ := hx
    obtain ⟨plains, hplain, hopens⟩ := ih
    exact ⟨⟨_, content⟩ :: plains,
      .cons ⟨hin.valid, hin.path, hin.found, hin.hash, hin.size⟩ hplain,
      .cons ⟨rfl, ⟨_, hin.valid, hin.path, hin.hash⟩, hin.encrypted⟩ hopens⟩

theorem plain_sizes {blobs : List (String × U64)} {plains : List BlobFile}
    (h : List.Forall₂ (PlainOf lib live) blobs plains) :
    blobs.map Prod.snd = plains.map fun f => asU64 f.content.length := by
  induction h with
  | nil => rfl
  | cons hx _ ih => rw [List.map_cons, List.map_cons, ih, hx.size]

theorem plain_paths {blobs : List (String × U64)} {plains : List BlobFile}
    (h : List.Forall₂ (PlainOf lib live) blobs plains) :
    plains.map (·.path) = (blobs.map Prod.fst).map blobPath := by
  induction h with
  | nil => rfl
  | cons hx _ ih => rw [List.map_cons, List.map_cons, List.map_cons, ih, hx.path]

theorem labelOf_endsWith (sha : String) :
    sha.toList.isSuffixOf (labelOf (blobPath sha)).toList = true := by
  rw [List.isSuffixOf_iff_suffix, labelOf, String.toList_append]
  exact List.suffix_append _ _

theorem sumSizes_perm {sizes sizes' : List U64} (h : sizes.Perm sizes') :
    sumSizes sizes = sumSizes sizes' := (h.map _).sum_eq

theorem listed_plains (hrun : run'.Clean) (time : Nat) {files plains : List BlobFile}
    (h : List.Forall₂ (OpensTo lib run key) files plains) :
    ∃ plains', List.Forall₂ (OpensTo lib run key) (run'.order time files) plains' ∧
      plains'.Perm plains := by
  obtain ⟨plains', hplains, hperm⟩ := List.perm_comp_forall₂ (hrun.listed time files) h
  exact ⟨plains', hplains, hperm⟩

theorem backupBlobFiles_opens (hrun : run'.Clean) (time : Nat) {plains : List BlobFile}
    (h : List.Forall₂ (OpensTo lib run key) (run'.order time folder.blobs) plains) :
    backupBlobFiles run' time folder = .ok (run'.order time folder.blobs) := by
  refine bind_eq_ok.mpr ⟨(), hrun.step _, bind_eq_ok.mpr ⟨(), forM_eq_ok.mpr fun f hf => ?_, rfl⟩⟩
  generalize run'.order time folder.blobs = files at h hf
  induction h with
  | nil => cases hf
  | cons hx _ ih =>
    rcases List.mem_cons.mp hf with rfl | hf
    · obtain ⟨sha, hvalid, hpath, -⟩ := hx.valid
      rw [checkBlobFile, hpath]
      exact bind_eq_ok.mpr ⟨(), validateSha_eq_ok.mpr hvalid, ensure_eq_ok.mpr rfl⟩
    · exact ih hf

variable {config : HostConfig} {encryption : BackupEncryption} {copy : Bytes}
  {db : SchoolDatabase Other} {blobs : List (String × U64)} {fileCount total : U64}

def manifestOf (lib : Libraries Other) (run : Run) (config : HostConfig)
    (encryption : BackupEncryption) (copy : Bytes) (blobs : List (String × U64))
    (fileCount total : U64) : BackupManifest :=
  newManifest run config.schoolName (lib.sha256 copy) fileCount total blobs.length encryption

theorem verifyEncrypted_finished (hlib : lib.Lawful) (hrun : run'.Clean)
    (h : Finished lib run config live key encryption folder copy db blobs fileCount total) :
    verifyEncrypted lib run' folder
      (manifestOf lib run config encryption copy blobs fileCount total) key = .ok () := by
  obtain ⟨file, hfile, hdatabase⟩ := h.database
  obtain ⟨plains, hplains, hopens⟩ := stored_plains h.stored
  obtain ⟨plains', hopens', hperm⟩ := listed_plains hrun 0 hopens
  have hsum : total.1 = sumSizes (plains'.map fun f => asU64 f.content.length) := by
    rw [h.total_eq, plain_sizes hplains, sumSizes_perm (hperm.map _)]
  have hlen : (run'.order 0 folder.blobs).length = blobs.length := by
    rw [(hrun.listed 0 _).length_eq, h.stored.length_eq]
  have hblobs : (run'.order 0 folder.blobs).foldlM (verifyBlobFile lib run' key)
      ⟨0, u64_pos⟩ = .ok total := by
    refine foldlM_total ?_ (hsum.trans (Nat.zero_add _).symm)
    rw [List.forall₂_map_right_iff]
    refine hopens'.imp fun f plain hf t r hr => ?_
    obtain ⟨sha, -, hpath, hsha⟩ := hf.valid
    have hread := decryptedShaOf_encrypted hlib hrun 0 hf.encrypted
    refine bind_eq_ok.mpr ⟨_, hread, bind_eq_ok.mpr ⟨(), ensure_eq_ok.mpr ?_, ?_⟩⟩
    · rw [hsha, hpath]
      exact labelOf_endsWith sha
    · exact orError_eq_ok.mpr hr
  refine bind_eq_ok.mpr ⟨lib.sha256 copy, rfl, bind_eq_ok.mpr ⟨(lib.sha256 copy, copy.length), ?_,
    bind_eq_ok.mpr ⟨(), ensure_eq_ok.mpr rfl, bind_eq_ok.mpr ⟨_, backupBlobFiles_opens hrun 0 hopens',
    bind_eq_ok.mpr ⟨total, hblobs, ensure_eq_ok.mpr ⟨?_, rfl⟩⟩⟩⟩⟩⟩
  · rw [hfile]
    exact decryptedShaOf_encrypted hlib hrun 0 hdatabase
  · rw [hlen]
    rfl

theorem stageBlobs_opens (hlib : lib.Lawful) (hrun : run'.Clean) {files plains staged : List BlobFile}
    (h : List.Forall₂ (OpensTo lib run key) files plains)
    (hnodup : ((staged ++ plains).map (·.path)).Nodup) :
    files.foldlM (stageBlob lib run' key) staged = .ok (staged ++ plains) := by
  induction h generalizing staged with
  | nil => rw [List.append_nil]; rfl
  | @cons f plain files plains hf _ ih =>
    have hnew : ∀ b ∈ staged, b.path ≠ f.path := by
      rw [List.map_append, List.nodup_append'] at hnodup
      intro b hb hpath
      refine hnodup.2.2 (List.mem_map_of_mem hb) ?_
      rw [List.map_cons, hf.path, hpath]
      exact List.mem_cons_self
    have hstep : stageBlob lib run' key staged f = .ok (staged ++ [plain]) := by
      refine bind_eq_ok.mpr ⟨(), hrun.step _, bind_eq_ok.mpr ⟨plain.content,
        decryptFrom_encrypted hlib hrun hf.encrypted, ?_⟩⟩
      rw [putBlob_of_new _ hnew, ← hf.path]
      rfl
    have hrest := @ih (staged ++ [plain]) (by rwa [← List.append_cons])
    rw [← List.append_cons] at hrest
    exact foldlM_cons_eq_ok.mpr ⟨_, hstep, hrest⟩

theorem blob?_of_mem {plain : BlobFile} {sha : String}
    (hnodup : (folder.blobs.map (·.path)).Nodup) (hmem : plain ∈ folder.blobs)
    (hpath : plain.path = blobPath sha) : folder.blob? sha = some plain.content := by
  have hfind : folder.blobs.find? (fun b => b.path = blobPath sha) = some plain := by
    cases hf : folder.blobs.find? (fun b => b.path = blobPath sha) with
    | none =>
      have hnone := List.find?_eq_none.mp hf plain hmem
      exact absurd (decide_eq_true hpath) hnone
    | some b =>
      have hb : b.path = blobPath sha := by simpa using List.find?_some hf
      exact congrArg some (List.inj_on_of_nodup_map hnodup (List.mem_of_find?_eq_some hf) hmem
        (hb.trans hpath.symm))
  rw [Folder.blob?, hfind, Option.map_some]

def SameSizes (files : List FileRow) : Prop :=
  ∀ f ∈ files, ∀ g ∈ files, f.sha256 = g.sha256 → f.bytes = g.bytes

theorem sizesOf_same {files : List FileRow} (h : SameSizes files) {sha : String}
    (hsha : sha ∈ digests files) : (sizesOf files sha).min? = (sizesOf files sha).max? := by
  obtain ⟨f, hf, rfl⟩ := mem_digests.mp hsha
  have hmem : f.bytes ∈ sizesOf files f.sha256 :=
    List.mem_map.mpr ⟨f, List.mem_filter.mpr ⟨hf, decide_eq_true rfl⟩, rfl⟩
  have hall : ∀ n ∈ sizesOf files f.sha256, n = f.bytes := by
    intro n hn
    obtain ⟨g, hg, rfl⟩ := List.mem_map.mp hn
    obtain ⟨hgf, hsha⟩ := List.mem_filter.mp hg
    exact h g hgf f hf (of_decide_eq_true hsha)
  rw [List.min?_eq_some_iff.mpr ⟨hmem, fun n hn => Int.le_of_eq (hall n hn).symm⟩,
    List.max?_eq_some_iff.mpr ⟨hmem, fun n hn => Int.le_of_eq (hall n hn)⟩]

theorem storedBlobsMinMax_same {files : List FileRow} (hsame : SameSizes files)
    {blobs : List (String × U64)} (h : storedBlobs files = .ok blobs) :
    storedBlobsMinMax files = .ok (blobs.map fun blob => (blob.1, blob.2, blob.2)) := by
  refine mapM_eq_ok.mpr (List.forall₂_map_right_iff.mpr ?_)
  have hmem : ∀ sha ∈ digests files, (sizesOf files sha).min? = (sizesOf files sha).max? :=
    fun sha => sizesOf_same hsame
  have hall := mapM_eq_ok.mp h
  clear h
  generalize digests files = shas at hall hmem
  induction hall with
  | nil => exact .nil
  | cons hx _ ih =>
    refine .cons ?_ (ih fun sha hsha => hmem sha (List.mem_cons_of_mem _ hsha))
    obtain ⟨bytes, hbytes, hpure⟩ := bind_eq_ok.mp hx
    obtain rfl := Except.ok.inj hpure
    rw [hmem _ List.mem_cons_self]
    exact bind_eq_ok.mpr ⟨bytes, hbytes, bind_eq_ok.mpr ⟨bytes, hbytes, rfl⟩⟩

theorem verifyBackup_plain (hrun : run'.Clean) (time : Nat)
    (h : Finished lib run config live key encryption folder copy db blobs fileCount total)
    (hsame : SameSizes db.files) {plains : List BlobFile}
    (hplains : List.Forall₂ (PlainOf lib live) blobs plains)
    {staged : Folder} (hblobs : ∀ blob plain, PlainOf lib live blob plain → plain ∈ plains →
      staged.blob? blob.1 = some plain.content)
    (hdatabase : staged.database = some copy) {manifest : BackupManifest}
    (hmanifest : staged.manifest = some (some manifest.json))
    (hplain : manifest = { manifestOf lib run config encryption copy blobs fileCount total with
      version := ⟨1, by decide⟩, databaseSha256 := none, encryption := none }) :
    verifyBackup lib run' time staged = .ok manifest := by
  have hone : 1 < 2^32 := by decide
  have hread : plainManifest run' time staged = .ok manifest := by
    refine bind_eq_ok.mpr ⟨(), hrun.step _, bind_eq_ok.mpr ⟨_, orError_eq_ok.mpr hmanifest,
      bind_eq_ok.mpr ⟨manifest, orError_eq_ok.mpr ?_, bind_eq_ok.mpr ⟨(),
      ensure_eq_ok.mpr ?_, rfl⟩⟩⟩⟩
    · rw [Option.bind_some, BackupManifest.read_json (by rw [hplain]; exact hone)]
    · rw [hplain]
      exact ⟨rfl, rfl, rfl, rfl⟩
  have hlist : List.Forall₂ (fun (blob : String × U64 × U64) size => ∀ t r,
      checkedAdd t size = some r → verifyStored lib run' time staged t blob = .ok r)
      (blobs.map fun blob => (blob.1, blob.2, blob.2)) (blobs.map Prod.snd) := by
    rw [List.forall₂_map_left_iff, List.forall₂_map_right_iff, List.forall₂_same]
    intro blob hblob t r hr
    obtain ⟨plain, hmem, hof⟩ := exists_of_forall₂ hplains hblob
    refine bind_eq_ok.mpr ⟨(), validateSha_eq_ok.mpr hof.valid, bind_eq_ok.mpr ⟨(),
      ensure_eq_ok.mpr rfl, bind_eq_ok.mpr ⟨(), ensure_eq_ok.mpr (by rw [hrun.fine]; rfl),
      bind_eq_ok.mpr ⟨_, orError_eq_ok.mpr (hblobs blob plain hof hmem), bind_eq_ok.mpr ⟨(),
      ensure_eq_ok.mpr ⟨hof.hash, hof.size⟩, orError_eq_ok.mpr ?_⟩⟩⟩⟩⟩
    rw [hof.size]
    exact hr
  have htotal := foldlM_total hlist (t := ⟨0, u64_pos⟩) (r := total)
    (h.total_eq.trans (Nat.zero_add _).symm)
  have hlen : asU64 (blobs.map fun blob => (blob.1, blob.2, blob.2)).length = manifest.blobCount := by
    rw [List.length_map, hplain]
    rfl
  have hcount : fileCount = manifest.fileCount := by rw [hplain]; rfl
  have hbytes : total = manifest.totalBytes := by rw [hplain]; rfl
  unfold verifyBackup
  rw [hread, hdatabase]
  refine bind_eq_ok.mpr ⟨manifest, rfl, bind_eq_ok.mpr ⟨(), hrun.step _, bind_eq_ok.mpr ⟨"ok",
    h.whole, bind_eq_ok.mpr ⟨(), ensure_eq_ok.mpr rfl, bind_eq_ok.mpr ⟨db, h.read,
    bind_eq_ok.mpr ⟨fileCount, h.counted, bind_eq_ok.mpr ⟨(), ensure_eq_ok.mpr hcount,
    bind_eq_ok.mpr ⟨_, storedBlobsMinMax_same hsame h.listed, bind_eq_ok.mpr ⟨(),
    ensure_eq_ok.mpr hlen, bind_eq_ok.mpr ⟨total, htotal, bind_eq_ok.mpr ⟨(),
    ensure_eq_ok.mpr hbytes, rfl⟩⟩⟩⟩⟩⟩⟩⟩⟩⟩⟩

theorem finishStage_plain (hrun : run'.Clean) {file : Bytes} (hfile : folder.database = some copy)
    (hdelete : lib.deleteSessions copy = .ok file) :
    finishStage lib run' folder = .ok ⟨none, some file, folder.blobs⟩ := by
  refine bind_eq_ok.mpr ⟨(), hrun.step _, bind_eq_ok.mpr ⟨file, ?_, bind_eq_ok.mpr ⟨(),
    hrun.step _, rfl⟩⟩⟩
  rw [hfile]
  exact hdelete

/-- The staged folder: the database without its sessions, and the stored files. -/
structure Staged (lib : Libraries Other) (live : Folder) (db : SchoolDatabase Other)
    (staged : Folder) : Prop where
  database : ∃ file, staged.database = some file ∧ lib.readDatabase file = .ok db.withoutSessions
  blobs : ∀ f ∈ db.files, ∃ content, live.blob? f.sha256 = some content ∧
    staged.blob? f.sha256 = some content

theorem fillStage_finished (hlib : lib.Lawful) (hrun : run'.Clean)
    (h : Finished lib run config live key encryption folder copy db blobs fileCount total)
    (hsame : SameSizes db.files) :
    ∃ staged, fillStage lib run' folder
        (manifestOf lib run config encryption copy blobs fileCount total) key = .ok staged ∧
      Staged lib live db staged := by
  obtain ⟨file, hfile, hdatabase⟩ := h.database
  obtain ⟨plains, hplains, hopens⟩ := stored_plains h.stored
  obtain ⟨plains', hopens', hperm⟩ := listed_plains hrun 1 hopens
  obtain ⟨file', hdelete, hread⟩ := hlib.read_deleteSessions copy db h.read
  have hnodup : (plains'.map (·.path)).Nodup := by
    refine (hperm.map _).nodup_iff.mpr ?_
    rw [plain_paths hplains, storedBlobs_digests h.listed]
    exact (nodup_digests _).map blobPath_injective
  have hfound : ∀ (m : Option (Option Json)) (d : Option Bytes) (blob : String × U64)
      (plain : BlobFile), PlainOf lib live blob plain → plain ∈ plains →
      (Folder.mk m d plains').blob? blob.1 = some plain.content :=
    fun m d blob plain hof hmem => blob?_of_mem hnodup (hperm.mem_iff.mpr hmem) hof.path
  refine ⟨⟨none, some file', plains'⟩, ?_, ⟨file', rfl, hread⟩, fun f hf => ?_⟩
  · refine bind_eq_ok.mpr ⟨copy, ?_, bind_eq_ok.mpr ⟨(), hrun.step _, bind_eq_ok.mpr ⟨_,
      backupBlobFiles_opens hrun 1 hopens', bind_eq_ok.mpr ⟨plains',
      stageBlobs_opens hlib hrun hopens' hnodup, bind_eq_ok.mpr ⟨(), hrun.step _,
      bind_eq_ok.mpr ⟨(), hrun.step _, bind_eq_ok.mpr ⟨_, verifyBackup_plain hrun 1 h hsame
        hplains (hfound _ _) rfl rfl rfl, finishStage_plain hrun rfl hdelete⟩⟩⟩⟩⟩⟩⟩
    rw [hfile]
    exact decryptFrom_encrypted hlib hrun hdatabase
  · obtain ⟨blob, hblob, hsha⟩ : ∃ blob ∈ blobs, blob.1 = f.sha256 := by
      have hmem : f.sha256 ∈ blobs.map Prod.fst := by
        rw [storedBlobs_digests h.listed]
        exact mem_digests.mpr ⟨f, hf, rfl⟩
      exact List.mem_map.mp hmem
    obtain ⟨plain, hmem, hof⟩ := exists_of_forall₂ hplains hblob
    rw [← hsha]
    exact ⟨plain.content, hof.found, hfound _ _ blob plain hof hmem⟩

theorem readManifest_finished (hrun : run'.Clean)
    (h : Finished lib run config live key encryption folder copy db blobs fileCount total) :
    readManifest run' folder =
      .ok (manifestOf lib run config encryption copy blobs fileCount total) := by
  have htwo : 2 < 2^32 := by decide
  refine bind_eq_ok.mpr ⟨(), hrun.step _, bind_eq_ok.mpr ⟨_, orError_eq_ok.mpr h.manifest,
    orError_eq_ok.mpr ?_⟩⟩
  rw [Option.bind_some]
  exact BackupManifest.read_json htwo

theorem stageBackup_finished (hlib : lib.Lawful) (hrun : run'.Clean)
    (h : Finished lib run config live key encryption folder copy db blobs fileCount total)
    (hcipher : encryption.cipher = cipherName) (hsame : SameSizes db.files) {secret : String}
    (hsecret : encryption.unlock lib.unwrap secret = some key) :
    ∃ staged, stageBackup lib run' folder secret = .ok staged ∧ Staged lib live db staged := by
  obtain ⟨staged, hfill, hstaged⟩ := fillStage_finished hlib hrun h hsame
  refine ⟨staged, ?_, hstaged⟩
  refine bind_eq_ok.mpr ⟨(), hrun.step _, bind_eq_ok.mpr ⟨_, readManifest_finished hrun h, ?_⟩⟩
  show stageEncrypted lib run' folder _ encryption secret = .ok staged
  exact bind_eq_ok.mpr ⟨(), ensure_eq_ok.mpr hcipher, bind_eq_ok.mpr ⟨key,
    orError_eq_ok.mpr hsecret, bind_eq_ok.mpr ⟨(), verifyEncrypted_finished hlib hrun h,
    bind_eq_ok.mpr ⟨(), bind_eq_ok.mpr ⟨(), hrun.step _, hrun.step _⟩, hfill⟩⟩⟩⟩

end ReadingBack

theorem unlock_eq_key {unwrap : KeyWrap → String → Option BackupKey} {key : BackupKey}
    {e : BackupEncryption} (hlocks : Locks unwrap key [e.passwordWrap, e.recoveryWrap])
    {wrap : KeyWrap} {secret : String} (hmem : some wrap ∈ [e.passwordWrap, e.recoveryWrap])
    (hopens : unwrap wrap secret ≠ none) : e.unlock unwrap secret = some key := by
  cases hfind : e.unlock unwrap secret with
  | none =>
    have hnone := List.findSome?_eq_none_iff.mp hfind (some wrap) hmem
    exact absurd hnone hopens
  | some k =>
    obtain ⟨o, ho, hk⟩ := List.exists_of_findSome?_eq_some hfind
    obtain ⟨wrap', rfl, hk⟩ := Option.bind_eq_some_iff.mp hk
    rw [hlocks wrap' ho secret k hk]

theorem backupEncryption_eq_ok {stored : Except String (Option BackupKey)} {config : HostConfig}
    {key : BackupKey} {e : BackupEncryption} (h : backupEncryption stored config = .ok (key, e)) :
    stored = .ok (some key) ∧
      e = ⟨cipherName, config.backupPasswordWrap, config.backupRecoveryWrap⟩ := by
  obtain ⟨found, hstored, h⟩ := bind_eq_ok.mp h
  obtain ⟨k, hk, h⟩ := bind_eq_ok.mp h
  obtain ⟨_, -, h⟩ := bind_eq_ok.mp h
  obtain ⟨rfl, rfl⟩ := Prod.mk.inj (Except.ok.inj h)
  rw [orError_eq_ok.mp hk] at hstored
  exact ⟨hstored, rfl⟩

end Cinder.Backups
