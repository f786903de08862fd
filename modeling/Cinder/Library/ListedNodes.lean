import Cinder.Library.LibraryReads
import Cinder.Library.LibraryRequests
import Cinder.Storage.MirroredRows
set_option autoImplicit false

/-!
The full-text index and the notes. No handler writes the index: its triggers keep
it a mirror of the bodies, whatever way a body comes, changes or goes.
-/

namespace Cinder.Library
open Cinder.Host Cinder.Storage Cinder.Programs Cinder.Notes Cinder.Materials

def Mirrored (lib : LibraryTables) : Prop := Mirrors indexed lib.noteBodies.rows lib.noteSearch

instance (lib : LibraryTables) : Decidable (Mirrored lib) :=
  inferInstanceAs (Decidable (lib.noteSearch.Perm _))

structure IndexedLibrary where
  lib : LibraryTables
  mirrored : Mirrored lib

theorem keyedBy_noteBodies (bodies : Table NoteBodyRow) :
    KeyedBy NoteSearchRow.nodeId indexed bodies.rows :=
  bodies.unique.imp fun h => by simpa [Keyed.clash, indexed] using h

theorem mem_noteSearch {lib : LibraryTables} (h : Mirrored lib) {r : NoteSearchRow}
    (hr : r ∈ lib.noteSearch) : ∃ b, noteBody? lib r.nodeId = some b := by
  obtain ⟨b, hb, rfl⟩ := List.mem_map.mp (h.mem_iff.mp hr)
  exact Table.find?_isSome ⟨b, hb, decide_eq_true rfl⟩

section Statements
variable {lib lib' : LibraryTables}

theorem mirrored_insertNoteBody {b : NoteBodyRow} (hlib : Mirrored lib)
    (h : insertNoteBody lib b = some lib') : Mirrored lib' := by
  obtain ⟨-, hinsert, hlib'⟩ := insertNoteBody_some h
  rw [hlib']
  unfold Mirrored
  dsimp only
  rw [Table.rows_insert hinsert]
  exact hlib.insert b

theorem mirrored_updateNoteBodies {f : NoteBodyRow → NoteBodyRow} (hf : Table.KeepsKeys f)
    (hlib : Mirrored lib) (p : NoteBodyRow → Bool) (hkey : ∀ b, (f b).nodeId = b.nodeId) :
    Mirrored (updateNoteBodies lib p f hf) :=
  Mirrors.update (keyedBy_noteBodies lib.noteBodies) hlib p hkey

theorem mirrored_deleteNoteBodies (hlib : Mirrored lib) (p : NoteBodyRow → Bool) :
    Mirrored (deleteNoteBodies lib p) :=
  Mirrors.remove (keyedBy_noteBodies lib.noteBodies) hlib p

theorem mirrored_createNodeTx {owner : Uuid} {node : NodeRow} (hlib : Mirrored lib)
    (h : createNodeTx lib owner node = some lib') : Mirrored lib' := by
  obtain ⟨inserted, hinsert, hbody⟩ := Option.bind_eq_some_iff.mp h
  have hinserted : Mirrored inserted := by
    rw [(insertNode_some hinsert).2.2]
    exact hlib
  split at hbody
  · exact mirrored_insertNoteBody hinserted hbody
  · exact Option.some.inj hbody ▸ hinserted

end Statements

theorem mirrored_change {l : LibraryStatement} {lib lib' : LibraryTables} (hlib : Mirrored lib)
    (h : LibraryChange lib l lib') : Mirrored lib' := by
  cases h with
  | same => exact hlib
  | created owner node lib' hcreate => exact mirrored_createNodeTx hlib hcreate
  | edited existing user req now lib' hedit =>
    obtain ⟨f, -, -, -, hrest⟩ := hedit
    rw [hrest]
    exact hlib
  | saved l note docJson plaintext now => exact mirrored_updateNoteBodies (saveBody_keeps _ _ _) hlib _ fun _ => rfl
  | uploaded node file lib' hupload =>
    rw [(insertMaterial_some hupload).2.2.2]
    exact hlib
  | deleted l ids school => exact mirrored_deleteNoteBodies hlib _

/-- Whatever requests run, in whatever interleaving, the index mirrors the notes. -/
theorem search_index_mirrors_notes {ι : Type} [DecidableEq ι] (sha256 : Bytes → String)
    (s : LibraryStore) (hs : Mirrored s.lib) (ms : List (Move ι LibraryRequest)) :
    Mirrored ((Pool.idle s : LibraryPool ι).run (handle sha256) ms).world.state.lib :=
  library_run (fun _ _ _ hlib h => mirrored_change hlib h) sha256 (Pool.idle s) hs ms

def sampleNoteRun : List (Move Nat LibraryRequest) :=
  aloneRun 0 4 (sampleCreate 20 none .folder "Physics") ++
    aloneRun 1 8 (sampleCreate 30 (some 2000) .note "Light") ++
    aloneRun 2 6 (.saveNote ⟨sampleEnv 40, sampleStudent, 3000, ⟨.null, "light bends", none⟩⟩)

theorem search_index_mirrors_notes_sample :
    let start : LibraryPool Nat := Pool.idle emptyLibrary
    let saved := (start.run (handle sampleSha256) sampleNoteRun).world.state.lib
    saved.noteSearch = [⟨3000, "light bends"⟩] ∧ Mirrored saved :=
  ⟨by decide +kernel, search_index_mirrors_notes sampleSha256 emptyLibrary (.refl _) sampleNoteRun⟩

end Cinder.Library

/-!
Whether the handlers that show one node agree with the list of nodes. `download`
does; `get_note` and `search` know nothing of classrooms and of the trash.
-/

namespace Cinder.Library
open Cinder.Host Cinder.Storage Cinder.Programs Cinder.Programs.Program

/-- `get_tree` lists the node for the user. -/
def Lists (user : CurrentUser) (id : Uuid) (lib : LibraryTables) : Prop :=
  ∃ nodes, (getTree user).exec lib = (.ok nodes, lib) ∧ ∃ n ∈ nodes, n.id = id

def memberOf (school : Database) (user : CurrentUser) (classroomId : Uuid) : Bool :=
  if user.role.isTeacher then teacherCanAccess school classroomId user.id
  else activelyEnrolled school classroomId user.id

def Entitled (school : Database) (user : CurrentUser) (n : NodeRow) : Prop :=
  (∀ owner ∈ n.ownerId, owner = user.id) ∧
    (n.ownerId = none → ∀ classroomId ∈ n.classroomId, memberOf school user classroomId = true)

instance (school : Database) (user : CurrentUser) (n : NodeRow) :
    Decidable (Entitled school user n) := inferInstanceAs (Decidable (_ ∧ _))

section Rules
variable {lib : LibraryTables} {user : CurrentUser} {n : NodeRow}

theorem sharedWithStudent_eq (school : Database) (studentId classroomId : Uuid) :
    sharedWithStudent school studentId classroomId =
      activelyEnrolled school classroomId studentId := by
  have hclassroom : (school.classrooms.rows.any fun c => c.id = classroomId && c.archivedAt.isNone) =
      (classroom? school classroomId).any fun c => c.archivedAt.isNone := by
    rw [Bool.eq_iff_iff]
    constructor
    · intro hany
      obtain ⟨c, hc, hrow⟩ := List.any_eq_true.mp hany
      obtain ⟨hid, harchived⟩ := Bool.and_eq_true_iff.mp hrow
      have hfind : classroom? school classroomId = some c :=
        Table.find?_of_mem hc hid fun c' _ hc' => by
          simp only [decide_eq_true_eq] at hid hc'
          simp [Keyed.clash, hid, hc']
      rw [hfind]
      exact harchived
    · intro hany
      obtain ⟨c, hfind, harchived⟩ := (Option.any_eq_true _ _).mp hany
      obtain ⟨hc, hid⟩ := Table.mem_of_find? hfind
      exact List.any_eq_true.mpr ⟨c, hc, Bool.and_eq_true_iff.mpr ⟨hid, harchived⟩⟩
  rw [activelyEnrolled, ← hclassroom, sharedWithStudent, enrolled, Bool.eq_iff_iff,
    Bool.and_eq_true, List.any_eq_true, List.any_eq_true]
  constructor
  · rintro ⟨e, he, hrow⟩
    obtain ⟨hkey, hjoin⟩ := Bool.and_eq_true_iff.mp hrow
    have hid := of_decide_eq_true (Bool.and_eq_true_iff.mp hkey).1
    rw [hid] at hjoin
    exact ⟨⟨e, he, hkey⟩, hjoin⟩
  · rintro ⟨⟨e, he, hkey⟩, hjoin⟩
    have hid := of_decide_eq_true (Bool.and_eq_true_iff.mp hkey).1
    refine ⟨e, he, Bool.and_eq_true_iff.mpr ⟨hkey, ?_⟩⟩
    rw [hid]
    exact hjoin

theorem inTree_iff :
    inTree lib user n = true ↔ trashed lib n.id = false ∧ Entitled lib.school user n := by
  have hmember : ∀ c, (if user.role.isTeacher then sharedWithTeacher lib.school user.id c
      else sharedWithStudent lib.school user.id c) = memberOf lib.school user c := fun c => by
    rw [memberOf, sharedWithStudent_eq]
    rfl
  rw [inTree, Bool.and_eq_true, Bool.not_eq_true']
  refine and_congr_right fun _ => ?_
  simp only [hmember]
  unfold Entitled
  cases n.ownerId with
  | some owner => simp
  | none => simp [Option.all_eq_true]

theorem lists_iff (hn : n ∈ lib.nodes.rows) :
    Lists user n.id lib ↔ trashed lib n.id = false ∧ Entitled lib.school user n := by
  rw [← inTree_iff]
  constructor
  · rintro ⟨nodes, hexec, m, hm, hid⟩
    cases hexec
    obtain ⟨hmem, htree⟩ := List.mem_filter.mp (List.mem_mergeSort.mp hm)
    have hsame : m = n := Table.eq_of_clash hmem hn (decide_eq_true hid)
    exact hsame ▸ htree
  · exact fun htree =>
      ⟨_, rfl, n, List.mem_mergeSort.mpr (List.mem_filter.mpr ⟨hn, htree⟩), rfl⟩

theorem find?_file {id : Uuid} (h : ∃ f ∈ lib.files.rows, f.nodeId = id) :
    ∃ f, lib.files.find? (fun f => f.nodeId = id) = some f ∧ f.nodeId = id := by
  obtain ⟨f, hf, hid⟩ := h
  obtain ⟨g, hg⟩ := Table.find?_isSome (p := fun f => f.nodeId = id) ⟨f, hf, decide_eq_true hid⟩
  exact ⟨g, hg, of_decide_eq_true (Table.mem_of_find? hg).2⟩

theorem authorizeDownload_succeeds (n : NodeRow) :
    (authorizeDownload user n).Succeeds lib ↔ Entitled lib.school user n := by
  unfold authorizeDownload Entitled
  cases n.ownerId with
  | some owner => simp
  | none =>
    cases n.classroomId with
    | none => simp
    | some c => simp [memberOf]

theorem authorizeDownload_readOnly (n : NodeRow) : (authorizeDownload user n).ReadOnly := by
  unfold authorizeDownload
  split
  · trivial
  · exact (readOnly_query _).bind fun _ => readOnly_require _ _
  · exact readOnly_require _ _

theorem downloadMeta_succeeds {id : Uuid} : (downloadMeta user id).Succeeds lib ↔
    ∃ stored, storedFile? lib id = some stored ∧ Entitled lib.school user stored.2 := by
  rw [downloadMeta, succeeds_queryRow_bind_iff]
  refine exists_congr fun stored => and_congr_right fun _ => ?_
  rw [succeeds_readOnly_bind_iff (authorizeDownload_readOnly _), authorizeDownload_succeeds]
  simp

theorem storedFile?_eq {id : Uuid} {f : FileRow}
    (hf : lib.files.find? (fun f => f.nodeId = id) = some f) (hid : f.nodeId = id) :
    storedFile? lib id = (node? lib id).bind fun n =>
      if trashed lib id then none else some (f, n) := by
  rw [storedFile?, hf]
  simp only [Option.bind_eq_bind, Option.bind_some, hid]
  cases node? lib id with
  | none => rfl
  | some n => cases htrash : trashed lib id <;> simp [guard]

end Rules

/-- Whatever the tables hold, a user may download a file if and only if its node
is in the user's tree. -/
theorem download_iff_listed (lib : LibraryTables) (user : CurrentUser) (id : Uuid)
    (h : ∃ f ∈ lib.files.rows, f.nodeId = id) :
    (downloadMeta user id).Succeeds lib ↔ Lists user id lib := by
  obtain ⟨f, hf, hid⟩ := find?_file h
  rw [downloadMeta_succeeds, storedFile?_eq hf hid]
  cases hn : node? lib id with
  | none =>
    simp only [Option.bind_none, reduceCtorEq, false_and, exists_false, false_iff]
    rintro ⟨nodes, hexec, n, hmem, rfl⟩
    cases hexec
    have hstored := (List.mem_filter.mp (List.mem_mergeSort.mp hmem)).1
    have hno := Table.find?_eq_none.mp hn n hstored
    simp at hno
  | some n =>
    obtain ⟨hmem, rfl⟩ := node?_id hn
    rw [lists_iff hmem]
    cases trashed lib n.id <;> simp

/-! What `get_note` and `search` let a user read. -/

theorem getNote_succeeds {lib : LibraryTables} {user : CurrentUser} {n : NodeRow}
    (hn : n ∈ lib.nodes.rows) : (getNote user n.id).Succeeds lib ↔
      (∀ owner ∈ n.ownerId, owner = user.id) ∧ ∃ b, noteBody? lib n.id = some b := by
  have hread : (assertReadable n.id user.id).ReadOnly :=
    (readOnly_queryRow _ _).bind fun _ => readOnly_require _ _
  rw [getNote, succeeds_readOnly_bind_iff hread, assertReadable, succeeds_queryRow_bind_iff]
  simp [node?_of_mem hn, Option.all_eq_true]

section Search
variable (isAlphanumeric : Char → Bool) (fts : Fts5)

/-- `get_note` returns the body of the note, or some search has a hit for it. -/
def Reads (user : CurrentUser) (id : Uuid) (lib : LibraryTables) : Prop :=
  (getNote user id).Succeeds lib ∨ ∃ q hits,
    (search isAlphanumeric fts user q).exec lib = (.ok hits, lib) ∧ ∃ h ∈ hits, h.nodeId = id

variable {isAlphanumeric fts}

theorem search_hit {lib : LibraryTables} {user : CurrentUser} {q : String} {hits : List SearchHit}
    (h : (search isAlphanumeric fts user q).exec lib = (.ok hits, lib)) {hit : SearchHit}
    (hhit : hit ∈ hits) : (∃ r ∈ lib.noteSearch, r.nodeId = hit.nodeId) ∧
      ∃ n, node? lib hit.nodeId = some n ∧ ∀ owner ∈ n.ownerId, owner = user.id := by
  unfold search at h
  split at h
  · cases h
    cases hhit
  · next expr _ =>
    cases h
    obtain ⟨found, hfound, rfl⟩ := List.mem_map.mp hhit
    have hmem := List.mem_mergeSort.mp (List.mem_of_mem_take hfound)
    obtain ⟨r, hr, hrow⟩ := List.mem_filterMap.mp hmem
    obtain ⟨n, hn, hif⟩ := Option.bind_eq_some_iff.mp hrow
    split at hif
    · next hmatch =>
      cases hif
      refine ⟨⟨r, hr, rfl⟩, n, hn, ?_⟩
      simpa [Option.all_eq_true] using (Bool.and_eq_true_iff.mp hmatch).2
    · cases hif

/-- The note has no body, belongs to somebody else, or is one that the user is
entitled to and that is not in the trash. -/
def ReadOnlyIfListed (lib : LibraryTables) (user : CurrentUser) (n : NodeRow) : Prop :=
  noteBody? lib n.id = none ∨ (∃ owner ∈ n.ownerId, owner ≠ user.id) ∨
    (trashed lib n.id = false ∧ Entitled lib.school user n)

theorem reads_iff (lib : IndexedLibrary) {user : CurrentUser} {n : NodeRow}
    (hn : n ∈ lib.lib.nodes.rows) : Reads isAlphanumeric fts user n.id lib.lib ↔
      (∀ owner ∈ n.ownerId, owner = user.id) ∧ ∃ b, noteBody? lib.lib n.id = some b := by
  constructor
  · rintro (hnote | ⟨q, hits, hexec, hit, hhit, hid⟩)
    · exact (getNote_succeeds hn).mp hnote
    · obtain ⟨⟨r, hr, hrid⟩, m, hm, howner⟩ := search_hit hexec hhit
      rw [hid, node?_of_mem hn] at hm
      cases hm
      refine ⟨howner, ?_⟩
      rw [← hid, ← hrid]
      exact mem_noteSearch lib.mirrored hr
  · exact fun h => .inl ((getNote_succeeds hn).mpr h)

/-- Exactly when a user who may read a note also finds it in the tree. -/
theorem read_notes_are_listed_iff (lib : IndexedLibrary) (user : CurrentUser) (n : NodeRow)
    (hn : n ∈ lib.lib.nodes.rows) :
    (Reads isAlphanumeric fts user n.id lib.lib → Lists user n.id lib.lib) ↔
      ReadOnlyIfListed lib.lib user n := by
  rw [reads_iff lib hn, lists_iff hn]
  unfold ReadOnlyIfListed
  have hother : (∃ owner ∈ n.ownerId, owner ≠ user.id) ↔ ¬∀ owner ∈ n.ownerId, owner = user.id := by
    simp only [not_forall, exists_prop]
  rw [hother]
  cases noteBody? lib.lib n.id with
  | none => simp
  | some b =>
    rw [imp_iff_not_or]
    simp

end Search

/-! A note that is shared in the sample classroom, and a teacher of another one. -/

def sharedNote : NodeRow where
  id := 9
  ownerId := none
  parentId := none
  classroomId := some 3
  name := "Light"
  kind := .note
  createdAt := 10
  updatedAt := 10

def sampleShared : IndexedLibrary where
  lib := { school := sampleClassroom, nodes := .single sharedNote
           noteBodies := .single ⟨9, .null, "light bends", 10⟩
           noteSearch := [⟨9, "light bends"⟩] }
  mirrored := .refl _

def otherTeacher : CurrentUser := ⟨5, .teacher⟩

def noMatches : Fts5 := ⟨fun _ _ => false, fun _ _ _ => 0, fun _ text => text⟩

theorem read_notes_are_listed_iff_sample :
    (Reads Char.isAlphanum noMatches sampleStudent 9 sampleShared.lib →
      Lists sampleStudent 9 sampleShared.lib) ↔
        ReadOnlyIfListed sampleShared.lib sampleStudent sharedNote :=
  read_notes_are_listed_iff sampleShared sampleStudent sharedNote (by decide)

/-- `get_note` shows the note to a teacher in whose tree it is not. -/
theorem unlisted_note_is_read :
    ¬(Reads Char.isAlphanum noMatches otherTeacher 9 sampleShared.lib →
      Lists otherTeacher 9 sampleShared.lib) := by
  intro h
  have hmem : sharedNote ∈ sampleShared.lib.nodes.rows := by decide
  have hread : (getNote otherTeacher 9).Succeeds sampleShared.lib := ⟨_, _, rfl⟩
  have hlisted := (lists_iff hmem).mp (h (.inl hread))
  have hno : ¬Entitled sampleClassroom otherTeacher sharedNote := by decide +kernel
  exact hno hlisted.2

def sampleFile : LibraryTables where
  school := sampleClassroom
  nodes := .single { sharedNote with kind := .pdf }
  files := .single ⟨9, "ab", "a.pdf", 6, "application/pdf", 10⟩

theorem download_iff_listed_sample :
    (downloadMeta sampleStudent 9).Succeeds sampleFile ∧ Lists sampleStudent 9 sampleFile := by
  have hread : (downloadMeta sampleStudent 9).Succeeds sampleFile := ⟨_, _, rfl⟩
  exact ⟨hread, (download_iff_listed sampleFile sampleStudent 9 (by decide)).mp hread⟩

end Cinder.Library
