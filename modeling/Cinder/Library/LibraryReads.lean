import Cinder.Library.NodeHandlers
import Cinder.Notes.NoteSaving
set_option autoImplicit false

/-!
What a user may see of the library: the list of nodes, the body of a note, the
hits of a search, and a file. Each handler has its own rule for it.
-/

namespace Cinder.Library
open Cinder.Host Cinder.Storage Cinder.Programs Cinder.Programs.Program
open Cinder.Notes (NoteBody)

def trashed (lib : LibraryTables) (id : Uuid) : Bool :=
  lib.trashedFiles.rows.any fun t => t.nodeId = id

/-! `get_tree`. -/

def sharedWithTeacher (school : Database) (teacherId classroomId : Uuid) : Bool :=
  school.classrooms.rows.any fun c =>
    c.id = classroomId && c.archivedAt.isNone &&
      (c.ownerTeacherId = teacherId || school.classroomTeachers.rows.any fun ct =>
        ct.classroomId = c.id && ct.teacherId = teacherId)

def sharedWithStudent (school : Database) (studentId classroomId : Uuid) : Bool :=
  school.classroomEnrolments.rows.any fun e =>
    e.classroomId = classroomId && e.studentId = studentId &&
      school.classrooms.rows.any fun c => c.id = e.classroomId && c.archivedAt.isNone

def inTree (lib : LibraryTables) (user : CurrentUser) (n : NodeRow) : Bool :=
  !trashed lib n.id && (n.ownerId = some user.id || (n.ownerId.isNone && n.classroomId.all
    fun classroomId =>
      if user.role.isTeacher then sharedWithTeacher lib.school user.id classroomId
      else sharedWithStudent lib.school user.id classroomId))

def orderedBefore (n n' : NodeRow) : Bool :=
  n.position < n'.position || (n.position = n'.position && lower n.name ≤ lower n'.name)

def getTree (user : CurrentUser) : NodeProgram (List NodeRow) :=
  query fun lib => (lib.nodes.rows.filter (inTree lib user)).mergeSort orderedBefore

/-! `get_note`. -/

def assertReadable (id owner : Uuid) : NodeProgram Unit := do
  let ownerId ← queryRow (fun lib => (node? lib id).map (·.ownerId)) (.notFound "note")
  require (ownerId.all (· = owner) = true) .forbidden

def getNote (user : CurrentUser) (id : Uuid) : NodeProgram NoteBody := do
  assertReadable id user.id
  let body ← queryRow (fun lib => noteBody? lib id) (.notFound "note")
  return ⟨body.docJson, body.plaintext, body.updatedAt⟩

/-! `search`. -/

/-- What the full-text index is asked for: whether an expression matches a text,
how a row ranks among the rows of the index, and the excerpt around the match. -/
structure Fts5 where
  found : String → String → Bool
  rank : String → List NoteSearchRow → NoteSearchRow → ℚ
  snippet : String → String → String

structure SearchHit where
  nodeId : Uuid
  name : String
  snippet : String
  deriving DecidableEq, Repr

section Search
variable (isAlphanumeric : Char → Bool) (fts : Fts5)

/-- Turns whatever the student typed into a safe prefix query. -/
def toFtsQuery (raw : String) : Option String :=
  let words := (raw.toList.splitOnP isWhitespace).map (·.filter isAlphanumeric)
  let terms := (words.filter (· ≠ [])).map fun word => "\"" ++ String.ofList word ++ "\"*"
  if terms = [] then none else some (String.intercalate " AND " terms)

def hit? (lib : LibraryTables) (owner : Uuid) (expr : String) (r : NoteSearchRow) :
    Option (NoteSearchRow × NodeRow) :=
  (node? lib r.nodeId).bind fun n =>
    if fts.found expr r.plaintext && n.ownerId.all (· = owner) then some (r, n) else none

def searchHits (lib : LibraryTables) (owner : Uuid) (expr : String) : List SearchHit :=
  let rank := fts.rank expr lib.noteSearch
  let found := (lib.noteSearch.filterMap (hit? fts lib owner expr)).mergeSort
    fun h h' => rank h.1 ≤ rank h'.1
  (found.take 50).map fun h => ⟨h.1.nodeId, h.2.name, fts.snippet expr h.1.plaintext⟩

def search (user : CurrentUser) (q : String) : NodeProgram (List SearchHit) :=
  match toFtsQuery isAlphanumeric q with
  | none => pure []
  | some expr => query fun lib => searchHits fts lib user.id expr

end Search

/-! `download`, up to the point where the blob is opened. -/

structure FileMeta where
  nodeId : Uuid
  origName : String
  bytes : Int
  mime : String
  deriving DecidableEq, Repr

def storedFile? (lib : LibraryTables) (id : Uuid) : Option (FileRow × NodeRow) := do
  let file ← lib.files.find? fun f => f.nodeId = id
  let node ← node? lib file.nodeId
  guard (trashed lib file.nodeId = false)
  return (file, node)

def authorizeDownload (user : CurrentUser) (node : NodeRow) : NodeProgram Unit :=
  match node.ownerId, node.classroomId with
  | none, none => pure ()
  | none, some classroomId => do
    let allowed ← query fun lib =>
      if user.role.isTeacher then teacherCanAccess lib.school classroomId user.id
      else activelyEnrolled lib.school classroomId user.id
    require (allowed = true) .forbidden
  | some owner, _ => require (owner = user.id) .forbidden

def downloadMeta (user : CurrentUser) (id : Uuid) : NodeProgram (String × FileMeta) := do
  let stored ← queryRow (fun lib => storedFile? lib id) (.notFound "file")
  authorizeDownload user stored.2
  return (stored.1.sha256, ⟨id, stored.1.origName, stored.1.bytes, stored.1.mime⟩)

end Cinder.Library
