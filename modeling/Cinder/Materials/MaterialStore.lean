import Cinder.Host.HostAccess
import Cinder.Library.LibraryTables
import Cinder.Programs.RequestPool
import Mathlib.Data.Option.Basic
set_option autoImplicit false

/-!
Uploaded material. The rows are in the database and the contents in blob files
named by their digest, so an upload works on both in separate steps.
-/

namespace Cinder.Materials
open Cinder.Host Cinder.Storage Cinder.Library Cinder.Programs Cinder.Programs.Program

abbrev BlobPath := String × String

def blobPath (digest : String) : BlobPath := (String.ofList (digest.toList.take 2), digest)

theorem blobPath_injective : Function.Injective blobPath := fun _ _ h => (Prod.mk.inj h).2

structure MaterialStore where
  lib : LibraryTables
  blobs : BlobPath → Option Bytes

def MaterialStore.blob? (s : MaterialStore) (digest : String) : Option Bytes :=
  s.blobs (blobPath digest)

def MaterialStore.setBlob (s : MaterialStore) (digest : String) (content : Option Bytes) :
    MaterialStore :=
  { s with blobs := Function.update s.blobs (blobPath digest) content }

@[simp] theorem MaterialStore.setBlob_lib (s : MaterialStore) (digest : String)
    (content : Option Bytes) : (s.setBlob digest content).lib = s.lib := rfl

theorem MaterialStore.blob?_setBlob (s : MaterialStore) (d digest : String)
    (content : Option Bytes) :
    (s.setBlob d content).blob? digest = if digest = d then content else s.blob? digest := by
  simp only [setBlob, blob?, Function.update_apply, blobPath_injective.eq_iff]

/-- The transaction that records an upload. A constraint that fails undoes both
rows. -/
def insertMaterial (lib : LibraryTables) (node : NodeRow) (file : FileRow) :
    Option LibraryTables := do
  guard (node.ownerId.all fun id => (user? lib.school id).isSome)
  guard (node.parentId.all fun id => (node? lib id).isSome)
  guard (node.classroomId.all fun id => (classroom? lib.school id).isSome)
  let nodes ← lib.nodes.insert node
  let files ← lib.files.insert file
  return { lib with nodes, files }

def referenced (s : MaterialStore) (digest : String) : Bool :=
  s.lib.files.rows.any fun f => f.sha256 = digest

/-- The steps that the history of a run records. `pathExists` changes nothing;
for the history it carries what the request is about to store. `writeBlob` leaves
the first `kept` bytes in the file. -/
inductive MaterialStatement where
  | pathExists (digest : String) (bytes : Bytes)
  | writeBlob (digest : String) (bytes : Bytes) (kept : Nat)
  | insertFile (node : NodeRow) (file : FileRow)
  | deleteNodes (ids : List Uuid)
  | removeBlob (digest : String)
  deriving DecidableEq, Repr

def MaterialStatement.run : MaterialStatement → MaterialStore → Except HostError MaterialStore
  | .pathExists _ _, s => .ok s
  | .writeBlob digest bytes kept, s => .ok (s.setBlob digest (some (bytes.take kept)))
  | .insertFile node file, s =>
    .ok { s with lib := (insertMaterial s.lib node file).getD s.lib }
  | .deleteNodes ids, s => .ok { s with lib := Library.deleteNodes s.lib ids }
  | .removeBlob digest, s => .ok (s.setBlob digest none)

instance : Engine MaterialStore MaterialStatement HostError := ⟨MaterialStatement.run⟩

abbrev MaterialProgram := Program MaterialStore MaterialStatement HostError

structure UploadQuery where
  parentId : Option Uuid := none
  classroomId : Option Uuid := none
  shared : Bool := false
  deriving DecidableEq, Repr

/-- Where the write of a blob file ends: after all bytes, or with an error
before the file is there or after so many bytes. -/
inductive WriteOutcome where
  | complete | notOpened | stopped (kept : Nat)
  deriving DecidableEq, Repr

/-- What goes wrong outside the code in one upload. -/
structure UploadFaults where
  createDir : Bool := false
  write : WriteOutcome := .complete
  transaction : Bool := false
  cleanupQuery : Bool := false
  removeFile : Bool := false
  deriving DecidableEq, Repr

/-- A call of `store_material`. `fileStem` is the stem of the name as the
platform reads it. -/
structure Upload where
  env : Env
  user : CurrentUser
  query : UploadQuery
  originalName : String
  fileStem : Option String
  bytes : Bytes
  faults : UploadFaults := {}

def maxUploadBytes : Nat := 32*1024*1024

/-- Identifies a file from its leading bytes. -/
def sniff (bytes : Bytes) : Option String :=
  if List.isPrefixOf [0x25, 0x50, 0x44, 0x46, 0x2D] bytes then some "application/pdf"
  else if List.isPrefixOf [0x89, 0x50, 0x4E, 0x47, 0x0D, 0x0A, 0x1A, 0x0A] bytes then
    some "image/png"
  else if List.isPrefixOf [0xFF, 0xD8, 0xFF] bytes then some "image/jpeg"
  else if List.isPrefixOf [0x47, 0x49, 0x46, 0x38, 0x37, 0x61] bytes ||
      List.isPrefixOf [0x47, 0x49, 0x46, 0x38, 0x39, 0x61] bytes then some "image/gif"
  else if bytes.length > 12 && List.isPrefixOf [0x52, 0x49, 0x46, 0x46] bytes &&
      (bytes.drop 8).take 4 = [0x57, 0x45, 0x42, 0x50] then some "image/webp"
  else none

/-- Turns an uploaded filename into something readable in the tree. -/
def tidyName (fileStem : Option String) : String :=
  let stem := fileStem.getD "Material"
  let trimmed := trim (String.ofList (stem.toList.map fun c =>
    if c = '_' || c = '-' then ' ' else c))
  if trimmed = "" then "Material" else String.ofList (trimmed.toList.take 120)

def requireFolder (user : CurrentUser) (query : UploadQuery) (parent : NodeRow) :
    Except HostError Unit :=
  if parent.kind ≠ .folder then .error (.badRequest "Material can only go inside a folder.")
  else if parent.ownerId ≠ (if query.shared then none else some user.id) ||
      parent.classroomId ≠ query.classroomId then .error .forbidden
  else .ok ()

def authorizeClassroom (user : CurrentUser) : Option Uuid → MaterialProgram Unit
  | none => pure ()
  | some classroomId => do
    let allowed ← Program.query fun s =>
      if user.role.isTeacher then teacherCanAccess s.lib.school classroomId user.id
      else enrolled s.lib.school classroomId user.id
    require (allowed = true) .forbidden

def authorizeParent (user : CurrentUser) (query : UploadQuery) : MaterialProgram Unit :=
  match query.parentId with
  | none => pure ()
  | some parentId => do
    let parent ← queryRow (fun s => node? s.lib parentId) (.notFound "folder")
    ofExcept (requireFolder user query parent)

def authorizeUpload (user : CurrentUser) (query : UploadQuery) : MaterialProgram Unit := do
  require (query.shared = true → user.role.isTeacher = true) .forbidden
  authorizeClassroom user query.classroomId
  authorizeParent user query

/-- The blob file is written if it is not there yet; the answer says whether it
was written. -/
def writeBlob (digest : String) (bytes : Bytes) (faults : UploadFaults) :
    MaterialProgram Bool := do
  let found ← executeReturning (.pathExists digest bytes) fun s => (s.blob? digest).isSome
  if found then pure false
  else do
    require (faults.createDir = false) (.other "creating blob directory")
    match faults.write with
    | .complete => do
      execute (.writeBlob digest bytes bytes.length)
      pure true
    | .notOpened => fail (.other "writing blob")
    | .stopped kept => do
      execute (.writeBlob digest bytes kept)
      fail (.other "writing blob")

def materialNode (u : Upload) : NodeRow where
  id := u.env.uuid 0
  ownerId := if u.query.shared then none else some u.user.id
  parentId := u.query.parentId
  classroomId := u.query.classroomId
  name := tidyName u.fileStem
  kind := .pdf
  position := positionStep
  createdAt := u.env.now 0
  updatedAt := u.env.now 0

def materialFile (u : Upload) (digest mime : String) : FileRow where
  nodeId := u.env.uuid 0
  sha256 := digest
  origName := u.originalName
  bytes := u.bytes.length
  mime := mime
  createdAt := u.env.now 0

/-- The rows of an upload, under a second look at what it may do. -/
def recordMaterial (u : Upload) (digest mime : String) :
    MaterialProgram (Except HostError NodeRow) := do
  let allowed ← (authorizeUpload u.user u.query).outcome
  match allowed with
  | .error e => pure (.error e)
  | .ok () =>
    if u.faults.transaction then pure (.error (.other "database"))
    else do
      let stored ← executeReturning (.insertFile (materialNode u) (materialFile u digest mime))
        fun s => (insertMaterial s.lib (materialNode u) (materialFile u digest mime)).isSome
      pure (if stored then .ok (materialNode u) else .error (.database .constraintViolation))

def removeUnreferenced (digest : String) (removeFails : Bool) : MaterialProgram Unit := do
  let used ← Program.query fun s => referenced s digest
  if used || removeFails then pure () else execute (.removeBlob digest)

/-- A query that fails counts as a reference. -/
def cleanupUnreferencedBlob (digest : String) (faults : UploadFaults) : MaterialProgram Unit :=
  if faults.cleanupQuery then pure () else removeUnreferenced digest faults.removeFile

section Digest
variable (sha256 : Bytes → String)

def tooLarge (n : Nat) : String :=
  "That file is " ++ toString (n/1048576) ++ " MB. The limit is " ++
    toString (maxUploadBytes/1048576) ++ " MB."

def storeMaterial (u : Upload) : MaterialProgram NodeRow := do
  require (u.bytes ≠ []) (.badRequest "That file is empty.")
  require (u.bytes.length ≤ maxUploadBytes) (.badRequest (tooLarge u.bytes.length))
  let mime ← ofExcept ((sniff u.bytes).elim
    (.error (.badRequest "Only PDFs and images (PNG, JPEG, WebP, GIF) can be added.")) .ok)
  authorizeUpload u.user u.query
  let digest := sha256 u.bytes
  let createdBlob ← writeBlob digest u.bytes u.faults
  let result ← recordMaterial u digest mime
  match result with
  | .ok node => pure node
  | .error e => do
    (if createdBlob then cleanupUnreferencedBlob digest u.faults else pure ())
    fail e

/-- The Host console's `empty_trash`. -/
structure TrashCall where
  authorised : Bool := true
  queryFails : Nat → Bool := fun _ => false
  removeFails : Nat → Bool := fun _ => false

def trashedRows (s : MaterialStore) : List (Uuid × String) :=
  (s.lib.files.rows.filter fun f =>
    s.lib.trashedFiles.rows.any fun t => t.nodeId = f.nodeId).map fun f => (f.nodeId, f.sha256)

def removeTrashed (call : TrashCall) : Nat → List String → MaterialProgram Unit
  | _, [] => pure ()
  | n, digest :: rest => do
    require (call.queryFails n = false) (.other "database")
    removeUnreferenced digest (call.removeFails n)
    removeTrashed call (n+1) rest

def emptyTrash (call : TrashCall) : MaterialProgram Nat := do
  require (call.authorised = true) (.other "The Host password is incorrect.")
  let rows ← Program.query trashedRows
  execute (.deleteNodes (rows.map (·.1)))
  removeTrashed call 0 (rows.map (·.2))
  pure rows.length

inductive MaterialRequest where
  | upload (u : Upload)
  | emptyTrash (call : TrashCall)

inductive MaterialReply where
  | node (node : NodeRow)
  | removed (files : Nat)
  deriving DecidableEq, Repr

def handle : MaterialRequest → MaterialProgram MaterialReply
  | .upload u => do
    let node ← storeMaterial sha256 u
    pure (.node node)
  | .emptyTrash call => do
    let files ← Materials.emptyTrash call
    pure (.removed files)

end Digest

abbrev MaterialPool (ι : Type) :=
  Pool ι MaterialRequest MaterialStore MaterialStatement HostError MaterialReply

/-! A file in the trash, and the same content uploaded again, for concrete runs. -/

def sampleSha256 (bytes : Bytes) : String :=
  String.ofList (bytes.map fun b => Char.ofNat b.toNat)

def samplePdf : Bytes := [0x25, 0x50, 0x44, 0x46, 0x2D, 0x31]

def sampleUpload (t : Time) (faults : UploadFaults) : MaterialRequest :=
  .upload { env := sampleEnv t, user := sampleTeacher, query := {}, originalName := "a.pdf"
            fileStem := some "a", bytes := samplePdf, faults }

def sampleTrash : MaterialStore where
  lib :=
    { school := sampleClassroom
      nodes := .single { id := 9, ownerId := some 2, parentId := none, classroomId := none
                         name := "a", kind := .pdf, createdAt := 10, updatedAt := 10 }
      files := .single ⟨9, sampleSha256 samplePdf, "a.pdf", 6, "application/pdf", 10⟩
      trashedFiles := .single ⟨9⟩ }
  blobs path := if path = blobPath (sampleSha256 samplePdf) then some samplePdf else none

end Cinder.Materials
