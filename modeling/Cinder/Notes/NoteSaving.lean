import Cinder.Host.HostAccess
import Cinder.Library.LibraryTables
import Cinder.Programs.AnswerPoints
set_option autoImplicit false

/-!
Saving a note under optimistic concurrency: the client sends the `updated_at` it
last saw, and a save over a newer body is refused.
-/

namespace Cinder.Notes
open Cinder.Host Cinder.Storage Cinder.Library Cinder.Programs Cinder.Programs.Program

structure SaveNoteRequest where
  docJson : Json
  plaintext : String
  baseUpdatedAt : Option Time
  deriving DecidableEq, Repr

structure NoteBody where
  docJson : Json
  plaintext : String
  updatedAt : Time
  deriving DecidableEq, Repr

structure NoteStore where
  lib : LibraryTables
  clock : Time

/-- The statements of `save_note`. The `SELECT` and the reading of the clock
are among the writes so that the history of a run records them; for the history
a statement also carries the base of its request. -/
inductive NoteStatement where
  | selectUpdatedAt (note : Uuid) (base : Option Time)
  | utcNow (now : Time)
  | updateNote (note : Uuid) (base : Option Time) (docJson : Json) (plaintext : String)
      (now : Time)
  deriving DecidableEq, Repr

/-! The assignments of the two `UPDATE` statements. -/

def saveBody (docJson : Json) (plaintext : String) (now : Time) (b : NoteBodyRow) : NoteBodyRow :=
  { b with docJson, plaintext, updatedAt := now }

def touchNode (now : Time) (n : NodeRow) : NodeRow := { n with updatedAt := now }

theorem saveBody_keeps (docJson : Json) (plaintext : String) (now : Time) :
    Table.KeepsKeys (saveBody docJson plaintext now) := fun _ _ => rfl

theorem touchNode_keeps (now : Time) : Table.KeepsKeys (touchNode now) := fun _ _ => rfl

def saveNoteTx (lib : LibraryTables) (note : Uuid) (docJson : Json) (plaintext : String)
    (now : Time) : LibraryTables :=
  { updateNoteBodies lib (fun b => b.nodeId = note) (saveBody docJson plaintext now)
      (saveBody_keeps docJson plaintext now) with
    nodes := lib.nodes.update (fun n => n.id = note) (touchNode now) (touchNode_keeps now) }

def NoteStatement.run : NoteStatement → NoteStore → Except HostError NoteStore
  | .selectUpdatedAt _ _, s => .ok s
  | .utcNow now, s => .ok { s with clock := now }
  | .updateNote note _ docJson plaintext now, s =>
    .ok { s with lib := saveNoteTx s.lib note docJson plaintext now }

instance : Engine NoteStore NoteStatement HostError := ⟨NoteStatement.run⟩

abbrev NoteProgram := Program NoteStore NoteStatement HostError

def assertOwned (id owner : Uuid) : NoteProgram Unit := do
  let ownerId ← queryRow (fun s => (node? s.lib id).map (·.ownerId)) (.notFound "note")
  require (ownerId = some owner) .forbidden

/-- A JSON value always serializes, so `save_note` has no error of its own for
the document. -/
def saveNote (env : Env) (user : CurrentUser) (id : Uuid) (req : SaveNoteRequest) :
    NoteProgram NoteBody := do
  assertOwned id user.id
  let current ← executeReturning (.selectUpdatedAt id req.baseUpdatedAt)
    fun s => (noteBody? s.lib id).map (·.updatedAt)
  let current ← ofExcept (current.elim (.error (.notFound "note")) .ok)
  require (∀ base ∈ req.baseUpdatedAt, ¬current > base) .conflict
  let now := env.now 0
  execute (.utcNow now)
  execute (.updateNote id req.baseUpdatedAt req.docJson req.plaintext now)
  return ⟨req.docJson, req.plaintext, now⟩

structure SaveNoteCall where
  env : Env
  user : CurrentUser
  id : Uuid
  req : SaveNoteRequest

def handle (call : SaveNoteCall) : NoteProgram NoteBody :=
  saveNote call.env call.user call.id call.req

abbrev NotePool (ι : Type) := Pool ι SaveNoteCall NoteStore NoteStatement HostError NoteBody

def sampleDocument : Json := .obj (.cons "type" (.str "doc") .nil)

def sampleNotes : NoteStore where
  lib :=
    { school := sampleClassroom
      nodes := .single { id := 7, ownerId := some 1, parentId := none, classroomId := none
                         name := "Light", kind := .note, createdAt := 10, updatedAt := 10 }
      noteBodies := .single ⟨7, sampleDocument, "", 10⟩ }
  clock := 15

def sampleSave (t : Time) (plaintext : String) (base : Option Time) : SaveNoteCall :=
  ⟨sampleEnv t, sampleStudent, 7, ⟨sampleDocument, plaintext, base⟩⟩

end Cinder.Notes
