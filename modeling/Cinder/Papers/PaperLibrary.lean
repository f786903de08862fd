import Cinder.Host.HostValues
import Cinder.Programs.Commands
import Cinder.Storage.UniqueTable
set_option autoImplicit false

/-!
Saved question papers: the Host's table of them, and the teacher app, which copies the
papers of its former local library to the Host when it lists them.
-/

namespace Cinder.Papers
open Cinder.Host Cinder.Programs Cinder.Storage

inductive PaperSourceMode where
  | adapt | excerpt | fullPage
  deriving DecidableEq, Repr

def PaperSourceMode.needsRightsConfirmation : PaperSourceMode → Bool
  | .adapt => false
  | _ => true

structure SaveQuestionPaperInput where
  classroomId : Option String
  title : String
  subject : String
  board : String
  syllabusCode : String
  difficulty : Nat
  sourceMode : PaperSourceMode
  rightsConfirmed : Bool
  spec : Json
  scheme : Json
  sources : Json
  advanced : Json
  deriving DecidableEq, Repr

/-- `origin` is no column: it names the local paper that the row is a copy of. -/
structure QuestionPaperRow where
  id : String
  ownerId : Uuid
  input : SaveQuestionPaperInput
  createdAt : String
  updatedAt : String
  origin : Option String
  deriving DecidableEq, Repr

instance : Keyed QuestionPaperRow where
  clash r r' := r.id = r'.id
  refl r := by simp
  symm r r' := by simp [eq_comm]

abbrev PaperTable := Table QuestionPaperRow

/-- A request as the Host meets it: who sends it, the classrooms open to that teacher, and
the time. -/
structure HostVisit where
  role : Role
  teacherId : Uuid
  canAccess : String → Bool
  now : String

section Host
variable (visit : HostVisit)

def validate (req : SaveQuestionPaperInput) : Except HostError Unit :=
  if trim req.title = "" then .error (.badRequest "Give the paper a title.")
  else if req.sourceMode.needsRightsConfirmation = true ∧ req.rightsConfirmed = false then
    .error (.badRequest ("Confirm your school may reproduce this material before saving exact " ++
      "questions or whole pages."))
  else .ok ()

def requireTeacherAccess : Option String → Except HostError Unit
  | none => .ok ()
  | some classroomId => if visit.canAccess classroomId = true then .ok () else .error .forbidden

def storedInput (req : SaveQuestionPaperInput) : SaveQuestionPaperInput :=
  { req with title := trim req.title, subject := trim req.subject, board := trim req.board
             syllabusCode := trim req.syllabusCode, difficulty := max 1 (min req.difficulty 5) }

def revisePaper (req : SaveQuestionPaperInput) (origin : Option String) (row : QuestionPaperRow) :
    QuestionPaperRow :=
  { row with input := storedInput req, updatedAt := visit.now, origin := origin }

theorem keepsKeys_revisePaper (req : SaveQuestionPaperInput) (origin : Option String) :
    Table.KeepsKeys (revisePaper visit req origin) := fun _ _ => rfl

/-- `INSERT … ON CONFLICT(id) DO UPDATE SET … WHERE owner_id = ?2`, which changes no row if
the id is another teacher's. -/
def upsertPaper (id : String) (req : SaveQuestionPaperInput) (origin : Option String)
    (t : PaperTable) : Except HostError PaperTable :=
  match t.find? fun row => row.id = id with
  | none => stored (t.insert
      ⟨id, visit.teacherId, storedInput req, visit.now, visit.now, origin⟩)
  | some row =>
    if row.ownerId = visit.teacherId then .ok (t.update (fun row => row.id = id)
      (revisePaper visit req origin) (keepsKeys_revisePaper visit req origin))
    else .error (.notFound "question paper")

def getPaper (id : String) : Command PaperTable HostError QuestionPaperRow := do
  Command.require (visit.role.isTeacher = true) .forbidden
  let t ← Command.get
  Command.ofExcept ((t.find? fun row => row.id = id && row.ownerId = visit.teacherId).elim
    (.error (.notFound "question paper")) .ok)

def isHex (c : Char) : Bool := c.isDigit || ('a' ≤ c && c ≤ 'f') || ('A' ≤ c && c ≤ 'F')

/-- The id in the path, a UUID with its four hyphens, in lower case. -/
def pathUuid (raw : String) : Option String :=
  let s := raw.toList
  if s.length = 36 && (List.range 36).all fun i =>
      if [8, 13, 18, 23].contains i then s.getD i ' ' = '-' else isHex (s.getD i ' ') then
    some (lower raw)
  else none

def updatePaper (rawId : String) (req : SaveQuestionPaperInput) (origin : Option String) :
    Command PaperTable HostError QuestionPaperRow := do
  let id ← Command.ofExcept ((pathUuid rawId).elim (.error (.badRequest "Invalid URL")) .ok)
  Command.require (visit.role.isTeacher = true) .forbidden
  Command.ofExcept (validate req)
  Command.ofExcept (requireTeacherAccess visit req.classroomId)
  let t ← Command.get
  let t ← Command.ofExcept (upsertPaper visit id req origin t)
  Command.modify fun _ => t
  getPaper visit id

def listPapers : Command PaperTable HostError (List QuestionPaperRow) := do
  Command.require (visit.role.isTeacher = true) .forbidden
  let t ← Command.get
  pure (t.rows.filter fun row => row.ownerId = visit.teacherId)

end Host

structure SavedQuestionPaper where
  id : String
  title : String
  subject : String
  questionText : String
  questionDocument : Json
  answerKeyText : String
  answerKeyDocument : Json
  sources : Json
  classroomId : Option String
  board : Option String
  syllabusCode : Option String
  difficulty : Option Nat
  sourceMode : Option PaperSourceMode
  rightsConfirmed : Option Bool
  advanced : Option Json
  paperSpec : Option Json
  deriving DecidableEq, Repr

def toInput (paper : SavedQuestionPaper) : SaveQuestionPaperInput where
  classroomId := paper.classroomId
  title := paper.title
  subject := paper.subject
  board := paper.board.getD ""
  syllabusCode := paper.syllabusCode.getD ""
  difficulty := paper.difficulty.getD 3
  sourceMode := paper.sourceMode.getD .adapt
  rightsConfirmed := paper.rightsConfirmed.getD false
  spec := .obj (.cons "paper" (paper.paperSpec.getD .null)
    (.cons "questionDocument" paper.questionDocument
      (.cons "questionText" (.str paper.questionText) .nil)))
  scheme := .obj (.cons "answerKeyDocument" paper.answerKeyDocument
    (.cons "answerKeyText" (.str paper.answerKeyText) .nil))
  sources := paper.sources
  advanced := paper.advanced.getD (.obj .nil)

inductive LocalRecord where
  | paper (p : SavedQuestionPaper)
  | other

def LocalRecord.asPaper : LocalRecord → Option SavedQuestionPaper
  | .paper p => some p
  | .other => none

structure LocalStore where
  records : List LocalRecord
  unique : ((records.filterMap LocalRecord.asPaper).map (·.id)).Nodup

def LocalStore.papers (store : LocalStore) : List SavedQuestionPaper :=
  store.records.filterMap LocalRecord.asPaper

/-- How a request to save a paper fares: it may be lost, or its answer may. -/
inductive SaveFate where
  | lost | unanswered | answered
  deriving DecidableEq, Repr

/-- `marker` is the entry of the local storage that ends the copying. -/
structure PaperWorld where
  marker : Option String
  host : PaperTable

abbrev LibraryCommand (α : Type) := Command PaperWorld HostError α

/-- What one call of the listing meets; the rest is by the id of the local paper. -/
structure ListCall where
  visit : HostVisit
  today : { s : String // s ≠ "" }
  readFails : Bool
  fate : String → SaveFate
  randomUUID : String → String

section App
variable (store : LocalStore) (call : ListCall)

def onHost {α : Type} (p : Command PaperTable HostError α) : LibraryCommand α :=
  p.zoom (·.host) fun w t => { w with host := t }

def noAnswer : HostError := .other "The Host did not answer."

def saveQuestionPaper (id : String) (paper : SavedQuestionPaper) : LibraryCommand Unit :=
  match call.fate paper.id with
  | .lost => Command.fail noAnswer
  | .unanswered => do
    let _ ← (onHost (updatePaper call.visit id (toInput paper) (some paper.id))).outcome
    Command.fail noAnswer
  | .answered => do
    let _ ← onHost (updatePaper call.visit id (toInput paper) (some paper.id))
    pure ()

/-- `/^[0-9a-f-]{36}$/i`. -/
def looksLikeUuid (id : String) : Bool :=
  id.toList.length = 36 && id.toList.all fun c => isHex c || c = '-'

/-- Host ids are UUIDs; the old library used its own id format. -/
def hostId (paper : SavedQuestionPaper) : String :=
  if looksLikeUuid paper.id then paper.id else call.randomUUID paper.id

/-- A paper that cannot be saved does not block the rest. -/
def copyPaper (paper : SavedQuestionPaper) : LibraryCommand Unit := do
  let _ ← (saveQuestionPaper call (hostId call paper) paper).outcome
  pure ()

def setMarker : LibraryCommand Unit :=
  Command.modify fun w => { w with marker := some call.today.1 }

def migrateLocalPapers : LibraryCommand Unit := do
  let w ← Command.get
  if w.marker.any fun value => value ≠ "" then pure ()
  else if call.readFails then setMarker call
  else do
    store.papers.forM (copyPaper call)
    setMarker call

def listSavedQuestionPapers : LibraryCommand (List QuestionPaperRow) := do
  migrateLocalPapers store call
  onHost (listPapers call.visit)

end App

def afterListings (store : LocalStore) (calls : List ListCall) (w : PaperWorld) : PaperWorld :=
  calls.foldl (fun w call => (listSavedQuestionPapers store call w).2) w

end Cinder.Papers
