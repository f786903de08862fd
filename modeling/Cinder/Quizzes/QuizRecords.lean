import Mathlib.Algebra.Order.Ring.Rat
import Cinder.Host.HostAccess
set_option autoImplicit false

namespace Cinder.Quizzes
open Cinder.Host Cinder.Storage Cinder.Programs

structure QuizQuestionInput where
  id : Option Uuid
  kind : QuizQuestionKind
  prompt : String
  options : List String
  canonicalAnswer : Json
  maxPoints : ℚ
  required : Bool
  deriving DecidableEq, Repr

structure SaveQuizRequest where
  classroomId : Uuid
  title : String
  instructions : String
  timeLimitMinutes : Option Nat
  questions : List QuizQuestionInput
  deriving DecidableEq, Repr

structure DeliverQuizRequest where
  kind : QuizDeliveryKind
  liveSessionId : Option Uuid
  opensAt : Option Time
  dueAt : Option Time
  deriving DecidableEq, Repr

structure QuizQuestion where
  id : Uuid
  position : Nat
  kind : QuizQuestionKind
  prompt : String
  options : List String
  canonicalAnswer : Json
  maxPoints : ℚ
  required : Bool
  deriving DecidableEq, Repr

/-- A question as students see it: it has no answer key. -/
structure StudentQuizQuestion where
  id : Uuid
  position : Nat
  kind : QuizQuestionKind
  prompt : String
  options : List String
  maxPoints : ℚ
  required : Bool
  deriving DecidableEq, Repr

structure Quiz where
  id : Uuid
  classroomId : Uuid
  classroomName : String
  title : String
  instructions : String
  timeLimitMinutes : Option Nat
  archived : Bool
  publishedVersion : Option Nat
  questions : List QuizQuestion
  updatedAt : Time
  deriving DecidableEq, Repr

structure QuizDelivery where
  id : Uuid
  quizId : Uuid
  versionId : Uuid
  classroomId : Uuid
  classroomName : String
  title : String
  instructions : String
  kind : QuizDeliveryKind
  timeLimitMinutes : Option Nat
  totalPoints : ℚ
  opensAt : Option Time
  dueAt : Option Time
  resultsReleasedAt : Option Time
  attemptId : Option Uuid
  attemptState : Option String
  deriving DecidableEq, Repr

structure QuizResponse where
  questionId : Uuid
  answer : Json
  points : Option ℚ
  feedback : String
  correct : Option Bool
  canonicalAnswer : Option Json
  deriving DecidableEq, Repr

structure QuizAttempt where
  id : Uuid
  studentId : Uuid
  studentName : String
  delivery : QuizDelivery
  questions : List StudentQuizQuestion
  responses : List QuizResponse
  startedAt : Time
  expiresAt : Option Time
  submittedAt : Option Time
  score : Option ℚ
  maxPoints : ℚ
  manualGradingComplete : Bool
  released : Bool
  serverNow : Time
  deriving DecidableEq, Repr

/-- The writes of the quiz routes, each with the values it is executed with. -/
inductive QuizStatement where
  | createQuiz (quiz : QuizRow) (questions : List QuizQuestionInput) (fresh : Nat → Uuid)
      (entry : QuizAuditRow)
  | updateQuiz (id : Uuid) (req : SaveQuizRequest) (updatedAt : Time) (fresh : Nat → Uuid)
      (entry : QuizAuditRow)
  | archiveQuiz (id : Uuid) (now : Time)
  | publishQuiz (quiz : Quiz) (versionId : Uuid) (fresh : Nat → Uuid) (now : Time)
      (entry : QuizAuditRow)
  | insertDelivery (row : QuizDeliveryRow)
  | insertAttempt (row : QuizAttemptRow)
  | upsertResponse (row : QuizResponseRow)
  | markSubmitted (attempt : Uuid) (now : Time)
  | writeScore (attempt : Uuid) (score : ℚ) (manualMissing : Nat) (now : Time)
  | reopenAttempt (attempt : Uuid) (now : Time) (expires : Option Time)
  | gradeResponse (attempt question : Uuid) (points : ℚ) (feedback : String) (now : Time)
  | releaseResults (delivery : Uuid) (now : Time)
  | audit (entry : QuizAuditRow)

/-- The questions a draft is replaced by. A question that the caller gives no
identifier gets a fresh one. -/
def draftRows (quizId : Uuid) (fresh : Nat → Uuid) (questions : List QuizQuestionInput) :
    List QuizDraftQuestionRow :=
  questions.mapIdx fun position q =>
    { id := q.id.getD (fresh position), quizId, position, kind := q.kind
      prompt := trim q.prompt, options := q.options, canonicalAnswer := q.canonicalAnswer
      maxPoints := q.maxPoints, required := q.required }

def replaceDraftQuestions (t : Table QuizDraftQuestionRow) (quizId : Uuid)
    (fresh : Nat → Uuid) (questions : List QuizQuestionInput) :
    Option (Table QuizDraftQuestionRow) :=
  (t.delete fun r => r.quizId = quizId).insertAll (draftRows quizId fresh questions)

def versionRow (db : Database) (quiz : Quiz) (versionId : Uuid) (now : Time) :
    QuizVersionRow :=
  { id := versionId, quizId := quiz.id
    versionNumber := ((db.quizVersions.rows.filter fun v => v.quizId = quiz.id).map
      fun v => v.versionNumber).foldr max 0 + 1
    title := quiz.title, instructions := quiz.instructions
    timeLimitMinutes := quiz.timeLimitMinutes
    totalPoints := (quiz.questions.map fun q => q.maxPoints).sum, publishedAt := now }

def versionQuestionRows (quiz : Quiz) (versionId : Uuid) (fresh : Nat → Uuid) :
    List QuizVersionQuestionRow :=
  quiz.questions.mapIdx fun i q =>
    { id := fresh i, versionId, position := q.position, kind := q.kind, prompt := q.prompt
      options := q.options, canonicalAnswer := q.canonicalAnswer, maxPoints := q.maxPoints
      required := q.required }

/-! The assignments of the `UPDATE` statements. None touches a key. -/

section Assignments
variable (now : Time)

def editQuiz (req : SaveQuizRequest) (q : QuizRow) : QuizRow :=
  { q with
    classroomId := req.classroomId, title := trim req.title
    instructions := trim req.instructions, timeLimitMinutes := req.timeLimitMinutes
    updatedAt := now }

def archiveRow (q : QuizRow) : QuizRow := { q with archivedAt := some now, updatedAt := now }

def overwriteResponse (new old : QuizResponseRow) : QuizResponseRow :=
  { old with
    answer := new.answer, points := new.points, feedback := "", autoGraded := new.autoGraded
    gradedAt := new.gradedAt, updatedAt := new.updatedAt }

def markAttempt (a : QuizAttemptRow) : QuizAttemptRow := { a with submittedAt := some now }

def scoreAttempt (score : ℚ) (manualMissing : Nat) (a : QuizAttemptRow) : QuizAttemptRow :=
  { a with
    score := some score
    gradedAt := if a.submittedAt.isSome && manualMissing = 0 then some now else none }

def clearAttempt (expires : Option Time) (a : QuizAttemptRow) : QuizAttemptRow :=
  { a with
    submittedAt := none, score := none, gradedAt := none, reopenedAt := some now
    expiresAt := expires }

def markResponse (points : ℚ) (feedback : String) (r : QuizResponseRow) : QuizResponseRow :=
  { r with
    points := some points, feedback, autoGraded := false, gradedAt := some now
    updatedAt := now }

def releaseRow (d : QuizDeliveryRow) : QuizDeliveryRow :=
  { d with resultsReleasedAt := some now }

/-- The columns that the `INSERT` does not name are NULL. -/
def newAttempt (a : QuizAttemptRow) : QuizAttemptRow :=
  { a with submittedAt := none, score := none, gradedAt := none, reopenedAt := none }

def newDelivery (d : QuizDeliveryRow) : QuizDeliveryRow := { d with resultsReleasedAt := none }

theorem editQuiz_keeps (req : SaveQuizRequest) : Table.KeepsKeys (editQuiz now req) :=
  fun _ _ => rfl

theorem archiveRow_keeps : Table.KeepsKeys (archiveRow now) := fun _ _ => rfl

theorem overwriteResponse_keeps (new : QuizResponseRow) :
    Table.KeepsKeys (overwriteResponse new) := fun _ _ => rfl

theorem markAttempt_keeps : Table.KeepsKeys (markAttempt now) := fun _ _ => rfl

theorem scoreAttempt_keeps (score : ℚ) (manualMissing : Nat) :
    Table.KeepsKeys (scoreAttempt now score manualMissing) := fun _ _ => rfl

theorem clearAttempt_keeps (expires : Option Time) :
    Table.KeepsKeys (clearAttempt now expires) := fun _ _ => rfl

theorem markResponse_keeps (points : ℚ) (feedback : String) :
    Table.KeepsKeys (markResponse now points feedback) := fun _ _ => rfl

theorem releaseRow_keeps : Table.KeepsKeys (releaseRow now) := fun _ _ => rfl

end Assignments

def QuizStatement.run : QuizStatement → Database → Except HostError Database
  | .createQuiz quiz questions fresh entry, db => do
    let quizzes ← stored (db.quizzes.insert quiz)
    let drafts ← stored (replaceDraftQuestions db.quizDraftQuestions quiz.id fresh questions)
    .ok { db with
      quizzes, quizDraftQuestions := drafts, quizAuditLog := db.quizAuditLog ++ [entry] }
  | .updateQuiz id req updatedAt fresh entry, db => do
    let drafts ← stored (replaceDraftQuestions db.quizDraftQuestions id fresh req.questions)
    .ok { db with
      quizzes := db.quizzes.update (fun q => q.id = id && q.archivedAt.isNone)
        (editQuiz updatedAt req) (editQuiz_keeps updatedAt req)
      quizDraftQuestions := drafts
      quizAuditLog := db.quizAuditLog ++ [entry] }
  | .archiveQuiz id now, db =>
    .ok { db with
      quizzes := db.quizzes.update (fun q => q.id = id) (archiveRow now) (archiveRow_keeps now) }
  | .publishQuiz quiz versionId fresh now entry, db => do
    let versions ← stored (db.quizVersions.insert (versionRow db quiz versionId now))
    let questions ← stored
      (db.quizVersionQuestions.insertAll (versionQuestionRows quiz versionId fresh))
    .ok { db with
      quizVersions := versions, quizVersionQuestions := questions
      quizAuditLog := db.quizAuditLog ++ [entry] }
  | .insertDelivery row, db => do
    let deliveries ← stored (db.quizDeliveries.insert (newDelivery row))
    .ok { db with quizDeliveries := deliveries }
  | .insertAttempt row, db => do
    let attempts ← stored (db.quizAttempts.insert (newAttempt row))
    .ok { db with quizAttempts := attempts }
  | .upsertResponse row, db => do
    let responses ← stored (db.quizResponses.upsert
      (fun r => r.attemptId = row.attemptId && r.questionId = row.questionId)
      (overwriteResponse row) (overwriteResponse_keeps row) row)
    .ok { db with quizResponses := responses }
  | .markSubmitted attempt now, db =>
    .ok { db with
      quizAttempts := db.quizAttempts.update (fun a => a.id = attempt) (markAttempt now)
        (markAttempt_keeps now) }
  | .writeScore attempt score manualMissing now, db =>
    .ok { db with
      quizAttempts := db.quizAttempts.update (fun a => a.id = attempt)
        (scoreAttempt now score manualMissing) (scoreAttempt_keeps now score manualMissing) }
  | .reopenAttempt attempt now expires, db =>
    .ok { db with
      quizAttempts := db.quizAttempts.update (fun a => a.id = attempt)
        (clearAttempt now expires) (clearAttempt_keeps now expires) }
  | .gradeResponse attempt question points feedback now, db =>
    .ok { db with
      quizResponses := db.quizResponses.update
        (fun r => r.attemptId = attempt && r.questionId = question)
        (markResponse now points feedback) (markResponse_keeps now points feedback) }
  | .releaseResults delivery now, db =>
    .ok { db with
      quizDeliveries := db.quizDeliveries.update (fun d => d.id = delivery)
        (releaseRow now) (releaseRow_keeps now) }
  | .audit entry, db => .ok { db with quizAuditLog := db.quizAuditLog ++ [entry] }

instance : Engine Database QuizStatement HostError := ⟨QuizStatement.run⟩

abbrev QuizProgram := Program Database QuizStatement HostError

end Cinder.Quizzes
