import Cinder.Quizzes.QuizLoading
set_option autoImplicit false

/-!
The handlers of the quiz routes. A statement outside a transaction commits on
its own, so other requests may run between any two statements of a handler.
-/

namespace Cinder.Quizzes
open Cinder.Host Cinder.Storage Cinder.Programs Cinder.Programs.Program

inductive ResponseColumn where
  | id | attemptId | questionId | answerJson | points | feedback | autoGraded | gradedAt
  | updatedAt
  deriving DecidableEq, Repr

inductive ResponseValue where
  | null
  | uuid (u : Uuid)
  | json (x : Json)
  | real (q : ℚ)
  | text (s : String)
  | bool (b : Bool)
  | time (t : Time)
  deriving DecidableEq, Repr

namespace ResponseValue

def ofReal? (q : Option ℚ) : ResponseValue := q.elim .null .real
def ofTime? (t : Option Time) : ResponseValue := t.elim .null .time

def asUuid : ResponseValue → Option Uuid
  | .uuid u => some u
  | _ => none

def asJson : ResponseValue → Option Json
  | .json x => some x
  | _ => none

def asText : ResponseValue → Option String
  | .text s => some s
  | _ => none

def asBool : ResponseValue → Option Bool
  | .bool b => some b
  | _ => none

def asTime : ResponseValue → Option Time
  | .time t => some t
  | _ => none

/-- A nullable column. -/
def asReal? : ResponseValue → Option (Option ℚ)
  | .null => some none
  | .real q => some (some q)
  | _ => none

def asTime? : ResponseValue → Option (Option Time)
  | .null => some none
  | .time t => some (some t)
  | _ => none

end ResponseValue

def ResponseColumn.notNull : ResponseColumn → Bool
  | .points | .gradedAt => false
  | _ => true

/-- The statement by which `save_response` stores an answer. It is given eight
parameters. Its text gives `updated_at` the placeholder of `graded_at`; the
other reading numbers the placeholders as the columns stand. -/
inductive SaveUpsert where
  | asWritten | asNamed
  deriving DecidableEq, Repr

def SaveUpsert.statement (u : SaveUpsert) : InsertStatement ResponseColumn ResponseValue where
  columns := [(.id, .param 1), (.attemptId, .param 2), (.questionId, .param 3),
    (.answerJson, .param 4), (.points, .param 5), (.feedback, .lit (.text "")),
    (.autoGraded, .param 6), (.gradedAt, .param 7),
    (.updatedAt, match u with
      | .asWritten => .param 7
      | .asNamed => .param 8)]
  notNull := ResponseColumn.notNull

def responseRow (a : List (ResponseColumn × ResponseValue)) : Option QuizResponseRow := do
  let id ← (InsertStatement.valueOf .null a .id).asUuid
  let attemptId ← (InsertStatement.valueOf .null a .attemptId).asUuid
  let questionId ← (InsertStatement.valueOf .null a .questionId).asUuid
  let answer ← (InsertStatement.valueOf .null a .answerJson).asJson
  let points ← (InsertStatement.valueOf .null a .points).asReal?
  let feedback ← (InsertStatement.valueOf .null a .feedback).asText
  let autoGraded ← (InsertStatement.valueOf .null a .autoGraded).asBool
  let gradedAt ← (InsertStatement.valueOf .null a .gradedAt).asTime?
  let updatedAt ← (InsertStatement.valueOf .null a .updatedAt).asTime
  some { id, attemptId, questionId, answer, points, feedback, autoGraded, gradedAt, updatedAt }

/-- The parameters of `save_response`, in its order. -/
def saveParams (rowId attempt question : Uuid) (answer : Json) (grading : Option ℚ × Bool)
    (now : Time) : List ResponseValue :=
  [.uuid rowId, .uuid attempt, .uuid question, .json answer, .ofReal? grading.1,
    .bool grading.2, .ofTime? (if grading.2 then some now else none), .time now]

@[irreducible] def bindResponse (u : SaveUpsert) (params : List ResponseValue) :
    Except HostError QuizResponseRow :=
  match u.statement.bind .null params with
  | .error e => .error (.database e)
  | .ok a => stored (responseRow a)

theorem bindResponse_asWritten (rowId attempt question : Uuid) (answer : Json)
    (grading : Option ℚ × Bool) (now : Time) :
    bindResponse .asWritten (saveParams rowId attempt question answer grading now) =
      .error (.database (.invalidParameterCount 8 7)) := by
  have h : (saveParams rowId attempt question answer grading now).length ≠
      SaveUpsert.asWritten.statement.parameterCount := by
    simp [saveParams, SaveUpsert.statement, InsertStatement.parameterCount, SqlExpr.index]
  rw [bindResponse, InsertStatement.bind_count_error h]
  rfl

def savedRow (rowId attempt question : Uuid) (answer : Json) (grading : Option ℚ × Bool)
    (now : Time) : QuizResponseRow :=
  { id := rowId, attemptId := attempt, questionId := question, answer, points := grading.1
    feedback := "", autoGraded := grading.2
    gradedAt := if grading.2 then some now else none, updatedAt := now }

theorem bindResponse_asNamed (rowId attempt question : Uuid) (answer : Json)
    (grading : Option ℚ × Bool) (now : Time) :
    bindResponse .asNamed (saveParams rowId attempt question answer grading now) =
      .ok (savedRow rowId attempt question answer grading now) := by
  obtain ⟨points, auto⟩ := grading
  let params := saveParams rowId attempt question answer (points, auto) now
  have hcount : params.length = SaveUpsert.asNamed.statement.parameterCount := by
    simp [params, saveParams, SaveUpsert.statement, InsertStatement.parameterCount, SqlExpr.index]
  have hbind := InsertStatement.bind_ok hcount (show ∀ a ∈
      SaveUpsert.asNamed.statement.assignment ResponseValue.null params, _ from by
    simp [params, saveParams, SaveUpsert.statement, InsertStatement.assignment, SqlExpr.value,
      ResponseColumn.notNull])
  rw [bindResponse, hbind]
  cases points <;> cases auto <;> rfl

section Handlers
variable (env : Env)

/-- The row that `audit` inserts. -/
def auditEntry (actor : Uuid) (action : String) (quiz delivery attempt : Option Uuid)
    (now : Time) : QuizAuditRow :=
  { actorId := actor, action, quizId := quiz, deliveryId := delivery, attemptId := attempt
    createdAt := now }

def getQuiz (teacher : CurrentUser) (id : Uuid) : QuizProgram Quiz := do
  requireTeacher teacher
  let quiz ← loadQuiz id
  requireTeacherAccess quiz.classroomId teacher.id
  pure quiz

def createQuiz (teacher : CurrentUser) (req : SaveQuizRequest) : QuizProgram Quiz := do
  requireTeacher teacher
  ofExcept (validateQuiz req)
  requireTeacherAccess req.classroomId teacher.id
  execute (.createQuiz
    { id := env.uuid 0, classroomId := req.classroomId, title := trim req.title
      instructions := trim req.instructions, timeLimitMinutes := req.timeLimitMinutes
      createdBy := teacher.id, createdAt := env.now 0, updatedAt := env.now 0 }
    req.questions (fun i => env.uuid (i+1))
    (auditEntry teacher.id "quiz_created" (some (env.uuid 0)) none none (env.now 1)))
  loadQuiz (env.uuid 0)

/-- A quiz moves only to a classroom its teacher has access to. -/
def requireMove (teacher : CurrentUser) (old new : Uuid) : QuizProgram Unit :=
  if old ≠ new then requireTeacherAccess new teacher.id else pure ()

def updateQuiz (teacher : CurrentUser) (id : Uuid) (req : SaveQuizRequest) :
    QuizProgram Quiz := do
  requireTeacher teacher
  ofExcept (validateQuiz req)
  let old ← loadQuiz id
  requireActiveQuiz old
  requireTeacherAccess old.classroomId teacher.id
  requireMove teacher old.classroomId req.classroomId
  execute (.updateQuiz id req (env.now 0) env.uuid
    (auditEntry teacher.id "quiz_updated" (some id) none none (env.now 1)))
  loadQuiz id

def archiveQuiz (teacher : CurrentUser) (id : Uuid) : QuizProgram Unit := do
  requireTeacher teacher
  let q ← loadQuiz id
  requireTeacherAccess q.classroomId teacher.id
  execute (.archiveQuiz id (env.now 0))
  execute (.audit (auditEntry teacher.id "quiz_archived" (some id) none none (env.now 1)))

def duplicateQuiz (teacher : CurrentUser) (id : Uuid) : QuizProgram Quiz := do
  requireTeacher teacher
  let source ← loadQuiz id
  requireActiveQuiz source
  requireTeacherAccess source.classroomId teacher.id
  execute (.createQuiz
    { id := env.uuid 0, classroomId := source.classroomId, title := source.title ++ " copy"
      instructions := source.instructions, timeLimitMinutes := source.timeLimitMinutes
      createdBy := teacher.id, createdAt := env.now 0, updatedAt := env.now 0 }
    (source.questions.map fun q =>
      { id := none, kind := q.kind, prompt := q.prompt, options := q.options
        canonicalAnswer := q.canonicalAnswer, maxPoints := q.maxPoints, required := q.required })
    (fun i => env.uuid (i+1))
    (auditEntry teacher.id "quiz_duplicated" (some (env.uuid 0)) none none (env.now 1)))
  loadQuiz (env.uuid 0)

/-- The stored draft as a request, to be validated again. -/
def draftRequest (quiz : Quiz) : SaveQuizRequest :=
  { classroomId := quiz.classroomId, title := quiz.title, instructions := quiz.instructions
    timeLimitMinutes := quiz.timeLimitMinutes
    questions := quiz.questions.map fun q =>
      { id := some q.id, kind := q.kind, prompt := q.prompt, options := q.options
        canonicalAnswer := q.canonicalAnswer, maxPoints := q.maxPoints, required := q.required } }

def publishQuiz (teacher : CurrentUser) (id : Uuid) : QuizProgram Quiz := do
  requireTeacher teacher
  let quiz ← loadQuiz id
  requireActiveQuiz quiz
  requireTeacherAccess quiz.classroomId teacher.id
  ofExcept (validateQuiz (draftRequest quiz))
  execute (.publishQuiz quiz (env.uuid 0) (fun i => env.uuid (i+1)) (env.now 0)
    (auditEntry teacher.id "quiz_published" (some id) none none (env.now 1)))
  loadQuiz id

def latestVersion (db : Database) (quizId : Uuid) : Option Uuid :=
  ((db.quizVersions.rows.filter fun v => v.quizId = quizId).insertionSort
    fun v v' => v'.versionNumber ≤ v.versionNumber).head?.map fun v => v.id

/-- A live delivery names an active session of the classroom, homework none. -/
def requireLiveSession (req : DeliverQuizRequest) (classroomId : Uuid) (now : Time) :
    QuizProgram Unit :=
  match req.kind, req.liveSessionId with
  | .live, none => .fail (.badRequest "Choose an active live session.")
  | .live, some live => do
    let valid ← query fun db : Database => db.liveModuleSessions.rows.any fun s =>
      s.id = live && s.classroomId = classroomId && s.endedAt.isNone && now < s.endsAt
    require (valid = true) (.badRequest "The live session is not active in this classroom.")
  | .homework, none => pure ()
  | .homework, some _ => .fail (.badRequest "Homework cannot reference a live session.")

def deliverQuiz (teacher : CurrentUser) (id : Uuid) (req : DeliverQuizRequest) :
    QuizProgram QuizDelivery := do
  requireTeacher teacher
  let quiz ← loadQuiz id
  requireActiveQuiz quiz
  requireTeacherAccess quiz.classroomId teacher.id
  require (∀ due ∈ req.dueAt, ∀ opens ∈ req.opensAt, opens < due)
    (.badRequest "Due time must be after opening time.")
  let versionId ← queryRow (fun db => latestVersion db id)
    (.badRequest "Publish the quiz before assigning it.")
  requireLiveSession req quiz.classroomId (env.now 0)
  let assignedCount ← query fun db =>
    db.classroomEnrolments.rows.countP fun e => e.classroomId = quiz.classroomId
  execute (.insertDelivery
    { id := env.uuid 0, versionId, classroomId := quiz.classroomId, kind := req.kind
      liveSessionId := req.liveSessionId, opensAt := req.opensAt, dueAt := req.dueAt
      createdBy := teacher.id, createdAt := env.now 1, assignedCount := some assignedCount })
  execute (.audit
    (auditEntry teacher.id "quiz_delivered" (some id) (some (env.uuid 0)) none (env.now 2)))
  loadDelivery (env.uuid 0) none

/-- The deliveries of the caller's classrooms, the newest first. -/
def listedDeliveries (db : Database) (user : CurrentUser) (classroomId : Option Uuid) :
    List Uuid :=
  ((db.quizDeliveries.rows.filter fun d =>
    classroomId.all (fun cid => d.classroomId = cid) &&
      if user.role.isTeacher then
        (db.classrooms.rows.any fun c => c.id = d.classroomId && c.ownerTeacherId = user.id) ||
        db.classroomTeachers.rows.any fun ct =>
          ct.classroomId = d.classroomId && ct.teacherId = user.id
      else enrolled db d.classroomId user.id).insertionSort
    fun d d' => d'.createdAt ≤ d.createdAt).map fun d => d.id

def loadDeliveries (student : Option Uuid) : List Uuid → QuizProgram (List QuizDelivery)
  | [] => pure []
  | id :: ids => do
    let delivery ← loadDelivery id student
    let deliveries ← loadDeliveries student ids
    pure (delivery :: deliveries)

def requireListed (user : CurrentUser) : Option Uuid → QuizProgram Unit
  | some cid => if user.role.isTeacher then requireTeacherAccess cid user.id else pure ()
  | none => pure ()

def listDeliveries (user : CurrentUser) (classroomId : Option Uuid) :
    QuizProgram (List QuizDelivery) := do
  requireListed user classroomId
  let ids ← query fun db => listedDeliveries db user classroomId
  loadDeliveries (if user.role.isTeacher then none else some user.id) ids

/-- The earliest of the limits that apply. -/
def expiry (now : Time) (timeLimitMinutes : Option Nat) (dueAt liveEnd : Option Time) :
    Option Time :=
  ([timeLimitMinutes.map fun m => now+minutes m, dueAt, liveEnd].filterMap fun t => t).min?

def startAttempt (student : CurrentUser) (id : Uuid) : QuizProgram QuizAttempt := do
  requireStudent student
  let delivery ← loadDelivery id (some student.id)
  require (delivery.resultsReleasedAt = none) .conflict
  let enrolled ← query fun db => enrolled db delivery.classroomId student.id
  require (enrolled = true) .forbidden
  require ((∀ t ∈ delivery.opensAt, t ≤ env.now 0) ∧ ∀ t ∈ delivery.dueAt, env.now 0 < t)
    .conflict
  let liveEnd ← activeLiveDeadline id student.id (env.now 0)
  let existing ← query fun db => db.quizAttempts.find? fun a =>
    a.deliveryId = id && a.studentId = student.id
  match existing with
  | some a => loadAttempt a.id student false (env.now 1)
  | none => do
    execute (.insertAttempt
      { id := env.uuid 0, deliveryId := id, studentId := student.id, startedAt := env.now 0
        expiresAt := expiry (env.now 0) delivery.timeLimitMinutes delivery.dueAt liveEnd
        maxPoints := delivery.totalPoints })
    loadAttempt (env.uuid 0) student false (env.now 1)

def getAttempt (user : CurrentUser) (id : Uuid) : QuizProgram QuizAttempt :=
  loadAttempt id user user.role.isTeacher (env.now 0)

def loadAttempts (teacher : CurrentUser) (serverNow : Nat → Time) :
    List Uuid → QuizProgram (List QuizAttempt)
  | [] => pure []
  | id :: ids => do
    let attempt ← loadAttempt id teacher true (serverNow ids.length)
    let attempts ← loadAttempts teacher serverNow ids
    pure (attempt :: attempts)

def listAttempts (teacher : CurrentUser) (id : Uuid) : QuizProgram (List QuizAttempt) := do
  requireTeacher teacher
  let classroom ← deliveryClassroom id
  requireTeacherAccess classroom teacher.id
  let ids ← query fun db =>
    ((db.quizAttempts.rows.filter fun a => a.deliveryId = id).insertionSort
      fun a a' => a.startedAt ≤ a'.startedAt).map fun a => a.id
  loadAttempts teacher env.now ids

def saveResponse (u : SaveUpsert) (student : CurrentUser) (id questionId : Uuid)
    (answer : Json) : QuizProgram QuizResponse := do
  requireStudent student
  ensureAttemptWritable id student.id (env.now 0)
  let key ← questionKey id questionId
  let row ← ofExcept (bindResponse u (saveParams (env.uuid 0) id questionId answer
    (objectivePoints key.1 key.2.1 answer key.2.2) (env.now 1)))
  execute (.upsertResponse row)
  loadResponse id questionId false

def submitAttempt (student : CurrentUser) (id : Uuid) : QuizProgram QuizAttempt := do
  requireStudent student
  ensureAttemptWritable id student.id (env.now 0)
  let missing ← query fun db => missingRequired db id
  require (missing = 0)
    (.badRequest s!"Answer all required questions ({missing} remaining).")
  execute (.markSubmitted id (env.now 1))
  recalculateAttempt id (env.now 2)
  loadAttempt id student false (env.now 3)

def reopenAttempt (teacher : CurrentUser) (id : Uuid) : QuizProgram QuizAttempt := do
  requireTeacher teacher
  let classroom ← attemptClassroom id
  requireTeacherAccess classroom teacher.id
  let (a, d, v) ← queryRow (fun db => do
    let (a, d) ← attemptDelivery? db id
    let v ← version? db d.versionId
    some (a, d, v)) (.database .queryReturnedNoRows)
  require (d.resultsReleasedAt = none) .conflict
  let liveEnd ← activeLiveDeadline d.id a.studentId (env.now 0)
  execute (.reopenAttempt id (env.now 0)
    (expiry (env.now 0) v.timeLimitMinutes d.dueAt liveEnd))
  execute (.audit
    (auditEntry teacher.id "attempt_reopened" none none (some id) (env.now 1)))
  loadAttempt id teacher true (env.now 2)

def gradeResponse (teacher : CurrentUser) (id qid : Uuid) (points : ℚ) (feedback : String) :
    QuizProgram QuizAttempt := do
  requireTeacher teacher
  let classroom ← attemptClassroom id
  requireTeacherAccess classroom teacher.id
  let (kind, _, max) ← questionKey id qid
  require (kind = .shortAnswer) (.badRequest "Only short answers require manual grading.")
  require (0 ≤ points ∧ points ≤ max)
    (.badRequest s!"Points must be between 0 and {showPoints max}.")
  let changed ← executeReturning
    (.gradeResponse id qid points (trim feedback) (env.now 0))
    fun db => (response? db id qid).isSome
  require (changed = true) (.notFound "quiz response")
  recalculateAttempt id (env.now 1)
  execute (.audit
    (auditEntry teacher.id "response_graded" none none (some id) (env.now 2)))
  loadAttempt id teacher true (env.now 3)

def releaseResults (teacher : CurrentUser) (id : Uuid) : QuizProgram QuizDelivery := do
  requireTeacher teacher
  let classroom ← deliveryClassroom id
  requireTeacherAccess classroom teacher.id
  let incomplete ← query fun db => incomplete db id
  require (incomplete = 0)
    (.badRequest s!"{incomplete} submitted attempt(s) still require grading.")
  execute (.releaseResults id (env.now 0))
  execute (.audit
    (auditEntry teacher.id "results_released" none (some id) none (env.now 1)))
  loadDelivery id none

end Handlers

theorem loadAttempts_readOnly (teacher : CurrentUser) (serverNow : Nat → Time)
    (ids : List Uuid) : (loadAttempts teacher serverNow ids).ReadOnly := by
  induction ids with
  | nil => trivial
  | cons id ids ih =>
    exact (loadAttempt_readOnly _ _ _ _).bind fun _ => ih.bind fun _ => trivial

theorem loadDeliveries_readOnly (student : Option Uuid) (ids : List Uuid) :
    (loadDeliveries student ids).ReadOnly := by
  induction ids with
  | nil => trivial
  | cons id ids ih => exact (loadDelivery_readOnly _ _).bind fun _ => ih.bind fun _ => trivial

theorem requireListed_readOnly (user : CurrentUser) (classroomId : Option Uuid) :
    (requireListed user classroomId).ReadOnly := by
  cases classroomId with
  | none => trivial
  | some cid =>
    unfold requireListed
    cases user.role.isTeacher with
    | true => exact requireTeacherAccess_readOnly _ _
    | false => trivial

theorem listDeliveries_readOnly (user : CurrentUser) (classroomId : Option Uuid) :
    (listDeliveries user classroomId).ReadOnly :=
  (requireListed_readOnly _ _).bind fun _ => (readOnly_query _).bind fun _ =>
    loadDeliveries_readOnly _ _

theorem listAttempts_readOnly (env : Env) (teacher : CurrentUser) (id : Uuid) :
    (listAttempts env teacher id).ReadOnly :=
  (requireTeacher_readOnly _).bind fun _ => (deliveryClassroom_readOnly _).bind fun _ =>
    (requireTeacherAccess_readOnly _ _).bind fun _ => (readOnly_query _).bind fun _ =>
      loadAttempts_readOnly _ _ _

theorem getQuiz_readOnly (teacher : CurrentUser) (id : Uuid) : (getQuiz teacher id).ReadOnly :=
  (requireTeacher_readOnly _).bind fun _ => (loadQuiz_readOnly _).bind fun _ =>
    (requireTeacherAccess_readOnly _ _).bind fun _ => trivial

theorem requireLiveSession_readOnly (req : DeliverQuizRequest) (classroomId : Uuid)
    (now : Time) : (requireLiveSession req classroomId now).ReadOnly := by
  unfold requireLiveSession
  split
  · trivial
  · exact (readOnly_query _).bind fun _ => readOnly_require _ _
  · trivial
  · trivial

section Writes
variable (env : Env) (user : CurrentUser) (id : Uuid) {c : QuizStatement → Prop}

attribute [local irreducible] WritesOnly in
theorem createQuiz_validated (req : SaveQuizRequest)
    (hcreate : validateQuiz req = .ok () → ∀ quiz fresh entry, quiz.title = trim req.title →
      quiz.timeLimitMinutes = req.timeLimitMinutes → entry.action = "quiz_created" →
      c (.createQuiz quiz req.questions fresh entry)) :
    (createQuiz env user req).WritesOnly c := by
  refine (requireTeacher_readOnly _).writesOnly.bind fun _ => ?_
  refine writesOnly_ofExcept_bind fun _ hvalid => ?_
  refine (requireTeacherAccess_readOnly _ _).writesOnly.bind fun _ => ?_
  refine (writesOnly_execute (hcreate hvalid _ _ _ rfl rfl rfl)).bind fun _ => ?_
  exact (loadQuiz_readOnly _).writesOnly

theorem createQuiz_writes (req : SaveQuizRequest)
    (hcreate : ∀ quiz questions fresh entry, c (.createQuiz quiz questions fresh entry)) :
    (createQuiz env user req).WritesOnly c :=
  createQuiz_validated env user req fun _ quiz fresh entry _ _ _ => hcreate quiz _ fresh entry

theorem requireMove_readOnly (old new : Uuid) : (requireMove user old new).ReadOnly := by
  unfold requireMove
  split
  · exact requireTeacherAccess_readOnly _ _
  · trivial

attribute [local irreducible] WritesOnly in
theorem updateQuiz_validated (req : SaveQuizRequest)
    (hupdate : validateQuiz req = .ok () → ∀ id updatedAt fresh entry,
      c (.updateQuiz id req updatedAt fresh entry)) : (updateQuiz env user id req).WritesOnly c := by
  refine (requireTeacher_readOnly _).writesOnly.bind fun _ => ?_
  refine writesOnly_ofExcept_bind fun _ hvalid => ?_
  refine (loadQuiz_readOnly _).writesOnly.bind fun old => ?_
  refine (requireActiveQuiz_readOnly _).writesOnly.bind fun _ => ?_
  refine (requireTeacherAccess_readOnly _ _).writesOnly.bind fun _ => ?_
  refine (requireMove_readOnly _ _ _).writesOnly.bind fun _ => ?_
  refine (writesOnly_execute (hupdate hvalid _ _ _ _)).bind fun _ => ?_
  exact (loadQuiz_readOnly _).writesOnly

theorem updateQuiz_writes (req : SaveQuizRequest)
    (hupdate : ∀ id req updatedAt fresh entry, c (.updateQuiz id req updatedAt fresh entry)) :
    (updateQuiz env user id req).WritesOnly c :=
  updateQuiz_validated env user id req fun _ id => hupdate id req

theorem archiveQuiz_writes (harchive : ∀ id now, c (.archiveQuiz id now))
    (haudit : ∀ entry, c (.audit entry)) : (archiveQuiz env user id).WritesOnly c := by
  refine (requireTeacher_readOnly _).writesOnly.bind fun _ => ?_
  refine (loadQuiz_readOnly _).writesOnly.bind fun q => ?_
  refine (requireTeacherAccess_readOnly _ _).writesOnly.bind fun _ => ?_
  exact (writesOnly_execute (harchive _ _)).bind fun _ => writesOnly_execute (haudit _)

theorem duplicateQuiz_copies
    (hcreate : ∀ quiz questions fresh entry, (∃ title, quiz.title = title ++ " copy") →
      c (.createQuiz quiz questions fresh entry)) : (duplicateQuiz env user id).WritesOnly c := by
  refine (requireTeacher_readOnly _).writesOnly.bind fun _ => ?_
  refine (loadQuiz_readOnly _).writesOnly.bind fun source => ?_
  refine (requireActiveQuiz_readOnly _).writesOnly.bind fun _ => ?_
  refine (requireTeacherAccess_readOnly _ _).writesOnly.bind fun _ => ?_
  refine (writesOnly_execute (hcreate _ _ _ _ ⟨source.title, rfl⟩)).bind fun _ => ?_
  exact (loadQuiz_readOnly _).writesOnly

theorem duplicateQuiz_writes
    (hcreate : ∀ quiz questions fresh entry, c (.createQuiz quiz questions fresh entry)) :
    (duplicateQuiz env user id).WritesOnly c :=
  duplicateQuiz_copies env user id fun quiz questions fresh entry _ =>
    hcreate quiz questions fresh entry

attribute [local irreducible] WritesOnly in
theorem publishQuiz_validated
    (hpublish : ∀ quiz, validateQuiz (draftRequest quiz) = .ok () → ∀ versionId fresh now entry,
      c (.publishQuiz quiz versionId fresh now entry)) : (publishQuiz env user id).WritesOnly c := by
  refine (requireTeacher_readOnly _).writesOnly.bind fun _ => ?_
  refine (loadQuiz_readOnly _).writesOnly.bind fun quiz => ?_
  refine (requireActiveQuiz_readOnly _).writesOnly.bind fun _ => ?_
  refine (requireTeacherAccess_readOnly _ _).writesOnly.bind fun _ => ?_
  refine writesOnly_ofExcept_bind fun _ hvalid => ?_
  refine (writesOnly_execute (hpublish quiz hvalid _ _ _ _)).bind fun _ => ?_
  exact (loadQuiz_readOnly _).writesOnly

theorem publishQuiz_writes
    (hpublish : ∀ quiz versionId fresh now entry, c (.publishQuiz quiz versionId fresh now entry)) :
    (publishQuiz env user id).WritesOnly c :=
  publishQuiz_validated env user id fun quiz _ => hpublish quiz

theorem startAttempt_writes (hinsert : ∀ row, c (.insertAttempt row)) :
    (startAttempt env user id).WritesOnly c := by
  refine (requireStudent_readOnly _).writesOnly.bind fun _ => ?_
  refine (loadDelivery_readOnly _ _).writesOnly.bind fun delivery => ?_
  refine (readOnly_require _ _).writesOnly.bind fun _ => ?_
  refine (readOnly_query _).writesOnly.bind fun enrolled => ?_
  refine (readOnly_require _ _).writesOnly.bind fun _ => ?_
  refine (readOnly_require _ _).writesOnly.bind fun _ => ?_
  refine (activeLiveDeadline_readOnly _ _ _).writesOnly.bind fun liveEnd => ?_
  refine (readOnly_query _).writesOnly.bind fun existing => ?_
  cases existing with
  | some a => exact (loadAttempt_readOnly _ _ _ _).writesOnly
  | none =>
    exact (writesOnly_execute (hinsert _)).bind fun _ => (loadAttempt_readOnly _ _ _ _).writesOnly

theorem reopenAttempt_writes (hreopen : ∀ id now expires, c (.reopenAttempt id now expires))
    (haudit : ∀ entry, c (.audit entry)) : (reopenAttempt env user id).WritesOnly c := by
  refine (requireTeacher_readOnly _).writesOnly.bind fun _ => ?_
  refine (attemptClassroom_readOnly _).writesOnly.bind fun classroom => ?_
  refine (requireTeacherAccess_readOnly _ _).writesOnly.bind fun _ => ?_
  refine (readOnly_queryRow _ _).writesOnly.bind fun row => ?_
  obtain ⟨a, d, v⟩ := row
  refine (readOnly_require _ _).writesOnly.bind fun _ => ?_
  refine (activeLiveDeadline_readOnly _ _ _).writesOnly.bind fun liveEnd => ?_
  refine (writesOnly_execute (hreopen _ _ _)).bind fun _ => ?_
  exact (writesOnly_execute (haudit _)).bind fun _ => (loadAttempt_readOnly _ _ _ _).writesOnly

def Ordinary : QuizStatement → Prop
  | .createQuiz .. | .updateQuiz .. | .archiveQuiz .. | .publishQuiz .. | .insertAttempt _
  | .reopenAttempt .. => False
  | _ => True

theorem deliverQuiz_writes (req : DeliverQuizRequest) (hinsert : ∀ row, c (.insertDelivery row))
    (haudit : ∀ entry, c (.audit entry)) : (deliverQuiz env user id req).WritesOnly c := by
  refine (requireTeacher_readOnly _).writesOnly.bind fun _ => ?_
  refine (loadQuiz_readOnly _).writesOnly.bind fun quiz => ?_
  refine (requireActiveQuiz_readOnly _).writesOnly.bind fun _ => ?_
  refine (requireTeacherAccess_readOnly _ _).writesOnly.bind fun _ => ?_
  refine (readOnly_require _ _).writesOnly.bind fun _ => ?_
  refine (readOnly_queryRow _ _).writesOnly.bind fun versionId => ?_
  refine (requireLiveSession_readOnly _ _ _).writesOnly.bind fun _ => ?_
  refine (readOnly_query _).writesOnly.bind fun assigned => ?_
  refine (writesOnly_execute (hinsert _)).bind fun _ => ?_
  exact (writesOnly_execute (haudit _)).bind fun _ => (loadDelivery_readOnly _ _).writesOnly

theorem saveResponse_writes (u : SaveUpsert) (question : Uuid) (answer : Json)
    (hupsert : ∀ row, c (.upsertResponse row)) :
    (saveResponse env u user id question answer).WritesOnly c := by
  refine (requireStudent_readOnly _).writesOnly.bind fun _ => ?_
  refine (ensureAttemptWritable_readOnly _ _ _).writesOnly.bind fun _ => ?_
  refine (questionKey_readOnly _ _).writesOnly.bind fun key => ?_
  refine (readOnly_ofExcept _).writesOnly.bind fun row => ?_
  exact (writesOnly_execute (hupsert _)).bind fun _ => (loadResponse_readOnly _ _ _).writesOnly

theorem recalculateAttempt_writes
    (hscore : ∀ id score missing now, c (.writeScore id score missing now)) (now : Time) :
    (recalculateAttempt id now).WritesOnly c :=
  (readOnly_query _).writesOnly.bind fun _ => (readOnly_query _).writesOnly.bind fun _ =>
    writesOnly_execute (hscore _ _ _ _)

theorem submitAttempt_writes (hmark : ∀ id now, c (.markSubmitted id now))
    (hscore : ∀ id score missing now, c (.writeScore id score missing now)) :
    (submitAttempt env user id).WritesOnly c := by
  refine (requireStudent_readOnly _).writesOnly.bind fun _ => ?_
  refine (ensureAttemptWritable_readOnly _ _ _).writesOnly.bind fun _ => ?_
  refine (readOnly_query _).writesOnly.bind fun missing => ?_
  refine (readOnly_require _ _).writesOnly.bind fun _ => ?_
  refine (writesOnly_execute (hmark _ _)).bind fun _ => ?_
  exact (recalculateAttempt_writes id hscore _).bind fun _ =>
    (loadAttempt_readOnly _ _ _ _).writesOnly

theorem gradeResponse_writes (question : Uuid) (points : ℚ) (feedback : String)
    (hgrade : ∀ id question points feedback now, c (.gradeResponse id question points feedback now))
    (hscore : ∀ id score missing now, c (.writeScore id score missing now))
    (haudit : ∀ entry, c (.audit entry)) :
    (gradeResponse env user id question points feedback).WritesOnly c := by
  refine (requireTeacher_readOnly _).writesOnly.bind fun _ => ?_
  refine (attemptClassroom_readOnly _).writesOnly.bind fun _ => ?_
  refine (requireTeacherAccess_readOnly _ _).writesOnly.bind fun _ => ?_
  refine (questionKey_readOnly _ _).writesOnly.bind fun key => ?_
  refine (readOnly_require _ _).writesOnly.bind fun _ => ?_
  refine (readOnly_require _ _).writesOnly.bind fun _ => ?_
  refine (writesOnly_executeReturning _ (hgrade _ _ _ _ _)).bind fun changed => ?_
  refine (readOnly_require _ _).writesOnly.bind fun _ => ?_
  refine (recalculateAttempt_writes id hscore _).bind fun _ => ?_
  exact (writesOnly_execute (haudit _)).bind fun _ => (loadAttempt_readOnly _ _ _ _).writesOnly

theorem releaseResults_writes (hrelease : ∀ id now, c (.releaseResults id now))
    (haudit : ∀ entry, c (.audit entry)) : (releaseResults env user id).WritesOnly c := by
  refine (requireTeacher_readOnly _).writesOnly.bind fun _ => ?_
  refine (deliveryClassroom_readOnly _).writesOnly.bind fun _ => ?_
  refine (requireTeacherAccess_readOnly _ _).writesOnly.bind fun _ => ?_
  refine (readOnly_query _).writesOnly.bind fun _ => ?_
  refine (readOnly_require _ _).writesOnly.bind fun _ => ?_
  refine (writesOnly_execute (hrelease _ _)).bind fun _ => ?_
  exact (writesOnly_execute (haudit _)).bind fun _ => (loadDelivery_readOnly _ _).writesOnly

end Writes

inductive QuizRequest where
  | get (id : Uuid)
  | create (req : SaveQuizRequest)
  | update (id : Uuid) (req : SaveQuizRequest)
  | archive (id : Uuid)
  | duplicate (id : Uuid)
  | publish (id : Uuid)
  | deliver (id : Uuid) (req : DeliverQuizRequest)
  | listDeliveries (classroomId : Option Uuid)
  | start (delivery : Uuid)
  | getAttempt (id : Uuid)
  | listAttempts (delivery : Uuid)
  | save (attempt question : Uuid) (answer : Json)
  | submit (attempt : Uuid)
  | reopen (attempt : Uuid)
  | grade (attempt question : Uuid) (points : ℚ) (feedback : String)
  | release (delivery : Uuid)

/-- A request with its caller and its readings of the clock and of fresh ids. -/
structure QuizCall where
  env : Env
  user : CurrentUser
  request : QuizRequest

inductive QuizReply where
  | quiz (q : Quiz)
  | delivery (d : QuizDelivery)
  | deliveries (ds : List QuizDelivery)
  | attempt (a : QuizAttempt)
  | attempts (as : List QuizAttempt)
  | response (r : QuizResponse)
  | ok
  deriving DecidableEq, Repr

def replying {α : Type} (reply : α → QuizReply) (p : QuizProgram α) : QuizProgram QuizReply := do
  let a ← p
  pure (reply a)

def handle (u : SaveUpsert) (c : QuizCall) : QuizProgram QuizReply :=
  match c.request with
  | .get id => replying .quiz (getQuiz c.user id)
  | .create req => replying .quiz (createQuiz c.env c.user req)
  | .update id req => replying .quiz (updateQuiz c.env c.user id req)
  | .archive id => replying (fun _ => .ok) (archiveQuiz c.env c.user id)
  | .duplicate id => replying .quiz (duplicateQuiz c.env c.user id)
  | .publish id => replying .quiz (publishQuiz c.env c.user id)
  | .deliver id req => replying .delivery (deliverQuiz c.env c.user id req)
  | .listDeliveries cid => replying .deliveries (listDeliveries c.user cid)
  | .start id => replying .attempt (startAttempt c.env c.user id)
  | .getAttempt id => replying .attempt (getAttempt c.env c.user id)
  | .listAttempts id => replying .attempts (listAttempts c.env c.user id)
  | .save id qid answer => replying .response (saveResponse c.env u c.user id qid answer)
  | .submit id => replying .attempt (submitAttempt c.env c.user id)
  | .reopen id => replying .attempt (reopenAttempt c.env c.user id)
  | .grade id qid points feedback =>
    replying .attempt (gradeResponse c.env c.user id qid points feedback)
  | .release id => replying .delivery (releaseResults c.env c.user id)

def QuizRequest.writesDraft : QuizRequest → Bool
  | .create _ | .update _ _ | .archive _ | .duplicate _ | .publish _ => true
  | _ => false

/-- The statements that a request may issue, and what is known of them. -/
inductive Issued : QuizRequest → QuizStatement → Prop where
  | create {req : SaveQuizRequest} {quiz : QuizRow} {fresh : Nat → Uuid} {entry : QuizAuditRow}
      (valid : validateQuiz req = .ok ()) (title : quiz.title = trim req.title)
      (limit : quiz.timeLimitMinutes = req.timeLimitMinutes)
      (action : entry.action = "quiz_created") :
      Issued (.create req) (.createQuiz quiz req.questions fresh entry)
  | update {id quizId : Uuid} {req : SaveQuizRequest} {updatedAt : Time} {fresh : Nat → Uuid}
      {entry : QuizAuditRow} (valid : validateQuiz req = .ok ()) :
      Issued (.update id req) (.updateQuiz quizId req updatedAt fresh entry)
  | archive {id quizId : Uuid} {now : Time} : Issued (.archive id) (.archiveQuiz quizId now)
  | archiveAudit {id : Uuid} {entry : QuizAuditRow} : Issued (.archive id) (.audit entry)
  | duplicate {id : Uuid} {quiz : QuizRow} {questions : List QuizQuestionInput}
      {fresh : Nat → Uuid} {entry : QuizAuditRow} (title : ∃ title, quiz.title = title ++ " copy") :
      Issued (.duplicate id) (.createQuiz quiz questions fresh entry)
  | publish {id versionId : Uuid} {quiz : Quiz} {fresh : Nat → Uuid} {now : Time}
      {entry : QuizAuditRow} (valid : validateQuiz (draftRequest quiz) = .ok ()) :
      Issued (.publish id) (.publishQuiz quiz versionId fresh now entry)
  | start {delivery : Uuid} {row : QuizAttemptRow} : Issued (.start delivery) (.insertAttempt row)
  | reopen {id attempt : Uuid} {now : Time} {expires : Option Time} :
      Issued (.reopen id) (.reopenAttempt attempt now expires)
  | ordinary {request : QuizRequest} {l : QuizStatement} (ordinary : Ordinary l)
      (none : request.writesDraft = false) : Issued request l

theorem handle_issues (u : SaveUpsert) (call : QuizCall) :
    (handle u call).WritesOnly (Issued call.request) := by
  obtain ⟨env, user, request⟩ := call
  have hreply : ∀ {α : Type} {reply : α → QuizReply} {p : QuizProgram α},
      p.WritesOnly (Issued request) → (replying reply p).WritesOnly (Issued request) :=
    fun hp => hp.bind fun _ => writesOnly_pure _
  have hordinary : ∀ {α : Type} {reply : α → QuizReply} {p : QuizProgram α},
      request.writesDraft = false → p.WritesOnly Ordinary →
      (replying reply p).WritesOnly (Issued request) :=
    fun hnone hp => hreply (hp.imp fun _ h => .ordinary h hnone)
  cases request with
  | get id => exact hreply (getQuiz_readOnly user id).writesOnly
  | create req =>
    exact hreply (createQuiz_validated env user req fun hvalid _ _ _ htitle hlimit haction =>
      .create hvalid htitle hlimit haction)
  | update id req =>
    exact hreply (updateQuiz_validated env user id req fun hvalid _ _ _ _ => .update hvalid)
  | archive id => exact hreply (archiveQuiz_writes env user id (fun _ _ => .archive)
      fun _ => .archiveAudit)
  | duplicate id =>
    exact hreply (duplicateQuiz_copies env user id fun _ _ _ _ htitle => .duplicate htitle)
  | publish id =>
    exact hreply (publishQuiz_validated env user id fun _ hvalid _ _ _ _ => .publish hvalid)
  | deliver id req =>
    exact hordinary rfl (deliverQuiz_writes env user id req (fun _ => trivial) fun _ => trivial)
  | listDeliveries cid => exact hreply (listDeliveries_readOnly user cid).writesOnly
  | start id => exact hreply (startAttempt_writes env user id fun _ => .start)
  | getAttempt id => exact hreply (loadAttempt_readOnly _ _ _ _).writesOnly
  | listAttempts id => exact hreply (listAttempts_readOnly env user id).writesOnly
  | save id question answer =>
    exact hordinary rfl (saveResponse_writes env user id u question answer fun _ => trivial)
  | submit id =>
    exact hordinary rfl (submitAttempt_writes env user id (fun _ _ => trivial)
      fun _ _ _ _ => trivial)
  | reopen id => exact hreply (reopenAttempt_writes env user id (fun _ _ _ => .reopen)
      fun _ => .ordinary trivial rfl)
  | grade id question points feedback =>
    exact hordinary rfl (gradeResponse_writes env user id question points feedback
      (fun _ _ _ _ _ => trivial) (fun _ _ _ _ => trivial) fun _ => trivial)
  | release id =>
    exact hordinary rfl (releaseResults_writes env user id (fun _ _ => trivial) fun _ => trivial)

/-! A classroom in which one quiz is delivered to one student, for concrete runs. -/

def sampleQuestion (kind : QuizQuestionKind) (key : Json) : QuizVersionQuestionRow :=
  { id := 6, versionId := 5, position := 0, kind, prompt := "Is 7 prime?", options := []
    canonicalAnswer := key, maxPoints := 2, required := true }

def sampleDelivery : QuizDeliveryRow :=
  { id := 7, versionId := 5, classroomId := 3, kind := .homework, liveSessionId := none
    opensAt := none, dueAt := none, createdBy := 2, createdAt := 0, assignedCount := some 1 }

def sampleAttempt : QuizAttemptRow :=
  { id := 8, deliveryId := 7, studentId := 1, startedAt := 1, expiresAt := none, maxPoints := 2 }

def sampleDatabase (question : QuizVersionQuestionRow) (attempt : QuizAttemptRow) : Database :=
  { sampleClassroom with
    quizVersions := .single
      { id := 5, quizId := 4, versionNumber := 1, title := "Primes", instructions := ""
        timeLimitMinutes := none, totalPoints := 2, publishedAt := 0 }
    quizVersionQuestions := .single question
    quizDeliveries := .single sampleDelivery
    quizAttempts := .single attempt }

end Cinder.Quizzes
