import Mathlib.Algebra.Order.Ring.Abs
import Mathlib.Data.List.Sort
import Cinder.Quizzes.QuizRules
set_option autoImplicit false

/-!
The `SELECT`s of the quiz routes. Each is one read, so a loader of several
tables may see several states.
-/

namespace Cinder.Quizzes
open Cinder.Host Cinder.Storage Cinder.Programs Cinder.Programs.Program

def loadQuiz (id : Uuid) : QuizProgram Quiz := do
  let (q, c, published) ← queryRow (fun db => do
    let q ← quiz? db id
    let c ← classroom? db q.classroomId
    let versions := db.quizVersions.rows.filter fun v => v.quizId = id
    some (q, c, (versions.map fun v => v.versionNumber).max?)) (.notFound "quiz")
  let questions ← query fun db =>
    (db.quizDraftQuestions.rows.filter fun r => r.quizId = id).insertionSort
      fun r r' => r.position ≤ r'.position
  pure {
    id, classroomId := q.classroomId, classroomName := c.name, title := q.title
    instructions := q.instructions, timeLimitMinutes := q.timeLimitMinutes
    archived := q.archivedAt.isSome, publishedVersion := published
    questions := questions.map fun r =>
      { id := r.id, position := r.position, kind := r.kind, prompt := r.prompt
        options := r.options, canonicalAnswer := r.canonicalAnswer, maxPoints := r.maxPoints
        required := r.required }
    updatedAt := q.updatedAt }

def requireActiveQuiz (quiz : Quiz) : QuizProgram Unit :=
  require (quiz.archived = false) .conflict

/-- The student's own attempt at the delivery; a teacher's view has none. -/
def ownAttempt (deliveryId : Uuid) : Option Uuid → QuizProgram (Option QuizAttemptRow)
  | some sid => query fun db => db.quizAttempts.find? fun a =>
      a.deliveryId = deliveryId && a.studentId = sid
  | none => pure none

def loadDelivery (id : Uuid) (student : Option Uuid) : QuizProgram QuizDelivery := do
  let (d, v, c) ← queryRow (fun db => do
    let d ← delivery? db id
    let v ← version? db d.versionId
    let c ← classroom? db d.classroomId
    some (d, v, c)) (.notFound "quiz delivery")
  let attempt ← ownAttempt id student
  pure {
    id, quizId := v.quizId, versionId := d.versionId, classroomId := d.classroomId
    classroomName := c.name, title := v.title, instructions := v.instructions, kind := d.kind
    timeLimitMinutes := v.timeLimitMinutes, totalPoints := v.totalPoints
    opensAt := d.opensAt, dueAt := d.dueAt, resultsReleasedAt := d.resultsReleasedAt
    attemptId := attempt.map fun a => a.id
    attemptState := attempt.map fun a =>
      if a.submittedAt.isSome then "submitted" else "in_progress" }

/-- `f64::EPSILON`, the gap between 1 and the next number. -/
def epsilon : ℚ := 1/4503599627370496

def loadResponse (aid qid : Uuid) (showKey : Bool) : QuizProgram QuizResponse := do
  let (r, q) ← queryRow (fun db => do
    let r ← response? db aid qid
    let q ← db.quizVersionQuestions.find? fun q => q.id = qid
    some (r, q)) (.notFound "quiz response")
  pure {
    questionId := qid, answer := r.answer
    points := if showKey then r.points else none
    feedback := if showKey then r.feedback else ""
    correct := if showKey then r.points.map fun p => decide (|p - q.maxPoints| < epsilon)
      else none
    canonicalAnswer := if showKey then some q.canonicalAnswer else none }

def StudentQuizQuestion.ofRow (q : QuizVersionQuestionRow) : StudentQuizQuestion :=
  { id := q.id, position := q.position, kind := q.kind, prompt := q.prompt
    options := q.options, maxPoints := q.maxPoints, required := q.required }

/-- The version's questions in order, without their answer keys. -/
def studentQuestions (db : Database) (versionId : Uuid) : List StudentQuizQuestion :=
  ((versionQuestions db versionId).map StudentQuizQuestion.ofRow).insertionSort
    fun q q' => q.position ≤ q'.position

/-- A question without a stored response has no entry. -/
def loadResponses (aid : Uuid) (showKey : Bool) :
    List StudentQuizQuestion → QuizProgram (List QuizResponse)
  | [] => pure []
  | question :: questions => do
    match ← (loadResponse aid question.id showKey).outcome with
    | .ok response => do
      let responses ← loadResponses aid showKey questions
      pure (response :: responses)
    | .error (.notFound _) => loadResponses aid showKey questions
    | .error error => .fail error

/-- A teacher of the classroom, or the student whose attempt it is. -/
def requireReader (user : CurrentUser) (teacher : Bool) (classroomId studentId : Uuid) :
    QuizProgram Unit :=
  if teacher then requireTeacherAccess classroomId user.id
  else require (studentId = user.id) .forbidden

def loadAttempt (id : Uuid) (user : CurrentUser) (teacher : Bool) (serverNow : Time) :
    QuizProgram QuizAttempt := do
  let (a, d, u) ← queryRow (fun db => do
    let (a, d) ← attemptDelivery? db id
    let u ← user? db a.studentId
    some (a, d, u)) (.notFound "quiz attempt")
  let delivery ← loadDelivery a.deliveryId (if teacher then none else some user.id)
  requireReader user teacher delivery.classroomId a.studentId
  let released := d.resultsReleasedAt.isSome && a.submittedAt.isSome
  let questions ← query fun db => studentQuestions db delivery.versionId
  let responses ← loadResponses id (released || teacher) questions
  pure {
    id, studentId := a.studentId, studentName := u.displayName, delivery, questions, responses
    startedAt := a.startedAt, expiresAt := a.expiresAt, submittedAt := a.submittedAt
    score := if released || teacher then a.score else none
    maxPoints := a.maxPoints, manualGradingComplete := a.gradedAt.isSome, released, serverNow }

/-- The end of the delivery's live session, which the student must have joined.
Homework has none. -/
def activeLiveDeadline (deliveryId studentId : Uuid) (now : Time) :
    QuizProgram (Option Time) := do
  let (kind, session, joined) ← queryRow (fun db => do
    let d ← delivery? db deliveryId
    let session := d.liveSessionId.bind fun sid => db.liveModuleSessions.find? fun s => s.id = sid
    some (d.kind, session, db.liveModuleParticipants.rows.any fun p =>
      session.any fun s => p.sessionId = s.id && p.studentId = studentId))
    (.notFound "quiz delivery")
  if kind ≠ .live then pure none
  else do
    require (joined = true) .forbidden
    match session with
    | none => .fail .conflict
    | some s => do
      require (s.endedAt = none ∧ now < s.endsAt) .conflict
      pure (some s.endsAt)

def ensureAttemptWritable (id sid : Uuid) (now : Time) : QuizProgram Unit := do
  let (a, d) ← queryRow (fun db => attemptDelivery? db id) (.notFound "quiz attempt")
  require (a.studentId = sid) .forbidden
  require (a.submittedAt = none ∧ d.resultsReleasedAt = none) .conflict
  let _ ← activeLiveDeadline d.id sid now
  require ((∀ t ∈ a.expiresAt, now < t) ∧ ∀ t ∈ d.dueAt, now < t) .conflict

def questionKey (aid qid : Uuid) : QuizProgram (QuizQuestionKind × Json × ℚ) :=
  queryRow (fun db => do
    let (_, d) ← attemptDelivery? db aid
    let q ← db.quizVersionQuestions.find? fun q => q.id = qid && q.versionId = d.versionId
    some (q.kind, q.canonicalAnswer, q.maxPoints)) (.notFound "quiz question")

def deliveryClassroom (id : Uuid) : QuizProgram Uuid :=
  queryRow (fun db => (delivery? db id).map fun d => d.classroomId) (.notFound "quiz delivery")

def attemptClassroom (id : Uuid) : QuizProgram Uuid :=
  queryRow (fun db => (attemptDelivery? db id).map fun (_, d) => d.classroomId)
    (.notFound "quiz attempt")

def recalculateAttempt (id : Uuid) (now : Time) : QuizProgram Unit := do
  let missing ← query fun db => manualMissing db id
  let score ← query fun db => pointsSum db id
  execute (.writeScore id score missing now)

section ReadOnly

@[simp] theorem requireActiveQuiz_readOnly (quiz : Quiz) :
    (requireActiveQuiz quiz).ReadOnly := readOnly_require _ _

@[simp] theorem loadQuiz_readOnly (id : Uuid) : (loadQuiz id).ReadOnly :=
  (readOnly_queryRow _ _).bind fun _ => (readOnly_query _).bind fun _ => trivial

@[simp] theorem ownAttempt_readOnly (deliveryId : Uuid) (student : Option Uuid) :
    (ownAttempt deliveryId student).ReadOnly := by
  cases student with
  | none => trivial
  | some sid => exact readOnly_query _

@[simp] theorem loadDelivery_readOnly (id : Uuid) (student : Option Uuid) :
    (loadDelivery id student).ReadOnly :=
  (readOnly_queryRow _ _).bind fun _ => (ownAttempt_readOnly _ _).bind fun _ => trivial

@[simp] theorem loadResponse_readOnly (aid qid : Uuid) (showKey : Bool) :
    (loadResponse aid qid showKey).ReadOnly :=
  (readOnly_queryRow _ _).bind fun _ => trivial

@[simp] theorem loadResponses_readOnly (aid : Uuid) (showKey : Bool)
    (questions : List StudentQuizQuestion) : (loadResponses aid showKey questions).ReadOnly := by
  induction questions with
  | nil => trivial
  | cons question questions ih =>
    refine (ReadOnly.outcome (loadResponse_readOnly _ _ _)).bind fun r => ?_
    match r with
    | .ok response => exact ih.bind fun _ => trivial
    | .error e => cases e <;> first | exact ih | trivial

@[simp] theorem requireReader_readOnly (user : CurrentUser) (teacher : Bool)
    (classroomId studentId : Uuid) :
    (requireReader user teacher classroomId studentId).ReadOnly := by
  cases teacher with
  | false => exact readOnly_require _ _
  | true => exact requireTeacherAccess_readOnly _ _

@[simp] theorem loadAttempt_readOnly (id : Uuid) (user : CurrentUser) (teacher : Bool)
    (serverNow : Time) : (loadAttempt id user teacher serverNow).ReadOnly :=
  (readOnly_queryRow _ _).bind fun _ => (loadDelivery_readOnly _ _).bind fun _ =>
    (requireReader_readOnly _ _ _ _).bind fun _ => (readOnly_query _).bind fun _ =>
      (loadResponses_readOnly _ _ _).bind fun _ => trivial

@[simp] theorem activeLiveDeadline_readOnly (deliveryId studentId : Uuid) (now : Time) :
    (activeLiveDeadline deliveryId studentId now).ReadOnly := by
  refine (readOnly_queryRow _ _).bind fun ⟨kind, session, joined⟩ => ?_
  dsimp only
  split
  · trivial
  · refine (readOnly_require _ _).bind fun _ => ?_
    cases session with
    | none => trivial
    | some s => exact (readOnly_require _ _).bind fun _ => trivial

@[simp] theorem ensureAttemptWritable_readOnly (id sid : Uuid) (now : Time) :
    (ensureAttemptWritable id sid now).ReadOnly :=
  (readOnly_queryRow _ _).bind fun _ => (readOnly_require _ _).bind fun _ =>
    (readOnly_require _ _).bind fun _ => (activeLiveDeadline_readOnly _ _ _).bind fun _ =>
      readOnly_require _ _

@[simp] theorem questionKey_readOnly (aid qid : Uuid) : (questionKey aid qid).ReadOnly :=
  readOnly_queryRow _ _

@[simp] theorem deliveryClassroom_readOnly (id : Uuid) : (deliveryClassroom id).ReadOnly :=
  readOnly_queryRow _ _

@[simp] theorem attemptClassroom_readOnly (id : Uuid) : (attemptClassroom id).ReadOnly :=
  readOnly_queryRow _ _

end ReadOnly

theorem attempt?_of_mem {db : Database} {a : QuizAttemptRow} (ha : a ∈ db.quizAttempts.rows) :
    attempt? db a.id = some a :=
  Table.find?_of_mem ha (by simp) fun a' _ h => by
    simp only [decide_eq_true_eq] at h
    simp [Keyed.clash, h]

theorem delivery?_of_mem {db : Database} {d : QuizDeliveryRow} (hd : d ∈ db.quizDeliveries.rows) :
    delivery? db d.id = some d :=
  Table.find?_of_mem hd (by simp) fun d' _ h => by
    simp only [decide_eq_true_eq] at h
    simp [Keyed.clash, h]

theorem attemptDelivery?_eq_some {db : Database} {id : Uuid} {a : QuizAttemptRow}
    {d : QuizDeliveryRow} :
    attemptDelivery? db id = some (a, d) ↔
      attempt? db id = some a ∧ delivery? db a.deliveryId = some d := by
  simp only [attemptDelivery?, Option.bind_eq_some_iff, Option.map_eq_some_iff, Prod.mk.injEq]
  constructor
  · rintro ⟨a', ha, d', hd, rfl, rfl⟩
    exact ⟨ha, hd⟩
  · rintro ⟨ha, hd⟩
    exact ⟨a, ha, d, hd, rfl, rfl⟩

/-- The question that `question_key` finds is one of the attempt's version. -/
theorem questionKey_ok {db db' : Database} {aid qid : Uuid}
    {key : QuizQuestionKind × Json × ℚ} (h : (questionKey aid qid).exec db = (.ok key, db')) :
    ∃ a d q, attemptDelivery? db aid = some (a, d) ∧ q ∈ db.quizVersionQuestions.rows ∧
      q.id = qid ∧ q.versionId = d.versionId ∧ key = (q.kind, q.canonicalAnswer, q.maxPoints) := by
  obtain ⟨hkey, -⟩ := exec_queryRow_ok h
  obtain ⟨⟨a, d⟩, had, hrest⟩ := Option.bind_eq_some_iff.mp hkey
  obtain ⟨q, hq, hk⟩ := Option.bind_eq_some_iff.mp hrest
  obtain ⟨hmem, hp⟩ := Table.mem_of_find? hq
  simp only [Bool.and_eq_true, decide_eq_true_eq] at hp
  exact ⟨a, d, q, had, hmem, hp.1, hp.2, (Option.some.inj hk).symm⟩

theorem ensureAttemptWritable_ok {db db' : Database} {id sid : Uuid} {now : Time} {u : Unit}
    (h : (ensureAttemptWritable id sid now).exec db = (.ok u, db')) :
    ∃ a d, attemptDelivery? db id = some (a, d) ∧ a.studentId = sid ∧ a.submittedAt = none ∧
      d.resultsReleasedAt = none := by
  obtain ⟨⟨a, d⟩, _, hread, hafter⟩ := exec_bind_eq_ok h
  obtain ⟨had, rfl⟩ := exec_queryRow_ok hread
  obtain ⟨_, _, howner, hthen⟩ := exec_bind_eq_ok hafter
  obtain ⟨hsid, rfl⟩ := exec_require_ok howner
  obtain ⟨_, _, hopen, -⟩ := exec_bind_eq_ok hthen
  obtain ⟨⟨hsub, hrel⟩, -⟩ := exec_require_ok hopen
  exact ⟨a, d, had, hsid, hsub, hrel⟩

theorem loadDelivery_ok {db db' : Database} {id : Uuid} {student : Option Uuid}
    {delivery : QuizDelivery} (h : (loadDelivery id student).exec db = (.ok delivery, db')) :
    ∃ d v, delivery? db id = some d ∧ version? db d.versionId = some v ∧
      delivery.versionId = d.versionId ∧ delivery.totalPoints = v.totalPoints := by
  obtain ⟨⟨d, v, c⟩, _, hread, hafter⟩ := exec_bind_eq_ok h
  obtain ⟨hrow, -⟩ := exec_queryRow_ok hread
  obtain ⟨d', hd, hrow⟩ := Option.bind_eq_some_iff.mp hrow
  obtain ⟨v', hv, hrow⟩ := Option.bind_eq_some_iff.mp hrow
  obtain ⟨c', -, hrow⟩ := Option.bind_eq_some_iff.mp hrow
  cases hrow
  obtain ⟨attempt, _, -, hreply⟩ := exec_bind_eq_ok hafter
  cases hreply
  exact ⟨d, v, hd, hv, rfl, rfl⟩

theorem versionId_of_studentQuestion {db : Database} {versionId : Uuid}
    {question : StudentQuizQuestion} (hq : question ∈ studentQuestions db versionId)
    {q : QuizVersionQuestionRow} (hmem : q ∈ db.quizVersionQuestions.rows)
    (hid : q.id = question.id) : q.versionId = versionId := by
  obtain ⟨row, hrow, rfl⟩ := List.mem_map.mp ((List.mem_insertionSort _).mp hq)
  obtain ⟨hstored, hversion⟩ := List.mem_filter.mp hrow
  have hsame : q = row :=
    Table.eq_of_clash hmem hstored (by simpa [Keyed.clash] using .inl hid)
  rw [hsame]
  simpa using hversion

end Cinder.Quizzes
