import Cinder.Host.HostValues
import Cinder.Storage.UniqueTable
set_option autoImplicit false

namespace Cinder.Host
open Cinder.Storage

structure UserRow where
  id : Uuid
  username : String
  displayName : String
  pwHash : String
  role : Role
  createdAt : Time
  disabledAt : Option Time := none
  gradeLevel : Option String := none
  section_ : Option String := none
  rollNumber : Option String := none
  mustChangePassword : Bool := false
  failedLoginAttempts : Int := 0
  loginBlockedUntil : Option Time := none
  deriving DecidableEq, Repr

/-- Usernames are unique up to letter case. -/
instance : Keyed UserRow where
  clash r r' := r.id = r'.id || lower r.username = lower r'.username
  refl r := by simp
  symm r r' := by simp [eq_comm]

/-- `token` is the digest of the bearer token. -/
structure SessionRow where
  token : String
  userId : Uuid
  deviceLabel : Option String
  createdAt : Time
  expiresAt : Time
  deriving DecidableEq, Repr

instance : Keyed SessionRow where
  clash r r' := r.token = r'.token
  refl r := by simp
  symm r r' := by simp [eq_comm]

/-- A row of `teacher_recovery` or of `student_recovery`. -/
structure RecoveryRow where
  userId : Uuid
  recoveryHash : String
  createdAt : Time
  rotatedAt : Option Time := none
  deriving DecidableEq, Repr

instance : Keyed RecoveryRow where
  clash r r' := r.userId = r'.userId
  refl r := by simp
  symm r r' := by simp [eq_comm]

/-- The one row of `school_bootstrap_pin` or of `teacher_invite_pin`; only an
invitation has a creator. -/
structure PinRow where
  pinHash : String
  createdBy : Option Uuid
  expiresAt : Time
  failedAttempts : Int := 0
  blockedUntil : Option Time := none
  deriving DecidableEq, Repr

structure ClassroomRow where
  id : Uuid
  name : String
  ownerTeacherId : Uuid
  archivedAt : Option Time := none
  subjectCode : Option String := none
  description : String := ""
  color : String := "#BEC2FF"
  enrolmentCode : String := ""
  createdAt : Time := 0
  deriving DecidableEq, Repr

/-- Enrolment codes are unique up to letter case. -/
instance : Keyed ClassroomRow where
  clash r r' := r.id = r'.id || lower r.enrolmentCode = lower r'.enrolmentCode
  refl r := by simp
  symm r r' := by simp [eq_comm]

structure ClassroomTeacherRow where
  classroomId : Uuid
  teacherId : Uuid
  deriving DecidableEq, Repr

instance : Keyed ClassroomTeacherRow where
  clash r r' := r.classroomId = r'.classroomId && r.teacherId = r'.teacherId
  refl r := by simp
  symm r r' := by simp [eq_comm]

structure EnrolmentRow where
  classroomId : Uuid
  studentId : Uuid
  deriving DecidableEq, Repr

instance : Keyed EnrolmentRow where
  clash r r' := r.classroomId = r'.classroomId && r.studentId = r'.studentId
  refl r := by simp
  symm r r' := by simp [eq_comm]

structure LiveSessionRow where
  id : Uuid
  classroomId : Uuid
  endsAt : Time
  endedAt : Option Time := none
  moduleId : String := ""
  moduleName : String := ""
  durationMinutes : Nat := 5
  joinCode : String := ""
  startsAt : Time := 0
  deriving DecidableEq, Repr

/-- Join codes are unique up to letter case, and a classroom has one session
that has not been ended. -/
instance : Keyed LiveSessionRow where
  clash r r' := r.id = r'.id || lower r.joinCode = lower r'.joinCode ||
    (r.classroomId = r'.classroomId && r.endedAt.isNone && r'.endedAt.isNone)
  refl r := by simp
  symm r r' := by simp [eq_comm, Bool.and_right_comm]

structure LiveParticipantRow where
  sessionId : Uuid
  studentId : Uuid
  joinedAt : Time := 0
  lastSeenAt : Option Time := none
  deriving DecidableEq, Repr

instance : Keyed LiveParticipantRow where
  clash r r' := r.sessionId = r'.sessionId && r.studentId = r'.studentId
  refl r := by simp
  symm r r' := by simp [eq_comm]

structure LiveResultRow where
  sessionId : Uuid
  studentId : Uuid
  score : ℚ
  elapsedSeconds : Nat
  submittedAt : Time
  taskRevision : Option Nat
  deriving DecidableEq, Repr

instance : Keyed LiveResultRow where
  clash r r' := r.sessionId = r'.sessionId && r.studentId = r'.studentId
  refl r := by simp
  symm r r' := by simp [eq_comm]

inductive LiveSessionTaskKind where
  | instruction | assignment | material | quiz
  deriving DecidableEq, Repr

inductive LiveSessionTaskState where
  | opened | inProgress | completed | failed
  deriving DecidableEq, Repr

structure LiveTaskRow where
  id : Uuid
  sessionId : Uuid
  revision : Nat
  kind : LiveSessionTaskKind
  targetId : Option Uuid
  title : String
  instructions : String
  createdAt : Time
  deriving DecidableEq, Repr

instance : Keyed LiveTaskRow where
  clash r r' := r.id = r'.id || (r.sessionId = r'.sessionId && r.revision = r'.revision)
  refl r := by simp
  symm r r' := by simp [eq_comm]

structure LiveAcknowledgementRow where
  sessionId : Uuid
  taskRevision : Nat
  studentId : Uuid
  state : LiveSessionTaskState
  updatedAt : Time
  deriving DecidableEq, Repr

instance : Keyed LiveAcknowledgementRow where
  clash r r' := r.sessionId = r'.sessionId && r.taskRevision = r'.taskRevision &&
    r.studentId = r'.studentId
  refl r := by simp
  symm r r' := by simp [eq_comm]

structure LiveTaskEventRow where
  sessionId : Uuid
  taskRevision : Nat
  studentId : Uuid
  state : LiveSessionTaskState
  createdAt : Time
  deriving DecidableEq, Repr

inductive AssignmentStatus where
  | draft | published | closed
  deriving DecidableEq, Repr

inductive SubmissionStatus where
  | draft | submitted | resubmitted | graded | withdrawn
  deriving DecidableEq, Repr

structure AssignmentRow where
  id : Uuid
  classroomId : Uuid
  title : String
  dueAt : Option Time := none
  maxPoints : ℚ
  status : AssignmentStatus
  archivedAt : Option Time := none
  instructions : String := ""
  gradingScheme : Json := .obj (.cons "type" (.str "points") .nil)
  createdAt : Time := 0
  updatedAt : Time := 0
  deriving DecidableEq, Repr

instance : Keyed AssignmentRow where
  clash r r' := r.id = r'.id
  refl r := by simp
  symm r r' := by simp [eq_comm]

structure SubmissionRow where
  id : Uuid
  assignmentId : Uuid
  studentId : Uuid
  status : SubmissionStatus
  currentVersionId : Option Uuid
  submittedAt : Option Time
  updatedAt : Time
  deriving DecidableEq, Repr

instance : Keyed SubmissionRow where
  clash r r' := r.id = r'.id ||
    (r.assignmentId = r'.assignmentId && r.studentId = r'.studentId)
  refl r := by simp
  symm r r' := by simp [eq_comm]

structure SubmissionVersionRow where
  id : Uuid
  submissionId : Uuid
  versionNumber : Int
  docJson : Json
  plaintext : String
  changeNote : Option String
  late : Bool
  createdAt : Time
  deriving DecidableEq, Repr

instance : Keyed SubmissionVersionRow where
  clash r r' := r.id = r'.id ||
    (r.submissionId = r'.submissionId && r.versionNumber = r'.versionNumber)
  refl r := by simp
  symm r r' := by simp [eq_comm]

structure GradeRow where
  id : Uuid
  submissionId : Uuid
  points : Option ℚ
  gradeLabel : Option String
  feedback : String
  published : Bool
  gradedBy : Uuid
  createdAt : Time
  updatedAt : Time
  deriving DecidableEq, Repr

instance : Keyed GradeRow where
  clash r r' := r.id = r'.id || r.submissionId = r'.submissionId
  refl r := by simp
  symm r r' := by simp [eq_comm]

/-- What `previous_json` and `current_json` of a grade change hold. -/
structure GradeSnapshot where
  points : Option ℚ
  gradeLabel : Option String
  feedback : String
  published : Bool
  updatedAt : Time
  deriving DecidableEq, Repr

structure GradeChangeRow where
  id : Uuid
  gradeId : Uuid
  changedBy : Uuid
  previous : Option GradeSnapshot
  current : GradeSnapshot
  changedAt : Time
  deriving DecidableEq, Repr

instance : Keyed GradeChangeRow where
  clash r r' := r.id = r'.id
  refl r := by simp
  symm r r' := by simp [eq_comm]

/-- The activity stream; its sequence number is the position in the list. -/
structure ChangeEventRow where
  entityType : String
  entityId : Uuid
  userId : Option Uuid
  changedAt : Time
  deriving DecidableEq, Repr

inductive QuizQuestionKind where
  | singleChoice | trueFalse | shortAnswer
  deriving DecidableEq, Repr

inductive QuizDeliveryKind where
  | homework | live
  deriving DecidableEq, Repr

structure QuizRow where
  id : Uuid
  classroomId : Uuid
  title : String
  instructions : String
  timeLimitMinutes : Option Nat
  createdBy : Uuid
  createdAt : Time
  updatedAt : Time
  archivedAt : Option Time := none
  deriving DecidableEq, Repr

instance : Keyed QuizRow where
  clash r r' := r.id = r'.id
  refl r := by simp
  symm r r' := by simp [eq_comm]

structure QuizDraftQuestionRow where
  id : Uuid
  quizId : Uuid
  position : Nat
  kind : QuizQuestionKind
  prompt : String
  options : List String
  canonicalAnswer : Json
  maxPoints : ℚ
  required : Bool
  deriving DecidableEq, Repr

instance : Keyed QuizDraftQuestionRow where
  clash r r' := r.id = r'.id || (r.quizId = r'.quizId && r.position = r'.position)
  refl r := by simp
  symm r r' := by simp [eq_comm]

structure QuizVersionRow where
  id : Uuid
  quizId : Uuid
  versionNumber : Nat
  title : String
  instructions : String
  timeLimitMinutes : Option Nat
  totalPoints : ℚ
  publishedAt : Time
  deriving DecidableEq, Repr

instance : Keyed QuizVersionRow where
  clash r r' := r.id = r'.id ||
    (r.quizId = r'.quizId && r.versionNumber = r'.versionNumber)
  refl r := by simp
  symm r r' := by simp [eq_comm]

structure QuizVersionQuestionRow where
  id : Uuid
  versionId : Uuid
  position : Nat
  kind : QuizQuestionKind
  prompt : String
  options : List String
  canonicalAnswer : Json
  maxPoints : ℚ
  required : Bool
  deriving DecidableEq, Repr

instance : Keyed QuizVersionQuestionRow where
  clash r r' := r.id = r'.id || (r.versionId = r'.versionId && r.position = r'.position)
  refl r := by simp
  symm r r' := by simp [eq_comm]

structure QuizDeliveryRow where
  id : Uuid
  versionId : Uuid
  classroomId : Uuid
  kind : QuizDeliveryKind
  liveSessionId : Option Uuid
  opensAt : Option Time
  dueAt : Option Time
  createdBy : Uuid
  createdAt : Time
  assignedCount : Option Nat
  resultsReleasedAt : Option Time := none
  deriving DecidableEq, Repr

instance : Keyed QuizDeliveryRow where
  clash r r' := r.id = r'.id
  refl r := by simp
  symm r r' := by simp [eq_comm]

structure QuizAttemptRow where
  id : Uuid
  deliveryId : Uuid
  studentId : Uuid
  startedAt : Time
  expiresAt : Option Time
  maxPoints : ℚ
  submittedAt : Option Time := none
  score : Option ℚ := none
  gradedAt : Option Time := none
  reopenedAt : Option Time := none
  deriving DecidableEq, Repr

instance : Keyed QuizAttemptRow where
  clash r r' := r.id = r'.id ||
    (r.deliveryId = r'.deliveryId && r.studentId = r'.studentId)
  refl r := by simp
  symm r r' := by simp [eq_comm]

structure QuizResponseRow where
  id : Uuid
  attemptId : Uuid
  questionId : Uuid
  answer : Json
  points : Option ℚ
  feedback : String
  autoGraded : Bool
  gradedAt : Option Time
  updatedAt : Time
  deriving DecidableEq, Repr

instance : Keyed QuizResponseRow where
  clash r r' := r.id = r'.id ||
    (r.attemptId = r'.attemptId && r.questionId = r'.questionId)
  refl r := by simp
  symm r r' := by simp [eq_comm]

structure QuizAuditRow where
  actorId : Uuid
  action : String
  quizId : Option Uuid
  deliveryId : Option Uuid
  attemptId : Option Uuid
  createdAt : Time
  deriving DecidableEq, Repr

structure Database where
  users : Table UserRow := .empty
  sessions : Table SessionRow := .empty
  teacherRecovery : Table RecoveryRow := .empty
  studentRecovery : Table RecoveryRow := .empty
  schoolBootstrapPin : Option PinRow := none
  teacherInvitePin : Option PinRow := none
  classrooms : Table ClassroomRow := .empty
  classroomTeachers : Table ClassroomTeacherRow := .empty
  classroomEnrolments : Table EnrolmentRow := .empty
  liveModuleSessions : Table LiveSessionRow := .empty
  liveModuleParticipants : Table LiveParticipantRow := .empty
  liveModuleResults : Table LiveResultRow := .empty
  liveSessionTasks : Table LiveTaskRow := .empty
  liveSessionTaskAcknowledgements : Table LiveAcknowledgementRow := .empty
  liveSessionTaskEvents : List LiveTaskEventRow := []
  assignments : Table AssignmentRow := .empty
  submissions : Table SubmissionRow := .empty
  submissionVersions : Table SubmissionVersionRow := .empty
  grades : Table GradeRow := .empty
  gradeChanges : Table GradeChangeRow := .empty
  changeEvents : List ChangeEventRow := []
  quizzes : Table QuizRow := .empty
  quizDraftQuestions : Table QuizDraftQuestionRow := .empty
  quizVersions : Table QuizVersionRow := .empty
  quizVersionQuestions : Table QuizVersionQuestionRow := .empty
  quizDeliveries : Table QuizDeliveryRow := .empty
  quizAttempts : Table QuizAttemptRow := .empty
  quizResponses : Table QuizResponseRow := .empty
  quizAuditLog : List QuizAuditRow := []

end Cinder.Host
