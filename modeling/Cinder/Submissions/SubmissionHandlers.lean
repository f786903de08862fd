import Cinder.Host.HostAccess
set_option autoImplicit false

/-!
Handing in, taking back and grading work. Each `SELECT` and each statement
outside a transaction is a step of its own; an explicit transaction is one
statement.
-/

namespace Cinder.Submissions
open Cinder.Host Cinder.Storage Cinder.Programs Cinder.Programs.Program

structure SubmitWorkRequest where
  docJson : Json
  plaintext : String
  changeNote : Option String
  deriving DecidableEq, Repr

structure SaveGradeRequest where
  points : Option ℚ
  gradeLabel : Option String
  feedback : String
  publish : Bool
  deriving DecidableEq, Repr

structure SubmissionVersion where
  id : Uuid
  versionNumber : Int
  docJson : Json
  plaintext : String
  changeNote : Option String
  late : Bool
  createdAt : Time
  deriving DecidableEq, Repr

structure Grade where
  id : Uuid
  points : Option ℚ
  gradeLabel : Option String
  feedback : String
  published : Bool
  updatedAt : Time
  deriving DecidableEq, Repr

structure Submission where
  id : Uuid
  assignmentId : Uuid
  assignmentTitle : String
  studentId : Uuid
  studentName : String
  status : SubmissionStatus
  version : Option SubmissionVersion
  grade : Option Grade
  submittedAt : Option Time
  updatedAt : Time
  deriving DecidableEq, Repr

section Rows
variable (db : Database)

def assignment? (id : Uuid) : Option AssignmentRow := db.assignments.find? fun a => a.id = id

def submission? (id : Uuid) : Option SubmissionRow := db.submissions.find? fun s => s.id = id

def studentSubmission? (assignmentId studentId : Uuid) : Option SubmissionRow :=
  db.submissions.find? fun s => s.assignmentId = assignmentId && s.studentId = studentId

def grade? (submissionId : Uuid) : Option GradeRow :=
  db.grades.find? fun g => g.submissionId = submissionId

def submissionVersions (submissionId : Uuid) : List SubmissionVersionRow :=
  db.submissionVersions.rows.filter fun v => v.submissionId = submissionId

end Rows

/-- The statements of the three handlers. `selectStatus` is the `SELECT` on
which a student's request decides whether the work may be changed; it is among
the writes so that the history of a run records it. -/
inductive SubmissionStatement where
  | selectStatus (assignment student : Uuid)
  | submitWork (row : SubmissionRow) (version : SubmissionVersionRow)
  | withdrawWork (assignment student : Uuid) (now : Time)
  | saveGrade (row : GradeRow) (change : GradeChangeRow)
  deriving DecidableEq, Repr

/-! The assignments of the `UPDATE` statements. None touches a key. -/

section Assignments
variable (now : Time)

def resubmit (new old : SubmissionRow) : SubmissionRow :=
  { old with
    status := new.status, currentVersionId := new.currentVersionId
    submittedAt := new.submittedAt, updatedAt := new.updatedAt }

def withdraw (s : SubmissionRow) : SubmissionRow := { s with status := .withdrawn, updatedAt := now }

def markGraded (s : SubmissionRow) : SubmissionRow := { s with status := .graded, updatedAt := now }

def unpublish (g : GradeRow) : GradeRow := { g with published := false, updatedAt := now }

def regrade (new old : GradeRow) : GradeRow :=
  { old with
    points := new.points, gradeLabel := new.gradeLabel, feedback := new.feedback
    published := new.published, gradedBy := new.gradedBy, updatedAt := new.updatedAt }

theorem resubmit_keeps (new : SubmissionRow) : Table.KeepsKeys (resubmit new) := fun _ _ => rfl

theorem withdraw_keeps : Table.KeepsKeys (withdraw now) := fun _ _ => rfl

theorem markGraded_keeps : Table.KeepsKeys (markGraded now) := fun _ _ => rfl

theorem unpublish_keeps : Table.KeepsKeys (unpublish now) := fun _ _ => rfl

theorem regrade_keeps (new : GradeRow) : Table.KeepsKeys (regrade new) := fun _ _ => rfl

end Assignments

/-- The foreign keys to classrooms, assignments and users are left out: no
handler here removes such a row. -/
def SubmissionStatement.run : SubmissionStatement → Database → Except HostError Database
  | .selectStatus _ _, db => .ok db
  | .submitWork row version, db => do
    let submissions ← stored (db.submissions.upsert
      (fun s => s.assignmentId = row.assignmentId && s.studentId = row.studentId)
      (resubmit row) (resubmit_keeps row) row)
    referenced (submissions.rows.any fun s => s.id = version.submissionId)
    let versions ← stored (db.submissionVersions.insert version)
    .ok { db with
      submissions, submissionVersions := versions
      changeEvents := db.changeEvents ++ [⟨"submission", row.id, some row.studentId, row.updatedAt⟩]
      grades := if row.status = .resubmitted then
        db.grades.update (fun g => g.submissionId = row.id) (unpublish row.updatedAt)
          (unpublish_keeps row.updatedAt) else db.grades }
  | .withdrawWork assignment student now, db =>
    .ok { db with
      submissions := db.submissions.update
        (fun s => s.assignmentId = assignment && s.studentId = student && s.status ≠ .withdrawn)
        (withdraw now) (withdraw_keeps now) }
  | .saveGrade row change, db => do
    referenced (db.submissions.rows.any fun s => s.id = row.submissionId)
    let grades ← stored (db.grades.upsert (fun g => g.submissionId = row.submissionId)
      (regrade row) (regrade_keeps row) row)
    referenced (grades.rows.any fun g => g.id = change.gradeId)
    let changes ← stored (db.gradeChanges.insert change)
    .ok { db with
      grades, gradeChanges := changes
      submissions := if row.published then
        db.submissions.update (fun s => s.id = row.submissionId) (markGraded row.updatedAt)
          (markGraded_keeps row.updatedAt) else db.submissions }

instance : Engine Database SubmissionStatement HostError := ⟨SubmissionStatement.run⟩

section Statements
variable {db db' : Database}

theorem run_submitWork {row : SubmissionRow} {version : SubmissionVersionRow}
    (h : (SubmissionStatement.submitWork row version).run db = .ok db') :
    db.submissions.upsert (fun s => s.assignmentId = row.assignmentId &&
        s.studentId = row.studentId) (resubmit row) (resubmit_keeps row) row =
      some db'.submissions ∧
    (∃ s ∈ db'.submissions.rows, s.id = version.submissionId) ∧
    db.submissionVersions.insert version = some db'.submissionVersions ∧
    (db'.grades = if row.status = .resubmitted then
      db.grades.update (fun g => g.submissionId = row.id) (unpublish row.updatedAt)
        (unpublish_keeps row.updatedAt) else db.grades) ∧
    db'.gradeChanges = db.gradeChanges := by
  obtain ⟨submissions, hs, h⟩ := bind_eq_ok.mp h
  obtain ⟨_, href, h⟩ := bind_eq_ok.mp h
  obtain ⟨versions, hv, h⟩ := bind_eq_ok.mp h
  cases h
  refine ⟨stored_eq_ok.mp hs, ?_, stored_eq_ok.mp hv, rfl, rfl⟩
  simpa using referenced_ok href

theorem run_withdrawWork {assignment student : Uuid} {now : Time}
    (h : (SubmissionStatement.withdrawWork assignment student now).run db = .ok db') :
    db'.submissions = db.submissions.update
        (fun s => s.assignmentId = assignment && s.studentId = student && s.status ≠ .withdrawn)
        (withdraw now) (withdraw_keeps now) ∧
      db'.submissionVersions = db.submissionVersions ∧ db'.grades = db.grades ∧
      db'.gradeChanges = db.gradeChanges := by
  cases h
  exact ⟨rfl, rfl, rfl, rfl⟩

theorem run_saveGrade {row : GradeRow} {change : GradeChangeRow}
    (h : (SubmissionStatement.saveGrade row change).run db = .ok db') :
    (∃ s ∈ db.submissions.rows, s.id = row.submissionId) ∧
    db.grades.upsert (fun g => g.submissionId = row.submissionId) (regrade row)
      (regrade_keeps row) row = some db'.grades ∧
    (∃ g ∈ db'.grades.rows, g.id = change.gradeId) ∧
    db.gradeChanges.insert change = some db'.gradeChanges ∧
    (db'.submissions = if row.published then
      db.submissions.update (fun s => s.id = row.submissionId) (markGraded row.updatedAt)
        (markGraded_keeps row.updatedAt) else db.submissions) ∧
    db'.submissionVersions = db.submissionVersions := by
  obtain ⟨_, hs, h⟩ := bind_eq_ok.mp h
  obtain ⟨grades, hg, h⟩ := bind_eq_ok.mp h
  obtain ⟨_, hid, h⟩ := bind_eq_ok.mp h
  obtain ⟨changes, hc, h⟩ := bind_eq_ok.mp h
  cases h
  refine ⟨?_, stored_eq_ok.mp hg, ?_, stored_eq_ok.mp hc, rfl, rfl⟩
  · simpa using referenced_ok hs
  · simpa using referenced_ok hid

theorem assignments_same {l : SubmissionStatement} (h : l.run db = .ok db') :
    db'.assignments = db.assignments := by
  cases l with
  | selectStatus | withdrawWork =>
    cases h
    rfl
  | submitWork row version =>
    obtain ⟨_, -, h⟩ := bind_eq_ok.mp h
    obtain ⟨_, -, h⟩ := bind_eq_ok.mp h
    obtain ⟨_, -, h⟩ := bind_eq_ok.mp h
    cases h
    rfl
  | saveGrade row change =>
    obtain ⟨_, -, h⟩ := bind_eq_ok.mp h
    obtain ⟨_, -, h⟩ := bind_eq_ok.mp h
    obtain ⟨_, -, h⟩ := bind_eq_ok.mp h
    obtain ⟨_, -, h⟩ := bind_eq_ok.mp h
    cases h
    rfl

theorem submission_kept {l : SubmissionStatement} {s : SubmissionRow} (h : l.run db = .ok db')
    (hs : s ∈ db.submissions.rows) : ∃ s' ∈ db'.submissions.rows, s'.id = s.id ∧
      s'.assignmentId = s.assignmentId ∧ s'.studentId = s.studentId := by
  have hupdate : ∀ {p : SubmissionRow → Bool} {f : SubmissionRow → SubmissionRow}
      {hf : Table.KeepsKeys f}, db'.submissions = db.submissions.update p f hf →
      (f s).id = s.id ∧ (f s).assignmentId = s.assignmentId ∧ (f s).studentId = s.studentId →
      ∃ s' ∈ db'.submissions.rows, s'.id = s.id ∧ s'.assignmentId = s.assignmentId ∧
        s'.studentId = s.studentId := by
    intro p f hf hd hkeys
    refine ⟨_, hd ▸ Table.mem_update.mpr ⟨s, hs, rfl⟩, ?_⟩
    split
    · exact hkeys
    · exact ⟨rfl, rfl, rfl⟩
  cases l with
  | selectStatus assignment student =>
    cases h
    exact ⟨s, hs, rfl, rfl, rfl⟩
  | submitWork row version =>
    rcases Table.upsert_cases (run_submitWork h).1 with ⟨-, hd⟩ | ⟨-, hins⟩
    · exact hupdate hd ⟨rfl, rfl, rfl⟩
    · exact ⟨s, (Table.mem_insert hins).mpr (.inl hs), rfl, rfl, rfl⟩
  | withdrawWork assignment student now => exact hupdate (run_withdrawWork h).1 ⟨rfl, rfl, rfl⟩
  | saveGrade row change =>
    obtain ⟨-, -, -, -, hd, -⟩ := run_saveGrade h
    split at hd
    · exact hupdate hd ⟨rfl, rfl, rfl⟩
    · exact ⟨s, hd ▸ hs, rfl, rfl, rfl⟩

end Statements

abbrev SubmissionProgram := Program Database SubmissionStatement HostError

def maxSubmissionDocumentBytes : Nat := 2*1024*1024
def maxSubmissionPlaintextBytes : Nat := 1024*1024

/-- `jsonBytes` is the length of the text that the JSON library writes. -/
def validateSubmissionPayload (jsonBytes : Json → Nat) (req : SubmitWorkRequest) :
    Except HostError Unit :=
  if maxSubmissionPlaintextBytes < req.plaintext.utf8ByteSize then
    .error (.badRequest "The submission text is too large.")
  else if maxSubmissionDocumentBytes < jsonBytes req.docJson then
    .error (.badRequest "The submission document is too large.")
  else match req.docJson with
    | .obj document =>
      if (document.get "type").bind Json.asStr = some "doc" ∧
          (document.get "content").any Json.isArray = true then .ok ()
      else .error (.badRequest
        "The submission document must contain a doc root and content array.")
    | _ => .error (.badRequest "The submission document must be a ProseMirror document.")

def loadAssignment (id : Uuid) : SubmissionProgram AssignmentRow :=
  queryRow (fun db => do
    let a ← assignment? db id
    let c ← classroom? db a.classroomId
    if a.archivedAt.isNone && c.archivedAt.isNone then some a else none) (.notFound "assignment")

def assertSubmissionVisible (id : Uuid) (user : CurrentUser) : SubmissionProgram Unit :=
  if user.role.isTeacher then do
    let classroom ← queryRow (fun db => do
      let s ← submission? db id
      let a ← assignment? db s.assignmentId
      some a.classroomId) (.notFound "submission")
    requireTeacherAccess classroom user.id
  else do
    let owner ← query fun db => (submission? db id).map fun s => s.studentId
    require (owner = some user.id) .forbidden

def loadVersion (id : Uuid) : SubmissionProgram SubmissionVersion := do
  let v ← queryRow (fun db => db.submissionVersions.find? fun v => v.id = id)
    (.database .queryReturnedNoRows)
  pure {
    id := v.id, versionNumber := v.versionNumber, docJson := v.docJson, plaintext := v.plaintext
    changeNote := v.changeNote, late := v.late, createdAt := v.createdAt }

def loadCurrentVersion : Option Uuid → SubmissionProgram (Option SubmissionVersion)
  | none => pure none
  | some id => do
    let version ← loadVersion id
    pure (some version)

/-- Students see published grades only. -/
def loadGrade (submissionId : Uuid) (teacher : Bool) : SubmissionProgram (Option Grade) := do
  let row ← query fun db => (grade? db submissionId).filter fun g => teacher || g.published
  pure (row.map fun g =>
    { id := g.id, points := g.points, gradeLabel := g.gradeLabel, feedback := g.feedback
      published := g.published, updatedAt := g.updatedAt })

def loadSubmission (id : Uuid) (viewer : CurrentUser) : SubmissionProgram Submission := do
  assertSubmissionVisible id viewer
  let (s, a, u) ← queryRow (fun db => do
    let s ← submission? db id
    let a ← assignment? db s.assignmentId
    let u ← user? db s.studentId
    some (s, a, u)) (.notFound "submission")
  let version ← loadCurrentVersion s.currentVersionId
  let grade ← loadGrade id viewer.role.isTeacher
  pure {
    id := s.id, assignmentId := s.assignmentId, assignmentTitle := a.title
    studentId := s.studentId, studentName := u.displayName, status := s.status, version, grade
    submittedAt := s.submittedAt, updatedAt := s.updatedAt }

def requireSubmissionEditable (status : SubmissionStatus) : SubmissionProgram Unit :=
  require (status ≠ .graded) (.badRequest "Graded work cannot be taken back or resubmitted.")

section Handlers
variable (env : Env)

/-- The submission to write to, and its status afterwards: the existing one, if
it may be changed, or a new one. -/
def submissionTarget : Option (Uuid × SubmissionStatus) →
    SubmissionProgram (Uuid × SubmissionStatus)
  | some (id, status) => do
    requireSubmissionEditable status
    pure (id, .resubmitted)
  | none => pure (env.uuid 0, .submitted)

/-- `SELECT id, status FROM submissions` of the student. -/
def existingSubmission (db : Database) (assignmentId studentId : Uuid) :
    Option (Uuid × SubmissionStatus) :=
  (studentSubmission? db assignmentId studentId).map fun s => (s.id, s.status)

def nextVersion (db : Database) (submissionId : Uuid) : Int :=
  (((submissionVersions db submissionId).map fun v => v.versionNumber).max?).getD 0 + 1

def submitWork (jsonBytes : Json → Nat) (student : CurrentUser) (assignmentId : Uuid)
    (req : SubmitWorkRequest) : SubmissionProgram Submission := do
  requireStudent student
  ofExcept (validateSubmissionPayload jsonBytes req)
  let assignment ← loadAssignment assignmentId
  require (assignment.status = .published)
    (.badRequest "This assignment is not accepting submissions.")
  assertEnrolled assignment.classroomId student.id
  let existing ← executeReturning (.selectStatus assignmentId student.id)
    fun db => existingSubmission db assignmentId student.id
  let target ← submissionTarget env existing
  let next ← query fun db => nextVersion db target.1
  execute (.submitWork
    { id := target.1, assignmentId, studentId := student.id, status := target.2
      currentVersionId := some (env.uuid 1), submittedAt := some (env.now 0)
      updatedAt := env.now 0 }
    { id := env.uuid 1, submissionId := target.1, versionNumber := next, docJson := req.docJson
      plaintext := req.plaintext, changeNote := req.changeNote
      late := assignment.dueAt.any fun due => due < env.now 0, createdAt := env.now 0 })
  loadSubmission target.1 student

def withdrawWork (student : CurrentUser) (assignmentId : Uuid) : SubmissionProgram Unit := do
  requireStudent student
  let existing ← executeReturning (.selectStatus assignmentId student.id)
    fun db => existingSubmission db assignmentId student.id
  match existing with
  | none => .fail (.notFound "submission")
  | some (_, status) => do
    requireSubmissionEditable status
    let changed ← executeReturning (.withdrawWork assignmentId student.id (env.now 0)) fun db =>
      (studentSubmission? db assignmentId student.id).any fun s => s.status ≠ .withdrawn
    require (changed = true) (.notFound "submission")

def gradeSnapshot (g : GradeRow) : GradeSnapshot :=
  { points := g.points, gradeLabel := g.gradeLabel, feedback := g.feedback
    published := g.published, updatedAt := g.updatedAt }

def saveGrade (teacher : CurrentUser) (submissionId : Uuid) (req : SaveGradeRequest) :
    SubmissionProgram Grade := do
  requireTeacher teacher
  assertSubmissionVisible submissionId teacher
  let max ← queryRow (fun db => do
    let s ← submission? db submissionId
    let a ← assignment? db s.assignmentId
    some a.maxPoints) (.notFound "submission")
  require (∀ points ∈ req.points, 0 ≤ points ∧ points ≤ max)
    (.badRequest s!"Points must be between 0 and {showPoints max}.")
  let previous ← query fun db => grade? db submissionId
  let gradeId := (previous.map fun g => g.id).getD (env.uuid 0)
  execute (.saveGrade
    { id := gradeId, submissionId, points := req.points, gradeLabel := req.gradeLabel
      feedback := req.feedback, published := req.publish, gradedBy := teacher.id
      createdAt := env.now 0, updatedAt := env.now 0 }
    { id := env.uuid 1, gradeId, changedBy := teacher.id
      previous := previous.map gradeSnapshot
      current := { points := req.points, gradeLabel := req.gradeLabel, feedback := req.feedback
                   published := req.publish, updatedAt := env.now 0 }
      changedAt := env.now 0 })
  pure {
    id := gradeId, points := req.points, gradeLabel := req.gradeLabel, feedback := req.feedback
    published := req.publish, updatedAt := env.now 0 }

end Handlers

inductive SubmissionRequest where
  | submit (assignment : Uuid) (req : SubmitWorkRequest)
  | withdraw (assignment : Uuid)
  | grade (submission : Uuid) (req : SaveGradeRequest)

/-- A request with its caller and its readings of the clock and of fresh ids. -/
structure SubmissionCall where
  env : Env
  user : CurrentUser
  request : SubmissionRequest

inductive SubmissionReply where
  | submission (s : Submission)
  | withdrawn
  | grade (g : Grade)
  deriving DecidableEq, Repr

def replying {α : Type} (reply : α → SubmissionReply) (p : SubmissionProgram α) :
    SubmissionProgram SubmissionReply := do
  let a ← p
  pure (reply a)

def handle (jsonBytes : Json → Nat) (c : SubmissionCall) : SubmissionProgram SubmissionReply :=
  match c.request with
  | .submit id req => replying .submission (submitWork c.env jsonBytes c.user id req)
  | .withdraw id => replying (fun _ => .withdrawn) (withdrawWork c.env c.user id)
  | .grade id req => replying .grade (saveGrade c.env c.user id req)

section ReadOnly

theorem loadAssignment_readOnly (id : Uuid) : (loadAssignment id).ReadOnly := readOnly_queryRow _ _

theorem assertSubmissionVisible_readOnly (id : Uuid) (user : CurrentUser) :
    (assertSubmissionVisible id user).ReadOnly := by
  unfold assertSubmissionVisible
  split
  · exact (readOnly_queryRow _ _).bind fun _ => requireTeacherAccess_readOnly _ _
  · exact (readOnly_query _).bind fun _ => readOnly_require _ _

theorem loadVersion_readOnly (id : Uuid) : (loadVersion id).ReadOnly :=
  (readOnly_queryRow _ _).bind fun _ => trivial

theorem loadCurrentVersion_readOnly (id : Option Uuid) : (loadCurrentVersion id).ReadOnly := by
  cases id with
  | none => trivial
  | some id => exact (loadVersion_readOnly id).bind fun _ => trivial

theorem loadGrade_readOnly (submissionId : Uuid) (teacher : Bool) :
    (loadGrade submissionId teacher).ReadOnly :=
  (readOnly_query _).bind fun _ => trivial

theorem loadSubmission_readOnly (id : Uuid) (viewer : CurrentUser) :
    (loadSubmission id viewer).ReadOnly :=
  (assertSubmissionVisible_readOnly _ _).bind fun _ => (readOnly_queryRow _ _).bind fun _ =>
    (loadCurrentVersion_readOnly _).bind fun _ => (loadGrade_readOnly _ _).bind fun _ => trivial

theorem submissionTarget_readOnly (env : Env) (existing : Option (Uuid × SubmissionStatus)) :
    (submissionTarget env existing).ReadOnly := by
  cases existing with
  | none => trivial
  | some x => exact (readOnly_require _ _).bind fun _ => trivial

end ReadOnly

def sampleDocument : Json :=
  .obj (.cons "content" (.arr .nil) (.cons "type" (.str "doc") .nil))

def sampleWork : Database :=
  { sampleClassroom with
    assignments := .single
      { id := 4, classroomId := 3, title := "Essay", maxPoints := 10, status := .published }
    submissions := .single
      { id := 5, assignmentId := 4, studentId := 1, status := .submitted
        currentVersionId := some 6, submittedAt := some 1, updatedAt := 1 }
    submissionVersions := .single
      { id := 6, submissionId := 5, versionNumber := 1, docJson := sampleDocument
        plaintext := "An answer.", changeNote := none, late := false, createdAt := 1 } }

end Cinder.Submissions
