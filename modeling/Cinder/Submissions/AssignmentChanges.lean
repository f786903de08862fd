import Mathlib.Algebra.Order.Ring.Rat
import Cinder.Submissions.GradedWork
set_option autoImplicit false

/-!
Changing an assignment, next to the requests that hand in and grade its work.
`update_assignment` and `save_grade` each write what they have checked against
an earlier `SELECT`; those reads are statements here, so that the history of a
run tells when they were made.
-/

namespace Cinder.Submissions
open Cinder.Host Cinder.Storage Cinder.Programs Cinder.Programs.Program

structure UpdateAssignmentRequest where
  classroomId : Uuid
  title : String
  instructions : String
  dueAt : Option Time
  maxPoints : ℚ
  gradingScheme : Json
  status : AssignmentStatus
  deriving DecidableEq, Repr

structure Assignment where
  id : Uuid
  classroomId : Uuid
  classroomName : String
  title : String
  instructions : String
  dueAt : Option Time
  maxPoints : ℚ
  gradingScheme : Json
  status : AssignmentStatus
  createdAt : Time
  updatedAt : Time
  deriving DecidableEq, Repr

/-- A statement of the other handlers, a `SELECT` that a later write relies on,
or the `UPDATE` of an assignment. -/
inductive GradingStatement where
  | submission (l : SubmissionStatement)
  | selectMax (submission : Uuid)
  | selectGrade (submission : Uuid)
  | selectHighest (assignment : Uuid)
  | updateAssignment (row : AssignmentRow)
  deriving DecidableEq, Repr

/-- What `UPDATE assignments` sets. -/
def revise (new old : AssignmentRow) : AssignmentRow :=
  { old with
    classroomId := new.classroomId, title := new.title, instructions := new.instructions
    dueAt := new.dueAt, maxPoints := new.maxPoints, gradingScheme := new.gradingScheme
    status := new.status, updatedAt := new.updatedAt }

theorem revise_keeps (new : AssignmentRow) : Table.KeepsKeys (revise new) := fun _ _ => rfl

namespace GradingStatement

def run : GradingStatement → Database → Except HostError Database
  | .submission l, db => l.run db
  | .selectMax _, db => .ok db
  | .selectGrade _, db => .ok db
  | .selectHighest _, db => .ok db
  | .updateAssignment row, db =>
    .ok { db with
      assignments := db.assignments.update (fun a => a.id = row.id && a.archivedAt.isNone)
        (revise row) (revise_keeps row) }

/-- The statement without the reads, which are only recorded. -/
def submission? : GradingStatement → Option SubmissionStatement
  | .submission l => some l
  | _ => none

end GradingStatement

instance : Engine Database GradingStatement HostError := ⟨GradingStatement.run⟩

abbrev GradingProgram := Program Database GradingStatement HostError

/-- `max_points` of the assignment that the work was handed in for. -/
def submissionMax (db : Database) (submissionId : Uuid) : Option ℚ := do
  let s ← submission? db submissionId
  let a ← assignment? db s.assignmentId
  some a.maxPoints

def gradedPoints (db : Database) (assignmentId : Uuid) : List ℚ :=
  (db.submissions.rows.filter fun s => s.assignmentId = assignmentId).flatMap fun s =>
    (db.grades.rows.filter fun g => g.submissionId = s.id).filterMap fun g => g.points

/-- A recorded `SELECT` whose missing row is the error `e`. -/
def selectRow {α : Type} (l : GradingStatement) (q : Database → Option α) (e : HostError) :
    GradingProgram α := do
  let row ← executeReturning l q
  match row with
  | some a => pure a
  | none => .fail e

def loadAssignmentView {L : Type} (id : Uuid) : Program Database L HostError Assignment :=
  queryRow (fun db => do
    let a ← assignment? db id
    let c ← classroom? db a.classroomId
    if a.archivedAt.isNone && c.archivedAt.isNone then some {
      id := a.id, classroomId := a.classroomId, classroomName := c.name, title := a.title
      instructions := a.instructions, dueAt := a.dueAt, maxPoints := a.maxPoints
      gradingScheme := a.gradingScheme, status := a.status, createdAt := a.createdAt
      updatedAt := a.updatedAt } else none) (.notFound "assignment")

def validateClassroomChange (current : Uuid) (status : AssignmentStatus) (requested : Uuid)
    (hasSubmissions : Bool) : Except HostError Unit :=
  if requested ≠ current ∧ (status ≠ .draft ∨ hasSubmissions) then
    .error (.badRequest "A published or submitted assignment cannot move to another classroom.")
  else .ok ()

def hasSubmissions (moved : Bool) (assignmentId : Uuid) : GradingProgram Bool :=
  if moved then query fun db => db.submissions.rows.any fun s => s.assignmentId = assignmentId
  else pure false

section Handlers
variable (env : Env)

def updateAssignment (teacher : CurrentUser) (id : Uuid) (req : UpdateAssignmentRequest) :
    GradingProgram Assignment := do
  requireTeacher teacher
  let existing ← loadAssignmentView id
  requireTeacherAccess existing.classroomId teacher.id
  let submitted ← hasSubmissions (req.classroomId ≠ existing.classroomId) id
  ofExcept (validateClassroomChange existing.classroomId existing.status req.classroomId submitted)
  require (trim req.title ≠ "") (.badRequest "Assignment title is required.")
  require (0 ≤ req.maxPoints) (.badRequest "Maximum points must be zero or greater.")
  let highest ← executeReturning (.selectHighest id) fun db => (gradedPoints db id).max?
  require (∀ points ∈ highest, points ≤ req.maxPoints)
    (.badRequest "Maximum points cannot be lower than an existing grade.")
  let classroomExists ← query fun db =>
    (classroom? db req.classroomId).any fun c => c.archivedAt.isNone
  require (classroomExists = true) (.notFound "classroom")
  requireTeacherAccess req.classroomId teacher.id
  execute (.updateAssignment
    { id, classroomId := req.classroomId, title := trim req.title
      instructions := trim req.instructions, dueAt := req.dueAt, maxPoints := req.maxPoints
      gradingScheme := req.gradingScheme, status := req.status, updatedAt := env.now 0 })
  loadAssignmentView id

/-- `save_grade` with its reads of the maximum and of the grade recorded. -/
def recordedSaveGrade (teacher : CurrentUser) (submissionId : Uuid) (req : SaveGradeRequest) :
    GradingProgram Grade := do
  requireTeacher teacher
  (assertSubmissionVisible submissionId teacher).relabel .submission
  let max ← selectRow (.selectMax submissionId) (fun db => submissionMax db submissionId)
    (.notFound "submission")
  require (∀ points ∈ req.points, 0 ≤ points ∧ points ≤ max)
    (.badRequest s!"Points must be between 0 and {showPoints max}.")
  let previous ← executeReturning (.selectGrade submissionId) fun db => grade? db submissionId
  let gradeId := (previous.map fun g => g.id).getD (env.uuid 0)
  execute (.submission (.saveGrade
    { id := gradeId, submissionId, points := req.points, gradeLabel := req.gradeLabel
      feedback := req.feedback, published := req.publish, gradedBy := teacher.id
      createdAt := env.now 0, updatedAt := env.now 0 }
    { id := env.uuid 1, gradeId, changedBy := teacher.id
      previous := previous.map gradeSnapshot
      current := { points := req.points, gradeLabel := req.gradeLabel, feedback := req.feedback
                   published := req.publish, updatedAt := env.now 0 }
      changedAt := env.now 0 }))
  pure {
    id := gradeId, points := req.points, gradeLabel := req.gradeLabel, feedback := req.feedback
    published := req.publish, updatedAt := env.now 0 }

section Records
variable {α : Type}

theorem unrecord_submission (p : SubmissionProgram α) :
    (p.relabel GradingStatement.submission).unrecord GradingStatement.submission? = p :=
  unrecord_relabel (f := GradingStatement.submission?) (g := .submission) (fun _ => rfl) p

theorem unrecord_require (c : Prop) [Decidable c] (e : HostError) :
    (require c e : GradingProgram Unit).unrecord GradingStatement.submission? = require c e := by
  unfold require
  split <;> rfl

theorem unrecord_selectRow {l : GradingStatement} (hl : l.submission? = none)
    (q : Database → Option α) (e : HostError) :
    (selectRow l q e).unrecord GradingStatement.submission? = queryRow q e := by
  unfold selectRow executeReturning queryRow
  simp only [write_bind, ret_bind, unrecord, hl]
  refine congrArg read (funext fun db => ?_)
  cases q db <;> rfl

end Records

/-- Without the records it is `save_grade`. -/
theorem unrecord_recordedSaveGrade (teacher : CurrentUser) (submissionId : Uuid)
    (req : SaveGradeRequest) :
    (recordedSaveGrade env teacher submissionId req).unrecord GradingStatement.submission? =
      saveGrade env teacher submissionId req := by
  unfold recordedSaveGrade saveGrade requireTeacher
  rw [unrecord_bind, unrecord_require]
  refine congrArg _ (funext fun _ => ?_)
  rw [unrecord_bind, unrecord_submission]
  refine congrArg _ (funext fun _ => ?_)
  rw [unrecord_bind, unrecord_selectRow rfl]
  refine congrArg _ (funext fun max => ?_)
  rw [unrecord_bind, unrecord_require]
  rfl

end Handlers

inductive GradingRequest where
  | submission (req : SubmissionRequest)
  | updateAssignment (id : Uuid) (req : UpdateAssignmentRequest)

structure GradingCall where
  env : Env
  user : CurrentUser
  request : GradingRequest

inductive GradingReply where
  | submission (reply : SubmissionReply)
  | assignment (a : Assignment)
  deriving DecidableEq, Repr

def handleGrading (jsonBytes : Json → Nat) (c : GradingCall) : GradingProgram GradingReply :=
  match c.request with
  | .submission (.grade id req) => do
    let grade ← recordedSaveGrade c.env c.user id req
    pure (.submission (.grade grade))
  | .submission req => do
    let reply ← (handle jsonBytes ⟨c.env, c.user, req⟩).relabel .submission
    pure (.submission reply)
  | .updateAssignment id req => do
    let a ← updateAssignment c.env c.user id req
    pure (.assignment a)

abbrev GradingPool (ι : Type) :=
  Pool ι GradingCall Database GradingStatement HostError GradingReply

/-- The grade and the change that a transaction of `save_grade` writes. -/
def GradingStatement.saved : GradingStatement → Option (GradeRow × GradeChangeRow)
  | .submission (.saveGrade row change) => some (row, change)
  | _ => none

/-- The statement is the transaction of `save_grade`. -/
def GradingStatement.savesGrade : GradingStatement → Bool
  | .submission (.saveGrade _ _) => true
  | _ => false

/-- The statement is one of `submit_work` or `withdraw_work`. -/
def GradingStatement.ofStudent : GradingStatement → Bool
  | .submission (.saveGrade _ _) => false
  | .submission _ => true
  | _ => false

theorem savesGrade_of_student (l : GradingStatement) (h : l.ofStudent = true) :
    l.savesGrade = false := by
  cases l with
  | selectMax | selectGrade | selectHighest | updateAssignment => rfl
  | submission l =>
    cases l with
    | selectStatus | submitWork | withdrawWork => rfl
    | saveGrade => cases h

section Writes
variable (env : Env) {c : GradingStatement → Prop}

theorem hasSubmissions_readOnly (moved : Bool) (id : Uuid) : (hasSubmissions moved id).ReadOnly := by
  cases moved with
  | true => exact readOnly_query _
  | false => trivial

theorem loadAssignmentView_readOnly {L : Type} (id : Uuid) :
    (loadAssignmentView id : Program Database L HostError Assignment).ReadOnly :=
  readOnly_queryRow _ _

theorem selectRow_writes {α : Type} {l : GradingStatement} (q : Database → Option α)
    (e : HostError) (h : c l) : (selectRow l q e).WritesOnly c :=
  WritesOnly.bind (p := executeReturning l q) ⟨h, fun _ => trivial⟩ fun row => by
    cases row <;> trivial

theorem exec_recordedSaveGrade (teacher : CurrentUser) (submissionId : Uuid)
    (req : SaveGradeRequest) (db : Database) :
    (recordedSaveGrade env teacher submissionId req).exec db =
      (saveGrade env teacher submissionId req).exec db := by
  rw [← unrecord_recordedSaveGrade]
  refine (exec_unrecord (fun l l' s hl => ?_) ?_ db).symm
  · cases l <;> cases hl
    rfl
  · refine (requireTeacher_readOnly _).writesOnly.bind fun _ => ?_
    refine (WritesOnly.relabel (assertSubmissionVisible_readOnly _ _).writesOnly).bind fun _ => ?_
    refine (selectRow_writes _ _ fun _ _ => rfl).bind fun max => ?_
    refine (readOnly_require _ _).writesOnly.bind fun _ => ?_
    refine (writesOnly_executeReturning _ fun _ _ => rfl).bind fun previous => ?_
    exact (writesOnly_execute (fun hl => by cases hl)).bind fun _ => writesOnly_pure _

attribute [local irreducible] WritesOnly in
/-- `update_assignment` reads the grades once and then writes the assignment. -/
theorem updateAssignment_writes (teacher : CurrentUser) (id : Uuid)
    (req : UpdateAssignmentRequest) (hselect : c (.selectHighest id))
    (hupdate : ∀ row, c (.updateAssignment row)) :
    (updateAssignment env teacher id req).WritesOnly c := by
  refine (requireTeacher_readOnly _).writesOnly.bind fun _ => ?_
  refine (loadAssignmentView_readOnly _).writesOnly.bind fun existing => ?_
  refine (requireTeacherAccess_readOnly _ _).writesOnly.bind fun _ => ?_
  refine (hasSubmissions_readOnly _ _).writesOnly.bind fun submitted => ?_
  refine (readOnly_ofExcept _).writesOnly.bind fun _ => ?_
  refine (readOnly_require _ _).writesOnly.bind fun _ => ?_
  refine (readOnly_require _ _).writesOnly.bind fun _ => ?_
  refine (writesOnly_executeReturning _ hselect).bind fun highest => ?_
  refine (readOnly_require _ _).writesOnly.bind fun _ => ?_
  refine (readOnly_query _).writesOnly.bind fun classroomExists => ?_
  refine (readOnly_require _ _).writesOnly.bind fun _ => ?_
  refine (requireTeacherAccess_readOnly _ _).writesOnly.bind fun _ => ?_
  refine WritesOnly.bind (writesOnly_execute (hupdate _)) fun _ => ?_
  exact (loadAssignmentView_readOnly _).writesOnly

theorem student_writes (jsonBytes : Json → Nat) (call : SubmissionCall)
    (hstudent : call.request.ofStudent = true) :
    ((handle jsonBytes call).relabel GradingStatement.submission).WritesOnly
      fun l => l.ofStudent = true := by
  refine WritesOnly.relabel ((handle_writes jsonBytes call).imp fun l hl => ?_)
  rw [hstudent] at hl
  cases l with
  | saveGrade => cases hl
  | selectStatus | submitWork | withdrawWork => rfl

end Writes

section Statements
variable {db db' : Database}

structure GradeContent where
  points : Option ℚ
  gradeLabel : Option String
  feedback : String
  deriving DecidableEq, Repr

def contentOf (g : GradeSnapshot) : GradeContent := ⟨g.points, g.gradeLabel, g.feedback⟩

theorem points_of_content {g g' : GradeRow}
    (h : contentOf (gradeSnapshot g') = contentOf (gradeSnapshot g)) : g'.points = g.points :=
  congrArg GradeContent.points h

/-- A stored grade stays stored, and only `save_grade` changes what it says. -/
theorem grade_kept {l : GradingStatement} {g : GradeRow} (h : l.run db = .ok db')
    (hg : g ∈ db.grades.rows) : ∃ g' ∈ db'.grades.rows, g'.id = g.id ∧
      g'.submissionId = g.submissionId ∧ (l.savesGrade = false →
        contentOf (gradeSnapshot g') = contentOf (gradeSnapshot g)) := by
  have hsame : db'.grades = db.grades → ∃ g' ∈ db'.grades.rows, g'.id = g.id ∧
      g'.submissionId = g.submissionId ∧ (l.savesGrade = false →
        contentOf (gradeSnapshot g') = contentOf (gradeSnapshot g)) := fun hd =>
    ⟨g, hd ▸ hg, rfl, rfl, fun _ => rfl⟩
  cases l with
  | selectMax | selectGrade | selectHighest | updateAssignment =>
    cases h
    exact hsame rfl
  | submission l =>
    cases l with
    | selectStatus =>
      cases h
      exact hsame rfl
    | withdrawWork => exact hsame (run_withdrawWork h).2.2.1
    | submitWork row version =>
      obtain ⟨-, -, -, hd, -⟩ := run_submitWork h
      split at hd
      · refine ⟨_, hd ▸ Table.mem_update.mpr ⟨g, hg, rfl⟩, ?_⟩
        split <;> exact ⟨rfl, rfl, fun _ => rfl⟩
      · exact hsame hd
    | saveGrade row change =>
      obtain ⟨-, hupsert, -⟩ := run_saveGrade h
      rcases Table.upsert_cases hupsert with ⟨-, hd⟩ | ⟨-, hins⟩
      · refine ⟨_, hd ▸ Table.mem_update.mpr ⟨g, hg, rfl⟩, ?_⟩
        split <;> exact ⟨rfl, rfl, fun hl => by cases hl⟩
      · exact ⟨g, (Table.mem_insert hins).mpr (.inl hg), rfl, rfl, fun _ => rfl⟩

theorem grade_from {l : GradingStatement} {g' : GradeRow} (h : l.run db = .ok db')
    (hg : g' ∈ db'.grades.rows) :
    (∃ g ∈ db.grades.rows, g'.id = g.id ∧ g'.submissionId = g.submissionId ∧
      contentOf (gradeSnapshot g') = contentOf (gradeSnapshot g)) ∨
    ∃ row change, l = .submission (.saveGrade row change) ∧
      g'.submissionId = row.submissionId ∧
      contentOf (gradeSnapshot g') = contentOf (gradeSnapshot row) := by
  have hsame : db'.grades = db.grades → ∃ g ∈ db.grades.rows, g'.id = g.id ∧
      g'.submissionId = g.submissionId ∧
        contentOf (gradeSnapshot g') = contentOf (gradeSnapshot g) := fun hd =>
    ⟨g', hd ▸ hg, rfl, rfl, rfl⟩
  cases l with
  | selectMax | selectGrade | selectHighest | updateAssignment =>
    cases h
    exact .inl (hsame rfl)
  | submission l =>
    cases l with
    | selectStatus =>
      cases h
      exact .inl (hsame rfl)
    | withdrawWork => exact .inl (hsame (run_withdrawWork h).2.2.1)
    | submitWork row version =>
      obtain ⟨-, -, -, hd, -⟩ := run_submitWork h
      split at hd
      · rw [hd] at hg
        obtain ⟨g, hold, rfl⟩ := Table.mem_update.mp hg
        exact .inl ⟨g, hold, by split <;> exact ⟨rfl, rfl, rfl⟩⟩
      · exact .inl (hsame hd)
    | saveGrade row change =>
      obtain ⟨-, hupsert, -⟩ := run_saveGrade h
      rcases Table.upsert_cases hupsert with ⟨-, hd⟩ | ⟨-, hins⟩
      · rw [hd] at hg
        obtain ⟨g, hold, rfl⟩ := Table.mem_update.mp hg
        split
        · next hkey => exact .inr ⟨row, change, rfl, by simpa [regrade] using hkey, rfl⟩
        · exact .inl ⟨g, hold, rfl, rfl, rfl⟩
      · rcases (Table.mem_insert hins).mp hg with hold | rfl
        · exact .inl ⟨g', hold, rfl, rfl, rfl⟩
        · exact .inr ⟨g', change, rfl, rfl, rfl⟩

theorem work_kept {l : GradingStatement} {s : SubmissionRow} (h : l.run db = .ok db')
    (hs : s ∈ db.submissions.rows) :
    ∃ s' ∈ db'.submissions.rows, s'.id = s.id ∧ s'.assignmentId = s.assignmentId := by
  cases l with
  | selectMax | selectGrade | selectHighest | updateAssignment =>
    cases h
    exact ⟨s, hs, rfl, rfl⟩
  | submission l =>
    obtain ⟨s', hs', hid, ha, -⟩ := submission_kept h hs
    exact ⟨s', hs', hid, ha⟩

theorem work_same {l : GradingStatement} {s s' : SubmissionRow} (h : l.run db = .ok db')
    (hs : s ∈ db.submissions.rows) (hs' : s' ∈ db'.submissions.rows) (hid : s'.id = s.id) :
    s'.assignmentId = s.assignmentId := by
  obtain ⟨s'', hs'', hid', ha⟩ := work_kept h hs
  rw [← ha, Table.eq_of_clash hs' hs'' (by simp [Keyed.clash, hid, hid'])]

/-- An assignment that is stored was stored before, with the same maximum, or
has the maximum that was just set. -/
theorem assignment_from {l : GradingStatement} {a' : AssignmentRow} (h : l.run db = .ok db')
    (ha : a' ∈ db'.assignments.rows) : ∃ a ∈ db.assignments.rows, a'.id = a.id ∧
      (a'.maxPoints = a.maxPoints ∨
        ∃ row, l = .updateAssignment row ∧ row.id = a.id ∧ a'.maxPoints = row.maxPoints) := by
  have hsame : db'.assignments = db.assignments → ∃ a ∈ db.assignments.rows, a'.id = a.id ∧
      (a'.maxPoints = a.maxPoints ∨
        ∃ row, l = .updateAssignment row ∧ row.id = a.id ∧ a'.maxPoints = row.maxPoints) :=
    fun hd => ⟨a', hd ▸ ha, rfl, .inl rfl⟩
  cases l with
  | selectMax | selectGrade | selectHighest =>
    cases h
    exact hsame rfl
  | submission l => exact hsame (assignments_same h)
  | updateAssignment row =>
    cases h
    dsimp only at ha
    obtain ⟨a, hold, rfl⟩ := Table.mem_update.mp ha
    refine ⟨a, hold, ?_⟩
    split
    · next hkey =>
      simp only [Bool.and_eq_true, decide_eq_true_eq] at hkey
      exact ⟨rfl, .inr ⟨row, rfl, hkey.1.symm, rfl⟩⟩
    · exact ⟨rfl, .inl rfl⟩

end Statements

end Cinder.Submissions
