import Cinder.Host.HostTables
import Cinder.Programs.Refusals
set_option autoImplicit false

namespace Cinder.Host
open Cinder.Storage Cinder.Programs Cinder.Programs.Program

structure CurrentUser where
  id : Uuid
  role : Role
  deriving DecidableEq, Repr

/-- The successive results of `Utc::now` and `Uuid::new_v4` in one request. -/
structure Env where
  now : Nat → Time
  uuid : Nat → Uuid

section Rows
variable (db : Database)

def user? (id : Uuid) : Option UserRow := db.users.find? fun u => u.id = id
def classroom? (id : Uuid) : Option ClassroomRow := db.classrooms.find? fun c => c.id = id

def enrolled (classroomId studentId : Uuid) : Bool :=
  db.classroomEnrolments.rows.any fun e =>
    e.classroomId = classroomId && e.studentId = studentId

def activelyEnrolled (classroomId studentId : Uuid) : Bool :=
  enrolled db classroomId studentId && (classroom? db classroomId).any fun c => c.archivedAt.isNone

def teaches (c : ClassroomRow) (teacherId : Uuid) : Bool :=
  c.ownerTeacherId = teacherId || db.classroomTeachers.rows.any fun ct =>
    ct.classroomId = c.id && ct.teacherId = teacherId

def teacherCanAccess (classroomId teacherId : Uuid) : Bool :=
  db.classrooms.rows.any fun c =>
    c.id = classroomId && c.archivedAt.isNone && teaches db c teacherId

end Rows

section Guards
variable {L : Type}

def requireTeacher (user : CurrentUser) : Program Database L HostError Unit :=
  require (user.role.isTeacher = true) .forbidden

def requireStudent (user : CurrentUser) : Program Database L HostError Unit :=
  require (user.role.isTeacher = false) .forbidden

def requireTeacherAccess (classroomId teacherId : Uuid) : Program Database L HostError Unit := do
  let access ← query fun db => teacherCanAccess db classroomId teacherId
  require (access = true) .forbidden

def assertEnrolled (classroom student : Uuid) : Program Database L HostError Unit := do
  let enrolled ← query fun db => enrolled db classroom student
  require (enrolled = true) .forbidden

@[simp] theorem requireTeacher_readOnly (user : CurrentUser) :
    (requireTeacher user : Program Database L HostError Unit).ReadOnly := readOnly_require _ _

@[simp] theorem requireStudent_readOnly (user : CurrentUser) :
    (requireStudent user : Program Database L HostError Unit).ReadOnly := readOnly_require _ _

@[simp] theorem requireTeacherAccess_readOnly (classroomId teacherId : Uuid) :
    (requireTeacherAccess classroomId teacherId : Program Database L HostError Unit).ReadOnly :=
  (readOnly_query _).bind fun _ => readOnly_require _ _

theorem assertEnrolled_readOnly (classroom student : Uuid) :
    (assertEnrolled classroom student : Program Database L HostError Unit).ReadOnly :=
  (readOnly_query _).bind fun _ => readOnly_require _ _

section Checks
variable [Engine Database L HostError] {db : Database} {α : Type}
variable {f : Unit → Program Database L HostError α}

theorem refusedUnless_requireStudent_bind {c : Prop} {user : CurrentUser}
    (h : user.role.isTeacher = false → (f ()).RefusedUnless c db) :
    (requireStudent user >>= f).RefusedUnless c db := refusedUnless_require_bind h

theorem succeeds_requireStudent_bind {user : CurrentUser} (huser : user.role.isTeacher = false)
    (h : (f ()).Succeeds db) : (requireStudent user >>= f).Succeeds db :=
  succeeds_require_bind huser h

theorem exec_requireTeacherAccess {classroom teacher : Uuid}
    (haccess : teacherCanAccess db classroom teacher = true) :
    (requireTeacherAccess classroom teacher : Program Database L HostError Unit).exec db =
      (.ok (), db) := by
  unfold requireTeacherAccess
  rw [exec_bind_ok _ (exec_query _ db), exec_require, if_pos haccess]

theorem refusedUnless_requireTeacherAccess_bind {c : Prop} {classroom teacher : Uuid}
    (h : teacherCanAccess db classroom teacher = true → (f ()).RefusedUnless c db) :
    (requireTeacherAccess classroom teacher >>= f).RefusedUnless c db :=
  refusedUnless_bind (requireTeacherAccess_readOnly _ _) fun _ ha =>
    h (exec_require_ok (show (require (teacherCanAccess db classroom teacher = true)
      HostError.forbidden : Program Database L HostError Unit).exec db = _ from ha)).1

theorem classroom?_of_access {classroom teacher : Uuid}
    (haccess : teacherCanAccess db classroom teacher = true) :
    ∃ k, classroom? db classroom = some k := by
  obtain ⟨k, hk, hsame⟩ := List.any_eq_true.mp haccess
  simp only [Bool.and_eq_true, decide_eq_true_eq] at hsame
  refine ⟨k, Table.find?_of_mem hk (by simpa using hsame.1.1) fun k' _ hk' => ?_⟩
  simp only [decide_eq_true_eq] at hk'
  simp [Keyed.clash, hk', hsame.1.1]

theorem refusedUnless_assertEnrolled_bind {c : Prop} {classroom student : Uuid}
    (h : enrolled db classroom student = true → (f ()).RefusedUnless c db) :
    (assertEnrolled classroom student >>= f).RefusedUnless c db :=
  refusedUnless_bind (assertEnrolled_readOnly _ _) fun _ ha =>
    h (exec_require_ok (show (require (enrolled db classroom student = true) HostError.forbidden :
      Program Database L HostError Unit).exec db = _ from ha)).1

theorem succeeds_assertEnrolled_bind {classroom student : Uuid}
    (henrolled : enrolled db classroom student = true) (h : (f ()).Succeeds db) :
    (assertEnrolled classroom student >>= f).Succeeds db :=
  succeeds_require_bind henrolled h

end Checks

end Guards

def sampleTeacher : CurrentUser := ⟨2, .teacher⟩

def sampleStudent : CurrentUser := ⟨1, .student⟩

def sampleClassroom : Database where
  users := ⟨[{ id := 1, username := "ada", displayName := "Ada", pwHash := "h1"
               role := .student, createdAt := 0 },
             { id := 2, username := "tim", displayName := "Tim", pwHash := "h2"
               role := .teacher, createdAt := 0 }], by decide +kernel⟩
  classrooms := .single { id := 3, name := "Maths", ownerTeacherId := 2 }
  classroomEnrolments := .single ⟨3, 1⟩

/-- Readings of a request that begins at time `t`. -/
def sampleEnv (t : Time) : Env := ⟨fun n => t+n, fun n => 100*t.toNat+n⟩

end Cinder.Host
