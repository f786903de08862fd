import Cinder.Host.HostAccess
set_option autoImplicit false

namespace Cinder.Attendance
open Cinder.Host Cinder.Storage Cinder.Programs Cinder.Programs.Program

/-- The number of a day. The database holds the date it displays as. -/
abbrev NaiveDate := Int

/-- What the libraries make of the date in a path and of the time of a sign-in. -/
structure Calendar where
  parse : String → Option NaiveDate
  localDay : Time → NaiveDate

inductive AttendanceStatus where
  | present | absent | late | excused
  deriving DecidableEq, Repr

def AttendanceStatus.asStr : AttendanceStatus → String
  | .present => "present"
  | .absent => "absent"
  | .late => "late"
  | .excused => "excused"

def AttendanceStatus.fromStr : String → Except String AttendanceStatus
  | "present" => .ok .present
  | "absent" => .ok .absent
  | "late" => .ok .late
  | "excused" => .ok .excused
  | other => .error ("unknown attendance status: " ++ other)

/-- A text that the `CHECK` of the status column admits. -/
abbrev StatusText := { s : String // s ∈ ["present", "absent", "late", "excused"] }

def AttendanceStatus.stored (s : AttendanceStatus) : StatusText :=
  ⟨s.asStr, by cases s <;> decide⟩

structure AttendanceDayRow where
  id : Uuid
  day : NaiveDate
  createdAt : Time
  deriving DecidableEq, Repr

instance : Keyed AttendanceDayRow where
  clash r r' := r.id = r'.id || r.day = r'.day
  refl r := by simp
  symm r r' := by simp [eq_comm]

/-- A record of a classroom. The records of no classroom that old databases keep are matched by
no query. -/
structure AttendanceRecordRow where
  dayId : Uuid
  classroomId : Uuid
  studentId : Uuid
  status : StatusText
  note : String
  markedBy : Uuid
  updatedAt : Time
  deriving DecidableEq, Repr

namespace AttendanceRecordRow

def isFor (classroom student : Uuid) (r : AttendanceRecordRow) : Bool :=
  r.classroomId = classroom && r.studentId = student

end AttendanceRecordRow

instance : Keyed AttendanceRecordRow where
  clash r r' := r.dayId = r'.dayId && r.classroomId = r'.classroomId && r.studentId = r'.studentId
  refl r := by simp
  symm r r' := by simp [eq_comm]

/-- The tables that the attendance routes use; a record refers to a stored day. -/
@[ext] structure Register where
  school : Database
  days : Table AttendanceDayRow
  records : Table AttendanceRecordRow
  dated : ∀ r ∈ records.rows, ∃ d ∈ days.rows, d.id = r.dayId

namespace Register
variable (reg : Register)

def dayId? (day : NaiveDate) : Option Uuid := (reg.days.find? fun d => d.day = day).map (·.id)

def record? (dayId classroom student : Uuid) : Option AttendanceRecordRow :=
  reg.records.find? fun r => r.dayId = dayId && r.isFor classroom student

def recordOn (classroom student : Uuid) (day : NaiveDate) : Option AttendanceRecordRow :=
  (reg.dayId? day).bind fun id => reg.record? id classroom student

def recordedDays (classroom student : Uuid) : Nat :=
  reg.records.rows.countP fun r => r.isFor classroom student

def presentDays (classroom student : Uuid) : Nat :=
  reg.records.rows.countP fun r => r.isFor classroom student && r.status.val = "present"

def attending (classroom : Uuid) (u : UserRow) : Bool :=
  u.role = .student && u.disabledAt.isNone && enrolled reg.school classroom u.id

/-! The statements of the transaction of `save_record`. -/

/-- `INSERT INTO attendance_days … ON CONFLICT(day) DO NOTHING`. -/
def addDay (row : AttendanceDayRow) : Option Register :=
  if reg.days.rows.any fun d => d.day = row.day then some reg
  else match h : reg.days.insert row with
    | none => none
    | some days => some
      { reg with
        days := days
        dated := fun r hr => (reg.dated r hr).imp fun _ hd =>
          ⟨(Table.mem_insert h).mpr (.inl hd.1), hd.2⟩ }

/-- The assignment of the upsert. -/
def overwrite (row r : AttendanceRecordRow) : AttendanceRecordRow :=
  { r with status := row.status, note := row.note, markedBy := row.markedBy
           updatedAt := row.updatedAt }

theorem overwrite_keeps (row : AttendanceRecordRow) : Table.KeepsKeys (overwrite row) :=
  fun _ _ => rfl

def upsertRecords (row : AttendanceRecordRow) : Option (Table AttendanceRecordRow) :=
  reg.records.upsert (fun r => Keyed.clash r row) (overwrite row) (overwrite_keeps row) row

/-- `INSERT INTO attendance_records … ON CONFLICT(day_id, classroom_id, student_id) DO UPDATE`. -/
def putRecord (row : AttendanceRecordRow) : Option Register :=
  if hday : ∃ d ∈ reg.days.rows, d.id = row.dayId then
    match h : reg.upsertRecords row with
    | none => none
    | some records => some
      { reg with
        records := records
        dated := fun r hr => by
          rcases Table.upsert_cases h with ⟨-, rfl⟩ | ⟨-, hins⟩
          · obtain ⟨r', hr', rfl⟩ := Table.mem_update.mp hr
            split
            · exact reg.dated r' hr'
            · exact reg.dated r' hr'
          · rcases (Table.mem_insert hins).mp hr with hold | rfl
            · exact reg.dated r hold
            · exact hday }
  else none

end Register

/-- The transaction of `save_record`. -/
inductive AttendanceStatement where
  | saveRecord (dayId : Uuid) (day : NaiveDate) (classroom student : Uuid)
      (status : AttendanceStatus) (note : String) (teacher : Uuid) (now : Time)
  deriving DecidableEq, Repr

def AttendanceStatement.run : AttendanceStatement → Register → Except HostError Register
  | .saveRecord dayId day classroom student status note teacher now, reg => do
    let reg ← stored (reg.addDay ⟨dayId, day, now⟩)
    let realDayId ← (reg.dayId? day).elim (.error (.database .queryReturnedNoRows)) .ok
    referenced (reg.school.classrooms.rows.any fun k => k.id = classroom)
    referenced (reg.school.users.rows.any fun u => u.id = student)
    referenced (reg.school.users.rows.any fun u => u.id = teacher)
    stored (reg.putRecord ⟨realDayId, classroom, student, status.stored, note, teacher, now⟩)

instance : Engine Register AttendanceStatement HostError := ⟨AttendanceStatement.run⟩

abbrev AttendanceProgram := Program Register AttendanceStatement HostError

structure AttendanceRecord where
  studentId : Uuid
  studentName : String
  status : Option AttendanceStatus
  note : String
  checkedIn : Bool
  presentPercentage : Option UInt8
  deriving DecidableEq, Repr

structure AttendanceDay where
  classroomId : Uuid
  day : NaiveDate
  records : List AttendanceRecord
  deriving DecidableEq, Repr

structure SaveAttendanceRequest where
  studentId : Uuid
  status : AttendanceStatus
  note : String
  deriving DecidableEq, Repr

def attendancePercentage (presentDays recordedDays : Nat) : Option UInt8 :=
  if recordedDays > 0 then
    some (UInt8.ofNat ((presentDays*100+recordedDays/2)/recordedDays))
  else none

def parseDay (cal : Calendar) (raw : String) : Except HostError NaiveDate :=
  (cal.parse raw).elim (.error (.badRequest "Date must be written as YYYY-MM-DD.")) .ok

/-- A row of the query of `read_day`. -/
structure AttendanceRow where
  studentId : Uuid
  displayName : String
  status : Option StatusText
  note : String
  checkedIn : Bool
  presentDays : Nat
  recordedDays : Nat
  deriving DecidableEq, Repr

def attendees (classroom : Uuid) (reg : Register) : List UserRow :=
  (reg.school.users.rows.filter (reg.attending classroom)).mergeSort fun u v =>
    !(lower v.displayName < lower u.displayName)

def attendanceRow (cal : Calendar) (classroom : Uuid) (date : NaiveDate) (reg : Register)
    (u : UserRow) : AttendanceRow :=
  let r := reg.recordOn classroom u.id date
  { studentId := u.id
    displayName := u.displayName
    status := r.map (·.status)
    note := (r.map (·.note)).getD ""
    checkedIn := reg.school.sessions.rows.any fun s =>
      s.userId = u.id && cal.localDay s.createdAt = date
    presentDays := reg.presentDays classroom u.id
    recordedDays := reg.recordedDays classroom u.id }

def attendanceRows (cal : Calendar) (classroom : Uuid) (date : NaiveDate) (reg : Register) :
    List AttendanceRow :=
  (attendees classroom reg).map (attendanceRow cal classroom date reg)

def attendanceRecord (row : AttendanceRow) : Except HostError AttendanceRecord := do
  let status ← row.status.elim (.ok none) fun value =>
    ((AttendanceStatus.fromStr value.val).mapError HostError.other).map some
  .ok { studentId := row.studentId, studentName := row.displayName, status := status
        note := row.note, checkedIn := row.checkedIn
        presentPercentage := attendancePercentage row.presentDays row.recordedDays }

def onSchool {α : Type} (p : Program Database AttendanceStatement HostError α) :
    AttendanceProgram α :=
  p.within (·.school) id

def readDay (cal : Calendar) (teacher : CurrentUser) (classroom : Uuid) (day : String) :
    AttendanceProgram AttendanceDay := do
  onSchool (requireTeacher teacher)
  let date ← ofExcept (parseDay cal day)
  onSchool (requireTeacherAccess classroom teacher.id)
  let rows ← query (attendanceRows cal classroom date)
  let records ← ofExcept (rows.mapM attendanceRecord)
  return ⟨classroom, date, records⟩

def studentName? (classroom student : Uuid) (reg : Register) : Option String :=
  (reg.school.users.find? fun u => u.id = student && reg.attending classroom u).map (·.displayName)

/-- `save_record` from the query of the student on. -/
def storeRecord (env : Env) (teacher : CurrentUser) (classroom : Uuid)
    (req : SaveAttendanceRequest) (date : NaiveDate) : AttendanceProgram AttendanceRecord := do
  let studentName ← queryRow (studentName? classroom req.studentId) (.notFound "student")
  let dayId ← query fun reg => (reg.dayId? date).getD (env.uuid 0)
  let now := env.now 0
  execute (.saveRecord dayId date classroom req.studentId req.status (trim req.note) teacher.id now)
  let (presentDays, recordedDays) ← query fun reg =>
    (reg.presentDays classroom req.studentId, reg.recordedDays classroom req.studentId)
  return { studentId := req.studentId, studentName := studentName, status := some req.status
           note := trim req.note, checkedIn := false
           presentPercentage := attendancePercentage presentDays recordedDays }

def saveRecord (cal : Calendar) (env : Env) (teacher : CurrentUser) (classroom : Uuid)
    (day : String) (req : SaveAttendanceRequest) : AttendanceProgram AttendanceRecord := do
  onSchool (requireTeacher teacher)
  let date ← ofExcept (parseDay cal day)
  onSchool (requireTeacherAccess classroom teacher.id)
  storeRecord env teacher classroom req date

/-- A `PUT` of the register with what it meets. -/
structure AttendanceCall where
  env : Env
  teacher : CurrentUser
  classroom : Uuid
  day : String
  req : SaveAttendanceRequest

def handle (cal : Calendar) (call : AttendanceCall) : AttendanceProgram AttendanceRecord :=
  saveRecord cal call.env call.teacher call.classroom call.day call.req

end Cinder.Attendance
