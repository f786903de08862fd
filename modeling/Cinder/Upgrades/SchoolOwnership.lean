import Cinder.Host.HostValues
import Cinder.Storage.SelectedRows
import Cinder.Storage.UniqueTable
set_option autoImplicit false

/-!
The two migrations that give classrooms their owners and attendance its classroom, on a
school's data. Ids and times are texts, and are compared as texts.
-/

namespace Cinder.Upgrades
open Cinder.Host (Role)
open Cinder.Storage

structure UserRow where
  id : String
  role : Role
  createdAt : String
  disabledAt : Option String
  deriving DecidableEq, Repr

instance : Keyed UserRow where
  clash r r' := r.id = r'.id
  refl r := by simp
  symm r r' := by simp [eq_comm]

structure ClassroomRow where
  id : String
  name : String
  subjectCode : Option String
  description : String
  color : String
  createdAt : String
  archivedAt : Option String
  deriving DecidableEq, Repr

instance : Keyed ClassroomRow where
  clash r r' := r.id = r'.id
  refl r := by simp
  symm r r' := by simp [eq_comm]

structure OwnedClassroomRow extends ClassroomRow where
  ownerTeacherId : Option String
  enrolmentCode : Option String
  deriving DecidableEq, Repr

/-- `COLLATE NOCASE`. -/
def nocase (s : String) : List Char := s.toList.map Char.toLower

/-- NULL is not the same code as NULL. -/
def sameCode (r r' : OwnedClassroomRow) : Bool :=
  r.enrolmentCode.isSome && r.enrolmentCode.map nocase = r'.enrolmentCode.map nocase

theorem sameCode_symm (r r' : OwnedClassroomRow) : sameCode r r' = sameCode r' r := by
  unfold sameCode
  cases r.enrolmentCode <;> cases r'.enrolmentCode <;> simp [eq_comm]

instance : Keyed OwnedClassroomRow where
  clash r r' := r.id = r'.id || sameCode r r'
  refl r := by simp
  symm r r' := by simp [eq_comm, sameCode_symm]

structure ClassroomTeacherRow where
  classroomId : String
  teacherId : String
  addedBy : String
  createdAt : String
  deriving DecidableEq, Repr

instance : Keyed ClassroomTeacherRow where
  clash r r' := r.classroomId = r'.classroomId && r.teacherId = r'.teacherId
  refl r := by simp
  symm r r' := by simp [eq_comm]

structure EnrolmentRow where
  classroomId : String
  studentId : String
  createdAt : String
  deriving DecidableEq, Repr

instance : Keyed EnrolmentRow where
  clash r r' := r.classroomId = r'.classroomId && r.studentId = r'.studentId
  refl r := by simp
  symm r r' := by simp [eq_comm]

structure AttendanceDayRow where
  id : String
  day : String
  createdAt : String
  deriving DecidableEq, Repr

instance : Keyed AttendanceDayRow where
  clash r r' := r.id = r'.id || r.day = r'.day
  refl r := by simp
  symm r r' := by simp [eq_comm]

inductive AttendanceStatus where
  | present | absent | late | excused
  deriving DecidableEq, Repr

/-- A row of `attendance_records` as it was, one for each day and student. -/
structure SchoolwideRow where
  dayId : String
  studentId : String
  status : AttendanceStatus
  note : String
  markedBy : String
  updatedAt : String
  deriving DecidableEq, Repr

instance : Keyed SchoolwideRow where
  clash r r' := r.dayId = r'.dayId && r.studentId = r'.studentId
  refl r := by simp
  symm r r' := by simp [eq_comm]

structure AttendanceRow extends SchoolwideRow where
  classroomId : Option String
  deriving DecidableEq, Repr

/-- `PRIMARY KEY (day_id, classroom_id, student_id)`, where no NULL is another. -/
def sameMark (r r' : AttendanceRow) : Bool :=
  r.dayId = r'.dayId && r.classroomId.isSome && r.classroomId = r'.classroomId &&
    r.studentId = r'.studentId

structure AttendanceRecords where
  rows : List AttendanceRow
  unique : rows.Pairwise fun r r' => sameMark r r' = false

/-- The tables before the first of the two migrations. -/
structure Schema4 where
  users : Table UserRow
  classrooms : Table ClassroomRow
  classroomEnrolments : Table EnrolmentRow
  attendanceDays : Table AttendanceDayRow
  attendanceRecords : Table SchoolwideRow

structure Schema5 where
  users : Table UserRow
  classrooms : Table OwnedClassroomRow
  classroomTeachers : Table ClassroomTeacherRow
  classroomEnrolments : Table EnrolmentRow
  attendanceDays : Table AttendanceDayRow
  attendanceRecords : Table SchoolwideRow

structure Schema6 where
  users : Table UserRow
  classrooms : Table OwnedClassroomRow
  classroomTeachers : Table ClassroomTeacherRow
  classroomEnrolments : Table EnrolmentRow
  attendanceDays : Table AttendanceDayRow
  attendanceRecords : AttendanceRecords

def enabledTeacher (u : UserRow) : Bool := u.role = .teacher && u.disabledAt.isNone

/-- `ORDER BY created_at, id`. -/
def orderedBefore (a b : String × String) : Bool := a.1 < b.1 || (a.1 = b.1 && a.2 ≤ b.2)

def firstTeacher (users : Table UserRow) : Option String :=
  (firstBy (fun u u' => orderedBefore (u.createdAt, u.id) (u'.createdAt, u'.id))
    (users.rows.filter enabledTeacher)).map (·.id)

def foreignKey (c : Prop) [Decidable c] : Except String Unit :=
  if c then .ok () else .error "FOREIGN KEY constraint failed"

def uniqueKey {α : Type} (columns : String) : Option α → Except String α
  | some a => .ok a
  | none => .error ("UNIQUE constraint failed: " ++ columns)

section Owners

def hexDigit (n : Nat) : Char := "0123456789ABCDEF".toList.getD n '0'

def hex (blob : List UInt8) : List Char :=
  blob.flatMap fun b => [hexDigit (b.toNat / 16), hexDigit (b.toNat % 16)]

/-- `upper(substr(hex(randomblob(8)), 1, 8))`. -/
def enrolmentCode (blob : List UInt8) : String :=
  String.ofList (((hex blob).take 8).map Char.toUpper)

def addOwnerColumns (c : ClassroomRow) : OwnedClassroomRow :=
  { c with ownerTeacherId := none, enrolmentCode := none }

def assignOwner (users : Table UserRow) (c : OwnedClassroomRow) : OwnedClassroomRow :=
  if c.ownerTeacherId.isNone then { c with ownerTeacherId := firstTeacher users } else c

def assignCode (blob : List UInt8) (c : OwnedClassroomRow) : OwnedClassroomRow :=
  if c.enrolmentCode.isNone then { c with enrolmentCode := some (enrolmentCode blob) } else c

def coTeachers (users : Table UserRow) (classrooms : List OwnedClassroomRow) :
    List ClassroomTeacherRow :=
  let owned := classrooms.filterMap fun c => c.ownerTeacherId.map fun owner => (c, owner)
  (joined (fun c teacher => enabledTeacher teacher && teacher.id ≠ c.2) owned users.rows).map
    fun p => ⟨p.1.1.id, p.2.id, p.1.2, p.1.1.createdAt⟩

def userIds (users : Table UserRow) : List String := users.rows.map (·.id)

def migration0005 (randomblob : Nat → List UInt8) (db : Schema4) : Except String Schema5 := do
  let owned := (db.classrooms.rows.map addOwnerColumns).map (assignOwner db.users)
  foreignKey (∀ c ∈ owned, ∀ owner ∈ c.ownerTeacherId, owner ∈ userIds db.users)
  let classrooms ← uniqueKey "classrooms.enrolment_code"
    (Table.ofRows (owned.mapIdx fun i c => assignCode (randomblob i) c))
  let classroomTeachers ← uniqueKey
    "classroom_teachers.classroom_id, classroom_teachers.teacher_id"
    (Table.empty.insertAll (coTeachers db.users classrooms.rows))
  foreignKey (∀ t ∈ classroomTeachers.rows, t.classroomId ∈ classrooms.rows.map (·.id) ∧
    t.teacherId ∈ userIds db.users ∧ t.addedBy ∈ userIds db.users)
  pure { users := db.users, classrooms, classroomTeachers
         classroomEnrolments := db.classroomEnrolments, attendanceDays := db.attendanceDays
         attendanceRecords := db.attendanceRecords }

end Owners

section Attendance
variable (db : Schema5)

def needsOwner (c : OwnedClassroomRow) : Bool :=
  (c.ownerTeacherId.isNone || !db.users.rows.any fun owner =>
    c.ownerTeacherId = some owner.id && enabledTeacher owner) && db.users.rows.any enabledTeacher

def repairOwner (c : OwnedClassroomRow) : OwnedClassroomRow :=
  { c with ownerTeacherId := firstTeacher db.users }

theorem keepsKeys_repairOwner : Table.KeepsKeys (repairOwner db) := fun _ _ => rfl

/-- The classrooms after the repair. -/
def repaired : Table OwnedClassroomRow :=
  db.classrooms.update (needsOwner db) (repairOwner db) (keepsKeys_repairOwner db)

/-- The trigger `classrooms_require_owner_update`. -/
def requireOwner (rows : List OwnedClassroomRow) : Except String Unit :=
  if ∀ c ∈ rows, c.ownerTeacherId.isSome = true ∧ c.enrolmentCode.isSome = true then .ok ()
  else .error "classroom owner and enrolment code are required"

def classroomOf (classrooms : Table OwnedClassroomRow) (studentId : String) : Option String :=
  (firstBy (fun p p' => orderedBefore (p.2.createdAt, p.2.id) (p'.2.createdAt, p'.2.id))
    (joined (fun enrolment classroom => classroom.id = enrolment.classroomId)
      (db.classroomEnrolments.rows.filter fun enrolment => enrolment.studentId = studentId)
      classrooms.rows)).map fun p => p.1.classroomId

def placeRecord (classrooms : Table OwnedClassroomRow) (legacy : SchoolwideRow) : AttendanceRow :=
  { legacy with classroomId := classroomOf db classrooms legacy.studentId }

def insertRecords (rows : List AttendanceRow) : Except String AttendanceRecords :=
  if h : rows.Pairwise fun r r' => sameMark r r' = false then .ok ⟨rows, h⟩
  else .error ("UNIQUE constraint failed: attendance_records.day_id, " ++
    "attendance_records.classroom_id, attendance_records.student_id")

def migration0006 : Except String Schema6 := do
  requireOwner ((db.classrooms.rows.filter (needsOwner db)).map (repairOwner db))
  let classrooms := repaired db
  foreignKey (∀ owner ∈ firstTeacher db.users, owner ∈ userIds db.users)
  let attendanceRecords ← insertRecords (db.attendanceRecords.rows.map (placeRecord db classrooms))
  foreignKey (∀ a ∈ attendanceRecords.rows, a.dayId ∈ db.attendanceDays.rows.map (·.id) ∧
    (∀ k ∈ a.classroomId, k ∈ classrooms.rows.map (·.id)) ∧
    a.studentId ∈ userIds db.users ∧ a.markedBy ∈ userIds db.users)
  pure { users := db.users, classrooms, classroomTeachers := db.classroomTeachers
         classroomEnrolments := db.classroomEnrolments, attendanceDays := db.attendanceDays
         attendanceRecords }

end Attendance

structure Referenced (users : Table UserRow) (classroomIds : List String)
    (enrolments : Table EnrolmentRow) (attendanceDays : Table AttendanceDayRow)
    (records : Table SchoolwideRow) : Prop where
  enrolments : ∀ e ∈ enrolments.rows, e.classroomId ∈ classroomIds ∧ e.studentId ∈ userIds users
  records : ∀ a ∈ records.rows, a.dayId ∈ attendanceDays.rows.map (·.id) ∧
    a.studentId ∈ userIds users ∧ a.markedBy ∈ userIds users

def Schema4.Valid (db : Schema4) : Prop :=
  Referenced db.users (db.classrooms.rows.map (·.id)) db.classroomEnrolments db.attendanceDays
    db.attendanceRecords

structure Schema5.Valid (db : Schema5) : Prop where
  references : Referenced db.users (db.classrooms.rows.map (·.id)) db.classroomEnrolments
    db.attendanceDays db.attendanceRecords
  coded : ∀ c ∈ db.classrooms.rows, c.enrolmentCode.isSome = true

/-- The first `n` codes drawn are distinct, whatever the case. -/
def DistinctCodes (randomblob : Nat → List UInt8) (n : Nat) : Prop :=
  ((List.range n).map fun i => nocase (enrolmentCode (randomblob i))).Nodup

theorem firstTeacher_mem {users : Table UserRow} {owner : String}
    (h : firstTeacher users = some owner) :
    ∃ u ∈ users.rows, enabledTeacher u = true ∧ u.id = owner := by
  obtain ⟨u, hu, rfl⟩ := Option.map_eq_some_iff.mp h
  obtain ⟨hmem, henabled⟩ := List.mem_filter.mp (firstBy_mem hu)
  exact ⟨u, hmem, henabled, rfl⟩

theorem firstTeacher_isSome {users : Table UserRow}
    (h : ∃ u ∈ users.rows, enabledTeacher u = true) : (firstTeacher users).isSome = true := by
  obtain ⟨u, hu, henabled⟩ := h
  have hne : users.rows.filter enabledTeacher ≠ [] :=
    List.ne_nil_of_mem (List.mem_filter.mpr ⟨hu, henabled⟩)
  rw [firstTeacher, Option.isSome_map]
  exact firstBy_isSome.mpr hne

theorem firstTeacher_user {users : Table UserRow} {owner : String}
    (h : owner ∈ firstTeacher users) : owner ∈ userIds users := by
  obtain ⟨u, hu, -, rfl⟩ := firstTeacher_mem h
  exact List.mem_map_of_mem hu

theorem foreignKey_holds {c : Prop} [Decidable c] (h : c) : foreignKey c = .ok () := if_pos h

section Owners
variable {randomblob : Nat → List UInt8} {db : Schema4}

def givenOwner (randomblob : Nat → List UInt8) (db : Schema4) (i : Nat) (c : ClassroomRow) :
    OwnedClassroomRow :=
  { c with ownerTeacherId := firstTeacher db.users
           enrolmentCode := some (enrolmentCode (randomblob i)) }

theorem owned_eq : (db.classrooms.rows.map addOwnerColumns).map (assignOwner db.users) =
    db.classrooms.rows.map fun c => { c with ownerTeacherId := firstTeacher db.users
                                             enrolmentCode := none } := by
  rw [List.map_map]
  rfl

theorem coded_eq : ((db.classrooms.rows.map addOwnerColumns).map (assignOwner db.users)).mapIdx
    (fun i c => assignCode (randomblob i) c) =
      db.classrooms.rows.mapIdx (givenOwner randomblob db) := by
  rw [owned_eq]
  refine List.ext_getElem (by simp) fun i hi hi' => ?_
  simp [assignCode, givenOwner]

theorem pairwise_coded (hdistinct : DistinctCodes randomblob db.classrooms.rows.length) :
    (db.classrooms.rows.mapIdx (givenOwner randomblob db)).Pairwise
      fun c c' => Keyed.clash c c' = false := by
  rw [List.pairwise_iff_getElem]
  intro i j hi hj hij
  rw [List.length_mapIdx] at hi hj
  have hid := List.pairwise_iff_getElem.mp db.classrooms.unique i j hi hj hij
  have hcode := List.pairwise_iff_getElem.mp hdistinct i j (by simpa) (by simpa) hij
  simp only [List.getElem_map, List.getElem_range] at hcode
  simp only [List.getElem_mapIdx, Keyed.clash, Bool.or_eq_false_iff, decide_eq_false_iff_not]
  refine ⟨by simpa [Keyed.clash, givenOwner] using hid, ?_⟩
  simpa [sameCode, givenOwner] using hcode

theorem pairwise_coTeachers {classrooms : Table OwnedClassroomRow} (users : Table UserRow) :
    (coTeachers users classrooms.rows).Pairwise fun t t' => Keyed.clash t t' = false := by
  rw [coTeachers, List.pairwise_map]
  refine pairwise_joined ?_ fun c => ?_
  · rw [List.pairwise_filterMap]
    refine classrooms.unique.imp fun {c c'} hclash p hp p' hp' r r' => ?_
    obtain ⟨owner, -, rfl⟩ := Option.map_eq_some_iff.mp hp
    obtain ⟨owner', -, rfl⟩ := Option.map_eq_some_iff.mp hp'
    have hne : c.id ≠ c'.id := by
      simp only [Keyed.clash, Bool.or_eq_false_iff, decide_eq_false_iff_not] at hclash
      exact hclash.1
    simp [Keyed.clash, hne]
  · refine users.unique.imp fun {u u'} hclash => ?_
    have hne : u.id ≠ u'.id := by simpa [Keyed.clash] using hclash
    simp [Keyed.clash, hne]

theorem mem_coTeachers {users : Table UserRow} {classrooms : List OwnedClassroomRow}
    {t : ClassroomTeacherRow} : t ∈ coTeachers users classrooms ↔
      ∃ c ∈ classrooms, ∃ u ∈ users.rows, enabledTeacher u = true ∧ ∃ owner, u.id ≠ owner ∧
        c.ownerTeacherId = some owner ∧ t = ⟨c.id, u.id, owner, c.createdAt⟩ := by
  simp only [coTeachers, List.mem_map, mem_joined, List.mem_filterMap, Bool.and_eq_true,
    decide_eq_true_eq]
  constructor
  · rintro ⟨⟨p, u⟩, ⟨⟨c, hc, hp⟩, hu, henabled, hne⟩, rfl⟩
    obtain ⟨owner, howner, rfl⟩ := Option.map_eq_some_iff.mp hp
    exact ⟨c, hc, u, hu, henabled, owner, hne, howner, rfl⟩
  · rintro ⟨c, hc, u, hu, henabled, owner, hne, howner, rfl⟩
    exact ⟨((c, owner), u), ⟨⟨c, hc, by rw [howner]; rfl⟩, hu, henabled, hne⟩, rfl⟩

/-- The classrooms are the ones that were there, in the hands of enabled teachers if there
is any, and open to all of these. -/
structure OwnersGiven (db : Schema4) (db' : Schema5) : Prop where
  classrooms : db'.classrooms.rows.map (·.toClassroomRow) = db.classrooms.rows
  users : db'.users = db.users
  enrolments : db'.classroomEnrolments = db.classroomEnrolments
  attendanceDays : db'.attendanceDays = db.attendanceDays
  attendanceRecords : db'.attendanceRecords = db.attendanceRecords
  owned : (∃ u ∈ db.users.rows, enabledTeacher u = true) → ∀ c ∈ db'.classrooms.rows,
    ∃ u ∈ db'.users.rows, enabledTeacher u = true ∧ c.ownerTeacherId = some u.id
  access : (∃ u ∈ db.users.rows, enabledTeacher u = true) → ∀ c ∈ db'.classrooms.rows,
    ∀ u ∈ db'.users.rows, enabledTeacher u = true → c.ownerTeacherId = some u.id ∨
      ∃ t ∈ db'.classroomTeachers.rows, t.classroomId = c.id ∧ t.teacherId = u.id
  valid : db.Valid → db'.Valid

theorem migration0005_gives (hdistinct : DistinctCodes randomblob db.classrooms.rows.length) :
    ∃ db', migration0005 randomblob db = .ok db' ∧ OwnersGiven db db' := by
  obtain ⟨classrooms, hclassrooms⟩ := Table.ofRows_isSome (pairwise_coded hdistinct)
  have hrows := Table.rows_ofRows hclassrooms
  obtain ⟨teachers, hteachers⟩ : ∃ teachers, (Table.empty.insertAll
      (coTeachers db.users classrooms.rows)) = some teachers :=
    Table.insertAll_isSome (pairwise_coTeachers db.users)
  have hmem : ∀ t, t ∈ teachers.rows ↔ t ∈ coTeachers db.users classrooms.rows := by
    intro t
    rw [Table.mem_insertAll hteachers]
    simp
  have hgiven : ∀ c ∈ classrooms.rows, c.ownerTeacherId = firstTeacher db.users ∧
      c.enrolmentCode.isSome = true := by
    intro c hc
    rw [hrows, List.mem_mapIdx] at hc
    obtain ⟨i, hi, rfl⟩ := hc
    exact ⟨rfl, rfl⟩
  have howners : ∀ c ∈ (db.classrooms.rows.map addOwnerColumns).map (assignOwner db.users),
      ∀ owner ∈ c.ownerTeacherId, owner ∈ userIds db.users := by
    rw [owned_eq]
    intro c hc owner howner
    obtain ⟨k, -, rfl⟩ := List.mem_map.mp hc
    exact firstTeacher_user howner
  have hreferences : ∀ t ∈ teachers.rows, t.classroomId ∈ classrooms.rows.map (·.id) ∧
      t.teacherId ∈ userIds db.users ∧ t.addedBy ∈ userIds db.users := by
    intro t ht
    obtain ⟨c, hc, u, hu, -, owner, -, howner, rfl⟩ := mem_coTeachers.mp ((hmem t).mp ht)
    refine ⟨List.mem_map_of_mem hc, List.mem_map_of_mem hu, ?_⟩
    rw [(hgiven c hc).1] at howner
    exact firstTeacher_user howner
  have hrun : migration0005 randomblob db = .ok
      { users := db.users, classrooms := classrooms, classroomTeachers := teachers
        classroomEnrolments := db.classroomEnrolments, attendanceDays := db.attendanceDays
        attendanceRecords := db.attendanceRecords } := by
    unfold migration0005
    simp only [foreignKey_holds howners, coded_eq, hclassrooms, uniqueKey, hteachers,
      foreignKey_holds hreferences, bind, Except.bind, pure, Except.pure]
  have hsame : classrooms.rows.map (·.toClassroomRow) = db.classrooms.rows := by
    rw [hrows]
    refine List.ext_getElem (by simp) fun i hi hi' => ?_
    simp [givenOwner]
  refine ⟨_, hrun, hsame, rfl, rfl, rfl, rfl, ?_, ?_, ?_⟩
  · intro hteacher c hc
    obtain ⟨owner, howner⟩ := Option.isSome_iff_exists.mp (firstTeacher_isSome hteacher)
    obtain ⟨u, hu, henabled, rfl⟩ := firstTeacher_mem howner
    exact ⟨u, hu, henabled, (hgiven c hc).1.trans howner⟩
  · intro hteacher c hc u hu henabled
    obtain ⟨owner, howner⟩ := Option.isSome_iff_exists.mp (firstTeacher_isSome hteacher)
    have hc' : c.ownerTeacherId = some owner := (hgiven c hc).1.trans howner
    by_cases hown : u.id = owner
    · exact .inl (hc'.trans (congrArg some hown.symm))
    · have hother := mem_coTeachers.mpr ⟨c, hc, u, hu, henabled, owner, hown, hc', rfl⟩
      exact .inr ⟨_, (hmem _).mpr hother, rfl, rfl⟩
  · intro hvalid
    refine ⟨?_, fun c hc => (hgiven c hc).2⟩
    have hids : classrooms.rows.map (·.id) = db.classrooms.rows.map (·.id) := by
      rw [← hsame, List.map_map]
      rfl
    rw [hids]
    exact hvalid

end Owners

section Attendance
variable {db : Schema5}

/-- Each record is the one that was there, under a classroom of its student if there is
one, and whoever owns a classroom and may keeps it. -/
structure AttendanceKept (db : Schema5) (db' : Schema6) : Prop where
  records : db'.attendanceRecords.rows.map (·.toSchoolwideRow) = db.attendanceRecords.rows
  placed : ∀ a ∈ db'.attendanceRecords.rows,
    (∃ e ∈ db.classroomEnrolments.rows, e.studentId = a.studentId) →
      ∃ e ∈ db'.classroomEnrolments.rows, e.studentId = a.studentId ∧
        a.classroomId = some e.classroomId
  owners : ∀ c ∈ db.classrooms.rows, (∃ u ∈ db.users.rows, enabledTeacher u = true ∧
    c.ownerTeacherId = some u.id) → c ∈ db'.classrooms.rows
  classrooms : db'.classrooms.rows.map (·.toClassroomRow) =
    db.classrooms.rows.map (·.toClassroomRow)
  users : db'.users = db.users
  classroomTeachers : db'.classroomTeachers = db.classroomTeachers
  enrolments : db'.classroomEnrolments = db.classroomEnrolments
  attendanceDays : db'.attendanceDays = db.attendanceDays

theorem mem_repaired {c : OwnedClassroomRow} : c ∈ (repaired db).rows ↔
    ∃ k ∈ db.classrooms.rows, c = if needsOwner db k then repairOwner db k else k := by
  rw [repaired]
  exact Table.mem_update

theorem repaired_same : (repaired db).rows.map (·.toClassroomRow) =
    db.classrooms.rows.map (·.toClassroomRow) := by
  rw [repaired, Table.rows_update, List.map_map]
  refine List.map_congr_left fun c _ => ?_
  rw [Function.comp_apply]
  split <;> rfl

theorem repaired_ids : (repaired db).rows.map (·.id) = db.classrooms.rows.map (·.id) := by
  have hsame : (repaired db).rows.map (·.toClassroomRow) = _ := repaired_same
  have h := congrArg (List.map ClassroomRow.id) hsame
  rwa [List.map_map, List.map_map] at h

theorem classroomOf_enrolled {studentId classroomId : String}
    (h : classroomOf db (repaired db) studentId = some classroomId) :
    ∃ e ∈ db.classroomEnrolments.rows, e.studentId = studentId ∧ e.classroomId = classroomId := by
  obtain ⟨p, hp, rfl⟩ := Option.map_eq_some_iff.mp h
  obtain ⟨hmem, -⟩ := mem_joined.mp (firstBy_mem hp)
  obtain ⟨he, hstudent⟩ := List.mem_filter.mp hmem
  exact ⟨p.1, he, by simpa using hstudent, rfl⟩

theorem classroomOf_isSome (hvalid : db.Valid) {e : EnrolmentRow}
    (he : e ∈ db.classroomEnrolments.rows) :
    (classroomOf db (repaired db) e.studentId).isSome = true := by
  have hclassroom := (hvalid.references.enrolments e he).1
  rw [← repaired_ids] at hclassroom
  obtain ⟨c, hc, hid⟩ := List.mem_map.mp hclassroom
  have hjoined : (e, c) ∈ joined (fun enrolment classroom => classroom.id = enrolment.classroomId)
      (db.classroomEnrolments.rows.filter fun enrolment => enrolment.studentId = e.studentId)
      (repaired db).rows :=
    mem_joined.mpr ⟨List.mem_filter.mpr ⟨he, by simp⟩, hc, by simpa using hid⟩
  rw [classroomOf, Option.isSome_map]
  exact firstBy_isSome.mpr (List.ne_nil_of_mem hjoined)

theorem needsOwner_iff {c : OwnedClassroomRow} : needsOwner db c = true ↔
    (¬∃ u ∈ db.users.rows, enabledTeacher u = true ∧ c.ownerTeacherId = some u.id) ∧
      ∃ u ∈ db.users.rows, enabledTeacher u = true := by
  simp only [needsOwner, Bool.and_eq_true, Bool.or_eq_true, Bool.not_eq_true', List.any_eq_true,
    List.any_eq_false, decide_eq_true_eq]
  refine and_congr_left fun _ => ⟨?_, ?_⟩
  · rintro (hnone | hnone) ⟨u, hu, henabled, howner⟩
    · simp [howner] at hnone
    · exact hnone u hu ⟨howner, henabled⟩
  · exact fun h => .inr fun u hu hboth => h ⟨u, hu, hboth.2, hboth.1⟩

theorem migration0006_keeps (hvalid : db.Valid) :
    ∃ db', migration0006 db = .ok db' ∧ AttendanceKept db db' := by
  have hrequired : ∀ c ∈ (db.classrooms.rows.filter (needsOwner db)).map (repairOwner db),
      c.ownerTeacherId.isSome = true ∧ c.enrolmentCode.isSome = true := by
    intro c hc
    obtain ⟨k, hk, rfl⟩ := List.mem_map.mp hc
    obtain ⟨hmem, hneeds⟩ := List.mem_filter.mp hk
    exact ⟨firstTeacher_isSome (needsOwner_iff.mp hneeds).2, hvalid.coded k hmem⟩
  have howner : ∀ owner ∈ firstTeacher db.users, owner ∈ userIds db.users :=
    fun _ => firstTeacher_user
  have hunique : (db.attendanceRecords.rows.map (placeRecord db (repaired db))).Pairwise
      fun a a' => sameMark a a' = false := by
    rw [List.pairwise_map]
    refine db.attendanceRecords.unique.imp fun {a a'} hclash => ?_
    simp only [Keyed.clash, Bool.and_eq_false_iff, decide_eq_false_iff_not] at hclash
    rcases hclash with h | h <;> simp [sameMark, placeRecord, h]
  have hreferences : ∀ a ∈ db.attendanceRecords.rows.map (placeRecord db (repaired db)),
      a.dayId ∈ db.attendanceDays.rows.map (·.id) ∧
        (∀ k ∈ a.classroomId, k ∈ (repaired db).rows.map (·.id)) ∧
          a.studentId ∈ userIds db.users ∧ a.markedBy ∈ userIds db.users := by
    intro a ha
    obtain ⟨legacy, hlegacy, rfl⟩ := List.mem_map.mp ha
    obtain ⟨hday, hstudent, hmarker⟩ := hvalid.references.records legacy hlegacy
    refine ⟨hday, fun k hk => ?_, hstudent, hmarker⟩
    obtain ⟨e, he, -, rfl⟩ := classroomOf_enrolled hk
    rw [repaired_ids]
    exact (hvalid.references.enrolments e he).1
  have hrun : migration0006 db = .ok
      { users := db.users, classrooms := repaired db, classroomTeachers := db.classroomTeachers
        classroomEnrolments := db.classroomEnrolments, attendanceDays := db.attendanceDays
        attendanceRecords := ⟨_, hunique⟩ } := by
    have hinsert : insertRecords (db.attendanceRecords.rows.map (placeRecord db (repaired db))) =
        .ok ⟨_, hunique⟩ := dif_pos hunique
    have hfire : requireOwner ((db.classrooms.rows.filter (needsOwner db)).map (repairOwner db)) =
        .ok () := if_pos hrequired
    unfold migration0006
    simp only [hfire, foreignKey_holds howner, hinsert, foreignKey_holds hreferences, bind,
      Except.bind, pure, Except.pure]
  refine ⟨_, hrun, ?_, ?_, ?_, repaired_same, rfl, rfl, rfl, rfl⟩
  · rw [List.map_map]
    exact List.map_id _
  · rintro a ha ⟨e, he, hstudent⟩
    obtain ⟨legacy, hlegacy, rfl⟩ := List.mem_map.mp ha
    have hsome := classroomOf_isSome hvalid he
    rw [hstudent] at hsome
    obtain ⟨k, hk⟩ := Option.isSome_iff_exists.mp hsome
    obtain ⟨e', he', hstudent', rfl⟩ := classroomOf_enrolled hk
    exact ⟨e', he', hstudent', hk⟩
  · intro c hc howned
    have hnot : needsOwner db c = false :=
      Bool.eq_false_iff.mpr fun h => (needsOwner_iff.mp h).1 howned
    have hsame : c = if needsOwner db c = true then repairOwner db c else c := by
      rw [hnot]
      rfl
    exact mem_repaired.mpr ⟨c, hc, hsame⟩

end Attendance

/-- Neither migration fails on a school's data, and neither loses any. -/
theorem school_data_preserved {randomblob : Nat → List UInt8} {db : Schema4} {db₅ : Schema5}
    (hdistinct : DistinctCodes randomblob db.classrooms.rows.length) (hvalid : db₅.Valid) :
    (∃ db', migration0005 randomblob db = .ok db' ∧ OwnersGiven db db') ∧
      ∃ db', migration0006 db₅ = .ok db' ∧ AttendanceKept db₅ db' :=
  ⟨migration0005_gives hdistinct, migration0006_keeps hvalid⟩

/-! A school with a disabled owner, and with a student in two classrooms and one in none. -/

def sampleTeachers : Table UserRow :=
  ⟨[⟨"ann", .teacher, "2026-02", none⟩, ⟨"bob", .teacher, "2026-01", none⟩,
    ⟨"eve", .teacher, "2025-01", some "2026-03"⟩, ⟨"kim", .student, "2026-01", none⟩,
    ⟨"sam", .student, "2026-01", none⟩], by decide⟩

def sampleClassroom (id : String) : ClassroomRow := ⟨id, id, none, "", "#BEC2FF", "2026-03", none⟩

def sampleClassrooms : Table ClassroomRow :=
  ⟨[sampleClassroom "art", sampleClassroom "bio"], by decide⟩

def sampleEnrolments : Table EnrolmentRow :=
  ⟨[⟨"bio", "sam", "2026-03"⟩, ⟨"art", "sam", "2026-03"⟩], by decide⟩

def sampleDays : Table AttendanceDayRow := ⟨[⟨"day", "2026-04-01", "2026-04-01"⟩], by decide⟩

def sampleRecords : Table SchoolwideRow :=
  ⟨[⟨"day", "sam", .present, "", "ann", "2026-04-01"⟩,
    ⟨"day", "kim", .late, "bus", "bob", "2026-04-01"⟩], by decide⟩

def sampleSchema4 : Schema4 :=
  ⟨sampleTeachers, sampleClassrooms, sampleEnrolments, sampleDays, sampleRecords⟩

def sampleSchema5 : Schema5 where
  users := sampleTeachers
  classrooms := ⟨[⟨sampleClassroom "art", some "eve", some "AAAAAAAA"⟩,
    ⟨sampleClassroom "bio", some "ann", some "BBBBBBBB"⟩], by decide⟩
  classroomTeachers := .empty
  classroomEnrolments := sampleEnrolments
  attendanceDays := sampleDays
  attendanceRecords := sampleRecords

def sampleBlobs (i : Nat) : List UInt8 := List.replicate 8 (UInt8.ofNat i)

theorem school_data_preserved_sample :
    (∃ db', migration0005 sampleBlobs sampleSchema4 = .ok db' ∧ OwnersGiven sampleSchema4 db') ∧
      ∃ db', migration0006 sampleSchema5 = .ok db' ∧ AttendanceKept sampleSchema5 db' := by
  have hdistinct : ((List.range 2).map fun i => nocase (enrolmentCode (sampleBlobs i))).Nodup := by
    decide
  have hvalid : sampleSchema5.Valid := ⟨⟨by decide, by decide⟩, by decide⟩
  exact school_data_preserved hdistinct hvalid

end Cinder.Upgrades
