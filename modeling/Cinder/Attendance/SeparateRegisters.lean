import Cinder.Attendance.AttendanceSaves
import Cinder.Programs.CheckedLists
import Cinder.Programs.SerialRuns
import Mathlib.Data.Rat.Floor
import Mathlib.Tactic.Linarith
set_option autoImplicit false

namespace Cinder.Attendance
open Cinder.Host Cinder.Storage Cinder.Programs Cinder.Programs.Program

def statusShown (v : StatusText) : AttendanceStatus :=
  (AttendanceStatus.fromStr v.val).toOption.getD .present

/-- The `CHECK` of the column admits no text that cannot be read. -/
theorem fromStr_text (v : StatusText) :
    AttendanceStatus.fromStr v.val = .ok (statusShown v) := by
  obtain ⟨s, hs⟩ := v
  simp only [List.mem_cons, List.not_mem_nil, or_false] at hs
  rcases hs with rfl | rfl | rfl | rfl <;> rfl

@[simp] theorem statusShown_stored (s : AttendanceStatus) : statusShown s.stored = s := by
  cases s <;> rfl

def recordShown (row : AttendanceRow) : AttendanceRecord where
  studentId := row.studentId
  studentName := row.displayName
  status := row.status.map statusShown
  note := row.note
  checkedIn := row.checkedIn
  presentPercentage := attendancePercentage row.presentDays row.recordedDays

theorem attendanceRecord_eq (row : AttendanceRow) :
    attendanceRecord row = .ok (recordShown row) := by
  unfold attendanceRecord recordShown
  cases row.status with
  | none => rfl
  | some v => simp [fromStr_text, Except.map, Except.mapError, Bind.bind, Except.bind]

theorem mapM_attendanceRecord (rows : List AttendanceRow) :
    rows.mapM attendanceRecord = .ok (rows.map recordShown) := by
  rw [mapM_eq_ok, List.forall₂_map_right_iff, List.forall₂_same]
  exact fun row _ => attendanceRecord_eq row

/-- The answer of `read_day`. -/
def reads (cal : Calendar) (teacher : CurrentUser) (classroom : Uuid) (day : String)
    (reg : Register) : Except HostError AttendanceDay :=
  ((readDay cal teacher classroom day).exec reg).1

section Answers
variable (cal : Calendar)

theorem reads_eq (teacher : CurrentUser) (classroom : Uuid) (day : String) (reg : Register) :
    reads cal teacher classroom day reg =
      (admitted cal teacher classroom day reg.school).map fun date =>
        ⟨classroom, date, (attendanceRows cal classroom date reg).map recordShown⟩ := by
  rw [reads, readDay, exec_admitted]
  cases admitted cal teacher classroom day reg.school with
  | error e => rfl
  | ok date =>
    dsimp only
    rw [exec_bind_ok _ (exec_query _ _), exec_bind, exec_ofExcept, mapM_attendanceRecord]
    rfl

def after (reg : Register) (call : AttendanceCall) : Register := ((handle cal call).exec reg).2

def afterAll (calls : List AttendanceCall) (reg : Register) : Register :=
  (serial (handle cal) calls reg).2

theorem save_cases (call : AttendanceCall) (reg : Register) :
    (∃ e, (handle cal call).exec reg = (.error e, reg)) ∨
      ∃ date name, admitted cal call.teacher call.classroom call.day reg.school = .ok date ∧
        studentName? call.classroom call.req.studentId reg = some name ∧
        Saved reg (after cal reg call) call.classroom call.req.studentId date call.req.status
          (trim call.req.note) ∧
        ((handle cal call).exec reg).1 = .ok
          { studentId := call.req.studentId, studentName := name, status := some call.req.status
            note := trim call.req.note, checkedIn := false
            presentPercentage := attendancePercentage
              ((after cal reg call).presentDays call.classroom call.req.studentId)
              ((after cal reg call).recordedDays call.classroom call.req.studentId) } := by
  have hexec := exec_admitted cal call.teacher call.classroom call.day
    (storeRecord call.env call.teacher call.classroom call.req) reg
  change (handle cal call).exec reg = _ at hexec
  cases hdate : admitted cal call.teacher call.classroom call.day reg.school with
  | error e => exact .inl ⟨e, by rw [hexec, hdate]⟩
  | ok date =>
    rw [hdate] at hexec
    dsimp only at hexec
    cases hname : studentName? call.classroom call.req.studentId reg with
    | none =>
      refine .inl ⟨.notFound "student", ?_⟩
      rw [hexec, storeRecord, exec_bind, exec_queryRow, hname]
    | some name =>
      rw [storeRecord, exec_bind_ok _ (exec_queryRow_some hname),
        exec_bind_ok _ (exec_query _ _)] at hexec
      dsimp only at hexec
      rw [exec_bind, execute, exec_write] at hexec
      cases hrun : (Engine.run (AttendanceStatement.saveRecord
        ((reg.dayId? date).getD (call.env.uuid 0)) date call.classroom call.req.studentId
        call.req.status (trim call.req.note) call.teacher.id (call.env.now 0)) reg :
          Except HostError Register) with
      | error e => exact .inl ⟨e, by rw [hexec, hrun]⟩
      | ok reg' =>
        rw [hrun] at hexec
        have hafter : after cal reg call = reg' := congrArg Prod.snd hexec
        refine .inr ⟨date, name, rfl, rfl, hafter ▸ saved_of_run hrun, ?_⟩
        rw [hafter]
        exact congrArg Prod.fst hexec

theorem school_after (call : AttendanceCall) (reg : Register) :
    (after cal reg call).school = reg.school := by
  rcases save_cases cal call reg with ⟨e, he⟩ | ⟨_, _, -, -, hsaved, -⟩
  · rw [after, he]
  · exact hsaved.school

end Answers

def AttendanceDay.entries (d : AttendanceDay) (student : Uuid) :
    List (Option AttendanceStatus × String) :=
  (d.records.filter fun x => x.studentId = student).map fun x => (x.status, x.note)

def AttendanceCall.isFor (cal : Calendar) (call : AttendanceCall) (classroom student : Uuid)
    (day : String) : Prop :=
  call.classroom = classroom ∧ call.req.studentId = student ∧ cal.parse call.day = cal.parse day

/-- The days of the register on which the student's record of the classroom is of the kind. -/
def Register.daysWith (reg : Register) (classroom student : Uuid)
    (p : AttendanceRecordRow → Bool) : Nat :=
  reg.days.rows.countP fun d => (reg.record? d.id classroom student).any p

/-- The percentage of the recorded days that are marked present, rounded half up. -/
def IsPercentage (reg : Register) (classroom student : Uuid) (shown : Option UInt8) : Prop :=
  let recorded := reg.daysWith classroom student fun _ => true
  let present := reg.daysWith classroom student fun r => r.status = AttendanceStatus.present.stored
  (shown = none ↔ recorded = 0) ∧ ∀ v ∈ shown, v.toNat ≤ 100 ∧
    (v.toNat : Int) = ⌊(present*100/recorded : ℚ)+1/2⌋

structure AttendanceLaws (cal : Calendar) (reg : Register) : Prop where
  otherClassrooms : ∀ call teacher classroom day, classroom ≠ call.classroom →
    reads cal teacher classroom day (after cal reg call) = reads cal teacher classroom day reg
  otherEntries : ∀ call teacher classroom day student, ¬call.isFor cal classroom student day →
    (reads cal teacher classroom day (after cal reg call)).map (·.entries student) =
      (reads cal teacher classroom day reg).map (·.entries student)
  shown : ∀ call later day, ((handle cal call).exec reg).1.isOk = true →
    (∀ call' ∈ later, ¬call'.isFor cal call.classroom call.req.studentId call.day) →
    cal.parse day = cal.parse call.day →
    (∃ d, reads cal call.teacher call.classroom day (afterAll cal later (after cal reg call)) =
      .ok d) ∧ ∀ teacher d,
    reads cal teacher call.classroom day (afterAll cal later (after cal reg call)) = .ok d →
      d.entries call.req.studentId = [(some call.req.status, trim call.req.note)]
  percentages : ∀ teacher classroom day d, reads cal teacher classroom day reg = .ok d →
    ∀ x ∈ d.records, IsPercentage reg classroom x.studentId x.presentPercentage
  savedPercentage : ∀ call x, ((handle cal call).exec reg).1 = .ok x →
    IsPercentage (after cal reg call) call.classroom call.req.studentId x.presentPercentage

namespace Register
variable (reg : Register) (classroom student : Uuid)

theorem nodup_recordDays (p : AttendanceRecordRow → Bool) :
    ((reg.records.rows.filter fun r => r.isFor classroom student && p r).map (·.dayId)).Nodup := by
  refine List.pairwise_map.mpr
    ((reg.records.unique.filter _).imp_of_mem fun hr hr' hclash hid => ?_)
  have hfor := (List.mem_filter.mp hr).2
  have hfor' := (List.mem_filter.mp hr').2
  simp only [AttendanceRecordRow.isFor, Bool.and_eq_true, decide_eq_true_eq] at hfor hfor'
  simp [Keyed.clash, hid, hfor.1, hfor'.1] at hclash

theorem nodup_days (p : AttendanceDayRow → Bool) : ((reg.days.rows.filter p).map (·.id)).Nodup := by
  refine List.pairwise_map.mpr ((reg.days.unique.filter _).imp fun hclash hid => ?_)
  simp [Keyed.clash, hid] at hclash

theorem mem_recordDays (p : AttendanceRecordRow → Bool) (id : Uuid) :
    id ∈ (reg.records.rows.filter fun r => r.isFor classroom student && p r).map (·.dayId) ↔
      id ∈ (reg.days.rows.filter fun d => (reg.record? d.id classroom student).any p).map
        (·.id) := by
  simp only [List.mem_map, List.mem_filter, Bool.and_eq_true, Option.any_eq_true]
  constructor
  · rintro ⟨r, ⟨hr, hfor, hp⟩, rfl⟩
    obtain ⟨d, hd, hid⟩ := reg.dated r hr
    exact ⟨d, ⟨hd, r, by rw [hid]; exact record?_of_mem hr hfor, hp⟩, hid⟩
  · rintro ⟨d, ⟨-, r, hr, hp⟩, rfl⟩
    obtain ⟨hmem, hid, hfor⟩ := record?_eq_some hr
    exact ⟨r, ⟨hmem, hfor, hp⟩, hid⟩

theorem countP_records (p : AttendanceRecordRow → Bool) :
    reg.records.rows.countP (fun r => r.isFor classroom student && p r) =
      reg.daysWith classroom student p := by
  have hperm := (List.perm_ext_iff_of_nodup (nodup_recordDays reg classroom student p)
    (nodup_days reg fun d => (reg.record? d.id classroom student).any p)).mpr
      (mem_recordDays reg classroom student p)
  rw [daysWith, List.countP_eq_length_filter, List.countP_eq_length_filter]
  simpa using hperm.length_eq

theorem recordedDays_eq : reg.recordedDays classroom student =
    reg.daysWith classroom student fun _ => true := by
  simpa [recordedDays] using countP_records reg classroom student fun _ => true

theorem presentDays_eq : reg.presentDays classroom student =
    reg.daysWith classroom student fun r => r.status = AttendanceStatus.present.stored := by
  rw [← countP_records, presentDays]
  refine List.countP_congr fun r _ => ?_
  simp [Subtype.ext_iff, AttendanceStatus.stored, AttendanceStatus.asStr]

theorem presentDays_le : reg.presentDays classroom student ≤ reg.recordedDays classroom student :=
  List.countP_mono_left fun _ _ hr => ((Bool.and_eq_true _ _).mp hr).1

end Register

section Percentages
variable {present recorded : Nat}

/-- Adding half of an odd divisor without its fraction does not change the quotient. -/
theorem rounded_half_up (h : 0 < recorded) :
    (((present*100+recorded/2)/recorded : Nat) : Int) =
      ⌊(present*100/recorded : ℚ)+1/2⌋ := by
  have hpos : (0 : ℚ) < recorded := by exact_mod_cast h
  generalize hn : (present*100+recorded/2)/recorded = n
  have hlow : n*recorded ≤ present*100+recorded/2 := hn ▸ Nat.div_mul_le_self _ _
  have hhigh : present*100+recorded/2 < (n+1)*recorded :=
    (Nat.div_lt_iff_lt_mul h).mp (by omega)
  have hlow' : (2*(n*recorded) : ℚ) ≤ 2*(present*100)+recorded := by
    exact_mod_cast (by omega : 2*(n*recorded) ≤ 2*(present*100)+recorded)
  have hhigh' : (2*(present*100)+recorded : ℚ) < 2*((n+1)*recorded) := by
    exact_mod_cast (by omega : 2*(present*100)+recorded < 2*((n+1)*recorded))
  have hsum : (present*100/recorded : ℚ)+1/2 = (2*(present*100)+recorded)/(2*recorded) := by
    field_simp
  rw [eq_comm, Int.floor_eq_iff, hsum, le_div_iff₀ (by linarith), div_lt_iff₀ (by linarith)]
  push_cast
  constructor <;> linarith

theorem percentage_le (hle : present ≤ recorded) :
    (present*100+recorded/2)/recorded ≤ 100 := by
  rcases Nat.eq_zero_or_pos recorded with rfl | h
  · simp
  · rw [← Nat.lt_succ_iff, Nat.div_lt_iff_lt_mul h]
    omega

theorem isPercentage (reg : Register) (classroom student : Uuid) :
    IsPercentage reg classroom student (attendancePercentage (reg.presentDays classroom student)
      (reg.recordedDays classroom student)) := by
  have hle := reg.presentDays_le classroom student
  rw [Register.presentDays_eq, Register.recordedDays_eq] at hle ⊢
  unfold IsPercentage attendancePercentage
  dsimp only
  split
  next h =>
    refine ⟨by simp; omega, fun v hv => ?_⟩
    obtain rfl := Option.some.inj hv
    have hsmall := percentage_le hle
    rw [UInt8.toNat_ofNat', Nat.mod_eq_of_lt (by omega)]
    exact ⟨hsmall, rounded_half_up h⟩
  next h => exact ⟨by simp; omega, fun v hv => by cases hv⟩

end Percentages

section Laws
variable (cal : Calendar) {reg : Register}

/-- A save that is not for the classroom, the student and the day leaves the record alone. -/
theorem recordOn_after (call : AttendanceCall) {classroom student : Uuid} {day : String}
    {date : NaiveDate} (hdate : cal.parse day = some date)
    (hne : ¬call.isFor cal classroom student day) :
    (after cal reg call).recordOn classroom student date = reg.recordOn classroom student date := by
  rcases save_cases cal call reg with ⟨e, he⟩ | ⟨saved, _, hadmitted, -, hsaved, -⟩
  · rw [after, he]
  · refine hsaved.others _ _ _ fun hkey => hne ⟨hkey.1.symm, hkey.2.1.symm, ?_⟩
    rw [parse_of_admitted hadmitted, hdate, hkey.2.2]

theorem attendanceRow_after (call : AttendanceCall) {classroom : Uuid} {date : NaiveDate}
    (hne : classroom ≠ call.classroom) (u : UserRow) :
    attendanceRow cal classroom date (after cal reg call) u =
      attendanceRow cal classroom date reg u := by
  rcases save_cases cal call reg with ⟨e, he⟩ | ⟨_, _, -, -, hsaved, -⟩
  · rw [after, he]
  · unfold attendanceRow
    rw [hsaved.school, hsaved.others _ _ _ fun hkey => hne hkey.1, hsaved.present _ _ hne,
      hsaved.recorded _ _ hne]

theorem attendees_congr {reg' : Register} (h : reg'.school = reg.school) (classroom : Uuid) :
    attendees classroom reg' = attendees classroom reg := by
  have hattending : reg'.attending classroom = reg.attending classroom := by
    funext u
    rw [Register.attending, h, Register.attending]
  rw [attendees, attendees, h, hattending]

theorem reads_otherClassroom (call : AttendanceCall) (teacher : CurrentUser) {classroom : Uuid}
    (day : String) (hne : classroom ≠ call.classroom) :
    reads cal teacher classroom day (after cal reg call) =
      reads cal teacher classroom day reg := by
  have hschool := school_after cal call reg
  rw [reads_eq, reads_eq, hschool]
  refine congrArg (Except.map · _) (funext fun date => ?_)
  rw [attendanceRows, attendanceRows, attendees_congr hschool]
  congr 2
  exact List.map_congr_left fun u _ => attendanceRow_after cal call hne u

theorem entries_eq (reg : Register) (teacher : CurrentUser) (classroom : Uuid) (day : String)
    (student : Uuid) :
    (reads cal teacher classroom day reg).map (·.entries student) =
      (admitted cal teacher classroom day reg.school).map fun date =>
        ((attendees classroom reg).filter fun u => u.id = student).map fun _ =>
          (((reg.recordOn classroom student date).map fun r => statusShown r.status),
            ((reg.recordOn classroom student date).map (·.note)).getD "") := by
  rw [reads_eq]
  cases admitted cal teacher classroom day reg.school with
  | error e => rfl
  | ok date =>
    refine congrArg Except.ok ?_
    dsimp only [AttendanceDay.entries]
    rw [attendanceRows, List.map_map, List.filter_map, List.map_map]
    refine List.map_congr_left fun u hu => ?_
    obtain rfl : u.id = student := by
      simpa [attendanceRow, recordShown] using (List.mem_filter.mp hu).2
    simp [attendanceRow, recordShown, Function.comp_def]

theorem entries_other (call : AttendanceCall) (teacher : CurrentUser) {classroom student : Uuid}
    {day : String} (hne : ¬call.isFor cal classroom student day) :
    (reads cal teacher classroom day (after cal reg call)).map (·.entries student) =
      (reads cal teacher classroom day reg).map (·.entries student) := by
  have hschool := school_after cal call reg
  rw [entries_eq, entries_eq, hschool, attendees_congr hschool]
  cases hadmitted : admitted cal teacher classroom day reg.school with
  | error e => rfl
  | ok date => simp only [Except.map, recordOn_after cal call (parse_of_admitted hadmitted) hne]

theorem school_afterAll (calls : List AttendanceCall) (reg : Register) :
    (afterAll cal calls reg).school = reg.school := by
  induction calls generalizing reg with
  | nil => rfl
  | cons call calls ih => exact (ih (after cal reg call)).trans (school_after cal call reg)

theorem recordOn_afterAll (calls : List AttendanceCall) {classroom student : Uuid} {day : String}
    {date : NaiveDate} (hdate : cal.parse day = some date)
    (hne : ∀ call ∈ calls, ¬call.isFor cal classroom student day) (reg : Register) :
    (afterAll cal calls reg).recordOn classroom student date =
      reg.recordOn classroom student date := by
  induction calls generalizing reg with
  | nil => rfl
  | cons call calls ih =>
    calc (afterAll cal (call :: calls) reg).recordOn classroom student date
      _ = (after cal reg call).recordOn classroom student date :=
          ih (fun c hc => hne c (List.mem_cons_of_mem _ hc)) (after cal reg call)
      _ = reg.recordOn classroom student date :=
          recordOn_after cal call hdate (hne call List.mem_cons_self)

theorem attendees_of_student {classroom student : Uuid} {name : String}
    (h : studentName? classroom student reg = some name) :
    ∃ u, (attendees classroom reg).filter (fun u => u.id = student) = [u] ∧ u.id = student ∧
      u.displayName = name := by
  obtain ⟨u, hfind, hname⟩ := Option.map_eq_some_iff.mp h
  obtain ⟨hu, hp⟩ := Table.mem_of_find? hfind
  simp only [Bool.and_eq_true, decide_eq_true_eq] at hp
  have hperm : ((attendees classroom reg).filter fun u => u.id = student).Perm
      (reg.school.users.rows.filter fun u => u.id = student && reg.attending classroom u) := by
    rw [← List.filter_filter]
    exact (List.mergeSort_perm _ _).filter _
  rw [Table.filter_of_mem hu (by simp [hp]) fun u' _ hu' => ?_] at hperm
  · exact ⟨u, List.perm_singleton.mp hperm, hp.1, hname⟩
  · simp only [Bool.and_eq_true, decide_eq_true_eq] at hu'
    simp [Keyed.clash, hu'.1, hp.1]

theorem admitted_congr {teacher : CurrentUser} {classroom : Uuid} {day day' : String}
    (h : cal.parse day = cal.parse day') (school : Database) :
    admitted cal teacher classroom day school = admitted cal teacher classroom day' school := by
  rw [admitted, admitted, parseDay, parseDay, h]

theorem shown_after (call : AttendanceCall) (later : List AttendanceCall) (day : String)
    (hok : ((handle cal call).exec reg).1.isOk = true)
    (hlater : ∀ call' ∈ later, ¬call'.isFor cal call.classroom call.req.studentId call.day)
    (hday : cal.parse day = cal.parse call.day) :
    (∃ d, reads cal call.teacher call.classroom day (afterAll cal later (after cal reg call)) =
      .ok d) ∧ ∀ teacher d,
    reads cal teacher call.classroom day (afterAll cal later (after cal reg call)) = .ok d →
      d.entries call.req.studentId = [(some call.req.status, trim call.req.note)] := by
  rcases save_cases cal call reg with ⟨e, he⟩ | ⟨date, name, hadmitted, hname, hsaved, -⟩
  · rw [he] at hok
    cases hok
  have hschool : (afterAll cal later (after cal reg call)).school = reg.school :=
    (school_afterAll cal later _).trans hsaved.school
  have hcal := parse_of_admitted hadmitted
  obtain ⟨r, hr, hstatus, hnote⟩ := hsaved.entry
  have hrecord := (recordOn_afterAll cal later hcal hlater (after cal reg call)).trans hr
  constructor
  · have hread := reads_eq cal call.teacher call.classroom day
      (afterAll cal later (after cal reg call))
    rw [hschool, admitted_congr cal hday, hadmitted] at hread
    exact ⟨_, hread⟩
  · intro teacher d hd
    have hentries := entries_eq cal (afterAll cal later (after cal reg call)) teacher
      call.classroom day call.req.studentId
    rw [hd, hschool, attendees_congr hschool] at hentries
    obtain ⟨u, hu, -⟩ := attendees_of_student hname
    cases hteacher : admitted cal teacher call.classroom day reg.school with
    | error e => simp [hteacher, Except.map] at hentries
    | ok date' =>
      have hsame : date' = date := Option.some.inj
        ((parse_of_admitted hteacher).symm.trans (hday.trans hcal))
      simpa [hteacher, hsame, hu, hrecord, hstatus, hnote, Except.map] using hentries

theorem percentages_read {teacher : CurrentUser} {classroom : Uuid} {day : String}
    {d : AttendanceDay} (hd : reads cal teacher classroom day reg = .ok d) :
    ∀ x ∈ d.records, IsPercentage reg classroom x.studentId x.presentPercentage := by
  rw [reads_eq] at hd
  cases hadmitted : admitted cal teacher classroom day reg.school with
  | error e => simp [hadmitted, Except.map] at hd
  | ok date =>
    rw [hadmitted] at hd
    obtain rfl := Except.ok.inj hd
    intro x hx
    obtain ⟨row, hrow, rfl⟩ := List.mem_map.mp hx
    obtain ⟨u, -, rfl⟩ := List.mem_map.mp hrow
    exact isPercentage reg classroom u.id

/-- Whatever saves came before, a save of one record of the register changes nothing else. -/
theorem attendance_is_separate (reg : Register) (calls : List AttendanceCall) :
    AttendanceLaws cal (afterAll cal calls reg) where
  otherClassrooms call teacher _ day hne := reads_otherClassroom cal call teacher day hne
  otherEntries call teacher _ _ _ hne := entries_other cal call teacher hne
  shown := shown_after cal
  percentages _ _ _ _ hd := percentages_read cal hd
  savedPercentage call x hx := by
    rcases save_cases cal call (afterAll cal calls reg) with ⟨e, he⟩ | ⟨_, _, -, -, -, hanswer⟩
    · rw [he] at hx
      cases hx
    · rw [hanswer] at hx
      obtain rfl := Except.ok.inj hx
      exact isPercentage _ _ _

end Laws

section SavedRecords
variable (cal : Calendar)

def SignedIn (reg : Register) (student : Uuid) (day : String) : Prop :=
  ∃ s ∈ reg.school.sessions.rows, s.userId = student ∧
    cal.parse day = some (cal.localDay s.createdAt)

theorem studentRecords_eq {reg : Register} (student : Uuid) {teacher : CurrentUser}
    {classroom : Uuid} {day : String} {d : AttendanceDay}
    (hd : reads cal teacher classroom day reg = .ok d) :
    ∃ date, cal.parse day = some date ∧
      (d.records.filter fun y => y.studentId = student) =
        ((attendees classroom reg).filter fun u => u.id = student).map fun u =>
          recordShown (attendanceRow cal classroom date reg u) := by
  rw [reads_eq] at hd
  cases hadmitted : admitted cal teacher classroom day reg.school with
  | error e => simp [hadmitted, Except.map] at hd
  | ok date =>
    rw [hadmitted] at hd
    obtain rfl := Except.ok.inj hd
    refine ⟨date, parse_of_admitted hadmitted, ?_⟩
    dsimp only
    rw [attendanceRows, List.map_map, List.filter_map]
    rfl

/-- The record that is returned is the one that is read back, if and only if the student has not
signed in on the day. -/
theorem saved_record_is_read_iff (reg : Register) (call : AttendanceCall) (x : AttendanceRecord)
    (hx : ((handle cal call).exec reg).1 = .ok x) :
    (∃ d, reads cal call.teacher call.classroom call.day (after cal reg call) = .ok d) ∧
    ∀ teacher d, reads cal teacher call.classroom call.day (after cal reg call) = .ok d →
      ((d.records.filter fun y => y.studentId = call.req.studentId) = [x] ↔
        ¬SignedIn cal reg call.req.studentId call.day) := by
  rcases save_cases cal call reg with ⟨e, he⟩ | ⟨date, name, hadmitted, hname, hsaved, hanswer⟩
  · rw [he] at hx
    cases hx
  rw [hanswer] at hx
  obtain rfl := Except.ok.inj hx
  have hschool := hsaved.school
  constructor
  · have hread := reads_eq cal call.teacher call.classroom call.day (after cal reg call)
    rw [hschool, hadmitted] at hread
    exact ⟨_, hread⟩
  · intro teacher d hd
    obtain ⟨date', hdate, hrecords⟩ := studentRecords_eq cal call.req.studentId hd
    obtain rfl : date' = date := Option.some.inj (hdate.symm.trans (parse_of_admitted hadmitted))
    obtain ⟨u, hu, hid, hdisplay⟩ := attendees_of_student hname
    obtain ⟨r, hr, hstatus, hnote⟩ := hsaved.entry
    rw [hrecords, attendees_congr hschool, hu, List.map_singleton, List.singleton_inj]
    have hsigned : SignedIn cal reg call.req.studentId call.day ↔
        (reg.school.sessions.rows.any fun s =>
          s.userId = u.id && cal.localDay s.createdAt = date') = true := by
      rw [List.any_eq_true]
      refine exists_congr fun s => and_congr_right fun _ => ?_
      rw [hdate, hid, Option.some.injEq, Bool.and_eq_true, decide_eq_true_eq, decide_eq_true_eq,
        eq_comm (a := date')]
    simp [recordShown, attendanceRow, hid, hr, hstatus, hnote, hschool, hdisplay, hsigned]

def sampleCalendar : Calendar := ⟨fun s => if s = "1" then some 1 else none, fun _ => 1⟩

def sampleSave : AttendanceCall where
  env := sampleEnv 1
  teacher := sampleTeacher
  classroom := 3
  day := "1"
  req := ⟨1, .present, " here "⟩

def sampleRegister (sessions : Table SessionRow) : Register where
  school := { sampleClassroom with sessions := sessions }
  days := .empty
  records := .empty
  dated := by simp [Table.empty]

def sampleRecord : AttendanceRecord := ⟨1, "Ada", some .present, "here", false, some 100⟩

theorem saved_record_is_read_sample :
    ∃ d, reads sampleCalendar sampleTeacher 3 "1"
      (after sampleCalendar (sampleRegister .empty) sampleSave) = .ok d :=
  (saved_record_is_read_iff sampleCalendar (sampleRegister .empty) sampleSave sampleRecord
    (by decide +kernel)).1

/-- A student who has signed in is shown as present, and not in the answer of the save. -/
theorem saved_record_drops_sign_in :
    let reg := sampleRegister (.single ⟨"token", 1, none, 0, 10⟩)
    ((handle sampleCalendar sampleSave).exec reg).1 = .ok sampleRecord ∧
      reads sampleCalendar sampleTeacher 3 "1" (after sampleCalendar reg sampleSave) =
        .ok ⟨3, 1, [{ sampleRecord with checkedIn := true }]⟩ := by
  decide +kernel

end SavedRecords

end Cinder.Attendance
