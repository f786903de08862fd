import Cinder.Attendance.AttendanceRegister
set_option autoImplicit false

namespace Cinder.Attendance
open Cinder.Host Cinder.Storage Cinder.Programs Cinder.Programs.Program

namespace Register
variable {reg reg' : Register}

theorem days_addDay {row : AttendanceDayRow} (h : reg.addDay row = some reg') :
    reg'.school = reg.school ∧ reg'.records = reg.records ∧
      ((reg' = reg ∧ ∃ d ∈ reg.days.rows, d.day = row.day) ∨
        ((∀ d ∈ reg.days.rows, d.day ≠ row.day) ∧ reg.days.insert row = some reg'.days)) := by
  unfold addDay at h
  split at h
  next hany =>
    obtain rfl := Option.some.inj h
    exact ⟨rfl, rfl, .inl ⟨rfl, by simpa using hany⟩⟩
  next hnone =>
    split at h
    next => cases h
    next days hdays =>
      obtain rfl := Option.some.inj h
      exact ⟨rfl, rfl, .inr ⟨by simpa using hnone, hdays⟩⟩

theorem dayId?_of_mem {d : AttendanceDayRow} (hd : d ∈ reg.days.rows) :
    reg.dayId? d.day = some d.id := by
  have hfind : reg.days.find? (fun x => x.day = d.day) = some d :=
    Table.find?_of_mem hd (by simp) fun x _ hx => by
      simp only [decide_eq_true_eq] at hx
      simp [Keyed.clash, hx]
  rw [dayId?, hfind, Option.map_some]

theorem dayId?_eq_some {day : NaiveDate} {id : Uuid} (h : reg.dayId? day = some id) :
    ∃ d ∈ reg.days.rows, d.id = id ∧ d.day = day := by
  obtain ⟨d, hfind, rfl⟩ := Option.map_eq_some_iff.mp h
  exact ⟨d, (Table.mem_of_find? hfind).1, rfl, by simpa using (Table.mem_of_find? hfind).2⟩

theorem day_eq_of_dayId? {day day' : NaiveDate} {id : Uuid} (h : reg.dayId? day = some id)
    (h' : reg.dayId? day' = some id) : day = day' := by
  obtain ⟨d, hd, hid, rfl⟩ := dayId?_eq_some h
  obtain ⟨d', hd', hid', rfl⟩ := dayId?_eq_some h'
  rw [Table.eq_of_clash hd hd' (by simp [Keyed.clash, hid, hid'])]

theorem record?_eq_some {id classroom student : Uuid} {r : AttendanceRecordRow}
    (h : reg.record? id classroom student = some r) :
    r ∈ reg.records.rows ∧ r.dayId = id ∧ r.isFor classroom student = true := by
  obtain ⟨hr, hp⟩ := Table.mem_of_find? h
  simp only [Bool.and_eq_true, decide_eq_true_eq] at hp
  exact ⟨hr, hp.1, hp.2⟩

theorem record?_of_mem {r : AttendanceRecordRow} {classroom student : Uuid}
    (hr : r ∈ reg.records.rows) (hfor : r.isFor classroom student = true) :
    reg.record? r.dayId classroom student = some r := by
  refine Table.find?_of_mem hr (by simp [hfor]) fun x _ hx => ?_
  simp only [AttendanceRecordRow.isFor, Bool.and_eq_true, decide_eq_true_eq] at hx hfor
  simp [Keyed.clash, hx, hfor]

theorem record?_of_unknown {id : Uuid} (h : ∀ d ∈ reg.days.rows, d.id ≠ id)
    (classroom student : Uuid) : reg.record? id classroom student = none := by
  by_contra hne
  obtain ⟨r, hr⟩ := Option.ne_none_iff_exists'.mp hne
  obtain ⟨hmem, hid, -⟩ := record?_eq_some hr
  obtain ⟨d, hd, hday⟩ := reg.dated r hmem
  exact h d hd (hday.trans hid)

theorem recordOn_addDay {row : AttendanceDayRow} (h : reg.addDay row = some reg')
    (classroom student : Uuid) (day : NaiveDate) :
    reg'.recordOn classroom student day = reg.recordOn classroom student day := by
  obtain ⟨-, hrecords, ⟨rfl, -⟩ | ⟨hnew, hins⟩⟩ := days_addDay h
  · rfl
  have hrecord : ∀ id, reg'.record? id classroom student = reg.record? id classroom student :=
    fun id => by rw [record?, hrecords, record?]
  by_cases hday : row.day = day
  · subst hday
    have hold : reg.dayId? row.day = none := by
      simp only [dayId?, Option.map_eq_none_iff, Table.find?_eq_none, decide_eq_false_iff_not]
      exact hnew
    have hid : reg'.dayId? row.day = some row.id :=
      dayId?_of_mem ((Table.mem_insert hins).mpr (.inr rfl))
    have hunknown : ∀ d ∈ reg.days.rows, d.id ≠ row.id := fun d hd => by
      have hclash := Table.clash_insert hins hd
      simp only [Keyed.clash, Bool.or_eq_false_iff, decide_eq_false_iff_not] at hclash
      exact hclash.1
    rw [recordOn, recordOn, hid, hold, Option.bind_some, Option.bind_none, hrecord,
      record?_of_unknown hunknown]
  · have hid : reg'.dayId? day = reg.dayId? day := by
      rw [dayId?, Table.find?_insert_other hins (by simpa using hday), dayId?]
    rw [recordOn, recordOn, hid, funext hrecord]

theorem putRecord_cases {row : AttendanceRecordRow} (h : reg.putRecord row = some reg') :
    reg'.school = reg.school ∧ reg'.days = reg.days ∧
      reg.upsertRecords row = some reg'.records := by
  unfold putRecord at h
  split at h
  next =>
    split at h
    next => cases h
    next records hrecords =>
      obtain rfl := Option.some.inj h
      exact ⟨rfl, rfl, hrecords⟩
  next => cases h

theorem clash_eq (row r : AttendanceRecordRow) : Keyed.clash r row =
    (decide (r.dayId = row.dayId) && r.isFor row.classroomId row.studentId) := by
  simp [Keyed.clash, AttendanceRecordRow.isFor, Bool.and_assoc]

theorem record?_putRecord {row : AttendanceRecordRow} (h : reg.putRecord row = some reg') :
    ∃ r, reg'.record? row.dayId row.classroomId row.studentId = some r ∧
      r.status = row.status ∧ r.note = row.note := by
  obtain ⟨-, -, hup⟩ := putRecord_cases h
  have hrow : row.isFor row.classroomId row.studentId = true := by
    simp [AttendanceRecordRow.isFor]
  rcases Table.upsert_cases hup with ⟨hany, hrecords⟩ | ⟨-, hins⟩
  · obtain ⟨r, hr, hclash⟩ := List.any_eq_true.mp hany
    have hkey := hclash
    rw [clash_eq, Bool.and_eq_true, decide_eq_true_eq] at hkey
    have hmem : overwrite row r ∈ reg'.records.rows := by
      rw [hrecords]
      exact Table.mem_update.mpr ⟨r, hr, by rw [if_pos hclash]⟩
    have hfound := record?_of_mem (r := overwrite row r) hmem hkey.2
    exact ⟨overwrite row r, by rw [← hkey.1]; exact hfound, rfl, rfl⟩
  · have hmem : row ∈ reg'.records.rows := (Table.mem_insert hins).mpr (.inr rfl)
    exact ⟨row, record?_of_mem hmem hrow, rfl, rfl⟩

theorem record?_putRecord_other {row : AttendanceRecordRow} (h : reg.putRecord row = some reg')
    {id classroom student : Uuid}
    (hne : ¬(id = row.dayId ∧ classroom = row.classroomId ∧ student = row.studentId)) :
    reg'.record? id classroom student = reg.record? id classroom student := by
  obtain ⟨-, -, hup⟩ := putRecord_cases h
  have hother : ∀ r : AttendanceRecordRow, (decide (r.dayId = id) && r.isFor classroom student) =
      true → Keyed.clash r row = false := fun r hr => by
    simp only [AttendanceRecordRow.isFor, Bool.and_eq_true, decide_eq_true_eq] at hr
    obtain ⟨rfl, rfl, rfl⟩ := hr
    simpa [Keyed.clash, and_assoc] using hne
  have hrow : (decide (row.dayId = id) && row.isFor classroom student) = false := by
    rw [Bool.eq_false_iff]
    intro hr
    have hclash := hother row hr
    rw [Keyed.refl] at hclash
    cases hclash
  exact Table.find?_upsert_other hup (fun _ => rfl) hother hrow

theorem countP_putRecord {row : AttendanceRecordRow} (h : reg.putRecord row = some reg')
    {p : AttendanceRecordRow → Bool} (hp : ∀ r, r.classroomId = row.classroomId → p r = false) :
    reg'.records.rows.countP p = reg.records.rows.countP p := by
  obtain ⟨-, -, hup⟩ := putRecord_cases h
  rcases Table.upsert_cases hup with ⟨-, hrecords⟩ | ⟨-, hins⟩
  · rw [hrecords, List.countP_eq_length_filter, List.countP_eq_length_filter]
    congr 1
    refine Table.filter_update fun r hr => ?_
    have hkey : r.classroomId = row.classroomId := by
      simp only [Keyed.clash, Bool.and_eq_true, decide_eq_true_eq] at hr
      exact hr.1.2
    exact ⟨hp r hkey, hp _ hkey⟩
  · rw [Table.rows_insert hins, List.countP_append, List.countP_singleton, hp row rfl]
    rfl

end Register

structure Saved (reg reg' : Register) (classroom student : Uuid) (day : NaiveDate)
    (status : AttendanceStatus) (note : String) : Prop where
  school : reg'.school = reg.school
  entry : ∃ r, reg'.recordOn classroom student day = some r ∧ r.status = status.stored ∧
    r.note = note
  others : ∀ c s d, ¬(c = classroom ∧ s = student ∧ d = day) →
    reg'.recordOn c s d = reg.recordOn c s d
  recorded : ∀ c s, c ≠ classroom → reg'.recordedDays c s = reg.recordedDays c s
  present : ∀ c s, c ≠ classroom → reg'.presentDays c s = reg.presentDays c s

theorem saved_of_run {reg reg' : Register} {dayId classroom student teacher : Uuid}
    {day : NaiveDate} {status : AttendanceStatus} {note : String} {now : Time}
    (h : (AttendanceStatement.saveRecord dayId day classroom student status note teacher now).run
      reg = .ok reg') : Saved reg reg' classroom student day status note := by
  obtain ⟨mid, hmid, h⟩ := bind_eq_ok.mp h
  obtain ⟨id, hid, h⟩ := bind_eq_ok.mp h
  obtain ⟨-, -, h⟩ := bind_eq_ok.mp h
  obtain ⟨-, -, h⟩ := bind_eq_ok.mp h
  obtain ⟨-, -, h⟩ := bind_eq_ok.mp h
  have hadd := stored_eq_ok.mp hmid
  have hput := stored_eq_ok.mp h
  have hday : mid.dayId? day = some id := by
    cases hfound : mid.dayId? day with
    | none => simp [hfound] at hid
    | some id' => rw [hfound] at hid; exact congrArg some (Except.ok.inj hid)
  obtain ⟨hschool, hrecords, -⟩ := Register.days_addDay hadd
  obtain ⟨hschool', hdays, -⟩ := Register.putRecord_cases hput
  have hids : ∀ d, reg'.dayId? d = mid.dayId? d := fun d => by
    rw [Register.dayId?, hdays, Register.dayId?]
  exact
    { school := hschool'.trans hschool
      entry := by
        obtain ⟨r, hr, hstatus, hnote⟩ := Register.record?_putRecord hput
        exact ⟨r, by rw [Register.recordOn, hids, hday]; exact hr, hstatus, hnote⟩
      others := fun c s d hne => by
        rw [← Register.recordOn_addDay hadd, Register.recordOn, Register.recordOn, hids]
        refine Option.bind_congr fun id' hid' => ?_
        refine Register.record?_putRecord_other hput fun hkey => hne ⟨hkey.2.1, hkey.2.2, ?_⟩
        exact Register.day_eq_of_dayId? hid' (hkey.1 ▸ hday)
      recorded := fun c s hne => by
        rw [Register.recordedDays, Register.countP_putRecord hput, hrecords, Register.recordedDays]
        intro r hr
        simp [AttendanceRecordRow.isFor, hr, Ne.symm hne]
      present := fun c s hne => by
        rw [Register.presentDays, Register.countP_putRecord hput, hrecords, Register.presentDays]
        intro r hr
        simp [AttendanceRecordRow.isFor, hr, Ne.symm hne] }

def admitted (cal : Calendar) (teacher : CurrentUser) (classroom : Uuid) (day : String)
    (school : Database) : Except HostError NaiveDate := do
  if teacher.role.isTeacher = true then
    let date ← parseDay cal day
    if teacherCanAccess school classroom teacher.id = true then .ok date else .error .forbidden
  else .error .forbidden

theorem parse_of_admitted {cal : Calendar} {teacher : CurrentUser} {classroom : Uuid}
    {day : String} {school : Database} {date : NaiveDate}
    (h : admitted cal teacher classroom day school = .ok date) : cal.parse day = some date := by
  unfold admitted parseDay at h
  split at h
  next =>
    obtain ⟨date', hparse, h⟩ := bind_eq_ok.mp h
    split at h
    next =>
      cases hcal : cal.parse day with
      | none => simp [hcal] at hparse
      | some d =>
        rw [hcal] at hparse
        exact congrArg some ((Except.ok.inj hparse).trans (Except.ok.inj h))
    next => cases h
  next => cases h

theorem exec_onSchool_require {c : Prop} [Decidable c] (e : HostError) (reg : Register) :
    (onSchool (require c e)).exec reg = if c then (.ok (), reg) else (.error e, reg) := by
  rw [onSchool, within_require, exec_require]

theorem exec_onSchool_access (classroom teacher : Uuid) (reg : Register) :
    (onSchool (requireTeacherAccess classroom teacher)).exec reg =
      if teacherCanAccess reg.school classroom teacher = true then (.ok (), reg)
      else (.error .forbidden, reg) := by
  simp only [onSchool, requireTeacherAccess, within_bind, within_require, exec_bind]
  exact exec_require _ _ _

theorem exec_admitted {α : Type} (cal : Calendar) (teacher : CurrentUser) (classroom : Uuid)
    (day : String) (f : NaiveDate → AttendanceProgram α) (reg : Register) :
    (do onSchool (requireTeacher teacher)
        let date ← ofExcept (parseDay cal day)
        onSchool (requireTeacherAccess classroom teacher.id)
        f date : AttendanceProgram α).exec reg =
      match admitted cal teacher classroom day reg.school with
      | .ok date => (f date).exec reg
      | .error e => (.error e, reg) := by
  rw [exec_bind, requireTeacher, exec_onSchool_require, admitted]
  by_cases hrole : teacher.role.isTeacher = true
  · rw [if_pos hrole, if_pos hrole]
    dsimp only
    rw [exec_bind, exec_ofExcept]
    cases parseDay cal day with
    | error e => rfl
    | ok date =>
      dsimp only
      rw [exec_bind, exec_onSchool_access]
      by_cases haccess : teacherCanAccess reg.school classroom teacher.id = true
      · simp [haccess, Bind.bind, Except.bind]
      · simp [haccess, Bind.bind, Except.bind]
  · rw [if_neg hrole, if_neg hrole]

end Cinder.Attendance
