import Cinder.Programs.SerialRuns
import Cinder.Submissions.SubmissionHandlers
set_option autoImplicit false

/-!
Whether work is marked graded exactly while its student can see a grade. The
status is a column of the submission and the publication one of the grade, and
each of the three requests writes them in its own way.
-/

namespace Cinder.Submissions
open Cinder.Host Cinder.Storage Cinder.Programs Cinder.Programs.Program

def PublishedGrade (db : Database) (id : Uuid) : Prop :=
  ∃ g ∈ db.grades.rows, g.submissionId = id ∧ g.published = true

/-- `load_grade` has a grade to show the student. -/
def ShownToStudent (db : Database) (id : Uuid) : Prop :=
  ∃ g, ((loadGrade id false).exec db).1 = .ok (some g)

def StatusMatches (db : Database) : Prop :=
  ∀ s ∈ db.submissions.rows, (s.status = .graded ↔ PublishedGrade db s.id) ∧
    (s.status = .graded ↔ ShownToStudent db s.id)

/-- A grade is of stored work, and the status of work says whether it has a
published grade. -/
structure GradesMatch (db : Database) : Prop where
  belong : ∀ g ∈ db.grades.rows, ∃ s ∈ db.submissions.rows, s.id = g.submissionId
  status : ∀ s ∈ db.submissions.rows, s.status = .graded ↔ PublishedGrade db s.id

/-- The request passes the checks of `save_grade` and saves a grade that is not
published, for work that is graded. -/
def HidesGrade (call : SubmissionCall) (db : Database) : Prop :=
  match call.request with
  | .grade id req => req.publish = false ∧ call.user.role.isTeacher = true ∧
      ∃ s ∈ submission? db id, s.status = .graded ∧ ∃ a ∈ assignment? db s.assignmentId,
        teacherCanAccess db a.classroomId call.user.id = true ∧
          ∀ points ∈ req.points, 0 ≤ points ∧ points ≤ a.maxPoints
  | _ => False

instance (db : Database) (id : Uuid) : Decidable (PublishedGrade db id) :=
  inferInstanceAs (Decidable (∃ g ∈ db.grades.rows, _))

instance (call : SubmissionCall) (db : Database) : Decidable (HidesGrade call db) := by
  unfold HidesGrade
  split <;> infer_instance

section Statements
variable {db db' : Database}

theorem shownToStudent_iff (id : Uuid) : ShownToStudent db id ↔ PublishedGrade db id := by
  have hexec : ((loadGrade id false).exec db).1 =
      .ok (((grade? db id).filter fun g => g.published).map fun g =>
        { id := g.id, points := g.points, gradeLabel := g.gradeLabel, feedback := g.feedback
          published := g.published, updatedAt := g.updatedAt }) := by
    simp [loadGrade, exec_bind]
  unfold ShownToStudent
  rw [hexec]
  constructor
  · rintro ⟨g, hg⟩
    obtain ⟨row, hrow, -⟩ := Option.map_eq_some_iff.mp (Except.ok.inj hg)
    obtain ⟨hfind, hpub⟩ := Option.filter_eq_some_iff.mp hrow
    obtain ⟨hmem, hid⟩ := Table.mem_of_find? hfind
    exact ⟨row, hmem, by simpa using hid, hpub⟩
  · rintro ⟨row, hmem, rfl, hpub⟩
    have hfind : grade? db row.submissionId = some row :=
      Table.find?_of_mem hmem (by simp) fun g _ h => by simp_all [Keyed.clash]
    exact ⟨_, by rw [hfind]; simp [hpub]; rfl⟩

theorem GradesMatch.statusMatches (h : GradesMatch db) : StatusMatches db := fun s hs =>
  ⟨h.status s hs, (h.status s hs).trans (shownToStudent_iff s.id).symm⟩

theorem publishedGrade_save {row : GradeRow} (id : Uuid)
    (h : db.grades.upsert (fun g => g.submissionId = row.submissionId) (regrade row)
      (regrade_keeps row) row = some db'.grades) :
    PublishedGrade db' id ↔
      if id = row.submissionId then row.published = true else PublishedGrade db id := by
  rcases Table.upsert_cases h with ⟨hsome, hd⟩ | ⟨hnone, hins⟩
  · obtain ⟨old, hold, hsid⟩ := List.any_eq_true.mp hsome
    simp only [decide_eq_true_eq] at hsid
    have hmem : ∀ g, g ∈ db'.grades.rows ↔
        ∃ g₀ ∈ db.grades.rows, g = if g₀.submissionId = row.submissionId then regrade row g₀
          else g₀ := fun g => by
      rw [hd, Table.mem_update]
      simp only [decide_eq_true_eq]
    split
    · next hid =>
      subst hid
      constructor
      · rintro ⟨g, hg, hgid, hpub⟩
        obtain ⟨g₀, -, rfl⟩ := (hmem g).mp hg
        split at hgid
        · next hsame => simpa [hsame, regrade] using hpub
        · next hother => exact absurd hgid hother
      · intro hpub
        exact ⟨regrade row old, (hmem _).mpr ⟨old, hold, by rw [if_pos hsid]⟩, hsid, hpub⟩
    · next hid =>
      constructor
      · rintro ⟨g, hg, rfl, hpub⟩
        obtain ⟨g₀, hg₀, rfl⟩ := (hmem g).mp hg
        split at hid
        · next hsame => exact absurd hsame hid
        · next hother => exact ⟨g₀, hg₀, by rw [if_neg hother], by simpa [hother] using hpub⟩
      · rintro ⟨g, hg, rfl, hpub⟩
        exact ⟨g, (hmem g).mpr ⟨g, hg, by rw [if_neg hid]⟩, rfl, hpub⟩
  · have hnew : ∀ g ∈ db.grades.rows, g.submissionId ≠ row.submissionId := by
      simpa using List.any_eq_false.mp hnone
    unfold PublishedGrade
    simp only [Table.mem_insert hins]
    split
    · next hid =>
      subst hid
      constructor
      · rintro ⟨g, hg | rfl, hgid, hpub⟩
        · exact absurd hgid (hnew g hg)
        · exact hpub
      · exact fun hpub => ⟨row, .inr rfl, rfl, hpub⟩
    · next hid =>
      constructor
      · rintro ⟨g, hg | rfl, hgid, hpub⟩
        · exact ⟨g, hg, hgid, hpub⟩
        · exact absurd hgid.symm hid
      · exact fun ⟨g, hg, hgid, hpub⟩ => ⟨g, .inl hg, hgid, hpub⟩

theorem publishedGrade_unpublish {sid : Uuid} {now : Time} (id : Uuid)
    (h : db'.grades = db.grades.update (fun g => g.submissionId = sid) (unpublish now)
      (unpublish_keeps now)) : PublishedGrade db' id ↔ id ≠ sid ∧ PublishedGrade db id := by
  unfold PublishedGrade
  simp only [h, Table.mem_update]
  constructor
  · rintro ⟨g, ⟨g₀, hg₀, rfl⟩, rfl, hpub⟩
    by_cases hsid : g₀.submissionId = sid
    · simp [hsid, unpublish] at hpub
    · simp only [hsid, decide_false, Bool.false_eq_true, if_false] at hpub ⊢
      exact ⟨hsid, g₀, hg₀, rfl, hpub⟩
  · rintro ⟨hne, g, hg, rfl, hpub⟩
    exact ⟨g, ⟨g, hg, by simp [hne]⟩, rfl, hpub⟩

theorem gradesMatch_submit {row : SubmissionRow} {version : SubmissionVersionRow}
    (hdb : GradesMatch db) (h : (SubmissionStatement.submitWork row version).run db = .ok db')
    (hst : row.status = .submitted)
    (hnew : studentSubmission? db row.assignmentId row.studentId = none) : GradesMatch db' := by
  obtain ⟨hupsert, -, -, hgrades, -⟩ := run_submitWork h
  have hgrades : db'.grades = db.grades := by simpa [hst] using hgrades
  have hpublished : ∀ id, PublishedGrade db' id ↔ PublishedGrade db id := fun id => by
    rw [PublishedGrade, hgrades, PublishedGrade]
  rcases Table.upsert_cases hupsert with ⟨hsome, -⟩ | ⟨-, hins⟩
  · obtain ⟨s, hs, hkey⟩ := List.any_eq_true.mp hsome
    have hno := Table.find?_eq_none.mp hnew s hs
    rw [hkey] at hno
    cases hno
  · refine ⟨fun g hg => ?_, fun s hs => ?_⟩
    · obtain ⟨s, hs, hid⟩ := hdb.belong g (hgrades ▸ hg)
      exact ⟨s, (Table.mem_insert hins).mpr (.inl hs), hid⟩
    · rw [hpublished]
      rcases (Table.mem_insert hins).mp hs with hold | rfl
      · exact hdb.status s hold
      · refine ⟨fun hgraded => (by simp [hst] at hgraded), fun ⟨g, hg, hid, _⟩ => ?_⟩
        -- a grade of the new id would be of stored work
        obtain ⟨s', hs', hid'⟩ := hdb.belong g hg
        have hclash := Table.clash_insert hins hs'
        simp [Keyed.clash, hid', hid] at hclash

theorem gradesMatch_resubmit {row : SubmissionRow} {version : SubmissionVersionRow}
    {s : SubmissionRow} (hdb : GradesMatch db)
    (h : (SubmissionStatement.submitWork row version).run db = .ok db')
    (hst : row.status = .resubmitted) (hs : s ∈ db.submissions.rows)
    (hkeys : s.id = row.id ∧ s.assignmentId = row.assignmentId ∧ s.studentId = row.studentId) :
    GradesMatch db' := by
  obtain ⟨hupsert, -, -, hgrades, -⟩ := run_submitWork h
  obtain ⟨hid, ha, hstudent⟩ := hkeys
  rw [if_pos hst] at hgrades
  rcases Table.upsert_cases hupsert with ⟨-, hd⟩ | ⟨hnone, -⟩
  · refine ⟨fun g hg => ?_, fun s' hs' => ?_⟩
    · rw [hgrades] at hg
      obtain ⟨g₀, hg₀, rfl⟩ := Table.mem_update.mp hg
      obtain ⟨r, hr, hrid⟩ := hdb.belong g₀ hg₀
      refine ⟨_, hd ▸ Table.mem_update.mpr ⟨r, hr, rfl⟩, ?_⟩
      split <;> split <;> exact hrid
    · rw [hd] at hs'
      obtain ⟨r, hr, rfl⟩ := Table.mem_update.mp hs'
      rw [publishedGrade_unpublish _ hgrades]
      split
      · next hkey =>
        simp only [Bool.and_eq_true, decide_eq_true_eq] at hkey
        have hsame : r = s := Table.eq_of_clash hr hs (by simp [Keyed.clash, ha, hstudent, hkey])
        simp [resubmit, hst, hsame, hid]
      · next hkey =>
        have hne : r.id ≠ row.id := fun he => by
          have hsame : r = s := Table.eq_of_clash hr hs (by simp [Keyed.clash, he, hid])
          exact hkey (by simp [hsame, ha, hstudent])
        simpa [hne] using hdb.status r hr
  · have hkey := List.any_eq_false.mp hnone s hs
    simp [ha, hstudent] at hkey

theorem gradesMatch_withdraw {assignment student : Uuid} {now : Time} (hdb : GradesMatch db)
    (h : (SubmissionStatement.withdrawWork assignment student now).run db = .ok db')
    (hopen : ∀ s ∈ db.submissions.rows, s.assignmentId = assignment → s.studentId = student →
      s.status ≠ .graded) : GradesMatch db' := by
  obtain ⟨hd, -, hgrades, -⟩ := run_withdrawWork h
  refine ⟨fun g hg => ?_, fun s' hs' => ?_⟩
  · obtain ⟨r, hr, hrid⟩ := hdb.belong g (hgrades ▸ hg)
    refine ⟨_, hd ▸ Table.mem_update.mpr ⟨r, hr, rfl⟩, ?_⟩
    split <;> exact hrid
  · rw [hd] at hs'
    obtain ⟨r, hr, rfl⟩ := Table.mem_update.mp hs'
    rw [PublishedGrade, hgrades, ← PublishedGrade]
    split
    · next hkey =>
      simp only [Bool.and_eq_true, decide_eq_true_eq] at hkey
      have hno := mt (hdb.status r hr).mpr (hopen r hr hkey.1.1 hkey.1.2)
      simpa [withdraw] using hno
    · exact hdb.status r hr

theorem gradesMatch_save {row : GradeRow} {change : GradeChangeRow} (hdb : GradesMatch db)
    (h : (SubmissionStatement.saveGrade row change).run db = .ok db')
    (hopen : row.published = false → ∀ s ∈ db.submissions.rows, s.id = row.submissionId →
      s.status ≠ .graded) : GradesMatch db' := by
  obtain ⟨⟨work, hwork, hworkId⟩, hupsert, -, -, hd, -⟩ := run_saveGrade h
  have hmem : ∀ s', s' ∈ db'.submissions.rows ↔ ∃ s ∈ db.submissions.rows,
      s' = if row.published = true ∧ s.id = row.submissionId then markGraded row.updatedAt s
        else s := fun s' => by
    rw [hd]
    split
    · next hpub =>
      rw [Table.mem_update]
      simp only [hpub, true_and, decide_eq_true_eq]
    · next hpub => simp [hpub]
  have hkept : ∀ s ∈ db.submissions.rows, ∃ s' ∈ db'.submissions.rows, s'.id = s.id :=
    fun s hs => ⟨_, (hmem _).mpr ⟨s, hs, rfl⟩, by split <;> rfl⟩
  refine ⟨fun g hg => ?_, fun s' hs' => ?_⟩
  · have hbelong : ∃ s ∈ db.submissions.rows, s.id = g.submissionId := by
      rcases Table.upsert_cases hupsert with ⟨-, hg'⟩ | ⟨-, hins⟩
      · rw [hg'] at hg
        obtain ⟨g₀, hg₀, rfl⟩ := Table.mem_update.mp hg
        obtain ⟨r, hr, hrid⟩ := hdb.belong g₀ hg₀
        exact ⟨r, hr, by split <;> exact hrid⟩
      · rcases (Table.mem_insert hins).mp hg with hold | rfl
        · exact hdb.belong g hold
        · exact ⟨work, hwork, hworkId⟩
    obtain ⟨s, hs, hid⟩ := hbelong
    obtain ⟨s', hs', hid'⟩ := hkept s hs
    exact ⟨s', hs', hid'.trans hid⟩
  · obtain ⟨s, hs, rfl⟩ := (hmem s').mp hs'
    rw [publishedGrade_save _ hupsert]
    by_cases hid : s.id = row.submissionId
    · cases hpub : row.published with
      | true => simp [hid, markGraded]
      | false => simpa [hid] using hopen hpub s hs hid
    · simpa [hid] using hdb.status s hs

end Statements

section Handlers
variable {db : Database}

theorem assertSubmissionVisible_teacher {id : Uuid} {teacher : CurrentUser} {db' : Database}
    {u : Unit} (hrole : teacher.role.isTeacher = true)
    (h : (assertSubmissionVisible id teacher).exec db = (.ok u, db')) :
    ∃ s a, submission? db id = some s ∧ assignment? db s.assignmentId = some a ∧
      teacherCanAccess db a.classroomId teacher.id = true := by
  rw [assertSubmissionVisible, if_pos hrole] at h
  obtain ⟨classroom, t, hrow, h⟩ := exec_bind_eq_ok h
  obtain ⟨hfound, rfl⟩ := exec_queryRow_ok hrow
  obtain ⟨s, hs, hfound⟩ := Option.bind_eq_some_iff.mp hfound
  obtain ⟨a, ha, hfound⟩ := Option.bind_eq_some_iff.mp hfound
  cases hfound
  obtain ⟨access, t, hquery, h⟩ := exec_bind_eq_ok h
  cases hquery
  exact ⟨s, a, hs, ha, (exec_require_ok h).1⟩

theorem submitWork_leaves (env : Env) (jsonBytes : Json → Nat) (student : CurrentUser)
    (assignmentId : Uuid) (req : SubmitWorkRequest) (hdb : GradesMatch db) :
    (submitWork env jsonBytes student assignmentId req).Leaves GradesMatch db := by
  refine leaves_readOnly_bind (requireStudent_readOnly _) hdb fun _ _ => ?_
  refine leaves_readOnly_bind (readOnly_ofExcept _) hdb fun _ _ => ?_
  refine leaves_readOnly_bind (loadAssignment_readOnly _) hdb fun assignment _ => ?_
  refine leaves_readOnly_bind (readOnly_require _ _) hdb fun _ _ => ?_
  refine leaves_readOnly_bind (assertEnrolled_readOnly _ _) hdb fun _ _ => ?_
  refine leaves_executeReturning_bind hdb fun db₁ hsel => ?_
  obtain rfl : db = db₁ := Except.ok.inj hsel
  refine leaves_readOnly_bind (submissionTarget_readOnly env _) hdb fun target htarget => ?_
  refine leaves_readOnly_bind (readOnly_query _) hdb fun next _ => ?_
  refine leaves_bind_readOnly ?_ fun _ => loadSubmission_readOnly _ _
  refine leaves_write hdb fun db' hrun => ?_
  cases hfound : studentSubmission? db assignmentId student.id with
  | none =>
    rw [existingSubmission, hfound] at htarget
    cases htarget
    exact gradesMatch_submit hdb hrun rfl hfound
  | some s =>
    rw [existingSubmission, hfound] at htarget
    obtain ⟨_, _, -, htarget⟩ := exec_bind_eq_ok htarget
    cases htarget
    obtain ⟨hs, hkey⟩ := Table.mem_of_find? hfound
    simp only [Bool.and_eq_true, decide_eq_true_eq] at hkey
    exact gradesMatch_resubmit hdb hrun rfl hs ⟨rfl, hkey.1, hkey.2⟩

theorem withdrawWork_leaves (env : Env) (student : CurrentUser) (assignmentId : Uuid)
    (hdb : GradesMatch db) : (withdrawWork env student assignmentId).Leaves GradesMatch db := by
  refine leaves_readOnly_bind (requireStudent_readOnly _) hdb fun _ _ => ?_
  refine leaves_executeReturning_bind hdb fun db₁ hsel => ?_
  obtain rfl : db = db₁ := Except.ok.inj hsel
  cases hfound : studentSubmission? db assignmentId student.id with
  | none =>
    rw [existingSubmission, hfound]
    exact hdb
  | some s =>
    rw [existingSubmission, hfound]
    refine leaves_readOnly_bind (readOnly_require _ _) hdb fun _ heditable => ?_
    refine leaves_bind_readOnly ?_ fun _ => readOnly_require _ _
    refine leaves_write hdb fun db' hrun => gradesMatch_withdraw hdb hrun fun r hr ha hst => ?_
    obtain ⟨hs, hkey⟩ := Table.mem_of_find? hfound
    simp only [Bool.and_eq_true, decide_eq_true_eq] at hkey
    obtain rfl : r = s := Table.eq_of_clash hr hs (by simp [Keyed.clash, hkey, ha, hst])
    exact (exec_require_ok heditable).1

theorem saveGrade_leaves (env : Env) (teacher : CurrentUser) (id : Uuid) (req : SaveGradeRequest)
    (hdb : GradesMatch db) (hshown : ¬HidesGrade ⟨env, teacher, .grade id req⟩ db) :
    (saveGrade env teacher id req).Leaves GradesMatch db := by
  refine leaves_readOnly_bind (requireTeacher_readOnly _) hdb fun _ hteacher => ?_
  refine leaves_readOnly_bind (assertSubmissionVisible_readOnly _ _) hdb fun _ hvisible => ?_
  refine leaves_readOnly_bind (readOnly_queryRow _ _) hdb fun max hmax => ?_
  refine leaves_readOnly_bind (readOnly_require _ _) hdb fun _ hpoints => ?_
  refine leaves_readOnly_bind (readOnly_query _) hdb fun previous _ => ?_
  refine leaves_bind_readOnly ?_ fun _ => trivial
  refine leaves_write hdb fun db' hrun => gradesMatch_save hdb hrun fun hpub r hr hid hgraded => ?_
  have hrole := (exec_require_ok hteacher).1
  obtain ⟨s, a, hs, ha, haccess⟩ := assertSubmissionVisible_teacher hrole hvisible
  have hmaxPoints : some a.maxPoints = some max := by
    have hfound := (exec_queryRow_ok hmax).1
    simpa [hs, ha] using hfound
  obtain ⟨hsm, hsid⟩ := Table.mem_of_find? hs
  obtain rfl : r = s :=
    Table.eq_of_clash hr hsm (by simpa [Keyed.clash] using .inl (by simp_all))
  refine hshown ⟨hpub, hrole, r, hs, hgraded, a, ha, haccess, ?_⟩
  rw [Option.some.inj hmaxPoints]
  exact (exec_require_ok hpoints).1

theorem handle_leaves (jsonBytes : Json → Nat) (call : SubmissionCall) (hdb : GradesMatch db)
    (hshown : ¬HidesGrade call db) : (handle jsonBytes call).Leaves GradesMatch db := by
  obtain ⟨env, user, request⟩ := call
  cases request with
  | submit id req =>
    exact leaves_bind_readOnly (submitWork_leaves env jsonBytes user id req hdb) fun _ => trivial
  | withdraw id =>
    exact leaves_bind_readOnly (withdrawWork_leaves env user id hdb) fun _ => trivial
  | grade id req =>
    exact leaves_bind_readOnly (saveGrade_leaves env user id req hdb hshown) fun _ => trivial

end Handlers

/-- As long as no grade of graded work is hidden, work is marked graded exactly
while its student is shown a grade. -/
theorem graded_exactly_while_shown (jsonBytes : Json → Nat) (db : Database)
    (hdb : GradesMatch db) (calls : List SubmissionCall)
    (h : SerialMeets (handle jsonBytes) (fun call db => ¬HidesGrade call db) calls db) :
    StatusMatches db ∧ SerialMeets (handle jsonBytes)
      (fun call db => StatusMatches ((handle jsonBytes call).exec db).2) calls db :=
  ⟨hdb.statusMatches, SerialMeets.of_keeps (I := GradesMatch) (fun call _ hdb hok =>
    have hnext := handle_leaves jsonBytes call hdb hok
    ⟨hnext, GradesMatch.statusMatches hnext⟩) hdb h⟩

def publishedCalls : List SubmissionCall :=
  [⟨sampleEnv 20, sampleTeacher, .grade 5 ⟨some 8, none, "Good.", false⟩⟩,
   ⟨sampleEnv 30, sampleTeacher, .grade 5 ⟨some 8, none, "Good.", true⟩⟩,
   ⟨sampleEnv 40, sampleStudent, .submit 4 ⟨sampleDocument, "A second answer.", none⟩⟩]

theorem graded_exactly_while_shown_sample :
    StatusMatches sampleWork ∧ SerialMeets (handle fun _ => 27)
      (fun call db => StatusMatches ((handle (fun _ => 27) call).exec db).2) publishedCalls
        sampleWork :=
  graded_exactly_while_shown (fun _ => 27) sampleWork
    ⟨by decide +kernel, by decide +kernel⟩ publishedCalls (by decide +kernel)

def hidingCalls : List SubmissionCall :=
  [⟨sampleEnv 20, sampleTeacher, .grade 5 ⟨some 8, none, "Good.", true⟩⟩,
   ⟨sampleEnv 30, sampleTeacher, .grade 5 ⟨some 8, none, "Good.", false⟩⟩]

/-- The work stays graded, and its student is shown no grade. -/
theorem hidden_grade_of_graded_work :
    ¬SerialMeets (handle fun _ => 27)
      (fun call db => StatusMatches ((handle (fun _ => 27) call).exec db).2) hidingCalls
        sampleWork := by
  rintro ⟨-, hmatch, -⟩
  have hwork : ∃ s ∈ (serial (handle fun _ => 27) hidingCalls sampleWork).2.submissions.rows,
      s.status = .graded ∧
        ¬PublishedGrade (serial (handle fun _ => 27) hidingCalls sampleWork).2 s.id := by
    decide +kernel
  obtain ⟨s, hs, hgraded, hhidden⟩ := hwork
  exact hhidden ((hmatch s hs).1.mp hgraded)

end Cinder.Submissions
