import Cinder.Submissions.AssignmentChanges
set_option autoImplicit false

/-!
Whether the points of a grade stay within the maximum. `save_grade` checks the
points against the maximum it has read, and `update_assignment` checks the new
maximum against the grades it has read; each writes later.
-/

namespace Cinder.Submissions
open Cinder.Host Cinder.Storage Cinder.Programs Cinder.Programs.Program
open Cinder.Programs.Protocol

def WithinMax (db : Database) : Prop :=
  ∀ g ∈ db.grades.rows, ∀ s ∈ db.submissions.rows, s.id = g.submissionId →
    ∀ a ∈ db.assignments.rows, a.id = s.assignmentId →
      ∀ points ∈ g.points, 0 ≤ points ∧ points ≤ a.maxPoints

structure GradesWithin (db : Database) : Prop where
  within : WithinMax db
  belong : ∀ g ∈ db.grades.rows, ∃ s ∈ db.submissions.rows, s.id = g.submissionId

instance (db : Database) : Decidable (WithinMax db) :=
  inferInstanceAs (Decidable (∀ g ∈ db.grades.rows, _))

section Conditions
variable {ι : Type} (i : ι)

def LowersMax (assignment : Uuid) (points : ℚ) (e : Event ι Database GradingStatement) : Prop :=
  match e.label with
  | .updateAssignment row => row.id = assignment ∧ row.maxPoints < points
  | _ => False

/-- The event saves points above the maximum for work of the assignment. -/
def GradesAbove (assignment : Uuid) (max : ℚ) (e : Event ι Database GradingStatement) : Prop :=
  match e.label with
  | .submission (.saveGrade row _) =>
    (∃ s ∈ e.before.submissions.rows, s.id = row.submissionId ∧ s.assignmentId = assignment) ∧
      ∃ points ∈ row.points, max < points
  | _ => False

def LoweredSince (s : SubmissionRow) (points : ℚ)
    (history : List (Event ι Database GradingStatement)) : Prop :=
  Afterwards (fun e => e.proc = i ∧ e.label = .selectMax s.id) (LowersMax s.assignmentId points)
    history

/-- Points above the maximum were saved after the request had selected the
highest ones. -/
def GradedSince (assignment : Uuid) (max : ℚ)
    (history : List (Event ι Database GradingStatement)) : Prop :=
  Afterwards (fun e => e.proc = i ∧ e.label = .selectHighest assignment)
    (GradesAbove assignment max) history

/-- Points that are saved above the maximum were so when the request selected
the maximum, and a maximum that is set below points was so when the request
selected the highest points. -/
def BoundsInTime (l : GradingStatement) (w : World ι Database GradingStatement) : Prop :=
  match l with
  | .submission (.saveGrade row _) => ∀ s ∈ w.state.submissions.rows, s.id = row.submissionId →
      ∀ a ∈ w.state.assignments.rows, a.id = s.assignmentId →
        ∀ points ∈ row.points, a.maxPoints < points → ¬LoweredSince i s points w.history
  | .updateAssignment row => ∀ g ∈ w.state.grades.rows, ∀ s ∈ w.state.submissions.rows,
      s.id = g.submissionId → s.assignmentId = row.id →
        ∀ points ∈ g.points, row.maxPoints < points →
          ¬GradedSince i row.id row.maxPoints w.history
  | _ => True

instance (assignment : Uuid) (points : ℚ) (e : Event ι Database GradingStatement) :
    Decidable (LowersMax assignment points e) := by
  unfold LowersMax
  split <;> infer_instance

instance (assignment : Uuid) (max : ℚ) (e : Event ι Database GradingStatement) :
    Decidable (GradesAbove assignment max e) := by
  unfold GradesAbove
  split <;> infer_instance

instance [DecidableEq ι] (s : SubmissionRow) (points : ℚ)
    (history : List (Event ι Database GradingStatement)) :
    Decidable (LoweredSince i s points history) :=
  inferInstanceAs (Decidable (Afterwards _ _ history))

instance [DecidableEq ι] (assignment : Uuid) (max : ℚ)
    (history : List (Event ι Database GradingStatement)) :
    Decidable (GradedSince i assignment max history) :=
  inferInstanceAs (Decidable (Afterwards _ _ history))

instance [DecidableEq ι] (l : GradingStatement) (w : World ι Database GradingStatement) :
    Decidable (BoundsInTime i l w) := by
  unfold BoundsInTime
  split <;> infer_instance

end Conditions

/-- What the two handlers see to: points that are saved are within the maximum,
and a maximum that is set is not below the points. -/
def KeepsBounds (l : GradingStatement) (db : Database) : Prop :=
  match l with
  | .submission (.saveGrade row _) => ∀ s ∈ db.submissions.rows, s.id = row.submissionId →
      ∀ a ∈ db.assignments.rows, a.id = s.assignmentId →
        ∀ points ∈ row.points, 0 ≤ points ∧ points ≤ a.maxPoints
  | .updateAssignment row => ∀ g ∈ db.grades.rows, ∀ s ∈ db.submissions.rows,
      s.id = g.submissionId → s.assignmentId = row.id →
        ∀ points ∈ g.points, points ≤ row.maxPoints
  | _ => True

section Statements
variable {db db' : Database}

theorem keepsBounds_of_student {l : GradingStatement} (hl : l.ofStudent = true) :
    KeepsBounds l db := by
  cases l with
  | selectMax | selectGrade | selectHighest | updateAssignment => cases hl
  | submission l =>
    cases l with
    | selectStatus | submitWork | withdrawWork => trivial
    | saveGrade => cases hl

theorem gradedPoints_le {aid : Uuid} {max : ℚ}
    (h : ∀ points ∈ (gradedPoints db aid).max?, points ≤ max) {g : GradeRow}
    (hg : g ∈ db.grades.rows) {s : SubmissionRow} (hs : s ∈ db.submissions.rows)
    (hid : s.id = g.submissionId) (haid : s.assignmentId = aid) {points : ℚ}
    (hpoints : points ∈ g.points) : points ≤ max := by
  have hmem : points ∈ gradedPoints db aid :=
    List.mem_flatMap.mpr ⟨s, List.mem_filter.mpr ⟨hs, by simpa using haid⟩,
      List.mem_filterMap.mpr ⟨g, List.mem_filter.mpr ⟨hg, by simpa using hid.symm⟩, hpoints⟩⟩
  cases hmax : (gradedPoints db aid).max? with
  | none =>
    rw [List.max?_eq_none_iff.mp hmax] at hmem
    cases hmem
  | some highest =>
    exact ((List.max?_eq_some_iff.mp hmax).2 points hmem).trans (h highest hmax)

theorem gradesWithin_step {l : GradingStatement} (hdb : GradesWithin db) (hl : KeepsBounds l db)
    (h : l.run db = .ok db') : GradesWithin db' := by
  refine ⟨fun g' hg' s' hs' hsid a' ha' haid points hpoints => ?_, fun g' hg' => ?_⟩
  · obtain ⟨a, ha, haid', hmax⟩ := assignment_from h ha'
    rcases grade_from h hg' with ⟨g, hg, -, hgsid, hcontent⟩ | ⟨row, change, rfl, hgsid, hcontent⟩
    · obtain ⟨s, hs, hid⟩ := hdb.belong g hg
      have hwork := work_same h hs hs' (hsid.trans (hgsid.trans hid.symm))
      have hold : points ∈ g.points := points_of_content hcontent ▸ hpoints
      have hbound := hdb.within g hg s hs hid a ha (haid'.symm.trans (haid.trans hwork)) points hold
      rcases hmax with hmax | ⟨row, rfl, hrow, hmax⟩
      · rw [hmax]
        exact hbound
      · refine ⟨hbound.1, ?_⟩
        rw [hmax]
        refine hl g hg s hs hid ?_ points hold
        rw [← hwork, ← haid, haid', hrow]
    · obtain ⟨⟨s, hs, hid⟩, -⟩ := run_saveGrade h
      have hwork := work_same h hs hs' (hsid.trans (hgsid.trans hid.symm))
      have hnew : points ∈ row.points := points_of_content hcontent ▸ hpoints
      rcases hmax with hmax | ⟨_, hl', -⟩
      · rw [hmax]
        exact hl s hs hid a ha (haid'.symm.trans (haid.trans hwork)) points hnew
      · cases hl'
  · have hwork : ∃ s ∈ db.submissions.rows, s.id = g'.submissionId := by
      rcases grade_from h hg' with ⟨g, hg, -, hgsid, -⟩ | ⟨row, change, rfl, hgsid, -⟩
      · rw [hgsid]
        exact hdb.belong g hg
      · rw [hgsid]
        exact (run_saveGrade h).1
    obtain ⟨s, hs, hid⟩ := hwork
    obtain ⟨s', hs', hid', -⟩ := work_kept h hs
    exact ⟨s', hs', hid'.trans hid⟩

end Statements

section Runs
variable {ι : Type}

def boundsProtocol (ι : Type) : Protocol ι Database GradingStatement where
  inv w := GradesWithin w.state
  guard i l w := BoundsInTime i l w
  promise _ l w := KeepsBounds l w.state
  inv_step _ _ _ _ hdb _ hl hw := gradesWithin_step hdb hl hw.1

/-- The request has selected the maximum of the stored work, and points that
were within it are so, or the maximum was lowered since. -/
def SelectedMax (i : ι) (sid : Uuid) (max : ℚ) (w : World ι Database GradingStatement) : Prop :=
  ∃ s ∈ w.state.submissions.rows, s.id = sid ∧
    (∃ e ∈ w.history, e.proc = i ∧ e.label = .selectMax s.id) ∧
    ∀ a ∈ w.state.assignments.rows, a.id = s.assignmentId → ∀ points, points ≤ max →
      points ≤ a.maxPoints ∨ LoweredSince i s points w.history

theorem SelectedMax.step {i j : ι} {sid : Uuid} {max : ℚ} {l : GradingStatement}
    {w w' : World ι Database GradingStatement} (h : SelectedMax i sid max w)
    (hw : World.Wrote j l w w') : SelectedMax i sid max w' := by
  obtain ⟨s, hs, rfl, ⟨e, he, hselect⟩, hbound⟩ := h
  obtain ⟨s', hs', hid, ha⟩ := work_kept hw.1 hs
  rw [SelectedMax, hw.2]
  refine ⟨s', hs', hid, ⟨e, List.mem_cons_of_mem _ he, by rw [hid]; exact hselect⟩, ?_⟩
  intro a' ha' haid points hle
  unfold LoweredSince
  rw [hid, ha]
  obtain ⟨a, hold, haid', hmax⟩ := assignment_from hw.1 ha'
  rcases hmax with hmax | ⟨row, rfl, hrow, hmax⟩
  · rw [hmax]
    exact (hbound a hold (haid'.symm.trans (haid.trans ha)) points hle).imp_right .inr
  · by_cases hlow : points ≤ a'.maxPoints
    · exact .inl hlow
    · refine .inr (.inl ⟨⟨hrow.trans (haid'.symm.trans (haid.trans ha)), ?_⟩, e, he, hselect⟩)
      rw [hmax] at hlow
      exact not_le.mp hlow

theorem stable_selectedMax (i : ι) (sid : Uuid) (max : ℚ) :
    (boundsProtocol ι).Stable i (SelectedMax i sid max) := fun _ _ _ _ _ h _ _ _ hw => h.step hw

/-- The request has selected the highest points, and no points are above the
maximum unless they were saved since. -/
def NoneAbove (i : ι) (aid : Uuid) (max : ℚ) (w : World ι Database GradingStatement) : Prop :=
  (∃ e ∈ w.history, e.proc = i ∧ e.label = .selectHighest aid) ∧
    ∀ g ∈ w.state.grades.rows, ∀ s ∈ w.state.submissions.rows, s.id = g.submissionId →
      s.assignmentId = aid → ∀ points ∈ g.points,
        points ≤ max ∨ GradedSince i aid max w.history

theorem stable_noneAbove (i : ι) (aid : Uuid) (max : ℚ) :
    (boundsProtocol ι).Stable i (NoneAbove i aid max) := by
  rintro j l w w' - ⟨⟨e, he, hselect⟩, hbound⟩ hdb - - hw
  rw [NoneAbove, hw.2]
  refine ⟨⟨e, List.mem_cons_of_mem _ he, hselect⟩, ?_⟩
  intro g' hg' s' hs' hsid haid points hpoints
  rcases grade_from hw.1 hg' with ⟨g, hg, -, hgsid, hcontent⟩ | ⟨row, change, rfl, hgsid, hcontent⟩
  · obtain ⟨s, hs, hid⟩ := hdb.belong g hg
    have hwork := work_same hw.1 hs hs' (hsid.trans (hgsid.trans hid.symm))
    exact (hbound g hg s hs hid (hwork.symm.trans haid) points
      (points_of_content hcontent ▸ hpoints)).imp_right .inr
  · obtain ⟨⟨s, hs, hid⟩, -⟩ := run_saveGrade hw.1
    have hwork := work_same hw.1 hs hs' (hsid.trans (hgsid.trans hid.symm))
    by_cases hlow : points ≤ max
    · exact .inl hlow
    · exact .inr (.inl ⟨⟨⟨s, hs, hid, hwork.symm.trans haid⟩, points,
        points_of_content hcontent ▸ hpoints, not_le.mp hlow⟩, e, he, hselect⟩)

theorem selectMax_follows (i : ι) (sid : Uuid) (e : HostError) :
    (boundsProtocol ι).Follows i (SelectedMax i sid)
      (selectRow (.selectMax sid) (fun db => submissionMax db sid) e) (fun _ => True) := by
  have htrue : (boundsProtocol ι).Stable i (fun _ => True) := Protocol.stable_const _ i True
  have hs : ∀ row : Option ℚ, (boundsProtocol ι).Stable i
      (fun w => ∀ max ∈ row, SelectedMax i sid max w) := fun row j l w w' hj h hi hg hl hw max hm =>
    stable_selectedMax i sid max j l w w' hj (h max hm) hi hg hl hw
  refine Follows.bind (Q := fun row w => ∀ max ∈ row, SelectedMax i sid max w) ?_ fun row => ?_
  · refine Follows.executeReturning htrue hs fun w w' _ _ hw _ => ⟨trivial, fun max hm => ?_⟩
    obtain ⟨s, hfound, hm⟩ := Option.bind_eq_some_iff.mp hm
    obtain ⟨a, ha, hm⟩ := Option.bind_eq_some_iff.mp hm
    cases hm
    obtain ⟨hmem, hid⟩ := Table.mem_of_find? hfound
    obtain ⟨hamem, haid⟩ := Table.mem_of_find? ha
    have hstate : w'.state = w.state := (Except.ok.inj hw.1).symm
    rw [SelectedMax, hstate, hw.2]
    simp only [decide_eq_true_eq] at hid haid
    refine ⟨s, hmem, hid, ⟨_, List.mem_cons_self, rfl, by rw [hid]⟩, fun a' ha' haid' points hle => ?_⟩
    obtain rfl : a' = a := Table.eq_of_clash ha' hamem (by simp [Keyed.clash, haid, haid'])
    exact .inl hle
  · cases row with
    | none => exact Follows.fail (hs none)
    | some max => exact Follows.ret (hs (some max)) fun w h => h max rfl

theorem recordedSaveGrade_bounds (i : ι) (env : Env) (teacher : CurrentUser) (id : Uuid)
    (req : SaveGradeRequest) :
    (boundsProtocol ι).Follows i (fun _ _ => True) (recordedSaveGrade env teacher id req)
      (fun _ => True) := by
  have htrue : (boundsProtocol ι).Stable i (fun _ => True) := Protocol.stable_const _ i True
  refine Follows.bind (Follows.readOnly htrue (requireTeacher_readOnly _)) fun _ => ?_
  refine Follows.bind (Follows.readOnly htrue
    (readOnly_relabel (assertSubmissionVisible_readOnly _ _))) fun _ => ?_
  refine Follows.bind (selectMax_follows i id _) fun max => ?_
  have hmax := stable_selectedMax i id max
  refine Follows.require_bind hmax fun hpoints => ?_
  refine Follows.bind (Q := fun _ => SelectedMax i id max) ?_ fun previous => ?_
  · exact Follows.executeReturning hmax (fun _ => hmax) fun w w' _ h hw _ => ⟨trivial, h.step hw⟩
  · refine Follows.bind (Q := fun _ _ => True) ?_ fun _ => Follows.ret htrue fun _ _ => trivial
    refine Follows.execute hmax htrue fun w w' hi h _ hg => ⟨?_, trivial⟩
    obtain ⟨s, hs, hid, -, hbound⟩ := h
    intro s' hs' hid' a ha haid points hmem
    obtain rfl : s' = s := Table.eq_of_clash hs' hs (by simp [Keyed.clash, hid, hid'])
    obtain ⟨hlow, hhigh⟩ := hpoints points hmem
    refine ⟨hlow, ?_⟩
    rcases hbound a ha haid points hhigh with hle | hsince
    · exact hle
    · by_contra hover
      exact hg s' hs' hid' a ha haid points hmem (not_le.mp hover) hsince

attribute [local irreducible] Protocol.Follows in
theorem updateAssignment_bounds (i : ι) (env : Env) (teacher : CurrentUser) (id : Uuid)
    (req : UpdateAssignmentRequest) :
    (boundsProtocol ι).Follows i (fun _ _ => True) (updateAssignment env teacher id req)
      (fun _ => True) := by
  have htrue : (boundsProtocol ι).Stable i (fun _ => True) := Protocol.stable_const _ i True
  refine Follows.bind (Follows.readOnly htrue (requireTeacher_readOnly _)) fun _ => ?_
  refine Follows.bind (Follows.readOnly htrue (loadAssignmentView_readOnly _)) fun existing => ?_
  refine Follows.bind (Follows.readOnly htrue (requireTeacherAccess_readOnly _ _)) fun _ => ?_
  refine Follows.bind (Follows.readOnly htrue (hasSubmissions_readOnly _ _)) fun submitted => ?_
  refine Follows.bind (Follows.readOnly htrue (readOnly_ofExcept _)) fun _ => ?_
  refine Follows.bind (Follows.readOnly htrue (readOnly_require _ _)) fun _ => ?_
  refine Follows.bind (Follows.readOnly htrue (readOnly_require _ _)) fun _ => ?_
  refine Follows.bind (Q := fun highest w => (∀ points ∈ highest, points ≤ req.maxPoints) →
    NoneAbove i id req.maxPoints w) ?_ fun highest => ?_
  · refine Follows.executeReturning htrue (fun highest j l w w' hj h hi hg hl hw hle =>
      stable_noneAbove i id req.maxPoints j l w w' hj (h hle) hi hg hl hw)
      fun w w' _ _ hw _ => ⟨trivial, fun hle => ?_⟩
    have hstate : w'.state = w.state := (Except.ok.inj hw.1).symm
    rw [NoneAbove, hstate, hw.2]
    refine ⟨⟨_, List.mem_cons_self, rfl, rfl⟩, fun g hg s hs hid haid points hpoints => .inl ?_⟩
    exact gradedPoints_le hle hg hs hid haid hpoints
  refine Follows.require_bind (fun j l w w' hj h hi hg hl hw hle =>
    stable_noneAbove i id req.maxPoints j l w w' hj (h hle) hi hg hl hw) fun hle => ?_
  have hnone := stable_noneAbove i id req.maxPoints
  refine Follows.weaken (fun j l w w' hj h hi hg hl hw hle =>
    stable_noneAbove i id req.maxPoints j l w w' hj (h hle) hi hg hl hw) (fun w h => h hle) ?_
  refine Follows.bind (Follows.readOnly hnone (readOnly_query _)) fun classroomExists => ?_
  refine Follows.bind (Follows.readOnly hnone (readOnly_require _ _)) fun _ => ?_
  refine Follows.bind (Follows.readOnly hnone (requireTeacherAccess_readOnly _ _)) fun _ => ?_
  refine Follows.bind (Q := fun _ _ => True) ?_ fun _ =>
    Follows.readOnly htrue (loadAssignmentView_readOnly _)
  refine Follows.execute hnone htrue fun w w' _ h _ hg => ⟨?_, trivial⟩
  intro g hgm s hs hid haid points hpoints
  rcases h.2 g hgm s hs hid haid points hpoints with hle | hsince
  · exact hle
  · by_contra hover
    exact hg g hgm s hs hid haid points hpoints (not_le.mp hover) hsince

theorem handleGrading_bounds (jsonBytes : Json → Nat) (i : ι) (call : GradingCall) :
    (boundsProtocol ι).Follows i (fun _ _ => True) (handleGrading jsonBytes call)
      (fun _ => True) := by
  obtain ⟨env, user, request⟩ := call
  have htrue : (boundsProtocol ι).Stable i (fun _ => True) := Protocol.stable_const _ i True
  cases request with
  | updateAssignment id req =>
    exact Follows.bind (updateAssignment_bounds i env user id req) fun _ =>
      Follows.ret htrue fun _ _ => trivial
  | submission req =>
    cases req with
    | grade id req =>
      exact Follows.bind (recordedSaveGrade_bounds i env user id req) fun _ =>
        Follows.ret htrue fun _ _ => trivial
    | submit id req =>
      exact Follows.bind (Follows.of_writesOnly (fun l w hl => keepsBounds_of_student hl)
        (student_writes jsonBytes ⟨env, user, .submit id req⟩ rfl)) fun _ =>
          Follows.ret htrue fun _ _ => trivial
    | withdraw id =>
      exact Follows.bind (Follows.of_writesOnly (fun l w hl => keepsBounds_of_student hl)
        (student_writes jsonBytes ⟨env, user, .withdraw id⟩ rfl)) fun _ =>
          Follows.ret htrue fun _ _ => trivial

end Runs

variable {ι : Type} [DecidableEq ι]

/-- In every run in which neither side writes against a value that the other has
changed since, the points of every grade are within the maximum. -/
theorem grades_within_max (jsonBytes : Json → Nat) (db : Database) (hdb : GradesWithin db)
    (ms : List (Move ι GradingCall))
    (h : (Pool.idle db : GradingPool ι).Guarded (handleGrading jsonBytes) (fun _ => True)
      BoundsInTime ms) :
    WithinMax ((Pool.idle db : GradingPool ι).run (handleGrading jsonBytes) ms).world.state := by
  have hidle : (boundsProtocol ι).inv ⟨db, []⟩ := hdb
  exact (running_run (fun i call _ => handleGrading_bounds jsonBytes i call)
    (running_idle hidle) h).1.within

def lowerMax (t : Time) (max : ℚ) : GradingCall :=
  ⟨sampleEnv t, sampleTeacher, .updateAssignment 4
    ⟨3, "Essay", "", none, max, .obj .nil, .published⟩⟩

def gradeWith (t : Time) (points : ℚ) : GradingCall :=
  ⟨sampleEnv t, sampleTeacher, .submission (.grade 5 ⟨some points, none, "Good.", true⟩)⟩

def loweredWhileGrading : List (Move Nat GradingCall) :=
  .start 0 (gradeWith 20 7) :: List.replicate 3 (.advance 0) ++
    .start 1 (lowerMax 30 8) :: List.replicate 7 (.advance 1) ++ List.replicate 2 (.advance 0)

theorem grades_within_max_sample :
    let db := ((Pool.idle sampleWork : GradingPool Nat).run (handleGrading fun _ => 27)
      loweredWhileGrading).world.state
    (db.grades.rows.map fun g => g.points) = [some 7] ∧
      (db.assignments.rows.map fun a => a.maxPoints) = [8] ∧ WithinMax db :=
  ⟨by decide +kernel, by decide +kernel, grades_within_max (fun _ => 27) sampleWork
    ⟨by decide +kernel, by decide +kernel⟩ loweredWhileGrading (by decide +kernel)⟩

/-- The same with 9 points, which the new maximum does not allow. -/
theorem grade_above_lowered_max :
    ¬WithinMax ((Pool.idle sampleWork : GradingPool Nat).run (handleGrading fun _ => 27)
      (.start 0 (gradeWith 20 9) :: List.replicate 3 (.advance 0) ++
        .start 1 (lowerMax 30 8) :: List.replicate 7 (.advance 1) ++
          List.replicate 2 (.advance 0))).world.state := by
  decide +kernel

end Cinder.Submissions
