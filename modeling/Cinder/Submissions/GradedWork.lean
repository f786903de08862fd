import Cinder.Programs.RequestPool
import Cinder.Submissions.SubmissionHandlers
set_option autoImplicit false

/-!
Whether graded work stays graded. A student's request reads the status, and
writes later; `save_grade` may come in between.
-/

namespace Cinder.Submissions
open Cinder.Host Cinder.Storage Cinder.Programs Cinder.Programs.Program
open Cinder.Programs.Protocol

/-- The submission has status `graded` and its grade is published. -/
def GradedAndPublished (db : Database) (id : Uuid) : Prop :=
  (∃ s ∈ db.submissions.rows, s.id = id ∧ s.status = .graded) ∧
    ∃ g ∈ db.grades.rows, g.submissionId = id ∧ g.published = true

def SameSubmission (id : Uuid) (db db' : Database) : Prop :=
  submission? db' id = submission? db id ∧
    submissionVersions db' id = submissionVersions db id ∧ grade? db' id = grade? db id

instance (db : Database) (id : Uuid) : Decidable (GradedAndPublished db id) :=
  inferInstanceAs (Decidable (_ ∧ _))

instance (id : Uuid) (db db' : Database) : Decidable (SameSubmission id db db') :=
  inferInstanceAs (Decidable (_ ∧ _))

namespace SubmissionStatement

/-- A statement of `submit_work` or `withdraw_work`. -/
def ofStudent : SubmissionStatement → Bool
  | .saveGrade _ _ => false
  | _ => true

def checks (assignment student : Uuid) : SubmissionStatement → Bool
  | .selectStatus a s => a = assignment && s = student
  | _ => false

def publishes (id : Uuid) : SubmissionStatement → Bool
  | .saveGrade row _ => row.submissionId = id && row.published
  | _ => false

/-- The existing submission that the statement writes to. -/
def rewrites (s : SubmissionRow) : SubmissionStatement → Bool
  | .submitWork row _ => row.status = .resubmitted && s.assignmentId = row.assignmentId &&
      s.studentId = row.studentId
  | .withdrawWork assignment student _ => s.assignmentId = assignment && s.studentId = student
  | _ => false

end SubmissionStatement

/-- A request to `submit_work` or `withdraw_work`. -/
def SubmissionRequest.ofStudent : SubmissionRequest → Bool
  | .grade _ _ => false
  | _ => true

section Conditions
variable {ι : Type} (i : ι)

def CheckedBy (assignment student : Uuid)
    (history : List (Event ι Database SubmissionStatement)) : Prop :=
  ∃ e ∈ history, e.proc = i ∧ e.label.checks assignment student = true

def PublishedSince (s : SubmissionRow)
    (history : List (Event ι Database SubmissionStatement)) : Prop :=
  Afterwards (fun e => e.proc = i ∧ e.label.checks s.assignmentId s.studentId = true)
    (fun e => e.label.publishes s.id = true) history

/-- If the work that a student's request writes to has a published grade, the
grade was published before the request read the status. -/
def GradedInTime (l : SubmissionStatement) (w : World ι Database SubmissionStatement) : Prop :=
  ∀ s ∈ w.state.submissions.rows, l.rewrites s = true → GradedAndPublished w.state s.id →
    ¬PublishedSince i s w.history

def FreshSubmission (l : SubmissionStatement) (db : Database) : Prop :=
  match l with
  | .submitWork row _ => row.status = .submitted → ∀ s ∈ db.submissions.rows, s.id ≠ row.id
  | _ => True

instance [DecidableEq ι] (s : SubmissionRow)
    (history : List (Event ι Database SubmissionStatement)) :
    Decidable (PublishedSince i s history) :=
  inferInstanceAs (Decidable (Afterwards _ _ history))

instance [DecidableEq ι] (l : SubmissionStatement)
    (w : World ι Database SubmissionStatement) : Decidable (GradedInTime i l w) :=
  inferInstanceAs (Decidable (∀ s ∈ w.state.submissions.rows, _))

instance (l : SubmissionStatement) (db : Database) : Decidable (FreshSubmission l db) := by
  cases l <;> unfold FreshSubmission <;> infer_instance

end Conditions

/-- What the handlers see to: a version belongs to the submission it is stored
with, and existing work that is written to is not graded and published. -/
def WritesOpenWork (l : SubmissionStatement) (db : Database) : Prop :=
  match l with
  | .submitWork row version => version.submissionId = row.id ∧ (row.status = .submitted ∨
      row.status = .resubmitted ∧ ∃ s ∈ db.submissions.rows, s.id = row.id ∧
        s.assignmentId = row.assignmentId ∧ s.studentId = row.studentId ∧
        ¬GradedAndPublished db s.id)
  | .withdrawWork assignment student _ => ∀ s ∈ db.submissions.rows,
      s.assignmentId = assignment → s.studentId = student → ¬GradedAndPublished db s.id
  | _ => True

section Statements
variable {db db' : Database}

/-- A stored submission stays stored under its keys, and becomes graded only by
a published grade. -/
theorem submission_step {l : SubmissionStatement} {s : SubmissionRow} (h : l.run db = .ok db')
    (hl : WritesOpenWork l db) (hs : s ∈ db.submissions.rows) :
    ∃ s' ∈ db'.submissions.rows, s'.id = s.id ∧ s'.assignmentId = s.assignmentId ∧
      s'.studentId = s.studentId ∧
      (s'.status = .graded → s.status = .graded ∨ l.publishes s.id = true) := by
  have hupdate : ∀ {p : SubmissionRow → Bool} {f : SubmissionRow → SubmissionRow}
      {hf : Table.KeepsKeys f}, db'.submissions = db.submissions.update p f hf →
      (∀ s, (f s).id = s.id ∧ (f s).assignmentId = s.assignmentId ∧
        (f s).studentId = s.studentId) →
      (p s = true → (f s).status = .graded → l.publishes s.id = true) →
      ∃ s' ∈ db'.submissions.rows, s'.id = s.id ∧ s'.assignmentId = s.assignmentId ∧
        s'.studentId = s.studentId ∧
        (s'.status = .graded → s.status = .graded ∨ l.publishes s.id = true) := by
    intro p f hf hd hkeys hstatus
    refine ⟨if p s then f s else s, ?_, ?_⟩
    · rw [hd]
      exact Table.mem_update.mpr ⟨s, hs, rfl⟩
    · split
      · next hp =>
        obtain ⟨hid, ha, hst⟩ := hkeys s
        exact ⟨hid, ha, hst, fun hg => .inr (hstatus hp hg)⟩
      · exact ⟨rfl, rfl, rfl, .inl⟩
  cases l with
  | selectStatus assignment student =>
    cases h
    exact ⟨s, hs, rfl, rfl, rfl, .inl⟩
  | submitWork row version =>
    obtain ⟨hupsert, -⟩ := run_submitWork h
    have hrow : row.status ≠ .graded := by
      rcases hl.2 with hst | ⟨hst, -⟩ <;> simp [hst]
    rcases Table.upsert_cases hupsert with ⟨-, hd⟩ | ⟨-, hins⟩
    · exact hupdate hd (fun _ => ⟨rfl, rfl, rfl⟩) fun _ hg => absurd hg hrow
    · exact ⟨s, (Table.mem_insert hins).mpr (.inl hs), rfl, rfl, rfl, .inl⟩
  | withdrawWork assignment student now =>
    exact hupdate (run_withdrawWork h).1 (fun _ => ⟨rfl, rfl, rfl⟩) fun _ hg => by cases hg
  | saveGrade row change =>
    obtain ⟨-, -, -, -, hd, -⟩ := run_saveGrade h
    split at hd
    · next hpub =>
      refine hupdate hd (fun _ => ⟨rfl, rfl, rfl⟩) fun hp _ => ?_
      simp only [decide_eq_true_eq] at hp
      simp [SubmissionStatement.publishes, hp, hpub]
    · exact ⟨s, hd ▸ hs, rfl, rfl, rfl, .inl⟩

theorem submission?_of_mem {s : SubmissionRow} (hs : s ∈ db.submissions.rows) :
    submission? db s.id = some s :=
  Table.find?_of_mem hs (by simp) fun s' _ h => by simpa [Keyed.clash] using .inl (by simpa using h)

theorem submission?_update {s : SubmissionRow} (hs : s ∈ db.submissions.rows)
    {p : SubmissionRow → Bool} {f : SubmissionRow → SubmissionRow} {hf : Table.KeepsKeys f}
    (hp : p s = false)
    (hd : db'.submissions = db.submissions.update p f hf) :
    submission? db' s.id = submission? db s.id := by
  have hmem : s ∈ db'.submissions.rows := by
    rw [hd]
    exact Table.mem_update.mpr ⟨s, hs, by simp [hp]⟩
  rw [submission?_of_mem hs, submission?_of_mem hmem]

theorem submissionVersions_insert {version : SubmissionVersionRow} {sid : Uuid}
    (hne : version.submissionId ≠ sid)
    (h : db.submissionVersions.insert version = some db'.submissionVersions) :
    submissionVersions db' sid = submissionVersions db sid := by
  simp [submissionVersions, Table.rows_insert h, hne]

theorem grade?_unpublish {sid other : Uuid} {now : Time} (hne : sid ≠ other)
    (h : db'.grades = db.grades.update (fun g => g.submissionId = other) (unpublish now)
      (unpublish_keeps now)) : grade? db' sid = grade? db sid := by
  unfold grade?
  rw [h, Table.find?_update (f := unpublish now) fun _ => rfl]
  cases hg : db.grades.find? fun g => g.submissionId = sid with
  | none => rfl
  | some g =>
    have hsid : g.submissionId = sid := by simpa using (Table.mem_of_find? hg).2
    simp [hsid, hne]

/-- `submit_work` writes to the student's own submission only. -/
theorem submitWork_other {row : SubmissionRow} {version : SubmissionVersionRow}
    {s : SubmissionRow} (h : (SubmissionStatement.submitWork row version).run db = .ok db')
    (hl : WritesOpenWork (.submitWork row version) db)
    (hfresh : FreshSubmission (.submitWork row version) db) (hs : s ∈ db.submissions.rows)
    (hgraded : GradedAndPublished db s.id) : SameSubmission s.id db db' := by
  obtain ⟨hupsert, ⟨s', hs', hs'id⟩, hins, hgrades, -⟩ := run_submitWork h
  obtain ⟨hversion, hcase⟩ := hl
  rcases hcase with hst | ⟨hst, r, hr, hrid, hra, hrs, hopen⟩
  · have hne : s.id ≠ row.id := hfresh hst s hs
    have hgrades : db'.grades = db.grades := by simpa [hst] using hgrades
    refine ⟨?_, submissionVersions_insert (by rw [hversion]; exact Ne.symm hne) hins,
      by rw [grade?, hgrades, grade?]⟩
    rcases Table.upsert_cases hupsert with ⟨-, hd⟩ | ⟨-, hnew⟩
    · -- the new id would have to be that of a stored submission
      rw [hd] at hs'
      obtain ⟨r, hr, rfl⟩ := Table.mem_update.mp hs'
      refine absurd ?_ (hfresh hst r hr)
      rw [← hversion, ← hs'id]
      split <;> rfl
    · have hmem : s ∈ db'.submissions.rows := (Table.mem_insert hnew).mpr (.inl hs)
      rw [submission?_of_mem hs, submission?_of_mem hmem]
  · have hne : s.id ≠ row.id := fun he => hopen (by rw [hrid, ← he]; exact hgraded)
    rw [if_pos hst] at hgrades
    refine ⟨?_, submissionVersions_insert (by rw [hversion]; exact Ne.symm hne) hins,
      grade?_unpublish hne hgrades⟩
    rcases Table.upsert_cases hupsert with ⟨-, hd⟩ | ⟨hnone, -⟩
    · refine submission?_update hs ?_ hd
      by_contra hkey
      simp only [Bool.not_eq_false, Bool.and_eq_true, decide_eq_true_eq] at hkey
      have hsame : s = r := Table.eq_of_clash hs hr (by simp [Keyed.clash, hkey, hra, hrs])
      exact hne (hsame ▸ hrid)
    · have hkey := List.any_eq_false.mp hnone r hr
      simp [hra, hrs] at hkey

theorem sameSubmission_step {l : SubmissionStatement} {sid : Uuid} (h : l.run db = .ok db')
    (hstudent : l.ofStudent = true) (hl : WritesOpenWork l db) (hfresh : FreshSubmission l db)
    (hgraded : GradedAndPublished db sid) : SameSubmission sid db db' := by
  have hstored := hgraded.1
  obtain ⟨s, hs, rfl, hstatus⟩ := hstored
  cases l with
  | selectStatus assignment student =>
    cases h
    exact ⟨rfl, rfl, rfl⟩
  | withdrawWork assignment student now =>
    obtain ⟨hd, hv, hg, -⟩ := run_withdrawWork h
    refine ⟨submission?_update hs ?_ hd,
      by rw [submissionVersions, hv, submissionVersions], by rw [grade?, hg, grade?]⟩
    by_contra hp
    simp only [Bool.not_eq_false, Bool.and_eq_true, decide_eq_true_eq] at hp
    exact hl s hs hp.1.1 hp.1.2 hgraded
  | submitWork row version => exact submitWork_other h hl hfresh hs hgraded
  | saveGrade => cases hstudent

end Statements

section Runs
variable {ι : Type}

def gradingProtocol (ι : Type) : Protocol ι Database SubmissionStatement where
  inv _ := True
  guard i l w := FreshSubmission l w.state ∧ GradedInTime i l w
  promise _ l w := WritesOpenWork l w.state
  inv_step _ _ _ _ _ _ _ _ := trivial

/-- The request has read the status of the stored submission, which is graded
only if a grade was published since. -/
def Checked (i : ι) (assignment student sid : Uuid)
    (w : World ι Database SubmissionStatement) : Prop :=
  CheckedBy i assignment student w.history ∧
    ∃ s ∈ w.state.submissions.rows, s.id = sid ∧ s.assignmentId = assignment ∧
      s.studentId = student ∧ (s.status = .graded → PublishedSince i s w.history)

theorem stable_checked (i : ι) (assignment student sid : Uuid) :
    (gradingProtocol ι).Stable i (Checked i assignment student sid) := by
  rintro j l w w' - ⟨⟨e, he, hcheck⟩, s, hs, rfl, rfl, rfl, hsince⟩ - - hl hw
  obtain ⟨s', hs', hid, ha, hst, hgraded⟩ := submission_step hw.1 hl hs
  rw [Checked, hw.2]
  refine ⟨⟨e, List.mem_cons_of_mem _ he, hcheck⟩, s', hs', hid, ha, hst, fun hg => ?_⟩
  unfold PublishedSince
  rw [hid, ha, hst]
  rcases hgraded hg with hold | hpub
  · exact .inr (hsince hold)
  · exact .inl ⟨hpub, e, he, hcheck⟩

/-- A checked submission is not graded and published when its request writes in
time. -/
theorem Checked.open {i : ι} {assignment student sid : Uuid} {l : SubmissionStatement}
    {w : World ι Database SubmissionStatement} (h : Checked i assignment student sid w)
    (hg : GradedInTime i l w)
    (hl : ∀ s : SubmissionRow, s.assignmentId = assignment → s.studentId = student →
      l.rewrites s = true) :
    ∃ s ∈ w.state.submissions.rows, s.id = sid ∧ s.assignmentId = assignment ∧
      s.studentId = student ∧ ¬GradedAndPublished w.state s.id := by
  obtain ⟨-, s, hs, hid, ha, hst, hsince⟩ := h
  refine ⟨s, hs, hid, ha, hst, fun hgp => ?_⟩
  obtain ⟨⟨s', hs', hid', hstatus⟩, -⟩ := id hgp
  have hsame : s' = s := Table.eq_of_clash hs' hs (by simp [Keyed.clash, hid'])
  exact hg s hs (hl s ha hst) hgp (hsince (hsame ▸ hstatus))

/-- What the `SELECT` of the status tells its request. -/
def Found (i : ι) (assignment student : Uuid) (existing : Option (Uuid × SubmissionStatus))
    (w : World ι Database SubmissionStatement) : Prop :=
  ∀ x ∈ existing, x.2 ≠ .graded → Checked i assignment student x.1 w

theorem stable_found (i : ι) (assignment student : Uuid)
    (existing : Option (Uuid × SubmissionStatus)) :
    (gradingProtocol ι).Stable i (Found i assignment student existing) :=
  fun j l w w' hj h hi hg hl hw x hx hne =>
    stable_checked i assignment student x.1 j l w w' hj (h x hx hne) hi hg hl hw

theorem selectStatus_follows (i : ι) (assignment student : Uuid) :
    (gradingProtocol ι).Follows i (Found i assignment student)
      (executeReturning (.selectStatus assignment student)
        fun db => existingSubmission db assignment student) (fun _ => True) := by
  refine Follows.executeReturning (Protocol.stable_const _ i True)
    (stable_found i assignment student) fun w w' _ _ hw _ => ⟨trivial, fun x hx hne => ?_⟩
  obtain ⟨s, hs, rfl⟩ := Option.map_eq_some_iff.mp hx
  obtain ⟨hmem, hkey⟩ := Table.mem_of_find? hs
  simp only [Bool.and_eq_true, decide_eq_true_eq] at hkey
  obtain ⟨hrun, hhistory⟩ := hw
  have hstate : w'.state = w.state := (Except.ok.inj hrun).symm
  rw [Checked, hstate, hhistory]
  exact ⟨⟨_, List.mem_cons_self, rfl, by simp [SubmissionStatement.checks]⟩, s, hmem, rfl, hkey.1,
    hkey.2, fun hg => absurd hg hne⟩

/-- The transaction that ends `submit_work`, after the status was checked. -/
theorem submitWork_write_follows (i : ι) {assignment student sid : Uuid} {row : SubmissionRow}
    {version : SubmissionVersionRow} (hrow : row.id = sid ∧ row.assignmentId = assignment ∧
      row.studentId = student ∧ row.status = .resubmitted) (hversion : version.submissionId = sid) :
    (gradingProtocol ι).Follows i (fun _ _ => True) (execute (.submitWork row version))
      (Checked i assignment student sid) := by
  obtain ⟨rfl, rfl, rfl, hst⟩ := hrow
  refine Follows.execute (stable_checked i _ _ _) (Protocol.stable_const _ i True)
    fun w w' _ hc _ hg => ⟨⟨hversion, .inr ⟨hst, ?_⟩⟩, trivial⟩
  obtain ⟨s, hs, hid, ha, hstudent, hopen⟩ := hc.open hg.2 fun s ha hstudent => by
    simp [SubmissionStatement.rewrites, hst, ha, hstudent]
  exact ⟨s, hs, hid, ha, hstudent, hopen⟩

theorem submitWork_follows (i : ι) (env : Env) (jsonBytes : Json → Nat) (student : CurrentUser)
    (assignmentId : Uuid) (req : SubmitWorkRequest) :
    (gradingProtocol ι).Follows i (fun _ _ => True)
      (submitWork env jsonBytes student assignmentId req) (fun _ => True) := by
  have htrue : (gradingProtocol ι).Stable i (fun _ => True) := Protocol.stable_const _ i True
  refine Follows.bind (Follows.readOnly htrue (requireStudent_readOnly _)) fun _ => ?_
  refine Follows.bind (Follows.readOnly htrue (readOnly_ofExcept _)) fun _ => ?_
  refine Follows.bind (Follows.readOnly htrue (loadAssignment_readOnly _)) fun assignment => ?_
  refine Follows.bind (Follows.readOnly htrue (readOnly_require _ _)) fun _ => ?_
  refine Follows.bind (Follows.readOnly htrue (assertEnrolled_readOnly _ _)) fun _ => ?_
  refine Follows.bind (selectStatus_follows i assignmentId student.id) fun existing => ?_
  cases existing with
  | none =>
    have htarget : submissionTarget env none = .ret (env.uuid 0, .submitted) := rfl
    rw [htarget, ret_bind]
    refine Follows.weaken (stable_found i _ _ _) (fun _ _ => trivial) ?_
    refine Follows.bind (Follows.readOnly htrue (readOnly_query _)) fun next => ?_
    refine Follows.bind (Q := fun _ _ => True) ?_ fun _ =>
      Follows.readOnly htrue (loadSubmission_readOnly _ _)
    exact Follows.execute htrue htrue fun w w' _ _ _ _ => ⟨⟨rfl, .inl rfl⟩, trivial⟩
  | some x =>
    obtain ⟨sid, status⟩ := x
    by_cases hst : status = .graded
    · subst hst
      exact Follows.fail (stable_found i _ _ _)
    · have htarget : submissionTarget env (some (sid, status)) = .ret (sid, .resubmitted) := by
        simp [submissionTarget, requireSubmissionEditable, require, hst]
      rw [htarget, ret_bind]
      refine Follows.weaken (stable_found i _ _ _) (fun w h => h _ rfl hst) ?_
      refine Follows.bind (Follows.readOnly (stable_checked i _ _ _) (readOnly_query _))
        fun next => ?_
      refine Follows.bind (Q := fun _ _ => True) ?_ fun _ =>
        Follows.readOnly htrue (loadSubmission_readOnly _ _)
      exact submitWork_write_follows i ⟨rfl, rfl, rfl, rfl⟩ rfl

theorem withdrawWork_follows (i : ι) (env : Env) (student : CurrentUser) (assignmentId : Uuid) :
    (gradingProtocol ι).Follows i (fun _ _ => True) (withdrawWork env student assignmentId)
      (fun _ => True) := by
  have htrue : (gradingProtocol ι).Stable i (fun _ => True) := Protocol.stable_const _ i True
  refine Follows.bind (Follows.readOnly htrue (requireStudent_readOnly _)) fun _ => ?_
  refine Follows.bind (selectStatus_follows i assignmentId student.id) fun existing => ?_
  cases existing with
  | none => exact Follows.fail (stable_found i _ _ _)
  | some x =>
    obtain ⟨sid, status⟩ := x
    by_cases hst : status = .graded
    · subst hst
      exact Follows.fail (stable_found i _ _ _)
    · have heditable : requireSubmissionEditable status = .ret () := by
        simp [requireSubmissionEditable, require, hst]
      dsimp only
      rw [heditable, ret_bind]
      refine Follows.weaken (stable_found i _ _ _) (fun w h => h _ rfl hst) ?_
      refine Follows.bind (Q := fun _ _ => True) ?_ fun _ =>
        Follows.readOnly htrue (readOnly_require _ _)
      refine Follows.executeReturning (stable_checked i _ _ _) (fun _ => htrue)
        fun w w' _ hc _ hg => ⟨fun s hs ha hstudent => ?_, trivial⟩
      obtain ⟨s', hs', -, ha', hstudent', hopen⟩ := hc.open hg.2 fun s ha hstudent => by
        simp [SubmissionStatement.rewrites, ha, hstudent]
      have hsame : s = s' :=
        Table.eq_of_clash hs hs' (by simp [Keyed.clash, ha, ha', hstudent, hstudent'])
      exact hsame ▸ hopen

theorem submitWork_writes (env : Env) (jsonBytes : Json → Nat) (student : CurrentUser)
    (assignmentId : Uuid) (req : SubmitWorkRequest) :
    (submitWork env jsonBytes student assignmentId req).WritesOnly fun l => l.ofStudent = true := by
  refine (requireStudent_readOnly _).writesOnly.bind fun _ => ?_
  refine (readOnly_ofExcept _).writesOnly.bind fun _ => ?_
  refine (loadAssignment_readOnly _).writesOnly.bind fun assignment => ?_
  refine (readOnly_require _ _).writesOnly.bind fun _ => ?_
  refine (assertEnrolled_readOnly _ _).writesOnly.bind fun _ => ?_
  refine WritesOnly.bind ⟨rfl, fun _ => trivial⟩ fun existing => ?_
  refine (submissionTarget_readOnly env existing).writesOnly.bind fun target => ?_
  refine (readOnly_query _).writesOnly.bind fun next => ?_
  refine WritesOnly.bind (writesOnly_execute rfl) fun _ => ?_
  exact (loadSubmission_readOnly _ _).writesOnly

theorem withdrawWork_writes (env : Env) (student : CurrentUser) (assignmentId : Uuid) :
    (withdrawWork env student assignmentId).WritesOnly fun l => l.ofStudent = true := by
  refine (requireStudent_readOnly _).writesOnly.bind fun _ => ?_
  refine WritesOnly.bind ⟨rfl, fun _ => trivial⟩ fun existing => ?_
  cases existing with
  | none => trivial
  | some x =>
    refine (readOnly_require _ _).writesOnly.bind fun _ => ?_
    exact WritesOnly.bind ⟨rfl, fun _ => trivial⟩ fun _ => (readOnly_require _ _).writesOnly

theorem saveGrade_writes (env : Env) (teacher : CurrentUser) (submissionId : Uuid)
    (req : SaveGradeRequest) :
    (saveGrade env teacher submissionId req).WritesOnly fun l => l.ofStudent = false := by
  refine (requireTeacher_readOnly _).writesOnly.bind fun _ => ?_
  refine (assertSubmissionVisible_readOnly _ _).writesOnly.bind fun _ => ?_
  refine (readOnly_queryRow _ _).writesOnly.bind fun max => ?_
  refine (readOnly_require _ _).writesOnly.bind fun _ => ?_
  refine (readOnly_query _).writesOnly.bind fun previous => ?_
  exact WritesOnly.bind (writesOnly_execute rfl) fun _ => trivial

theorem handle_follows (jsonBytes : Json → Nat) (i : ι) (call : SubmissionCall) :
    (gradingProtocol ι).Follows i (fun _ _ => True) (handle jsonBytes call) (fun _ => True) := by
  obtain ⟨env, user, request⟩ := call
  have hreply : ∀ {α : Type} {reply : α → SubmissionReply} {p : SubmissionProgram α},
      (gradingProtocol ι).Follows i (fun _ _ => True) p (fun _ => True) →
      (gradingProtocol ι).Follows i (fun _ _ => True) (replying reply p) (fun _ => True) :=
    fun hp => Follows.bind hp fun _ =>
      Follows.ret (Protocol.stable_const _ i True) fun _ _ => trivial
  cases request with
  | submit id req => exact hreply (submitWork_follows i env jsonBytes user id req)
  | withdraw id => exact hreply (withdrawWork_follows i env user id)
  | grade id req =>
    refine hreply (Follows.of_writesOnly (fun l w hl => ?_) (saveGrade_writes env user id req))
    cases l with
    | saveGrade => trivial
    | selectStatus | submitWork | withdrawWork => cases hl

theorem handle_writes (jsonBytes : Json → Nat) (call : SubmissionCall) :
    (handle jsonBytes call).WritesOnly fun l => l.ofStudent = call.request.ofStudent := by
  obtain ⟨env, user, request⟩ := call
  cases request with
  | submit id req => exact (submitWork_writes env jsonBytes user id req).bind fun _ => trivial
  | withdraw id => exact (withdrawWork_writes env user id).bind fun _ => trivial
  | grade id req => exact (saveGrade_writes env user id req).bind fun _ => trivial

end Runs

abbrev SubmissionPool (ι : Type) :=
  Pool ι SubmissionCall Database SubmissionStatement HostError SubmissionReply

/-- The move lets a `submit_work` or a `withdraw_work` request take a step. -/
def ByStudent {ι : Type} (c : SubmissionPool ι) : Move ι SubmissionCall → Prop
  | .start _ _ => False
  | .advance i => ∃ x ∈ c.procs i, x.1.request.ofStudent = true

def GradedWorkStays {ι : Type} [DecidableEq ι] (jsonBytes : Json → Nat) (c : SubmissionPool ι)
    (m : Move ι SubmissionCall) : Prop :=
  ∀ sid, GradedAndPublished c.world.state sid →
    SameSubmission sid c.world.state (c.move (handle jsonBytes) m).world.state

variable {ι : Type} [DecidableEq ι]

/-- In a run whose writes come in time, no step of a student changes graded and
published work. -/
theorem graded_work_stays_graded (jsonBytes : Json → Nat) (db : Database)
    (ms : List (Move ι SubmissionCall)) (m : Move ι SubmissionCall)
    (h : (Pool.idle db : SubmissionPool ι).Guarded (handle jsonBytes) (fun _ => True)
      (fun i l w => FreshSubmission l w.state ∧ GradedInTime i l w) (ms ++ [m]))
    (hm : ByStudent ((Pool.idle db : SubmissionPool ι).run (handle jsonBytes) ms) m) :
    GradedWorkStays jsonBytes ((Pool.idle db : SubmissionPool ι).run (handle jsonBytes) ms) m := by
  obtain ⟨hbefore, hlast, -⟩ := (Pool.guarded_append _ _ _ _ _ _).mp h
  have hidle : (gradingProtocol ι).inv ⟨db, []⟩ := trivial
  have hrun := running_run (fun i call _ => handle_follows jsonBytes i call) (running_idle hidle)
    hbefore
  have hwrites := Pool.writesOnly_run (handle_writes jsonBytes)
    (Pool.idle db : SubmissionPool ι) (fun i r p hp => by cases hp) ms
  generalize (Pool.idle db : SubmissionPool ι).run (handle jsonBytes) ms = c at *
  intro sid hgraded
  rcases c.move_world (handle jsonBytes) m with hw | ⟨i, call, l, k, rfl, hp, hw⟩
  · rw [hw]
    exact ⟨rfl, rfl, rfl⟩
  · obtain ⟨P, hP, hf⟩ := hrun.2 i call _ hp
    obtain ⟨hfresh, hintime⟩ := hlast call l k _ hp hw
    obtain ⟨hopen, -⟩ := hf.2 _ _ trivial hP hw ⟨hfresh, hintime⟩
    obtain ⟨x, hx, hstudent⟩ := hm
    rw [hp] at hx
    cases hx
    exact sameSubmission_step hw.1 ((hwrites i call _ hp).1.trans hstudent) hopen hfresh hgraded

def gradedRun : List (Move Nat SubmissionCall) :=
  .start 0 ⟨sampleEnv 20, sampleTeacher, .grade 5 ⟨some 8, none, "Good.", true⟩⟩ ::
      List.replicate 5 (.advance 0) ++
    [.start 1 ⟨sampleEnv 30, sampleStudent, .withdraw 4⟩]

theorem graded_work_stays_graded_sample :
    let c := (Pool.idle sampleWork : SubmissionPool Nat).run (handle fun _ => 27) gradedRun
    GradedAndPublished c.world.state 5 ∧ GradedWorkStays (fun _ => 27) c (.advance 1) :=
  ⟨by decide +kernel, graded_work_stays_graded (fun _ => 27) sampleWork gradedRun (.advance 1)
    (by decide +kernel) ⟨_, rfl, rfl⟩⟩

/-- The student's request reads the status, and the teacher publishes a grade. -/
def lateSubmitRun : List (Move Nat SubmissionCall) :=
  .start 0 ⟨sampleEnv 20, sampleStudent, .submit 4 ⟨sampleDocument, "A second answer.", none⟩⟩ ::
      List.replicate 4 (.advance 0) ++
    .start 1 ⟨sampleEnv 30, sampleTeacher, .grade 5 ⟨some 8, none, "Good.", true⟩⟩ ::
      List.replicate 5 (.advance 1)

/-- Then the request goes on to add a version and to unpublish the grade. -/
theorem late_submit_takes_back_graded_work :
    let c := (Pool.idle sampleWork : SubmissionPool Nat).run (handle fun _ => 27) lateSubmitRun
    ByStudent c (.advance 0) ∧ GradedAndPublished c.world.state 5 ∧
      ¬GradedWorkStays (fun _ => 27) c (.advance 0) := by
  have hgraded : GradedAndPublished ((Pool.idle sampleWork : SubmissionPool Nat).run
      (handle fun _ => 27) lateSubmitRun).world.state 5 := by decide +kernel
  refine ⟨⟨_, rfl, rfl⟩, hgraded, fun h => ?_⟩
  have hsame := h 5 hgraded
  revert hsame
  decide +kernel

end Cinder.Submissions
