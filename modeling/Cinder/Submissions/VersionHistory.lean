import Cinder.Programs.RequestPool
import Cinder.Storage.RowHistories
import Cinder.Submissions.GradedWork
set_option autoImplicit false

/-!
The versions of handed-in work. The id and the number of a version are chosen
before the transaction that stores it; the constraints of the tables and the
foreign key of the version refuse what was chosen too early.
-/

namespace Cinder.Submissions
open Cinder.Host Cinder.Storage Cinder.Programs Cinder.Programs.Program
open Cinder.Programs.Protocol

structure VersionHistory (db : Database) : Prop where
  numbered : ∀ s ∈ db.submissions.rows,
    Numbered (fun v => v.versionNumber) (submissionVersions db s.id)
  current : ∀ s ∈ db.submissions.rows, ∃ v ∈ submissionVersions db s.id,
    s.currentVersionId = some v.id ∧ v.versionNumber = (submissionVersions db s.id).length
  stored : ∀ v ∈ db.submissionVersions.rows, ∃ s ∈ db.submissions.rows, s.id = v.submissionId
  single : ∀ s ∈ db.submissions.rows, ∀ s' ∈ db.submissions.rows,
    s.assignmentId = s'.assignmentId → s.studentId = s'.studentId → s = s'

def VersionsKept (db db' : Database) : Prop :=
  db.submissionVersions.rows <+: db'.submissionVersions.rows

/-- What `submit_work` sees to: the version is the current one of its
submission, its number is at most the next, and work that is not new is stored. -/
def AddsVersion (l : SubmissionStatement) (db : Database) : Prop :=
  match l with
  | .submitWork row version => version.submissionId = row.id ∧
      row.currentVersionId = some version.id ∧ 1 ≤ version.versionNumber ∧
      version.versionNumber ≤ (submissionVersions db row.id).length+1 ∧
      (row.status = .submitted ∨ ∃ s ∈ db.submissions.rows, s.id = row.id ∧
        s.assignmentId = row.assignmentId ∧ s.studentId = row.studentId)
  | _ => True

def SubmissionStatement.added : SubmissionStatement → List SubmissionVersionRow
  | .submitWork _ version => [version]
  | _ => []

section Statements
variable {db db' : Database}

theorem versions_added {l : SubmissionStatement} (h : l.run db = .ok db') :
    db'.submissionVersions.rows = db.submissionVersions.rows ++ l.added := by
  cases l with
  | selectStatus assignment student =>
    cases h
    simp [SubmissionStatement.added]
  | submitWork row version => exact Table.rows_insert (run_submitWork h).2.2.1
  | withdrawWork assignment student now =>
    simp [SubmissionStatement.added, (run_withdrawWork h).2.1]
  | saveGrade row change =>
    obtain ⟨-, -, -, -, -, hv⟩ := run_saveGrade h
    simp [SubmissionStatement.added, hv]

theorem submissionVersions_added {l : SubmissionStatement} (id : Uuid) (h : l.run db = .ok db') :
    submissionVersions db' id =
      submissionVersions db id ++ l.added.filter fun v => v.submissionId = id := by
  rw [submissionVersions, versions_added h, List.filter_append, submissionVersions]

theorem single_submission (s : SubmissionRow) (hs : s ∈ db.submissions.rows) (s' : SubmissionRow)
    (hs' : s' ∈ db.submissions.rows) (ha : s.assignmentId = s'.assignmentId)
    (hst : s.studentId = s'.studentId) : s = s' :=
  Table.eq_of_clash hs hs' (by simp [Keyed.clash, ha, hst])

theorem VersionHistory.of_same (hdb : VersionHistory db)
    (hversions : db'.submissionVersions = db.submissionVersions)
    (hkept : ∀ s ∈ db.submissions.rows, ∃ s' ∈ db'.submissions.rows, s'.id = s.id)
    (hsame : ∀ s' ∈ db'.submissions.rows, ∃ s ∈ db.submissions.rows,
      s'.id = s.id ∧ s'.currentVersionId = s.currentVersionId) : VersionHistory db' := by
  have hof : ∀ id, submissionVersions db' id = submissionVersions db id := fun id => by
    rw [submissionVersions, hversions, submissionVersions]
  refine ⟨fun s' hs' => ?_, fun s' hs' => ?_, fun v hv => ?_, single_submission⟩
  · obtain ⟨s, hs, hid, -⟩ := hsame s' hs'
    rw [hof, hid]
    exact hdb.numbered s hs
  · obtain ⟨s, hs, hid, hcurrent⟩ := hsame s' hs'
    rw [hof, hid, hcurrent]
    exact hdb.current s hs
  · obtain ⟨s, hs, hid⟩ := hdb.stored v (hversions ▸ hv)
    obtain ⟨s', hs', hid'⟩ := hkept s hs
    exact ⟨s', hs', hid'.trans hid⟩

theorem next_version {s : SubmissionRow} {version : SubmissionVersionRow}
    (hdb : VersionHistory db) (hs : s ∈ db.submissions.rows)
    (hins : db.submissionVersions.insert version = some db'.submissionVersions)
    (hid : version.submissionId = s.id) (hlow : 1 ≤ version.versionNumber)
    (hhigh : version.versionNumber ≤ (submissionVersions db s.id).length+1) :
    version.versionNumber = (submissionVersions db s.id).length+1 := by
  by_contra hne
  -- a version with an earlier number is stored
  obtain ⟨v, hv, hnumber⟩ := (hdb.numbered s hs).exists_iff.mpr
    (show 1 ≤ version.versionNumber ∧ _ from ⟨hlow, by omega⟩)
  obtain ⟨hmem, hsid⟩ := List.mem_filter.mp hv
  have hclash := Table.clash_insert hins hmem
  simp_all [Keyed.clash]

/-- The submitted work is stored already and takes the place of what is stored, or it is new. -/
theorem submitWork_cases {row : SubmissionRow} {version : SubmissionVersionRow}
    (h : (SubmissionStatement.submitWork row version).run db = .ok db')
    (hl : AddsVersion (.submitWork row version) db)
    (hfresh : FreshSubmission (.submitWork row version) db) :
    (∃ s ∈ db.submissions.rows, s.id = row.id ∧ ∀ r ∈ db'.submissions.rows,
      (r.id = row.id ∧ r.currentVersionId = row.currentVersionId) ∨
        r.id ≠ row.id ∧ r ∈ db.submissions.rows) ∨
      db.submissions.insert row = some db'.submissions := by
  obtain ⟨hupsert, ⟨s', hs', hs'id⟩, -, -⟩ := run_submitWork h
  obtain ⟨hversion, -, -, -, hcase⟩ := hl
  rcases Table.upsert_cases hupsert with ⟨-, hd⟩ | ⟨-, hnew⟩
  · have hstored : ∃ s ∈ db.submissions.rows, s.id = row.id ∧
        s.assignmentId = row.assignmentId ∧ s.studentId = row.studentId := by
      rcases hcase with hst | hstored
      · rw [hd] at hs'
        obtain ⟨r, hr, rfl⟩ := Table.mem_update.mp hs'
        refine absurd ?_ (hfresh hst r hr)
        rw [← hversion, ← hs'id]
        split <;> rfl
      · exact hstored
    obtain ⟨s, hs, hid, ha, hstudent⟩ := hstored
    refine .inl ⟨s, hs, hid, fun r hr => ?_⟩
    rw [hd] at hr
    obtain ⟨r₀, hr₀, rfl⟩ := Table.mem_update.mp hr
    split
    · next hkey =>
      simp only [Bool.and_eq_true, decide_eq_true_eq] at hkey
      obtain rfl : r₀ = s :=
        Table.eq_of_clash hr₀ hs (by simp [Keyed.clash, hkey, ha, hstudent])
      exact .inl ⟨hid, rfl⟩
    · next hkey =>
      refine .inr ⟨fun he => hkey ?_, hr₀⟩
      obtain rfl : r₀ = s := Table.eq_of_clash hr₀ hs (by simp [Keyed.clash, he, hid])
      simp [ha, hstudent]
  · exact .inr hnew

theorem ne_of_insert_submission {row r : SubmissionRow}
    (hnew : db.submissions.insert row = some db'.submissions) (hr : r ∈ db.submissions.rows) :
    r.id ≠ row.id := by
  intro he
  have hclash := Table.clash_insert hnew hr
  simp [Keyed.clash, he] at hclash

theorem submitWork_rows {row : SubmissionRow} {version : SubmissionVersionRow}
    (h : (SubmissionStatement.submitWork row version).run db = .ok db')
    (hl : AddsVersion (.submitWork row version) db)
    (hfresh : FreshSubmission (.submitWork row version) db) :
    ∀ r ∈ db'.submissions.rows, (r.id = row.id ∧ r.currentVersionId = row.currentVersionId) ∨
      r.id ≠ row.id ∧ r ∈ db.submissions.rows := by
  rcases submitWork_cases h hl hfresh with ⟨s, -, -, hcases⟩ | hnew
  · exact hcases
  · intro r hr
    rcases (Table.mem_insert hnew).mp hr with hold | rfl
    · exact .inr ⟨ne_of_insert_submission hnew hold, hold⟩
    · exact .inl ⟨rfl, rfl⟩

theorem submitWork_next {row : SubmissionRow} {version : SubmissionVersionRow}
    (hdb : VersionHistory db) (h : (SubmissionStatement.submitWork row version).run db = .ok db')
    (hl : AddsVersion (.submitWork row version) db)
    (hfresh : FreshSubmission (.submitWork row version) db) :
    Numbered (fun v => v.versionNumber) (submissionVersions db row.id) ∧
      version.versionNumber = (submissionVersions db row.id).length+1 := by
  obtain ⟨-, -, hins, -⟩ := run_submitWork h
  obtain ⟨hversion, -, hlow, hhigh, -⟩ := id hl
  rcases submitWork_cases h hl hfresh with ⟨s, hs, hid, -⟩ | hnew
  · rw [← hid] at hhigh hversion ⊢
    exact ⟨hdb.numbered s hs, next_version hdb hs hins hversion hlow hhigh⟩
  · have hnone : submissionVersions db row.id = [] := by
      refine List.filter_eq_nil_iff.mpr fun v hv hvid => ?_
      obtain ⟨r, hr, hrid⟩ := hdb.stored v hv
      exact ne_of_insert_submission hnew hr (hrid.trans (of_decide_eq_true hvid))
    rw [hnone] at hhigh ⊢
    refine ⟨by simp, ?_⟩
    simp only [List.length_nil] at hhigh ⊢
    omega

theorem versionHistory_submit {row : SubmissionRow} {version : SubmissionVersionRow}
    (hdb : VersionHistory db) (h : (SubmissionStatement.submitWork row version).run db = .ok db')
    (hl : AddsVersion (.submitWork row version) db)
    (hfresh : FreshSubmission (.submitWork row version) db) : VersionHistory db' := by
  have hcases := submitWork_rows h hl hfresh
  obtain ⟨hnumbered, hnext⟩ := submitWork_next hdb h hl hfresh
  obtain ⟨-, ⟨s', hs', hs'id⟩, -, -⟩ := run_submitWork h
  obtain ⟨hversion, hcurrent, -, -, -⟩ := hl
  have hother : ∀ id, id ≠ row.id → submissionVersions db' id = submissionVersions db id := by
    intro id hne
    rw [submissionVersions_added id h]
    simp [SubmissionStatement.added, hversion, Ne.symm hne]
  have hown : submissionVersions db' row.id = submissionVersions db row.id ++ [version] := by
    rw [submissionVersions_added row.id h]
    simp [SubmissionStatement.added, hversion]
  refine ⟨fun r hr => ?_, fun r hr => ?_, fun v hv => ?_, single_submission⟩
  · rcases hcases r hr with ⟨hid, -⟩ | ⟨hne, hold⟩
    · rw [hid, hown]
      exact numbered_concat.mpr ⟨hnumbered, hnext⟩
    · rw [hother _ hne]
      exact hdb.numbered r hold
  · rcases hcases r hr with ⟨hid, hsame⟩ | ⟨hne, hold⟩
    · rw [hid, hsame, hown]
      exact ⟨version, by simp, hcurrent, by simpa using hnext⟩
    · rw [hother _ hne]
      exact hdb.current r hold
  · rw [versions_added h] at hv
    rcases List.mem_append.mp hv with hv | hv
    · obtain ⟨r, hr, hid⟩ := hdb.stored v hv
      obtain ⟨r', hr', hid', -⟩ := submission_kept h hr
      exact ⟨r', hr', hid'.trans hid⟩
    · rw [List.mem_singleton.mp hv]
      exact ⟨s', hs', hs'id⟩

theorem versionHistory_step {l : SubmissionStatement} (hdb : VersionHistory db)
    (hl : AddsVersion l db) (hfresh : FreshSubmission l db) (h : l.run db = .ok db') :
    VersionHistory db' := by
  have hkept : ∀ s ∈ db.submissions.rows, ∃ s' ∈ db'.submissions.rows, s'.id = s.id :=
    fun s hs => by
      obtain ⟨s', hs', hid, -⟩ := submission_kept h hs
      exact ⟨s', hs', hid⟩
  cases l with
  | selectStatus assignment student =>
    cases h
    exact hdb
  | submitWork row version => exact versionHistory_submit hdb h hl hfresh
  | withdrawWork assignment student now =>
    obtain ⟨hd, hv, -⟩ := run_withdrawWork h
    refine hdb.of_same hv hkept fun s' hs' => ?_
    rw [hd] at hs'
    obtain ⟨s, hs, rfl⟩ := Table.mem_update.mp hs'
    exact ⟨s, hs, by split <;> exact ⟨rfl, rfl⟩⟩
  | saveGrade row change =>
    obtain ⟨-, -, -, -, hd, hv⟩ := run_saveGrade h
    refine hdb.of_same hv hkept fun s' hs' => ?_
    rw [hd] at hs'
    split at hs'
    · obtain ⟨s, hs, rfl⟩ := Table.mem_update.mp hs'
      exact ⟨s, hs, by split <;> exact ⟨rfl, rfl⟩⟩
    · exact ⟨s', hs', rfl, rfl⟩

end Statements

section Runs
variable {ι : Type}

def versionProtocol (ι : Type) : Protocol ι Database SubmissionStatement where
  inv w := VersionHistory w.state
  guard _ l w := FreshSubmission l w.state
  promise _ l w := AddsVersion l w.state
  inv_step _ _ _ _ hdb hg hl hw := versionHistory_step hdb hl hg hw.1

def StoredWork (assignment student sid : Uuid) (w : World ι Database SubmissionStatement) : Prop :=
  ∃ s ∈ w.state.submissions.rows, s.id = sid ∧ s.assignmentId = assignment ∧ s.studentId = student

theorem stable_storedWork (i : ι) (assignment student sid : Uuid) :
    (versionProtocol ι).Stable i (StoredWork assignment student sid) := by
  rintro j l w w' - ⟨s, hs, rfl, rfl, rfl⟩ - - - hw
  obtain ⟨s', hs', hid, ha, hstudent⟩ := submission_kept hw.1 hs
  exact ⟨s', hs', hid, ha, hstudent⟩

def AtMostNext (sid : Uuid) (number : Int) (w : World ι Database SubmissionStatement) : Prop :=
  1 ≤ number ∧ number ≤ (submissionVersions w.state sid).length+1

theorem stable_atMostNext (i : ι) (sid : Uuid) (number : Int) :
    (versionProtocol ι).Stable i (AtMostNext sid number) := by
  rintro j l w w' - ⟨hlow, hhigh⟩ - - - hw
  refine ⟨hlow, ?_⟩
  rw [submissionVersions_added sid hw.1, List.length_append]
  omega

theorem nextVersion_atMostNext {sid : Uuid} {w : World ι Database SubmissionStatement}
    (hdb : VersionHistory w.state) : AtMostNext sid (nextVersion w.state sid) w := by
  have hnext : nextVersion w.state sid = (submissionVersions w.state sid).length+1 := by
    by_cases hs : ∃ s ∈ w.state.submissions.rows, s.id = sid
    · obtain ⟨s, hs, rfl⟩ := hs
      rw [nextVersion, (hdb.numbered s hs).max?]
    · -- no version of work that is not stored is stored
      have hnone : submissionVersions w.state sid = [] := by
        refine List.filter_eq_nil_iff.mpr fun v hv hvid => hs ?_
        obtain ⟨s, hs, hid⟩ := hdb.stored v hv
        exact ⟨s, hs, hid.trans (by simpa using hvid)⟩
      simp [nextVersion, hnone]
  rw [AtMostNext, hnext]
  omega

/-- The submission that `submit_work` writes to is new or stored. -/
def TargetWork (assignment student : Uuid) (target : Uuid × SubmissionStatus)
    (w : World ι Database SubmissionStatement) : Prop :=
  target.2 = .submitted ∨ StoredWork assignment student target.1 w

theorem stable_targetWork (i : ι) (assignment student : Uuid) (target : Uuid × SubmissionStatus) :
    (versionProtocol ι).Stable i (TargetWork assignment student target) :=
  fun j l w w' hj h hi hg hl hw =>
    h.imp_right fun h => stable_storedWork i assignment student target.1 j l w w' hj h hi hg hl hw

theorem submissionTarget_follows (i : ι) (env : Env) (assignment student : Uuid)
    (existing : Option (Uuid × SubmissionStatus)) :
    (versionProtocol ι).Follows i (TargetWork assignment student) (submissionTarget env existing)
      (fun w => ∀ x ∈ existing, StoredWork assignment student x.1 w) := by
  cases existing with
  | none =>
    exact Follows.ret (fun _ _ _ _ _ _ _ _ _ _ => by simp) fun _ _ => .inl rfl
  | some x =>
    have hs : (versionProtocol ι).Stable i
        fun w => ∀ y ∈ some x, StoredWork assignment student y.1 w :=
      fun j l w w' hj h hi hg hl hw y hy =>
        stable_storedWork i assignment student y.1 j l w w' hj (h y hy) hi hg hl hw
    exact Follows.bind (Follows.readOnly hs (readOnly_require _ _)) fun _ =>
      Follows.ret hs fun w h => .inr (h x rfl)

theorem submitWork_versions (i : ι) (env : Env) (jsonBytes : Json → Nat) (student : CurrentUser)
    (assignmentId : Uuid) (req : SubmitWorkRequest) :
    (versionProtocol ι).Follows i (fun _ _ => True)
      (submitWork env jsonBytes student assignmentId req) (fun _ => True) := by
  have htrue : (versionProtocol ι).Stable i (fun _ => True) := Protocol.stable_const _ i True
  refine Follows.bind (Follows.readOnly htrue (requireStudent_readOnly _)) fun _ => ?_
  refine Follows.bind (Follows.readOnly htrue (readOnly_ofExcept _)) fun _ => ?_
  refine Follows.bind (Follows.readOnly htrue (loadAssignment_readOnly _)) fun assignment => ?_
  refine Follows.bind (Follows.readOnly htrue (readOnly_require _ _)) fun _ => ?_
  refine Follows.bind (Follows.readOnly htrue (assertEnrolled_readOnly _ _)) fun _ => ?_
  refine Follows.bind (Q := fun existing w =>
    ∀ x ∈ existing, StoredWork assignmentId student.id x.1 w) ?_ fun existing => ?_
  · refine Follows.executeReturning htrue (fun existing j l w w' hj h hi hg hl hw x hx =>
      stable_storedWork i _ _ x.1 j l w w' hj (h x hx) hi hg hl hw) fun w w' _ _ hw _ =>
        ⟨trivial, fun x hx => ?_⟩
    obtain ⟨s, hs, rfl⟩ := Option.map_eq_some_iff.mp hx
    obtain ⟨hmem, hkey⟩ := Table.mem_of_find? hs
    simp only [Bool.and_eq_true, decide_eq_true_eq] at hkey
    have hstate : w'.state = w.state := (Except.ok.inj hw.1).symm
    exact ⟨s, hstate ▸ hmem, rfl, hkey.1, hkey.2⟩
  refine Follows.bind (submissionTarget_follows i env _ _ existing) fun target => ?_
  have hready : ∀ next, (versionProtocol ι).Stable i fun w =>
      TargetWork assignmentId student.id target w ∧ AtMostNext target.1 next w :=
    fun next j l w w' hj h hi hg hl hw =>
      ⟨stable_targetWork i _ _ target j l w w' hj h.1 hi hg hl hw,
        stable_atMostNext i _ next j l w w' hj h.2 hi hg hl hw⟩
  refine Follows.bind (Follows.query (stable_targetWork i _ _ target) hready fun w hi h =>
    ⟨h, nextVersion_atMostNext hi⟩) fun next => ?_
  refine Follows.bind (Q := fun _ _ => True) ?_ fun _ =>
    Follows.readOnly htrue (loadSubmission_readOnly _ _)
  exact Follows.execute (hready next) htrue fun w w' _ h _ _ =>
    ⟨⟨rfl, rfl, h.2.1, h.2.2, h.1⟩, trivial⟩

theorem withdrawWork_adds (env : Env) (student : CurrentUser) (assignmentId : Uuid) :
    (withdrawWork env student assignmentId).WritesOnly fun l => l.added = [] := by
  refine (requireStudent_readOnly _).writesOnly.bind fun _ => ?_
  refine WritesOnly.bind ⟨rfl, fun _ => trivial⟩ fun existing => ?_
  cases existing with
  | none => trivial
  | some x =>
    refine (readOnly_require _ _).writesOnly.bind fun _ => ?_
    exact WritesOnly.bind ⟨rfl, fun _ => trivial⟩ fun _ => (readOnly_require _ _).writesOnly

theorem handle_versions (jsonBytes : Json → Nat) (i : ι) (call : SubmissionCall) :
    (versionProtocol ι).Follows i (fun _ _ => True) (handle jsonBytes call) (fun _ => True) := by
  have htrue : (versionProtocol ι).Stable i (fun _ => True) := Protocol.stable_const _ i True
  obtain ⟨env, user, request⟩ := call
  cases request with
  | submit id req =>
    exact Follows.bind (submitWork_versions i env jsonBytes user id req) fun _ =>
      Follows.ret htrue fun _ _ => trivial
  | withdraw id =>
    refine Follows.bind (Follows.of_writesOnly (c := fun l => l.added = []) (fun l w hl => ?_)
      (withdrawWork_adds env user id)) fun _ => Follows.ret htrue fun _ _ => trivial
    cases l with
    | submitWork => cases hl
    | selectStatus | withdrawWork | saveGrade => trivial
  | grade id req =>
    refine Follows.bind (Follows.of_writesOnly (fun l w hl => ?_)
      (saveGrade_writes env user id req)) fun _ => Follows.ret htrue fun _ _ => trivial
    cases l with
    | saveGrade => trivial
    | selectStatus | submitWork | withdrawWork => cases hl

end Runs

variable {ι : Type} [DecidableEq ι]

/-- In every state of a run in which new work gets new ids, the versions of each
submission are numbered from 1 and the last one is current; and a state reached
later has all version rows of an earlier one, unaltered. -/
theorem versions_numbered_and_kept (jsonBytes : Json → Nat) (db : Database)
    (hdb : VersionHistory db) (ms ns : List (Move ι SubmissionCall))
    (h : (Pool.idle db : SubmissionPool ι).Guarded (handle jsonBytes) (fun _ => True)
      (fun _ l w => FreshSubmission l w.state) ms) :
    let pool (moves : List (Move ι SubmissionCall)) :=
      (Pool.idle db : SubmissionPool ι).run (handle jsonBytes) moves
    VersionHistory (pool ms).world.state ∧
      VersionsKept (pool ms).world.state (pool (ms ++ ns)).world.state := by
  have hidle : (versionProtocol ι).inv ⟨db, []⟩ := hdb
  have hrun := running_run (fun i call _ => handle_versions jsonBytes i call) (running_idle hidle) h
  refine ⟨hrun.1, ?_⟩
  dsimp only
  rw [Pool.run_append]
  generalize (Pool.idle db : SubmissionPool ι).run (handle jsonBytes) ms = c
  refine inv_run (I := fun w : World ι Database SubmissionStatement =>
    VersionsKept c.world.state w.state) (fun i l w w' hkept hw => ?_) (List.prefix_refl _) ns
  unfold VersionsKept at *
  rw [versions_added hw.1]
  exact hkept.trans (List.prefix_append _ _)

/-- Two devices of one student hand in first work, and both find none stored. -/
def twoDevicesRun : List (Move Nat SubmissionCall) :=
  .start 0 ⟨sampleEnv 20, sampleStudent, .submit 4 ⟨sampleDocument, "From home.", none⟩⟩ ::
      .start 1 ⟨sampleEnv 30, sampleStudent, .submit 4 ⟨sampleDocument, "From school.", none⟩⟩ ::
      List.replicate 4 (.advance 0) ++ List.replicate 5 (.advance 1) ++
    List.replicate 3 (.advance 0)

/-- One of them is refused, and the work has one version. -/
theorem versions_numbered_and_kept_sample :
    let db := { sampleWork with submissions := .empty, submissionVersions := .empty }
    let pool (moves : List (Move Nat SubmissionCall)) :=
      (Pool.idle db : SubmissionPool Nat).run (handle fun _ => 27) moves
    ((pool twoDevicesRun).world.state.submissionVersions.rows.map fun v => v.plaintext) =
        ["From school."] ∧
      VersionHistory (pool twoDevicesRun).world.state ∧ VersionsKept
        (pool twoDevicesRun).world.state (pool (twoDevicesRun ++ [.advance 1])).world.state :=
  ⟨by decide +kernel, versions_numbered_and_kept (fun _ => 27) _
    ⟨by decide +kernel, by decide +kernel, by decide +kernel, by decide +kernel⟩ twoDevicesRun
    [.advance 1] (by decide +kernel)⟩

end Cinder.Submissions
