import Cinder.Storage.RowHistories
import Cinder.Submissions.AssignmentChanges
set_option autoImplicit false

/-!
The history of a grade. `save_grade` reads the grade, and its transaction later
writes what it has read as the previous value.
-/

namespace Cinder.Submissions
open Cinder.Host Cinder.Storage Cinder.Programs Cinder.Programs.Program
open Cinder.Programs.Protocol

def changesOf (db : Database) (gradeId : Uuid) : List GradeChangeRow :=
  db.gradeChanges.rows.filter fun c => c.gradeId = gradeId

/-- The first change has no previous value, each later one has the value that
the one before it set, and the last one set the value `last`. -/
def HistoryOf (changes : List GradeChangeRow) (last : GradeContent) : Prop :=
  Chained (fun c => c.previous.map contentOf) (fun c => some (contentOf c.current)) none changes
    (some last)

instance (changes : List GradeChangeRow) (last : GradeContent) :
    Decidable (HistoryOf changes last) :=
  inferInstanceAs (Decidable (Chained _ _ _ _ _))

structure GradeChains (db : Database) : Prop where
  chained : ∀ g ∈ db.grades.rows, HistoryOf (changesOf db g.id) (contentOf (gradeSnapshot g))
  stored : ∀ c ∈ db.gradeChanges.rows, ∃ g ∈ db.grades.rows, g.id = c.gradeId

def FreshGrade (l : GradingStatement) (db : Database) : Prop :=
  ∀ x ∈ l.saved, x.2.previous = none → ∀ g ∈ db.grades.rows, g.id ≠ x.1.id

/-- When `save_grade` writes, points, label and feedback of the grade are those
of the state in which it has selected the grade. -/
def GradeAsSelected {ι : Type} (i : ι) (l : GradingStatement)
    (w : World ι Database GradingStatement) : Prop :=
  ∀ x ∈ l.saved, ∀ e ∈ w.history, e.proc = i → e.label = .selectGrade x.1.submissionId →
    ∀ g₀ ∈ grade? e.before x.1.submissionId, ∀ g ∈ grade? w.state x.1.submissionId,
      contentOf (gradeSnapshot g) = contentOf (gradeSnapshot g₀)

instance (l : GradingStatement) (db : Database) : Decidable (FreshGrade l db) :=
  inferInstanceAs (Decidable (∀ x ∈ l.saved, _))

instance {ι : Type} [DecidableEq ι] (i : ι) (l : GradingStatement)
    (w : World ι Database GradingStatement) : Decidable (GradeAsSelected i l w) :=
  inferInstanceAs (Decidable (∀ x ∈ l.saved, _))

/-- What a transaction of `save_grade` sees to: the change is of the grade it
writes, and has the stored value as its previous one. -/
def RecordsGrade (l : GradingStatement) (db : Database) : Prop :=
  match l with
  | .submission (.saveGrade row change) => change.gradeId = row.id ∧
      contentOf change.current = contentOf (gradeSnapshot row) ∧
      match change.previous with
      | none => ∀ g ∈ db.grades.rows, g.id ≠ row.id
      | some p => ∃ g ∈ db.grades.rows, g.id = row.id ∧ g.submissionId = row.submissionId ∧
          contentOf p = contentOf (gradeSnapshot g)
  | _ => True

section Statements
variable {db db' : Database}

theorem recordsGrade_of_not {l : GradingStatement} (hl : l.savesGrade = false) :
    RecordsGrade l db := by
  cases l with
  | selectMax | selectGrade | selectHighest | updateAssignment => trivial
  | submission l =>
    cases l with
    | selectStatus | submitWork | withdrawWork => trivial
    | saveGrade => cases hl

/-- The grade is stored already, and the change has its content as the previous one, or the
grade is new. -/
theorem saveGrade_cases {row : GradeRow} {change : GradeChangeRow}
    (h : (SubmissionStatement.saveGrade row change).run db = .ok db')
    (hl : RecordsGrade (.submission (.saveGrade row change)) db) :
    (∃ p old, change.previous = some p ∧ old ∈ db.grades.rows ∧ old.id = row.id ∧
      contentOf p = contentOf (gradeSnapshot old) ∧ ∀ g ∈ db'.grades.rows,
        (g.id = row.id ∧ contentOf (gradeSnapshot g) = contentOf (gradeSnapshot row)) ∨
          g.id ≠ row.id ∧ g ∈ db.grades.rows) ∨
      change.previous = none ∧ db.grades.insert row = some db'.grades := by
  obtain ⟨-, hupsert, ⟨written, hwritten, hwrittenId⟩, -, -⟩ := run_saveGrade h
  obtain ⟨hgrade, -, hprevious⟩ := hl
  rcases Table.upsert_cases hupsert with ⟨-, hd⟩ | ⟨hnone, hnew⟩
  · -- the grade is stored, so its id was read and not made
    cases hp : change.previous with
    | none =>
      simp only [hp] at hprevious
      rw [hd] at hwritten
      obtain ⟨g₀, hg₀, rfl⟩ := Table.mem_update.mp hwritten
      refine absurd ?_ (hprevious g₀ hg₀)
      rw [← hgrade, ← hwrittenId]
      split <;> rfl
    | some p =>
      simp only [hp] at hprevious
      obtain ⟨old, hold, hid, hsid, hcontent⟩ := hprevious
      refine .inl ⟨p, old, rfl, hold, hid, hcontent, fun g hg => ?_⟩
      rw [hd] at hg
      obtain ⟨g₀, hg₀, rfl⟩ := Table.mem_update.mp hg
      split
      · next hkey =>
        simp only [decide_eq_true_eq] at hkey
        obtain rfl : g₀ = old :=
          Table.eq_of_clash hg₀ hold (by simp [Keyed.clash, hkey, hsid])
        exact .inl ⟨hid, rfl⟩
      · next hkey =>
        refine .inr ⟨fun he => hkey ?_, hg₀⟩
        obtain rfl : g₀ = old := Table.eq_of_clash hg₀ hold (by simp [Keyed.clash, he, hid])
        simp [hsid]
  · have hnoGrade := List.any_eq_false.mp hnone
    cases hp : change.previous with
    | some p =>
      simp only [hp] at hprevious
      obtain ⟨old, hold, -, hsid, -⟩ := hprevious
      exact absurd (by simp [hsid]) (hnoGrade old hold)
    | none => exact .inr ⟨rfl, hnew⟩

theorem ne_of_insert_grade {row g : GradeRow} (hnew : db.grades.insert row = some db'.grades)
    (hg : g ∈ db.grades.rows) : g.id ≠ row.id := by
  intro he
  have hclash := Table.clash_insert hnew hg
  simp [Keyed.clash, he] at hclash

theorem gradeChains_save {row : GradeRow} {change : GradeChangeRow} (hdb : GradeChains db)
    (h : (SubmissionStatement.saveGrade row change).run db = .ok db')
    (hl : RecordsGrade (.submission (.saveGrade row change)) db) : GradeChains db' := by
  have hcases := saveGrade_cases h hl
  obtain ⟨-, -, ⟨written, hwritten, hwrittenId⟩, hins, -⟩ := run_saveGrade h
  obtain ⟨hgrade, hcurrent, -⟩ := hl
  have hother : ∀ id, id ≠ row.id → changesOf db' id = changesOf db id := fun id hne => by
    rw [changesOf, Table.rows_insert hins, List.filter_append]
    simp [changesOf, hgrade, Ne.symm hne]
  have hown : changesOf db' row.id = changesOf db row.id ++ [change] := by
    rw [changesOf, Table.rows_insert hins, List.filter_append]
    simp [changesOf, hgrade]
  have hchain : HistoryOf (changesOf db' row.id) (contentOf (gradeSnapshot row)) := by
    rw [hown, HistoryOf, chained_concat, hcurrent]
    refine ⟨?_, rfl⟩
    rcases hcases with ⟨p, old, hp, hold, hid, hcontent, -⟩ | ⟨hp, hnew⟩
    · have hlast := hdb.chained old hold
      rw [hid, HistoryOf, ← hcontent] at hlast
      rw [hp]
      exact hlast
    · have hempty : changesOf db row.id = [] := by
        refine List.filter_eq_nil_iff.mpr fun c hc hcid => ?_
        obtain ⟨g, hg, hid⟩ := hdb.stored c hc
        exact ne_of_insert_grade hnew hg (hid.trans (of_decide_eq_true hcid))
      rw [hempty, hp]
      rfl
  have hrows : ∀ g ∈ db'.grades.rows,
      (g.id = row.id ∧ contentOf (gradeSnapshot g) = contentOf (gradeSnapshot row)) ∨
        g.id ≠ row.id ∧ g ∈ db.grades.rows := by
    rcases hcases with ⟨-, -, -, -, -, -, hrows⟩ | ⟨-, hnew⟩
    · exact hrows
    · intro g hg
      rcases (Table.mem_insert hnew).mp hg with hold | rfl
      · exact .inr ⟨ne_of_insert_grade hnew hold, hold⟩
      · exact .inl ⟨rfl, rfl⟩
  refine ⟨fun g hg => ?_, fun c hc => ?_⟩
  · rcases hrows g hg with ⟨hid, hcontent⟩ | ⟨hne, hold⟩
    · rw [hid, hcontent]
      exact hchain
    · rw [hother _ hne]
      exact hdb.chained g hold
  · rcases (Table.mem_insert hins).mp hc with hold | rfl
    · obtain ⟨g, hg, hid⟩ := hdb.stored c hold
      obtain ⟨g', hg', hid', -⟩ := grade_kept (l := .submission (.saveGrade row change)) h hg
      exact ⟨g', hg', hid'.trans hid⟩
    · exact ⟨written, hwritten, hwrittenId⟩

theorem gradeChains_step {l : GradingStatement} (hdb : GradeChains db) (hl : RecordsGrade l db)
    (h : l.run db = .ok db') : GradeChains db' := by
  have hsame : l.savesGrade = false → db'.gradeChanges = db.gradeChanges → GradeChains db' := by
    intro hsaves hd
    have hof : ∀ id, changesOf db' id = changesOf db id := fun id => by
      rw [changesOf, hd, changesOf]
    refine ⟨fun g' hg' => ?_, fun c hc => ?_⟩
    · rcases grade_from h hg' with ⟨g, hg, hid, -, hcontent⟩ | ⟨row, change, rfl, -⟩
      · rw [hof, hid, hcontent]
        exact hdb.chained g hg
      · cases hsaves
    · obtain ⟨g, hg, hid⟩ := hdb.stored c (hd ▸ hc)
      obtain ⟨g', hg', hid', -⟩ := grade_kept h hg
      exact ⟨g', hg', hid'.trans hid⟩
  cases l with
  | selectMax | selectGrade | selectHighest | updateAssignment =>
    cases h
    exact hsame rfl rfl
  | submission l =>
    cases l with
    | selectStatus =>
      cases h
      exact hsame rfl rfl
    | withdrawWork => exact hsame rfl (run_withdrawWork h).2.2.2
    | submitWork => exact hsame rfl (run_submitWork h).2.2.2.2
    | saveGrade row change => exact gradeChains_save hdb h hl

end Statements

section Runs
variable {ι : Type}

def historyProtocol (ι : Type) : Protocol ι Database GradingStatement where
  inv w := GradeChains w.state
  guard i l w := FreshGrade l w.state ∧ GradeAsSelected i l w
  promise _ l w := RecordsGrade l w.state
  inv_step _ _ _ _ hdb _ hl hw := gradeChains_step hdb hl hw.1

def Selected (i : ι) (sid : Uuid) (previous : Option GradeRow)
    (w : World ι Database GradingStatement) : Prop :=
  (∃ e ∈ w.history, e.proc = i ∧ e.label = .selectGrade sid ∧ grade? e.before sid = previous) ∧
    ∀ g₀ ∈ previous, ∃ g ∈ w.state.grades.rows, g.id = g₀.id ∧ g.submissionId = sid

theorem stable_selected (i : ι) (sid : Uuid) (previous : Option GradeRow) :
    (historyProtocol ι).Stable i (Selected i sid previous) := by
  rintro j l w w' - ⟨⟨e, he, hselect⟩, hstored⟩ - - - hw
  rw [Selected, hw.2]
  refine ⟨⟨e, List.mem_cons_of_mem _ he, hselect⟩, fun g₀ hg₀ => ?_⟩
  obtain ⟨g, hg, hid, hsid⟩ := hstored g₀ hg₀
  obtain ⟨g', hg', hid', hsid', -⟩ := grade_kept hw.1 hg
  exact ⟨g', hg', hid'.trans hid, hsid'.trans hsid⟩

/-- The transaction that ends `save_grade`. -/
theorem saveGrade_write_follows (i : ι) {sid : Uuid} {previous : Option GradeRow}
    {row : GradeRow} {change : GradeChangeRow} (hsid : row.submissionId = sid)
    (hid : ∀ g₀ ∈ previous, row.id = g₀.id) (hgrade : change.gradeId = row.id)
    (hprevious : change.previous = previous.map gradeSnapshot)
    (hcurrent : contentOf change.current = contentOf (gradeSnapshot row)) :
    (historyProtocol ι).Follows i (fun _ _ => True)
      (execute (.submission (.saveGrade row change))) (Selected i sid previous) := by
  subst hsid
  refine Follows.execute (stable_selected i _ _) (Protocol.stable_const _ i True)
    fun w w' _ hselected _ hg => ⟨⟨hgrade, hcurrent, ?_⟩, trivial⟩
  obtain ⟨⟨e, he, hproc, hlabel, hbefore⟩, hstored⟩ := hselected
  cases previous with
  | none =>
    have hnone : change.previous = none := by simpa using hprevious
    rw [hnone]
    exact hg.1 (row, change) rfl hnone
  | some g₀ =>
    obtain ⟨g, hmem, hgid, hgsid⟩ := hstored g₀ rfl
    have hfound : grade? w.state row.submissionId = some g :=
      Table.find?_of_mem hmem (by simpa using hgsid) fun g' _ h => by simp_all [Keyed.clash]
    rw [hprevious]
    exact ⟨g, hmem, hgid.trans (hid g₀ rfl).symm, hgsid,
      (hg.2 (row, change) rfl e he hproc hlabel g₀ hbefore g hfound).symm⟩

theorem recordedSaveGrade_follows (i : ι) (env : Env) (teacher : CurrentUser) (id : Uuid)
    (req : SaveGradeRequest) :
    (historyProtocol ι).Follows i (fun _ _ => True) (recordedSaveGrade env teacher id req)
      (fun _ => True) := by
  have htrue : (historyProtocol ι).Stable i (fun _ => True) := Protocol.stable_const _ i True
  refine Follows.bind (Follows.readOnly htrue (requireTeacher_readOnly _)) fun _ => ?_
  refine Follows.bind (Follows.readOnly htrue
    (readOnly_relabel (assertSubmissionVisible_readOnly _ _))) fun _ => ?_
  refine Follows.bind (Follows.of_writesOnly (c := fun l => l.savesGrade = false)
    (fun l w hl => recordsGrade_of_not hl) (selectRow_writes _ _ rfl)) fun max => ?_
  refine Follows.bind (Follows.readOnly htrue (readOnly_require _ _)) fun _ => ?_
  refine Follows.bind (Q := Selected i id) ?_ fun previous => ?_
  · refine Follows.executeReturning htrue (stable_selected i id) fun w w' _ _ hw _ =>
      ⟨trivial, ⟨_, by rw [hw.2]; exact List.mem_cons_self, rfl, rfl, rfl⟩, fun g₀ hg₀ => ?_⟩
    obtain ⟨hmem, hsid⟩ := Table.mem_of_find? hg₀
    have hstate : w'.state = w.state := (Except.ok.inj hw.1).symm
    exact ⟨g₀, hstate ▸ hmem, rfl, by simpa using hsid⟩
  · refine Follows.bind (Q := fun _ _ => True) ?_ fun _ => Follows.ret htrue fun _ _ => trivial
    refine saveGrade_write_follows i rfl (fun g₀ hg₀ => ?_) rfl rfl rfl
    cases hg₀
    rfl

theorem handleGrading_follows (jsonBytes : Json → Nat) (i : ι) (call : GradingCall) :
    (historyProtocol ι).Follows i (fun _ _ => True) (handleGrading jsonBytes call)
      (fun _ => True) := by
  obtain ⟨env, user, request⟩ := call
  have htrue : (historyProtocol ι).Stable i (fun _ => True) := Protocol.stable_const _ i True
  have hothers : ∀ {α : Type} {p : GradingProgram α} {reply : α → GradingReply},
      p.WritesOnly (fun l => l.savesGrade = false) →
      (historyProtocol ι).Follows i (fun _ _ => True) (p >>= fun a => pure (reply a))
        (fun _ => True) := fun hp =>
    Follows.bind (Follows.of_writesOnly (fun l w hl => recordsGrade_of_not hl) hp) fun _ =>
      Follows.ret htrue fun _ _ => trivial
  cases request with
  | updateAssignment id req =>
    exact hothers (updateAssignment_writes env user id req rfl fun _ => rfl)
  | submission req =>
    cases req with
    | grade id req =>
      exact Follows.bind (recordedSaveGrade_follows i env user id req) fun _ =>
        Follows.ret htrue fun _ _ => trivial
    | submit id req =>
      exact hothers ((student_writes jsonBytes ⟨env, user, .submit id req⟩ rfl).imp savesGrade_of_student)
    | withdraw id =>
      exact hothers ((student_writes jsonBytes ⟨env, user, .withdraw id⟩ rfl).imp savesGrade_of_student)

end Runs

variable {ι : Type} [DecidableEq ι]

/-- In every run in which `save_grade` finds points, label and feedback as it has
selected them, the history of each grade is a chain that ends in the grade. -/
theorem grade_history_is_chained (jsonBytes : Json → Nat) (db : Database) (hdb : GradeChains db)
    (ms : List (Move ι GradingCall))
    (h : (Pool.idle db : GradingPool ι).Guarded (handleGrading jsonBytes) (fun _ => True)
      (fun i l w => FreshGrade l w.state ∧ GradeAsSelected i l w) ms) :
    GradeChains ((Pool.idle db : GradingPool ι).run (handleGrading jsonBytes) ms).world.state := by
  have hidle : (historyProtocol ι).inv ⟨db, []⟩ := hdb
  exact (running_run (fun i call _ => handleGrading_follows jsonBytes i call)
    (running_idle hidle) h).1

def gradeCall (t : Time) (points : ℚ) (publish : Bool) : GradingCall :=
  ⟨sampleEnv t, sampleTeacher, .submission (.grade 5 ⟨some points, none, "Good.", publish⟩)⟩

/-- Three grades one after the other, and the student who asks for the work back. -/
def gradedInTurn : List (Move Nat GradingCall) :=
  .start 0 (gradeCall 20 6 false) :: List.replicate 5 (.advance 0) ++
    .start 1 (gradeCall 30 8 false) :: List.replicate 5 (.advance 1) ++
    .start 2 ⟨sampleEnv 40, sampleStudent, .submission (.withdraw 4)⟩ ::
      List.replicate 2 (.advance 2)

theorem grade_history_is_chained_sample :
    let db := ((Pool.idle sampleWork : GradingPool Nat).run (handleGrading fun _ => 27)
      gradedInTurn).world.state
    (changesOf db 2000).length = 2 ∧ GradeChains db :=
  ⟨by decide +kernel, grade_history_is_chained (fun _ => 27) sampleWork
    ⟨by decide +kernel, by decide +kernel⟩ gradedInTurn (by decide +kernel)⟩

def gradedAtOnce : List (Move Nat GradingCall) :=
  .start 0 (gradeCall 20 6 false) :: List.replicate 5 (.advance 0) ++
    .start 1 (gradeCall 30 8 false) :: List.replicate 4 (.advance 1) ++
    .start 2 (gradeCall 40 9 false) :: List.replicate 5 (.advance 2) ++ [.advance 1]

/-- The later change has the first grade as its previous value, as the one
before it has. -/
theorem grade_history_forks :
    ¬GradeChains ((Pool.idle sampleWork : GradingPool Nat).run (handleGrading fun _ => 27)
      gradedAtOnce).world.state := by
  intro h
  have hforked : ∃ g ∈ ((Pool.idle sampleWork : GradingPool Nat).run (handleGrading fun _ => 27)
      gradedAtOnce).world.state.grades.rows,
      ¬HistoryOf (changesOf ((Pool.idle sampleWork : GradingPool Nat).run
        (handleGrading fun _ => 27) gradedAtOnce).world.state g.id)
        (contentOf (gradeSnapshot g)) := by decide +kernel
  obtain ⟨g, hg, hno⟩ := hforked
  exact hno (h.chained g hg)

end Cinder.Submissions
