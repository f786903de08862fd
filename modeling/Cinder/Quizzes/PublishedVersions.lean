import Cinder.Quizzes.QuizLedger
import Cinder.Quizzes.QuizRelease
import Cinder.Storage.RowHistories
set_option autoImplicit false

/-!
Published quiz versions. A version is stored once, by the transaction that
publishes it; deliveries, attempts and answers hang off versions, and the
requests that write drafts leave all of them alone.
-/

namespace Cinder.Quizzes
open Cinder.Host Cinder.Storage Cinder.Programs Cinder.Programs.Program
open Cinder.Programs.Protocol

def versionsOf (db : Database) (quizId : Uuid) : List QuizVersionRow :=
  db.quizVersions.rows.filter fun v => v.quizId = quizId

structure VersionsPublished (db : Database) : Prop where
  numbered : ∀ quizId, Numbered (fun v => (v.versionNumber : Int)) (versionsOf db quizId)
  total : ∀ v ∈ db.quizVersions.rows,
    v.totalPoints = ((versionQuestions db v.id).map fun q => q.maxPoints).sum
  question : ∀ q ∈ db.quizVersionQuestions.rows, ∃ v ∈ db.quizVersions.rows, v.id = q.versionId

/-- Every version is there still, with the same row and the same questions, and
every delivery and attempt is of the version it was of. -/
structure PublishedKept (db db' : Database) : Prop where
  versions : db.quizVersions.rows <+: db'.quizVersions.rows
  questions : ∀ v ∈ db.quizVersions.rows, versionQuestions db' v.id = versionQuestions db v.id
  deliveries : ∀ d ∈ db.quizDeliveries.rows, ∃ d' ∈ db'.quizDeliveries.rows, SameDelivery d d'
  attempts : ∀ a ∈ db.quizAttempts.rows, ∃ a' ∈ db'.quizAttempts.rows, SameAttempt a a'

structure SameResults (db db' : Database) : Prop where
  deliveries : db'.quizDeliveries = db.quizDeliveries
  attempts : db'.quizAttempts = db.quizAttempts
  responses : db'.quizResponses = db.quizResponses

inductive DraftStatement : QuizStatement → Prop where
  | create (quiz : QuizRow) (questions : List QuizQuestionInput) (fresh : Nat → Uuid)
      (entry : QuizAuditRow) : DraftStatement (.createQuiz quiz questions fresh entry)
  | update (id : Uuid) (req : SaveQuizRequest) (updatedAt : Time) (fresh : Nat → Uuid)
      (entry : QuizAuditRow) : DraftStatement (.updateQuiz id req updatedAt fresh entry)
  | archive (id : Uuid) (now : Time) : DraftStatement (.archiveQuiz id now)
  | publish (quiz : Quiz) (versionId : Uuid) (fresh : Nat → Uuid) (now : Time)
      (entry : QuizAuditRow) : DraftStatement (.publishQuiz quiz versionId fresh now entry)
  | audit (entry : QuizAuditRow) : DraftStatement (.audit entry)

section Statements
variable {l : QuizStatement} {db db' : Database}

theorem PublishedKept.refl (db : Database) : PublishedKept db db :=
  ⟨List.prefix_refl _, fun _ _ => rfl, fun d hd => ⟨d, hd, sameDelivery_refl d⟩,
    fun a ha => ⟨a, ha, sameAttempt_refl a⟩⟩

theorem PublishedKept.trans {db'' : Database} (h : PublishedKept db db')
    (h' : PublishedKept db' db'') : PublishedKept db db'' := by
  refine ⟨h.versions.trans h'.versions, fun v hv => ?_, fun d hd => ?_, fun a ha => ?_⟩
  · rw [h'.questions v (h.versions.subset hv), h.questions v hv]
  · obtain ⟨d', hd', hid, hversion⟩ := h.deliveries d hd
    obtain ⟨d'', hd'', hid', hversion'⟩ := h'.deliveries d' hd'
    exact ⟨d'', hd'', hid'.trans hid, hversion'.trans hversion⟩
  · obtain ⟨a', ha', hid, hdelivery, hstudent, hmax⟩ := h.attempts a ha
    obtain ⟨a'', ha'', hid', hdelivery', hstudent', hmax'⟩ := h'.attempts a' ha'
    exact ⟨a'', ha'', hid'.trans hid, hdelivery'.trans hdelivery, hstudent'.trans hstudent,
      hmax'.trans hmax⟩

theorem versions_grow (h : l.run db = .ok db') :
    db.quizVersions.rows <+: db'.quizVersions.rows := by
  have hv := (run_effect h).versions
  cases l with
  | publishQuiz quiz versionId fresh now entry =>
    rw [Table.rows_insert hv.1]
    exact List.prefix_append _ _
  | createQuiz | updateQuiz | archiveQuiz | insertDelivery | insertAttempt | upsertResponse
  | markSubmitted | writeScore | reopenAttempt | gradeResponse | releaseResults | audit =>
    have hsame : db'.quizVersions = db.quizVersions := hv.1
    exact ⟨[], by rw [hsame, List.append_nil]⟩

theorem publishedKept_step (h : l.run db = .ok db') : PublishedKept db db' :=
  ⟨versions_grow h, fun _ hv => versionQuestions_step h hv, (run_deliveries_rows h).2,
    (run_attempts_rows h).2⟩

theorem numbered_step (h : l.run db = .ok db')
    (hnumbered : ∀ quizId, Numbered (fun v => (v.versionNumber : Int)) (versionsOf db quizId))
    (quizId : Uuid) : Numbered (fun v => (v.versionNumber : Int)) (versionsOf db' quizId) := by
  have hv := (run_effect h).versions
  cases l with
  | publishQuiz quiz versionId fresh now entry =>
    rw [versionsOf, Table.rows_insert hv.1, List.filter_append]
    by_cases hid : quiz.id = quizId
    · subst hid
      have hnew : ([versionRow db quiz versionId now].filter fun v => v.quizId = quiz.id) =
          [versionRow db quiz versionId now] := by simp [versionRow]
      rw [hnew]
      refine numbered_concat.mpr ⟨hnumbered quiz.id, ?_⟩
      have hmax := (hnumbered quiz.id).foldr_max
      rw [versionsOf] at hmax
      simp only [versionRow, hmax]
      rfl
    · have hnew : ([versionRow db quiz versionId now].filter fun v => v.quizId = quizId) = [] := by
        simp [versionRow, hid]
      rw [hnew, List.append_nil]
      exact hnumbered quizId
  | createQuiz | updateQuiz | archiveQuiz | insertDelivery | insertAttempt | upsertResponse
  | markSubmitted | writeScore | reopenAttempt | gradeResponse | releaseResults | audit =>
    have hsame : db'.quizVersions = db.quizVersions := hv.1
    rw [versionsOf, hsame]
    exact hnumbered quizId

theorem versionsPublished_step (h : l.run db = .ok db') (hdb : VersionsPublished db) :
    VersionsPublished db' :=
  ⟨numbered_step h hdb.numbered, total_step h hdb.question hdb.total, question_step h hdb.question⟩

theorem draft_sameResults (hl : DraftStatement l) (h : l.run db = .ok db') :
    SameResults db db' := by
  have he := run_effect h
  cases hl <;> exact ⟨he.deliveries, he.attempts, he.responses⟩

end Statements

section Handlers

theorem handle_draft_writes (u : SaveUpsert) (call : QuizCall) :
    (handle u call).WritesOnly fun l => call.request.writesDraft = true → DraftStatement l := by
  obtain ⟨env, user, request⟩ := call
  refine (handle_issues u _).imp fun l h hdraft => ?_
  cases h with
  | create => exact .create _ _ _ _
  | update => exact .update _ _ _ _ _
  | archive => exact .archive _ _
  | duplicate => exact .create _ _ _ _
  | publish => exact .publish _ _ _ _ _
  | archiveAudit => exact .audit _
  | start | reopen => cases hdraft
  | ordinary _ hnone =>
    rw [hnone] at hdraft
    cases hdraft

end Handlers

def ByDraft {ι : Type} (c : QuizPool ι) : Move ι QuizCall → Prop
  | .start _ _ => False
  | .advance i => ∃ x ∈ c.procs i, x.1.request.writesDraft = true

variable {ι : Type} [DecidableEq ι]

theorem published_kept_run (u : SaveUpsert) (c : QuizPool ι) (ms : List (Move ι QuizCall)) :
    PublishedKept c.world.state (c.run (handle u) ms).world.state :=
  inv_run (I := fun w : World ι Database QuizStatement => PublishedKept c.world.state w.state)
    (fun _ _ _ _ hkept hw => hkept.trans (publishedKept_step hw.1)) (PublishedKept.refl _) ms

/-- In every state of every run the versions of a quiz are numbered from 1 in the
order of their publication, and count the points of their questions; what is
published is there unchanged in every later state; and a request that writes
drafts changes no result. -/
theorem published_versions_immutable (u : SaveUpsert) (db : Database) (hdb : VersionsPublished db)
    (ms ns : List (Move ι QuizCall)) :
    let pool (moves : List (Move ι QuizCall)) :=
      (Pool.idle db : QuizPool ι).run (handle u) moves
    VersionsPublished (pool ms).world.state ∧
      PublishedKept (pool ms).world.state (pool (ms ++ ns)).world.state ∧
      ∀ m, ByDraft (pool ms) m →
        SameResults (pool ms).world.state (pool (ms ++ [m])).world.state := by
  have hinv : VersionsPublished ((Pool.idle db : QuizPool ι).run (handle u) ms).world.state :=
    inv_run (I := fun w : World ι Database QuizStatement => VersionsPublished w.state)
      (fun _ _ _ _ hw h => versionsPublished_step h.1 hw) hdb ms
  have hwrites := Pool.writesOnly_run (handle_draft_writes u) (Pool.idle db : QuizPool ι)
    (fun i r p hp => by cases hp) ms
  dsimp only
  simp only [Pool.run_append]
  generalize (Pool.idle db : QuizPool ι).run (handle u) ms = c at *
  refine ⟨hinv, published_kept_run u c ns, fun m hm => ?_⟩
  change SameResults c.world.state (c.move (handle u) m).world.state
  rcases c.move_world (handle u) m with hw | ⟨i, call, l, k, rfl, hp, hw⟩
  · rw [hw]
    exact ⟨rfl, rfl, rfl⟩
  · obtain ⟨x, hx, hdraft⟩ := hm
    rw [hp] at hx
    cases hx
    exact draft_sameResults ((hwrites i call _ hp).1 hdraft) hw.1

/-- The sample with the draft that its version was published from, edited since. -/
def editedDatabase : Database :=
  { sampleDatabase (sampleQuestion .trueFalse (.bool true)) sampleAttempt with
    quizzes := .single
      { id := 4, classroomId := 3, title := "Primes", instructions := ""
        timeLimitMinutes := none, createdBy := 2, createdAt := 0, updatedAt := 0 }
    quizDraftQuestions := .single
      { id := 9, quizId := 4, position := 0, kind := .trueFalse, prompt := "Is 9 prime?"
        options := [], canonicalAnswer := .bool false, maxPoints := 3, required := true } }

theorem editedDatabase_published : VersionsPublished editedDatabase := by
  refine ⟨fun quizId => ?_, by decide +kernel, by decide +kernel⟩
  by_cases hid : quizId = 4
  · subst hid
    decide +kernel
  · have hnone : versionsOf editedDatabase quizId = [] := by
      simp [versionsOf, editedDatabase, sampleDatabase, Ne.symm hid]
    rw [hnone]
    exact numbered_nil

def republished : List (Move Nat QuizCall) :=
  .start 0 ⟨sampleEnv 20, sampleTeacher, .publish 4⟩ :: List.replicate 3 (.advance 0)

theorem published_versions_immutable_sample :
    let pool (moves : List (Move Nat QuizCall)) :=
      (Pool.idle editedDatabase : QuizPool Nat).run (handle .asNamed) moves
    ((pool (republished ++ [.advance 0])).world.state.quizVersions.rows.map fun v =>
        (v.versionNumber, v.totalPoints)) = [(1, 2), (2, 3)] ∧
      VersionsPublished (pool republished).world.state ∧
      PublishedKept (pool republished).world.state (pool (republished ++ [.advance 0])).world.state ∧
      ∀ m, ByDraft (pool republished) m →
        SameResults (pool republished).world.state (pool (republished ++ [m])).world.state :=
  ⟨by decide +kernel, published_versions_immutable .asNamed editedDatabase
    editedDatabase_published republished [.advance 0]⟩

end Cinder.Quizzes
