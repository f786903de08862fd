import Cinder.Quizzes.QuizEffects
import Cinder.Quizzes.QuizHandlers
set_option autoImplicit false

/-!
Saving one answer. The statement of `save_response` binds eight parameters to
seven placeholders, so no answer is ever stored; numbered as its columns stand,
it stores what it should.
-/

namespace Cinder.Quizzes
open Cinder.Host Cinder.Storage Cinder.Programs Cinder.Programs.Program

/-- The student may write to the attempt, and the question is one of its quiz
version's. -/
structure Savable (env : Env) (db : Database) (student : CurrentUser) (id qid : Uuid)
    (key : QuizQuestionKind × Json × ℚ) : Prop where
  isStudent : student.role.isTeacher = false
  writable : (ensureAttemptWritable id student.id (env.now 0)).exec db = (.ok (), db)
  question : (questionKey id qid).exec db = (.ok key, db)

/-- The request succeeds, the answer is stored with the points it earns, and
the other responses stay as they were. -/
def AnswerSaved (u : SaveUpsert) (env : Env) (db : Database) (student : CurrentUser)
    (id qid : Uuid) (answer : Json) (key : QuizQuestionKind × Json × ℚ) : Prop :=
  ∃ reply db', (saveResponse env u student id qid answer).exec db = (.ok reply, db') ∧
    (∃ r, response? db' id qid = some r ∧ r.answer = answer ∧
      r.points = (objectivePoints key.1 key.2.1 answer key.2.2).1 ∧ r.updatedAt = env.now 1) ∧
    ∀ r, ¬(r.attemptId = id ∧ r.questionId = qid) →
      (r ∈ db'.quizResponses.rows ↔ r ∈ db.quizResponses.rows)

variable {u : SaveUpsert} {env : Env} {db db' : Database} {student : CurrentUser}
variable {id qid : Uuid} {answer : Json} {key : QuizQuestionKind × Json × ℚ}

theorem Savable.exec_save (h : Savable env db student id qid key) :
    (saveResponse env u student id qid answer).exec db =
      (ofExcept (bindResponse u (saveParams (env.uuid 0) id qid answer
          (objectivePoints key.1 key.2.1 answer key.2.2) (env.now 1))) >>= fun row =>
        execute (.upsertResponse row) >>= fun _ => loadResponse id qid false).exec db := by
  unfold saveResponse
  have hs : (requireStudent student : QuizProgram Unit).exec db = (.ok (), db) := by
    unfold requireStudent
    rw [exec_require, if_pos h.isStudent]
  rw [exec_bind_ok _ hs, exec_bind_ok _ h.writable, exec_bind_ok _ h.question]

theorem Savable.exec_save_asWritten (h : Savable env db student id qid key) :
    (saveResponse env .asWritten student id qid answer).exec db =
      (.error (.database (.invalidParameterCount 8 7)), db) := by
  rw [h.exec_save, bindResponse_asWritten]
  rfl

theorem response?_of_mem {r : QuizResponseRow} (h : r ∈ db.quizResponses.rows) :
    response? db r.attemptId r.questionId = some r :=
  Table.find?_of_mem h (by simp) fun r' _ hr' => by
    simp only [Bool.and_eq_true, decide_eq_true_eq] at hr'
    simp [Keyed.clash, hr'.1, hr'.2]

/-- Both branches of the upsert store the named values under the key of `row`,
and touch no other row. -/
theorem upsertResponse_spec {row : QuizResponseRow} (hfeedback : row.feedback = "")
    (h : (QuizStatement.upsertResponse row).run db = .ok db') :
    (∃ r ∈ db'.quizResponses.rows, r.attemptId = row.attemptId ∧ r.questionId = row.questionId ∧
      r.answer = row.answer ∧ r.points = row.points ∧ r.feedback = "" ∧
      r.autoGraded = row.autoGraded ∧ r.gradedAt = row.gradedAt ∧ r.updatedAt = row.updatedAt) ∧
    ∀ r, ¬(r.attemptId = row.attemptId ∧ r.questionId = row.questionId) →
      (r ∈ db'.quizResponses.rows ↔ r ∈ db.quizResponses.rows) := by
  rcases Table.upsert_cases (run_effect h).responses with ⟨hany, ht⟩ | ⟨hnone, hins⟩
  · obtain ⟨old, hold, hkey⟩ := List.any_eq_true.mp hany
    have hk := hkey
    simp only [Bool.and_eq_true, decide_eq_true_eq] at hk
    refine ⟨⟨overwriteResponse row old, ?_, ?_⟩, fun r hr => ?_⟩
    · rw [ht]
      exact Table.mem_update.mpr ⟨old, hold, by rw [if_pos hkey]⟩
    · exact ⟨hk.1, hk.2, rfl, rfl, rfl, rfl, rfl, rfl⟩
    · rw [ht, Table.mem_update]
      constructor
      · rintro ⟨r', hr', rfl⟩
        split at hr
        · rename_i hk'
          simp only [Bool.and_eq_true, decide_eq_true_eq] at hk'
          exact absurd hk' hr
        · rename_i hk'
          rwa [if_neg hk']
      · intro hmem
        refine ⟨r, hmem, ?_⟩
        rw [if_neg]
        simpa using hr
  · refine ⟨⟨row, (Table.mem_insert hins).mpr (.inr rfl), ?_⟩, fun r hr => ?_⟩
    · exact ⟨rfl, rfl, rfl, rfl, hfeedback, rfl, rfl, rfl⟩
    · rw [Table.mem_insert hins]
      exact ⟨fun hr' => hr'.resolve_right fun he => hr (he ▸ ⟨rfl, rfl⟩), .inl⟩

theorem upsertResponse_isOk (row : QuizResponseRow)
    (hfresh : ∀ r ∈ db.quizResponses.rows, r.id ≠ row.id) :
    ∃ db', (QuizStatement.upsertResponse row).run db = .ok db' := by
  have hstored : ∃ t, db.quizResponses.upsert
      (fun r => r.attemptId = row.attemptId && r.questionId = row.questionId)
      (overwriteResponse row) (overwriteResponse_keeps row) row = some t := by
    unfold Table.upsert
    split
    · exact ⟨_, rfl⟩
    · rename_i hnone
      refine Table.insert_isSome fun r hr => ?_
      have hid := hfresh r hr
      have hkey : (r.attemptId = row.attemptId && r.questionId = row.questionId : Bool) = false := by
        by_contra hk
        exact hnone (List.any_eq_true.mpr ⟨r, hr, by simpa using hk⟩)
      simp only [Keyed.clash, hkey, Bool.or_false]
      simpa using hid
  obtain ⟨t, ht⟩ := hstored
  exact ⟨{ db with quizResponses := t }, by simp [QuizStatement.run, ht, stored]; rfl⟩

theorem saveResponse_asNamed_saves (h : Savable env db student id qid key)
    (hfresh : ∀ r ∈ db.quizResponses.rows, r.id ≠ env.uuid 0) :
    AnswerSaved .asNamed env db student id qid answer key := by
  obtain ⟨db', hdb⟩ := upsertResponse_isOk (savedRow (env.uuid 0) id qid answer
    (objectivePoints key.1 key.2.1 answer key.2.2) (env.now 1)) hfresh
  obtain ⟨⟨r, hr, ha, hq, hans, hpts, -, -, -, hup⟩, hother⟩ := upsertResponse_spec rfl hdb
  have hfound : response? db' id qid = some r := by
    have hr' := response?_of_mem hr
    rwa [ha, hq] at hr'
  have hquestion : ∃ q, db'.quizVersionQuestions.find? (fun q => q.id = qid) = some q := by
    obtain ⟨a, d, q, -, hq, hid, -, -⟩ := questionKey_ok h.question
    rw [(run_effect hdb).versions.2]
    refine ⟨q, Table.find?_of_mem hq (by simpa using hid) fun q' _ hq' => ?_⟩
    simp only [decide_eq_true_eq] at hq'
    simp [Keyed.clash, hid, hq']
  obtain ⟨q, hq⟩ := hquestion
  have hload : ∃ reply, (loadResponse id qid false).exec db' = (.ok reply, db') := by
    unfold loadResponse
    rw [exec_bind, exec_queryRow]
    simp only [hfound, hq]
    exact ⟨_, rfl⟩
  obtain ⟨reply, hreply⟩ := hload
  refine ⟨reply, db', ?_, ⟨r, hfound, hans, hpts, hup⟩, hother⟩
  rw [h.exec_save, bindResponse_asNamed]
  exact (exec_write_ok _ hdb).trans hreply

/-- `save_response` as it is written refuses every answer. -/
theorem saveResponse_never_saves (h : Savable env db student id qid key) :
    (saveResponse env .asWritten student id qid answer).exec db =
        (.error (.database (.invalidParameterCount 8 7)), db) ∧
      ¬AnswerSaved .asWritten env db student id qid answer key := by
  have hexec : (saveResponse env .asWritten student id qid answer).exec db =
      (.error (.database (.invalidParameterCount 8 7)), db) := h.exec_save_asWritten
  refine ⟨hexec, fun hsaved => ?_⟩
  obtain ⟨reply, db', hok, -⟩ := hsaved
  rw [hexec] at hok
  cases hok

theorem sampleSavable : Savable (sampleEnv 10)
    (sampleDatabase (sampleQuestion .trueFalse (.bool true)) sampleAttempt) sampleStudent 8 6
    (.trueFalse, .bool true, 2) :=
  ⟨rfl, rfl, rfl⟩

theorem saveResponse_never_saves_sample :
    let db := sampleDatabase (sampleQuestion .trueFalse (.bool true)) sampleAttempt
    (saveResponse (sampleEnv 10) .asWritten sampleStudent 8 6 (.bool true)).exec db =
        (.error (.database (.invalidParameterCount 8 7)), db) ∧
      ¬AnswerSaved .asWritten (sampleEnv 10) db sampleStudent 8 6 (.bool true)
        (.trueFalse, .bool true, 2) :=
  saveResponse_never_saves sampleSavable

/-- A student who may write gets an internal error and no stored answer. -/
theorem saveResponse_loses_answer : ¬∀ env db student id qid answer key,
    Savable env db student id qid key →
      AnswerSaved .asWritten env db student id qid answer key := by
  intro hclaim
  obtain ⟨reply, db', hok, -⟩ := hclaim (sampleEnv 10)
    (sampleDatabase (sampleQuestion .trueFalse (.bool true)) sampleAttempt) sampleStudent 8 6
    (.bool true) _ sampleSavable
  rw [sampleSavable.exec_save_asWritten] at hok
  cases hok

end Cinder.Quizzes
