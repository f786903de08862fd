import Cinder.Programs.SerialRuns
import Cinder.Quizzes.QuizHandlers
import Cinder.Quizzes.QuizLedger
set_option autoImplicit false

/-!
The score of a submitted attempt when requests are handled one at a time. Every
handler that changes a submitted attempt's points ends with a recalculation.
-/

namespace Cinder.Quizzes
open Cinder.Host Cinder.Storage Cinder.Programs Cinder.Programs.Program

/-- Once submitted, the attempt has the score its responses add up to, and is
graded when no short answer waits for a teacher. -/
def Settled (db : Database) (id : Uuid) : Prop :=
  ∀ a ∈ db.quizAttempts.rows, a.id = id → a.submittedAt.isSome = true →
    a.score = some (pointsSum db id) ∧ (a.gradedAt.isSome = true ↔ manualMissing db id = 0)

structure QuizSound (db : Database) : Prop where
  ledger : QuizLedger db
  settled : ∀ id, Settled db id

def QuizStatement.touches (id : Uuid) : QuizStatement → Bool
  | .upsertResponse row => row.attemptId = id
  | .markSubmitted id' _ | .writeScore id' .. | .gradeResponse id' .. => id' = id
  | _ => false

section Statements
variable {l : QuizStatement} {db db' : Database} {id : Uuid}

theorem attemptDelivery?_of_mem {a : QuizAttemptRow} {d : QuizDeliveryRow}
    (ha : a ∈ db.quizAttempts.rows) (hd : d ∈ db.quizDeliveries.rows)
    (hid : d.id = a.deliveryId) : attemptDelivery? db a.id = some (a, d) :=
  attemptDelivery?_eq_some.mpr ⟨attempt?_of_mem ha, hid ▸ delivery?_of_mem hd⟩

theorem attemptQuestions_of_mem {a : QuizAttemptRow} {d : QuizDeliveryRow}
    (ha : a ∈ db.quizAttempts.rows) (hd : d ∈ db.quizDeliveries.rows)
    (hid : d.id = a.deliveryId) : attemptQuestions db a.id = versionQuestions db d.versionId := by
  rw [attemptQuestions, attemptDelivery?_of_mem ha hd hid]

theorem attemptQuestions_step (hinv : QuizLedger db) (h : l.run db = .ok db')
    {a : QuizAttemptRow} (ha : a ∈ db.quizAttempts.rows) :
    attemptQuestions db' a.id = attemptQuestions db a.id := by
  obtain ⟨d, hd, v, hv, hid, hvd, -⟩ := hinv.attempt a ha
  obtain ⟨a', ha', haid, hadel, -, -⟩ := (run_attempts_rows h).2 a ha
  obtain ⟨d', hd', hdid, hdv⟩ := (run_deliveries_rows h).2 d hd
  have hnew := attemptQuestions_of_mem ha' hd' (by rw [hdid, hid, hadel])
  rw [haid, hdv, ← hvd] at hnew
  rw [hnew, attemptQuestions_of_mem ha hd hid, ← hvd]
  exact versionQuestions_step h hv

theorem attemptResponses_step (h : l.run db = .ok db') (ht : l.touches id = false) :
    attemptResponses db' id = attemptResponses db id := by
  have hr := (run_effect h).responses
  cases l with
  | upsertResponse row => exact attemptResponses_upsert (by simpa [QuizStatement.touches] using ht) h
  | gradeResponse id' qid points feedback now =>
    have hne : id' ≠ id := by simpa [QuizStatement.touches] using ht
    rw [attemptResponses, hr]
    refine Table.filter_update fun r hk => ?_
    simp only [Bool.and_eq_true, decide_eq_true_eq] at hk
    simp [markResponse, hk.1, hne]
  | createQuiz | updateQuiz | archiveQuiz | publishQuiz | insertDelivery | insertAttempt
  | markSubmitted | writeScore | reopenAttempt | releaseResults | audit =>
    exact attemptResponses_congr hr id

/-- An attempt the statement does not touch is submitted only if it was, and is
then the row it was. -/
theorem submitted_before (h : l.run db = .ok db') (ht : l.touches id = false)
    {a : QuizAttemptRow} (ha : a ∈ db'.quizAttempts.rows) (hid : a.id = id)
    (hs : a.submittedAt.isSome = true) : a ∈ db.quizAttempts.rows := by
  have hatt := (run_effect h).attempts
  have hupdate : ∀ {id' f} {hf : Table.KeepsKeys f},
      db'.quizAttempts = db.quizAttempts.update (fun a => a.id = id') f hf → id' ≠ id →
      (∀ a, (f a).id = a.id) → a ∈ db.quizAttempts.rows := by
    intro id' f hf heq hne hfid
    rw [heq] at ha
    obtain ⟨b, hb, rfl⟩ := Table.mem_update.mp ha
    by_cases hk : b.id = id'
    · simp only [hk, decide_true, if_true, hfid] at hid
      exact absurd hid hne
    · simpa [hk] using hb
  cases l with
  | insertAttempt row =>
    rcases (Table.mem_insert hatt).mp ha with ha | rfl
    · exact ha
    · cases hs
  | markSubmitted id' now =>
    exact hupdate hatt (by simpa [QuizStatement.touches] using ht) fun _ => rfl
  | writeScore id' score missing now =>
    exact hupdate hatt (by simpa [QuizStatement.touches] using ht) fun _ => rfl
  | reopenAttempt id' now expires =>
    rw [hatt] at ha
    obtain ⟨b, hb, rfl⟩ := Table.mem_update.mp ha
    by_cases hk : b.id = id'
    · simp only [hk, decide_true, if_true] at hs
      cases hs
    · simpa [hk] using hb
  | createQuiz | updateQuiz | archiveQuiz | publishQuiz | insertDelivery | upsertResponse
  | gradeResponse | releaseResults | audit =>
    rwa [show db'.quizAttempts = db.quizAttempts from hatt] at ha

theorem settled_step (hinv : QuizLedger db) (h : l.run db = .ok db')
    (ht : l.touches id = false) (hs : Settled db id) : Settled db' id := by
  intro a ha hid hsub
  have hold := submitted_before h ht ha hid hsub
  have hr := attemptResponses_step h ht
  have hq := attemptQuestions_step hinv h hold
  rw [hid] at hq
  rw [pointsSum_congr hr, manualMissing_congr hq hr]
  exact hs a hold hid hsub

theorem QuizSound.step (hs : QuizSound db) (h : l.run db = .ok db') (hl : WellFormed l db)
    (ht : ∀ id, l.touches id = true → Settled db' id) : QuizSound db' := by
  refine ⟨ledger_step h hl hs.ledger, fun id => ?_⟩
  cases htouch : l.touches id with
  | true => exact ht id htouch
  | false => exact settled_step hs.ledger h htouch (hs.settled id)

theorem settled_writeScore {now : Time}
    (h : (QuizStatement.writeScore id (pointsSum db id) (manualMissing db id) now).run db =
      .ok db') : Settled db' id := by
  have heff := run_effect h
  have hr := attemptResponses_congr heff.responses id
  have hq := attemptQuestions_update heff.attempts heff.deliveries heff.versions.2
    (fun _ => rfl) (fun _ => rfl) id
  intro a ha hid hsub
  rw [heff.attempts] at ha
  obtain ⟨b, hb, rfl⟩ := Table.mem_update.mp ha
  rw [pointsSum_congr hr, manualMissing_congr hq hr]
  by_cases hk : b.id = id
  · simp only [hk, decide_true, if_true] at hsub ⊢
    have hbs : b.submittedAt.isSome = true := hsub
    by_cases hm : manualMissing db id = 0
    · simp [scoreAttempt, hbs, hm]
    · simp [scoreAttempt, hm]
  · simp only [hk, decide_false] at hid
    exact absurd hid hk

/-- After a statement about one attempt only, and the recalculation of that
attempt, everything is settled again. -/
theorem QuizSound.recalculated {db₁ : Database} {now : Time} (hs : QuizSound db)
    (h : l.run db = .ok db₁) (hl : WellFormed l db)
    (ht : ∀ id', id' ≠ id → l.touches id' = false)
    (h' : (QuizStatement.writeScore id (pointsSum db₁ id) (manualMissing db₁ id) now).run db₁ =
      .ok db') : QuizSound db' := by
  have hledger := ledger_step h hl hs.ledger
  refine ⟨ledger_step h' trivial hledger, fun id' => ?_⟩
  by_cases he : id' = id
  · subst he
    exact settled_writeScore h'
  · have hmid := settled_step hs.ledger h (ht id' he) (hs.settled id')
    exact settled_step hledger h' (by simpa [QuizStatement.touches] using Ne.symm he) hmid

theorem recalculateAttempt_exec (db : Database) (id : Uuid) (now : Time) :
    ∃ db', (QuizStatement.writeScore id (pointsSum db id) (manualMissing db id) now).run db =
        .ok db' ∧ (recalculateAttempt id now).exec db = (.ok (), db') :=
  ⟨_, rfl, rfl⟩

end Statements

end Cinder.Quizzes
