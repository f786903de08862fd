import Cinder.Quizzes.QuizEffects
import Cinder.Quizzes.QuizLoading
import Mathlib.Algebra.BigOperators.Group.List.Basic
import Mathlib.Algebra.Order.BigOperators.Group.List
import Mathlib.Tactic.Linarith
set_option autoImplicit false

/-!
What the quiz tables always satisfy: every row refers to rows that are there,
totals are the sums of what they count, and points stay within their bounds.
-/

namespace Cinder.Quizzes
open Cinder.Host Cinder.Storage Cinder.Programs

/-- Items with different keys, each worth at most the entry of its key, add up
to at most the sum of all entries. -/
theorem sum_le_of_matched {α β κ : Type} (f : α → κ) (g : β → κ) (v : α → ℚ) (m : β → ℚ)
    {xs : List α} {ys : List β} (hkeys : xs.Pairwise fun x x' => f x ≠ f x')
    (hmatch : ∀ x ∈ xs, ∃ y ∈ ys, g y = f x ∧ v x ≤ m y) (hpos : ∀ y ∈ ys, 0 ≤ m y) :
    (xs.map v).sum ≤ (ys.map m).sum := by
  induction xs generalizing ys with
  | nil => simpa using List.sum_nonneg (by simpa using hpos)
  | cons x xs ih =>
    obtain ⟨hx, hrest⟩ := List.pairwise_cons.mp hkeys
    obtain ⟨y, hy, hgy, hvy⟩ := hmatch x List.mem_cons_self
    obtain ⟨l, r, rfl⟩ := List.append_of_mem hy
    have hothers : (xs.map v).sum ≤ ((l ++ r).map m).sum := by
      refine ih hrest (fun x' hx' => ?_) fun y' hy' => hpos y' ?_
      · obtain ⟨y', hy', hgy', hvy'⟩ := hmatch x' (List.mem_cons_of_mem _ hx')
        have hne : y' ≠ y := fun he => hx x' hx' (by rw [← hgy, ← hgy', he])
        exact ⟨y', by simpa [hne] using hy', hgy', hvy'⟩
      · have := List.mem_append.mp hy'
        simp only [List.mem_append, List.mem_cons]
        tauto
    simp only [List.map_append, List.map_cons, List.sum_append, List.sum_cons] at hothers ⊢
    linarith

/-- The row refers to an attempt, and to a question of the attempt's version.
Its points are within the question's, and are set when it is graded. -/
structure ResponseBacked (db : Database) (attemptId questionId : Uuid) (points : Option ℚ)
    (gradedAt : Option Time) : Prop where
  question : ∃ a ∈ db.quizAttempts.rows, ∃ d ∈ db.quizDeliveries.rows,
    ∃ q ∈ db.quizVersionQuestions.rows, a.id = attemptId ∧ d.id = a.deliveryId ∧
      q.id = questionId ∧ q.versionId = d.versionId ∧ ∀ p ∈ points, 0 ≤ p ∧ p ≤ q.maxPoints
  graded : gradedAt.isSome = points.isSome

structure QuizLedger (db : Database) : Prop where
  total : ∀ v ∈ db.quizVersions.rows,
    v.totalPoints = ((versionQuestions db v.id).map fun q => q.maxPoints).sum
  version : ∀ q ∈ db.quizVersionQuestions.rows, ∃ v ∈ db.quizVersions.rows, v.id = q.versionId
  positive : ∀ q ∈ db.quizVersionQuestions.rows, 0 < q.maxPoints
  delivery : ∀ d ∈ db.quizDeliveries.rows, ∃ v ∈ db.quizVersions.rows, v.id = d.versionId
  attempt : ∀ a ∈ db.quizAttempts.rows, ∃ d ∈ db.quizDeliveries.rows,
    ∃ v ∈ db.quizVersions.rows, d.id = a.deliveryId ∧ v.id = d.versionId ∧
      a.maxPoints = v.totalPoints
  response : ∀ r ∈ db.quizResponses.rows,
    ResponseBacked db r.attemptId r.questionId r.points r.gradedAt

/-- What the handlers have checked of the values they write. -/
def WellFormed (l : QuizStatement) (db : Database) : Prop :=
  match l with
  | .publishQuiz quiz .. => ∀ q ∈ quiz.questions, 0 < q.maxPoints
  | .insertDelivery row => ∃ v ∈ db.quizVersions.rows, v.id = row.versionId
  | .insertAttempt row => ∃ d ∈ db.quizDeliveries.rows, ∃ v ∈ db.quizVersions.rows,
      d.id = row.deliveryId ∧ v.id = d.versionId ∧ row.maxPoints = v.totalPoints
  | .upsertResponse row => ResponseBacked db row.attemptId row.questionId row.points row.gradedAt
  | .gradeResponse _ qid points _ _ => ∀ q ∈ db.quizVersionQuestions.rows, q.id = qid →
      0 ≤ points ∧ points ≤ q.maxPoints
  | _ => True

section Statements
variable {l : QuizStatement} {db db' : Database}

theorem ResponseBacked.mono {aid qid : Uuid} {points : Option ℚ} {gradedAt : Option Time}
    (h : l.run db = .ok db') (hb : ResponseBacked db aid qid points gradedAt) :
    ResponseBacked db' aid qid points gradedAt := by
  obtain ⟨⟨a, ha, d, hd, q, hq, rfl, hda, hqid, hqv, hp⟩, hgraded⟩ := hb
  obtain ⟨a', ha', haid, hadel, -, -⟩ := (run_attempts_rows h).2 a ha
  obtain ⟨d', hd', hdid, hdv⟩ := (run_deliveries_rows h).2 d hd
  have hq' := (run_questions_rows h).2 q hq
  exact ⟨⟨a', ha', d', hd', q, hq', haid, by rw [hdid, hda, hadel], hqid, by rw [hdv, hqv], hp⟩,
    hgraded⟩

theorem versionQuestionRows_version {quiz : Quiz} {versionId : Uuid} {fresh : Nat → Uuid}
    {q : QuizVersionQuestionRow} (h : q ∈ versionQuestionRows quiz versionId fresh) :
    q.versionId = versionId ∧ ∃ q' ∈ quiz.questions, q.maxPoints = q'.maxPoints := by
  obtain ⟨i, hi, rfl⟩ := List.mem_mapIdx.mp h
  exact ⟨rfl, quiz.questions[i], List.getElem_mem hi, rfl⟩

theorem versionQuestionRows_sum (quiz : Quiz) (versionId : Uuid) (fresh : Nat → Uuid) :
    ((versionQuestionRows quiz versionId fresh).map fun q => q.maxPoints) =
      quiz.questions.map fun q => q.maxPoints := by
  refine List.ext_getElem (by simp [versionQuestionRows]) fun i hi hi' => ?_
  simp [versionQuestionRows]

theorem versionQuestions_step (h : l.run db = .ok db') {v : QuizVersionRow}
    (hv : v ∈ db.quizVersions.rows) :
    versionQuestions db' v.id = versionQuestions db v.id := by
  have hver := (run_effect h).versions
  cases l with
  | publishQuiz quiz versionId fresh now entry =>
    have hne : v.id ≠ versionId := by
      have hclash := Table.clash_insert hver.1 hv
      simp only [Keyed.clash, Bool.or_eq_false_iff, decide_eq_false_iff_not] at hclash
      exact hclash.1
    unfold versionQuestions
    rw [Table.rows_insertAll hver.2, List.filter_append, List.append_right_eq_self,
      List.filter_eq_nil_iff]
    intro q hq
    simpa [(versionQuestionRows_version hq).1] using Ne.symm hne
  | createQuiz | updateQuiz | archiveQuiz | insertDelivery | insertAttempt | upsertResponse
  | markSubmitted | writeScore | reopenAttempt | gradeResponse | releaseResults | audit =>
    have hsame : db'.quizVersionQuestions = db.quizVersionQuestions := hver.2
    rw [versionQuestions, hsame, versionQuestions]

theorem published_total {quiz : Quiz} {versionId : Uuid} {fresh : Nat → Uuid} {now : Time}
    {entry : QuizAuditRow}
    (hversion : ∀ q ∈ db.quizVersionQuestions.rows, ∃ v ∈ db.quizVersions.rows, v.id = q.versionId)
    (h : (QuizStatement.publishQuiz quiz versionId fresh now entry).run db = .ok db') :
    (versionRow db quiz versionId now).totalPoints =
      ((versionQuestions db' versionId).map fun q => q.maxPoints).sum := by
  have hver := (run_effect h).versions
  have hnone : (db.quizVersionQuestions.rows.filter fun q => q.versionId = versionId) = [] := by
    rw [List.filter_eq_nil_iff]
    intro q hq hid
    obtain ⟨v, hv, hvq⟩ := hversion q hq
    have hclash := Table.clash_insert hver.1 hv
    simp only [decide_eq_true_eq] at hid
    simp [Keyed.clash, versionRow, hvq, hid] at hclash
  have hall : ((versionQuestionRows quiz versionId fresh).filter
      fun q => q.versionId = versionId) = versionQuestionRows quiz versionId fresh := by
    rw [List.filter_eq_self]
    intro q hq
    simpa using (versionQuestionRows_version hq).1
  rw [versionQuestions, Table.rows_insertAll hver.2, List.filter_append, hnone, hall,
    List.nil_append, versionQuestionRows_sum]
  rfl

theorem total_step (h : l.run db = .ok db')
    (hversion : ∀ q ∈ db.quizVersionQuestions.rows, ∃ v ∈ db.quizVersions.rows, v.id = q.versionId)
    (htotal : ∀ v ∈ db.quizVersions.rows,
      v.totalPoints = ((versionQuestions db v.id).map fun q => q.maxPoints).sum) :
    ∀ v ∈ db'.quizVersions.rows,
      v.totalPoints = ((versionQuestions db' v.id).map fun q => q.maxPoints).sum := by
  intro v hv
  rcases (run_versions_rows h).1 v hv with hv | ⟨quiz, versionId, fresh, now, entry, rfl, rfl⟩
  · rw [versionQuestions_step h hv]
    exact htotal v hv
  · exact published_total hversion h

theorem question_step (h : l.run db = .ok db')
    (hversion : ∀ q ∈ db.quizVersionQuestions.rows, ∃ v ∈ db.quizVersions.rows, v.id = q.versionId) :
    ∀ q ∈ db'.quizVersionQuestions.rows, ∃ v ∈ db'.quizVersions.rows, v.id = q.versionId := by
  intro q hq
  rcases (run_questions_rows h).1 q hq with hq | ⟨quiz, versionId, fresh, now, entry, rfl, hq⟩
  · obtain ⟨v, hv, hvq⟩ := hversion q hq
    exact ⟨v, (run_versions_rows h).2 v hv, hvq⟩
  · refine ⟨versionRow db quiz versionId now, ?_, (versionQuestionRows_version hq).1.symm⟩
    exact (Table.mem_insert (run_effect h).versions.1).mpr (.inr rfl)

theorem ledger_step (h : l.run db = .ok db') (hl : WellFormed l db) (hinv : QuizLedger db) :
    QuizLedger db' := by
  have hvers := run_versions_rows h
  have hques := run_questions_rows h
  have hdels := run_deliveries_rows h
  have hatts := run_attempts_rows h
  refine ⟨total_step h hinv.version hinv.total, question_step h hinv.version, fun q hq => ?_,
    fun d hd => ?_, fun a ha => ?_, fun r hr => ?_⟩
  · rcases hques.1 q hq with hq | ⟨quiz, versionId, fresh, now, entry, rfl, hq⟩
    · exact hinv.positive q hq
    · obtain ⟨-, q', hq', hmax⟩ := versionQuestionRows_version hq
      rw [hmax]
      exact hl q' hq'
  · rcases hdels.1 d hd with ⟨d₀, hd₀, -, hversion⟩ | ⟨row, rfl, rfl⟩
    · obtain ⟨v, hv, hvd⟩ := hinv.delivery d₀ hd₀
      exact ⟨v, hvers.2 v hv, by rw [hvd, hversion]⟩
    · obtain ⟨v, hv, hvd⟩ := hl
      exact ⟨v, hvers.2 v hv, hvd⟩
  · have hkept : ∀ {deliveryId maxPoints}, (∃ d ∈ db.quizDeliveries.rows,
        ∃ v ∈ db.quizVersions.rows, d.id = deliveryId ∧ v.id = d.versionId ∧
          maxPoints = v.totalPoints) → ∃ d ∈ db'.quizDeliveries.rows,
        ∃ v ∈ db'.quizVersions.rows, d.id = deliveryId ∧ v.id = d.versionId ∧
          maxPoints = v.totalPoints := by
      rintro _ _ ⟨d, hd, v, hv, rfl, hvd, hmax⟩
      obtain ⟨d', hd', hid, hversion⟩ := hdels.2 d hd
      exact ⟨d', hd', v, hvers.2 v hv, hid, by rw [hvd, hversion], hmax⟩
    rcases hatts.1 a ha with ⟨a₀, ha₀, -, hdel, -, hmax⟩ | ⟨row, rfl, rfl⟩
    · rw [hdel, hmax]
      exact hkept (hinv.attempt a₀ ha₀)
    · exact hkept hl
  · rcases run_responses_rows h r hr with hr | ⟨row, rfl, ha, hq, hp, hg⟩ |
      ⟨id, qid, points, feedback, now, rfl, r₀, hr₀, rfl, rfl, rfl⟩
    · exact (hinv.response r hr).mono h
    · rw [ha, hq, hp, hg]
      exact ResponseBacked.mono h hl
    · have hold := (hinv.response r₀ hr₀).mono h
      obtain ⟨a, ha, d, hd, q, hq, haid, hdid, hqid, hqv, -⟩ := hold.question
      refine ⟨⟨a, ha, d, hd, q, hq, haid, hdid, hqid, hqv, fun p hp => ?_⟩, rfl⟩
      cases hp
      exact hl q (by rwa [show db'.quizVersionQuestions = _ from (run_effect h).versions.2] at hq)
        hqid

end Statements

end Cinder.Quizzes
