import Cinder.Quizzes.QuizRules
set_option autoImplicit false

/-!
What a statement that succeeds does to each table. The proofs about runs use
these effects and never unfold `QuizStatement.run`.
-/

namespace Cinder.Quizzes
open Cinder.Host Cinder.Storage Cinder.Programs

def AttemptsEffect (db db' : Database) : QuizStatement → Prop
  | .insertAttempt row => db.quizAttempts.insert (newAttempt row) = some db'.quizAttempts
  | .markSubmitted id now => db'.quizAttempts =
      db.quizAttempts.update (fun a => a.id = id) (markAttempt now) (markAttempt_keeps now)
  | .writeScore id score missing now => db'.quizAttempts =
      db.quizAttempts.update (fun a => a.id = id) (scoreAttempt now score missing)
        (scoreAttempt_keeps now score missing)
  | .reopenAttempt id now expires => db'.quizAttempts =
      db.quizAttempts.update (fun a => a.id = id) (clearAttempt now expires)
        (clearAttempt_keeps now expires)
  | _ => db'.quizAttempts = db.quizAttempts

def ResponsesEffect (db db' : Database) : QuizStatement → Prop
  | .upsertResponse row => db.quizResponses.upsert
      (fun r => r.attemptId = row.attemptId && r.questionId = row.questionId)
      (overwriteResponse row) (overwriteResponse_keeps row) row = some db'.quizResponses
  | .gradeResponse id qid points feedback now => db'.quizResponses =
      db.quizResponses.update (fun r => r.attemptId = id && r.questionId = qid)
        (markResponse now points feedback) (markResponse_keeps now points feedback)
  | _ => db'.quizResponses = db.quizResponses

def DeliveriesEffect (db db' : Database) : QuizStatement → Prop
  | .insertDelivery row => db.quizDeliveries.insert (newDelivery row) = some db'.quizDeliveries
  | .releaseResults id now => db'.quizDeliveries =
      db.quizDeliveries.update (fun d => d.id = id) (releaseRow now) (releaseRow_keeps now)
  | _ => db'.quizDeliveries = db.quizDeliveries

def VersionsEffect (db db' : Database) : QuizStatement → Prop
  | .publishQuiz quiz versionId fresh now _ =>
    db.quizVersions.insert (versionRow db quiz versionId now) = some db'.quizVersions ∧
      db.quizVersionQuestions.insertAll (versionQuestionRows quiz versionId fresh) =
        some db'.quizVersionQuestions
  | _ => db'.quizVersions = db.quizVersions ∧
      db'.quizVersionQuestions = db.quizVersionQuestions

structure QuizEffect (l : QuizStatement) (db db' : Database) : Prop where
  attempts : AttemptsEffect db db' l
  responses : ResponsesEffect db db' l
  deliveries : DeliveriesEffect db db' l
  versions : VersionsEffect db db' l

theorem run_effect {l : QuizStatement} {db db' : Database} (h : l.run db = .ok db') :
    QuizEffect l db db' := by
  cases l with
  | createQuiz quiz questions fresh entry =>
    obtain ⟨_, _, h⟩ := bind_eq_ok.mp h
    obtain ⟨_, _, h⟩ := bind_eq_ok.mp h
    cases h; exact ⟨rfl, rfl, rfl, rfl, rfl⟩
  | updateQuiz id req updatedAt fresh entry =>
    obtain ⟨_, _, h⟩ := bind_eq_ok.mp h
    cases h; exact ⟨rfl, rfl, rfl, rfl, rfl⟩
  | publishQuiz quiz versionId fresh now entry =>
    obtain ⟨t, ht, h⟩ := bind_eq_ok.mp h
    obtain ⟨t', ht', h⟩ := bind_eq_ok.mp h
    cases h; exact ⟨rfl, rfl, rfl, stored_eq_ok.mp ht, stored_eq_ok.mp ht'⟩
  | insertDelivery row =>
    obtain ⟨t, ht, h⟩ := bind_eq_ok.mp h
    cases h; exact ⟨rfl, rfl, stored_eq_ok.mp ht, rfl, rfl⟩
  | insertAttempt row =>
    obtain ⟨t, ht, h⟩ := bind_eq_ok.mp h
    cases h; exact ⟨stored_eq_ok.mp ht, rfl, rfl, rfl, rfl⟩
  | upsertResponse row =>
    obtain ⟨t, ht, h⟩ := bind_eq_ok.mp h
    cases h; exact ⟨rfl, stored_eq_ok.mp ht, rfl, rfl, rfl⟩
  | archiveQuiz | markSubmitted | writeScore | reopenAttempt | gradeResponse | releaseResults
  | audit => cases h; exact ⟨rfl, rfl, rfl, rfl, rfl⟩

section Rows
variable {l : QuizStatement} {db db' : Database}

def SameAttempt (a a' : QuizAttemptRow) : Prop :=
  a'.id = a.id ∧ a'.deliveryId = a.deliveryId ∧ a'.studentId = a.studentId ∧
    a'.maxPoints = a.maxPoints

def SameDelivery (d d' : QuizDeliveryRow) : Prop :=
  d'.id = d.id ∧ d'.versionId = d.versionId

theorem mem_update_same {Row : Type} [Keyed Row] {t t' : Table Row} {p : Row → Bool}
    {f : Row → Row} {hf : Table.KeepsKeys f} {Same : Row → Row → Prop}
    (ht : t' = t.update p f hf) (hrefl : ∀ r, Same r r) (hsame : ∀ r, Same r (f r)) :
    (∀ r' ∈ t'.rows, ∃ r ∈ t.rows, Same r r') ∧ ∀ r ∈ t.rows, ∃ r' ∈ t'.rows, Same r r' := by
  have hif : ∀ r, Same r (if p r then f r else r) := fun r => by
    split
    · exact hsame r
    · exact hrefl r
  subst ht
  constructor
  · intro r' hr'
    obtain ⟨r, hr, rfl⟩ := Table.mem_update.mp hr'
    exact ⟨r, hr, hif r⟩
  · exact fun r hr => ⟨_, Table.mem_update.mpr ⟨r, hr, rfl⟩, hif r⟩

theorem sameAttempt_refl (a : QuizAttemptRow) : SameAttempt a a := ⟨rfl, rfl, rfl, rfl⟩

theorem sameDelivery_refl (d : QuizDeliveryRow) : SameDelivery d d := ⟨rfl, rfl⟩

theorem run_attempts_rows (h : l.run db = .ok db') :
    (∀ a' ∈ db'.quizAttempts.rows, (∃ a ∈ db.quizAttempts.rows, SameAttempt a a') ∨
      ∃ row, l = .insertAttempt row ∧ a' = newAttempt row) ∧
    ∀ a ∈ db.quizAttempts.rows, ∃ a' ∈ db'.quizAttempts.rows, SameAttempt a a' := by
  have ha := (run_effect h).attempts
  have hold : ∀ t : Table QuizAttemptRow, db'.quizAttempts = t → t = db.quizAttempts →
      (∀ a' ∈ db'.quizAttempts.rows, (∃ a ∈ db.quizAttempts.rows, SameAttempt a a') ∨
        ∃ row, l = .insertAttempt row ∧ a' = newAttempt row) ∧
      ∀ a ∈ db.quizAttempts.rows, ∃ a' ∈ db'.quizAttempts.rows, SameAttempt a a' := by
    rintro _ rfl ht
    rw [ht]
    exact ⟨fun a hm => .inl ⟨a, hm, sameAttempt_refl a⟩, fun a hm => ⟨a, hm, sameAttempt_refl a⟩⟩
  have hupdate : ∀ {id f} {hf : Table.KeepsKeys f},
      db'.quizAttempts = db.quizAttempts.update (fun a => a.id = id) f hf →
      (∀ a, SameAttempt a (f a)) →
      (∀ a' ∈ db'.quizAttempts.rows, (∃ a ∈ db.quizAttempts.rows, SameAttempt a a') ∨
        ∃ row, l = .insertAttempt row ∧ a' = newAttempt row) ∧
      ∀ a ∈ db.quizAttempts.rows, ∃ a' ∈ db'.quizAttempts.rows, SameAttempt a a' := by
    intro id f hf ht hsame
    obtain ⟨hback, hforth⟩ := mem_update_same ht sameAttempt_refl hsame
    exact ⟨fun a' hm => .inl (hback a' hm), hforth⟩
  cases l with
  | insertAttempt row =>
    refine ⟨fun a' hm => ?_, fun a hm => ⟨a, (Table.mem_insert ha).mpr (.inl hm),
      sameAttempt_refl a⟩⟩
    rcases (Table.mem_insert ha).mp hm with hm | rfl
    · exact .inl ⟨a', hm, sameAttempt_refl a'⟩
    · exact .inr ⟨row, rfl, rfl⟩
  | markSubmitted id now => exact hupdate ha sameAttempt_refl
  | writeScore id score missing now => exact hupdate ha sameAttempt_refl
  | reopenAttempt id now expires => exact hupdate ha sameAttempt_refl
  | createQuiz | updateQuiz | archiveQuiz | publishQuiz | insertDelivery | upsertResponse
  | gradeResponse | releaseResults | audit => exact hold _ ha rfl

theorem run_deliveries_rows (h : l.run db = .ok db') :
    (∀ d' ∈ db'.quizDeliveries.rows, (∃ d ∈ db.quizDeliveries.rows, SameDelivery d d') ∨
      ∃ row, l = .insertDelivery row ∧ d' = newDelivery row) ∧
    ∀ d ∈ db.quizDeliveries.rows, ∃ d' ∈ db'.quizDeliveries.rows, SameDelivery d d' := by
  have hd := (run_effect h).deliveries
  cases l with
  | insertDelivery row =>
    refine ⟨fun d' hm => ?_, fun d hm => ⟨d, (Table.mem_insert hd).mpr (.inl hm),
      sameDelivery_refl d⟩⟩
    rcases (Table.mem_insert hd).mp hm with hm | rfl
    · exact .inl ⟨d', hm, sameDelivery_refl d'⟩
    · exact .inr ⟨row, rfl, rfl⟩
  | releaseResults id now =>
    obtain ⟨hback, hforth⟩ := mem_update_same hd sameDelivery_refl sameDelivery_refl
    exact ⟨fun d' hm => .inl (hback d' hm), hforth⟩
  | createQuiz | updateQuiz | archiveQuiz | publishQuiz | insertAttempt | upsertResponse
  | markSubmitted | writeScore | reopenAttempt | gradeResponse | audit =>
    have hsame : db'.quizDeliveries = db.quizDeliveries := hd
    rw [hsame]
    exact ⟨fun d hm => .inl ⟨d, hm, sameDelivery_refl d⟩,
      fun d hm => ⟨d, hm, sameDelivery_refl d⟩⟩

theorem run_versions_rows (h : l.run db = .ok db') :
    (∀ v ∈ db'.quizVersions.rows, v ∈ db.quizVersions.rows ∨ ∃ quiz versionId fresh now entry,
      l = .publishQuiz quiz versionId fresh now entry ∧ v = versionRow db quiz versionId now) ∧
    ∀ v ∈ db.quizVersions.rows, v ∈ db'.quizVersions.rows := by
  have hv := (run_effect h).versions
  cases l with
  | publishQuiz quiz versionId fresh now entry =>
    refine ⟨fun v hm => ?_, fun v hm => (Table.mem_insert hv.1).mpr (.inl hm)⟩
    rcases (Table.mem_insert hv.1).mp hm with hm | rfl
    · exact .inl hm
    · exact .inr ⟨quiz, versionId, fresh, now, entry, rfl, rfl⟩
  | createQuiz | updateQuiz | archiveQuiz | insertDelivery | insertAttempt | upsertResponse
  | markSubmitted | writeScore | reopenAttempt | gradeResponse | releaseResults | audit =>
    have hsame : db'.quizVersions = db.quizVersions := hv.1
    rw [hsame]
    exact ⟨fun v hm => .inl hm, fun v hm => hm⟩

theorem run_questions_rows (h : l.run db = .ok db') :
    (∀ q ∈ db'.quizVersionQuestions.rows, q ∈ db.quizVersionQuestions.rows ∨
      ∃ quiz versionId fresh now entry, l = .publishQuiz quiz versionId fresh now entry ∧
        q ∈ versionQuestionRows quiz versionId fresh) ∧
    ∀ q ∈ db.quizVersionQuestions.rows, q ∈ db'.quizVersionQuestions.rows := by
  have hv := (run_effect h).versions
  cases l with
  | publishQuiz quiz versionId fresh now entry =>
    refine ⟨fun q hm => ?_, fun q hm => (Table.mem_insertAll hv.2).mpr (.inl hm)⟩
    rcases (Table.mem_insertAll hv.2).mp hm with hm | hm
    · exact .inl hm
    · exact .inr ⟨quiz, versionId, fresh, now, entry, rfl, hm⟩
  | createQuiz | updateQuiz | archiveQuiz | insertDelivery | insertAttempt | upsertResponse
  | markSubmitted | writeScore | reopenAttempt | gradeResponse | releaseResults | audit =>
    have hsame : db'.quizVersionQuestions = db.quizVersionQuestions := hv.2
    rw [hsame]
    exact ⟨fun q hm => .inl hm, fun q hm => hm⟩

theorem run_responses_rows (h : l.run db = .ok db') :
    ∀ r' ∈ db'.quizResponses.rows, r' ∈ db.quizResponses.rows ∨
      (∃ row, l = .upsertResponse row ∧ r'.attemptId = row.attemptId ∧
        r'.questionId = row.questionId ∧ r'.points = row.points ∧ r'.gradedAt = row.gradedAt) ∨
      ∃ id qid points feedback now, l = .gradeResponse id qid points feedback now ∧
        ∃ r ∈ db.quizResponses.rows, r.attemptId = id ∧ r.questionId = qid ∧
          r' = markResponse now points feedback r := by
  have hr := (run_effect h).responses
  cases l with
  | upsertResponse row =>
    intro r' hm
    rcases Table.upsert_cases hr with ⟨-, ht⟩ | ⟨-, hins⟩
    · rw [ht] at hm
      obtain ⟨r, hr, rfl⟩ := Table.mem_update.mp hm
      split
      · rename_i hk
        simp only [Bool.and_eq_true, decide_eq_true_eq] at hk
        exact .inr (.inl ⟨row, rfl, hk.1, hk.2, rfl, rfl⟩)
      · exact .inl hr
    · rcases (Table.mem_insert hins).mp hm with hm | rfl
      · exact .inl hm
      · exact .inr (.inl ⟨r', rfl, rfl, rfl, rfl, rfl⟩)
  | gradeResponse id qid points feedback now =>
    intro r' hm
    rw [hr] at hm
    obtain ⟨r, hr, rfl⟩ := Table.mem_update.mp hm
    split
    · rename_i hk
      simp only [Bool.and_eq_true, decide_eq_true_eq] at hk
      exact .inr (.inr ⟨id, qid, points, feedback, now, rfl, r, hr, hk.1, hk.2, rfl⟩)
    · exact .inl hr
  | createQuiz | updateQuiz | archiveQuiz | publishQuiz | insertDelivery | insertAttempt
  | markSubmitted | writeScore | reopenAttempt | releaseResults | audit =>
    have hsame : db'.quizResponses = db.quizResponses := hr
    rw [hsame]
    exact fun r hm => .inl hm

end Rows

section Counts
variable {db db' : Database} {id : Uuid}

theorem attemptResponses_congr (h : db'.quizResponses = db.quizResponses) (id : Uuid) :
    attemptResponses db' id = attemptResponses db id := by
  rw [attemptResponses, h, attemptResponses]

theorem attemptResponses_upsert {row : QuizResponseRow} (hne : row.attemptId ≠ id)
    (h : (QuizStatement.upsertResponse row).run db = .ok db') :
    attemptResponses db' id = attemptResponses db id := by
  unfold attemptResponses
  rcases Table.upsert_cases (run_effect h).responses with ⟨-, ht⟩ | ⟨-, hins⟩
  · rw [ht]
    refine Table.filter_update fun r hr => ?_
    simp only [Bool.and_eq_true, decide_eq_true_eq] at hr
    simp [overwriteResponse, hr.1, hne]
  · simp [Table.rows_insert hins, hne]

theorem attemptQuestions_update {f : QuizAttemptRow → QuizAttemptRow}
    {hf : Table.KeepsKeys f} {p : QuizAttemptRow → Bool}
    (ha : db'.quizAttempts = db.quizAttempts.update p f hf)
    (hd : db'.quizDeliveries = db.quizDeliveries)
    (hq : db'.quizVersionQuestions = db.quizVersionQuestions)
    (hid : ∀ a, (f a).id = a.id) (hdel : ∀ a, (f a).deliveryId = a.deliveryId) (id : Uuid) :
    attemptQuestions db' id = attemptQuestions db id := by
  have hfind : (db.quizAttempts.update p f hf).find? (fun a => a.id = id) =
      (db.quizAttempts.find? fun a => a.id = id).map fun a => if p a then f a else a :=
    Table.find?_update fun a => by rw [hid]
  unfold attemptQuestions attemptDelivery? attempt? delivery? versionQuestions
  rw [ha, hd, hq, hfind]
  cases db.quizAttempts.find? fun a => a.id = id with
  | none => rfl
  | some a =>
    have hda : (if p a then f a else a).deliveryId = a.deliveryId := by
      split
      · exact hdel a
      · rfl
    simp only [Option.map_some, Option.bind_some, hda]
    cases db.quizDeliveries.find? fun d => d.id = a.deliveryId <;> rfl

theorem missingRequired_congr (hq : attemptQuestions db' id = attemptQuestions db id)
    (hr : attemptResponses db' id = attemptResponses db id) :
    missingRequired db' id = missingRequired db id := by
  rw [missingRequired, hq, hr, missingRequired]

theorem pointsSum_congr (hr : attemptResponses db' id = attemptResponses db id) :
    pointsSum db' id = pointsSum db id := by
  rw [pointsSum, hr, pointsSum]

theorem manualMissing_congr (hq : attemptQuestions db' id = attemptQuestions db id)
    (hr : attemptResponses db' id = attemptResponses db id) :
    manualMissing db' id = manualMissing db id := by
  rw [manualMissing, hq, hr, manualMissing]

end Counts

end Cinder.Quizzes
