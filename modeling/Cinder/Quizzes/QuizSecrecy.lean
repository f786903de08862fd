import Cinder.Quizzes.QuizHandlers
import Cinder.Quizzes.QuizView
set_option autoImplicit false

/-!
Two runs of a student's requests from databases that differ only in what is
hidden from the student: keys before release, and other people's results.
-/

namespace Cinder.Quizzes
open Cinder.Host Cinder.Storage Cinder.Programs Cinder.Programs.Program

section Loaders
variable {s : Uuid} {db db' : Database} (h : SameView s db db')
include h

theorem ownAttempt_same (deliveryId : Uuid) (student : Option Uuid) :
    Agree (SameView s)
      (Option.Rel fun a a' =>
        maskAttempt (shownAttempt db s) a = maskAttempt (shownAttempt db s) a')
      (ownAttempt deliveryId student) (ownAttempt deliveryId student) db db' := by
  cases student with
  | none => exact agree_ret .none h
  | some sid => exact agree_query_bind (f := .ret) (g := .ret) (agree_ret (h.findAttempt fun _ => rfl) h)

theorem loadDelivery_same (id : Uuid) (student : Option Uuid) :
    Agree (SameView s) Eq (loadDelivery id student) (loadDelivery id student) db db' := by
  unfold loadDelivery
  refine agree_sameRow_bind h (by simp only [h.delivery?, h.version?, h.classroom?]) fun x _ => ?_
  obtain ⟨d, v, c⟩ := x
  refine agree_readOnly_bind h (ownAttempt_readOnly _ _) (ownAttempt_readOnly _ _)
    (ownAttempt_same h id student).1 fun a a' _ hm => agree_ret ?_ h
  cases hm with
  | none => rfl
  | some hm =>
    obtain ⟨score, rfl⟩ := exists_score_of_eraseScore (maskAttempt_eq _ hm).1
    rfl

/-- A response is loaded alike if its key is hidden, or if the student is shown
both the attempt and the version. -/
theorem loadResponse_same (aid qid : Uuid) (showKey : Bool)
    (hshow : showKey = true → shownAttempt db s aid = true ∧
      ∀ q ∈ db.quizVersionQuestions.rows, q.id = qid → shownVersion db s q.versionId = true) :
    Agree (SameView s) Eq (loadResponse aid qid showKey) (loadResponse aid qid showKey) db db' := by
  unfold loadResponse
  refine agree_queryRow_bind (V := fun x x' =>
      maskResponse (shownAttempt db s) x.1 = maskResponse (shownAttempt db s) x'.1 ∧
        maskQuestion (shownVersion db s) x.2 = maskQuestion (shownVersion db s) x'.2) h ?_
    fun x x' hx hm => ?_
  · have hr := find?_masked (p := fun r => r.attemptId = aid && r.questionId = qid) h.responses
      fun r => by unfold maskResponse; split <;> rfl
    have hq := find?_masked (p := fun q => q.id = qid) h.questions
      fun q => by unfold maskQuestion; split <;> rfl
    unfold response? Table.find?
    generalize db.quizResponses.rows.find? _ = r at hr
    generalize db'.quizResponses.rows.find? _ = r' at hr
    generalize db.quizVersionQuestions.rows.find? _ = q at hq
    generalize db'.quizVersionQuestions.rows.find? _ = q' at hq
    cases hr with
    | none => exact .none
    | some hr =>
      cases hq with
      | none => exact .none
      | some hq => exact .some ⟨hr, hq⟩
  · obtain ⟨r, q⟩ := x
    obtain ⟨r', q'⟩ := x'
    obtain ⟨hr, hq⟩ := hm
    obtain ⟨hrerase, hrsame⟩ := maskResponse_eq _ hr
    obtain ⟨hqerase, hqsame⟩ := maskQuestion_eq _ hq
    refine agree_ret ?_ h
    cases showKey with
    | false =>
      have hanswer := congrArg (fun r => r.answer) hrerase
      simp only [eraseResult] at hanswer
      simp [hanswer]
    | true =>
      obtain ⟨hattempt, hversion⟩ := hshow rfl
      obtain ⟨r₀, hr₀, hrest⟩ := Option.bind_eq_some_iff.mp hx
      obtain ⟨q₀, hq₀, hpair⟩ := Option.bind_eq_some_iff.mp hrest
      cases hpair
      obtain ⟨-, hra⟩ := Table.mem_of_find? hr₀
      obtain ⟨hqmem, hqid⟩ := Table.mem_of_find? hq₀
      simp only [Bool.and_eq_true, decide_eq_true_eq] at hra hqid
      obtain rfl := hrsame (by rw [hra.1]; exact hattempt)
      obtain rfl := hqsame (hversion _ hqmem hqid)
      rfl

theorem loadResponses_same (aid : Uuid) (showKey : Bool) (questions : List StudentQuizQuestion)
    (hshow : showKey = true → shownAttempt db s aid = true ∧ ∀ question ∈ questions,
      ∀ q ∈ db.quizVersionQuestions.rows, q.id = question.id →
        shownVersion db s q.versionId = true) :
    Agree (SameView s) Eq (loadResponses aid showKey questions)
      (loadResponses aid showKey questions) db db' := by
  induction questions with
  | nil => exact agree_ret rfl h
  | cons question questions ih =>
    have hrest := ih fun hk => ⟨(hshow hk).1, fun q hq => (hshow hk).2 q (by simp [hq])⟩
    have hone := loadResponse_same h aid question.id showKey fun hk =>
      ⟨(hshow hk).1, (hshow hk).2 question (by simp)⟩
    have hro := loadResponse_readOnly aid question.id showKey
    refine agree_readOnly_bind (V := Eq) h hro.outcome hro.outcome ?_ fun r r' _ hr => ?_
    · rw [exec_outcome hro, exec_outcome hro, sameOutcome_eq_iff.mp hone.1]
      rfl
    · subst hr
      match r with
      | .ok response =>
        exact agree_same_bind h (loadResponses_readOnly _ _ _) (loadResponses_readOnly _ _ _) hrest
          fun responses _ => agree_ret rfl h
      | .error (.notFound what) => exact hrest
      | .error (.badCredentials) => exact agree_fail _ h
      | .error (.unauthenticated) => exact agree_fail _ h
      | .error (.forbidden) => exact agree_fail _ h
      | .error (.badRequest message) => exact agree_fail _ h
      | .error (.rateLimited) => exact agree_fail _ h
      | .error (.conflict) => exact agree_fail _ h
      | .error (.aiUnavailable) => exact agree_fail _ h
      | .error (.database error) => exact agree_fail _ h
      | .error (.other message) => exact agree_fail _ h

/-- The row that `load_attempt` reads, up to a score. -/
theorem attemptRow_same (id : Uuid) :
    Option.Rel (fun x x' : QuizAttemptRow × QuizDeliveryRow × UserRow =>
        maskAttempt (shownAttempt db s) x.1 = maskAttempt (shownAttempt db s) x'.1 ∧ x.2 = x'.2)
      (do
        let (a, d) ← attemptDelivery? db id
        let u ← user? db a.studentId
        some (a, d, u))
      (do
        let (a, d) ← attemptDelivery? db' id
        let u ← user? db' a.studentId
        some (a, d, u)) := by
  have had := h.attemptDelivery? id
  generalize attemptDelivery? db id = x at had
  generalize attemptDelivery? db' id = x' at had
  cases had with
  | none => exact .none
  | @some x x' hx =>
    obtain ⟨hm, hd⟩ := hx
    have hstudent := congrArg (fun a => a.studentId) (maskAttempt_eq _ hm).1
    simp only [eraseScore] at hstudent
    simp only [Option.bind_eq_bind, Option.bind_some, h.user?, hstudent]
    cases user? db x'.1.studentId with
    | none => exact .none
    | some u => exact .some ⟨hm, by rw [hd]⟩

/-- A student's view of an attempt. A result in it belongs to an attempt that
is the student's own, submitted and released. -/
theorem loadAttempt_same (id : Uuid) (serverNow : Time) :
    Agree (SameView s) Eq (loadAttempt id ⟨s, .student⟩ false serverNow)
      (loadAttempt id ⟨s, .student⟩ false serverNow) db db' := by
  unfold loadAttempt
  refine agree_queryRow_bind h (attemptRow_same h id) fun x x' hx hm => ?_
  obtain ⟨a, d, u⟩ := x
  obtain ⟨a', d', u'⟩ := x'
  obtain ⟨hm, hrest⟩ := hm
  cases hrest
  obtain ⟨⟨a₀, d₀⟩, had, hrow⟩ := Option.bind_eq_some_iff.mp hx
  obtain ⟨u₀, -, hrow⟩ := Option.bind_eq_some_iff.mp hrow
  cases hrow
  obtain ⟨ha, hd⟩ := attemptDelivery?_eq_some.mp had
  obtain ⟨-, haid⟩ := Table.mem_of_find? ha
  simp only [decide_eq_true_eq] at haid
  obtain ⟨herase, hshown⟩ := maskAttempt_eq _ hm
  obtain ⟨score, rfl⟩ := exists_score_of_eraseScore herase
  refine agree_same_bind h (loadDelivery_readOnly _ _) (loadDelivery_readOnly _ _)
    (loadDelivery_same h _ _) fun delivery hdelivery => ?_
  obtain ⟨d₁, v, hd₁, -, hversion, -⟩ := loadDelivery_ok hdelivery
  rw [hd] at hd₁
  cases hd₁
  refine agree_require_bind h Iff.rfl fun howner => agree_query_bind ?_
  rw [h.studentQuestions]
  have hkey : (d.resultsReleasedAt.isSome && a.submittedAt.isSome || false) = true →
      shownAttempt db s id = true ∧ shownVersion db s d.versionId = true := fun hk => by
    simp only [Bool.or_false, Bool.and_eq_true] at hk
    exact shown_of_submitted had howner hk.2 hk.1
  have hresponses := loadResponses_same h id
    (d.resultsReleasedAt.isSome && a.submittedAt.isSome || false)
    (studentQuestions db delivery.versionId) fun hk => ⟨(hkey hk).1, fun question hq q hmem hid => by
      rw [versionId_of_studentQuestion hq hmem hid, hversion]
      exact (hkey hk).2⟩
  refine agree_same_bind h (loadResponses_readOnly _ _ _) (loadResponses_readOnly _ _ _)
    hresponses fun responses _ => agree_ret ?_ h
  cases hk : d.resultsReleasedAt.isSome && a.submittedAt.isSome || false with
  | false => simp only [Bool.false_eq_true, if_false]
  | true =>
    have hsame := hshown (by rw [haid]; exact (hkey hk).1)
    obtain rfl : a.score = score := congrArg (fun a => a.score) hsame
    rfl

theorem loadDeliveries_same (student : Option Uuid) (ids : List Uuid) :
    Agree (SameView s) Eq (loadDeliveries student ids) (loadDeliveries student ids) db db' := by
  induction ids with
  | nil => exact agree_ret rfl h
  | cons id ids ih =>
    exact agree_same_bind h (loadDelivery_readOnly _ _) (loadDelivery_readOnly _ _)
      (loadDelivery_same h id student) fun delivery _ =>
        agree_same_bind h (loadDeliveries_readOnly _ _) (loadDeliveries_readOnly _ _) ih
          fun deliveries _ => agree_ret rfl h

theorem activeLiveDeadline_same (deliveryId studentId : Uuid) (now : Time) :
    Agree (SameView s) Eq (activeLiveDeadline deliveryId studentId now)
      (activeLiveDeadline deliveryId studentId now) db db' := by
  have hsessions : db'.liveModuleSessions = db.liveModuleSessions :=
    congrArg (fun db => db.liveModuleSessions) h.frame
  have hparticipants : db'.liveModuleParticipants = db.liveModuleParticipants :=
    congrArg (fun db => db.liveModuleParticipants) h.frame
  unfold activeLiveDeadline
  refine agree_sameRow_bind h (by simp only [h.delivery?, hsessions, hparticipants]) fun x _ => ?_
  obtain ⟨kind, session, joined⟩ := x
  dsimp only
  split
  · exact agree_ret rfl h
  · refine agree_require_bind h Iff.rfl fun _ => ?_
    cases session with
    | none => exact agree_fail _ h
    | some session => exact agree_require_bind h Iff.rfl fun _ => agree_ret rfl h

theorem ensureAttemptWritable_same (id sid : Uuid) (now : Time) :
    Agree (SameView s) Eq (ensureAttemptWritable id sid now) (ensureAttemptWritable id sid now)
      db db' := by
  unfold ensureAttemptWritable
  refine agree_queryRow_bind h (h.attemptDelivery? id) fun x x' _ hm => ?_
  obtain ⟨a, d⟩ := x
  obtain ⟨a', d'⟩ := x'
  obtain ⟨hm, hd⟩ := hm
  cases hd
  obtain ⟨score, rfl⟩ := exists_score_of_eraseScore (maskAttempt_eq _ hm).1
  refine agree_require_bind h Iff.rfl fun _ => agree_require_bind h Iff.rfl fun _ => ?_
  refine agree_same_bind h (activeLiveDeadline_readOnly _ _ _) (activeLiveDeadline_readOnly _ _ _)
    (activeLiveDeadline_same h _ _ _) fun _ _ => ?_
  unfold require
  split
  · exact agree_ret rfl h
  · exact agree_fail _ h

theorem questionKey_same (aid qid : Uuid) :
    SameOutcome (fun k k' : QuizQuestionKind × Json × ℚ => k.1 = k'.1 ∧ k.2.2 = k'.2.2)
      ((questionKey aid qid).exec db).1 ((questionKey aid qid).exec db').1 := by
  refine sameOutcome_queryRow ?_
  have had := h.attemptDelivery? aid
  generalize attemptDelivery? db aid = x at had
  generalize attemptDelivery? db' aid = x' at had
  cases had with
  | none => exact .none
  | @some x x' hx =>
    obtain ⟨a, d⟩ := x
    obtain ⟨a', d'⟩ := x'
    obtain rfl : d = d' := hx.2
    have hq := find?_masked (p := fun q => q.id = qid && q.versionId = d.versionId) h.questions
      fun q => by unfold maskQuestion; split <;> rfl
    simp only [Option.bind_eq_bind, Option.bind_some, Table.find?]
    generalize db.quizVersionQuestions.rows.find? _ = q at hq
    generalize db'.quizVersionQuestions.rows.find? _ = q' at hq
    cases hq with
    | none => exact .none
    | some hq =>
      have herase := (maskQuestion_eq _ hq).1
      exact .some ⟨congrArg (fun q => q.kind) herase, congrArg (fun q => q.maxPoints) herase⟩

end Loaders

section Writes
variable {s : Uuid} {db db' : Database} (h : SameView s db db')
include h

theorem insertAttempt_same (row : QuizAttemptRow) :
    SameOutcome (SameView s) ((QuizStatement.insertAttempt row).run db)
      ((QuizStatement.insertAttempt row).run db') := by
  have hrel := insert_masked (maskAttempt_keeps _) h.attempts
    (Eq.refl (maskAttempt (shownAttempt db s) (newAttempt row)))
  simp only [QuizStatement.run]
  cases hi : db.quizAttempts.insert (newAttempt row) with
  | none =>
    cases hi' : db'.quizAttempts.insert (newAttempt row) with
    | none => rfl
    | some t' => simp [hi, hi'] at hrel
  | some t =>
    cases hi' : db'.quizAttempts.insert (newAttempt row) with
    | none => simp [hi, hi'] at hrel
    | some t' =>
      rw [hi, hi'] at hrel
      have hmasked : Masked (maskAttempt (shownAttempt db s)) t.rows t'.rows := by
        cases hrel with
        | some hm => exact hm
      refine h.withAttempts hmasked ?_ ?_
      · funext id
        simp [shownAttempt, Table.rows_insert hi, newAttempt]
      · funext versionId
        simp [shownVersion, Table.rows_insert hi, newAttempt]

theorem upsertResponse_same {row row' : QuizResponseRow} (herase : eraseResult row = eraseResult row')
    (hopen : shownAttempt db s row.attemptId = false) :
    SameOutcome (SameView s) ((QuizStatement.upsertResponse row).run db)
      ((QuizStatement.upsertResponse row').run db') := by
  have hattempt := congrArg (fun r => r.attemptId) herase
  have hquestion := congrArg (fun r => r.questionId) herase
  have hanswer := congrArg (fun r => r.answer) herase
  have hauto := congrArg (fun r => r.autoGraded) herase
  have hgraded := congrArg (fun r => r.gradedAt) herase
  have hupdated := congrArg (fun r => r.updatedAt) herase
  simp only [eraseResult] at hattempt hquestion hanswer hauto hgraded hupdated
  have hrel := upsert_masked (p := fun r => r.attemptId = row.attemptId &&
      r.questionId = row.questionId) (overwriteResponse_keeps row) (overwriteResponse_keeps row')
    (maskResponse_keeps _) h.responses
    (fun r => by unfold maskResponse; split <;> rfl) (fun r r' hp hm => by
      simp only [Bool.and_eq_true, decide_eq_true_eq] at hp
      have hold := (maskResponse_eq _ hm).1
      simp only [eraseResult, QuizResponseRow.mk.injEq] at hold
      refine maskResponse_hidden _ (by rw [overwriteResponse, hp.1]; exact hopen) ?_
      simp [eraseResult, overwriteResponse, hold, hanswer, hauto, hgraded, hupdated])
    (maskResponse_hidden _ hopen herase)
  simp only [QuizStatement.run]
  rw [← hattempt, ← hquestion]
  generalize db.quizResponses.upsert _ _ _ _ = t at hrel
  generalize db'.quizResponses.upsert _ _ _ _ = t' at hrel
  cases hrel with
  | none => rfl
  | some hm => exact h.withResponses hm

/-- An assignment to the attempt `id` that hides no less than a score. -/
theorem updateAttempt_same {id : Uuid} {f f' : QuizAttemptRow → QuizAttemptRow}
    {hk : Table.KeepsKeys f} {hk' : Table.KeepsKeys f'}
    (hf : ∀ a a', a.id = id → eraseScore a = eraseScore a' →
      eraseScore (f a) = eraseScore (f' a'))
    (hsame : shownAttempt db s id = true → f = f') (hid : ∀ a, (f a).id = a.id)
    (hattempt : shownAttempt { db with
      quizAttempts := db.quizAttempts.update (fun a => a.id = id) f hk } s = shownAttempt db s)
    (hversion : shownVersion { db with
      quizAttempts := db.quizAttempts.update (fun a => a.id = id) f hk } s = shownVersion db s) :
    SameView s
      { db with quizAttempts := db.quizAttempts.update (fun a => a.id = id) f hk }
      { db' with quizAttempts := db'.quizAttempts.update (fun a => a.id = id) f' hk' } := by
  refine h.withAttempts (update_masked h.attempts (fun a => ?_) fun a a' hp hm => ?_)
    hattempt hversion
  · unfold maskAttempt
    split <;> rfl
  · simp only [decide_eq_true_eq] at hp
    obtain ⟨herase, hshown⟩ := maskAttempt_eq _ hm
    refine maskAttempt_congr _ (hf a a' hp herase) fun hs => ?_
    rw [hid] at hs
    rw [← hshown hs, hsame (hp ▸ hs)]

theorem markSubmitted_same {id : Uuid} {now : Time} {a : QuizAttemptRow} {d : QuizDeliveryRow}
    (had : attemptDelivery? db id = some (a, d)) (hrel : d.resultsReleasedAt = none) :
    SameOutcome (SameView s) ((QuizStatement.markSubmitted id now).run db)
      ((QuizStatement.markSubmitted id now).run db') := by
  obtain ⟨hattempt, hversion⟩ := shown_markAttempt (s := s) now had hrel
  refine updateAttempt_same h (fun b b' _ herase => ?_) (fun _ => rfl) (fun _ => rfl)
    hattempt hversion
  obtain ⟨score, rfl⟩ := exists_score_of_eraseScore herase
  rfl

theorem writeScore_same {id : Uuid} {score score' : ℚ} {missing : Nat} {now : Time}
    (hhidden : shownAttempt db s id = false) :
    SameOutcome (SameView s) ((QuizStatement.writeScore id score missing now).run db)
      ((QuizStatement.writeScore id score' missing now).run db') := by
  refine updateAttempt_same h (fun b b' _ herase => ?_) (fun hs => ?_) (fun _ => rfl) ?_ ?_
  · obtain ⟨_, rfl⟩ := exists_score_of_eraseScore herase
    rfl
  · rw [hhidden] at hs
    contradiction
  · funext id'
    exact any_map_congr fun r _ => by split <;> rfl
  · funext versionId
    exact any_map_congr fun r _ => by split <;> rfl

theorem recalculateAttempt_same {id : Uuid} {now : Time} (hhidden : shownAttempt db s id = false) :
    Agree (SameView s) Eq (recalculateAttempt id now) (recalculateAttempt id now) db db' := by
  refine agree_query_bind (agree_query_bind ?_)
  rw [h.manualMissing]
  exact agree_write h (writeScore_same h hhidden) fun t t' _ ht => agree_ret rfl ht

end Writes

theorem bindResponse_same (u : SaveUpsert) (rowId id qid : Uuid) (answer : Json) (now : Time)
    {key key' : QuizQuestionKind × Json × ℚ} (hkind : key.1 = key'.1) :
    SameOutcome (fun row row' => eraseResult row = eraseResult row' ∧ row.attemptId = id)
      (bindResponse u (saveParams rowId id qid answer
        (objectivePoints key.1 key.2.1 answer key.2.2) now))
      (bindResponse u (saveParams rowId id qid answer
        (objectivePoints key'.1 key'.2.1 answer key'.2.2) now)) := by
  cases u with
  | asWritten =>
    rw [bindResponse_asWritten, bindResponse_asWritten]
    rfl
  | asNamed =>
    rw [bindResponse_asNamed, bindResponse_asNamed]
    refine ⟨?_, rfl⟩
    simp only [eraseResult, savedRow, objectivePoints_auto_kind, hkind]

section Handlers
variable {s : Uuid} {db db' : Database} (h : SameView s db db') (env : Env)
include h

theorem listDeliveries_same (classroomId : Option Uuid) :
    Agree (SameView s) Eq (listDeliveries ⟨s, .student⟩ classroomId)
      (listDeliveries ⟨s, .student⟩ classroomId) db db' := by
  have henrolments : db'.classroomEnrolments = db.classroomEnrolments :=
    congrArg (fun db => db.classroomEnrolments) h.frame
  have hlisted : listedDeliveries db' ⟨s, .student⟩ classroomId =
      listedDeliveries db ⟨s, .student⟩ classroomId := by
    simp [listedDeliveries, h.deliveries, h.enrolled, Role.isTeacher]
  have hclassroom : requireListed ⟨s, .student⟩ classroomId = .ret () := by
    cases classroomId <;> rfl
  unfold listDeliveries
  rw [hclassroom]
  refine agree_query_bind ?_
  rw [hlisted]
  exact loadDeliveries_same h _ _

theorem startAttempt_same (id : Uuid) :
    Agree (SameView s) Eq (startAttempt env ⟨s, .student⟩ id) (startAttempt env ⟨s, .student⟩ id)
      db db' := by
  refine agree_require_bind h Iff.rfl fun _ => ?_
  refine agree_same_bind h (loadDelivery_readOnly _ _) (loadDelivery_readOnly _ _)
    (loadDelivery_same h _ _) fun delivery _ => ?_
  refine agree_require_bind h Iff.rfl fun _ => agree_query_bind ?_
  rw [h.enrolled]
  refine agree_require_bind h Iff.rfl fun _ => agree_require_bind h Iff.rfl fun _ => ?_
  refine agree_same_bind h (activeLiveDeadline_readOnly _ _ _) (activeLiveDeadline_readOnly _ _ _)
    (activeLiveDeadline_same h _ _ _) fun liveEnd _ => agree_query_bind ?_
  have hown := h.findAttempt (p := fun a => a.deliveryId = id && a.studentId = s) fun _ => rfl
  generalize db.quizAttempts.find? _ = existing at hown
  generalize db'.quizAttempts.find? _ = existing' at hown
  cases hown with
  | none =>
    exact agree_execute_bind h (insertAttempt_same h _) fun t t' _ ht => loadAttempt_same ht _ _
  | some hm =>
    obtain ⟨score, rfl⟩ := exists_score_of_eraseScore (maskAttempt_eq _ hm).1
    exact loadAttempt_same h _ _

theorem saveResponse_same (u : SaveUpsert) (id qid : Uuid) (answer : Json) :
    Agree (SameView s) Eq (saveResponse env u ⟨s, .student⟩ id qid answer)
      (saveResponse env u ⟨s, .student⟩ id qid answer) db db' := by
  refine agree_require_bind h Iff.rfl fun _ => ?_
  refine agree_same_bind h (ensureAttemptWritable_readOnly _ _ _)
    (ensureAttemptWritable_readOnly _ _ _) (ensureAttemptWritable_same h _ _ _) fun _ hw => ?_
  obtain ⟨a, d, had, -, hsub, -⟩ := ensureAttemptWritable_ok hw
  have hopen := not_shown_of_open (s := s) (attemptDelivery?_eq_some.mp had).1 hsub
  refine agree_readOnly_bind h (questionKey_readOnly _ _) (questionKey_readOnly _ _)
    (questionKey_same h _ _) fun key key' _ hkey => ?_
  refine agree_readOnly_bind h (readOnly_ofExcept _) (readOnly_ofExcept _)
    (by simpa using bindResponse_same u _ id qid answer _ hkey.1) fun row row' _ hrow => ?_
  refine agree_execute_bind h (upsertResponse_same h hrow.1 (hrow.2 ▸ hopen)) fun t t' _ ht => ?_
  exact loadResponse_same ht _ _ _ (by simp)

theorem submitAttempt_same (id : Uuid) :
    Agree (SameView s) Eq (submitAttempt env ⟨s, .student⟩ id)
      (submitAttempt env ⟨s, .student⟩ id) db db' := by
  refine agree_require_bind h Iff.rfl fun _ => ?_
  refine agree_same_bind h (ensureAttemptWritable_readOnly _ _ _)
    (ensureAttemptWritable_readOnly _ _ _) (ensureAttemptWritable_same h _ _ _) fun _ hw => ?_
  obtain ⟨a, d, had, -, hsub, hrel⟩ := ensureAttemptWritable_ok hw
  refine agree_query_bind ?_
  rw [h.missingRequired]
  refine agree_require_bind h Iff.rfl fun _ => ?_
  refine agree_execute_bind h (markSubmitted_same h had hrel) fun t t' hmark ht => ?_
  have hhidden : shownAttempt t s id = false := by
    cases hmark
    rw [(shown_markAttempt _ had hrel).1]
    exact not_shown_of_open (attemptDelivery?_eq_some.mp had).1 hsub
  exact agree_bind (recalculateAttempt_same ht hhidden) fun _ _ u u' _ hu =>
    loadAttempt_same hu _ _

theorem handle_same (u : SaveUpsert) {call : QuizCall} (hcall : call.user = ⟨s, .student⟩) :
    Agree (SameView s) Eq (handle u call) (handle u call) db db' := by
  obtain ⟨env, user, request⟩ := call
  cases hcall
  have hreply : ∀ {α : Type} {reply : α → QuizReply} {p : QuizProgram α},
      Agree (SameView s) Eq p p db db' →
        Agree (SameView s) Eq (replying reply p) (replying reply p) db db' := fun hp =>
    agree_bind hp fun a b t t' hab ht => agree_ret (by rw [hab]) ht
  have hteacher : ∀ {α : Type} {reply : α → QuizReply} {f : Unit → QuizProgram α},
      Agree (SameView s) Eq (replying reply (requireTeacher ⟨s, .student⟩ >>= f))
        (replying reply (requireTeacher ⟨s, .student⟩ >>= f)) db db' :=
    agree_fail _ h
  cases request with
  | listDeliveries classroomId => exact hreply (listDeliveries_same h _)
  | start id => exact hreply (startAttempt_same h env id)
  | getAttempt id => exact hreply (loadAttempt_same h _ _)
  | save id qid answer => exact hreply (saveResponse_same h env u id qid answer)
  | submit id => exact hreply (submitAttempt_same h env id)
  | get | create | update | archive | duplicate | publish | deliver | listAttempts | reopen | grade
    | release => exact hteacher

end Handlers

/-- A student who is shown the same of two databases gets the same answers and
errors from both, whatever they request. -/
theorem student_requests_leak_nothing (u : SaveUpsert) {s : Uuid} {db db' : Database}
    (h : view s db = view s db') {calls : List QuizCall}
    (hcalls : ∀ call ∈ calls, call.user = ⟨s, .student⟩) :
    (serial (handle u) calls db).1 = (serial (handle u) calls db').1 :=
  (serial_agree (fun _ _ _ hcall hs => handle_same hs u hcall) hcalls (sameView_of_view h)).1

/-- Before release the two keys of a true/false question look alike, although
the answers that are saved are graded by them. -/
theorem student_requests_leak_nothing_sample :
    let db := fun key => sampleDatabase (sampleQuestion .trueFalse (.bool key)) sampleAttempt
    let calls : List QuizCall := [⟨sampleEnv 10, sampleStudent, .save 8 6 (.bool true)⟩,
      ⟨sampleEnv 20, sampleStudent, .submit 8⟩, ⟨sampleEnv 30, sampleStudent, .getAttempt 8⟩]
    (∀ key, (serial (handle .asNamed) calls (db key)).2.quizAttempts.rows.map (fun a => a.score) =
      [some (if key then 2 else 0)]) ∧
    (serial (handle .asNamed) calls (db true)).1 =
      (serial (handle .asNamed) calls (db false)).1 := by
  intro db calls
  have hview : view 1 (db true) = view 1 (db false) := rfl
  refine ⟨by decide +kernel, student_requests_leak_nothing .asNamed hview fun call hcall => ?_⟩
  simp only [calls, List.mem_cons, List.not_mem_nil, or_false] at hcall
  rcases hcall with rfl | rfl | rfl <;> rfl

end Cinder.Quizzes
