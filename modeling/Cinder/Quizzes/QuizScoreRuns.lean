import Cinder.Quizzes.QuizScore
set_option autoImplicit false

namespace Cinder.Quizzes
open Cinder.Host Cinder.Storage Cinder.Programs Cinder.Programs.Program

/-- The statements about drafts, reopening and release, which touch nothing
that a score is compared with. -/
inductive Plain : QuizStatement → Prop where
  | create (quiz : QuizRow) (questions : List QuizQuestionInput) (fresh : Nat → Uuid)
      (entry : QuizAuditRow) : Plain (.createQuiz quiz questions fresh entry)
  | update (id : Uuid) (req : SaveQuizRequest) (updatedAt : Time) (fresh : Nat → Uuid)
      (entry : QuizAuditRow) : Plain (.updateQuiz id req updatedAt fresh entry)
  | archive (id : Uuid) (now : Time) : Plain (.archiveQuiz id now)
  | reopen (id : Uuid) (now : Time) (expires : Option Time) :
      Plain (.reopenAttempt id now expires)
  | release (id : Uuid) (now : Time) : Plain (.releaseResults id now)
  | audit (entry : QuizAuditRow) : Plain (.audit entry)

theorem plain_sound (l : QuizStatement) (db db' : Database) (hl : Plain l) (hs : QuizSound db)
    (h : l.run db = .ok db') : QuizSound db' := by
  have hwf : WellFormed l db := by cases hl <;> trivial
  have ht : ∀ id, l.touches id = false := by intro id; cases hl <;> rfl
  exact hs.step h hwf fun id htouch => by simp [ht id] at htouch

section Handlers
variable {db : Database} (env : Env) (user : CurrentUser) (id : Uuid)

theorem reopenAttempt_plain : (reopenAttempt env user id).WritesOnly Plain :=
  reopenAttempt_writes env user id .reopen .audit

theorem publishQuiz_sound (hs : QuizSound db) : (publishQuiz env user id).Leaves QuizSound db := by
  unfold publishQuiz
  refine leaves_readOnly_bind (requireTeacher_readOnly _) hs fun _ _ => ?_
  refine leaves_readOnly_bind (loadQuiz_readOnly _) hs fun quiz _ => ?_
  refine leaves_readOnly_bind (requireActiveQuiz_readOnly _) hs fun _ _ => ?_
  refine leaves_readOnly_bind (requireTeacherAccess_readOnly _ _) hs fun _ _ => ?_
  refine leaves_readOnly_bind (readOnly_ofExcept _) hs fun u hvalid => ?_
  refine leaves_execute_bind hs fun db' h => leaves_readOnly (loadQuiz_readOnly _) ?_
  have hpositive : ∀ q ∈ quiz.questions, 0 < q.maxPoints := by
    rw [exec_ofExcept] at hvalid
    have hmax := validateQuiz_maxPoints (Prod.mk.inj hvalid).1
    intro q hq
    exact hmax _ (List.mem_map_of_mem hq)
  exact hs.step h hpositive fun _ htouch => by cases htouch

theorem latestVersion_mem {quizId versionId : Uuid}
    (h : latestVersion db quizId = some versionId) :
    ∃ v ∈ db.quizVersions.rows, v.id = versionId := by
  obtain ⟨v, hv, hid⟩ := Option.map_eq_some_iff.mp h
  have hsorted := List.mem_of_head? hv
  rw [List.mem_insertionSort] at hsorted
  exact ⟨v, (List.mem_filter.mp hsorted).1, hid⟩

theorem deliverQuiz_sound (req : DeliverQuizRequest) (hs : QuizSound db) :
    (deliverQuiz env user id req).Leaves QuizSound db := by
  unfold deliverQuiz
  refine leaves_readOnly_bind (requireTeacher_readOnly _) hs fun _ _ => ?_
  refine leaves_readOnly_bind (loadQuiz_readOnly _) hs fun quiz _ => ?_
  refine leaves_readOnly_bind (requireActiveQuiz_readOnly _) hs fun _ _ => ?_
  refine leaves_readOnly_bind (requireTeacherAccess_readOnly _ _) hs fun _ _ => ?_
  refine leaves_readOnly_bind (readOnly_require _ _) hs fun _ _ => ?_
  refine leaves_readOnly_bind (readOnly_queryRow _ _) hs fun versionId hversion => ?_
  refine leaves_readOnly_bind (requireLiveSession_readOnly _ _ _) hs fun _ _ => ?_
  refine leaves_readOnly_bind (readOnly_query _) hs fun assignedCount _ => ?_
  have hstored := latestVersion_mem (exec_queryRow_ok hversion).1
  refine leaves_execute_bind hs fun db' h => ?_
  have hs' : QuizSound db' := hs.step h hstored fun _ htouch => by cases htouch
  refine leaves_execute_bind hs' fun db'' h' => leaves_readOnly (loadDelivery_readOnly _ _) ?_
  exact plain_sound _ _ _ (.audit _) hs' h'

theorem startAttempt_sound (hs : QuizSound db) :
    (startAttempt env user id).Leaves QuizSound db := by
  unfold startAttempt
  refine leaves_readOnly_bind (readOnly_require _ _) hs fun _ _ => ?_
  refine leaves_readOnly_bind (loadDelivery_readOnly _ _) hs fun delivery hdelivery => ?_
  refine leaves_readOnly_bind (readOnly_require _ _) hs fun _ _ => ?_
  refine leaves_readOnly_bind (readOnly_query _) hs fun _ _ => ?_
  refine leaves_readOnly_bind (readOnly_require _ _) hs fun _ _ => ?_
  refine leaves_readOnly_bind (readOnly_require _ _) hs fun _ _ => ?_
  refine leaves_readOnly_bind (activeLiveDeadline_readOnly _ _ _) hs fun liveEnd _ => ?_
  refine leaves_readOnly_bind (readOnly_query _) hs fun existing _ => ?_
  cases existing with
  | some a => exact leaves_readOnly (loadAttempt_readOnly _ _ _ _) hs
  | none =>
    refine leaves_execute_bind hs fun db' h => leaves_readOnly (loadAttempt_readOnly _ _ _ _) ?_
    obtain ⟨d, v, hd, hv, -, htotal⟩ := loadDelivery_ok hdelivery
    obtain ⟨hdmem, hdid⟩ := Table.mem_of_find? hd
    obtain ⟨hvmem, hvid⟩ := Table.mem_of_find? hv
    simp only [decide_eq_true_eq] at hdid hvid
    exact hs.step h ⟨d, hdmem, v, hvmem, hdid, hvid, htotal⟩ fun _ htouch => by cases htouch

theorem saveResponse_sound (qid : Uuid) (answer : Json) (hs : QuizSound db) :
    (saveResponse env .asNamed user id qid answer).Leaves QuizSound db := by
  unfold saveResponse
  refine leaves_readOnly_bind (requireStudent_readOnly _) hs fun _ _ => ?_
  refine leaves_readOnly_bind (ensureAttemptWritable_readOnly _ _ _) hs fun _ hopen => ?_
  refine leaves_readOnly_bind (questionKey_readOnly _ _) hs fun key hkey => ?_
  rw [bindResponse_asNamed]
  refine leaves_execute_bind hs fun db' h => leaves_readOnly (loadResponse_readOnly _ _ _) ?_
  obtain ⟨a, d, q, had, hq, hqid, hqv, rfl⟩ := questionKey_ok hkey
  obtain ⟨a', d', had', -, hsub, -⟩ := ensureAttemptWritable_ok hopen
  rw [had] at had'
  cases had'
  obtain ⟨ha, hd⟩ := attemptDelivery?_eq_some.mp had
  obtain ⟨hamem, haid⟩ := Table.mem_of_find? ha
  obtain ⟨hdmem, hdid⟩ := Table.mem_of_find? hd
  simp only [decide_eq_true_eq] at haid hdid
  have hmax := le_of_lt (hs.ledger.positive q hq)
  refine hs.step h ⟨⟨a, hamem, d, hdmem, q, hq, haid, hdid, hqid, hqv, ?_⟩, ?_⟩ ?_
  · exact fun p hp => objectivePoints_bounds hmax hp
  · have hauto := objectivePoints_auto q.kind q.canonicalAnswer answer q.maxPoints
    simp only [savedRow, hauto]
    split <;> simp_all
  · intro id' htouch b hb hbid hbsub
    obtain rfl : id = id' := of_decide_eq_true htouch
    rw [show db'.quizAttempts = db.quizAttempts from (run_effect h).attempts] at hb
    have hsame : b = a := Table.eq_of_clash hb hamem (by simp [Keyed.clash, hbid, haid])
    rw [hsame, hsub] at hbsub
    cases hbsub

theorem submitAttempt_sound (hs : QuizSound db) :
    (submitAttempt env user id).Leaves QuizSound db := by
  unfold submitAttempt
  refine leaves_readOnly_bind (requireStudent_readOnly _) hs fun _ _ => ?_
  refine leaves_readOnly_bind (ensureAttemptWritable_readOnly _ _ _) hs fun _ _ => ?_
  refine leaves_readOnly_bind (readOnly_query _) hs fun missing _ => ?_
  refine leaves_readOnly_bind (readOnly_require _ _) hs fun _ _ => ?_
  refine leaves_execute_bind hs fun db₁ h => ?_
  obtain ⟨db', h', hexec⟩ := recalculateAttempt_exec db₁ id (env.now 2)
  refine leaves_bind_ok hexec (leaves_readOnly (loadAttempt_readOnly _ _ _ _) ?_)
  exact hs.recalculated h trivial (fun id' he => by simpa [QuizStatement.touches] using Ne.symm he)
    h'

theorem gradeResponse_none {qid : Uuid} {points : ℚ} {feedback : String} {now : Time}
    {db' : Database} (hnone : response? db id qid = none)
    (h : (QuizStatement.gradeResponse id qid points feedback now).run db = .ok db') :
    db' = db := by
  have hsame : db.quizResponses.update (fun r => r.attemptId = id && r.questionId = qid)
      (markResponse now points feedback) (markResponse_keeps now points feedback) =
        db.quizResponses := Table.update_of_none (Table.find?_eq_none.mp hnone)
  cases h
  rw [hsame]

theorem gradeResponse_sound (qid : Uuid) (points : ℚ) (feedback : String) (hs : QuizSound db) :
    (gradeResponse env user id qid points feedback).Leaves QuizSound db := by
  unfold gradeResponse
  refine leaves_readOnly_bind (requireTeacher_readOnly _) hs fun _ _ => ?_
  refine leaves_readOnly_bind (attemptClassroom_readOnly _) hs fun classroom _ => ?_
  refine leaves_readOnly_bind (requireTeacherAccess_readOnly _ _) hs fun _ _ => ?_
  refine leaves_readOnly_bind (questionKey_readOnly _ _) hs fun key hkey => ?_
  obtain ⟨kind, answer, max⟩ := key
  refine leaves_readOnly_bind (readOnly_require _ _) hs fun _ _ => ?_
  refine leaves_readOnly_bind (readOnly_require _ _) hs fun _ hrange => ?_
  refine leaves_executeReturning_bind hs fun db₁ h => ?_
  cases hfound : response? db id qid with
  | none =>
    obtain rfl := gradeResponse_none id hfound h
    refine leaves_readOnly_bind (readOnly_require _ _) hs fun _ hchanged => ?_
    cases (exec_require_ok hchanged).1
  | some r =>
    obtain ⟨db', h', hexec⟩ := recalculateAttempt_exec db₁ id (env.now 1)
    refine leaves_bind_ok (exec_require _ _ _) (leaves_bind_ok hexec ?_)
    have hbounds : ∀ q ∈ db.quizVersionQuestions.rows, q.id = qid →
        0 ≤ points ∧ points ≤ q.maxPoints := by
      intro q hq hqid
      obtain ⟨-, -, q', -, hq', hqid', -, hk⟩ := questionKey_ok hkey
      have hsame : q = q' := Table.eq_of_clash hq hq' (by simp [Keyed.clash, hqid, hqid'])
      have hmax : max = q.maxPoints := by rw [hsame, (Prod.mk.inj (Prod.mk.inj hk).2).2]
      rw [← hmax]
      exact (exec_require_ok hrange).1
    have hs' : QuizSound db' := hs.recalculated h hbounds
      (fun id' he => by simpa [QuizStatement.touches] using Ne.symm he) h'
    refine leaves_execute_bind hs' fun db'' h'' => leaves_readOnly (loadAttempt_readOnly _ _ _ _) ?_
    exact plain_sound _ _ _ (.audit _) hs' h''

end Handlers

theorem handle_sound (call : QuizCall) {db : Database} (hs : QuizSound db) :
    (handle .asNamed call).Leaves QuizSound db := by
  obtain ⟨env, user, request⟩ := call
  have hreply : ∀ {α : Type} {reply : α → QuizReply} {p : QuizProgram α},
      p.Leaves QuizSound db → (replying reply p).Leaves QuizSound db :=
    fun hp => leaves_bind_readOnly hp fun _ => trivial
  have hplain : ∀ {α : Type} {p : QuizProgram α}, p.WritesOnly Plain → p.Leaves QuizSound db :=
    fun hp => leaves_of_writesOnly plain_sound hp hs
  cases request with
  | get id => exact hreply (leaves_readOnly (getQuiz_readOnly user id) hs)
  | create req => exact hreply (hplain (createQuiz_writes env user req .create))
  | update id req => exact hreply (hplain (updateQuiz_writes env user id req .update))
  | archive id => exact hreply (hplain (archiveQuiz_writes env user id .archive .audit))
  | duplicate id => exact hreply (hplain (duplicateQuiz_writes env user id .create))
  | publish id => exact hreply (publishQuiz_sound env user id hs)
  | deliver id req => exact hreply (deliverQuiz_sound env user id req hs)
  | listDeliveries cid => exact hreply (leaves_readOnly (listDeliveries_readOnly user cid) hs)
  | start id => exact hreply (startAttempt_sound env user id hs)
  | getAttempt id => exact hreply (leaves_readOnly (loadAttempt_readOnly _ _ _ _) hs)
  | listAttempts id => exact hreply (leaves_readOnly (listAttempts_readOnly env user id) hs)
  | save id qid answer => exact hreply (saveResponse_sound env user id qid answer hs)
  | submit id => exact hreply (submitAttempt_sound env user id hs)
  | reopen id => exact hreply (hplain (reopenAttempt_plain env user id))
  | grade id qid points feedback =>
    exact hreply (gradeResponse_sound env user id qid points feedback hs)
  | release id => exact hreply (hplain (releaseResults_writes env user id .release .audit))

def NoQuizzes (db : Database) : Prop :=
  db.quizVersions.rows = [] ∧ db.quizVersionQuestions.rows = [] ∧ db.quizDeliveries.rows = [] ∧
    db.quizAttempts.rows = [] ∧ db.quizResponses.rows = []

theorem noQuizzes_sound {db : Database} (h : NoQuizzes db) : QuizSound db := by
  obtain ⟨hv, hq, hd, ha, hr⟩ := h
  refine ⟨⟨?_, ?_, ?_, ?_, ?_, ?_⟩, fun id a hmem => ?_⟩
  · simp [hv]
  · simp [hq]
  · simp [hq]
  · simp [hd]
  · simp [ha]
  · simp [hr]
  · simp [ha] at hmem

/-- What a teacher and a student rely on about the score of an attempt. -/
structure ScoreSettled (db : Database) (a : QuizAttemptRow) (d : QuizDeliveryRow) : Prop where
  score : a.score = some (pointsSum db a.id)
  bounds : 0 ≤ pointsSum db a.id ∧ pointsSum db a.id ≤ a.maxPoints
  maxPoints : a.maxPoints = ((versionQuestions db d.versionId).map fun q => q.maxPoints).sum
  graded : a.gradedAt.isSome = true ↔ ∀ q ∈ versionQuestions db d.versionId,
    q.kind = .shortAnswer →
    (q.required = true ∨ ∃ r ∈ attemptResponses db a.id, r.questionId = q.id) →
    ∃ r ∈ attemptResponses db a.id, r.questionId = q.id ∧ r.points.isSome = true

section Sound
variable {db : Database}

theorem QuizSound.bounds (hs : QuizSound db) {a : QuizAttemptRow}
    (ha : a ∈ db.quizAttempts.rows) {d : QuizDeliveryRow} (hd : d ∈ db.quizDeliveries.rows)
    (hid : d.id = a.deliveryId) :
    0 ≤ pointsSum db a.id ∧ pointsSum db a.id ≤
      ((versionQuestions db d.versionId).map fun q => q.maxPoints).sum := by
  have hbacked : ∀ r ∈ attemptResponses db a.id, ∃ q ∈ versionQuestions db d.versionId,
      q.id = r.questionId ∧ ∀ p ∈ r.points, 0 ≤ p ∧ p ≤ q.maxPoints := by
    intro r hr
    obtain ⟨hmem, hra⟩ := List.mem_filter.mp hr
    simp only [decide_eq_true_eq] at hra
    obtain ⟨b, hb, e, he, q, hq, hba, heb, hqr, hqe, hp⟩ := (hs.ledger.response r hmem).question
    have hab : b = a := Table.eq_of_clash hb ha (by simp [Keyed.clash, hba, hra])
    have hde : e = d := Table.eq_of_clash he hd (by simp [Keyed.clash, heb, hab, hid])
    exact ⟨q, List.mem_filter.mpr ⟨hq, by simp [hqe, hde]⟩, hqr, hp⟩
  have hpos : ∀ q ∈ versionQuestions db d.versionId, 0 ≤ q.maxPoints := fun q hq =>
    le_of_lt (hs.ledger.positive q (List.mem_filter.mp hq).1)
  constructor
  · refine List.sum_nonneg fun p hp => ?_
    obtain ⟨r, hr, rfl⟩ := List.mem_map.mp hp
    obtain ⟨q, -, -, hb⟩ := hbacked r hr
    cases hpts : r.points with
    | none => exact le_refl _
    | some p => exact (hb p hpts).1
  · refine sum_le_of_matched (fun r => r.questionId) (fun q => q.id) _ _ ?_ (fun r hr => ?_) hpos
    · have hkeys := db.quizResponses.unique.filter fun r => decide (r.attemptId = a.id)
      refine hkeys.imp_of_mem fun {r r'} hr hr' hclash hq => ?_
      have hra := (List.mem_filter.mp hr).2
      have hra' := (List.mem_filter.mp hr').2
      simp only [decide_eq_true_eq] at hra hra'
      simp [Keyed.clash, hra, hra', hq] at hclash
    · obtain ⟨q, hq, hqr, hb⟩ := hbacked r hr
      refine ⟨q, hq, hqr, ?_⟩
      cases hpts : r.points with
      | none => exact hpos q hq
      | some p => exact (hb p hpts).2

theorem QuizSound.manualMissing_eq_zero (hs : QuizSound db) {id versionId : Uuid}
    (hq : attemptQuestions db id = versionQuestions db versionId) : manualMissing db id = 0 ↔
    ∀ q ∈ versionQuestions db versionId, q.kind = .shortAnswer →
      (q.required = true ∨ ∃ r ∈ attemptResponses db id, r.questionId = q.id) →
      ∃ r ∈ attemptResponses db id, r.questionId = q.id ∧ r.points.isSome = true := by
  have hgraded : ∀ q : QuizVersionQuestionRow,
      ((attemptResponses db id).any fun r => r.questionId = q.id && r.gradedAt.isSome) = true ↔
        ∃ r ∈ attemptResponses db id, r.questionId = q.id ∧ r.points.isSome = true := by
    intro q
    simp only [List.any_eq_true, Bool.and_eq_true, decide_eq_true_eq]
    refine exists_congr fun r => and_congr_right fun hr => and_congr_right fun _ => ?_
    rw [(hs.ledger.response r (List.mem_filter.mp hr).1).graded]
  rw [manualMissing, hq, List.countP_eq_zero]
  refine forall₂_congr fun q _ => ?_
  simp only [Bool.and_eq_true, decide_eq_true_eq, Bool.or_eq_true, Bool.not_eq_true',
    ← Bool.not_eq_true, hgraded, List.any_eq_true, not_and, not_not, and_imp]

end Sound

/-- In every state that requests handled one at a time lead to, a submitted
attempt has the score, the maximum and the grading mark that its responses and
its questions give. -/
theorem submitted_score_settled (db : Database) (hdb : NoQuizzes db) (calls : List QuizCall) :
    let db' := (serial (handle .asNamed) calls db).2
    ∀ a ∈ db'.quizAttempts.rows, a.submittedAt.isSome = true →
      ∃ d, attemptDelivery? db' a.id = some (a, d) ∧ ScoreSettled db' a d := by
  intro db' a ha hsub
  have hs : QuizSound db' :=
    serial_leaves (fun call _ hs => handle_sound call hs) (noQuizzes_sound hdb)
  obtain ⟨d, hd, v, hv, hid, hvd, hmax⟩ := hs.ledger.attempt a ha
  obtain ⟨hscore, hgraded⟩ := hs.settled a.id a ha rfl hsub
  have htotal : a.maxPoints = ((versionQuestions db' d.versionId).map fun q => q.maxPoints).sum := by
    rw [hmax, hs.ledger.total v hv, hvd]
  have hbounds := hs.bounds ha hd hid
  refine ⟨d, attemptDelivery?_of_mem ha hd hid, hscore, ?_, htotal, ?_⟩
  · rwa [htotal]
  · rw [hgraded]
    exact hs.manualMissing_eq_zero (attemptQuestions_of_mem ha hd hid)

/-- A quiz from its creation to a graded submission. -/
def scoreCalls : List QuizCall :=
  [⟨sampleEnv 1, sampleTeacher, .create
      { classroomId := 3, title := "Primes", instructions := "", timeLimitMinutes := none
        questions := [{ id := none, kind := .trueFalse, prompt := "Is 7 prime?", options := []
                        canonicalAnswer := .bool true, maxPoints := 2, required := true },
                      { id := none, kind := .shortAnswer, prompt := "Why?", options := []
                        canonicalAnswer := .null, maxPoints := 3, required := true }] }⟩,
    ⟨sampleEnv 2, sampleTeacher, .publish 100⟩,
    ⟨sampleEnv 3, sampleTeacher, .deliver 100 ⟨.homework, none, none, none⟩⟩,
    ⟨sampleEnv 4, sampleStudent, .start 300⟩,
    ⟨sampleEnv 5, sampleStudent, .save 400 201 (.bool true)⟩,
    ⟨sampleEnv 6, sampleStudent, .save 400 202 (.str "no divisors")⟩,
    ⟨sampleEnv 7, sampleStudent, .submit 400⟩,
    ⟨sampleEnv 8, sampleTeacher, .grade 400 202 1 "Say which."⟩]

theorem submitted_score_settled_sample :
    let db' := (serial (handle .asNamed) scoreCalls sampleClassroom).2
    (∃ a ∈ db'.quizAttempts.rows, a.submittedAt.isSome = true ∧ a.score = some 3) ∧
      ∀ a ∈ db'.quizAttempts.rows, a.submittedAt.isSome = true →
        ∃ d, attemptDelivery? db' a.id = some (a, d) ∧ ScoreSettled db' a d :=
  ⟨by decide +kernel,
    submitted_score_settled sampleClassroom ⟨rfl, rfl, rfl, rfl, rfl⟩ scoreCalls⟩

end Cinder.Quizzes
