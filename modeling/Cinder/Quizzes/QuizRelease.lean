import Cinder.Programs.RequestPool
import Cinder.Quizzes.QuizEffects
import Cinder.Quizzes.QuizScoreRuns
set_option autoImplicit false

/-!
Whether released results are graded, in every interleaving of the statements of
concurrent requests. The count of `release_results` and its `UPDATE` are two
statements, so the answer depends on what is scheduled between them.
-/

namespace Cinder.Quizzes
open Cinder.Host Cinder.Storage Cinder.Programs Cinder.Programs.Program

abbrev QuizPool (ι : Type) := Pool ι QuizCall Database QuizStatement HostError QuizReply

def Released (db : Database) (deliveryId : Uuid) : Prop :=
  ∃ d ∈ db.quizDeliveries.rows, d.id = deliveryId ∧ d.resultsReleasedAt.isSome = true

instance (db : Database) (deliveryId : Uuid) : Decidable (Released db deliveryId) :=
  inferInstanceAs (Decidable (∃ d ∈ db.quizDeliveries.rows, _))

def ReleaseImpliesGraded (db : Database) : Prop :=
  ∀ a ∈ db.quizAttempts.rows, a.submittedAt.isSome = true → Released db a.deliveryId →
    a.gradedAt.isSome = true

instance (db : Database) : Decidable (ReleaseImpliesGraded db) :=
  inferInstanceAs (Decidable (∀ a ∈ db.quizAttempts.rows, _))

/-- The three statements that can show a student an ungraded result, and when
each of them does not: results are released while every submitted attempt is
graded, an attempt is marked before the release, and a recalculation after the
release found no short answer to grade. -/
def KeepsGraded (l : QuizStatement) (db : Database) : Prop :=
  match l with
  | .releaseResults id _ => (∃ d ∈ db.quizDeliveries.rows, d.id = id) → incomplete db id = 0
  | .markSubmitted id _ => ∀ a ∈ db.quizAttempts.rows, a.id = id → Released db a.deliveryId →
      a.gradedAt.isSome = true
  | .writeScore id _ missing _ => ∀ a ∈ db.quizAttempts.rows, a.id = id →
      a.submittedAt.isSome = true → Released db a.deliveryId → missing = 0
  | _ => True

section Statements
variable {db db' : Database}

theorem released_congr (hd : db'.quizDeliveries = db.quizDeliveries) (deliveryId : Uuid) :
    Released db' deliveryId ↔ Released db deliveryId := by
  unfold Released
  rw [hd]

theorem graded_congr (ha : db'.quizAttempts = db.quizAttempts)
    (hr : ∀ deliveryId, Released db' deliveryId ↔ Released db deliveryId) :
    ReleaseImpliesGraded db' ↔ ReleaseImpliesGraded db := by
  unfold ReleaseImpliesGraded
  rw [ha]
  simp only [hr]

theorem released_insert {row : QuizDeliveryRow}
    (h : db.quizDeliveries.insert (newDelivery row) = some db'.quizDeliveries)
    (deliveryId : Uuid) : Released db' deliveryId ↔ Released db deliveryId := by
  unfold Released
  simp only [Table.mem_insert h]
  constructor
  · rintro ⟨d, hd | rfl, hid, hrel⟩
    · exact ⟨d, hd, hid, hrel⟩
    · cases hrel
  · rintro ⟨d, hd, h⟩
    exact ⟨d, .inl hd, h⟩

theorem released_update {id : Uuid} {now : Time}
    (h : db'.quizDeliveries =
      db.quizDeliveries.update (fun d => d.id = id) (releaseRow now) (releaseRow_keeps now))
    (deliveryId : Uuid) : Released db' deliveryId ↔
      Released db deliveryId ∨ deliveryId = id ∧ ∃ d ∈ db.quizDeliveries.rows, d.id = id := by
  unfold Released
  rw [h]
  simp only [Table.mem_update]
  constructor
  · rintro ⟨_, ⟨d, hd, rfl⟩, hid, hrel⟩
    by_cases hdi : d.id = id
    · right
      simp only [hdi, decide_true, if_true] at hid
      exact ⟨hid.symm.trans hdi, d, hd, hdi⟩
    · left
      simp only [hdi, decide_false] at hid hrel
      exact ⟨d, hd, hid, hrel⟩
  · rintro (⟨d, hd, hid, hrel⟩ | ⟨rfl, d, hd, hid⟩)
    · refine ⟨_, ⟨d, hd, rfl⟩, ?_⟩
      by_cases hdi : d.id = id
      · simpa [hdi, releaseRow] using hdi ▸ hid
      · simpa [hdi] using ⟨hid, hrel⟩
    · exact ⟨_, ⟨d, hd, rfl⟩, by simp [hid, releaseRow]⟩

/-- Updating one attempt keeps the property exactly when the updated attempt
has it. -/
theorem graded_update {id : Uuid} {f : QuizAttemptRow → QuizAttemptRow}
    {hf : Table.KeepsKeys f} (hinv : ReleaseImpliesGraded db)
    (hd : db'.quizDeliveries = db.quizDeliveries)
    (ha : db'.quizAttempts = db.quizAttempts.update (fun a => a.id = id) f hf)
    (hdel : ∀ a, (f a).deliveryId = a.deliveryId) :
    ReleaseImpliesGraded db' ↔ ∀ a ∈ db.quizAttempts.rows, a.id = id →
      (f a).submittedAt.isSome = true → Released db a.deliveryId →
        (f a).gradedAt.isSome = true := by
  unfold ReleaseImpliesGraded
  rw [ha]
  simp only [Table.mem_update, released_congr hd]
  constructor
  · intro h a hmem hid hsub hrel
    have hnew := h (f a) ⟨a, hmem, by simp [hid]⟩ hsub
    rw [hdel] at hnew
    exact hnew hrel
  · rintro h _ ⟨a, hmem, rfl⟩ hsub hrel
    by_cases hid : a.id = id
    · simp only [hid, decide_true, if_true] at hsub hrel ⊢
      rw [hdel] at hrel
      exact h a hmem hid hsub hrel
    · simp only [hid, decide_false] at hsub hrel ⊢
      exact hinv a hmem hsub hrel

theorem incomplete_eq_zero {id : Uuid} : incomplete db id = 0 ↔
    ∀ a ∈ db.quizAttempts.rows, a.deliveryId = id → a.submittedAt.isSome = true →
      a.gradedAt.isSome = true := by
  unfold incomplete
  rw [List.countP_eq_zero]
  simp only [Bool.and_eq_true, decide_eq_true_eq, not_and, Option.isNone_iff_eq_none,
    Option.isSome_iff_ne_none, ne_eq, and_imp]

/-- One statement keeps the property if and only if it is one of those that
`KeepsGraded` lets through. -/
theorem keepsGraded_exact {l : QuizStatement} (hinv : ReleaseImpliesGraded db)
    (h : l.run db = .ok db') : ReleaseImpliesGraded db' ↔ KeepsGraded l db := by
  have heff := run_effect h
  have hd := heff.deliveries
  have ha := heff.attempts
  cases l with
  | insertAttempt row =>
    refine iff_of_true (fun a hmem hsub hrel => ?_) trivial
    rcases (Table.mem_insert ha).mp hmem with hold | rfl
    · exact hinv a hold hsub ((released_congr hd _).mp hrel)
    · cases hsub
  | markSubmitted id now =>
    rw [graded_update hinv hd ha (fun _ => rfl)]
    simp [KeepsGraded, markAttempt]
  | writeScore id score missing now =>
    rw [graded_update hinv hd ha (fun _ => rfl)]
    refine forall₄_congr fun a _ _ hsub => forall_congr' fun _ => ?_
    by_cases hm : missing = 0
    · have hs : a.submittedAt.isSome = true := hsub
      simp [scoreAttempt, hm, hs]
    · simp [scoreAttempt, hm]
  | reopenAttempt id now expires =>
    rw [graded_update hinv hd ha (fun _ => rfl)]
    exact iff_of_true (fun a _ _ hsub => by cases hsub) trivial
  | insertDelivery row =>
    exact iff_of_true ((graded_congr ha (released_insert hd)).mpr hinv) trivial
  | releaseResults id now =>
    have hattempts : db'.quizAttempts = db.quizAttempts := ha
    unfold ReleaseImpliesGraded
    simp only [hattempts, released_update hd, KeepsGraded, incomplete_eq_zero]
    constructor
    · intro h hex a hmem hid hsub
      exact h a hmem hsub (.inr ⟨hid, hex⟩)
    · rintro h a hmem hsub (hrel | ⟨hid, hex⟩)
      · exact hinv a hmem hsub hrel
      · exact h hex a hmem hid hsub
  | createQuiz | updateQuiz | archiveQuiz | publishQuiz | upsertResponse | gradeResponse
  | audit => exact iff_of_true ((graded_congr ha (released_congr hd)).mpr hinv) trivial

end Statements

section InTurn
variable {db : Database} (env : Env) (user : CurrentUser) (id : Uuid)

theorem makes_always {α : Type} {p : QuizProgram α}
    (hp : p.WritesOnly fun l => ∀ db, KeepsGraded l db) : p.Makes KeepsGraded db :=
  makes_of_writesOnly (fun _ db h => h db) hp db

theorem releaseResults_makes : (releaseResults env user id).Makes KeepsGraded db := by
  unfold releaseResults
  refine makes_readOnly_bind (requireTeacher_readOnly _) fun _ _ => ?_
  refine makes_readOnly_bind (deliveryClassroom_readOnly _) fun _ _ => ?_
  refine makes_readOnly_bind (requireTeacherAccess_readOnly _ _) fun _ _ => ?_
  refine makes_readOnly_bind (readOnly_query _) fun n hn => ?_
  refine makes_readOnly_bind (readOnly_require _ _) fun _ hzero => ?_
  obtain rfl : incomplete db id = n := Except.ok.inj (Prod.mk.inj hn).1
  refine makes_execute_bind (fun _ => (exec_require_ok hzero).1) fun db' _ => makes_always ?_
  exact (writesOnly_execute fun _ => trivial).bind fun _ => (loadDelivery_readOnly _ _).writesOnly

/-- Before and after it is marked, the results of a writable attempt are not released. -/
theorem submitAttempt_makes : (submitAttempt env user id).Makes KeepsGraded db := by
  unfold submitAttempt
  refine makes_readOnly_bind (requireStudent_readOnly _) fun _ _ => ?_
  refine makes_readOnly_bind (ensureAttemptWritable_readOnly _ _ _) fun _ hopen => ?_
  refine makes_readOnly_bind (readOnly_query _) fun _ _ => ?_
  refine makes_readOnly_bind (readOnly_require _ _) fun _ _ => ?_
  obtain ⟨a, d, had, -, -, hrel⟩ := ensureAttemptWritable_ok hopen
  obtain ⟨ha, hd⟩ := attemptDelivery?_eq_some.mp had
  obtain ⟨hamem, haid⟩ := Table.mem_of_find? ha
  obtain ⟨hdmem, hdid⟩ := Table.mem_of_find? hd
  simp only [decide_eq_true_eq] at haid hdid
  have hclosed : ¬Released db a.deliveryId := by
    rintro ⟨e, he, heid, hreleased⟩
    obtain rfl : e = d := Table.eq_of_clash he hdmem (by simp [Keyed.clash, heid, hdid])
    rw [hrel] at hreleased
    cases hreleased
  have hattempt : ∀ b ∈ db.quizAttempts.rows, b.id = id → b.deliveryId = a.deliveryId := by
    intro b hb hbid
    rw [Table.eq_of_clash hb hamem (by simp [Keyed.clash, hbid, haid])]
  refine makes_execute_bind (fun b hb hbid hreleased => ?_) fun db₁ h => ?_
  · rw [hattempt b hb hbid] at hreleased
    exact absurd hreleased hclosed
  · have heff := run_effect h
    refine makes_bind (fun _ _ => ⟨fun b hb hbid _ hreleased => ?_, trivial⟩) fun _ _ _ =>
      makes_readOnly (loadAttempt_readOnly _ _ _ _) _
    rw [heff.attempts] at hb
    obtain ⟨c, hc, rfl⟩ := Table.mem_update.mp hb
    rw [released_congr heff.deliveries] at hreleased
    by_cases hid : c.id = id
    · simp only [hid, decide_true, if_true] at hreleased
      exact absurd (hattempt c hc hid ▸ hreleased) hclosed
    · simp only [hid, decide_false] at hbid
      exact absurd hbid hid

theorem mem_attemptResponses_graded {db' : Database} {qid : Uuid} {points : ℚ} {feedback : String}
    {now : Time} (h : (QuizStatement.gradeResponse id qid points feedback now).run db = .ok db')
    {x : QuizResponseRow} : x ∈ attemptResponses db' id ↔ ∃ r ∈ attemptResponses db id,
      x = if r.attemptId = id && r.questionId = qid then markResponse now points feedback r
        else r := by
  rw [attemptResponses, (run_effect h).responses]
  simp only [List.mem_filter, Table.mem_update, attemptResponses, decide_eq_true_eq]
  constructor
  · rintro ⟨⟨r, hr, rfl⟩, hid⟩
    refine ⟨r, ⟨hr, ?_⟩, rfl⟩
    split at hid
    · exact hid
    · exact hid
  · rintro ⟨r, ⟨hr, hid⟩, rfl⟩
    refine ⟨⟨r, hr, rfl⟩, ?_⟩
    split
    · exact hid
    · exact hid

theorem manualMissing_gradeResponse {db' : Database} {qid : Uuid} {points : ℚ} {feedback : String}
    {now : Time} (h : (QuizStatement.gradeResponse id qid points feedback now).run db = .ok db')
    (hzero : manualMissing db id = 0) : manualMissing db' id = 0 := by
  have hq : attemptQuestions db' id = attemptQuestions db id := by
    cases h
    rfl
  rw [manualMissing, List.countP_eq_zero] at hzero ⊢
  intro q hmem hmissing
  refine hzero q (hq ▸ hmem) ?_
  simp only [Bool.and_eq_true, Bool.or_eq_true, Bool.not_eq_true', ← Bool.not_eq_true,
    List.any_eq_true, decide_eq_true_eq, mem_attemptResponses_graded id h] at hmissing ⊢
  obtain ⟨⟨hkind, hgiven⟩, hungraded⟩ := hmissing
  refine ⟨⟨hkind, hgiven.imp_right ?_⟩, ?_⟩
  · rintro ⟨_, ⟨r, hr, rfl⟩, hrq⟩
    refine ⟨r, hr, ?_⟩
    split at hrq
    · exact hrq
    · exact hrq
  · rintro ⟨r, hr, hrq, hgraded⟩
    refine hungraded ⟨_, ⟨r, hr, rfl⟩, ?_⟩
    split
    · exact ⟨hrq, rfl⟩
    · exact ⟨hrq, hgraded⟩

theorem gradeResponse_makes (qid : Uuid) (points : ℚ) (feedback : String) (hs : QuizSound db)
    (hr : ReleaseImpliesGraded db) :
    (gradeResponse env user id qid points feedback).Makes KeepsGraded db := by
  unfold gradeResponse
  refine makes_readOnly_bind (requireTeacher_readOnly _) fun _ _ => ?_
  refine makes_readOnly_bind (attemptClassroom_readOnly _) fun _ _ => ?_
  refine makes_readOnly_bind (requireTeacherAccess_readOnly _ _) fun _ _ => ?_
  refine makes_readOnly_bind (questionKey_readOnly _ _) fun key _ => ?_
  refine makes_readOnly_bind (readOnly_require _ _) fun _ _ => ?_
  refine makes_readOnly_bind (readOnly_require _ _) fun _ _ => ?_
  refine makes_executeReturning_bind trivial fun db₁ h => ?_
  refine makes_readOnly_bind (readOnly_require _ _) fun _ _ => ?_
  refine makes_bind (fun _ _ => ⟨fun b hb hbid hsub hreleased => ?_, trivial⟩) fun _ db₂ _ =>
    makes_always ?_
  · have heff := run_effect h
    rw [show db₁.quizAttempts = db.quizAttempts from heff.attempts] at hb
    rw [released_congr heff.deliveries] at hreleased
    have hgraded := hr b hb hsub hreleased
    exact manualMissing_gradeResponse id h ((hs.settled id b hb hbid hsub).2.mp hgraded)
  · exact (writesOnly_execute fun _ => trivial).bind fun _ => (loadAttempt_readOnly _ _ _ _).writesOnly

theorem handle_makes (call : QuizCall) (hs : QuizSound db) (hr : ReleaseImpliesGraded db) :
    (handle .asNamed call).Makes KeepsGraded db := by
  obtain ⟨env, user, request⟩ := call
  have hreply : ∀ {α : Type} {reply : α → QuizReply} {p : QuizProgram α},
      p.Makes KeepsGraded db → (replying reply p).Makes KeepsGraded db :=
    fun hp => makes_bind hp fun _ _ _ => trivial
  have hplain : ∀ {α : Type} {reply : α → QuizReply} {p : QuizProgram α},
      (p.WritesOnly fun l => ∀ db, KeepsGraded l db) → (replying reply p).Makes KeepsGraded db :=
    fun hp => hreply (makes_always hp)
  cases request with
  | get id => exact hplain (getQuiz_readOnly user id).writesOnly
  | create req => exact hplain (createQuiz_writes env user req fun _ _ _ _ _ => trivial)
  | update id req => exact hplain (updateQuiz_writes env user id req fun _ _ _ _ _ _ => trivial)
  | archive id =>
    exact hplain (archiveQuiz_writes env user id (fun _ _ _ => trivial) fun _ _ => trivial)
  | duplicate id => exact hplain (duplicateQuiz_writes env user id fun _ _ _ _ _ => trivial)
  | publish id => exact hplain (publishQuiz_writes env user id fun _ _ _ _ _ _ => trivial)
  | deliver id req =>
    exact hplain (deliverQuiz_writes env user id req (fun _ _ => trivial) fun _ _ => trivial)
  | listDeliveries cid => exact hplain (listDeliveries_readOnly user cid).writesOnly
  | start id => exact hplain (startAttempt_writes env user id fun _ _ => trivial)
  | getAttempt id => exact hplain (loadAttempt_readOnly _ _ _ _).writesOnly
  | listAttempts id => exact hplain (listAttempts_readOnly env user id).writesOnly
  | save id qid answer =>
    exact hplain (saveResponse_writes env user id .asNamed qid answer fun _ _ => trivial)
  | submit id => exact hreply (submitAttempt_makes env user id)
  | reopen id =>
    exact hplain (reopenAttempt_writes env user id (fun _ _ _ _ => trivial) fun _ _ => trivial)
  | grade id qid points feedback =>
    exact hreply (gradeResponse_makes env user id qid points feedback hs hr)
  | release id => exact hreply (releaseResults_makes env user id)

end InTurn

/-- Requests that are made one after another meet the condition: no write comes between a check and
the write that it is for. -/
theorem keepsGraded_serially {ι : Type} [DecidableEq ι] {db : Database} (hs : QuizSound db)
    (hr : ReleaseImpliesGraded db) {ms : List (Move ι QuizCall)}
    (hms : (Pool.idle db : QuizPool ι).Serially (handle .asNamed) ms) :
    (Pool.idle db : QuizPool ι).Guarded (handle .asNamed) (fun _ => True)
      (fun _ l w => KeepsGraded l w.state) ms := by
  refine Pool.guarded_of_serially (I := fun db => QuizSound db ∧ ReleaseImpliesGraded db)
    (fun call db h => ?_) (.inl ⟨fun _ _ _ h => (by cases h), hs, hr⟩) hms
  have hmakes := handle_makes call h.1 h.2
  exact ⟨hmakes, handle_sound call h.1, hmakes.leaves (I := ReleaseImpliesGraded)
    (fun _ _ _ hl hrun hi => (keepsGraded_exact hi hrun).mpr hl) h.2⟩

/-- The released results of a run are always graded if and only if each of its
writes is let through. -/
theorem release_implies_graded_iff {ι : Type} [DecidableEq ι] (db : Database)
    (hdb : ReleaseImpliesGraded db) (ms : List (Move ι QuizCall)) :
    (Pool.idle db : QuizPool ι).Guarded (handle .asNamed) (fun _ => True)
        (fun _ l w => KeepsGraded l w.state) ms ↔
      ∀ ns, ns <+: ms → ReleaseImpliesGraded
        ((Pool.idle db : QuizPool ι).run (handle .asNamed) ns).world.state :=
  Pool.guarded_iff_inv (I := fun w => ReleaseImpliesGraded w.state)
    (fun _ _ _ _ hinv hw => keepsGraded_exact hinv hw.1) hdb ms fun _ _ _ => trivial

def releaseDatabase : Database :=
  sampleDatabase (sampleQuestion .shortAnswer .null) sampleAttempt

/-- The student answers. The teacher's request counts no ungraded attempt, the
student submits, and then the teacher's request releases the results. -/
def releaseRun : List (Move Nat QuizCall) :=
  .start 0 ⟨sampleEnv 10, sampleStudent, .save 8 6 (.str "yes")⟩ ::
      List.replicate 8 (.advance 0) ++
    .start 1 ⟨sampleEnv 20, sampleTeacher, .release 7⟩ :: List.replicate 3 (.advance 1) ++
      .start 2 ⟨sampleEnv 30, sampleStudent, .submit 8⟩ :: List.replicate 14 (.advance 2) ++
        List.replicate 3 (.advance 1)

theorem release_implies_graded_iff_sample :
    (Pool.idle releaseDatabase : QuizPool Nat).Guarded (handle .asNamed) (fun _ => True)
        (fun _ l w => KeepsGraded l w.state) releaseRun ↔
      ∀ ns, ns <+: releaseRun → ReleaseImpliesGraded
        ((Pool.idle releaseDatabase : QuizPool Nat).run (handle .asNamed) ns).world.state :=
  release_implies_graded_iff releaseDatabase (by decide) releaseRun

/-- Both requests succeed, and the student is shown a result nobody graded. -/
theorem release_races_submit :
    ReleaseImpliesGraded releaseDatabase ∧
      ¬ReleaseImpliesGraded
        ((Pool.idle releaseDatabase : QuizPool Nat).run (handle .asNamed) releaseRun).world.state :=
  ⟨by decide, by decide +kernel⟩

end Cinder.Quizzes
