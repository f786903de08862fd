import Cinder.Quizzes.QuizEffects
import Cinder.Quizzes.QuizHandlers
set_option autoImplicit false

/-!
What the requests of a student's attempt check. Starting checks the enrolment,
and no request checks that the classroom is active; saving and submitting look
at the attempt only.
-/

namespace Cinder.Quizzes
open Cinder.Host Cinder.Storage Cinder.Programs Cinder.Programs.Program

section Conditions
variable (db : Database)

def sessionOf (d : QuizDeliveryRow) : Option LiveSessionRow :=
  d.liveSessionId.bind fun sid => db.liveModuleSessions.find? fun s => s.id = sid

def LiveOpen (d : QuizDeliveryRow) (studentId : Uuid) (now : Time) : Prop :=
  d.kind = .live → ∃ s ∈ sessionOf db d,
    (db.liveModuleParticipants.rows.any fun p => p.sessionId = s.id && p.studentId = studentId) =
      true ∧ s.endedAt = none ∧ now < s.endsAt

instance (d : QuizDeliveryRow) (studentId : Uuid) (now : Time) :
    Decidable (LiveOpen db d studentId now) := inferInstanceAs (Decidable (_ → _))

/-- What lets a student start an attempt at a delivery: the delivery is open, the
student enrolled. -/
structure Startable (d : QuizDeliveryRow) (studentId : Uuid) (now : Time) : Prop where
  unreleased : d.resultsReleasedAt = none
  enrolled : enrolled db d.classroomId studentId = true
  opened : ∀ t ∈ d.opensAt, t ≤ now
  due : ∀ t ∈ d.dueAt, now < t
  live : LiveOpen db d studentId now

/-- What lets a student write to an attempt: it is the student's, and open. -/
structure Writable (a : QuizAttemptRow) (d : QuizDeliveryRow) (studentId : Uuid) (now : Time) :
    Prop where
  own : a.studentId = studentId
  unsubmitted : a.submittedAt = none
  unreleased : d.resultsReleasedAt = none
  live : LiveOpen db d studentId now
  unexpired : ∀ t ∈ a.expiresAt, now < t
  due : ∀ t ∈ d.dueAt, now < t

/-- The student has an attempt at the delivery already, or a new one gets an
identifier of its own. -/
def AttemptStorable (delivery studentId fresh : Uuid) : Prop :=
  (∃ a ∈ db.quizAttempts.rows, a.deliveryId = delivery ∧ a.studentId = studentId) ∨
    ∀ a ∈ db.quizAttempts.rows, a.id ≠ fresh

end Conditions

variable {env : Env} {db : Database} {student : CurrentUser} {id : Uuid}

section Deadlines
variable {α : Type} {c : Prop} {d : QuizDeliveryRow} {sid : Uuid} {now : Time}
variable {f : Option Time → QuizProgram α}

theorem delivery?_id (hd : delivery? db id = some d) : d.id = id := by
  simpa using (Table.mem_of_find? hd).2

theorem refusedUnless_activeLiveDeadline_bind (hd : delivery? db id = some d)
    (h : ∀ t, LiveOpen db d sid now → (f t).RefusedUnless c db) :
    (activeLiveDeadline id sid now >>= f).RefusedUnless c db := by
  unfold activeLiveDeadline
  rw [bind_assoc]
  refine refusedUnless_queryRow_bind fun ⟨kind, session, joined⟩ hrow => ?_
  rw [hd] at hrow
  cases hrow
  dsimp only
  by_cases hkind : d.kind = .live
  · rw [if_neg (not_not.mpr hkind), bind_assoc]
    refine refusedUnless_require_bind fun hjoined => ?_
    cases hs : sessionOf db d with
    | none =>
      rw [sessionOf] at hs
      rw [hs]
      exact refusedUnless_fail _
    | some s =>
      rw [sessionOf] at hs
      rw [hs] at hjoined ⊢
      dsimp only
      rw [bind_assoc]
      refine refusedUnless_require_bind fun hopen => h _ fun _ => ?_
      exact ⟨s, hs, by simpa using hjoined, hopen⟩
  · rw [if_pos hkind]
    exact h none fun hlive => absurd hlive hkind

theorem exec_activeLiveDeadline (hd : delivery? db id = some d) (hlive : LiveOpen db d sid now) :
    ∃ t, (activeLiveDeadline id sid now).exec db = (.ok t, db) ∧ ∀ e ∈ t, now < e := by
  unfold activeLiveDeadline
  rw [exec_bind_ok _ (by rw [exec_queryRow, hd]; rfl)]
  dsimp only
  split
  · exact ⟨none, rfl, by simp⟩
  · rename_i hkind
    obtain ⟨s, hs, hjoined, hopen⟩ := hlive (not_not.mp hkind)
    rw [sessionOf, Option.mem_def] at hs
    rw [hs]
    refine ⟨some s.endsAt, ?_, by simpa using hopen.2⟩
    rw [exec_bind_ok _ (by rw [exec_require, if_pos (by simpa using hjoined)])]
    dsimp only
    rw [exec_bind_ok _ (by rw [exec_require, if_pos hopen])]
    rfl

end Deadlines

section Attempts
variable {a : QuizAttemptRow} {d : QuizDeliveryRow}

theorem refusedUnless_ensureAttemptWritable_bind {α : Type} {c : Prop} {sid : Uuid} {now : Time}
    {f : Unit → QuizProgram α} (h : ∀ a d, attemptDelivery? db id = some (a, d) →
      Writable db a d sid now → (f ()).RefusedUnless c db) :
    (ensureAttemptWritable id sid now >>= f).RefusedUnless c db := by
  unfold ensureAttemptWritable
  simp only [bind_assoc]
  refine refusedUnless_queryRow_bind fun x had => ?_
  obtain ⟨a, d⟩ := x
  have hd := (attemptDelivery?_eq_some.mp had).2
  rw [← delivery?_id hd] at hd
  refine refusedUnless_require_bind fun hown => refusedUnless_require_bind fun hopen => ?_
  refine refusedUnless_activeLiveDeadline_bind hd fun _ hlive => ?_
  refine refusedUnless_require_bind fun hdue => h a d had ?_
  exact ⟨hown, hopen.1, hopen.2, hlive, hdue.1, hdue.2⟩

theorem exec_ensureAttemptWritable {sid : Uuid} {now : Time}
    (had : attemptDelivery? db id = some (a, d)) (h : Writable db a d sid now) :
    (ensureAttemptWritable id sid now).exec db = (.ok (), db) := by
  have hd := (attemptDelivery?_eq_some.mp had).2
  rw [← delivery?_id hd] at hd
  obtain ⟨t, ht, -⟩ := exec_activeLiveDeadline hd h.live
  unfold ensureAttemptWritable
  rw [exec_bind_ok _ (by rw [exec_queryRow, had])]
  dsimp only
  rw [exec_bind_ok _ (by rw [exec_require, if_pos h.own]),
    exec_bind_ok _ (by rw [exec_require, if_pos ⟨h.unsubmitted, h.unreleased⟩]),
    exec_bind_ok _ ht, exec_require, if_pos ⟨h.unexpired, h.due⟩]

end Attempts

section Loading
variable {d : QuizDeliveryRow}

structure Shows (d : QuizDeliveryRow) (delivery : QuizDelivery) : Prop where
  classroom : delivery.classroomId = d.classroomId
  released : delivery.resultsReleasedAt = d.resultsReleasedAt
  opens : delivery.opensAt = d.opensAt
  due : delivery.dueAt = d.dueAt

theorem refusedUnless_loadDelivery_bind {α : Type} {c : Prop} {sid : Uuid}
    {f : QuizDelivery → QuizProgram α} (h : ∀ d delivery, delivery? db id = some d →
      Shows d delivery → (f delivery).RefusedUnless c db) :
    (loadDelivery id (some sid) >>= f).RefusedUnless c db := by
  unfold loadDelivery
  rw [bind_assoc]
  refine refusedUnless_queryRow_bind fun ⟨d, v, k⟩ hrow => ?_
  obtain ⟨d', hd, hrow⟩ := Option.bind_eq_some_iff.mp hrow
  obtain ⟨v', -, hrow⟩ := Option.bind_eq_some_iff.mp hrow
  obtain ⟨k', -, hrow⟩ := Option.bind_eq_some_iff.mp hrow
  cases hrow
  dsimp only
  rw [bind_assoc]
  exact refusedUnless_query_bind (h d _ hd ⟨rfl, rfl, rfl, rfl⟩)

theorem exec_loadDelivery {v : QuizVersionRow} {k : ClassroomRow} (sid : Option Uuid)
    (hd : delivery? db id = some d) (hv : version? db d.versionId = some v)
    (hk : classroom? db d.classroomId = some k) :
    ∃ delivery, (loadDelivery id sid).exec db = (.ok delivery, db) ∧ Shows d delivery := by
  have hrow : (do
      let d ← delivery? db id
      let v ← version? db d.versionId
      let c ← classroom? db d.classroomId
      some (d, v, c)) = some (d, v, k) := by simp [hd, hv, hk]
  unfold loadDelivery
  rw [exec_bind_ok _ (by rw [exec_queryRow, hrow])]
  cases sid <;> exact ⟨_, rfl, rfl, rfl, rfl, rfl⟩

theorem exec_loadResponses (db : Database) (aid : Uuid) (showKey : Bool)
    (questions : List StudentQuizQuestion) :
    ∃ responses, (loadResponses aid showKey questions).exec db = (.ok responses, db) := by
  induction questions with
  | nil => exact ⟨[], rfl⟩
  | cons question questions ih =>
    obtain ⟨responses, hresponses⟩ := ih
    unfold loadResponses
    rw [exec_bind_ok _ (exec_outcome (loadResponse_readOnly _ _ _) db)]
    have hload : (∃ r, ((loadResponse aid question.id showKey).exec db).1 = .ok r) ∨
        ((loadResponse aid question.id showKey).exec db).1 = .error (.notFound "quiz response") := by
      unfold loadResponse
      rw [exec_bind, exec_queryRow]
      cases response? db aid question.id with
      | none => exact .inr rfl
      | some r =>
        cases db.quizVersionQuestions.find? fun q => q.id = question.id with
        | none => exact .inr rfl
        | some q => exact .inl ⟨_, rfl⟩
    rcases hload with ⟨r, hr⟩ | hr
    · rw [hr]
      dsimp only
      exact ⟨_, exec_bind_ok _ hresponses⟩
    · rw [hr]
      exact ⟨_, hresponses⟩

theorem loadAttempt_succeeds {a : QuizAttemptRow} {v : QuizVersionRow} {k : ClassroomRow}
    {u : UserRow} (now : Time) (had : attemptDelivery? db id = some (a, d))
    (hv : version? db d.versionId = some v) (hk : classroom? db d.classroomId = some k)
    (hu : user? db student.id = some u) (hown : a.studentId = student.id) :
    (loadAttempt id student false now).Succeeds db := by
  obtain ⟨delivery, hdelivery, -⟩ := exec_loadDelivery (some student.id)
    (attemptDelivery?_eq_some.mp had).2 hv hk
  unfold loadAttempt
  refine succeeds_queryRow_bind (a := (a, d, u)) (by simp [had, hown, hu]) ?_
  refine succeeds_bind hdelivery ?_
  refine succeeds_require_bind hown (succeeds_query_bind ?_)
  obtain ⟨responses, hresponses⟩ := exec_loadResponses db id
    (d.resultsReleasedAt.isSome && a.submittedAt.isSome || false)
    (studentQuestions db delivery.versionId)
  exact succeeds_bind hresponses ⟨_, _, rfl⟩

end Loading

section Handlers
variable {a : QuizAttemptRow} {d : QuizDeliveryRow} {v : QuizVersionRow} {k : ClassroomRow}
variable {u : UserRow}

theorem startAttempt_refused :
    (startAttempt env student id).RefusedUnless (student.role.isTeacher = false ∧
      (∃ d ∈ delivery? db id, Startable db d student.id (env.now 0)) ∧
      AttemptStorable db id student.id (env.uuid 0)) db := by
  unfold startAttempt
  refine refusedUnless_requireStudent_bind fun hstudent => ?_
  refine refusedUnless_loadDelivery_bind fun d delivery hd hshows => ?_
  rw [hshows.released, hshows.classroom, hshows.opens, hshows.due]
  refine refusedUnless_require_bind fun hreleased => refusedUnless_query_bind ?_
  refine refusedUnless_require_bind fun henrolled => refusedUnless_require_bind fun htimes => ?_
  refine refusedUnless_activeLiveDeadline_bind hd fun liveEnd hlive => refusedUnless_query_bind ?_
  have hstartable : Startable db d student.id (env.now 0) :=
    ⟨hreleased, henrolled, htimes.1, htimes.2, hlive⟩
  split
  · rename_i a ha
    obtain ⟨hmem, hkey⟩ := Table.mem_of_find? ha
    exact refusedUnless_of ⟨hstudent, ⟨d, hd, hstartable⟩, .inl ⟨a, hmem, by simpa using hkey⟩⟩
  · refine refusedUnless_execute_bind fun db' hdb => ?_
    refine ⟨hstudent, ⟨d, hd, hstartable⟩, .inr fun a ha hid => ?_⟩
    have hclash := Table.clash_insert (run_effect hdb).attempts ha
    simp [Keyed.clash, newAttempt, hid] at hclash

theorem attemptDelivery?_inserted {db' : Database} {row : QuizAttemptRow}
    (h : (QuizStatement.insertAttempt row).run db = .ok db')
    (hd : delivery? db row.deliveryId = some d) :
    attemptDelivery? db' row.id = some (newAttempt row, d) := by
  have heffect := run_effect h
  have hmem : newAttempt row ∈ db'.quizAttempts.rows :=
    (Table.mem_insert heffect.attempts).mpr (.inr rfl)
  refine attemptDelivery?_eq_some.mpr ⟨attempt?_of_mem hmem, ?_⟩
  rw [delivery?, heffect.deliveries]
  exact hd

theorem startAttempt_succeeds (hstudent : student.role.isTeacher = false)
    (hd : delivery? db id = some d) (hv : version? db d.versionId = some v)
    (hk : classroom? db d.classroomId = some k) (hu : user? db student.id = some u)
    (h : Startable db d student.id (env.now 0))
    (hstorable : AttemptStorable db id student.id (env.uuid 0)) :
    (startAttempt env student id).Succeeds db := by
  obtain ⟨delivery, hdelivery, hshows⟩ := exec_loadDelivery (some student.id) hd hv hk
  obtain ⟨liveEnd, hlive, -⟩ := exec_activeLiveDeadline hd h.live
  unfold startAttempt
  refine succeeds_requireStudent_bind hstudent (succeeds_bind hdelivery ?_)
  rw [hshows.released, hshows.classroom, hshows.opens, hshows.due]
  refine succeeds_require_bind h.unreleased (succeeds_query_bind ?_)
  refine succeeds_require_bind h.enrolled (succeeds_require_bind ⟨h.opened, h.due⟩ ?_)
  refine succeeds_bind hlive (succeeds_query_bind ?_)
  split
  · rename_i a ha
    obtain ⟨hmem, hkey⟩ := Table.mem_of_find? ha
    simp only [Bool.and_eq_true, decide_eq_true_eq] at hkey
    refine loadAttempt_succeeds _ (attemptDelivery?_eq_some.mpr ⟨attempt?_of_mem hmem, ?_⟩) hv hk
      hu hkey.2
    rw [hkey.1]
    exact hd
  · rename_i hnone
    have hfresh : ∀ a ∈ db.quizAttempts.rows, a.id ≠ env.uuid 0 := by
      refine hstorable.resolve_left fun ⟨a, ha, hkey⟩ => ?_
      simpa [hkey] using Table.find?_eq_none.mp hnone a ha
    obtain ⟨t, ht⟩ := Table.insert_isSome (t := db.quizAttempts) (r := newAttempt
      { id := env.uuid 0, deliveryId := id, studentId := student.id, startedAt := env.now 0
        expiresAt := expiry (env.now 0) delivery.timeLimitMinutes d.dueAt liveEnd
        maxPoints := delivery.totalPoints }) fun a ha => by
      have hid := hfresh a ha
      have hkey := Table.find?_eq_none.mp hnone a ha
      exact Bool.or_eq_false_iff.mpr ⟨decide_eq_false hid, hkey⟩
    have hrun : (QuizStatement.insertAttempt
      { id := env.uuid 0, deliveryId := id, studentId := student.id, startedAt := env.now 0
        expiresAt := expiry (env.now 0) delivery.timeLimitMinutes d.dueAt liveEnd
        maxPoints := delivery.totalPoints }).run db = .ok { db with quizAttempts := t } := by
      simp [QuizStatement.run, ht, stored]
      rfl
    refine succeeds_execute_bind hrun ?_
    exact loadAttempt_succeeds _ (attemptDelivery?_inserted hrun hd) hv hk hu rfl

theorem submitAttempt_refused :
    (submitAttempt env student id).RefusedUnless (student.role.isTeacher = false ∧
      (∃ x ∈ attemptDelivery? db id, Writable db x.1 x.2 student.id (env.now 0)) ∧
      missingRequired db id = 0) db := by
  unfold submitAttempt
  refine refusedUnless_requireStudent_bind fun hstudent => ?_
  refine refusedUnless_ensureAttemptWritable_bind fun a d had hwritable => ?_
  refine refusedUnless_query_bind (refusedUnless_require_bind fun hmissing => ?_)
  exact refusedUnless_of ⟨hstudent, ⟨(a, d), had, hwritable⟩, hmissing⟩

theorem submitAttempt_succeeds (hstudent : student.role.isTeacher = false)
    (had : attemptDelivery? db id = some (a, d)) (hv : version? db d.versionId = some v)
    (hk : classroom? db d.classroomId = some k) (hu : user? db student.id = some u)
    (h : Writable db a d student.id (env.now 0)) (hmissing : missingRequired db id = 0) :
    (submitAttempt env student id).Succeeds db := by
  obtain ⟨ha, hd⟩ := attemptDelivery?_eq_some.mp had
  unfold submitAttempt
  refine succeeds_requireStudent_bind hstudent (succeeds_bind (exec_ensureAttemptWritable had h) ?_)
  refine succeeds_query_bind (succeeds_require_bind hmissing ?_)
  refine succeeds_execute_bind rfl (succeeds_bind rfl ?_)
  have hmarked := Table.find?_update_self (markAttempt_keeps (env.now 1)) ha fun _ => rfl
  refine loadAttempt_succeeds _ (attemptDelivery?_eq_some.mpr
    ⟨Table.find?_update_self (scoreAttempt_keeps _ _ _) hmarked fun _ => rfl, hd⟩) hv hk hu h.own

/-- The statement of `save_response` takes one parameter less than it is given. -/
theorem saveResponse_refused (qid : Uuid) (answer : Json) :
    (saveResponse env .asWritten student id qid answer).RefusedUnless False db := by
  unfold saveResponse
  refine refusedUnless_requireStudent_bind fun _ => ?_
  refine refusedUnless_ensureAttemptWritable_bind fun a d _ _ => ?_
  refine refusedUnless_bind (questionKey_readOnly _ _) fun key _ => ?_
  rw [bindResponse_asWritten]
  exact refusedUnless_fail _

end Handlers

end Cinder.Quizzes
