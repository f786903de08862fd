import Cinder.LiveSessions.SessionChanges
import Cinder.Quizzes.AttemptDeadlines
import Cinder.Quizzes.QuizScoreRuns
set_option autoImplicit false

/-!
The quiz requests and the live-session requests of a lesson, over one store. No
attempt outlasts what limits it, whatever the requests do in between.
-/

namespace Cinder.Lessons
open Cinder.Host Cinder.Storage Cinder.Programs Cinder.Programs.Program Cinder.Programs.Protocol
open Cinder.Quizzes hiding handle replying
open Cinder.LiveSessions (LiveStore LiveStoreStatement LiveCall LiveReply SessionStatement
  SessionChange)

inductive LessonStatement where
  | quiz (l : QuizStatement)
  | live (l : LiveStoreStatement)

def LessonStatement.run : LessonStatement → LiveStore → Except HostError LiveStore
  | .quiz l, s => (l.run s.lib.school).map s.withSchool
  | .live l, s => l.run s

instance : Engine LiveStore LessonStatement HostError := ⟨LessonStatement.run⟩

abbrev LessonProgram := Program LiveStore LessonStatement HostError

inductive LessonCall where
  | quiz (c : QuizCall)
  | live (c : LiveCall)

inductive LessonReply where
  | quiz (r : QuizReply)
  | live (r : LiveReply)
  deriving DecidableEq, Repr

section Lift
variable {α β : Type}

def ofQuiz (p : QuizProgram α) : LessonProgram α := p.within (·.lib.school) .quiz

theorem ofQuiz_bind (p : QuizProgram α) (f : α → QuizProgram β) :
    ofQuiz (p >>= f) = ofQuiz p >>= fun a => ofQuiz (f a) := within_bind _ _ p f

section Follows
variable {ι : Type} {pr : Protocol ι LiveStore LessonStatement} {i : ι}
variable {P : World ι LiveStore LessonStatement → Prop} (hP : pr.Stable i P)
include hP

theorem follows_seen_bind {p : QuizProgram α} {f : α → QuizProgram β}
    {Q : β → World ι LiveStore LessonStatement → Prop} (hp : p.ReadOnly)
    (h : ∀ a, pr.Follows i Q (ofQuiz (f a)) P) : pr.Follows i Q (ofQuiz (p >>= f)) P := by
  rw [ofQuiz_bind]
  exact (Follows.readOnly hP (hp.within _ _)).bind h

theorem follows_checked_bind {c : Prop} [Decidable c] {e : HostError} {f : Unit → QuizProgram β}
    {Q : β → World ι LiveStore LessonStatement → Prop}
    (h : c → pr.Follows i Q (ofQuiz (f ())) P) :
    pr.Follows i Q (ofQuiz (require c e >>= f)) P := by
  rw [ofQuiz_bind, ofQuiz, within_require]
  exact Follows.require_bind hP h

end Follows

end Lift

def handle (u : SaveUpsert) : LessonCall → LessonProgram LessonReply
  | .quiz c => ofQuiz (Quizzes.handle u c) >>= fun r => pure (.quiz r)
  | .live c => (LiveSessions.handle c).relabel .live >>= fun r => pure (.live r)

abbrev LessonPool (ι : Type) :=
  Pool ι LessonCall LiveStore LessonStatement HostError LessonReply

abbrev LessonWorld (ι : Type) := World ι LiveStore LessonStatement

section Statements
variable {s s' : LiveStore}

theorem change_terms {db db' : Database} {l : SessionStatement} (h : SessionChange db l db') :
    TermsKept db db' ∧ db'.quizAttempts = db.quizAttempts := by
  have hquiz : db'.quizAttempts = db.quizAttempts ∧ db'.quizDeliveries = db.quizDeliveries ∧
      db'.quizVersions = db.quizVersions := by
    cases h <;> exact ⟨rfl, rfl, rfl⟩
  obtain ⟨hattempts, hdeliveries, hversions⟩ := hquiz
  refine ⟨⟨fun id a ha => ⟨a, ?_, rfl⟩, fun id d hd => ⟨d, ?_, rfl, rfl, rfl, rfl⟩,
    fun id v hv => ?_, fun d r hr => ?_⟩, hattempts⟩
  · rwa [attempt?, hattempts]
  · rwa [delivery?, hdeliveries]
  · rwa [version?, hversions]
  · obtain ⟨sid, hsid, hfound⟩ := Option.bind_eq_some_iff.mp hr
    obtain ⟨hmem, hid⟩ := Table.mem_of_find? hfound
    obtain ⟨r', hmem', hsame, -, hends⟩ := h.session_kept hmem
    refine ⟨r', Option.bind_eq_some_iff.mpr ⟨sid, hsid, Table.find?_of_mem hmem' ?_ ?_⟩, hends⟩
    · rw [hsame]
      exact hid
    · intro r'' _ hid'
      have hsid' : r''.id = r'.id :=
        (of_decide_eq_true hid').trans ((of_decide_eq_true hid).symm.trans hsame.symm)
      simp [Keyed.clash, hsid']

theorem run_quiz {l : QuizStatement} (h : (LessonStatement.quiz l).run s = .ok s') :
    l.run s.lib.school = .ok s'.lib.school := by
  cases hrun : l.run s.lib.school with
  | error e => simp [LessonStatement.run, hrun, Except.map] at h
  | ok db' =>
    simp only [LessonStatement.run, hrun, Except.map, Except.ok.injEq] at h
    rw [← h, LiveStore.withSchool_school]

theorem run_live {l : LiveStoreStatement} (h : (LessonStatement.live l).run s = .ok s') :
    TermsKept s.lib.school s'.lib.school ∧
      s'.lib.school.quizAttempts = s.lib.school.quizAttempts := by
  cases l with
  | utcNow now =>
    cases h
    exact ⟨⟨fun _ a ha => ⟨a, ha, rfl⟩, fun _ d hd => ⟨d, hd, rfl, rfl, rfl, rfl⟩,
      fun _ _ hv => hv, fun _ s hs => ⟨s, hs, rfl⟩⟩, rfl⟩
  | school l =>
    obtain ⟨db', hchange, rfl⟩ := LiveStoreStatement.run_school h
    exact change_terms hchange

theorem run_terms {l : LessonStatement} (h : l.run s = .ok s') :
    TermsKept s.lib.school s'.lib.school := by
  cases l with
  | quiz l => exact termsKept_step (run_quiz h)
  | live l => exact (run_live h).1

def LessonStatement.setsInTime (l : LessonStatement) (s : LiveStore) : Prop :=
  match l with
  | .quiz l => SetsInTime l s.lib.school
  | .live _ => True

theorem run_deadlines {l : LessonStatement} (h : l.run s = .ok s') (hl : l.setsInTime s)
    (hs : DeadlinesKept s.lib.school) : DeadlinesKept s'.lib.school := by
  cases l with
  | quiz l => exact deadlinesKept_step (run_quiz h) hl hs
  | live l =>
    obtain ⟨hterms, hattempts⟩ := run_live h
    intro a ha
    rw [hattempts] at ha
    exact (hs a ha).kept hterms

end Statements

def Untimed (l : QuizStatement) : Prop := ∀ db, SetsInTime l db

theorem issued_untimed {request : QuizRequest} {l : QuizStatement} (h : Issued request l)
    (hstart : ∀ id, request ≠ .start id) (hreopen : ∀ id, request ≠ .reopen id) : Untimed l := by
  intro db
  cases h with
  | start => exact absurd rfl (hstart _)
  | reopen => exact absurd rfl (hreopen _)
  | ordinary hordinary =>
    cases l with
    | insertAttempt | reopenAttempt => cases hordinary
    | _ => trivial
  | create | update | archive | archiveAudit | duplicate | publish => trivial

section Handlers
variable {ι : Type}

/-- Every statement keeps the deadlines, if those that set one set it in time. -/
def deadlines (ι : Type) : Protocol ι LiveStore LessonStatement where
  inv w := DeadlinesKept w.state.lib.school
  guard _ _ _ := True
  promise _ l w := l.setsInTime w.state
  inv_step _ _ _ _ hi _ hp hw := run_deadlines hw.1 hp hi

def Holds (P : Database → Prop) (w : LessonWorld ι) : Prop := P w.state.lib.school

variable {P : Database → Prop} (hP : ∀ db db', TermsKept db db' → P db → P db') (i : ι)
include hP

theorem stable_of_kept : (deadlines ι).Stable i (Holds P) :=
  fun _ _ _ _ _ h _ _ _ hw => hP _ _ (run_terms hw.1) h

theorem follows_queryRow {α : Type} {q : Database → Option α} {e : HostError}
    {Q : α → Database → Prop} (hQ : ∀ a db db', TermsKept db db' → Q a db → Q a db')
    (h : ∀ db a, P db → q db = some a → Q a db) :
    (deadlines ι).Follows i (fun a => Holds (Q a)) (ofQuiz (queryRow q e)) (Holds P) := by
  rw [ofQuiz, within_queryRow]
  exact Follows.queryRow (stable_of_kept hP i) (fun a => stable_of_kept (hQ a) i)
    fun w a _ hw hrow => h _ a hw hrow

theorem follows_require_bind {α : Type} {c : Prop} [Decidable c] {e : HostError}
    {f : Unit → QuizProgram α} {Q : α → LessonWorld ι → Prop}
    (h : c → (deadlines ι).Follows i Q (ofQuiz (f ())) (Holds P)) :
    (deadlines ι).Follows i Q (ofQuiz (require c e >>= f)) (Holds P) :=
  follows_checked_bind (stable_of_kept hP i) h

theorem follows_readOnly_bind {α β : Type} {p : QuizProgram α} {f : α → QuizProgram β}
    {Q : β → LessonWorld ι → Prop} (hp : p.ReadOnly)
    (h : ∀ a, (deadlines ι).Follows i Q (ofQuiz (f a)) (Holds P)) :
    (deadlines ι).Follows i Q (ofQuiz (p >>= f)) (Holds P) :=
  follows_seen_bind (stable_of_kept hP i) hp h

theorem follows_untimed {α : Type} {p : QuizProgram α} (hp : p.WritesOnly Untimed) :
    (deadlines ι).Follows i (fun _ _ => True) (ofQuiz p) (Holds P) := by
  refine Follows.weaken (stable_of_kept hP i) (fun _ _ => trivial) ?_
  exact Follows.of_writesOnly (fun l w h => h w.state)
    (WritesOnly.within (c := fun l => ∀ s, l.setsInTime s) (hp.imp fun l h s => h _))

theorem follows_execute_bind {α : Type} {l : QuizStatement} {f : Unit → QuizProgram α}
    (hl : ∀ db, P db → SetsInTime l db) (hf : (f ()).WritesOnly Untimed) :
    (deadlines ι).Follows i (fun _ _ => True) (ofQuiz (execute l >>= f)) (Holds P) := by
  rw [ofQuiz_bind]
  refine Follows.bind (Q := fun _ => Holds fun _ => True) ⟨stable_of_kept hP i, fun w w' _ hw _ _ =>
    ⟨hl _ hw, Holds fun _ => True, trivial, (deadlines ι).stable_const i True, fun _ _ => trivial⟩⟩ ?_
  exact fun _ => follows_untimed (fun _ _ _ _ => trivial) i hf

theorem activeLiveDeadline_follows (id studentId : Uuid) (now : Time) :
    (deadlines ι).Follows i (fun liveEnd => Holds fun db => P db ∧ LiveEndRead db id liveEnd)
      (ofQuiz (activeLiveDeadline id studentId now)) (Holds P) := by
  have hread : ∀ (row : QuizDeliveryKind × Option LiveSessionRow × Bool) db db',
      TermsKept db db' → (P db ∧ (row.1 = .live → ∀ s ∈ row.2.1, LiveEndRead db id (some s.endsAt)) ∧
        (row.1 ≠ .live → LiveEndRead db id none)) →
      P db' ∧ (row.1 = .live → ∀ s ∈ row.2.1, LiveEndRead db' id (some s.endsAt)) ∧
        (row.1 ≠ .live → LiveEndRead db' id none) := fun row db db' h hdb =>
    ⟨hP db db' h hdb.1, fun hk s hs => (hdb.2.1 hk s hs).kept h, fun hk => (hdb.2.2 hk).kept h⟩
  unfold activeLiveDeadline
  rw [ofQuiz_bind]
  refine Follows.bind (follows_queryRow hP i hread ?_) fun row => ?_
  · intro db row hdb hrow
    obtain ⟨d, hd, hcolumns⟩ := Option.bind_eq_some_iff.mp hrow
    cases hcolumns
    exact ⟨hdb, fun _ s hs => ⟨d, hd, fun _ => ⟨s, hs, rfl⟩⟩,
      fun hk => ⟨d, hd, fun hlive => absurd hlive hk⟩⟩
  · have hrow := hread row
    obtain ⟨kind, session, joined⟩ := row
    dsimp only at hrow ⊢
    by_cases hkind : kind = .live
    · rw [if_neg (not_not.mpr hkind)]
      refine follows_require_bind hrow i fun _ => ?_
      cases session with
      | none => exact Follows.fail (stable_of_kept hrow i)
      | some s =>
        refine follows_require_bind hrow i fun _ => Follows.ret (stable_of_kept hrow i) ?_
        exact fun w hw => ⟨hw.1, hw.2.1 hkind s rfl⟩
    · rw [if_pos hkind]
      exact Follows.ret (stable_of_kept hrow i) fun w hw => ⟨hw.1, hw.2.2 hkind⟩

/-- What `load_delivery` reads of the limits. -/
theorem loadDelivery_follows (id : Uuid) (student : Option Uuid) :
    (deadlines ι).Follows i (fun delivery => Holds fun db => TermsRead db id delivery.dueAt
      delivery.timeLimitMinutes) (ofQuiz (loadDelivery id student)) (Holds P) := by
  unfold loadDelivery
  rw [ofQuiz_bind]
  refine Follows.bind (Q := fun row : QuizDeliveryRow × QuizVersionRow × ClassroomRow =>
    Holds fun db => TermsRead db id row.1.dueAt row.2.1.timeLimitMinutes)
    (follows_queryRow hP i (fun _ _ _ h hdb => hdb.kept h) ?_) fun row => ?_
  · intro db row _ hrow
    obtain ⟨d, hd, hrow⟩ := Option.bind_eq_some_iff.mp hrow
    obtain ⟨v, hv, hrow⟩ := Option.bind_eq_some_iff.mp hrow
    obtain ⟨c, -, hcolumns⟩ := Option.bind_eq_some_iff.mp hrow
    cases hcolumns
    exact ⟨d, v, hd, hv, rfl, rfl⟩
  · obtain ⟨d, v, c⟩ := row
    have hkept : ∀ db db', TermsKept db db' → TermsRead db id d.dueAt v.timeLimitMinutes →
        TermsRead db' id d.dueAt v.timeLimitMinutes := fun _ _ h hdb => hdb.kept h
    refine follows_readOnly_bind hkept i (ownAttempt_readOnly _ _) fun attempt => ?_
    exact Follows.ret (stable_of_kept hkept i) fun w hw => hw

end Handlers

section Requests
variable {ι : Type} (env : Env) (user : CurrentUser) (id : Uuid) (i : ι)

theorem startAttempt_follows : (deadlines ι).Follows i (fun _ _ => True)
    (ofQuiz (startAttempt env user id)) (Holds fun _ => True) := by
  have htrue : ∀ db db' : Database, TermsKept db db' → True → True := fun _ _ _ _ => trivial
  unfold startAttempt
  refine follows_readOnly_bind htrue i (requireStudent_readOnly _) fun _ => ?_
  rw [ofQuiz_bind]
  refine (loadDelivery_follows htrue i id _).bind fun delivery => ?_
  have hterms : ∀ db db', TermsKept db db' →
      TermsRead db id delivery.dueAt delivery.timeLimitMinutes →
      TermsRead db' id delivery.dueAt delivery.timeLimitMinutes := fun _ _ h hdb => hdb.kept h
  refine follows_require_bind hterms i fun _ => ?_
  refine follows_readOnly_bind hterms i (readOnly_query _) fun enrolled => ?_
  refine follows_require_bind hterms i fun _ => follows_require_bind hterms i fun _ => ?_
  rw [ofQuiz_bind]
  refine (activeLiveDeadline_follows hterms i id _ _).bind fun liveEnd => ?_
  have hlimits : ∀ db db', TermsKept db db' →
      (TermsRead db id delivery.dueAt delivery.timeLimitMinutes ∧ LiveEndRead db id liveEnd) →
      TermsRead db' id delivery.dueAt delivery.timeLimitMinutes ∧ LiveEndRead db' id liveEnd :=
    fun _ _ h hdb => ⟨hdb.1.kept h, hdb.2.kept h⟩
  refine follows_readOnly_bind hlimits i (readOnly_query _) fun existing => ?_
  cases existing with
  | some a => exact follows_untimed hlimits i (loadAttempt_readOnly _ _ _ _).writesOnly
  | none =>
    refine follows_execute_bind hlimits i (fun db hdb => limited_of_read hdb.1 hdb.2) ?_
    exact (loadAttempt_readOnly _ _ _ _).writesOnly

theorem reopenAttempt_follows : (deadlines ι).Follows i (fun _ _ => True)
    (ofQuiz (reopenAttempt env user id)) (Holds fun _ => True) := by
  have htrue : ∀ db db' : Database, TermsKept db db' → True → True := fun _ _ _ _ => trivial
  unfold reopenAttempt
  refine follows_readOnly_bind htrue i (requireTeacher_readOnly _) fun _ => ?_
  refine follows_readOnly_bind htrue i (attemptClassroom_readOnly _) fun classroom => ?_
  refine follows_readOnly_bind htrue i (requireTeacherAccess_readOnly _ _) fun _ => ?_
  rw [ofQuiz_bind]
  have hread : ∀ (row : QuizAttemptRow × QuizDeliveryRow × QuizVersionRow) db db',
      TermsKept db db' → ((∃ a ∈ attempt? db id, a.deliveryId = row.2.1.id) ∧
        TermsRead db row.2.1.id row.2.1.dueAt row.2.2.timeLimitMinutes) →
      (∃ a ∈ attempt? db' id, a.deliveryId = row.2.1.id) ∧
        TermsRead db' row.2.1.id row.2.1.dueAt row.2.2.timeLimitMinutes :=
    fun row db db' h ⟨⟨a, ha, hdelivery⟩, hterms⟩ => by
      obtain ⟨a', ha', hsame⟩ := h.attempt id a ha
      exact ⟨⟨a', ha', hsame.trans hdelivery⟩, hterms.kept h⟩
  refine Follows.bind (follows_queryRow htrue i hread ?_) fun row => ?_
  · intro db row _ hrow
    obtain ⟨⟨a, d⟩, had, hrow⟩ := Option.bind_eq_some_iff.mp hrow
    obtain ⟨v, hv, hcolumns⟩ := Option.bind_eq_some_iff.mp hrow
    cases hcolumns
    obtain ⟨ha, hd⟩ := attemptDelivery?_eq_some.mp had
    have hid : d.id = a.deliveryId := delivery?_id hd
    exact ⟨⟨a, ha, hid.symm⟩, d, v, hid ▸ hd, hv, rfl, rfl⟩
  · have hrow := hread row
    obtain ⟨a, d, v⟩ := row
    dsimp only at hrow ⊢
    refine follows_require_bind hrow i fun _ => ?_
    rw [ofQuiz_bind]
    refine (activeLiveDeadline_follows hrow i d.id _ _).bind fun liveEnd => ?_
    refine follows_execute_bind (fun db db' h hdb => ⟨hrow db db' h hdb.1, hdb.2.kept h⟩) i ?_ ?_
    · intro db ⟨⟨⟨a', ha', hdelivery⟩, hterms⟩, hlive⟩ a'' ha''
      obtain rfl : a' = a'' := Option.some.inj (ha'.symm.trans ha'')
      rw [hdelivery]
      exact limited_of_read hterms hlive
    · exact (writesOnly_execute fun _ => trivial).bind fun _ =>
        (loadAttempt_readOnly _ _ _ _).writesOnly

theorem quiz_follows (u : SaveUpsert) (call : QuizCall) : (deadlines ι).Follows i
    (fun _ _ => True) (ofQuiz (Quizzes.handle u call)) (Holds fun _ => True) := by
  obtain ⟨env, user, request⟩ := call
  have htrue : ∀ db db' : Database, TermsKept db db' → True → True := fun _ _ _ _ => trivial
  have hreply : ∀ {α : Type} {reply : α → QuizReply} {p : QuizProgram α},
      (deadlines ι).Follows i (fun _ _ => True) (ofQuiz p) (Holds fun _ => True) →
      (deadlines ι).Follows i (fun _ _ => True) (ofQuiz (Quizzes.replying reply p))
        (Holds fun _ => True) := fun hp => by
    rw [Quizzes.replying, ofQuiz_bind]
    exact hp.bind fun a => Follows.ret ((deadlines ι).stable_const i True) fun _ _ => trivial
  cases request with
  | start id => exact hreply (startAttempt_follows env user id i)
  | reopen id => exact hreply (reopenAttempt_follows env user id i)
  | _ =>
    exact follows_untimed htrue i ((handle_issues u _).imp fun _ h =>
      issued_untimed h (fun _ hr => by cases hr) fun _ hr => by cases hr)

theorem handle_follows (u : SaveUpsert) (call : LessonCall) :
    (deadlines ι).Follows i (fun _ _ => True) (handle u call) (fun _ => True) := by
  have htrue := (deadlines ι).stable_const i True
  cases call with
  | quiz call =>
    exact (quiz_follows i u call).bind fun reply => Follows.ret htrue fun _ _ => trivial
  | live call =>
    have hlive : ((LiveSessions.handle call).relabel LessonStatement.live).WritesOnly
        fun l => ∀ s, l.setsInTime s :=
      WritesOnly.relabel (writesOnly_of_forall (fun _ _ => trivial) _)
    have hfollows : (deadlines ι).Follows i (fun _ _ => True)
        ((LiveSessions.handle call).relabel LessonStatement.live) (fun _ => True) :=
      Follows.of_writesOnly (fun l w h => h w.state) hlive
    exact hfollows.bind fun reply => Follows.ret htrue fun _ _ => trivial

end Requests

section Runs
variable {ι : Type} [DecidableEq ι]

/-- In every run of quiz and live-session requests that begins before the first
attempt, whatever the clock reads: no attempt's deadline is later than any of its
limits, and every answered save or submission has passed its check strictly in
time, in states of the run in which it was let on. -/
theorem quiz_deadlines_hold (u : SaveUpsert) (s : LiveStore)
    (hs : s.lib.school.quizAttempts.rows = []) (ms : List (Move ι LessonCall)) :
    DeadlinesKept ((Pool.idle s : LessonPool ι).run (handle u) ms).world.state.lib.school ∧
    ∀ i call reply id, ((Pool.idle s : LessonPool ι).run (handle u) ms).procs i =
        some (.quiz call, .ret reply) → call.request.writesTo = some id →
      ∃ first second, (Pool.idle s : LessonPool ι).LetsOn (handle u) ms i first ∧
        (Pool.idle s : LessonPool ι).LetsOn (handle u) ms i second ∧
        PassesCheck first.lib.school second.lib.school id call.user.id (call.env.now 0) := by
  have hnone : (deadlines ι).inv ⟨s, []⟩ := fun a ha => by rw [hs] at ha; cases ha
  have hstart : (deadlines ι).Running (fun _ _ _ _ => True) (Pool.idle s : LessonPool ι) :=
    running_idle hnone
  have hguarded : (Pool.idle s : LessonPool ι).Guarded (handle u) (fun _ => True)
      (deadlines ι).guard ms :=
    Pool.guarded_of_forall (fun _ => trivial) (fun _ _ _ => trivial) _ _
  refine ⟨(running_run (fun i call _ => handle_follows i u call) hstart hguarded).1, ?_⟩
  intro i call reply id hanswered hid
  obtain ⟨seen, hseen, hletsOn⟩ := Pool.answered_run (by rfl) hanswered
  obtain ⟨r, before, _, hquiz, -, rfl⟩ := Answers.of_bind hseen
  obtain ⟨first, hfirst, second, hsecond, hpasses⟩ := handle_answers hquiz.of_within hid
  obtain ⟨s₁, hs₁, rfl⟩ := List.mem_map.mp hfirst
  obtain ⟨s₂, hs₂, rfl⟩ := List.mem_map.mp hsecond
  exact ⟨s₁, s₂, hletsOn s₁ (List.mem_append_left _ hs₁), hletsOn s₂ (List.mem_append_left _ hs₂),
    hpasses⟩

end Runs

/-! A lesson with a quiz: the teacher starts a session that the student joins, and
delivers the quiz in it; the student starts the attempt and submits it. -/

section Lesson

def sampleQuiz : LiveStore where
  lib := { school := { sampleClassroom with
    quizzes := .single
      { id := 4, classroomId := 3, title := "Primes", instructions := ""
        timeLimitMinutes := some 2, createdBy := 2, createdAt := 0, updatedAt := 0 }
    quizVersions := .single
      { id := 5, quizId := 4, versionNumber := 1, title := "Primes", instructions := ""
        timeLimitMinutes := some 2, totalPoints := 2, publishedAt := 0 } } }
  clock := 0

def alone (i : Nat) (call : LessonCall) : List (Move Nat LessonCall) :=
  .start i call :: List.replicate 16 (.advance i)

def sampleLesson : List (Move Nat LessonCall) :=
  alone 0 (.live ⟨sampleEnv 10, sampleTeacher,
    .start ["ABCDEFGHJK"] ⟨3, "m1", "Light", 5⟩⟩) ++
  alone 1 (.live ⟨sampleEnv 20, sampleStudent, .join ⟨"abcdefghjk"⟩⟩) ++
  alone 2 (.quiz ⟨sampleEnv 30, sampleTeacher,
    .deliver 4 ⟨.live, some 1000, none, some 250000000000⟩⟩) ++
  alone 3 (.quiz ⟨sampleEnv 40, sampleStudent, .start 3000⟩) ++
  alone 4 (.quiz ⟨sampleEnv 50, sampleStudent, .submit 4000⟩)

theorem quiz_deadlines_hold_lesson :
    (((Pool.idle sampleQuiz : LessonPool Nat).run (handle .asWritten)
      sampleLesson).world.state.lib.school.quizAttempts.rows.map fun a =>
        (a.startedAt, a.expiresAt, a.submittedAt)) = [(40, some 120000000040, some 51)] ∧
    DeadlinesKept ((Pool.idle sampleQuiz : LessonPool Nat).run (handle .asWritten)
      sampleLesson).world.state.lib.school ∧
    ∀ i call reply id, ((Pool.idle sampleQuiz : LessonPool Nat).run (handle .asWritten)
        sampleLesson).procs i = some (.quiz call, .ret reply) → call.request.writesTo = some id →
      ∃ first second, (Pool.idle sampleQuiz : LessonPool Nat).LetsOn (handle .asWritten)
          sampleLesson i first ∧
        (Pool.idle sampleQuiz : LessonPool Nat).LetsOn (handle .asWritten)
          sampleLesson i second ∧
        PassesCheck first.lib.school second.lib.school id call.user.id (call.env.now 0) :=
  ⟨by decide +kernel, quiz_deadlines_hold .asWritten sampleQuiz rfl sampleLesson⟩

end Lesson

end Cinder.Lessons
