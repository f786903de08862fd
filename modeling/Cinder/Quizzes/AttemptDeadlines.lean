import Cinder.Programs.SeenStates
import Cinder.Quizzes.AttemptChecks
import Cinder.Quizzes.PublishedVersions
set_option autoImplicit false

/-!
The deadline of an attempt, and what limits it: when the delivery is due, when its
live session ends, and how long the version may take. None of them moves once the
attempt has begun.
-/

namespace Cinder.Quizzes
open Cinder.Host Cinder.Storage Cinder.Programs Cinder.Programs.Program

def NotLater (expires : Option Time) (limit : Time) : Prop := ∃ t ∈ expires, t ≤ limit

def begun (a : QuizAttemptRow) : Time := a.reopenedAt.getD a.startedAt

structure Limits (db : Database) (d : QuizDeliveryRow) (v : QuizVersionRow) (start : Time)
    (expires : Option Time) : Prop where
  due : ∀ t ∈ d.dueAt, NotLater expires t
  live : d.kind = .live → ∃ s ∈ sessionOf db d, NotLater expires s.endsAt
  limit : ∀ m ∈ v.timeLimitMinutes, NotLater expires (start+minutes m)

/-- The delivery and the version are stored, and the deadline is within their limits. -/
def Limited (db : Database) (deliveryId : Uuid) (start : Time) (expires : Option Time) : Prop :=
  ∃ d v, delivery? db deliveryId = some d ∧ version? db d.versionId = some v ∧
    Limits db d v start expires

def DeadlinesKept (db : Database) : Prop :=
  ∀ a ∈ db.quizAttempts.rows, Limited db a.deliveryId (begun a) a.expiresAt

def SameTerms (d d' : QuizDeliveryRow) : Prop :=
  d'.versionId = d.versionId ∧ d'.kind = d.kind ∧ d'.liveSessionId = d.liveSessionId ∧
    d'.dueAt = d.dueAt

structure TermsKept (db db' : Database) : Prop where
  attempt : ∀ id a, attempt? db id = some a →
    ∃ a', attempt? db' id = some a' ∧ a'.deliveryId = a.deliveryId
  delivery : ∀ id d, delivery? db id = some d → ∃ d', delivery? db' id = some d' ∧ SameTerms d d'
  version : ∀ id v, version? db id = some v → version? db' id = some v
  session : ∀ d s, sessionOf db d = some s → ∃ s', sessionOf db' d = some s' ∧ s'.endsAt = s.endsAt

section Expiry
variable {now t : Time} {limit : Option Nat} {due liveEnd : Option Time}

theorem min?_notLater {ts : List Time} (h : t ∈ ts) : NotLater ts.min? t := by
  cases hmin : ts.min? with
  | none => rw [List.min?_eq_none_iff.mp hmin] at h; cases h
  | some e => exact ⟨e, rfl, (List.min?_eq_some_iff.mp hmin).2 t h⟩

theorem expiry_notLater (h : some t ∈ [limit.map fun m => now+minutes m, due, liveEnd]) :
    NotLater (expiry now limit due liveEnd) t :=
  min?_notLater (List.mem_filterMap.mpr ⟨some t, h, rfl⟩)

end Expiry

section Kept
variable {db db' : Database} {id : Uuid} {start : Time} {expires : Option Time}

theorem sessionOf_congr {d d' : QuizDeliveryRow} (h : d'.liveSessionId = d.liveSessionId) :
    sessionOf db d' = sessionOf db d := by
  rw [sessionOf, h, sessionOf]

theorem Limits.kept (hkept : TermsKept db db') {d d' : QuizDeliveryRow} {v : QuizVersionRow}
    (hd : SameTerms d d') (h : Limits db d v start expires) : Limits db' d' v start expires := by
  obtain ⟨-, hkind, hsession, hdue⟩ := hd
  refine ⟨hdue ▸ h.due, fun hlive => ?_, h.limit⟩
  obtain ⟨s, hs, hends⟩ := h.live (hkind ▸ hlive)
  obtain ⟨s', hs', hsame⟩ := hkept.session d s hs
  exact ⟨s', by rw [sessionOf_congr hsession]; exact hs', hsame ▸ hends⟩

theorem Limited.kept (hkept : TermsKept db db') (h : Limited db id start expires) :
    Limited db' id start expires := by
  obtain ⟨d, v, hd, hv, hlimits⟩ := h
  obtain ⟨d', hd', hterms⟩ := hkept.delivery id d hd
  exact ⟨d', v, hd', hterms.1 ▸ hkept.version _ v hv, hlimits.kept hkept hterms⟩

def TermsRead (db : Database) (id : Uuid) (due : Option Time) (limit : Option Nat) : Prop :=
  ∃ d v, delivery? db id = some d ∧ version? db d.versionId = some v ∧ d.dueAt = due ∧
    v.timeLimitMinutes = limit

def LiveEndRead (db : Database) (id : Uuid) (liveEnd : Option Time) : Prop :=
  ∃ d, delivery? db id = some d ∧
    (d.kind = .live → ∃ s ∈ sessionOf db d, liveEnd = some s.endsAt)

theorem TermsRead.kept (hkept : TermsKept db db') {due : Option Time} {limit : Option Nat}
    (h : TermsRead db id due limit) : TermsRead db' id due limit := by
  obtain ⟨d, v, hd, hv, hdue, hlimit⟩ := h
  obtain ⟨d', hd', hversion, -, -, hsame⟩ := hkept.delivery id d hd
  exact ⟨d', v, hd', hversion ▸ hkept.version _ v hv, hsame.trans hdue, hlimit⟩

theorem LiveEndRead.kept (hkept : TermsKept db db') {liveEnd : Option Time}
    (h : LiveEndRead db id liveEnd) : LiveEndRead db' id liveEnd := by
  obtain ⟨d, hd, hlive⟩ := h
  obtain ⟨d', hd', -, hkind, hsession, -⟩ := hkept.delivery id d hd
  refine ⟨d', hd', fun hk => ?_⟩
  obtain ⟨s, hs, hend⟩ := hlive (hkind ▸ hk)
  obtain ⟨s', hs', hsame⟩ := hkept.session d s hs
  exact ⟨s', by rw [sessionOf_congr hsession]; exact hs', by rw [hend, hsame]⟩

theorem limited_of_read {due liveEnd : Option Time} {limit : Option Nat}
    (hterms : TermsRead db id due limit) (hlive : LiveEndRead db id liveEnd) :
    Limited db id start (expiry start limit due liveEnd) := by
  obtain ⟨d, v, hd, hv, rfl, rfl⟩ := hterms
  obtain ⟨d', hd', hlive⟩ := hlive
  obtain rfl : d = d' := Option.some.inj (hd.symm.trans hd')
  refine ⟨d, v, hd, hv, fun t ht => ?_, fun hk => ?_, fun m hm => ?_⟩
  · exact expiry_notLater (by rw [Option.mem_def.mp ht]; simp)
  · obtain ⟨s, hs, hend⟩ := hlive hk
    exact ⟨s, hs, expiry_notLater (by rw [hend]; simp)⟩
  · exact expiry_notLater (by rw [Option.mem_def.mp hm]; simp)

end Kept

section Statements
variable {l : QuizStatement} {db db' : Database}

theorem attempt_from (h : l.run db = .ok db') {a' : QuizAttemptRow}
    (ha : a' ∈ db'.quizAttempts.rows) :
    (∃ a ∈ db.quizAttempts.rows, a'.deliveryId = a.deliveryId ∧ begun a' = begun a ∧
      a'.expiresAt = a.expiresAt) ∨
    (∃ row, l = .insertAttempt row ∧ a' = newAttempt row) ∨
    ∃ id now expires, l = .reopenAttempt id now expires ∧ ∃ a ∈ db.quizAttempts.rows,
      a.id = id ∧ a' = clearAttempt now expires a := by
  have heffect := (run_effect h).attempts
  cases l with
  | insertAttempt row =>
    rcases (Table.mem_insert heffect).mp ha with hold | rfl
    · exact .inl ⟨a', hold, rfl, rfl, rfl⟩
    · exact .inr (.inl ⟨row, rfl, rfl⟩)
  | markSubmitted id now =>
    rw [heffect] at ha
    obtain ⟨a, hmem, rfl⟩ := Table.mem_update.mp ha
    refine .inl ⟨a, hmem, ?_⟩
    split <;> exact ⟨rfl, rfl, rfl⟩
  | writeScore id score missing now =>
    rw [heffect] at ha
    obtain ⟨a, hmem, rfl⟩ := Table.mem_update.mp ha
    refine .inl ⟨a, hmem, ?_⟩
    split <;> exact ⟨rfl, rfl, rfl⟩
  | reopenAttempt id now expires =>
    rw [heffect] at ha
    obtain ⟨a, hmem, rfl⟩ := Table.mem_update.mp ha
    split
    · next hid =>
      exact .inr (.inr ⟨id, now, expires, rfl, a, hmem, of_decide_eq_true hid, rfl⟩)
    · exact .inl ⟨a, hmem, rfl, rfl, rfl⟩
  | createQuiz | updateQuiz | archiveQuiz | publishQuiz | insertDelivery | upsertResponse
  | gradeResponse | releaseResults | audit =>
    have hsame : db'.quizAttempts = db.quizAttempts := heffect
    exact .inl ⟨a', hsame ▸ ha, rfl, rfl, rfl⟩

theorem delivery_kept (h : l.run db = .ok db') {id : Uuid} {d : QuizDeliveryRow}
    (hd : delivery? db id = some d) : ∃ d', delivery? db' id = some d' ∧ SameTerms d d' := by
  have heffect := (run_effect h).deliveries
  cases l with
  | insertDelivery row =>
    exact ⟨d, Table.find?_insert_of_some heffect hd, rfl, rfl, rfl, rfl⟩
  | releaseResults delivery now =>
    have hfind : delivery? db' id =
        (delivery? db id).map fun d => if decide (d.id = delivery) then releaseRow now d else d := by
      rw [delivery?, heffect]
      exact Table.find?_update fun _ => rfl
    rw [hd, Option.map_some] at hfind
    refine ⟨_, hfind, ?_⟩
    split <;> exact ⟨rfl, rfl, rfl, rfl⟩
  | createQuiz | updateQuiz | archiveQuiz | publishQuiz | insertAttempt | upsertResponse
  | markSubmitted | writeScore | reopenAttempt | gradeResponse | audit =>
    have hsame : db'.quizDeliveries = db.quizDeliveries := heffect
    exact ⟨d, by rw [delivery?, hsame]; exact hd, rfl, rfl, rfl, rfl⟩

theorem version_kept (h : l.run db = .ok db') {id : Uuid} {v : QuizVersionRow}
    (hv : version? db id = some v) : version? db' id = some v := by
  obtain ⟨later, hrows⟩ := versions_grow h
  rw [version?, Table.find?] at hv ⊢
  rw [← hrows, List.find?_append, hv, Option.some_or]

theorem attempt_kept (h : l.run db = .ok db') {id : Uuid} {a : QuizAttemptRow}
    (ha : attempt? db id = some a) :
    ∃ a', attempt? db' id = some a' ∧ a'.deliveryId = a.deliveryId := by
  obtain ⟨hmem, hid⟩ := Table.mem_of_find? ha
  obtain ⟨a', hmem', hsame, hdelivery, -⟩ := (run_attempts_rows h).2 a hmem
  obtain rfl : a'.id = id := hsame.trans (of_decide_eq_true hid)
  exact ⟨a', attempt?_of_mem hmem', hdelivery⟩

theorem sessions_kept (h : l.run db = .ok db') : db'.liveModuleSessions = db.liveModuleSessions := by
  cases l with
  | createQuiz quiz questions fresh entry =>
    obtain ⟨_, _, h⟩ := bind_eq_ok.mp h
    obtain ⟨_, _, h⟩ := bind_eq_ok.mp h
    cases h; rfl
  | publishQuiz quiz versionId fresh now entry =>
    obtain ⟨_, _, h⟩ := bind_eq_ok.mp h
    obtain ⟨_, _, h⟩ := bind_eq_ok.mp h
    cases h; rfl
  | updateQuiz | insertDelivery | insertAttempt | upsertResponse =>
    obtain ⟨_, _, h⟩ := bind_eq_ok.mp h
    cases h; rfl
  | archiveQuiz | markSubmitted | writeScore | reopenAttempt | gradeResponse | releaseResults
  | audit => cases h; rfl

theorem termsKept_step (h : l.run db = .ok db') : TermsKept db db' := by
  refine ⟨fun _ _ => attempt_kept h, fun _ _ => delivery_kept h, fun _ _ => version_kept h,
    fun d s hs => ⟨s, ?_, rfl⟩⟩
  rw [sessionOf, sessions_kept h]
  exact hs

/-- What a statement that sets a deadline is to keep to. -/
def SetsInTime (l : QuizStatement) (db : Database) : Prop :=
  match l with
  | .insertAttempt row => Limited db row.deliveryId row.startedAt row.expiresAt
  | .reopenAttempt id now expires => ∀ a ∈ attempt? db id, Limited db a.deliveryId now expires
  | _ => True

theorem deadlinesKept_step (h : l.run db = .ok db') (hl : SetsInTime l db)
    (hdb : DeadlinesKept db) : DeadlinesKept db' := by
  intro a' ha'
  have hkept := termsKept_step h
  rcases attempt_from h ha' with ⟨a, ha, hdelivery, hbegun, hexpires⟩ | ⟨row, rfl, rfl⟩ |
    ⟨id, now, expires, rfl, a, ha, rfl, rfl⟩
  · rw [hdelivery, hbegun, hexpires]
    exact (hdb a ha).kept hkept
  · exact Limited.kept hkept hl
  · exact Limited.kept hkept (hl a (attempt?_of_mem ha))

end Statements

section Checks
variable {id studentId : Uuid} {now : Time} {seen : List Database}

/-- The check of a save or a submission: the attempt and its delivery as they are in
the first state, and the live session as it is in the second. -/
def PassesCheck (first second : Database) (id studentId : Uuid) (now : Time) : Prop :=
  ∃ a d, attemptDelivery? first id = some (a, d) ∧ a.studentId = studentId ∧
    a.submittedAt = none ∧ d.resultsReleasedAt = none ∧ (∀ t ∈ d.dueAt, now < t) ∧
    (∀ t ∈ a.expiresAt, now < t) ∧ ∃ d' ∈ delivery? second d.id, LiveOpen second d' studentId now

theorem activeLiveDeadline_answers {t : Option Time}
    (h : (activeLiveDeadline id studentId now).Answers seen t) :
    ∃ db, seen = [db] ∧ ∃ d ∈ delivery? db id, LiveOpen db d studentId now := by
  unfold activeLiveDeadline at h
  obtain ⟨db, ⟨kind, session, joined⟩, rest, hrow, h, rfl⟩ := h.of_queryRow_bind
  obtain ⟨d, hd, hcolumns⟩ := Option.bind_eq_some_iff.mp hrow
  cases hcolumns
  dsimp only at h
  by_cases hkind : d.kind = .live
  · rw [if_neg (not_not.mpr hkind)] at h
    obtain ⟨hjoined, h⟩ := h.of_require_bind
    cases hs : sessionOf db d with
    | none =>
      rw [sessionOf] at hs
      rw [hs] at h
      cases h
    | some s =>
      rw [sessionOf] at hs
      rw [hs] at hjoined h
      obtain ⟨hopen, h⟩ := h.of_require_bind
      cases h
      exact ⟨db, rfl, d, hd, fun _ => ⟨s, hs, by simpa using hjoined, hopen⟩⟩
  · rw [if_pos hkind] at h
    cases h
    exact ⟨db, rfl, d, hd, fun hlive => absurd hlive hkind⟩

theorem ensureAttemptWritable_answers {u : Unit}
    (h : (ensureAttemptWritable id studentId now).Answers seen u) :
    ∃ first second, seen = [first, second] ∧ PassesCheck first second id studentId now := by
  unfold ensureAttemptWritable at h
  obtain ⟨first, ⟨a, d⟩, rest, had, hafter, rfl⟩ := h.of_queryRow_bind
  obtain ⟨hown, hthen⟩ := hafter.of_require_bind
  obtain ⟨hopen, hlast⟩ := hthen.of_require_bind
  obtain ⟨t, before, later, hlive, hcheck, rfl⟩ := hlast.of_bind
  obtain ⟨second, rfl, hdelivery⟩ := activeLiveDeadline_answers hlive
  obtain ⟨htimes, rfl⟩ := hcheck.of_require
  exact ⟨first, second, rfl, a, d, had, hown, hopen.1, hopen.2, htimes.2, htimes.1, hdelivery⟩

def QuizRequest.writesTo : QuizRequest → Option Uuid
  | .save id _ _ | .submit id => some id
  | _ => none

/-- An answered request to write has passed its check in two of the states it has seen. -/
theorem handle_answers {u : SaveUpsert} {call : QuizCall} {reply : QuizReply}
    (h : (handle u call).Answers seen reply) (hid : call.request.writesTo = some id) :
    ∃ first ∈ seen, ∃ second ∈ seen, PassesCheck first second id call.user.id (call.env.now 0) := by
  obtain ⟨env, user, request⟩ := call
  have hchecked : ∀ {α : Type} {f : Unit → QuizProgram α} {seen : List Database} {a : α},
      (requireStudent user >>= fun _ => ensureAttemptWritable id user.id (env.now 0) >>= f).Answers
        seen a → ∃ first ∈ seen, ∃ second ∈ seen,
          PassesCheck first second id user.id (env.now 0) := fun h => by
    obtain ⟨_, h⟩ := h.of_require_bind
    obtain ⟨_, checked, later, hcheck, -, rfl⟩ := h.of_bind
    obtain ⟨first, second, rfl, hpasses⟩ := ensureAttemptWritable_answers hcheck
    exact ⟨first, by simp, second, by simp, hpasses⟩
  have hreply : ∀ {α : Type} {reply : α → QuizReply} {r : QuizReply} {p : QuizProgram α},
      (replying reply p).Answers seen r → ∃ a, p.Answers seen a := fun h => by
    obtain ⟨a, first, rest, hp, hreturn, rfl⟩ := h.of_bind
    cases hreturn
    exact ⟨a, by simpa using hp⟩
  cases request with
  | save attempt question answer =>
    cases hid
    obtain ⟨a, h⟩ := hreply h
    exact hchecked h
  | submit attempt =>
    cases hid
    obtain ⟨a, h⟩ := hreply h
    exact hchecked h
  | _ => cases hid

end Checks

end Cinder.Quizzes
