import Cinder.Quizzes.QuizRelease
set_option autoImplicit false

/-!
Whether submitted work is frozen. The checks of `save_response` and of
`submit_attempt` are statements of their own, so a write can come after the
state that allowed it has gone.
-/

namespace Cinder.Quizzes
open Cinder.Host Cinder.Storage Cinder.Programs Cinder.Programs.Program
open Cinder.Programs.Protocol

def QuizStatement.reopens (id : Uuid) : QuizStatement → Bool
  | .reopenAttempt id' _ _ => id' = id
  | _ => false

def QuizStatement.marks (id : Uuid) : QuizStatement → Bool
  | .markSubmitted id' _ => id' = id
  | _ => false

def Submitted (db : Database) (id : Uuid) : Prop :=
  ∃ a ∈ db.quizAttempts.rows, a.id = id ∧ a.submittedAt.isSome = true

def SubmittedScored (db : Database) (id : Uuid) : Prop :=
  ∃ a ∈ db.quizAttempts.rows, a.id = id ∧ a.submittedAt.isSome = true ∧
    a.score = some (pointsSum db id)

def RequiredAnswered (db : Database) : Prop :=
  ∀ a ∈ db.quizAttempts.rows, a.submittedAt.isSome = true → missingRequired db a.id = 0

def attemptAnswers (db : Database) (id : Uuid) : List (Uuid × Json) :=
  (attemptResponses db id).map fun r => (r.questionId, r.answer)

instance (db : Database) (id : Uuid) : Decidable (Submitted db id) :=
  inferInstanceAs (Decidable (∃ a ∈ db.quizAttempts.rows, _))

instance (db : Database) (id : Uuid) : Decidable (SubmittedScored db id) :=
  inferInstanceAs (Decidable (∃ a ∈ db.quizAttempts.rows, _))

instance (db : Database) : Decidable (RequiredAnswered db) :=
  inferInstanceAs (Decidable (∀ a ∈ db.quizAttempts.rows, _))

/-- An answer is stored while the attempt is open, and it is marked while no
required answer is missing. -/
def KeepsFrozen (l : QuizStatement) (db : Database) : Prop :=
  match l with
  | .upsertResponse row => ¬Submitted db row.attemptId
  | .markSubmitted id _ => missingRequired db id = 0
  | _ => True

instance (l : QuizStatement) (db : Database) : Decidable (KeepsFrozen l db) := by
  cases l <;> unfold KeepsFrozen <;> infer_instance

def WritesSum (l : QuizStatement) (db : Database) : Prop :=
  match l with
  | .writeScore id score _ _ => Submitted db id → score = pointsSum db id
  | _ => True

section Marks
variable {ι : Type} (i : ι) (id : Uuid) (history : List (Event ι Database QuizStatement))

def MarkedBy : Prop := ∃ e ∈ history, e.proc = i ∧ e.label.marks id = true

/-- The attempt was reopened after process `i` had marked it. -/
def ReopenedSince : Prop :=
  Afterwards (fun e => e.proc = i ∧ e.label.marks id = true) (fun e => e.label.reopens id = true)
    history

variable [DecidableEq ι]

instance : Decidable (MarkedBy i id history) :=
  inferInstanceAs (Decidable (∃ e ∈ history, _))

instance : Decidable (ReopenedSince i id history) :=
  inferInstanceAs (Decidable (Afterwards _ _ history))

end Marks

/-- A request that marked an attempt writes its score before it is reopened and
submitted again. -/
def InTime {ι : Type} (i : ι) (l : QuizStatement) (w : World ι Database QuizStatement) : Prop :=
  match l with
  | .writeScore id _ _ _ => Submitted w.state id → ¬ReopenedSince i id w.history
  | _ => True

instance {ι : Type} [DecidableEq ι] (i : ι) (l : QuizStatement)
    (w : World ι Database QuizStatement) : Decidable (InTime i l w) := by
  cases l <;> unfold InTime <;> infer_instance

/-- The statements of `save_response`, `submit_attempt` and `reopen_attempt`. -/
inductive OfAttempt : QuizStatement → Prop where
  | save (row : QuizResponseRow) : OfAttempt (.upsertResponse row)
  | mark (id : Uuid) (now : Time) : OfAttempt (.markSubmitted id now)
  | score (id : Uuid) (score : ℚ) (missing : Nat) (now : Time) :
      OfAttempt (.writeScore id score missing now)
  | reopen (id : Uuid) (now : Time) (expires : Option Time) :
      OfAttempt (.reopenAttempt id now expires)
  | audit (entry : QuizAuditRow) : OfAttempt (.audit entry)

section Statements
variable {l : QuizStatement} {db db' : Database} {id : Uuid}

theorem submitted_update {id' : Uuid} {f : QuizAttemptRow → QuizAttemptRow}
    {hf : Table.KeepsKeys f}
    (ha : db'.quizAttempts = db.quizAttempts.update (fun a => a.id = id') f hf)
    (hid : ∀ a, (f a).id = a.id)
    (hsub : ∀ a, a.submittedAt.isSome = true → (f a).submittedAt.isSome = true)
    (h : Submitted db id) : Submitted db' id := by
  obtain ⟨a, hmem, rfl, hs⟩ := h
  rw [Submitted, ha]
  refine ⟨_, Table.mem_update.mpr ⟨a, hmem, rfl⟩, ?_, ?_⟩
  · split
    · exact hid a
    · rfl
  · split
    · exact hsub a hs
    · exact hs

/-- While the attempt is not reopened it stays submitted, and its answers stay
what they are. -/
theorem submitted_step (h : l.run db = .ok db') (hg : KeepsFrozen l db)
    (hs : Submitted db id) (hre : l.reopens id = false) :
    Submitted db' id ∧ attemptAnswers db' id = attemptAnswers db id := by
  have heff := run_effect h
  have ha := heff.attempts
  have hr := heff.responses
  have hsame : ∀ hr : db'.quizResponses = db.quizResponses,
      attemptAnswers db' id = attemptAnswers db id := fun hr => by
    rw [attemptAnswers, attemptResponses_congr hr, attemptAnswers]
  have hattempts : ∀ ha : db'.quizAttempts = db.quizAttempts, Submitted db' id := fun ha => by
    rw [Submitted, ha]
    exact hs
  cases l with
  | insertAttempt row =>
    obtain ⟨a, hmem, hid, hsub⟩ := hs
    exact ⟨⟨a, (Table.mem_insert ha).mpr (.inl hmem), hid, hsub⟩, hsame hr⟩
  | upsertResponse row =>
    have hne : row.attemptId ≠ id := fun he => hg (he ▸ hs)
    exact ⟨hattempts ha, by rw [attemptAnswers, attemptResponses_upsert hne h, attemptAnswers]⟩
  | markSubmitted id' now =>
    exact ⟨submitted_update ha (fun _ => rfl) (fun _ _ => rfl) hs, hsame hr⟩
  | writeScore id' score missing now =>
    exact ⟨submitted_update ha (fun _ => rfl) (fun _ h => h) hs, hsame hr⟩
  | reopenAttempt id' now expires =>
    have hne : id' ≠ id := by simpa [QuizStatement.reopens] using hre
    obtain ⟨a, hmem, rfl, hsub⟩ := hs
    refine ⟨⟨a, ?_, rfl, hsub⟩, hsame hr⟩
    rw [ha]
    exact Table.mem_update.mpr ⟨a, hmem, by simp [Ne.symm hne]⟩
  | gradeResponse id' qid points feedback now =>
    refine ⟨hattempts ha, ?_⟩
    unfold attemptAnswers attemptResponses
    rw [hr, Table.rows_update, List.filter_map, List.map_map]
    congr 1
    · funext r
      simp only [Function.comp]
      split <;> rfl
    · congr 1
      funext r
      simp only [Function.comp]
      split <;> rfl
  | createQuiz | updateQuiz | archiveQuiz | publishQuiz | insertDelivery | releaseResults
  | audit => exact ⟨hattempts ha, hsame hr⟩

theorem ofAttempt_questions (h : l.run db = .ok db') (hl : OfAttempt l) (id : Uuid) :
    attemptQuestions db' id = attemptQuestions db id := by
  have heff := run_effect h
  have ha := heff.attempts
  have hd := heff.deliveries
  have hv := heff.versions
  have hsame : ∀ (ha : db'.quizAttempts = db.quizAttempts)
      (hd : db'.quizDeliveries = db.quizDeliveries)
      (hq : db'.quizVersionQuestions = db.quizVersionQuestions),
      attemptQuestions db' id = attemptQuestions db id := fun ha hd hq => by
    unfold attemptQuestions attemptDelivery? attempt? delivery? versionQuestions
    rw [ha, hd, hq]
  cases hl with
  | save | audit => exact hsame ha hd hv.2
  | mark id' now => exact attemptQuestions_update ha hd hv.2 (fun _ => rfl) (fun _ => rfl) id
  | score id' score missing now =>
    exact attemptQuestions_update ha hd hv.2 (fun _ => rfl) (fun _ => rfl) id
  | reopen id' now expires =>
    exact attemptQuestions_update ha hd hv.2 (fun _ => rfl) (fun _ => rfl) id

theorem ofAttempt_responses (h : l.run db = .ok db') (hl : OfAttempt l)
    (hg : KeepsFrozen l db) (hs : Submitted db id) :
    attemptResponses db' id = attemptResponses db id := by
  have hr := (run_effect h).responses
  cases hl with
  | save row => exact attemptResponses_upsert (fun he => hg (he ▸ hs)) h
  | mark | score | reopen | audit => exact attemptResponses_congr hr id

theorem scored_step (h : l.run db = .ok db') (hl : OfAttempt l) (hg : KeepsFrozen l db)
    (hsum : WritesSum l db) (hs : SubmittedScored db id) (hre : l.reopens id = false) : SubmittedScored db' id := by
  obtain ⟨a, hmem, rfl, hsub, hscore⟩ := hs
  have hsubmitted : Submitted db a.id := ⟨a, hmem, rfl, hsub⟩
  have hpoints := pointsSum_congr (ofAttempt_responses h hl hg hsubmitted)
  have ha := (run_effect h).attempts
  unfold SubmittedScored
  rw [hpoints]
  cases hl with
  | save | audit =>
    rw [show db'.quizAttempts = db.quizAttempts from ha]
    exact ⟨a, hmem, rfl, hsub, hscore⟩
  | mark id' now =>
    rw [ha]
    refine ⟨_, Table.mem_update.mpr ⟨a, hmem, rfl⟩, ?_⟩
    split
    · exact ⟨rfl, rfl, hscore⟩
    · exact ⟨rfl, hsub, hscore⟩
  | score id' score missing now =>
    rw [ha]
    refine ⟨_, Table.mem_update.mpr ⟨a, hmem, rfl⟩, ?_⟩
    split
    · rename_i hid
      obtain rfl : a.id = id' := by simpa using hid
      exact ⟨rfl, hsub, congrArg some (hsum hsubmitted)⟩
    · exact ⟨rfl, hsub, hscore⟩
  | reopen id' now expires =>
    have hne : id' ≠ a.id := by simpa [QuizStatement.reopens] using hre
    rw [ha]
    exact ⟨a, Table.mem_update.mpr ⟨a, hmem, by simp [Ne.symm hne]⟩, rfl, hsub, hscore⟩

theorem requiredAnswered_step (h : l.run db = .ok db') (hl : OfAttempt l)
    (hg : KeepsFrozen l db) (hinv : RequiredAnswered db) : RequiredAnswered db' := by
  intro a' hmem hsub
  have ha := (run_effect h).attempts
  have hold : ∀ a ∈ db.quizAttempts.rows, a.id = a'.id → a.submittedAt.isSome = true →
      missingRequired db' a'.id = 0 := fun a hm hid hs => by
    rw [missingRequired_congr (ofAttempt_questions h hl _)
      (ofAttempt_responses h hl hg ⟨a, hm, hid, hs⟩), ← hid]
    exact hinv a hm hs
  cases hl with
  | save | audit =>
    rw [show db'.quizAttempts = db.quizAttempts from ha] at hmem
    exact hold a' hmem rfl hsub
  | mark id' now =>
    rw [ha] at hmem
    obtain ⟨a, hm, rfl⟩ := Table.mem_update.mp hmem
    split at hsub
    · rename_i hid
      obtain rfl : a.id = id' := by simpa using hid
      have hq := ofAttempt_questions h (.mark a.id now) a.id
      have hr := attemptResponses_congr (run_effect h).responses a.id
      have hnone : missingRequired db a.id = 0 := hg
      simpa [missingRequired_congr hq hr, markAttempt] using hnone
    · rename_i hid
      exact hold a hm (by simp [hid]) hsub
  | score id' score missing now =>
    rw [ha] at hmem
    obtain ⟨a, hm, rfl⟩ := Table.mem_update.mp hmem
    refine hold a hm ?_ ?_
    · split <;> rfl
    · split at hsub <;> exact hsub
  | reopen id' now expires =>
    rw [ha] at hmem
    obtain ⟨a, hm, rfl⟩ := Table.mem_update.mp hmem
    split at hsub
    · cases hsub
    · rename_i hid
      exact hold a hm (by simp [hid]) hsub

end Statements

/-- Since process `i` marked the attempt, it was reopened, or `S` holds. -/
def SinceMark {ι : Type} (i : ι) (id : Uuid) (S : Database → Uuid → Prop)
    (w : World ι Database QuizStatement) : Prop :=
  MarkedBy i id w.history ∧ (ReopenedSince i id w.history ∨ S w.state id)

/-- Two moments of a run, the second after the first. Work that is submitted at
the first is unchanged at the second unless it was reopened in between. -/
structure SubmittedWorkFrozen {ι : Type} (c c' : QuizPool ι) : Prop where
  answers : ∀ id, Submitted c.world.state id →
    (∀ e ∈ c'.world.since c.world, e.label.reopens id = false) →
    Submitted c'.world.state id ∧
      attemptAnswers c'.world.state id = attemptAnswers c.world.state id
  required : RequiredAnswered c'.world.state
  score : ∀ i call reply id, c'.procs i = some (call, .ret reply) →
    call.request = .submit id → SinceMark i id SubmittedScored c'.world

section Runs
variable {ι : Type}

theorem sinceMark_step {i j : ι} {id : Uuid} {S : Database → Uuid → Prop} {l : QuizStatement}
    {w w' : World ι Database QuizStatement} (h : SinceMark i id S w) (hw : World.Wrote j l w w')
    (hS : S w.state id → l.reopens id = false → S w'.state id) : SinceMark i id S w' := by
  obtain ⟨hmark, hcase⟩ := h
  obtain ⟨e, he, hmarks⟩ := hmark
  rw [SinceMark, hw.2]
  refine ⟨⟨e, List.mem_cons_of_mem _ he, hmarks⟩, ?_⟩
  cases hre : l.reopens id with
  | true => exact .inl (.inl ⟨hre, e, he, hmarks⟩)
  | false =>
    rcases hcase with hsince | hs
    · exact .inl (.inr hsince)
    · exact .inr (hS hs hre)

/-- The rules of the requests that only save, submit and reopen. -/
def attemptProtocol (ι : Type) : Protocol ι Database QuizStatement where
  inv w := RequiredAnswered w.state
  guard i l w := KeepsFrozen l w.state ∧ InTime i l w
  promise _ l w := OfAttempt l ∧ WritesSum l w.state
  inv_step _ _ _ _ hinv hg hl hw := requiredAnswered_step hw.1 hl.1 hg.1 hinv

theorem stable_sinceMark_submitted (i : ι) (id : Uuid) :
    (attemptProtocol ι).Stable i (SinceMark i id Submitted) :=
  fun _ _ _ _ _ h _ hg _ hw =>
    sinceMark_step h hw fun hs hre => (submitted_step hw.1 hg.1 hs hre).1

theorem stable_sinceMark_scored (i : ι) (id : Uuid) :
    (attemptProtocol ι).Stable i (SinceMark i id SubmittedScored) :=
  fun _ _ _ _ _ h _ hg hl hw =>
    sinceMark_step h hw fun hs hre => scored_step hw.1 hl.1 hg.1 hl.2 hs hre

/-- The attempt is submitted with points that add up to `score`. -/
def SumsTo (score : ℚ) (db : Database) (id : Uuid) : Prop :=
  Submitted db id ∧ score = pointsSum db id

theorem stable_sinceMark_sumsTo (i : ι) (id : Uuid) (score : ℚ) :
    (attemptProtocol ι).Stable i (SinceMark i id (SumsTo score)) :=
  fun _ _ _ _ _ h _ hg hl hw => sinceMark_step h hw fun hs hre => by
    obtain ⟨hsub, hscore⟩ := hs
    refine ⟨(submitted_step hw.1 hg.1 hsub hre).1, ?_⟩
    rw [hscore, pointsSum_congr (ofAttempt_responses hw.1 hl.1 hg.1 hsub)]

/-- The attempt that `ensure_attempt_writable` read is still there. -/
def AttemptStored (id : Uuid) (w : World ι Database QuizStatement) : Prop :=
  ∃ a ∈ w.state.quizAttempts.rows, a.id = id

theorem stable_attemptStored (i : ι) (id : Uuid) :
    (attemptProtocol ι).Stable i (AttemptStored id) := by
  rintro j l w w' - ⟨a, hmem, rfl⟩ - - ⟨hl, -⟩ hw
  have ha := (run_effect hw.1).attempts
  have hupdate : ∀ {id' f} {hf : Table.KeepsKeys f},
      w'.state.quizAttempts = w.state.quizAttempts.update (fun a => a.id = id') f hf →
      (∀ a, (f a).id = a.id) → AttemptStored a.id w' := fun ha hid => by
    rw [AttemptStored, ha]
    refine ⟨_, Table.mem_update.mpr ⟨a, hmem, rfl⟩, ?_⟩
    split
    · exact hid a
    · rfl
  cases hl with
  | save | audit =>
    rw [AttemptStored, show w'.state.quizAttempts = w.state.quizAttempts from ha]
    exact ⟨a, hmem, rfl⟩
  | mark id' now => exact hupdate ha fun _ => rfl
  | score id' score missing now => exact hupdate ha fun _ => rfl
  | reopen id' now expires => exact hupdate ha fun _ => rfl

def Unscored (l : QuizStatement) : Prop := OfAttempt l ∧ ∀ db, WritesSum l db

theorem ensureAttemptWritable_follows (i : ι) (id sid : Uuid) (now : Time) :
    (attemptProtocol ι).Follows i (fun _ => AttemptStored id)
      (ensureAttemptWritable id sid now) (fun _ => True) := by
  refine Follows.bind (Q := fun _ => AttemptStored id) (Follows.queryRow
    (Protocol.stable_const _ i True) (fun _ => stable_attemptStored i id) ?_) fun _ =>
      Follows.readOnly (stable_attemptStored i id) ?_
  · intro w ⟨a, d⟩ _ _ hread
    obtain ⟨ha, -⟩ := attemptDelivery?_eq_some.mp hread
    obtain ⟨hmem, hid⟩ := Table.mem_of_find? ha
    exact ⟨a, hmem, by simpa using hid⟩
  · exact (readOnly_require _ _).bind fun _ => (readOnly_require _ _).bind fun _ =>
      (activeLiveDeadline_readOnly _ _ _).bind fun _ => readOnly_require _ _

theorem submitAttempt_follows (i : ι) (env : Env) (student : CurrentUser) (id : Uuid) :
    (attemptProtocol ι).Follows i (fun _ => SinceMark i id SubmittedScored)
      (submitAttempt env student id) (fun _ => True) := by
  have hstored : (attemptProtocol ι).Stable i (AttemptStored id) := stable_attemptStored i id
  have hmarked := stable_sinceMark_submitted i id
  have hscored := stable_sinceMark_scored i id
  refine Follows.bind (Follows.readOnly (Protocol.stable_const _ i True)
    (requireStudent_readOnly _)) fun _ => ?_
  refine Follows.bind (ensureAttemptWritable_follows i id _ _) fun _ => ?_
  refine Follows.bind (Follows.readOnly hstored (readOnly_query _)) fun missing => ?_
  refine Follows.bind (Follows.readOnly hstored (readOnly_require _ _)) fun _ => ?_
  refine Follows.bind (Q := fun _ => SinceMark i id Submitted)
    (Follows.execute hstored hmarked ?_) fun _ => ?_
  · rintro w w' - ⟨a, hmem, hid⟩ hw -
    refine ⟨⟨.mark _ _, trivial⟩, ?_⟩
    rw [SinceMark, hw.2]
    refine ⟨⟨_, List.mem_cons_self, rfl, by simp [QuizStatement.marks]⟩, .inr ?_⟩
    rw [Submitted, (run_effect hw.1).attempts]
    exact ⟨_, Table.mem_update.mpr ⟨a, hmem, rfl⟩, by simp [hid, markAttempt]⟩
  refine Follows.bind (Q := fun _ => SinceMark i id SubmittedScored) ?_ fun _ =>
    Follows.readOnly hscored (loadAttempt_readOnly _ _ _ _)
  refine Follows.bind (Follows.readOnly hmarked (readOnly_query _)) fun missing => ?_
  refine Follows.bind (Q := fun score => SinceMark i id (SumsTo score)) ?_ fun score => ?_
  · refine ⟨hmarked, fun w _ hsince => ⟨_, ?_, stable_sinceMark_sumsTo i id _, fun _ h => h⟩⟩
    obtain ⟨hmark, hcase⟩ := hsince
    exact ⟨hmark, hcase.imp_right fun hsub => ⟨hsub, rfl⟩⟩
  refine Follows.execute (stable_sinceMark_sumsTo i id score) hscored
    fun w w' _ hmark hw hg => ?_
  obtain ⟨⟨e, he, hmarks⟩, hcase⟩ := hmark
  have hsum : Submitted w.state id → score = pointsSum w.state id := fun hsub =>
    (hcase.resolve_left (hg.2 hsub)).2
  refine ⟨⟨.score _ _ _ _, hsum⟩, ?_⟩
  rw [SinceMark, hw.2]
  refine ⟨⟨e, List.mem_cons_of_mem _ he, hmarks⟩, ?_⟩
  rcases hcase with hsince | ⟨⟨a, hmem, hid, hs⟩, hscore⟩
  · exact .inl (.inr hsince)
  · right
    have hpoints := pointsSum_congr (attemptResponses_congr (run_effect hw.1).responses id)
    rw [SubmittedScored, hpoints, (run_effect hw.1).attempts]
    exact ⟨_, Table.mem_update.mpr ⟨a, hmem, rfl⟩, by simp [hid, scoreAttempt, hs, hscore]⟩

def QuizCall.OfAttempt (call : QuizCall) : Prop :=
  match call.request with
  | .save .. | .submit _ | .reopen _ => True
  | _ => False

instance : DecidablePred QuizCall.OfAttempt := fun call => by
  unfold QuizCall.OfAttempt
  cases call.request <;> infer_instance

theorem handle_follows (i : ι) (call : QuizCall) (h : call.OfAttempt) :
    (attemptProtocol ι).Follows i
      (fun _ w => ∀ id, call.request = .submit id → SinceMark i id SubmittedScored w)
      (handle .asNamed call) (fun _ => True) := by
  obtain ⟨env, user, request⟩ := call
  have hpromise : ∀ (l : QuizStatement) (w : World ι Database QuizStatement), Unscored l →
      (attemptProtocol ι).promise i l w := fun _ w hl => ⟨hl.1, hl.2 w.state⟩
  cases request with
  | save id qid answer =>
    refine Follows.bind (Follows.of_writesOnly hpromise
      (saveResponse_writes env user id .asNamed qid answer
        fun row => ⟨.save row, fun _ => trivial⟩)) fun reply => ?_
    exact Follows.ret (Protocol.stable_const _ i True) fun w _ id' hid => by cases hid
  | submit id =>
    refine Follows.bind (submitAttempt_follows i env user id) fun reply => ?_
    refine Follows.ret (stable_sinceMark_scored i id) fun w hw id' hid => ?_
    cases hid
    exact hw
  | reopen id =>
    refine Follows.bind (Follows.of_writesOnly hpromise
      (reopenAttempt_writes env user id (fun _ _ _ => ⟨.reopen _ _ _, fun _ => trivial⟩)
        fun _ => ⟨.audit _, fun _ => trivial⟩)) fun reply => ?_
    exact Follows.ret (Protocol.stable_const _ i True) fun w _ id' hid => by cases hid
  | get | create | update | archive | duplicate | publish | deliver | listDeliveries | start
  | getAttempt | listAttempts | grade | release => exact h.elim

/-- From `w₀` on: what was submitted then is as it was, unless it was reopened. -/
def UnchangedSince (w₀ w : World ι Database QuizStatement) : Prop :=
  ∃ later, w.history = later ++ w₀.history ∧ ∀ id, Submitted w₀.state id →
    (∀ e ∈ later, e.label.reopens id = false) →
      Submitted w.state id ∧ attemptAnswers w.state id = attemptAnswers w₀.state id

theorem unchangedSince_step {w₀ w w' : World ι Database QuizStatement} {i : ι}
    {l : QuizStatement} (h : UnchangedSince w₀ w) (hg : KeepsFrozen l w.state)
    (hw : World.Wrote i l w w') : UnchangedSince w₀ w' := by
  obtain ⟨later, hh, hsame⟩ := h
  refine ⟨⟨i, l, w.state⟩ :: later, by rw [hw.2, hh]; rfl, fun id hs hre => ?_⟩
  obtain ⟨hsub, hans⟩ := hsame id hs fun e he => hre e (List.mem_cons_of_mem _ he)
  have hstep := submitted_step hw.1 hg hsub (hre _ List.mem_cons_self)
  exact ⟨hstep.1, hstep.2.trans hans⟩

variable [DecidableEq ι]

/-- In a run whose writes all find what they rely on, submitted work is frozen. -/
theorem submitted_work_frozen (db : Database) (hdb : RequiredAnswered db)
    (ms ms' : List (Move ι QuizCall))
    (h : (Pool.idle db : QuizPool ι).Guarded (handle .asNamed) QuizCall.OfAttempt
      (fun i l w => KeepsFrozen l w.state ∧ InTime i l w) (ms ++ ms')) :
    SubmittedWorkFrozen ((Pool.idle db : QuizPool ι).run (handle .asNamed) ms)
      ((Pool.idle db : QuizPool ι).run (handle .asNamed) (ms ++ ms')) := by
  have hidle : (attemptProtocol ι).inv ⟨db, []⟩ := hdb
  have hrun := running_run handle_follows (running_idle hidle) h
  have hafter := ((Pool.guarded_append _ _ _ _ _ _).mp h).2
  rw [Pool.run_append] at hrun ⊢
  refine ⟨?_, hrun.1, ?_⟩
  · have hsince := inv_of_guarded
      (I := UnchangedSince ((Pool.idle db : QuizPool ι).run (handle .asNamed) ms).world)
      (fun _ _ _ _ hj hg hw => unchangedSince_step hj hg.1 hw)
      ⟨[], rfl, fun _ hs _ => ⟨hs, rfl⟩⟩ hafter
    obtain ⟨later, hh, hsame⟩ := hsince
    rw [World.since_append hh]
    exact hsame
  · intro i call reply id hp hsubmit
    obtain ⟨P, hP, hf⟩ := hrun.2 i call _ hp
    exact hf.2 _ hP id hsubmit

end Runs

/-- The student answers wrongly, a second save passes its checks, and the
student submits. -/
def lateSaveBefore : List (Move Nat QuizCall) :=
  .start 0 ⟨sampleEnv 10, sampleStudent, .save 8 6 (.bool false)⟩ ::
      List.replicate 8 (.advance 0) ++
    .start 1 ⟨sampleEnv 20, sampleStudent, .save 8 6 (.bool true)⟩ ::
        List.replicate 3 (.advance 1) ++
      .start 2 ⟨sampleEnv 30, sampleStudent, .submit 8⟩ :: List.replicate 14 (.advance 2)

def lateSaveDatabase : Database :=
  sampleDatabase (sampleQuestion .trueFalse (.bool true)) sampleAttempt

theorem submitted_work_frozen_sample :
    SubmittedWorkFrozen
      ((Pool.idle lateSaveDatabase : QuizPool Nat).run (handle .asNamed) lateSaveBefore)
      ((Pool.idle lateSaveDatabase : QuizPool Nat).run (handle .asNamed) (lateSaveBefore ++ [])) :=
  submitted_work_frozen lateSaveDatabase (by decide +kernel) lateSaveBefore []
    (by decide +kernel)

/-- The second save is stored after the submission: the answer has changed, and
the score is no longer the sum of the points. -/
theorem late_save_changes_submitted_work :
    RequiredAnswered lateSaveDatabase ∧ ¬SubmittedWorkFrozen
      ((Pool.idle lateSaveDatabase : QuizPool Nat).run (handle .asNamed) lateSaveBefore)
      ((Pool.idle lateSaveDatabase : QuizPool Nat).run (handle .asNamed)
        (lateSaveBefore ++ [.advance 1, .advance 1])) := by
  refine ⟨by decide +kernel, fun h => ?_⟩
  have hsame := (h.answers 8 (by decide +kernel) (by decide +kernel)).2
  revert hsame
  decide +kernel

end Cinder.Quizzes
