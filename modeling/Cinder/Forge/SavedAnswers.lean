import Cinder.Forge.QuizRunner
import Cinder.Programs.MoveRuns
set_option autoImplicit false

namespace Cinder.Forge
open Cinder.Host Cinder.Storage Cinder.Programs

section Histories
variable (a q : Uuid)

def lastOpened : List RunnerEvent → Option Uuid
  | [] => none
  | .opened b :: _ => some b
  | _ :: history => lastOpened history

/-- The last answer given to the question since the attempt was opened. -/
def lastGiven : List RunnerEvent → Option Json
  | [] => none
  | .opened b :: history => if b = a then none else lastGiven history
  | .given b p x :: history => if b = a ∧ p = q then some x else lastGiven history
  | _ :: history => lastGiven history

/-- The last answer given to the question since the attempt was opened, until the
Host has acknowledged it for the attempt. -/
def owed : List RunnerEvent → Option Json
  | [] => none
  | .opened b :: history => if b = a then none else owed history
  | .given b p x :: history => if b = a ∧ p = q then some x else owed history
  | .acknowledged b p x :: history =>
    if b = a ∧ p = q ∧ owed history = some x then none else owed history
  | _ :: history => owed history

end Histories

/-- A save carries an answer that was given to its question in its attempt, and an
attempt is submitted when no answer given in it is owed. -/
def RunnerEvent.justified : RunnerEvent → List RunnerEvent → Prop
  | .called a q x, earlier => .given a q x ∈ earlier
  | .submitted a, earlier => ∀ q, owed a q earlier = none
  | _, _ => True

def Justified : List RunnerEvent → Prop
  | [] => True
  | e :: earlier => e.justified earlier ∧ Justified earlier

section Conditions

def Runner.waiting (s : Runner) : List QueuedSave :=
  if s.inFlight.isSome then s.queue.tail else s.queue

def Runner.asked? (s : Runner) : Option (QueuedSave × Json) :=
  match s.queue, s.inFlight with
  | job :: _, some latest => some (job, latest)
  | _, _ => none

/-- When an answer is given, no save of another attempt is waiting for the same
question or carries the same answer to it, and no running loop of `submit` has
another answer to it to save. -/
def Runner.agrees (s : Runner) (q : Uuid) (x : Json) : Prop :=
  (∀ job ∈ s.waiting, job.questionId = q → s.editing? = some job.attemptId) ∧
    (∀ sent ∈ s.asked?, sent.1.questionId = q → sent.2 = x →
      s.editing? = some sent.1.attemptId) ∧
      ∀ run ∈ s.submissions, run.unsent = true → ∀ e ∈ run.todo, e.1 = q →
        s.editing? = some run.attemptId ∧ e.2 = x

def Runner.savesNow (s : Runner) (run : Submission) : Option (Uuid × Json) :=
  match run.stage with
  | .saving promise =>
    match s.outcome? promise with
    | none => none
    | some _ => (run.todo.dropWhile fun e => !s.dirty.has e.1).head?
  | _ => none

/-- The next stretch of the submission calls `submitQuizAttempt`. -/
def Runner.submitsNow (s : Runner) (run : Submission) : Bool :=
  match run.stage with
  | .draining promise =>
    match s.outcome? promise with
    | some (.ok ()) => s.dirty.list.isEmpty
    | _ => false
  | _ => false

/-- Besides, an attempt that is being submitted is left only when it has nothing to
save, and a text that is being typed is not saved or submitted before it is left. -/
def Runner.admits (s : Runner) : RunnerAction → Prop
  | .opened next _ => ∀ run ∈ s.submissions, run.unsent = true →
      lastOpened s.history = some run.attemptId → run.attemptId ≠ next.id →
        s.dirty.list = [] ∧ s.typing = none
  | .connection online => online = true → s.online = false →
      ∀ q ∈ s.typing, s.dirty.has q = false
  | .choose q x => s.agrees q x
  | .blur q => s.agrees q (s.text q)
  | .submit => s.typing = none
  | .resume n => ∀ run ∈ s.submissions[n]?,
      (∀ e ∈ s.savesNow run, s.typing ≠ some e.1) ∧
        (s.submitsNow run = true → lastOpened s.history = some run.attemptId → s.typing = none)
  | _ => True

instance (s : Runner) (action : RunnerAction) : Decidable (s.admits action) := by
  unfold Runner.admits Runner.agrees
  split <;> infer_instance

end Conditions

section Facts
variable {a q p : Uuid} {x : Json} {history : List RunnerEvent}

theorem lastGiven_of_owed (h : owed a q history = some x) : lastGiven a q history = some x := by
  induction history with
  | nil => cases h
  | cons e history ih =>
    cases e with
    | opened b =>
      simp only [owed, lastGiven] at h ⊢
      split at h
      · cases h
      · next hb => rw [if_neg hb]; exact ih h
    | given b p y =>
      simp only [owed, lastGiven] at h ⊢
      split at h
      · next hb => rw [if_pos hb]; exact h
      · next hb => rw [if_neg hb]; exact ih h
    | acknowledged b p y =>
      simp only [owed] at h
      split at h
      · cases h
      · exact ih h
    | called b p y => exact ih h
    | submitted b => exact ih h

theorem given_of_lastGiven (h : lastGiven a q history = some x) : .given a q x ∈ history := by
  induction history with
  | nil => cases h
  | cons e history ih =>
    cases e with
    | opened b =>
      simp only [lastGiven] at h
      split at h
      · cases h
      · exact List.mem_cons_of_mem _ (ih h)
    | given b p y =>
      simp only [lastGiven] at h
      split at h
      · next hb =>
        obtain ⟨rfl, rfl⟩ := hb
        cases h
        exact List.mem_cons_self
      · exact List.mem_cons_of_mem _ (ih h)
    | called | acknowledged | submitted => exact List.mem_cons_of_mem _ (ih h)

theorem owed_none_cons {e : RunnerEvent} (h : owed a q history = none)
    (hgiven : ∀ p y, e ≠ .given a p y) : owed a q (e :: history) = none := by
  cases e with
  | opened b => simp only [owed, h, ite_self]
  | given b p y =>
    have hb : b ≠ a := fun hb => hgiven p y (by rw [hb])
    rw [owed, if_neg fun hboth => hb hboth.1]
    exact h
  | acknowledged b p y => simp only [owed, h, ite_self]
  | called | submitted => exact h

end Facts

/-- What is known of one question of the attempt that was opened last. While its
text is being typed, what is saved may lag behind. -/
structure QuestionKept (s : Runner) (a q : Uuid) : Prop where
  dirty : ∀ x, s.dirty.get q = some x → .given a q x ∈ s.history ∧
    (s.typing = some q ∨ lastGiven a q s.history = some x)
  shown : ∀ x, lastGiven a q s.history = some x → s.answers.get q = some x
  typed : s.typing = some q → ∃ text, lastGiven a q s.history = some (.str text)
  owing : ∀ x, owed a q s.history = some x → s.typing = some q ∨ s.dirty.get q = some x
  todo : ∀ run ∈ s.submissions, run.unsent = true → run.attemptId = a →
    ∀ x, (q, x) ∈ run.todo → ∀ y, s.dirty.get q = some y → x = y

/-- The saves that find an answer, or carry the one that is kept, are those of the
attempt opened last. A submission of an earlier one has nothing to save. -/
structure AttemptKept (s : Runner) : Prop where
  editing : ∀ a, s.editing? = some a → lastOpened s.history = some a
  waiting : ∀ job ∈ s.waiting, s.dirty.has job.questionId = true →
    lastOpened s.history = some job.attemptId
  asked : ∀ sent ∈ s.asked?, s.dirty.get sent.1.questionId = some sent.2 →
    lastOpened s.history = some sent.1.attemptId
  running : ∀ run ∈ s.submissions, run.unsent = true →
    lastOpened s.history = some run.attemptId ∨ (∀ q, owed run.attemptId q s.history = none) ∧
      ∀ e ∈ run.todo, s.dirty.has e.1 = false
  justified : Justified s.history

structure RunnerKept (s : Runner) : Prop extends AttemptKept s where
  question : ∀ a, lastOpened s.history = some a → ∀ q, QuestionKept s a q

section Frames
variable {s s' : Runner} {a q : Uuid}

def Submission.Continues (run' run : Submission) : Prop :=
  run'.attemptId = run.attemptId ∧ run.unsent = true ∧ ∀ e ∈ run'.todo, e ∈ run.todo

theorem continues_self (s : Runner) : ∀ run' ∈ s.submissions, run'.unsent = true →
    ∃ run ∈ s.submissions, run'.Continues run :=
  fun run hrun hunsent => ⟨run, hrun, rfl, hunsent, fun _ he => he⟩

/-- A state that treats the question as an earlier one did. Its submissions have no
more to look at. -/
theorem QuestionKept.congr (h : QuestionKept s a q) (hdirty : s'.dirty.get q = s.dirty.get q)
    (hanswers : s'.answers.get q = s.answers.get q)
    (htyping : s'.typing = some q ↔ s.typing = some q)
    (hgiven : lastGiven a q s'.history = lastGiven a q s.history)
    (howed : ∀ x, owed a q s'.history = some x → owed a q s.history = some x)
    (hhistory : ∀ e ∈ s.history, e ∈ s'.history)
    (hruns : ∀ run' ∈ s'.submissions, run'.unsent = true →
      ∃ run ∈ s.submissions, run'.Continues run) : QuestionKept s' a q where
  dirty x hx := by
    obtain ⟨hmem, hlast⟩ := h.dirty x (hdirty ▸ hx)
    rw [hgiven, htyping]
    exact ⟨hhistory _ hmem, hlast⟩
  shown x hx := by
    rw [hanswers]
    exact h.shown x (hgiven ▸ hx)
  typed ht := by
    rw [hgiven]
    exact h.typed (htyping.mp ht)
  owing x hx := by
    rw [hdirty, htyping]
    exact h.owing x (howed x hx)
  todo run' hrun' hunsent' hattempt' x hx y hy := by
    obtain ⟨run, hrun, hattempt, hunsent, hsub⟩ := hruns run' hrun' hunsent'
    exact h.todo run hrun hunsent (hattempt ▸ hattempt') x (hsub _ hx) y (hdirty ▸ hy)

theorem RunnerKept.frame (h : RunnerKept s) (hhistory : s'.history = s.history)
    (hdirty : s'.dirty = s.dirty) (hanswers : s'.answers = s.answers)
    (htyping : s'.typing = s.typing) (hediting : ∀ a, s'.editing? = some a → s.editing? = some a)
    (hwaiting : ∀ job ∈ s'.waiting, job ∈ s.waiting) (hasked : ∀ sent ∈ s'.asked?, sent ∈ s.asked?)
    (hruns : ∀ run' ∈ s'.submissions, run'.unsent = true →
      ∃ run ∈ s.submissions, run'.Continues run) : RunnerKept s' where
  editing a ha := hhistory ▸ h.editing a (hediting a ha)
  waiting job hjob hhas := hhistory ▸ h.waiting job (hwaiting job hjob) (hdirty ▸ hhas)
  asked sent hsent hget := hhistory ▸ h.asked sent (hasked sent hsent) (hdirty ▸ hget)
  running run' hrun' hunsent' := by
    obtain ⟨run, hrun, hattempt, hunsent, htodo⟩ := hruns run' hrun' hunsent'
    rw [hhistory, hattempt, hdirty]
    exact (h.running run hrun hunsent).imp_right fun hleft =>
      ⟨hleft.1, fun e he => hleft.2 e (htodo e he)⟩
  justified := hhistory ▸ h.justified
  question a ha q := by
    rw [hhistory] at ha
    exact (h.question a ha q).congr (by rw [hdirty]) (by rw [hanswers]) (by rw [htyping])
      (by rw [hhistory]) (fun x hx => hhistory ▸ hx) (fun e he => hhistory ▸ he) hruns

theorem RunnerKept.display (h : RunnerKept s) (message : String) :
    RunnerKept { s with message } :=
  h.frame rfl rfl rfl rfl (fun _ => id) (fun _ => id) (fun _ => id) (continues_self s)

end Frames

section Saves
variable {s : Runner} {a q : Uuid} {x : Json}

theorem waiting_save {online : Bool} {job : QueuedSave}
    (h : job ∈ (s.save (some a) online q x).waiting) : job ∈ s.waiting ∨ job.attemptId = a := by
  have hadded : ∀ job ∈ if online then [QueuedSave.mk a q] else [], job.attemptId = a := by
    cases online <;> simp
  rw [Runner.waiting, Runner.save_inFlight, Runner.save_queue] at h
  rw [Runner.waiting]
  split at h
  · next hflight =>
    rw [if_pos hflight]
    cases hqueue : s.queue with
    | nil => exact .inr (hadded job (List.mem_of_mem_tail (by simpa [hqueue] using h)))
    | cons first rest =>
      rw [hqueue, List.cons_append, List.tail_cons] at h
      exact (List.mem_append.mp h).imp_right (hadded job)
  · next hflight =>
    rw [if_neg hflight]
    exact (List.mem_append.mp h).imp_right (hadded job)

theorem asked_save {online : Bool} {sent : QueuedSave × Json}
    (h : sent ∈ (s.save (some a) online q x).asked?) :
    sent ∈ s.asked? ∨ sent.1.attemptId = a := by
  rw [Runner.asked?, Runner.save_inFlight, Runner.save_queue] at h
  rw [Runner.asked?]
  cases hqueue : s.queue with
  | nil =>
    rw [hqueue] at h
    cases hflight : s.inFlight <;> cases online <;> simp [hflight] at h
    exact .inr (by rw [← h])
  | cons first rest =>
    rw [hqueue, List.cons_append] at h
    cases hflight : s.inFlight <;> rw [hflight] at h <;> exact .inl h

theorem kept_save (h : AttemptKept s) (ha : lastOpened s.history = some a)
    (hwaiting : ∀ job ∈ s.waiting, job.questionId = q →
      lastOpened s.history = some job.attemptId)
    (hasked : ∀ sent ∈ s.asked?, sent.1.questionId = q → sent.2 = x →
      lastOpened s.history = some sent.1.attemptId)
    (hothers : ∀ p, p ≠ q → QuestionKept s a p) (htyping : s.typing ≠ some q)
    (hlast : lastGiven a q s.history = some x)
    (htodo : ∀ run ∈ s.submissions, run.unsent = true → ∀ y, (q, y) ∈ run.todo →
      run.attemptId = a ∧ y = x) (online : Bool) :
    RunnerKept (s.save (some a) online q x) where
  editing b hb := by
    rw [Runner.save_editing?] at hb
    rw [Runner.save_history]
    exact h.editing b hb
  waiting job hjob hhas := by
    rw [Runner.save_history]
    rcases waiting_save hjob with hold | hnew
    · by_cases hq : job.questionId = q
      · exact hwaiting job hold hq
      · rw [Entries.has, Runner.save_dirty, Entries.get_set_other _ hq] at hhas
        exact h.waiting job hold hhas
    · rw [hnew, ha]
  asked sent hsent hget := by
    rw [Runner.save_history]
    rcases asked_save hsent with hold | hnew
    · rw [Runner.save_dirty, Entries.get_set] at hget
      split at hget
      · next hq => exact hasked sent hold hq (Option.some.inj hget).symm
      · exact h.asked sent hold hget
    · rw [hnew, ha]
  running run hrun hunsent := by
    rw [Runner.save_submissions] at hrun
    rw [Runner.save_history, Runner.save_dirty]
    rcases h.running run hrun hunsent with hopened | ⟨howed, hclean⟩
    · exact .inl hopened
    · by_cases hmem : ∃ y, (q, y) ∈ run.todo
      · obtain ⟨y, hy⟩ := hmem
        exact .inl ((htodo run hrun hunsent y hy).1 ▸ ha)
      · refine .inr ⟨howed, fun e he => ?_⟩
        have hq : e.1 ≠ q := by
          rintro rfl
          exact hmem ⟨e.2, he⟩
        rw [Entries.has, Entries.get_set_other _ hq]
        exact hclean e he
  justified := by
    rw [Runner.save_history]
    exact h.justified
  question b hb p := by
    rw [Runner.save_history, ha] at hb
    cases hb
    by_cases hp : p = q
    · subst hp
      refine ⟨fun y hy => ?_, fun y hy => ?_, fun ht => ?_, fun y hy => ?_,
        fun run hrun hunsent _ y hy z hz => ?_⟩
      · rw [Runner.save_dirty, Entries.get_set_self] at hy
        cases hy
        rw [Runner.save_history]
        exact ⟨given_of_lastGiven hlast, .inr hlast⟩
      · rw [Runner.save_history, hlast] at hy
        rw [Runner.save_answers, Entries.get_set_self, hy]
      · rw [Runner.save_typing] at ht
        exact absurd ht htyping
      · rw [Runner.save_history] at hy
        rw [Runner.save_dirty, Entries.get_set_self, ← hlast, lastGiven_of_owed hy]
        exact .inr rfl
      · rw [Runner.save_submissions] at hrun
        rw [Runner.save_dirty, Entries.get_set_self] at hz
        cases hz
        exact (htodo run hrun hunsent y hy).2
    · refine (hothers p hp).congr ?_ ?_ ?_ ?_ ?_ ?_ ?_
      · rw [Runner.save_dirty, Entries.get_set_other _ hp]
      · rw [Runner.save_answers, Entries.get_set_other _ hp]
      · rw [Runner.save_typing]
      · rw [Runner.save_history]
      · rw [Runner.save_history]
        exact fun _ => id
      · rw [Runner.save_history]
        exact fun _ => id
      · rw [Runner.save_submissions]
        exact continues_self s

theorem RunnerKept.save_again (h : RunnerKept s) (ha : lastOpened s.history = some a)
    (hdirty : s.dirty.get q = some x) (htyping : s.typing ≠ some q) (online : Bool) :
    RunnerKept (s.save (some a) online q x) := by
  have hhas : s.dirty.has q = true := by rw [Entries.has, hdirty]; rfl
  have hold := h.question a ha q
  refine kept_save h.toAttemptKept ha (fun job hjob hq => h.waiting job hjob (hq ▸ hhas)) ?_
    (fun p _ => h.question a ha p) htyping ((hold.dirty x hdirty).2.resolve_left htyping) ?_ online
  · rintro sent hsent rfl rfl
    exact h.asked sent hsent hdirty
  · intro run hrun hunsent y hy
    have hattempt : run.attemptId = a := by
      rcases h.running run hrun hunsent with hopened | ⟨-, hclean⟩
      · exact Option.some.inj (hopened.symm.trans ha)
      · rw [hclean _ hy] at hhas
        cases hhas
    exact ⟨hattempt, hold.todo run hrun hunsent hattempt y hy x hdirty⟩

/-- A save of the last answer that no save and no submission under way disagrees with. -/
theorem kept_save_given (h : AttemptKept s) (ha : s.editing? = some a)
    (hothers : ∀ p, p ≠ q → QuestionKept s a p) (htyping : s.typing ≠ some q)
    (hlast : lastGiven a q s.history = some x) (hagrees : s.agrees q x) (online : Bool) :
    RunnerKept (s.save (some a) online q x) := by
  obtain ⟨hwaiting, hasked, htodo⟩ := hagrees
  refine kept_save h (h.editing a ha) (fun job hjob hq => h.editing _ (hwaiting job hjob hq))
    (fun sent hsent hq hx => h.editing _ (hasked sent hsent hq hx)) hothers htyping hlast ?_ online
  intro run hrun hunsent y hy
  obtain ⟨hattempt, rfl⟩ := htodo run hrun hunsent _ hy rfl
  exact ⟨Option.some.inj (hattempt.symm.trans ha), rfl⟩

/-- An answer given in the attempt opened last leaves the submissions of others alone. -/
theorem AttemptKept.given (h : AttemptKept s) (ha : lastOpened s.history = some a) :
    AttemptKept { s with history := .given a q x :: s.history } where
  editing := h.editing
  waiting := h.waiting
  asked := h.asked
  running run hrun hunsent := by
    by_cases hattempt : run.attemptId = a
    · exact .inl (hattempt ▸ ha)
    · refine (h.running run hrun hunsent).imp_right fun hleft => ⟨fun p => ?_, hleft.2⟩
      exact owed_none_cons (hleft.1 p) fun _ _ he => hattempt (RunnerEvent.given.inj he).1.symm
  justified := ⟨trivial, h.justified⟩

theorem kept_give (h : AttemptKept s) (ha : s.editing? = some a)
    (hothers : ∀ p, p ≠ q → QuestionKept s a p) (htyping : s.typing ≠ some q)
    (hagrees : s.agrees q x) : RunnerKept (s.give a q x) := by
  refine kept_save_given (h.given (h.editing a ha)) ha (fun p hp => ?_) htyping
    (by simp [lastGiven]) hagrees s.online
  refine (hothers p hp).congr rfl rfl .rfl ?_ ?_ (fun _ => List.mem_cons_of_mem _)
    (continues_self s)
  · simp [lastGiven, Ne.symm hp]
  · simp [owed, Ne.symm hp]

theorem RunnerKept.leave (h : RunnerKept s) (ha : lastOpened s.history = some a) (q p : Uuid)
    (hp : p ≠ q) : QuestionKept (s.leave q) a p := by
  refine (h.question a ha p).congr rfl rfl ?_ rfl (fun _ => id) (fun _ => id) (continues_self s)
  rw [Runner.leave]
  dsimp only
  split
  · next hq => simp [hq, Ne.symm hp]
  · exact .rfl

end Saves

section Actions
variable {s : Runner} {a q : Uuid} {x : Json}

theorem RunnerKept.owed_none (h : RunnerKept s) (ha : lastOpened s.history = some a)
    (hclean : s.dirty.list = []) (htyping : s.typing = none) (q : Uuid) :
    owed a q s.history = none := by
  refine Option.eq_none_iff_forall_ne_some.mpr fun x hx => ?_
  have howing := (h.question a ha q).owing x hx
  rw [htyping, Entries.list_eq_nil_iff.mp hclean q] at howing
  rcases howing with hno | hno <;> cases hno

theorem RunnerKept.opened (h : RunnerKept s) {next : ShownAttempt}
    {responses : List (Uuid × Json)} (hok : s.admits (.opened next responses)) :
    RunnerKept (s.act (.opened next responses)) where
  editing a ha := by
    obtain ⟨id, submitted⟩ := next
    cases submitted <;> cases ha
    rfl
  waiting _ _ hhas := by cases hhas
  asked _ _ hget := by cases hget
  running run hrun hunsent := by
    by_cases hnext : run.attemptId = next.id
    · exact .inl (congrArg some hnext.symm)
    · refine .inr ⟨fun q => owed_none_cons ?_ (fun _ _ he => (by cases he)), fun _ _ => rfl⟩
      rcases h.running run hrun hunsent with hopened | ⟨howed, -⟩
      · obtain ⟨hclean, htyping⟩ := hok run hrun hunsent hopened hnext
        exact h.owed_none hopened hclean htyping q
      · exact howed q
  justified := ⟨trivial, h.justified⟩
  question a ha q := by
    obtain rfl : next.id = a := Option.some.inj ha
    have hlast : lastGiven next.id q (.opened next.id :: s.history) = none := by simp [lastGiven]
    have howed : owed next.id q (.opened next.id :: s.history) = none := by simp [owed]
    refine ⟨fun x hx => (by cases hx), fun x hx => ?_, fun ht => (by cases ht), fun x hx => ?_,
      fun _ _ _ _ _ _ _ hy => (by cases hy)⟩
    · rw [Runner.act, hlast] at hx
      cases hx
    · rw [Runner.act, howed] at hx
      cases hx

theorem RunnerKept.type (h : RunnerKept s) (text : String) :
    RunnerKept (s.act (.type q text)) := by
  rw [Runner.act]
  cases ha : s.editing? with
  | none => exact h
  | some a =>
    dsimp only
    split
    case isFalse => exact h
    case isTrue hfocus =>
      have hopened := h.editing a ha
      have hlast : lastGiven a q (.given a q (.str text) :: s.history) = some (.str text) := by
        simp [lastGiven]
      have hgiven := h.given (q := q) (x := .str text) hopened
      refine ⟨⟨h.editing, h.waiting, h.asked, hgiven.running, hgiven.justified⟩,
        fun b hb p => ?_⟩
      obtain rfl : a = b := Option.some.inj (hopened.symm.trans hb)
      have hold := h.question a hopened p
      by_cases hp : p = q
      · subst hp
        refine ⟨fun y hy => ?_, fun y hy => ?_, fun _ => ⟨text, hlast⟩, fun _ _ => .inl rfl,
          hold.todo⟩
        · exact ⟨List.mem_cons_of_mem _ (hold.dirty y hy).1, .inl rfl⟩
        · rw [Entries.get_set_self, ← hlast, hy]
      · refine hold.congr rfl (Entries.get_set_other _ hp _) ?_ ?_ ?_
          (fun _ => List.mem_cons_of_mem _) (continues_self s)
        · rcases hfocus with hnone | hsame
          · simp [hnone, Ne.symm hp]
          · simp [hsame, Ne.symm hp]
        · simp [lastGiven, Ne.symm hp]
        · simp [owed, Ne.symm hp]

theorem RunnerKept.blur (h : RunnerKept s) (hok : s.admits (.blur q)) :
    RunnerKept (s.act (.blur q)) := by
  rw [Runner.act]
  cases ha : s.editing? with
  | none => exact h
  | some a =>
    have hopened := h.editing a ha
    have hleft : AttemptKept (s.leave q) := ⟨h.editing, h.waiting, h.asked, h.running, h.justified⟩
    dsimp only
    split
    case isTrue htyping =>
      obtain ⟨text, hlast⟩ := (h.question a hopened q).typed htyping
      have hshown : s.text q = .str text := by
        rw [Runner.text, (h.question a hopened q).shown _ hlast]
      exact kept_save_given hleft ha (h.leave hopened q) (Runner.leave_typing s q)
        (by rw [hshown]; exact hlast) hok s.online
    case isFalse =>
      exact kept_give hleft ha (h.leave hopened q) (Runner.leave_typing s q) hok

theorem RunnerKept.choose (h : RunnerKept s) (hok : s.admits (.choose q x)) :
    RunnerKept (s.act (.choose q x)) := by
  rw [Runner.act]
  cases ha : s.editing? with
  | none => exact h
  | some a =>
    exact kept_give ⟨h.editing, h.waiting, h.asked, h.running, h.justified⟩ ha
      (h.leave (h.editing a ha) q) (Runner.leave_typing s q) hok

theorem waiting_subset (s : Runner) : ∀ job ∈ s.queue.tail, job ∈ s.waiting := by
  intro job hjob
  rw [Runner.waiting]
  split
  · exact hjob
  · exact List.mem_of_mem_tail hjob

theorem RunnerKept.settle (h : RunnerKept s) (outcome : Outcome) (message : String) :
    RunnerKept (s.settle outcome message) := by
  refine h.frame rfl rfl rfl rfl (fun _ => id) (fun job hjob => waiting_subset s job hjob) ?_
    (continues_self s)
  intro sent hsent
  rw [Runner.asked?, Runner.settle] at hsent
  split at hsent
  · next hflight => cases hflight
  · cases hsent

theorem RunnerKept.runSave (h : RunnerKept s) : RunnerKept s.runSave := by
  rw [Runner.runSave]
  split
  case h_2 => exact h
  case h_1 job rest hqueue hflight =>
    cases hdirty : s.dirty.get job.questionId with
    | none => exact h.settle _ _
    | some latest =>
      have hjob : lastOpened s.history = some job.attemptId := by
        refine h.waiting job ?_ (by rw [Entries.has, hdirty]; rfl)
        rw [Runner.waiting, hqueue, hflight]
        exact List.mem_cons_self
      obtain ⟨hgiven, -⟩ := (h.question _ hjob _).dirty latest hdirty
      refine ⟨⟨h.editing, fun other hother => ?_, fun sent hsent _ => ?_,
        fun run hrun hunsent => ?_, hgiven, h.justified⟩, fun b hb p => ?_⟩
      · exact h.waiting other (waiting_subset s other hother)
      · rw [Runner.asked?, hqueue] at hsent
        cases hsent
        exact hjob
      · exact h.running run hrun hunsent
      · exact (h.question b hb p).congr rfl rfl .rfl rfl (fun _ => id)
          (fun _ => List.mem_cons_of_mem _) (continues_self s)

section Deletions
variable {m : Entries Uuid Json} {k p : Uuid} {x y : Json}

theorem get_delete_same : (if m.get k = some x then m.delete k else m).get p =
    if p = k ∧ m.get k = some x then none else m.get p := by
  by_cases h : m.get k = some x
  · simp [h, Entries.get_delete]
  · simp [h]

theorem get_of_delete_same (h : (if m.get k = some x then m.delete k else m).get p = some y) :
    m.get p = some y := by
  rw [get_delete_same] at h
  split at h
  · cases h
  · exact h

theorem has_of_delete_same (h : (if m.get k = some x then m.delete k else m).has p = true) :
    m.has p = true := by
  obtain ⟨y, hy⟩ := Option.isSome_iff_exists.mp h
  rw [Entries.has, get_of_delete_same hy]
  rfl

end Deletions

/-- What is acknowledged is no longer owed, and no longer to be saved unless a
newer answer has been given. -/
theorem RunnerKept.saveAnswered (h : RunnerKept s) (outcome : Outcome) :
    RunnerKept (s.saveAnswered outcome) := by
  rw [Runner.saveAnswered]
  split
  case h_2 => exact h
  case h_1 job rest latest hqueue hflight =>
    cases outcome with
    | error error => exact h.settle _ _
    | ok u =>
      have hasked : (job, latest) ∈ s.asked? := by rw [Runner.asked?, hqueue, hflight]; rfl
      refine RunnerKept.settle (s := { s with
        dirty := _, history := .acknowledged job.attemptId job.questionId latest :: s.history })
        ⟨⟨h.editing, fun other hother hhas => ?_, fun sent hsent hget => ?_,
          fun run hrun hunsent => ?_, trivial, h.justified⟩, fun b hb p => ?_⟩ _ _
      · exact h.waiting other hother (has_of_delete_same hhas)
      · exact h.asked sent hsent (get_of_delete_same hget)
      · refine (h.running run hrun hunsent).imp_right fun hleft =>
          ⟨fun q => owed_none_cons (hleft.1 q) (fun _ _ he => (by cases he)), fun e he => ?_⟩
        refine Bool.eq_false_iff.mpr fun hhas => ?_
        exact Bool.eq_false_iff.mp (hleft.2 e he) (has_of_delete_same hhas)
      · have hold := h.question b hb p
        refine ⟨fun x hx => ?_, hold.shown, hold.typed, fun x hx => ?_,
          fun run hrun hunsent hattempt x hx y hy =>
            hold.todo run hrun hunsent hattempt x hx y (get_of_delete_same hy)⟩
        · obtain ⟨hmem, hlast⟩ := hold.dirty x (get_of_delete_same hx)
          exact ⟨List.mem_cons_of_mem _ hmem, hlast⟩
        · simp only [owed] at hx
          split at hx
          · cases hx
          · next hother =>
            refine (hold.owing x hx).imp_right fun hd => ?_
            refine get_delete_same.trans ((if_neg ?_).trans hd)
            rintro ⟨rfl, hsame⟩
            have hjob := (h.asked _ hasked hsame).symm.trans hb
            exact hother ⟨Option.some.inj hjob, rfl, hx.trans (hd.symm.trans hsame)⟩

theorem RunnerKept.putSubmission (h : RunnerKept s) (n : Nat) {new : Option Submission}
    (hnew : ∀ run' ∈ new, run'.unsent = true → ∃ run ∈ s.submissions, run'.Continues run) :
    RunnerKept (s.putSubmission n new) := by
  refine h.frame rfl rfl rfl rfl (fun _ => id) (fun _ => id) (fun _ => id)
    fun run' hrun' hunsent' => ?_
  cases new with
  | none => exact continues_self s run' (List.mem_of_mem_eraseIdx hrun') hunsent'
  | some run =>
    rcases List.mem_or_eq_of_mem_set hrun' with hold | rfl
    · exact continues_self s run' hold hunsent'
    · exact hnew run' rfl hunsent'

/-- One stretch of `submit` saves what is to be saved already, and submits only when
nothing is owed. -/
theorem RunnerKept.advance (h : RunnerKept s) {run : Submission} (hrun : run ∈ s.submissions)
    (hsaves : ∀ e ∈ s.savesNow run, s.typing ≠ some e.1)
    (hsubmits : s.submitsNow run = true → lastOpened s.history = some run.attemptId →
      s.typing = none) :
    RunnerKept (s.advance run).1 ∧ (s.advance run).1.submissions = s.submissions ∧
      ∀ run' ∈ (s.advance run).2, run'.unsent = true → run'.Continues run := by
  obtain ⟨attemptId, todo, stage⟩ := run
  have hsame : ∀ run' ∈ some (Submission.mk attemptId todo stage), run'.unsent = true →
      run'.Continues ⟨attemptId, todo, stage⟩ := by
    rintro run' hrun' hunsent'
    cases hrun'
    exact ⟨rfl, hunsent', fun _ => id⟩
  cases stage with
  | saving promise =>
    have hrunning := h.running _ hrun rfl
    rw [Runner.savesNow] at hsaves
    rw [Runner.advance]
    dsimp only at hrunning hsaves ⊢
    cases houtcome : s.outcome? promise with
    | none => exact ⟨h, rfl, hsame⟩
    | some outcome =>
      rw [houtcome] at hsaves
      dsimp only at hsaves ⊢
      cases hdrop : todo.dropWhile fun e => !s.dirty.has e.1 with
      | nil =>
        refine ⟨h, rfl, fun run' hrun' _ => ?_⟩
        cases hrun'
        exact ⟨rfl, rfl, fun _ he => (by cases he)⟩
      | cons e rest =>
        have htodo : ∀ e' ∈ e :: rest, e' ∈ todo := fun e' he' =>
          (List.dropWhile_sublist _).subset (hdrop ▸ he')
        have hhas : s.dirty.has e.1 = true := by
          have hhead := List.head?_dropWhile_not (fun e => !s.dirty.has e.1) todo
          rw [hdrop] at hhead
          simpa using hhead
        obtain ⟨y, hy⟩ := Option.isSome_iff_exists.mp hhas
        have hopened : lastOpened s.history = some attemptId := by
          refine hrunning.resolve_right fun hleft => ?_
          rw [hleft.2 e (htodo e List.mem_cons_self)] at hhas
          cases hhas
        have hsaved : e.2 = y :=
          (h.question _ hopened e.1).todo _ hrun rfl rfl e.2 (htodo e List.mem_cons_self) y hy
        refine ⟨h.save_again hopened (hsaved ▸ hy) (hsaves e (by rw [hdrop]; rfl)) true,
          Runner.save_submissions .., ?_⟩
        intro run' hrun' _
        cases hrun'
        exact ⟨rfl, rfl, fun e' he' => htodo e' (List.mem_cons_of_mem _ he')⟩
  | draining promise =>
    have hrunning := h.running _ hrun rfl
    rw [Runner.submitsNow] at hsubmits
    rw [Runner.advance]
    dsimp only at hrunning hsubmits ⊢
    cases houtcome : s.outcome? promise with
    | none => exact ⟨h, rfl, hsame⟩
    | some outcome =>
      cases outcome with
      | error error =>
        exact ⟨h.display _, rfl, fun _ hrun' => (by cases hrun')⟩
      | ok u =>
        rw [houtcome] at hsubmits
        dsimp only at hsubmits ⊢
        split
        case isFalse =>
          exact ⟨h.display _, rfl, fun _ hrun' => (by cases hrun')⟩
        case isTrue hclean =>
          have hsettled : ∀ q, owed attemptId q s.history = none := by
            intro q
            rcases hrunning with hopened | ⟨howed, -⟩
            · exact h.owed_none hopened hclean
                (hsubmits (List.isEmpty_iff.mpr hclean) hopened) q
            · exact howed q
          refine ⟨⟨⟨h.editing, h.waiting, h.asked, h.running, hsettled, h.justified⟩,
            fun b hb p => ?_⟩, rfl, fun run' hrun' hunsent' => ?_⟩
          · exact (h.question b hb p).congr rfl rfl .rfl rfl (fun _ => id)
              (fun _ => List.mem_cons_of_mem _) (continues_self s)
          · cases hrun'
            cases hunsent'
  | sent => exact ⟨h, rfl, hsame⟩
  | refreshing => exact ⟨h, rfl, hsame⟩

theorem RunnerKept.resume (h : RunnerKept s) {n : Nat} (hok : s.admits (.resume n)) :
    RunnerKept (s.resume n) := by
  rw [Runner.resume]
  cases hrun : s.submissions[n]? with
  | none => exact h
  | some run =>
    have hmem := List.mem_of_getElem? hrun
    obtain ⟨hsaves, hsubmits⟩ := hok run hrun
    obtain ⟨hkept, hsubmissions, hcontinues⟩ := h.advance hmem hsaves hsubmits
    exact hkept.putSubmission n fun run' hrun' hunsent' =>
      ⟨run, hsubmissions ▸ hmem, hcontinues run' hrun' hunsent'⟩

theorem RunnerKept.submit (h : RunnerKept s) (hok : s.admits .submit) : RunnerKept s.submit := by
  rw [Runner.submit]
  cases ha : s.editing? with
  | none => exact h
  | some a =>
    dsimp only
    split
    case isFalse => exact h
    case isTrue =>
      have htyping : s.typing = none := hok
      have hopened := h.editing a ha
      have hadded : RunnerKept { s with
          submissions := s.submissions ++ [⟨a, s.answers.list, .saving 0⟩] } := by
        refine ⟨⟨h.editing, h.waiting, h.asked, fun run hrun hunsent => ?_, h.justified⟩,
          fun b hb q => ?_⟩
        · rcases List.mem_append.mp hrun with hold | hnew
          · exact h.running run hold hunsent
          · rw [List.mem_singleton.mp hnew]
            exact .inl hopened
        · have hold := h.question b hb q
          refine ⟨hold.dirty, hold.shown, hold.typed, hold.owing,
            fun run hrun hunsent hattempt x hx y hy => ?_⟩
          rcases List.mem_append.mp hrun with hrun | hnew
          · exact hold.todo run hrun hunsent hattempt x hx y hy
          · rw [List.mem_singleton.mp hnew] at hx
            have hlast := (hold.dirty y hy).2
            rw [htyping] at hlast
            have hanswer := hold.shown y (hlast.resolve_left fun hno => (by cases hno))
            exact Option.some.inj ((Entries.mem_list.mp hx).symm.trans hanswer)
      refine hadded.resume fun run hrun => ?_
      rw [List.getElem?_concat_length] at hrun
      cases hrun
      refine ⟨fun e _ => ?_, fun hnow => (by cases hnow)⟩
      rw [htyping]
      exact fun hno => (by cases hno)

theorem RunnerKept.submitAnswered (h : RunnerKept s) (n : Nat) (outcome : Outcome) :
    RunnerKept (s.submitAnswered n outcome) := by
  rw [Runner.submitAnswered]
  cases s.submissions[n]? with
  | none => exact h
  | some run =>
    dsimp only
    split
    case isFalse => exact h
    case isTrue =>
      cases outcome with
      | ok u =>
        have hshown : RunnerKept { s with attempt := some ⟨run.attemptId, true⟩ } :=
          h.frame rfl rfl rfl rfl (fun _ ha => (by cases ha)) (fun _ => id)
            (fun _ => id) (continues_self s)
        refine hshown.putSubmission n fun run' hrun' hunsent' => ?_
        cases hrun'
        cases hunsent'
      | error error =>
        exact (h.display _).putSubmission n fun _ hrun' => (by cases hrun')

theorem RunnerKept.refreshed (h : RunnerKept s) (n : Nat) (outcome : Outcome) :
    RunnerKept (s.refreshed n outcome) := by
  unfold Runner.refreshed
  cases s.submissions[n]? with
  | none => exact h
  | some run =>
    dsimp only
    split
    case isFalse => exact h
    case isTrue => exact (h.display _).putSubmission n fun _ hrun' => (by cases hrun')

theorem RunnerKept.act (h : RunnerKept s) {action : RunnerAction} (hok : s.admits action) :
    RunnerKept (s.act action) := by
  cases action with
  | connection online =>
    exact h.frame rfl rfl rfl rfl (fun _ => id) (fun _ => id) (fun _ => id) (continues_self s)
  | openRefused =>
    rw [Runner.act]
    split
    · exact h
    · exact h.display _
  | openFails error => exact h.display _
  | opened next responses => exact h.opened hok
  | back =>
    rw [Runner.act]
    split
    · exact h.frame rfl rfl rfl rfl (fun _ ha => (by cases ha)) (fun _ => id)
            (fun _ => id) (continues_self s)
    · exact h
  | type question text => exact h.type text
  | blur question => exact h.blur hok
  | choose question answer => exact h.choose hok
  | runSave => exact h.runSave
  | saveAnswered outcome => exact h.saveAnswered outcome
  | submit => exact h.submit hok
  | resume n => exact h.resume hok
  | submitAnswered n outcome => exact h.submitAnswered n outcome
  | refreshed n outcome => exact h.refreshed n outcome

theorem kept_retries (h : RunnerKept s) (ha : lastOpened s.history = some a)
    {es : List (Uuid × Json)}
    (hes : ∀ e ∈ es, s.dirty.get e.1 = some e.2 ∧ s.typing ≠ some e.1) :
    RunnerKept (es.foldl (fun s e => s.save (some a) true e.1 e.2) s) := by
  induction es generalizing s with
  | nil => exact h
  | cons e es ih =>
    obtain ⟨hdirty, htyping⟩ := hes e List.mem_cons_self
    refine ih (h.save_again ha hdirty htyping true) (by rw [Runner.save_history]; exact ha)
      fun e' he' => ?_
    obtain ⟨hdirty', htyping'⟩ := hes e' (List.mem_cons_of_mem _ he')
    rw [Runner.save_dirty, Runner.save_typing, Entries.get_set]
    refine ⟨?_, htyping'⟩
    split
    · next hkey => rw [← hdirty', hkey, hdirty]
    · exact hdirty'

theorem RunnerKept.retry (h : RunnerKept s)
    (hok : s.online = true → s.editing?.isSome = true → ∀ q ∈ s.typing, s.dirty.has q = false) :
    RunnerKept s.retry := by
  rw [Runner.retry]
  split
  case isFalse => exact h
  case isTrue honline =>
    cases ha : s.editing? with
    | none => exact h
    | some a =>
      refine kept_retries h (h.editing a ha) fun e he => ?_
      have hdirty := Entries.mem_list.mp he
      refine ⟨hdirty, fun htyping => ?_⟩
      have hclean := hok honline (by rw [ha]; rfl) e.1 htyping
      rw [Entries.has, hdirty] at hclean
      cases hclean

theorem RunnerKept.step (h : RunnerKept s) {action : RunnerAction} (hok : s.admits action) :
    RunnerKept (s.step action) := by
  rw [Runner.step]
  split
  · exact h.act hok
  · next hchanged =>
    refine (h.act hok).retry fun honline hediting => ?_
    rcases s.act_shows action with hsame | ⟨online, rfl⟩ | hnone | hempty
    · exact absurd hsame hchanged
    · refine hok honline (Bool.eq_false_iff.mpr fun hwas => ?_)
      exact hchanged ⟨honline.trans hwas.symm, rfl⟩
    · rw [hnone] at hediting
      cases hediting
    · rw [hempty]
      exact fun _ _ => rfl

end Actions

theorem runnerKept_start (online : Bool) : RunnerKept (Runner.start online) where
  editing _ h := by cases h
  waiting _ h := by cases h
  asked _ h := by cases h
  running _ h := by cases h
  justified := trivial
  question _ h := by cases h

/-- In a run whose steps are all admitted, every save carries an answer given in its
attempt, and an attempt is submitted only when the Host has acknowledged the last
answer given to each of its questions. -/
theorem answers_saved_before_submission (online : Bool) (actions : List RunnerAction)
    (h : RunMeets Runner.step Runner.admits (Runner.start online) actions) :
    ∀ reached, reached <+: actions →
      Justified (reached.foldl Runner.step (Runner.start online)).history :=
  fun _ hreached => (RunMeets.inv (I := RunnerKept) (fun _ _ hs hok => hs.step hok)
    (h.of_prefix hreached) (runnerKept_start online)).justified

section Students

/-- Two deliveries of one version, answered one after the other. -/
def sampleAnswers : List RunnerAction :=
  [.opened ⟨1, false⟩ [], .choose 6 (.str "A"), .runSave, .connection false,
    .saveAnswered (.error none), .type 7 "seven", .blur 7, .connection true, .runSave,
    .saveAnswered (.ok ()), .runSave, .saveAnswered (.ok ()), .submit, .resume 0,
    .submitAnswered 0 (.ok ()), .refreshed 0 (.ok ()), .back, .opened ⟨2, false⟩ [],
    .choose 6 (.str "B"), .runSave, .saveAnswered (.ok ()), .submit, .resume 0]

theorem answers_saved_before_submission_sample :
    ((sampleAnswers.foldl Runner.step (Runner.start true)).history.filter fun e =>
      e = .submitted 1 ∨ e = .submitted 2) = [.submitted 2, .submitted 1] ∧
    ∀ reached, reached <+: sampleAnswers →
      Justified (reached.foldl Runner.step (Runner.start true)).history :=
  ⟨by decide +kernel, answers_saved_before_submission true sampleAnswers (by decide +kernel)⟩

def sampleOtherAttempt : List RunnerAction :=
  [.opened ⟨1, false⟩ [], .choose 6 (.str "A"), .runSave, .choose 6 (.str "B"),
    .opened ⟨2, false⟩ [], .choose 6 (.str "C"), .saveAnswered (.ok ()), .runSave]

def sampleSameAnswer : List RunnerAction :=
  [.opened ⟨1, false⟩ [], .choose 6 (.str "A"), .runSave, .opened ⟨2, false⟩ [],
    .choose 6 (.str "A"), .saveAnswered (.ok ()), .runSave, .submit, .resume 0]

/-- An answer is changed while `submit` is saving the answers of the click. -/
def sampleLateChange : List RunnerAction :=
  [.opened ⟨1, false⟩ [], .choose 6 (.str "A"), .choose 7 (.str "B"), .submit, .runSave,
    .saveAnswered (.ok ()), .runSave, .choose 7 (.str "C"), .saveAnswered (.ok ()), .runSave,
    .resume 0, .runSave, .saveAnswered (.ok ()), .runSave, .resume 0, .resume 0]

/-- A text is typed while `submit` waits, and not left. -/
def sampleLateText : List RunnerAction :=
  [.opened ⟨1, false⟩ [], .choose 6 (.str "A"), .submit, .type 7 "seven", .runSave,
    .saveAnswered (.ok ()), .runSave, .resume 0, .resume 0]

/-- The connection returns while a text is being typed, and an older text is saved
again. -/
def sampleOlderText : List RunnerAction :=
  [.opened ⟨1, false⟩ [], .connection false, .type 7 "one", .blur 7, .type 7 "two",
    .connection true, .runSave, .saveAnswered (.ok ()), .blur 7, .runSave, .saveAnswered (.ok ()),
    .submit, .resume 0]

/-- Another attempt is opened while `submit` waits. -/
def sampleLeft : List RunnerAction :=
  [.opened ⟨1, false⟩ [], .choose 6 (.str "A"), .submit, .opened ⟨2, false⟩ [], .runSave,
    .runSave, .resume 0, .resume 0]

theorem not_justified {history : List RunnerEvent} {e : RunnerEvent}
    (hlatest : history = e :: history.tail) (h : ¬e.justified history.tail) :
    ¬Justified history := fun hall => h (hlatest ▸ hall : Justified (e :: history.tail)).1

theorem answers_lost_or_misplaced :
    ¬Justified (sampleOtherAttempt.foldl Runner.step (Runner.start true)).history ∧
    ¬Justified (sampleSameAnswer.foldl Runner.step (Runner.start true)).history ∧
    ¬Justified (sampleLateChange.foldl Runner.step (Runner.start true)).history ∧
    ¬Justified (sampleLateText.foldl Runner.step (Runner.start true)).history ∧
    ¬Justified (sampleOlderText.foldl Runner.step (Runner.start true)).history ∧
    ¬Justified (sampleLeft.foldl Runner.step (Runner.start true)).history := by
  refine ⟨not_justified (e := .called 1 6 (.str "C")) (by decide +kernel) fun h => ?_,
    not_justified (e := .submitted 2) (by decide +kernel) fun h => ?_,
    not_justified (e := .submitted 1) (by decide +kernel) fun h => ?_,
    not_justified (e := .submitted 1) (by decide +kernel) fun h => ?_,
    not_justified (e := .submitted 1) (by decide +kernel) fun h => ?_,
    not_justified (e := .submitted 1) (by decide +kernel) fun h => ?_⟩
  · have hgiven : RunnerEvent.given 1 6 (.str "C") ∈
      (sampleOtherAttempt.foldl Runner.step (Runner.start true)).history.tail := h
    exact absurd hgiven (by decide +kernel)
  · exact absurd (h 6) (by decide +kernel)
  · exact absurd (h 7) (by decide +kernel)
  · exact absurd (h 7) (by decide +kernel)
  · exact absurd (h 7) (by decide +kernel)
  · exact absurd (h 6) (by decide +kernel)

end Students

end Cinder.Forge
