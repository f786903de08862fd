import Cinder.Host.HostValues
import Cinder.Storage.OrderedEntries
set_option autoImplicit false

/-!
The quiz runner of a student. All saves form one chain of promises. Each looks its
answer up when its turn comes, in a map that is cleared whenever an attempt is
opened. Every answer of the Host comes as a step of its own, at any time.
-/

namespace Cinder.Forge
open Cinder.Host Cinder.Storage

structure ShownAttempt where
  id : Uuid
  submitted : Bool
  deriving DecidableEq, Repr

/-- How a promise ended. An error that is an `Error` has a message. -/
abbrev Outcome := Except (Option String) Unit

/-- A link of the chain `pendingSave` that has not ended. -/
structure QueuedSave where
  attemptId : Uuid
  questionId : Uuid
  deriving DecidableEq, Repr

/-- What `submit` waits for: a save of its loop, the end of the chain, or the Host. -/
inductive SubmitStage where
  | saving (promise : Nat)
  | draining (promise : Nat)
  | sent
  | refreshing
  deriving DecidableEq, Repr

/-- A call of `submit`. It keeps the attempt and the answers that were shown at the
click; `todo` is what its loop has still to look at. -/
structure Submission where
  attemptId : Uuid
  todo : List (Uuid × Json)
  stage : SubmitStage
  deriving DecidableEq, Repr

def Submission.unsent (run : Submission) : Bool :=
  match run.stage with
  | .saving _ | .draining _ => true
  | .sent | .refreshing => false

inductive RunnerEvent where
  | opened (attempt : Uuid)
  | given (attempt question : Uuid) (answer : Json)
  | called (attempt question : Uuid) (answer : Json)
  | acknowledged (attempt question : Uuid) (answer : Json)
  | submitted (attempt : Uuid)
  deriving DecidableEq, Repr

/-- Promises are numbered in the order of the saves; number 0 is the resolved
promise that the chain begins with. No step reads the history, the latest event of
which is the first. -/
structure Runner where
  online : Bool
  attempt : Option ShownAttempt
  answers : Entries Uuid Json
  dirty : Entries Uuid Json
  /-- The question whose text is being typed and has not been left. -/
  typing : Option Uuid
  message : String
  queue : List QueuedSave
  /-- The answer that the first save of the queue has sent. -/
  inFlight : Option Json
  outcomes : List Outcome
  submissions : List Submission
  history : List RunnerEvent

def Runner.start (online : Bool) : Runner :=
  { online, attempt := none, answers := .empty, dirty := .empty, typing := none, message := ""
    queue := [], inFlight := none, outcomes := [], submissions := [], history := [] }

inductive RunnerAction where
  | connection (online : Bool)
  | openRefused
  | openFails (error : Option String)
  | opened (next : ShownAttempt) (responses : List (Uuid × Json))
  | back
  | type (question : Uuid) (text : String)
  | blur (question : Uuid)
  | choose (question : Uuid) (answer : Json)
  | runSave
  | saveAnswered (outcome : Outcome)
  | submit
  | resume (n : Nat)
  | submitAnswered (n : Nat) (outcome : Outcome)
  | refreshed (n : Nat) (outcome : Outcome)

namespace Runner

/-- The number of the promise that `pendingSave` holds. -/
def lastPromise (s : Runner) : Nat := s.outcomes.length+s.queue.length

def outcome? (s : Runner) (promise : Nat) : Option Outcome :=
  if promise = 0 then some (.ok ()) else s.outcomes[promise-1]?

def editing? (s : Runner) : Option Uuid :=
  match s.attempt with
  | some ⟨a, false⟩ => some a
  | _ => none

/-- `save`, in a closure over `attempt` and `online`. -/
def save (s : Runner) (attempt : Option Uuid) (online : Bool) (question : Uuid) (answer : Json) :
    Runner :=
  let s := { s with
    answers := s.answers.set question answer, dirty := s.dirty.set question answer }
  match attempt with
  | none => s
  | some a => if online then { s with queue := s.queue ++ [⟨a, question⟩] } else s

section Save
variable (s : Runner) (attempt : Option Uuid) (online : Bool) (question : Uuid) (answer : Json)

theorem save_fields : (s.save attempt online question answer).history = s.history ∧
    (s.save attempt online question answer).typing = s.typing ∧
    (s.save attempt online question answer).submissions = s.submissions ∧
    (s.save attempt online question answer).attempt = s.attempt ∧
    (s.save attempt online question answer).online = s.online := by
  cases attempt <;> cases online <;> exact ⟨rfl, rfl, rfl, rfl, rfl⟩

@[simp] theorem save_history : (s.save attempt online question answer).history = s.history :=
  (save_fields s attempt online question answer).1

@[simp] theorem save_typing : (s.save attempt online question answer).typing = s.typing :=
  (save_fields s attempt online question answer).2.1

@[simp] theorem save_submissions :
    (s.save attempt online question answer).submissions = s.submissions :=
  (save_fields s attempt online question answer).2.2.1

@[simp] theorem save_editing? : (s.save attempt online question answer).editing? = s.editing? := by
  rw [editing?, (save_fields s attempt online question answer).2.2.2.1, editing?]

@[simp] theorem save_answers :
    (s.save attempt online question answer).answers = s.answers.set question answer := by
  cases attempt <;> cases online <;> rfl

@[simp] theorem save_dirty :
    (s.save attempt online question answer).dirty = s.dirty.set question answer := by
  cases attempt <;> cases online <;> rfl

theorem save_queue (a : Uuid) : (s.save (some a) online question answer).queue =
    s.queue ++ if online then [⟨a, question⟩] else [] := by
  cases online
  · exact (List.append_nil _).symm
  · rfl

@[simp] theorem save_inFlight :
    (s.save attempt online question answer).inFlight = s.inFlight := by
  cases attempt <;> cases online <;> rfl

end Save

def give (s : Runner) (attempt question : Uuid) (answer : Json) : Runner :=
  save { s with history := .given attempt question answer :: s.history } (some attempt) s.online
    question answer

def leave (s : Runner) (question : Uuid) : Runner :=
  { s with typing := if s.typing = some question then none else s.typing }

theorem leave_typing (s : Runner) (question : Uuid) :
    (s.leave question).typing ≠ some question := by
  rw [leave]
  dsimp only
  split
  · exact fun h => (by cases h)
  · next h => exact h

/-- `answers[question] ?? ""`. -/
def text (s : Runner) (question : Uuid) : Json :=
  match s.answers.get question with
  | none | some .null => .str ""
  | some x => x

def settle (s : Runner) (outcome : Outcome) (message : String) : Runner :=
  { s with
    queue := s.queue.tail, inFlight := none, outcomes := s.outcomes ++ [outcome], message }

/-- The first link of the chain has its turn. -/
def runSave (s : Runner) : Runner :=
  match s.queue, s.inFlight with
  | job :: _, none =>
    match s.dirty.get job.questionId with
    | none => s.settle (.ok ()) "Answer saved."
    | some latest => { s with
        inFlight := some latest
        history := .called job.attemptId job.questionId latest :: s.history }
  | _, _ => s

/-- The Host has answered `saveQuizResponse`. -/
def saveAnswered (s : Runner) (outcome : Outcome) : Runner :=
  match s.queue, s.inFlight with
  | job :: _, some latest =>
    match outcome with
    | .error error =>
      s.settle (.error error) (error.getD "Answer will retry when connected.")
    | .ok () =>
      let s := { s with
        dirty := if s.dirty.get job.questionId = some latest then s.dirty.delete job.questionId
          else s.dirty
        history := .acknowledged job.attemptId job.questionId latest :: s.history }
      s.settle (.ok ()) "Answer saved."
  | _, _ => s

/-- `submit` up to its next `await`, if the promise it waits for has ended. A
failed save is reported by `save` itself; the end of the chain may fail. -/
def advance (s : Runner) (run : Submission) : Runner × Option Submission :=
  match run.stage with
  | .saving promise =>
    match s.outcome? promise with
    | none => (s, some run)
    | some _ =>
      match run.todo.dropWhile fun e => !s.dirty.has e.1 with
      | [] => (s, some { run with todo := [], stage := .draining s.lastPromise })
      | e :: rest =>
        let s := s.save (some run.attemptId) true e.1 e.2
        (s, some { run with todo := rest, stage := .saving s.lastPromise })
  | .draining promise =>
    match s.outcome? promise with
    | none => (s, some run)
    | some (.error error) =>
      ({ s with message := error.getD "Quiz could not be submitted." }, none)
    | some (.ok ()) =>
      if s.dirty.list = [] then
        ({ s with history := .submitted run.attemptId :: s.history },
          some { run with stage := .sent })
      else
        ({ s with
          message := "Some answers are not saved yet. Check the Host connection and try again." },
          none)
  | .sent | .refreshing => (s, some run)

def putSubmission (s : Runner) (n : Nat) (run : Option Submission) : Runner :=
  { s with submissions := match run with
    | some run => s.submissions.set n run
    | none => s.submissions.eraseIdx n }

def resume (s : Runner) (n : Nat) : Runner :=
  match s.submissions[n]? with
  | none => s
  | some run =>
    let (s, run) := s.advance run
    s.putSubmission n run

/-- The button is enabled while the app is online, and asks for a confirmation. -/
def submit (s : Runner) : Runner :=
  match s.editing? with
  | none => s
  | some a =>
    if s.online then
      let run : Submission := { attemptId := a, todo := s.answers.list, stage := .saving 0 }
      { s with submissions := s.submissions ++ [run] }.resume s.submissions.length
    else s

/-- The Host has answered `submitQuizAttempt`; it returns the attempt as submitted. -/
def submitAnswered (s : Runner) (n : Nat) (outcome : Outcome) : Runner :=
  match s.submissions[n]? with
  | none => s
  | some run =>
    if run.stage = .sent then
      match outcome with
      | .ok () =>
        { s with attempt := some ⟨run.attemptId, true⟩ }.putSubmission n
          (some { run with stage := .refreshing })
      | .error error =>
        { s with message := error.getD "Quiz could not be submitted." }.putSubmission n none
    else s

/-- The deliveries have been read again after a submission. -/
def refreshed (s : Runner) (n : Nat) (outcome : Outcome) : Runner :=
  match s.submissions[n]? with
  | none => s
  | some run =>
    if run.stage = .refreshing then
      let message := match outcome with
        | .ok () => "Quiz submitted."
        | .error error => error.getD "Quiz could not be submitted."
      { s with message }.putSubmission n none
    else s

def act (s : Runner) : RunnerAction → Runner
  | .connection online => { s with online }
  | .openRefused =>
    if s.online then s else { s with message := "Connect to the Host to start this quiz." }
  | .openFails error => { s with message := error.getD "The quiz could not be opened." }
  | .opened next responses => { s with
      dirty := .empty, attempt := some next, answers := .ofList responses, typing := none
      message := "", history := .opened next.id :: s.history }
  | .back =>
    match s.attempt with
    | some ⟨_, true⟩ => { s with attempt := none }
    | _ => s
  | .type question text =>
    match s.editing? with
    | none => s
    | some a =>
      -- Only the field that has the focus takes input.
      if s.typing = none ∨ s.typing = some question then { s with
        answers := s.answers.set question (.str text), typing := some question
        history := .given a question (.str text) :: s.history }
      else s
  | .blur question =>
    match s.editing? with
    | none => s
    | some a =>
      -- A text that has been typed is given already.
      if s.typing = some question then
        (s.leave question).save (some a) s.online question (s.text question)
      else (s.leave question).give a question (s.text question)
  | .choose question answer =>
    match s.editing? with
    | none => s
    | some a => (s.leave question).give a question answer
  | .runSave => s.runSave
  | .saveAnswered outcome => s.saveAnswered outcome
  | .submit => s.submit
  | .resume n => s.resume n
  | .submitAnswered n outcome => s.submitAnswered n outcome
  | .refreshed n outcome => s.refreshed n outcome

section Shown
variable (s : Runner)

def Shows (s' : Runner) : Prop := s'.online = s.online ∧ s'.attempt = s.attempt

theorem save_shows (attempt : Option Uuid) (online : Bool) (question : Uuid) (answer : Json) :
    s.Shows (s.save attempt online question answer) :=
  (save_fields s attempt online question answer).2.2.2.symm

theorem runSave_shows : s.Shows s.runSave := by
  rw [runSave]
  split
  · split <;> exact ⟨rfl, rfl⟩
  · exact ⟨rfl, rfl⟩

theorem saveAnswered_shows (outcome : Outcome) : s.Shows (s.saveAnswered outcome) := by
  rw [saveAnswered]
  split
  · cases outcome <;> exact ⟨rfl, rfl⟩
  · exact ⟨rfl, rfl⟩

theorem advance_shows (run : Submission) : s.Shows (s.advance run).1 := by
  rw [advance]
  split
  · split
    · exact ⟨rfl, rfl⟩
    · split
      · exact ⟨rfl, rfl⟩
      · exact s.save_shows ..
  · split
    · exact ⟨rfl, rfl⟩
    · exact ⟨rfl, rfl⟩
    · split <;> exact ⟨rfl, rfl⟩
  · exact ⟨rfl, rfl⟩
  · exact ⟨rfl, rfl⟩

theorem resume_shows (n : Nat) : s.Shows (s.resume n) := by
  rw [resume]
  split
  · exact ⟨rfl, rfl⟩
  · exact s.advance_shows _

theorem submit_shows : s.Shows s.submit := by
  rw [submit]
  split
  · exact ⟨rfl, rfl⟩
  · split
    · exact resume_shows { s with submissions := _ } _
    · exact ⟨rfl, rfl⟩

theorem refreshed_shows (n : Nat) (outcome : Outcome) : s.Shows (s.refreshed n outcome) := by
  unfold refreshed
  split
  · exact ⟨rfl, rfl⟩
  · split <;> exact ⟨rfl, rfl⟩

/-- An action that changes what the effect looks at changes the connection, ends the
editing or has nothing left to save. -/
theorem act_shows (action : RunnerAction) : s.Shows (s.act action) ∨
    (∃ online, action = .connection online) ∨ (s.act action).editing? = none ∨
      (s.act action).dirty = .empty := by
  cases action with
  | connection online => exact .inr (.inl ⟨online, rfl⟩)
  | openRefused =>
    rw [act]
    split <;> exact .inl ⟨rfl, rfl⟩
  | openFails error => exact .inl ⟨rfl, rfl⟩
  | opened next responses => exact .inr (.inr (.inr rfl))
  | back =>
    rw [act]
    split
    · exact .inr (.inr (.inl rfl))
    · exact .inl ⟨rfl, rfl⟩
  | type question text =>
    rw [act]
    split
    · exact .inl ⟨rfl, rfl⟩
    · split <;> exact .inl ⟨rfl, rfl⟩
  | blur question =>
    rw [act]
    split
    · exact .inl ⟨rfl, rfl⟩
    · split
      · exact .inl ((s.leave question).save_shows ..)
      · exact .inl (save_shows { s.leave question with history := _ } ..)
  | choose question answer =>
    rw [act]
    split
    · exact .inl ⟨rfl, rfl⟩
    · exact .inl (save_shows { s.leave question with history := _ } ..)
  | runSave => exact .inl s.runSave_shows
  | saveAnswered outcome => exact .inl (s.saveAnswered_shows outcome)
  | submit => exact .inl s.submit_shows
  | resume n => exact .inl (s.resume_shows n)
  | submitAnswered n outcome =>
    rw [act, submitAnswered]
    split
    · exact .inl ⟨rfl, rfl⟩
    · split
      · cases outcome with
        | ok _ => exact .inr (.inr (.inl rfl))
        | error error => exact .inl ⟨rfl, rfl⟩
      · exact .inl ⟨rfl, rfl⟩
  | refreshed n outcome => exact .inl (s.refreshed_shows n outcome)

end Shown

/-- The effect that runs when the connection or the attempt has changed: it saves
again what is not saved. -/
def retry (s : Runner) : Runner :=
  if s.online then
    match s.editing? with
    | none => s
    | some a => s.dirty.list.foldl (fun s e => s.save (some a) true e.1 e.2) s
  else s

def step (s : Runner) (action : RunnerAction) : Runner :=
  let next := s.act action
  if next.online = s.online ∧ next.attempt = s.attempt then next else next.retry

end Runner

end Cinder.Forge
