import Mathlib.Algebra.Order.Ring.Rat
import Cinder.Quizzes.QuizRecords
set_option autoImplicit false

namespace Cinder.Quizzes
open Cinder.Host Cinder.Storage Cinder.Programs

section Rows
variable (db : Database)

def quiz? (id : Uuid) : Option QuizRow := db.quizzes.find? fun q => q.id = id
def version? (id : Uuid) : Option QuizVersionRow := db.quizVersions.find? fun v => v.id = id

def delivery? (id : Uuid) : Option QuizDeliveryRow :=
  db.quizDeliveries.find? fun d => d.id = id

def attempt? (id : Uuid) : Option QuizAttemptRow := db.quizAttempts.find? fun a => a.id = id

def response? (attempt question : Uuid) : Option QuizResponseRow :=
  db.quizResponses.find? fun r => r.attemptId = attempt && r.questionId = question

/-- `quiz_attempts JOIN quiz_deliveries`. -/
def attemptDelivery? (id : Uuid) : Option (QuizAttemptRow × QuizDeliveryRow) :=
  (attempt? db id).bind fun a => (delivery? db a.deliveryId).map fun d => (a, d)

def versionQuestions (versionId : Uuid) : List QuizVersionQuestionRow :=
  db.quizVersionQuestions.rows.filter fun q => q.versionId = versionId

/-- `quiz_version_questions JOIN quiz_deliveries JOIN quiz_attempts`. -/
def attemptQuestions (id : Uuid) : List QuizVersionQuestionRow :=
  match attemptDelivery? db id with
  | some (_, d) => versionQuestions db d.versionId
  | none => []

def attemptResponses (id : Uuid) : List QuizResponseRow :=
  db.quizResponses.rows.filter fun r => r.attemptId = id

/-- The answers that count as none: JSON null and the empty string. -/
def blank (answer : Json) : Bool := answer = .null || answer = .str ""

def missingRequired (id : Uuid) : Nat :=
  (attemptQuestions db id).countP fun q => q.required &&
    !(attemptResponses db id).any fun r => r.questionId = q.id && !blank r.answer

/-- The short answers that still need a teacher: required or given, and not graded. -/
def manualMissing (id : Uuid) : Nat :=
  (attemptQuestions db id).countP fun q => q.kind = .shortAnswer &&
    (q.required || (attemptResponses db id).any fun r => r.questionId = q.id) &&
    !(attemptResponses db id).any fun r => r.questionId = q.id && r.gradedAt.isSome

/-- `coalesce(sum(points),0)`. -/
def pointsSum (id : Uuid) : ℚ :=
  ((attemptResponses db id).map fun r => r.points.getD 0).sum

def incomplete (deliveryId : Uuid) : Nat :=
  db.quizAttempts.rows.countP fun a =>
    a.deliveryId = deliveryId && a.submittedAt.isSome && a.gradedAt.isNone

end Rows

def checked (ok : Bool) (message : String) : Except HostError Unit :=
  if ok then .ok () else .error (.badRequest message)

def validateQuestion (q : QuizQuestionInput) : Except HostError Unit := do
  checked (trim q.prompt ≠ "" && charCount q.prompt ≤ 2000)
    "Every question needs a prompt of at most 2,000 characters."
  checked (0 < q.maxPoints && q.maxPoints ≤ 1000) "Question points must be greater than zero."
  match q.kind with
  | .singleChoice =>
    match q.canonicalAnswer.asStr with
    | none => .error (.badRequest "Single-choice answers must be option text.")
    | some answer =>
      checked (2 ≤ q.options.length && q.options.length ≤ 10 &&
          q.options.all (fun v => trim v ≠ "") && (q.options.map trim).Nodup &&
          q.options.count answer = 1)
        "Single-choice questions need 2–10 unique options and one canonical answer."
  | .trueFalse =>
    checked (q.options.isEmpty && q.canonicalAnswer.isBoolean)
      "True/false questions need one boolean canonical answer."
  | .shortAnswer => checked q.options.isEmpty "Short-answer questions cannot have options."

def validateQuestions : List QuizQuestionInput → Except HostError Unit
  | [] => .ok ()
  | q :: qs => do
    validateQuestion q
    validateQuestions qs

def validateQuiz (req : SaveQuizRequest) : Except HostError Unit := do
  checked (trim req.title ≠ "" && charCount req.title ≤ 200)
    "Quiz title must contain 1–200 characters."
  checked (req.questions ≠ [] && req.questions.length ≤ 100)
    "A quiz must contain 1–100 questions."
  checked (req.timeLimitMinutes.all fun m => 0 < m && m ≤ 180)
    "Time limit must be between 1 and 180 minutes."
  validateQuestions req.questions

theorem checked_ok {ok : Bool} {message : String} {u : Unit} (h : checked ok message = .ok u) :
    ok = true := by
  unfold checked at h
  split at h
  · assumption
  · contradiction

theorem validateQuestion_maxPoints {q : QuizQuestionInput} {u : Unit}
    (h : validateQuestion q = .ok u) : 0 < q.maxPoints := by
  obtain ⟨_, _, h⟩ := bind_eq_ok.mp h
  obtain ⟨_, hmax, _⟩ := bind_eq_ok.mp h
  have hpos := checked_ok hmax
  simp only [Bool.and_eq_true, decide_eq_true_eq] at hpos
  exact hpos.1

theorem validateQuestions_maxPoints {qs : List QuizQuestionInput} {u : Unit}
    (h : validateQuestions qs = .ok u) : ∀ q ∈ qs, 0 < q.maxPoints := by
  induction qs with
  | nil => simp
  | cons q qs ih =>
    obtain ⟨_, hq, hqs⟩ := bind_eq_ok.mp h
    simpa using ⟨validateQuestion_maxPoints hq, ih hqs⟩

theorem validateQuiz_maxPoints {req : SaveQuizRequest} {u : Unit}
    (h : validateQuiz req = .ok u) : ∀ q ∈ req.questions, 0 < q.maxPoints := by
  obtain ⟨_, _, h⟩ := bind_eq_ok.mp h
  obtain ⟨_, _, h⟩ := bind_eq_ok.mp h
  obtain ⟨_, _, h⟩ := bind_eq_ok.mp h
  exact validateQuestions_maxPoints h

def objectivePoints (kind : QuizQuestionKind) (key answer : Json) (max : ℚ) :
    Option ℚ × Bool :=
  match kind with
  | .shortAnswer => (none, false)
  | _ => (some (if key = answer then max else 0), true)

theorem objectivePoints_cases {kind : QuizQuestionKind} {key answer : Json} {max p : ℚ}
    (h : (objectivePoints kind key answer max).1 = some p) : p = max ∨ p = 0 := by
  have hcase : some (if key = answer then max else 0) = some p → p = max ∨ p = 0 := by
    intro hp
    obtain rfl := Option.some.inj hp
    split
    · exact .inl rfl
    · exact .inr rfl
  cases kind with
  | shortAnswer => contradiction
  | singleChoice => exact hcase h
  | trueFalse => exact hcase h

theorem objectivePoints_bounds {kind : QuizQuestionKind} {key answer : Json} {max p : ℚ}
    (hmax : 0 ≤ max) (h : (objectivePoints kind key answer max).1 = some p) :
    0 ≤ p ∧ p ≤ max := by
  obtain rfl | rfl := objectivePoints_cases h
  · exact ⟨hmax, le_refl _⟩
  · exact ⟨le_refl _, hmax⟩

theorem objectivePoints_auto (kind : QuizQuestionKind) (key answer : Json) (max : ℚ) :
    (objectivePoints kind key answer max).2 = (objectivePoints kind key answer max).1.isSome := by
  cases kind <;> rfl

theorem objectivePoints_auto_kind (kind : QuizQuestionKind) (key answer : Json) (max : ℚ) :
    (objectivePoints kind key answer max).2 = (kind ≠ .shortAnswer : Bool) := by
  cases kind <;> rfl

end Cinder.Quizzes
