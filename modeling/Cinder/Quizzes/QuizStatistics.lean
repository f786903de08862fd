import Cinder.Programs.CheckedLists
import Cinder.Quizzes.QuizRelease
import Cinder.Quizzes.QuizScoreRuns
import Cinder.Storage.RankedSamples
import Mathlib.Data.List.MinMax
import Mathlib.Data.Rat.Floor
set_option autoImplicit false

/-!
The statistics of a delivery: how the graded scores are spread, and how many of the counted answers
to a question are correct, or earn a part of its points.
-/

namespace Cinder.Quizzes
open Cinder.Host Cinder.Storage Cinder.Programs Cinder.Programs.Program
open Cinder.Programs.Protocol

structure QuizQuestionStatistic where
  questionId : Uuid
  prompt : String
  gradedCount : ℕ
  correctPercent : ℚ
  partialPercent : ℚ
  deriving DecidableEq, Repr

structure QuizStatistics where
  assignedCount : ℕ
  startedCount : ℕ
  submittedCount : ℕ
  gradedCount : ℕ
  highest : Option ℚ
  lowest : Option ℚ
  mean : Option ℚ
  median : Option ℚ
  lowerQuartile : Option ℚ
  upperQuartile : Option ℚ
  distribution : List ℕ
  questions : List QuizQuestionStatistic
  mostCorrectQuestionId : Option Uuid
  mostIncorrectQuestionId : Option Uuid
  deriving DecidableEq, Repr

section Reads
variable (db : Database) (id : Uuid)

/-- Deliveries from before the count was stored have the enrolments counted. -/
def assignedCount? : Option ℕ :=
  (delivery? db id).map fun d => d.assignedCount.getD
    (db.classroomEnrolments.rows.countP fun e => e.classroomId = d.classroomId)

def startedCount : ℕ := db.quizAttempts.rows.countP fun a => a.deliveryId = id

def submittedAttempts : List QuizAttemptRow :=
  db.quizAttempts.rows.filter fun a => a.deliveryId = id && a.submittedAt.isSome

/-- In order. A score that is null cannot be read. -/
def gradedScores? : Option (List ℚ) :=
  let graded := (submittedAttempts db id).filter fun a => a.gradedAt.isSome
  (graded.mapM QuizAttemptRow.score).map (List.insertionSort (· ≤ ·))

def deliveryVersion? : Option Uuid := (delivery? db id).map fun d => d.versionId

def deliveryTotal? : Option ℚ :=
  (delivery? db id).bind fun d => (version? db d.versionId).map fun v => v.totalPoints

def orderedQuestions (versionId : Uuid) : List QuizVersionQuestionRow :=
  (versionQuestions db versionId).insertionSort fun q q' => q.position ≤ q'.position

/-- The points of the answers that are counted. A short answer counts once it is graded; another
question counts with every submitted attempt, and has no points where it was not answered. -/
def countedPoints (q : QuizVersionQuestionRow) : List (Option ℚ) :=
  if q.kind = .shortAnswer then
    (db.quizResponses.rows.filter fun r => r.questionId = q.id && r.gradedAt.isSome &&
      (submittedAttempts db id).any fun a => a.id = r.attemptId).map fun r => r.points
  else (submittedAttempts db id).map fun a => (response? db a.id q.id).bind fun r => r.points

end Reads

section Marks

/-- Points this close to the maximum count as all of them. -/
def tolerance : ℚ := 1/1000000

def isCorrect (max : ℚ) (points : Option ℚ) : Bool := points.any fun p => |p-max| < tolerance

def isPartial (max : ℚ) (points : Option ℚ) : Bool := points.any fun p => 0 < p && p < max

def percent (n count : ℕ) : ℚ := if 0 < count then 100*n/count else 0

def questionStatistic (q : QuizVersionQuestionRow) (points : List (Option ℚ)) :
    QuizQuestionStatistic where
  questionId := q.id
  prompt := q.prompt
  gradedCount := points.length
  correctPercent := percent (points.countP (isCorrect q.maxPoints)) points.length
  partialPercent := percent (points.countP (isPartial q.maxPoints)) points.length

def scoreClass (maxPoints score : ℚ) : ℕ :=
  min ⌊(if 0 < maxPoints then 100*score/maxPoints else 0)/10⌋₊ 9

def statisticsOf (assigned started submitted : ℕ) (scores : List ℚ) (maxPoints : ℚ)
    (questions : List QuizQuestionStatistic) : QuizStatistics :=
  let graded := questions.filter fun q => 0 < q.gradedCount
  { assignedCount := assigned, startedCount := started, submittedCount := submitted
    gradedCount := scores.length, highest := scores.getLast?, lowest := scores.head?
    mean := mean scores, median := quantile scores (1/2), lowerQuartile := quantile scores (1/4)
    upperQuartile := quantile scores (3/4), distribution := tally (scoreClass maxPoints) 10 scores
    questions
    -- Of equal ones `max_by` takes the last, `min_by` the first.
    mostCorrectQuestionId := (graded.reverse.argmax fun q => q.correctPercent).map
      fun q => q.questionId
    mostIncorrectQuestionId := (graded.argmin fun q => q.correctPercent).map
      fun q => q.questionId }

end Marks

def questionStatistics (id : Uuid) :
    List QuizVersionQuestionRow → QuizProgram (List QuizQuestionStatistic)
  | [] => pure []
  | q :: qs => do
    let points ← query fun db => countedPoints db id q
    let statistics ← questionStatistics id qs
    pure (questionStatistic q points :: statistics)

def calculateStatistics (id : Uuid) : QuizProgram QuizStatistics := do
  let assigned ← queryRow (fun db => assignedCount? db id) (.database .queryReturnedNoRows)
  let started ← query fun db => startedCount db id
  let submitted ← query fun db => (submittedAttempts db id).length
  let scores ← queryRow (fun db => gradedScores? db id) (.database .invalidColumnType)
  let maxPoints ← queryRow (fun db => deliveryTotal? db id) (.database .queryReturnedNoRows)
  let versionId ← queryRow (fun db => deliveryVersion? db id) (.database .queryReturnedNoRows)
  let raw ← query fun db => orderedQuestions db versionId
  let questions ← questionStatistics id raw
  pure (statisticsOf assigned started submitted scores maxPoints questions)

/-- Every delivery has its version, and every graded attempt its score. -/
structure Recorded (db : Database) : Prop where
  version : ∀ d ∈ db.quizDeliveries.rows, ∃ v ∈ db.quizVersions.rows, v.id = d.versionId
  score : ∀ a ∈ db.quizAttempts.rows, a.gradedAt.isSome = true → a.score.isSome = true

section Answers
variable {db : Database} {id : Uuid}

theorem exec_questionStatistics (db : Database) (id : Uuid) (qs : List QuizVersionQuestionRow) :
    (questionStatistics id qs).exec db =
      (.ok (qs.map fun q => questionStatistic q (countedPoints db id q)), db) := by
  induction qs with
  | nil => rfl
  | cons q qs ih =>
    rw [questionStatistics, exec_bind_ok _ (exec_query _ db), exec_bind_ok _ ih]
    rfl

theorem exists_gradedScores (hdb : Recorded db) (id : Uuid) :
    ∃ scores, gradedScores? db id = some scores ∧ scores.SortedLE := by
  have hscores : ∀ a ∈ (submittedAttempts db id).filter fun a => a.gradedAt.isSome,
      ∃ s, a.score = some s := by
    intro a ha
    obtain ⟨hsubmitted, hgraded⟩ := List.mem_filter.mp ha
    exact Option.isSome_iff_exists.mp (hdb.score a (List.mem_filter.mp hsubmitted).1 hgraded)
  obtain ⟨scores, hmap⟩ := exists_mapM hscores
  exact ⟨_, congrArg (Option.map _) hmap, List.sortedLE_insertionSort⟩

theorem version?_of_mem {v : QuizVersionRow} (hv : v ∈ db.quizVersions.rows) :
    version? db v.id = some v :=
  Table.find?_of_mem hv (by simp) fun v' _ h => by
    simp only [decide_eq_true_eq] at h
    simp [Keyed.clash, h]

theorem exec_calculateStatistics (hdb : Recorded db) {d : QuizDeliveryRow}
    (hd : d ∈ db.quizDeliveries.rows) :
    ∃ assigned scores maxPoints, scores.SortedLE ∧ (calculateStatistics d.id).exec db =
      (.ok (statisticsOf assigned (startedCount db d.id) (submittedAttempts db d.id).length scores
        maxPoints ((orderedQuestions db d.versionId).map fun q =>
          questionStatistic q (countedPoints db d.id q))), db) := by
  obtain ⟨scores, hscores, hsorted⟩ := exists_gradedScores hdb d.id
  obtain ⟨v, hv, hvid⟩ := hdb.version d hd
  have hdelivery := delivery?_of_mem hd
  have hversion : version? db d.versionId = some v := hvid ▸ version?_of_mem hv
  have hassigned : ∃ n, assignedCount? db d.id = some n := ⟨_, congrArg (Option.map _) hdelivery⟩
  obtain ⟨assigned, hassigned⟩ := hassigned
  have htotal : deliveryTotal? db d.id = some v.totalPoints := by
    rw [deliveryTotal?, hdelivery, Option.bind_some, hversion, Option.map_some]
  have hid : deliveryVersion? db d.id = some d.versionId := by
    rw [deliveryVersion?, hdelivery, Option.map_some]
  refine ⟨assigned, scores, v.totalPoints, hsorted, ?_⟩
  unfold calculateStatistics
  rw [exec_bind_ok _ (exec_queryRow_some (s := db) hassigned), exec_bind_ok _ (exec_query _ db),
    exec_bind_ok _ (exec_query _ db), exec_bind_ok _ (exec_queryRow_some (s := db) hscores),
    exec_bind_ok _ (exec_queryRow_some (s := db) htotal),
    exec_bind_ok _ (exec_queryRow_some (s := db) hid), exec_bind_ok _ (exec_query _ db),
    exec_bind_ok _ (exec_questionStatistics db d.id _)]
  rfl

theorem percent_bounds {n count : ℕ} (h : n ≤ count) :
    0 ≤ percent n count ∧ percent n count ≤ 100 := by
  unfold percent
  split
  · next hcount =>
    have hpos : (0 : ℚ) < count := by exact_mod_cast hcount
    have hle : (n : ℚ) ≤ count := by exact_mod_cast h
    exact ⟨by positivity, (div_le_iff₀ hpos).mpr (by linarith)⟩
  · norm_num

theorem percent_add_le {n m count : ℕ} (hn : n ≤ count) (hm : m ≤ count) :
    percent n count+percent m count ≤ 100 ↔ n+m ≤ count := by
  unfold percent
  split
  · next hcount =>
    have hpos : (0 : ℚ) < count := by exact_mod_cast hcount
    have hsum : (100*n/count+100*m/count : ℚ) = 100*((n+m : ℕ) : ℚ)/count := by
      push_cast
      ring
    rw [hsum, div_le_iff₀ hpos, mul_le_mul_iff_right₀ (by norm_num)]
    exact_mod_cast Iff.rfl
  · next hcount => exact iff_of_true (by norm_num) (by omega)

end Answers

section Consistency
variable {db : Database} {d : QuizDeliveryRow}

/-- The scores are spread over ten classes, and their marks are in order. -/
structure SpreadConsistent (s : QuizStatistics) : Prop where
  tenths : s.distribution.length = 10
  sum : s.distribution.sum = s.gradedCount
  ordered : 0 < s.gradedCount → ∃ lowest lower median upper highest average,
    s.lowest = some lowest ∧ s.lowerQuartile = some lower ∧ s.median = some median ∧
    s.upperQuartile = some upper ∧ s.highest = some highest ∧ s.mean = some average ∧
    lowest ≤ lower ∧ lower ≤ median ∧ median ≤ upper ∧ upper ≤ highest ∧
    lowest ≤ average ∧ average ≤ highest

structure SharesConsistent (q : QuizQuestionStatistic) : Prop where
  correct : 0 ≤ q.correctPercent ∧ q.correctPercent ≤ 100
  partly : 0 ≤ q.partialPercent ∧ q.partialPercent ≤ 100
  together : q.correctPercent+q.partialPercent ≤ 100

/-- The statistics of a delivery are calculated and fit together, and no answer that earned nothing
counts as correct. -/
structure StatisticsConsistent (db : Database) (d : QuizDeliveryRow) : Prop where
  calculated : ∃ s, (calculateStatistics d.id).exec db = (.ok s, db) ∧ SpreadConsistent s ∧
    ∀ q ∈ s.questions, SharesConsistent q
  zero : ∀ q ∈ versionQuestions db d.versionId, some 0 ∈ countedPoints db d.id q →
    isCorrect q.maxPoints (some 0) = false

/-- A question with an answer that earned nothing is worth more than the tolerance; and of its
answers no more earned a part of the points within the tolerance than earned nothing near any. -/
structure MarksTold (db : Database) (d : QuizDeliveryRow) (q : QuizVersionQuestionRow) : Prop where
  zero : some 0 ∈ countedPoints db d.id q → tolerance ≤ |q.maxPoints|
  overlap : (countedPoints db d.id q).countP
      (fun x => isCorrect q.maxPoints x && isPartial q.maxPoints x) ≤
    (countedPoints db d.id q).countP fun x => !isCorrect q.maxPoints x && !isPartial q.maxPoints x

theorem scoreClass_lt (maxPoints score : ℚ) : scoreClass maxPoints score < 10 :=
  lt_of_le_of_lt (min_le_right _ _) (by decide)

theorem spreadConsistent {scores : List ℚ} (hs : scores.SortedLE)
    (assigned started submitted : ℕ) (maxPoints : ℚ) (questions : List QuizQuestionStatistic) :
    SpreadConsistent (statisticsOf assigned started submitted scores maxPoints questions) := by
  refine ⟨length_tally _ _, sum_tally fun s _ => scoreClass_lt maxPoints s, fun hpos => ?_⟩
  have hne : scores ≠ [] := List.ne_nil_of_length_pos hpos
  obtain ⟨lowest, lower, hlowest, hlower, hfirst⟩ :=
    quantile_mono (p := 0) (q := 1/4) hs hne le_rfl (by norm_num) (by norm_num)
  obtain ⟨lower', median, hlower', hmedian, hsecond⟩ :=
    quantile_mono (p := 1/4) (q := 1/2) hs hne (by norm_num) (by norm_num) (by norm_num)
  obtain ⟨median', upper, hmedian', hupper, hthird⟩ :=
    quantile_mono (p := 1/2) (q := 3/4) hs hne (by norm_num) (by norm_num) (by norm_num)
  obtain ⟨upper', highest, hupper', hhighest, hfourth⟩ :=
    quantile_mono (p := 3/4) (q := 1) hs hne (by norm_num) (by norm_num) le_rfl
  obtain rfl := Option.some.inj (hlower'.symm.trans hlower)
  obtain rfl := Option.some.inj (hmedian'.symm.trans hmedian)
  obtain rfl := Option.some.inj (hupper'.symm.trans hupper)
  rw [quantile_zero] at hlowest
  rw [quantile_one] at hhighest
  have hempty : scores.isEmpty = false := by simpa using hne
  have hlow : ∀ x ∈ scores, lowest ≤ x := fun x hx => head_le hs hlowest hx
  have hhigh : ∀ x ∈ scores, x ≤ highest := fun x hx => le_getLast hs hhighest hx
  exact ⟨lowest, _, _, _, highest, _, hlowest, hlower, hmedian, hupper, hhighest,
    by simp [statisticsOf, mean, hempty], hfirst, hsecond, hthird, hfourth, le_mean hne hlow,
    mean_le hne hhigh⟩

theorem sharesConsistent_iff (q : QuizVersionQuestionRow) (points : List (Option ℚ)) :
    SharesConsistent (questionStatistic q points) ↔
      points.countP (fun x => isCorrect q.maxPoints x && isPartial q.maxPoints x) ≤
        points.countP fun x => !isCorrect q.maxPoints x && !isPartial q.maxPoints x := by
  have hcorrect : points.countP (isCorrect q.maxPoints) ≤ points.length := List.countP_le_length
  have hpartial : points.countP (isPartial q.maxPoints) ≤ points.length := List.countP_le_length
  have hcount := countP_add (isCorrect q.maxPoints) (isPartial q.maxPoints) points
  have htogether := percent_add_le hcorrect hpartial
  constructor
  · intro h
    have hsum := htogether.mp h.together
    omega
  · exact fun h => ⟨percent_bounds hcorrect, percent_bounds hpartial, htogether.mpr (by omega)⟩

theorem isCorrect_zero_iff (max : ℚ) : isCorrect max (some 0) = false ↔ tolerance ≤ |max| := by
  simp [isCorrect]

/-- The statistics of a delivery fit together if and only if its marks are told apart. -/
theorem statisticsConsistent_iff (hdb : Recorded db) (hd : d ∈ db.quizDeliveries.rows) :
    StatisticsConsistent db d ↔ ∀ q ∈ versionQuestions db d.versionId, MarksTold db d q := by
  obtain ⟨assigned, scores, maxPoints, hsorted, hexec⟩ := exec_calculateStatistics hdb hd
  have hmem : ∀ q, q ∈ orderedQuestions db d.versionId ↔ q ∈ versionQuestions db d.versionId :=
    fun q => List.mem_insertionSort _
  constructor
  · rintro ⟨⟨s, hs, -, hshares⟩, hzero⟩ q hq
    rw [hexec] at hs
    cases hs
    refine ⟨fun h => (isCorrect_zero_iff _).mp (hzero q hq h), ?_⟩
    exact (sharesConsistent_iff q _).mp
      (hshares _ (List.mem_map_of_mem ((hmem q).mpr hq)))
  · intro h
    refine ⟨⟨_, hexec, spreadConsistent hsorted _ _ _ _ _, fun x hx => ?_⟩, fun q hq hzero =>
      (isCorrect_zero_iff _).mpr ((h q hq).zero hzero)⟩
    obtain ⟨q, hq, rfl⟩ := List.mem_map.mp hx
    exact (sharesConsistent_iff q _).mpr (h q ((hmem q).mp hq)).overlap

end Consistency

section Marks
variable {db db' : Database} {l : QuizStatement} {qid : Uuid} {points : Option ℚ}

def AnswerApart (db : Database) (qid : Uuid) (points : Option ℚ) : Prop :=
  ∃ q ∈ db.quizVersionQuestions.rows, q.id = qid ∧
    ∀ p ∈ points, p = q.maxPoints ∨ p ≤ q.maxPoints-tolerance

/-- No question is worth less than the tolerance, and no answer is near its maximum. -/
structure MarksApart (db : Database) : Prop where
  worth : ∀ q ∈ db.quizVersionQuestions.rows, tolerance ≤ q.maxPoints
  answer : ∀ r ∈ db.quizResponses.rows, AnswerApart db r.questionId r.points

theorem mem_countedPoints {id : Uuid} {q : QuizVersionQuestionRow} {x : Option ℚ}
    (h : x ∈ countedPoints db id q) :
    x = none ∨ ∃ r ∈ db.quizResponses.rows, r.questionId = q.id ∧ x = r.points := by
  unfold countedPoints at h
  split at h
  · obtain ⟨r, hr, rfl⟩ := List.mem_map.mp h
    obtain ⟨hmem, hcounted⟩ := List.mem_filter.mp hr
    simp only [Bool.and_eq_true, decide_eq_true_eq] at hcounted
    exact .inr ⟨r, hmem, hcounted.1.1, rfl⟩
  · obtain ⟨a, -, rfl⟩ := List.mem_map.mp h
    cases hr : response? db a.id q.id with
    | none => exact .inl rfl
    | some r =>
      obtain ⟨hmem, hkey⟩ := Table.mem_of_find? hr
      simp only [Bool.and_eq_true, decide_eq_true_eq] at hkey
      exact .inr ⟨r, hmem, hkey.2, rfl⟩

theorem MarksApart.told (h : MarksApart db) (d : QuizDeliveryRow) {q : QuizVersionQuestionRow}
    (hq : q ∈ versionQuestions db d.versionId) : MarksTold db d q := by
  have hstored := (List.mem_filter.mp hq).1
  have hworth := h.worth q hstored
  have hapart : ∀ x ∈ countedPoints db d.id q, ∀ p ∈ x,
      p = q.maxPoints ∨ p ≤ q.maxPoints-tolerance := by
    intro x hx p hp
    obtain rfl | ⟨r, hr, hrq, rfl⟩ := mem_countedPoints hx
    · cases hp
    · obtain ⟨q', hq', hid, hpoints⟩ := h.answer r hr
      have hsame : q' = q := Table.eq_of_clash hq' hstored (by simp [Keyed.clash, hid, hrq])
      exact hsame ▸ hpoints p hp
  refine ⟨fun _ => hworth.trans (le_abs_self _), ?_⟩
  rw [List.countP_eq_zero.mpr]
  · exact Nat.zero_le _
  · intro x hx hboth
    cases x with
    | none => cases hboth
    | some p =>
      simp only [isCorrect, isPartial, Option.any_some, Bool.and_eq_true,
        decide_eq_true_eq] at hboth
      obtain ⟨hnear, -, hbelow⟩ := hboth
      obtain rfl | hfar := hapart _ hx p rfl
      · exact lt_irrefl _ hbelow
      · rw [abs_lt] at hnear
        linarith

theorem AnswerApart.mono (h : l.run db = .ok db') (ha : AnswerApart db qid points) :
    AnswerApart db' qid points := by
  obtain ⟨q, hq, hpoints⟩ := ha
  exact ⟨q, (run_questions_rows h).2 q hq, hpoints⟩

/-- What is published is worth the tolerance, and a teacher's grade is the maximum or at least the
tolerance below it. -/
def GradesApart (l : QuizStatement) (db : Database) : Prop :=
  match l with
  | .publishQuiz quiz .. => ∀ q ∈ quiz.questions, tolerance ≤ q.maxPoints
  | .gradeResponse _ qid points .. => ∀ q ∈ db.quizVersionQuestions.rows, q.id = qid →
      points = q.maxPoints ∨ points ≤ q.maxPoints-tolerance
  | _ => True

instance (l : QuizStatement) (db : Database) : Decidable (GradesApart l db) :=
  match l with
  | .publishQuiz quiz .. =>
    inferInstanceAs (Decidable (∀ q ∈ quiz.questions, tolerance ≤ q.maxPoints))
  | .gradeResponse _ qid points .. =>
    inferInstanceAs (Decidable (∀ q ∈ db.quizVersionQuestions.rows, q.id = qid →
      points = q.maxPoints ∨ points ≤ q.maxPoints-tolerance))
  | .createQuiz .. | .updateQuiz .. | .archiveQuiz .. | .insertDelivery .. | .insertAttempt ..
  | .upsertResponse .. | .markSubmitted .. | .writeScore .. | .reopenAttempt ..
  | .releaseResults .. | .audit .. => inferInstanceAs (Decidable True)

/-- What the handlers have read of the values they write. -/
def Backed (l : QuizStatement) (db : Database) : Prop :=
  match l with
  | .insertDelivery row => ∃ v ∈ db.quizVersions.rows, v.id = row.versionId
  | .upsertResponse row => ∃ q ∈ db.quizVersionQuestions.rows, q.id = row.questionId ∧
      ∀ p ∈ row.points, p = q.maxPoints ∨ p = 0
  | _ => True

theorem graded_step (h : l.run db = .ok db')
    (hscore : ∀ a ∈ db.quizAttempts.rows, a.gradedAt.isSome = true → a.score.isSome = true) :
    ∀ a ∈ db'.quizAttempts.rows, a.gradedAt.isSome = true → a.score.isSome = true := by
  have hatt := (run_effect h).attempts
  have hupdate : ∀ {id f} {hf : Table.KeepsKeys f},
      db'.quizAttempts = db.quizAttempts.update (fun a => a.id = id) f hf →
      (∀ a ∈ db.quizAttempts.rows, (f a).gradedAt.isSome = true → (f a).score.isSome = true) →
      ∀ a ∈ db'.quizAttempts.rows, a.gradedAt.isSome = true → a.score.isSome = true := by
    intro id f hf heq hrow a ha hgraded
    rw [heq] at ha
    obtain ⟨b, hb, rfl⟩ := Table.mem_update.mp ha
    by_cases hk : b.id = id
    · simp only [hk, decide_true, if_true] at hgraded ⊢
      exact hrow b hb hgraded
    · simp only [hk, decide_false] at hgraded ⊢
      exact hscore b hb hgraded
  cases l with
  | insertAttempt row =>
    intro a ha hgraded
    rcases (Table.mem_insert hatt).mp ha with ha | rfl
    · exact hscore a ha hgraded
    · cases hgraded
  | markSubmitted id now => exact hupdate hatt hscore
  | writeScore id score missing now => exact hupdate hatt fun _ _ _ => rfl
  | reopenAttempt id now expires => exact hupdate hatt fun _ _ hgraded => by cases hgraded
  | createQuiz | updateQuiz | archiveQuiz | publishQuiz | insertDelivery | upsertResponse
  | gradeResponse | releaseResults | audit =>
    rwa [show db'.quizAttempts = db.quizAttempts from hatt]

theorem recorded_step (h : l.run db = .ok db') (hl : Backed l db) (hdb : Recorded db) :
    Recorded db' := by
  refine ⟨fun d hd => ?_, graded_step h hdb.score⟩
  have hversions := (run_versions_rows h).2
  rcases (run_deliveries_rows h).1 d hd with ⟨d₀, hd₀, -, hversion⟩ | ⟨row, rfl, rfl⟩
  · obtain ⟨v, hv, hid⟩ := hdb.version d₀ hd₀
    exact ⟨v, hversions v hv, hid.trans hversion.symm⟩
  · obtain ⟨v, hv, hid⟩ := hl
    exact ⟨v, hversions v hv, hid⟩

theorem marksApart_step (h : l.run db = .ok db') (hl : Backed l db) (hapart : GradesApart l db)
    (hdb : MarksApart db) : MarksApart db' := by
  refine ⟨fun q hq => ?_, fun r hr => ?_⟩
  · rcases (run_questions_rows h).1 q hq with hq | ⟨quiz, versionId, fresh, now, entry, rfl, hq⟩
    · exact hdb.worth q hq
    · obtain ⟨-, q', hq', hmax⟩ := versionQuestionRows_version hq
      rw [hmax]
      exact hapart q' hq'
  · rcases run_responses_rows h r hr with hr | ⟨row, rfl, -, hqid, hpoints, -⟩ |
      ⟨id, qid, points, feedback, now, rfl, r₀, hr₀, -, hqid, rfl⟩
    · exact (hdb.answer r hr).mono h
    · rw [hqid, hpoints]
      obtain ⟨q, hq, hid, hall⟩ := hl
      have hworth := hdb.worth q hq
      refine AnswerApart.mono h ⟨q, hq, hid, fun p hp => (hall p hp).imp_right fun hzero => ?_⟩
      rw [hzero]
      linarith
    · obtain ⟨q, hq, hid, -⟩ := hdb.answer r₀ hr₀
      refine AnswerApart.mono h ⟨q, hq, hid, fun p hp => ?_⟩
      cases hp
      exact hapart q hq (hid.trans hqid)

end Marks

section Runs
variable {ι : Type} (i : ι) (env : Env) (user : CurrentUser) (id : Uuid) {marked : Prop}

/-- Every delivery has its version and every graded attempt its score; and, where marks are kept
apart, they are apart. -/
def recording (ι : Type) (marked : Prop) : Protocol ι Database QuizStatement where
  inv w := Recorded w.state ∧ (marked → MarksApart w.state)
  guard _ l w := marked → GradesApart l w.state
  promise _ l w := Backed l w.state
  inv_step _ _ _ _ hi hg hp hw :=
    ⟨recorded_step hw.1 hp hi.1, fun hm => marksApart_step hw.1 hp (hg hm) (hi.2 hm)⟩

theorem deliverQuiz_follows (req : DeliverQuizRequest) : (recording ι marked).Follows i
    (fun _ _ => True) (deliverQuiz env user id req) (fun _ => True) := by
  have htrue := (recording ι marked).stable_const i True
  have hstored (versionId : Uuid) : (recording ι marked).Stable i fun w =>
      ∃ v ∈ w.state.quizVersions.rows, v.id = versionId := by
    rintro j l w w' - ⟨v, hv, hid⟩ - - - hw
    exact ⟨v, (run_versions_rows hw.1).2 v hv, hid⟩
  unfold deliverQuiz
  refine (Follows.readOnly htrue (requireTeacher_readOnly _)).bind fun _ => ?_
  refine (Follows.readOnly htrue (loadQuiz_readOnly _)).bind fun quiz => ?_
  refine (Follows.readOnly htrue (requireActiveQuiz_readOnly _)).bind fun _ => ?_
  refine (Follows.readOnly htrue (requireTeacherAccess_readOnly _ _)).bind fun _ => ?_
  refine (Follows.readOnly htrue (readOnly_require _ _)).bind fun _ => ?_
  refine (Follows.queryRow htrue hstored fun w versionId _ _ hversion =>
    latestVersion_mem hversion).bind fun versionId => ?_
  have hversion := hstored versionId
  refine (Follows.readOnly hversion (requireLiveSession_readOnly _ _ _)).bind fun _ => ?_
  refine (Follows.readOnly hversion (readOnly_query _)).bind fun assigned => ?_
  refine Follows.bind (Follows.execute hversion htrue fun w w' _ hv _ _ => ?_) fun _ => ?_
  · exact ⟨hv, trivial⟩
  · refine Follows.bind (Follows.execute htrue htrue fun w w' _ _ _ _ => ?_) fun _ =>
      Follows.readOnly htrue (loadDelivery_readOnly _ _)
    exact ⟨trivial, trivial⟩

theorem saveResponse_follows (u : SaveUpsert) (question : Uuid) (answer : Json) :
    (recording ι marked).Follows i (fun _ _ => True)
      (saveResponse env u user id question answer) (fun _ => True) := by
  have htrue := (recording ι marked).stable_const i True
  have hkey (key : QuizQuestionKind × Json × ℚ) : (recording ι marked).Stable i fun w =>
      ∃ q ∈ w.state.quizVersionQuestions.rows, q.id = question ∧ q.maxPoints = key.2.2 := by
    rintro j l w w' - ⟨q, hq, hid, hmax⟩ - - - hw
    exact ⟨q, (run_questions_rows hw.1).2 q hq, hid, hmax⟩
  unfold saveResponse
  refine (Follows.readOnly htrue (requireStudent_readOnly _)).bind fun _ => ?_
  refine (Follows.readOnly htrue (ensureAttemptWritable_readOnly _ _ _)).bind fun _ => ?_
  refine Follows.bind (Q := fun key w => ∃ q ∈ w.state.quizVersionQuestions.rows,
    q.id = question ∧ q.maxPoints = key.2.2)
    (Follows.queryRow htrue hkey fun w key _ _ hrow => ?_) fun key => ?_
  · obtain ⟨⟨a, d⟩, -, hrow⟩ := Option.bind_eq_some_iff.mp hrow
    obtain ⟨q, hq, hcolumns⟩ := Option.bind_eq_some_iff.mp hrow
    cases hcolumns
    obtain ⟨hmem, hp⟩ := Table.mem_of_find? hq
    simp only [Bool.and_eq_true, decide_eq_true_eq] at hp
    exact ⟨q, hmem, hp.1, rfl⟩
  · refine Follows.ofExcept_bind (hkey key) fun row hrow => ?_
    have hrow' : row = savedRow (env.uuid 0) id question answer
        (objectivePoints key.1 key.2.1 answer key.2.2) (env.now 1) := by
      cases u with
      | asWritten =>
        rw [bindResponse_asWritten] at hrow
        cases hrow
      | asNamed =>
        rw [bindResponse_asNamed] at hrow
        exact (Except.ok.inj hrow).symm
    refine (Follows.execute (hkey key) htrue fun w w' _ hq _ _ => ⟨?_, trivial⟩).bind fun _ =>
      Follows.readOnly htrue (loadResponse_readOnly _ _ _)
    obtain ⟨q, hmem, hid, hmax⟩ := hq
    rw [hrow']
    refine ⟨q, hmem, hid, fun p hp => ?_⟩
    rw [hmax]
    exact objectivePoints_cases hp

theorem handle_recording_follows (u : SaveUpsert) (call : QuizCall) :
    (recording ι marked).Follows i (fun _ _ => True) (handle u call) (fun _ => True) := by
  obtain ⟨env, user, request⟩ := call
  have hreply : ∀ {α : Type} {reply : α → QuizReply} {p : QuizProgram α},
      (recording ι marked).Follows i (fun _ _ => True) p (fun _ => True) →
      (recording ι marked).Follows i (fun _ _ => True) (replying reply p) (fun _ => True) :=
    fun hp => hp.bind fun _ => Follows.ret ((recording ι marked).stable_const i True)
      fun _ _ => trivial
  have hwrites : ∀ {α : Type} {p : QuizProgram α}, p.WritesOnly (fun l => ∀ db, Backed l db) →
      (recording ι marked).Follows i (fun _ _ => True) p (fun _ => True) :=
    fun hp => Follows.of_writesOnly (fun _ w hl => hl w.state) hp
  cases request with
  | get id => exact hreply (hwrites (getQuiz_readOnly user id).writesOnly)
  | create req => exact hreply (hwrites (createQuiz_writes env user req fun _ _ _ _ _ => trivial))
  | update id req =>
    exact hreply (hwrites (updateQuiz_writes env user id req fun _ _ _ _ _ _ => trivial))
  | archive id =>
    exact hreply (hwrites (archiveQuiz_writes env user id (fun _ _ _ => trivial)
      fun _ _ => trivial))
  | duplicate id =>
    exact hreply (hwrites (duplicateQuiz_writes env user id fun _ _ _ _ _ => trivial))
  | publish id => exact hreply (hwrites (publishQuiz_writes env user id fun _ _ _ _ _ _ => trivial))
  | deliver id req => exact hreply (deliverQuiz_follows i env user id req)
  | listDeliveries cid => exact hreply (hwrites (listDeliveries_readOnly user cid).writesOnly)
  | start id => exact hreply (hwrites (startAttempt_writes env user id fun _ _ => trivial))
  | getAttempt id => exact hreply (hwrites (loadAttempt_readOnly _ _ _ _).writesOnly)
  | listAttempts id => exact hreply (hwrites (listAttempts_readOnly env user id).writesOnly)
  | save id question answer => exact hreply (saveResponse_follows i env user id u question answer)
  | submit id =>
    exact hreply (hwrites (submitAttempt_writes env user id (fun _ _ _ => trivial)
      fun _ _ _ _ _ => trivial))
  | reopen id =>
    exact hreply (hwrites (reopenAttempt_writes env user id (fun _ _ _ _ => trivial)
      fun _ _ => trivial))
  | grade id question points feedback =>
    exact hreply (hwrites (gradeResponse_writes env user id question points feedback
      (fun _ _ _ _ _ _ => trivial) (fun _ _ _ _ _ => trivial) fun _ _ => trivial))
  | release id =>
    exact hreply (hwrites (releaseResults_writes env user id (fun _ _ _ => trivial)
      fun _ _ => trivial))

variable [DecidableEq ι]

theorem recorded_run (u : SaveUpsert) {db : Database} (hdb : Recorded db)
    (hmarks : marked → MarksApart db) {ms : List (Move ι QuizCall)}
    (hms : (Pool.idle db : QuizPool ι).Guarded (handle u) (fun _ => True)
      (fun _ l w => marked → GradesApart l w.state) ms) :
    Recorded ((Pool.idle db : QuizPool ι).run (handle u) ms).world.state ∧
      (marked → MarksApart ((Pool.idle db : QuizPool ι).run (handle u) ms).world.state) := by
  have hidle : (recording ι marked).inv ⟨db, []⟩ := ⟨hdb, hmarks⟩
  exact (running_run (fun i call _ => handle_recording_follows i u call) (running_idle hidle) hms).1

/-- In every state of every run the statistics of a delivery fit together if and only if its marks
are told apart; and they do in every state of a run that publishes no question worth less than the
tolerance and grades no answer near its maximum. -/
theorem statistics_consistent_iff (u : SaveUpsert) (db : Database) (hdb : Recorded db)
    (ms : List (Move ι QuizCall)) :
    let db' := ((Pool.idle db : QuizPool ι).run (handle u) ms).world.state
    (∀ d ∈ db'.quizDeliveries.rows, StatisticsConsistent db' d ↔
      ∀ q ∈ versionQuestions db' d.versionId, MarksTold db' d q) ∧
    (MarksApart db → (Pool.idle db : QuizPool ι).Guarded (handle u) (fun _ => True)
        (fun _ l w => GradesApart l w.state) ms →
      ∀ d ∈ db'.quizDeliveries.rows, StatisticsConsistent db' d) := by
  intro db'
  have hfree : (Pool.idle db : QuizPool ι).Guarded (handle u) (fun _ => True)
      (fun _ l w => False → GradesApart l w.state) ms :=
    Pool.guarded_of_forall (fun _ => trivial) (fun _ _ _ => False.elim) _ ms
  have hrecorded : Recorded db' := (recorded_run u hdb False.elim hfree).1
  have hiff := fun d hd => statisticsConsistent_iff (d := d) hrecorded hd
  refine ⟨hiff, fun hmarks hms d hd => (hiff d hd).mpr fun q hq => ?_⟩
  have hguarded : (Pool.idle db : QuizPool ι).Guarded (handle u) (fun _ => True)
      (fun _ l w => True → GradesApart l w.state) ms := by simpa using hms
  exact ((recorded_run u hdb (fun _ => hmarks) hguarded).2 trivial).told d hq

end Runs

section Samples

def inTurn (calls : List QuizCall) : List (Move Nat QuizCall) :=
  calls.zipIdx.flatMap fun (call, i) => .start i call :: List.replicate 25 (.advance i)

/-- A quiz with a question of less than the tolerance, which the student answers wrongly, and a
short answer that is graded within the tolerance below its maximum. -/
def nearCalls : List QuizCall :=
  [⟨sampleEnv 1, sampleTeacher, .create
      { classroomId := 3, title := "Primes", instructions := "", timeLimitMinutes := none
        questions := [{ id := none, kind := .trueFalse, prompt := "Is 7 prime?", options := []
                        canonicalAnswer := .bool true, maxPoints := 1/10000000, required := true },
                      { id := none, kind := .shortAnswer, prompt := "Why?", options := []
                        canonicalAnswer := .null, maxPoints := 1, required := true }] }⟩,
    ⟨sampleEnv 2, sampleTeacher, .publish 100⟩,
    ⟨sampleEnv 3, sampleTeacher, .deliver 100 ⟨.homework, none, none, none⟩⟩,
    ⟨sampleEnv 4, sampleStudent, .start 300⟩,
    ⟨sampleEnv 5, sampleStudent, .save 400 201 (.bool false)⟩,
    ⟨sampleEnv 6, sampleStudent, .save 400 202 (.str "no divisors")⟩,
    ⟨sampleEnv 7, sampleStudent, .submit 400⟩,
    ⟨sampleEnv 8, sampleTeacher, .grade 400 202 (9999999/10000000) "Nearly."⟩]

theorem noQuizzes_recorded {db : Database} (h : NoQuizzes db) : Recorded db := by
  obtain ⟨-, -, hd, ha, -⟩ := h
  refine ⟨?_, ?_⟩
  · simp [hd]
  · simp [ha]

theorem statistics_consistent_iff_sample :
    let db' := ((Pool.idle sampleClassroom : QuizPool Nat).run (handle .asNamed)
      (inTurn scoreCalls)).world.state
    (db'.quizDeliveries.rows.map fun d => d.id) = [300] ∧
      (db'.quizAttempts.rows.map fun a => a.score) = [some 3] ∧
      (∀ d ∈ db'.quizDeliveries.rows, StatisticsConsistent db' d ↔
        ∀ q ∈ versionQuestions db' d.versionId, MarksTold db' d q) ∧
      ∀ d ∈ db'.quizDeliveries.rows, StatisticsConsistent db' d := by
  have hmarks : MarksApart sampleClassroom := ⟨by decide, fun _ hr => by cases hr⟩
  have hguarded : (Pool.idle sampleClassroom : QuizPool Nat).Guarded (handle .asNamed)
      (fun _ => True) (fun _ l w => GradesApart l w.state) (inTurn scoreCalls) := by
    decide +kernel
  have hiff := statistics_consistent_iff .asNamed sampleClassroom
    (noQuizzes_recorded ⟨rfl, rfl, rfl, rfl, rfl⟩) (inTurn scoreCalls)
  exact ⟨by decide +kernel, by decide +kernel, hiff.1, hiff.2 hmarks hguarded⟩

/-- The wrong answer counts as correct, and the short answer both as correct and in part. -/
theorem near_marks_inconsistent :
    let db' := ((Pool.idle sampleClassroom : QuizPool Nat).run (handle .asNamed)
      (inTurn nearCalls)).world.state
    NoQuizzes sampleClassroom ∧
      ((calculateStatistics 300).exec db').1.toOption.map (fun s =>
        s.questions.map fun q => (q.correctPercent, q.partialPercent)) =
          some [(100, 0), (100, 100)] ∧
      ∃ d ∈ db'.quizDeliveries.rows, ¬StatisticsConsistent db' d := by
  intro db'
  refine ⟨⟨rfl, rfl, rfl, rfl, rfl⟩, by decide +kernel, ?_⟩
  have hzero : ∃ d ∈ db'.quizDeliveries.rows, ∃ q ∈ versionQuestions db' d.versionId,
      some 0 ∈ countedPoints db' d.id q ∧ isCorrect q.maxPoints (some 0) = true := by
    decide +kernel
  obtain ⟨d, hd, q, hq, hcounted, hcorrect⟩ := hzero
  refine ⟨d, hd, fun h => ?_⟩
  rw [h.zero q hq hcounted] at hcorrect
  cases hcorrect

end Samples

end Cinder.Quizzes
