import Cinder.Teacher.GradebookIntents
import Cinder.Teacher.MappedCells
import Mathlib.Tactic.Linarith
import Mathlib.Tactic.Positivity
set_option autoImplicit false

namespace Cinder.Teacher
open Cinder.Streams Cinder.Ecma Cinder.Storage

section Scores

theorem mathRound_div_le_iff {m x : ℚ} : (mathRound x : ℚ)/100 ≤ m ↔ x < ⌊100*m⌋+1/2 := by
  have hscale : (mathRound x : ℚ)/100 ≤ m ↔ (mathRound x : ℚ) ≤ 100*m := by
    rw [div_le_iff₀ (by norm_num), mul_comm]
  rw [hscale, ← Int.le_floor, ← Int.lt_add_one_iff, mathRound, Int.floor_lt]
  push_cast
  constructor <;> intro h <;> linarith

theorem mathRound_nonneg {x : ℚ} (h : 0 ≤ x) : 0 ≤ mathRound x :=
  Int.floor_nonneg.mpr (by linarith)

def Score.Checked (score : Score) (maxPoints : Decimal) : Prop :=
  match score with
  | fullMarks => True
  | percent amount => 0 ≤ amount.value
  | points amount => 0 ≤ amount.value ∧ amount.value ≤ maxPoints.value

def Score.RoundsBelow (score : Score) (maxPoints : Decimal) : Prop :=
  ∀ amount, score = .percent amount →
    maxPoints.value*amount.value < ⌊100*maxPoints.value⌋+1/2

theorem Score.Checked.in_range_iff {score : Score} {maxPoints : Decimal}
    (h : score.Checked maxPoints) (hmax : 0 ≤ maxPoints.value) :
    (0 ≤ score.value maxPoints ∧ score.value maxPoints ≤ maxPoints.value) ↔
      score.RoundsBelow maxPoints := by
  cases score with
  | fullMarks => exact iff_of_true ⟨hmax, le_refl _⟩ fun amount heq => by cases heq
  | percent amount =>
    have hnonneg : 0 ≤ mathRound (maxPoints.value*amount.value) :=
      mathRound_nonneg (mul_nonneg hmax h)
    have hpoints : (0 : ℚ) ≤ mathRound (maxPoints.value*amount.value)/100 := by
      have hcast : (0 : ℚ) ≤ mathRound (maxPoints.value*amount.value) := by exact_mod_cast hnonneg
      positivity
    simp only [value, RoundsBelow, mathRound_div_le_iff, percent.injEq, forall_eq']
    exact and_iff_right hpoints
  | points amount => exact iff_of_true h fun amount heq => by cases heq

theorem pointsForGrade_checked {rules : TextRules} {value : List Char} {assignment : Assignment}
    {score : Score} (h : pointsForGrade rules value assignment = some score) :
    score.Checked assignment.maxPoints := by
  unfold pointsForGrade at h
  dsimp only at h
  split at h
  · rw [← Option.some.inj h]
    trivial
  · split at h
    · cases h
    · split at h
      · cases h
      · next hneg =>
        split at h
        · split at h
          · cases h
          · rw [← Option.some.inj h]
            exact not_lt.mp hneg
        · split at h
          · cases h
          · next hmax =>
            rw [← Option.some.inj h]
            exact ⟨not_lt.mp hneg, not_lt.mp hmax⟩

theorem bulkScore_checked {fullMarks percent : Bool} {amount : Decimal}
    {submitted : List Assignment} {score : Score}
    (h : bulkScore fullMarks amount percent submitted = .ok score) :
    ∀ a ∈ submitted, score.Checked a.maxPoints := by
  intro a ha
  unfold bulkScore at h
  dsimp only at h
  split at h
  · cases h
  · next hrange =>
    rw [not_or] at hrange
    split at h
    · rw [← Except.ok.inj h]
      trivial
    · split at h
      · rw [← Except.ok.inj h]
        exact not_lt.mp hrange.1
      · split at h
        · cases h
        · next hmax =>
          rw [← Except.ok.inj h]
          refine ⟨not_lt.mp hrange.1, not_lt.mp fun hlt => hmax ?_⟩
          exact List.any_eq_true.mpr ⟨a, ha, decide_eq_true hlt⟩

end Scores

section Requests
variable {rules : TextRules} {input : IntentInput}

/-- The student and the assignment are there, with a submission, and the score was checked. -/
structure GradeRequest.Valid (input : IntentInput) (r : GradeRequest) : Prop where
  student : r.student ∈ input.roster
  assignment : r.assignment ∈ input.assignments
  submitted : (input.submissionFor r.student.id r.assignment.id).isSome = true
  checked : r.score.Checked r.assignment.maxPoints

/-- Every grade of a plan is valid, and its other actions are none. -/
structure Plan.Valid (input : IntentInput) (plan : Plan) : Prop where
  grades : ∀ r ∈ plan.grades, r.Valid input
  others : ∀ studentId assignmentId points,
    GradebookAction.setGrade studentId assignmentId points ∉ plan.others

theorem Plan.valid_of_message (message : String) : Plan.Valid input { message := message } :=
  ⟨List.forall_mem_nil _, fun _ _ _ => List.not_mem_nil⟩

theorem columnAssignment_mem {values : List (List CellValue)} {column : ℕ}
    {assignment : Assignment} {assignments : List Assignment}
    (h : columnAssignment rules assignments values column = some assignment) :
    assignment ∈ assignments := by
  unfold columnAssignment at h
  dsimp only at h
  split at h
  · next a ha =>
    rw [← Option.some.inj h]
    exact mem_of_assignmentForHeader ha
  · split at h
    · exact List.mem_of_getElem? h
    · cases h

theorem rowStudent_mem {roster : List User} {values : List (List CellValue)} {row : ℕ}
    {student : User} (h : rowStudent rules roster values row = some student) :
    student ∈ roster := by
  rcases Option.or_eq_some_iff.mp h with hfind | ⟨-, hplace⟩
  · exact List.mem_of_find?_eq_some hfind
  · exact List.mem_of_getElem? hplace

theorem resolve_grade_mem {cell target : List Char} {assignment : Assignment} {student : User}
    (h : resolveGradebookCellTarget rules cell input.roster input.assignments input.workbook =
      some (.grade target assignment student)) :
    assignment ∈ input.assignments ∧ student ∈ input.roster := by
  obtain ⟨location, hparse, -⟩ := Option.map_eq_some_iff.mp h
  obtain ⟨-, -, -, hassignment, hstudent⟩ := (resolve_eq_grade_iff hparse).mp h
  exact ⟨columnAssignment_mem hassignment, rowStudent_mem hstudent⟩

theorem headerPlan_valid (address : List Char) (assignment : Assignment) (rawValue : List Char) :
    (headerPlan rules input address assignment rawValue).Valid input := by
  unfold headerPlan
  dsimp only
  split
  · exact Plan.valid_of_message _
  · split
    · exact Plan.valid_of_message _
    · split
      · exact Plan.valid_of_message _
      · split
        · exact Plan.valid_of_message _
        · exact ⟨List.forall_mem_nil _, fun _ _ _ h => by cases List.mem_singleton.mp h⟩

theorem gradePlan_valid {address : List Char} {assignment : Assignment} {student : User}
    {rawValue : List Char} (hassignment : assignment ∈ input.assignments)
    (hstudent : student ∈ input.roster) :
    (gradePlan rules input address assignment student rawValue).Valid input := by
  unfold gradePlan
  dsimp only
  split
  · exact Plan.valid_of_message _
  · next hsubmitted =>
    split
    · exact Plan.valid_of_message _
    · next score hscore =>
      refine ⟨List.forall_mem_singleton.mpr ⟨hstudent, hassignment, ?_,
        pointsForGrade_checked hscore⟩, fun _ _ _ => List.not_mem_nil⟩
      exact Option.isSome_iff_ne_none.mpr hsubmitted

theorem cellEditPlan_valid {plan : Plan} (h : cellEditPlan rules input = some plan) :
    plan.Valid input := by
  obtain ⟨edit, -, rfl⟩ := Option.map_eq_some_iff.mp h
  split
  · exact Plan.valid_of_message _
  · exact Plan.valid_of_message _
  · exact headerPlan_valid _ _ _
  · next htarget =>
    obtain ⟨hassignment, hstudent⟩ := resolve_grade_mem htarget
    exact gradePlan_valid hassignment hstudent
  · exact ⟨List.forall_mem_nil _, fun _ _ _ h => by cases List.mem_singleton.mp h⟩

theorem findMentionedStudents_mem {prompt : List Char} {roster : List User} {student : User}
    (h : student ∈ findMentionedStudents rules prompt roster) : student ∈ roster := by
  obtain ⟨e, he, rfl⟩ := List.mem_map.mp h
  obtain ⟨m, hm, rfl⟩ := List.mem_map.mp (Entries.mem_of_mem_ofList he)
  rw [List.mem_mergeSort, List.mem_filter] at hm
  obtain ⟨student, hstudent, hlabel⟩ := List.mem_flatMap.mp hm.1
  obtain ⟨label, -, rfl⟩ := List.mem_map.mp hlabel
  exact hstudent

theorem studentPlan_valid {student : User} (hstudent : student ∈ input.roster) (fullMarks : Bool)
    (scoreMatch : Option Reading) :
    (studentPlan rules input student fullMarks scoreMatch).Valid input := by
  unfold studentPlan
  dsimp only
  split
  · exact Plan.valid_of_message _
  · split
    · exact Plan.valid_of_message _
    · next score hscore =>
      refine ⟨?_, fun _ _ _ => List.not_mem_nil⟩
      intro r hr
      obtain ⟨assignment, hassignment, rfl⟩ := List.mem_map.mp hr
      obtain ⟨hmem, hsubmitted⟩ := List.mem_filter.mp hassignment
      exact ⟨hstudent, hmem, hsubmitted, bulkScore_checked hscore assignment hassignment⟩

theorem bulkPlan_valid {plan : Plan} (h : bulkPlan rules input = some plan) :
    plan.Valid input := by
  unfold bulkPlan at h
  dsimp only at h
  split at h
  · cases h
  · split at h
    · rw [← Option.some.inj h]
      exact Plan.valid_of_message _
    · next student hmentioned =>
      have hstudent : student ∈ input.roster :=
        findMentionedStudents_mem (hmentioned ▸ List.mem_singleton_self student)
      split at h
      · cases h
      · rw [← Option.some.inj h]
        exact studentPlan_valid hstudent _ _
    · rw [← Option.some.inj h]
      exact Plan.valid_of_message _

/-- A grade of a student and an assignment that are there, with a submission, in its range. -/
def InRange (input : IntentInput) (studentId assignmentId : String) (points : ℚ) : Prop :=
  (∃ student ∈ input.roster, student.id = studentId) ∧
  (∃ assignment ∈ input.assignments, assignment.id = assignmentId ∧
    points ≤ assignment.maxPoints.value) ∧
  (input.submissionFor studentId assignmentId).isSome = true ∧ 0 ≤ points

/-- Every grade that the assistant asks for is in range. -/
def GradesInRange (rules : TextRules) (input : IntentInput) : Prop :=
  ∀ intent, resolveGradebookIntent rules input = some intent →
    ∀ studentId assignmentId points,
      .setGrade studentId assignmentId points ∈ intent.actions →
        InRange input studentId assignmentId points

theorem resolveGradebookIntent_eq :
    resolveGradebookIntent rules input =
      ((cellEditPlan rules input).or (bulkPlan rules input)).map Plan.intent := by
  rw [resolveGradebookIntent, resolveCellEdit, resolveBulkGrades]
  cases cellEditPlan rules input <;> rfl

theorem GradeRequest.Valid.in_range_iff {r : GradeRequest} (h : r.Valid input)
    (hids : (input.assignments.map (·.id)).Nodup) (hmax : 0 ≤ r.assignment.maxPoints.value) :
    InRange input r.student.id r.assignment.id (r.score.value r.assignment.maxPoints) ↔
      r.score.RoundsBelow r.assignment.maxPoints := by
  rw [← h.checked.in_range_iff hmax]
  constructor
  · rintro ⟨-, ⟨assignment, hmem, hid, hle⟩, -, hnonneg⟩
    rw [List.inj_on_of_nodup_map hids hmem h.assignment hid] at hle
    exact ⟨hnonneg, hle⟩
  · rintro ⟨hnonneg, hle⟩
    exact ⟨⟨_, h.student, rfl⟩, ⟨_, h.assignment, rfl, hle⟩, h.submitted, hnonneg⟩

theorem value_nonneg {d : Decimal} (h : d.neg = false) : 0 ≤ d.value := by
  rw [Decimal.value, h]
  simp only [Bool.false_eq_true, if_false]
  positivity

/-- The assistant's grades are in range just if no percentage that is asked for is rounded above
the maximum of its assignment. -/
theorem grades_in_range_iff (haccepted : AcceptedAssignments rules input.assignments) :
    GradesInRange rules input ↔
      ∀ r ∈ gradeRequests rules input, r.score.RoundsBelow r.assignment.maxPoints := by
  have hvalid : ∀ plan, (cellEditPlan rules input).or (bulkPlan rules input) = some plan →
      plan.Valid input := by
    intro plan hplan
    rcases Option.or_eq_some_iff.mp hplan with h | ⟨-, h⟩
    · exact cellEditPlan_valid h
    · exact bulkPlan_valid h
  have hrange : ∀ r : GradeRequest, r.Valid input → (InRange input r.student.id r.assignment.id
      (r.score.value r.assignment.maxPoints) ↔ r.score.RoundsBelow r.assignment.maxPoints) :=
    fun r hr => hr.in_range_iff haccepted.ids (value_nonneg (haccepted.nonneg _ hr.assignment))
  rw [GradesInRange, resolveGradebookIntent_eq, gradeRequests]
  cases hplan : (cellEditPlan rules input).or (bulkPlan rules input) with
  | none => simp
  | some plan =>
    have hplan := hvalid plan hplan
    simp only [Option.map_some, Option.some.injEq, forall_eq', Option.getD_some, Plan.intent]
    constructor
    · intro h r hr
      exact (hrange r (hplan.grades r hr)).mp
        (h _ _ _ (List.mem_append_left _ (List.mem_map_of_mem hr)))
    · intro h studentId assignmentId points hmem
      rcases List.mem_append.mp hmem with hmem | hmem
      · obtain ⟨r, hr, heq⟩ := List.mem_map.mp hmem
        obtain ⟨rfl, rfl, rfl⟩ := GradebookAction.setGrade.inj heq
        exact (hrange r (hplan.grades r hr)).mpr (h r hr)
      · exact absurd hmem (hplan.others _ _ _)

end Requests

section Samples

def smallAssignment : Assignment := ⟨"a1", "Quiz".toList, .normalize false 6 (-3)⟩

def smallInput (prompt : String) : IntentInput :=
  ⟨prompt.toList, sampleRoster, [smallAssignment], none, fun _ _ => some ⟨none⟩⟩

theorem smallAssignment_accepted : AcceptedAssignments asciiRules [smallAssignment] where
  ids := by decide
  titles := by decide
  nonneg := by decide
  doubles := fun _ _ => rfl

def smallRequest (amount : ℕ) (exponent : ℤ) : GradeRequest :=
  ⟨⟨"s1", "thomas".toList, "Thomas".toList⟩, smallAssignment,
    .percent (.normalize false amount exponent)⟩

theorem grades_in_range_iff_sample :
    GradesInRange asciiRules (smallInput "set C2 to 50%") := by
  have hrequests : gradeRequests asciiRules (smallInput "set C2 to 50%") = [smallRequest 5 1] := by
    decide +kernel
  refine (grades_in_range_iff smallAssignment_accepted).mpr ?_
  rw [hrequests, List.forall_mem_singleton]
  rintro amount ⟨⟩
  decide +kernel

/-- All of six thousandths is rounded to one hundredth. -/
theorem percentage_above_maximum :
    ¬∀ (rules : TextRules) (input : IntentInput),
      AcceptedAssignments rules input.assignments → GradesInRange rules input := by
  intro h
  have hintent : resolveGradebookIntent asciiRules (smallInput "set C2 to 100%") =
      some ⟨"C2 is Thomas’s Quiz grade (100%).", [.setGrade "s1" "a1" (1/100)]⟩ := by
    decide +kernel
  obtain ⟨-, ⟨assignment, hmem, -, hle⟩, -⟩ := h asciiRules (smallInput "set C2 to 100%")
    smallAssignment_accepted _ hintent _ _ _ List.mem_cons_self
  obtain rfl := List.mem_singleton.mp hmem
  revert hle
  decide +kernel

end Samples

end Cinder.Teacher
