import Cinder.Storage.OrderedEntries
import Cinder.Teacher.CellAddresses
import Mathlib.Algebra.Order.Floor.Ring
set_option autoImplicit false

/-!
What a prompt of the teacher asks of the gradebook, read without a model: an edit of one cell, or
the grades of one student. Numbers are exact rationals.
-/

namespace Cinder.Teacher
open Cinder.Streams Cinder.Ecma Cinder.Storage

structure Submission where
  /-- `grade?.points`. -/
  points : Option Decimal
  deriving DecidableEq, Repr

structure IntentInput where
  prompt : List Char
  roster : List User
  assignments : List Assignment
  workbook : Option GradebookAiContext
  submissionFor : String → String → Option Submission

inductive GradebookAction where
  | setGrade (studentId assignmentId : String) (points : ℚ)
  | updateAssignment (assignmentId : String) (title : List Char) (maxPoints : Decimal)
  | setCell (sheet : String) (cell : List Char) (value : CellValue)
  deriving DecidableEq

structure GradebookIntent where
  message : String
  actions : List GradebookAction
  deriving DecidableEq

section Scores

inductive Score where
  | fullMarks
  | percent (amount : Decimal)
  | points (amount : Decimal)
  deriving DecidableEq, Repr

/-- `Math.round`. -/
def mathRound (q : ℚ) : ℤ := ⌊q+1/2⌋

def Score.value (score : Score) (maxPoints : Decimal) : ℚ :=
  match score with
  | fullMarks => maxPoints.value
  | percent amount => mathRound (maxPoints.value*amount.value)/100
  | points amount => amount.value

def Score.interpretation (score : Score) : String :=
  match score with
  | fullMarks => "full marks"
  | percent amount => String.ofList amount.text ++ "%"
  | points amount => String.ofList amount.text ++ " points"

/-- `-?\d+(?:\.\d+)?`, as a group. -/
def amountPattern : Pattern := .group 1 (.seq (.opt (.char (· = '-'))) numberPattern)

/-- `(%|percent|points?|pts?)?`. -/
def unitPattern : Pattern :=
  .opt (.group 2 (.oneOf [.char (· = '%'), .word "percent".toList,
    .seq (.word "point".toList) (.opt (.char (Pattern.isLetter 's'))),
    .seq (.word "pt".toList) (.opt (.char (Pattern.isLetter 's')))]))

def blanks : Pattern := .star true isWhiteSpace

def someBlanks : Pattern := .plus isWhiteSpace

/-- `^(?:full\s+marks?|maximum|max)$`. -/
def fullMarksPattern : Pattern :=
  .whole (.oneOf [.seqs [.word "full".toList, someBlanks, .word "mark".toList,
    .opt (.char (Pattern.isLetter 's'))], .word "maximum".toList, .word "max".toList])

def gradePattern : Pattern := .whole (.seqs [amountPattern, blanks, unitPattern])

def pointsForGrade (rules : TextRules) (value : List Char) (assignment : Assignment) :
    Option Score :=
  let value := strip isWhiteSpace value
  if fullMarksPattern.test value then some .fullMarks
  else match gradePattern.exec value with
    | none => none
    | some r =>
      let amount := Decimal.read (groupText r 1)
      if amount.value < 0 then none
      else if r.text? 2 = some ['%'] ∨ (r.text? 2).map rules.lower = some "percent".toList then
        if 100 < amount.value then none else some (.percent amount)
      else if assignment.maxPoints.value < amount.value then none
      else some (.points amount)

end Scores

section Requests

structure GradeRequest where
  student : User
  assignment : Assignment
  score : Score
  deriving DecidableEq, Repr

def GradeRequest.action (r : GradeRequest) : GradebookAction :=
  .setGrade r.student.id r.assignment.id (r.score.value r.assignment.maxPoints)

structure Plan where
  message : String
  grades : List GradeRequest := []
  others : List GradebookAction := []
  deriving DecidableEq

def Plan.intent (plan : Plan) : GradebookIntent :=
  ⟨plan.message, plan.grades.map GradeRequest.action ++ plan.others⟩

end Requests

section CellEdits

structure CellEdit where
  cell : List Char
  rawValue : List Char
  deriving DecidableEq, Repr

/-- `.replace(/\s+/g, " ")`. -/
def joinBlanks (s : List Char) : List Char := blankRuns (fun c => !isWhiteSpace c) s

/-- `[a-z]{1,3}\s*\d{1,4}|\d{1,4}\s*[a-z]{1,3}`. -/
def looseAddress : Pattern :=
  let letters := Pattern.oneUpTo 2 (·.isAlpha)
  let digits := Pattern.oneUpTo 3 (·.isDigit)
  .alt (.seqs [letters, blanks, digits]) (.seqs [digits, blanks, letters])

def cellEditPattern : Pattern :=
  .seqs [.boundary,
    .oneOf [.word "change".toList, .word "edit".toList, .word "rename".toList, .word "set".toList,
      .word "update".toList, .word "make".toList, .word "put".toList], someBlanks,
    .opt (.seq (.word "the".toList) someBlanks), .opt (.seq (.word "cell".toList) someBlanks),
    .opt (.word "gradebook!".toList), .group 1 looseAddress, someBlanks,
    .oneOf [.seq (.word "to".toList) (.opt (.seq someBlanks (.word "be".toList))),
      .word "as".toList, .char (· = '=')], someBlanks,
    .group 2 (.seq (.char Pattern.isAny) (.star false Pattern.isAny)), blanks,
    .opt (.char fun c => c = '.' || c = '!'), .stop]

def isQuote (c : Char) : Bool := ['"', '\'', '“', '”', '‘', '’'].contains c

/-- `.replace(/^(?:["'“”‘’])|(?:["'“”‘’])$/g, "")`. -/
def dropQuotes (s : List Char) : List Char :=
  let s := if s.head?.any isQuote then s.tail else s
  if s.getLast?.any isQuote then s.dropLast else s

def parseCellEdit (rules : TextRules) (prompt : List Char) : Option CellEdit := do
  let r ← cellEditPattern.exec (joinBlanks (strip isWhiteSpace prompt))
  let cell ← normalizeCellAddress rules (groupText r 1)
  let rawValue := strip isWhiteSpace (dropQuotes (strip isWhiteSpace (groupText r 2)))
  if rawValue = [] then none else some ⟨cell, rawValue⟩

def parseWorkbookValue (value : List Char) : CellValue :=
  if (Pattern.whole (.oneOf [.word "blank".toList, .word "empty".toList,
    .word "null".toList])).test value then .null
  else if (Pattern.whole (.word "true".toList)).test value then .boolean true
  else if (Pattern.whole (.word "false".toList)).test value then .boolean false
  else if (Pattern.whole amountPattern).test value then .number (.read value)
  else .text value

variable (rules : TextRules) (input : IntentInput)

def headingTitle (title : List Char) (assignment : Assignment) : List Char :=
  if normalizeWords rules title = normalizeWords rules assignment.title then assignment.title
  else title

/-- A heading that is typed for an assignment. -/
def headerPlan (address : List Char) (assignment : Assignment) (rawValue : List Char) : Plan :=
  let parsed := parseAssignmentHeader rules (some (.text rawValue))
  let title := headingTitle rules parsed.title assignment
  let useHeading : Plan :=
    { message := "Use a heading such as “Story Writing / 20” for " ++ String.ofList address ++ "." }
  match parsed.maxPoints.getD (some assignment.maxPoints) with
  | none => useHeading
  | some maxPoints =>
    if title = [] ∨ maxPoints.value ≤ 0 ∨ 10000 < maxPoints.value then useHeading
    else if (input.roster.map fun student =>
        input.submissionFor student.id assignment.id).any (fun submission =>
          maxPoints.value < ((submission.bind (·.points)).map Decimal.value).getD 0) then
      { message := "I cannot reduce " ++ String.ofList assignment.title ++ " to " ++
          String.ofList maxPoints.text ++ " points because an existing grade is higher. " ++
          "Adjust that grade first." }
    else if title = assignment.title ∧ maxPoints = assignment.maxPoints then
      { message := String.ofList address ++ " already shows " ++ String.ofList assignment.title ++
          " / " ++ String.ofList assignment.maxPoints.text ++ "." }
    else
      { message := String.ofList address ++ " is the authoritative header for " ++
          String.ofList assignment.title ++ ". I will update the assignment itself so the " ++
          "change persists everywhere."
        others := [.updateAssignment assignment.id title maxPoints] }

/-- A score that is typed for a student. -/
def gradePlan (address : List Char) (assignment : Assignment) (student : User)
    (rawValue : List Char) : Plan :=
  let named := String.ofList student.displayName ++ "’s " ++ String.ofList assignment.title
  if input.submissionFor student.id assignment.id = none then
    { message := String.ofList address ++ " cannot be graded because " ++
        String.ofList student.displayName ++ " has not submitted " ++
        String.ofList assignment.title ++ "." }
  else match pointsForGrade rules rawValue assignment with
    | none =>
      { message := String.ofList address ++ " is " ++ named ++ " grade. Enter 0–" ++
          String.ofList assignment.maxPoints.text ++ ", a percentage, or “full marks”." }
    | some score =>
      { message := String.ofList address ++ " is " ++ named ++ " grade (" ++
          score.interpretation ++ ")."
        grades := [⟨student, assignment, score⟩] }

def cellEditPlan : Option Plan :=
  (parseCellEdit rules input.prompt).map fun edit =>
    match resolveGradebookCellTarget rules edit.cell input.roster input.assignments
        input.workbook with
    | none => { message := "I could not find cell " ++ String.ofList edit.cell ++ "." }
    | some (.identity address) =>
      { message := String.ofList address ++ " contains protected student identity data and " ++
          "cannot be edited from the Gradebook assistant." }
    | some (.assignmentHeader address assignment) =>
      headerPlan rules input address assignment edit.rawValue
    | some (.grade address assignment student) =>
      gradePlan rules input address assignment student edit.rawValue
    | some (.custom address) =>
      { message := String.ofList address ++ " is a local custom Gradebook cell."
        others := [.setCell "Gradebook" address (parseWorkbookValue edit.rawValue)] }

def resolveCellEdit : Option GradebookIntent := (cellEditPlan rules input).map Plan.intent

end CellEdits

section BulkGrades
variable (rules : TextRules)

/-- How `i` compares a character without `u`: by a single upper letter, of ASCII by ASCII only. -/
def canonicalChar (c : Char) : Char :=
  match rules.upper [c] with
  | [d] => if 0x10000 ≤ c.toNat ∨ (128 ≤ c.toNat ∧ d.toNat < 128) then c else d
  | _ => c

/-- `(?:^| )label(?: |$)` in any case. -/
def labelPattern (label : List Char) : Pattern :=
  .seqs [.alt .start (.char (· = ' ')),
    .seqs (label.map fun c => .char fun d => canonicalChar rules d = canonicalChar rules c),
    .alt (.char (· = ' ')) .stop]

/-- `length` of a string. -/
def utf16Length (s : List Char) : ℕ := (s.map fun c => if 0x10000 ≤ c.toNat then 2 else 1).sum

def findMentionedStudents (prompt : List Char) (roster : List User) : List User :=
  let normalizedPrompt := ' ' :: normalizeWords rules prompt ++ [' ']
  let found := (roster.flatMap fun student =>
      [student.displayName, student.username].map fun label =>
        (student, normalizeWords rules label)).filter (fun m =>
      m.2 ≠ [] && (labelPattern rules m.2).test normalizedPrompt) |>.mergeSort
    fun left right => utf16Length right.2 ≤ utf16Length left.2
  (Entries.ofList (found.map fun m => (m.1.id, m.1))).list.map (·.2)

/-- `\b(?:full\s+marks?|maximum|max)\b`. -/
def bulkFullMarks : Pattern :=
  .seqs [.boundary, .oneOf [.seqs [.literal "full".toList, someBlanks, .literal "mark".toList,
    .opt (.char (· = 's'))], .literal "maximum".toList, .literal "max".toList], .boundary]

/-- `\b(?:grades?|scores?|assignments?)\b`. -/
def bulkSubject : Pattern :=
  .seqs [.boundary, .oneOf [.literal "grade".toList, .literal "score".toList,
    .literal "assignment".toList], .opt (.char (· = 's')), .boundary]

/-- `\b(?:all|every|everything)\b`. -/
def bulkAll : Pattern :=
  .seqs [.boundary, .oneOf [.literal "all".toList, .literal "every".toList,
    .literal "everything".toList], .boundary]

/-- `\b(?:to(?:\s+be)?|at|with|as)\s+` and a score. -/
def namedScore : Pattern :=
  .seqs [.boundary, .oneOf [.seq (.word "to".toList) (.opt (.seq someBlanks (.word "be".toList))),
    .word "at".toList, .word "with".toList, .word "as".toList], someBlanks, amountPattern, blanks,
    unitPattern]

def lastScore : Pattern :=
  .seqs [amountPattern, blanks, unitPattern, blanks, .opt (.char fun c => c = '.' || c = '!'),
    .stop]

/-- `Math.min`. -/
def smallestMaximum (assignments : List Assignment) : Decimal :=
  match assignments.map (·.maxPoints) with
  | [] => .zero
  | d :: ds => ds.foldl (fun a b => if b.value < a.value then b else a) d

/-- What is said about the scores, before how many they are. -/
def bulkInterpretation (score : Score) (fullMarks : Bool) (amount : Option Decimal) : String :=
  match score with
  | .fullMarks => match fullMarks, amount with
    | false, some amount => "I interpreted “" ++ String.ofList amount.text ++
        " points for every grade” as 100% because these assignments have different maximums."
    | _, _ => "I interpreted the request as full marks on each assignment."
  | .percent amount => "I converted " ++ String.ofList amount.text ++
      "% to each assignment’s point scale."
  | .points amount => "I used " ++ String.ofList amount.text ++ " points for each assignment."

/-- The score for all the assignments, if it is in their range. -/
def bulkScore (fullMarks : Bool) (amount : Decimal) (percent : Bool)
    (submitted : List Assignment) : Except String Score :=
  let interpretedAsFullMarks := fullMarks ||
    (!percent && amount.value = 100 && submitted.any fun a => a.maxPoints.value < amount.value)
  if amount.value < 0 ∨ (percent = true ∧ 100 < amount.value) then
    .error "That score is outside the allowed range."
  else if interpretedAsFullMarks then .ok .fullMarks
  else if percent then .ok (.percent amount)
  else if submitted.any fun a => a.maxPoints.value < amount.value then
    .error ("That request would exceed an assignment maximum of " ++
      String.ofList (smallestMaximum submitted).text ++
      ". Use a percentage or say “full marks” instead.")
  else .ok (.points amount)

variable (input : IntentInput)

/-- The grades of one student. -/
def studentPlan (student : User) (fullMarks : Bool) (scoreMatch : Option Reading) : Plan :=
  let submitted := input.assignments.filter fun assignment =>
    (input.submissionFor student.id assignment.id).isSome
  let name := String.ofList student.displayName
  if submitted = [] then
    { message := name ++ " has no submitted assignments that can be graded." }
  else
    let read := scoreMatch.map fun r => Decimal.read (groupText r 1)
    let unit := ((scoreMatch.bind (·.text? 2)).map rules.lower).getD []
    let percent := unit = ['%'] || unit = "percent".toList
    match bulkScore fullMarks (read.getD (.normalize false 100 0)) percent submitted with
    | .error message => { message := message }
    | .ok score =>
      let skipped := input.assignments.length-submitted.length
      { message := bulkInterpretation score fullMarks read ++ " Prepared " ++
          toString submitted.length ++ " submitted grade(s) for " ++ name ++ "." ++
          if skipped = 0 then "" else " Skipped " ++ toString skipped ++
            " assignment(s) without a submission."
        grades := submitted.map fun assignment => ⟨student, assignment, score⟩ }

def bulkPlan : Option Plan :=
  let normalized := normalizeWords rules input.prompt
  let fullMarks := bulkFullMarks.test normalized
  if !bulkSubject.test normalized || (!bulkAll.test normalized && !fullMarks) then none
  else match findMentionedStudents rules input.prompt input.roster with
    | [] => some { message := "I recognized a request to change several grades, but I could " ++
        "not match the student name or username to this classroom." }
    | [student] =>
      let scoreMatch := (namedScore.exec input.prompt).or
        (lastScore.exec (strip isWhiteSpace input.prompt))
      if !fullMarks && scoreMatch.isNone then none
      else some (studentPlan rules input student fullMarks scoreMatch)
    | _ => some { message := "I recognized a bulk-grade request, but it mentions more than one " ++
        "student. Please make one reviewed request per student." }

def resolveBulkGrades : Option GradebookIntent := (bulkPlan rules input).map Plan.intent

def resolveGradebookIntent : Option GradebookIntent :=
  (resolveCellEdit rules input).or (resolveBulkGrades rules input)

def gradeRequests : List GradeRequest :=
  (((cellEditPlan rules input).or (bulkPlan rules input)).map (·.grades)).getD []

end BulkGrades

end Cinder.Teacher
