import Cinder.Worksheets.PaperSpecs
set_option autoImplicit false

/-!
How papers of the time before specifications are read: a numbered line is a question, and the answer
is the line with its number among the answers.
-/

namespace Cinder.Worksheets
open Cinder.Streams Cinder.Ecma

section Lines

/-- `split(/\r?\n/)`. -/
def splitLines : List Char → List (List Char)
  | [] => [[]]
  | '\r' :: '\n' :: s => [] :: splitLines s
  | '\n' :: s => [] :: splitLines s
  | c :: s =>
    match splitLines s with
    | [] => [[c]]
    | line :: lines => (c :: line) :: lines

/-- `\d{1,3}`. -/
def numberGroup (n : ℕ) : Pattern := .group n (.oneUpTo 2 (·.isDigit))

/-- `(.+?)`. -/
def textGroup (n : ℕ) : Pattern :=
  .group n (.seq (.char Pattern.isAny) (.star false Pattern.isAny))

def blanks : Pattern := .star true isWhiteSpace

def bar : Pattern := .char (· = '|')

def tableLine : Pattern :=
  .whole (.seqs [blanks, .opt bar, blanks, numberGroup 1, blanks, bar, blanks, numberGroup 2,
    blanks, bar, blanks, textGroup 3, blanks, .opt bar, blanks])

def plainLine : Pattern :=
  .whole (.seqs [blanks, .opt (.seq (.literal "question".toList) blanks), numberGroup 1,
    .char (fun c => c = ')' || c = '.' || c = ':'), blanks, textGroup 2,
    .opt (.seqs [blanks, .char (· = '['), numberGroup 3, .char (· = ']')]), blanks])

def answerLine : Pattern :=
  .whole (.seqs [blanks, numberGroup 1,
    .char (fun c => c = ')' || c = '.' || c = ':' || c = '-' || c = '|'), blanks, textGroup 2,
    blanks])

def groupNumber (r : Reading) (n : ℕ) : ℕ := Nat.ofDigitChars 10 ((r.text? n).getD []) 0

/-- `/^marks|question$/i`, where the start belongs to one word and the end to the other. -/
def headerPattern : Pattern :=
  .alt (.seq .start (.word "marks".toList)) (.seq (.word "question".toList) .stop)

def unnumberedLine : Pattern :=
  .oneOf [.seqs [.start, .word "source".toList, .opt (.char (Pattern.isLetter 's')),
      .char (· = ':')],
    .seq .start (.word "subject:".toList), .seq .start (.word "student section".toList)]

end Lines

structure LegacyLine where
  number : ℕ
  marks : ℚ
  prompt : List Char

/-- The table form is tried first, and its marks are taken as they are. -/
def legacyLine (line : List Char) : Option LegacyLine :=
  match tableLine.exec line with
  | some r => some ⟨groupNumber r 1, groupNumber r 2, cleanText ((r.text? 3).getD [])⟩
  | none => (plainLine.exec line).map fun r =>
    ⟨groupNumber r 1, numeric ((r.text? 3).map .string) 1 1 100, cleanText ((r.text? 2).getD [])⟩

def legacyAnswers (answerText : List Char) : List (ℕ × List Char) :=
  (splitLines answerText).filterMap fun line => (answerLine.exec line).map fun r =>
    (groupNumber r 1, cleanText ((r.text? 2).getD []))

/-- The answer with a number, and the last one of several. -/
def legacyAnswer (answerText : List Char) (number : ℕ) : List Char :=
  (((legacyAnswers answerText).reverse.find? fun answer => answer.1 = number).map (·.2)).getD []

def legacyQuestion (answerText : List Char) (line : LegacyLine) (index : ℕ) : PaperQuestion where
  id := utf16 (safeId index)
  prompt := line.prompt
  marks := line.marks
  answer := legacyAnswer answerText line.number
  workingLines := defaultWorkingLines line.marks
  subparts := []
  diagram := none
  source := []
  scheme := some emptyScheme

def legacyQuestions (answerText : List Char) (lines : List LegacyLine) : List PaperQuestion :=
  lines.zipIdx.map fun p => legacyQuestion answerText p.1 p.2

def numberedLines (questionText : List Char) : List LegacyLine :=
  ((splitLines questionText).filterMap legacyLine).filter fun line => !line.prompt.isEmpty

/-- The whole text as one question, where no line is numbered. -/
def unnumberedPaper (questionText answerText : List Char) : GeneratedPaper :=
  let lines := (splitLines (cleanText questionText)).filter fun line =>
    !(strip isWhiteSpace line).isEmpty && !unnumberedLine.test line
  let cleaned := takeUnits 8000 ([' '].intercalate lines)
  { instructions := []
    questions := if cleaned = [] then [] else
      [{ id := utf16 (safeId 0)
         prompt := cleaned
         marks := 1
         answer := cleanText answerText
         workingLines := 3
         subparts := []
         diagram := none
         source := []
         scheme := some emptyScheme }] }

def legacyPaperToSpec (questionText answerText : List Char) : GeneratedPaper :=
  let questions := legacyQuestions answerText
    ((numberedLines questionText).filter fun line => !headerPattern.test line.prompt)
  if questions = [] then unnumberedPaper questionText answerText
  else { instructions := [], questions }

section Kept

def bareHeader : Pattern := .whole (.alt (.word "marks".toList) (.word "question".toList))

/-- Every numbered line that is no bare header is a question, with its prompt, its marks and the
answer with its number, in order. -/
def KeepsQuestions (questionText answerText : List Char) : Prop :=
  let lines := (numberedLines questionText).filter fun line => !bareHeader.test line.prompt
  lines ≠ [] → (legacyPaperToSpec questionText answerText).questions =
    legacyQuestions answerText lines

theorem header_of_bareHeader {s : List Char} (h : bareHeader.test s = true) :
    headerPattern.test s = true := by
  obtain ⟨r, hr⟩ := Option.isSome_iff_exists.mp h
  have hstart : ∃ r, r ∈ headerPattern.run ⟨[], s, []⟩ := by
    rcases Pattern.way_of_exec hr with hword | hword
    · refine ⟨⟨s.reverse, [], r.groups⟩, Pattern.mem_run_iff.mpr
        ⟨s, r.groups, (List.append_nil s).symm, (List.append_nil _).symm,
          (List.append_nil _).symm, .inl ⟨[], s, [], r.groups, rfl, ?_, ⟨rfl, rfl, rfl⟩, hword⟩⟩⟩
      exact (List.append_nil _).symm
    · refine ⟨⟨s.reverse, [], r.groups⟩, Pattern.mem_run_iff.mpr
        ⟨s, r.groups, (List.append_nil s).symm, (List.append_nil _).symm,
          (List.append_nil _).symm, .inr ⟨s, [], r.groups, [], ?_, rfl, hword, rfl, rfl, rfl⟩⟩⟩
      exact (List.append_nil s).symm
  obtain ⟨r', hr'⟩ := hstart
  have hhead : ((headerPattern.run ⟨[], s, []⟩).head?).isSome = true :=
    List.isSome_head?.mpr (List.ne_nil_of_mem hr')
  rw [Pattern.test, Pattern.exec]
  cases s with
  | nil => exact hhead
  | cons c s =>
    rw [Pattern.execFrom, Option.isSome_or, hhead]
    rfl

variable {answerText : List Char} {lines : List LegacyLine}

theorem length_legacyQuestions : (legacyQuestions answerText lines).length = lines.length := by
  rw [legacyQuestions, List.length_map, List.length_zipIdx]

theorem legacyQuestions_eq_nil_iff : legacyQuestions answerText lines = [] ↔ lines = [] := by
  rw [← List.length_eq_zero_iff, length_legacyQuestions, List.length_eq_zero_iff]

/-- The question that a text without numbered lines is made into has three working lines, and no
numbered line has. -/
theorem unnumberedPaper_ne (questionText : List Char) (hlines : lines ≠ []) :
    (unnumberedPaper questionText answerText).questions ≠ legacyQuestions answerText lines := by
  obtain ⟨line, rest, rfl⟩ := List.exists_cons_of_ne_nil hlines
  intro h
  have hhead := congrArg (fun l => l.head?.map (·.workingLines)) h
  have hthree : defaultWorkingLines line.marks ≠ 3 := by
    unfold defaultWorkingLines
    split
    · norm_num
    split <;> norm_num
  simp only [unnumberedPaper, legacyQuestions, List.zipIdx_cons, List.map_cons,
    List.head?_cons, Option.map_some, legacyQuestion] at hhead
  split at hhead
  · cases hhead
  · exact hthree (Option.some.inj hhead).symm

theorem filter_eq_self_of_length {α : Type} {p : α → Bool} {l : List α}
    (h : (l.filter p).length = l.length) : ∀ x ∈ l, p x = true := by
  have hsame := List.filter_sublist.eq_of_length h
  exact List.filter_eq_self.mp hsame

end Kept

/-- The numbered lines are kept if and only if none that is more than a header begins with `marks`
or ends with `question`. -/
theorem legacyPaperToSpec_keepsQuestions_iff (questionText answerText : List Char) :
    KeepsQuestions questionText answerText ↔ ∀ line ∈ numberedLines questionText,
      headerPattern.test line.prompt = true → bareHeader.test line.prompt = true := by
  have hkept : (numberedLines questionText).filter (fun line => !headerPattern.test line.prompt) =
      ((numberedLines questionText).filter fun line => !bareHeader.test line.prompt).filter
        fun line => !headerPattern.test line.prompt := by
    rw [List.filter_filter]
    refine List.filter_congr fun line _ => ?_
    cases hbare : bareHeader.test line.prompt with
    | false => simp
    | true => simp [header_of_bareHeader hbare]
  constructor
  · intro h line hline hheader
    by_contra hbare
    have hmem : line ∈ (numberedLines questionText).filter fun line =>
        !bareHeader.test line.prompt := List.mem_filter.mpr ⟨hline, by simpa using hbare⟩
    have hsame := h (List.ne_nil_of_mem hmem)
    simp only [legacyPaperToSpec] at hsame
    split at hsame
    · exact unnumberedPaper_ne questionText (List.ne_nil_of_mem hmem) hsame
    · have hlength := congrArg List.length hsame
      rw [length_legacyQuestions, length_legacyQuestions, hkept] at hlength
      have hno := filter_eq_self_of_length hlength line hmem
      rw [hheader] at hno
      cases hno
  · intro h hne
    have hall : (numberedLines questionText).filter (fun line =>
        !headerPattern.test line.prompt) =
          (numberedLines questionText).filter fun line => !bareHeader.test line.prompt := by
      rw [hkept]
      refine List.filter_eq_self.mpr fun line hline => ?_
      obtain ⟨hmem, hbare⟩ := List.mem_filter.mp hline
      cases hheader : headerPattern.test line.prompt with
      | false => rfl
      | true =>
        rw [h line hmem hheader] at hbare
        cases hbare
    rw [legacyPaperToSpec, hall, if_neg (mt legacyQuestions_eq_nil_iff.mp hne)]

/-- A question whose last word is `question` is taken for a header. -/
theorem question_taken_for_header :
    (legacyPaperToSpec "1. Answer the question\n2. Why?".toList []).questions =
        [legacyQuestion [] ⟨2, 1, "Why?".toList⟩ 0] ∧
      ¬ KeepsQuestions "1. Answer the question\n2. Why?".toList [] :=
  ⟨by decide +kernel, fun h => absurd (h (by decide +kernel)) (by decide +kernel)⟩

end Cinder.Worksheets
