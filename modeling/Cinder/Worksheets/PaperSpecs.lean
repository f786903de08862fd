import Cinder.Ecma.JsonValues
import Cinder.Ecma.TextEdits
set_option autoImplicit false

/-!
The specification of a printed paper, and how a model's answer is brought into its form: texts are
cleaned and cut, numbers are rounded and bounded, and what has no prompt is left out.
-/

namespace Cinder.Worksheets
open Cinder.Streams Cinder.Ecma

structure PaperDiagram where
  imageDataUrl : List Char
  caption : List Char
  alt : List Char
  deriving DecidableEq

structure PaperMarkingPoint where
  text : List Char
  marks : ℚ
  deriving DecidableEq

structure PaperScheme where
  markingPoints : List PaperMarkingPoint
  acceptedAlternatives : List (List Char)
  guidance : List Char
  deriving DecidableEq

structure PaperSubpart where
  label : List Char
  prompt : List Char
  marks : ℚ
  answer : List Char
  workingLines : ℚ
  scheme : Option PaperScheme
  deriving DecidableEq

/-- Papers saved before there were marking schemes have none. -/
structure PaperQuestion where
  id : List ℕ
  prompt : List Char
  marks : ℚ
  answer : List Char
  workingLines : ℚ
  subparts : List PaperSubpart
  diagram : Option PaperDiagram
  source : List Char
  scheme : Option PaperScheme
  deriving DecidableEq

structure GeneratedPaper where
  instructions : List (List Char)
  questions : List PaperQuestion
  deriving DecidableEq

section Cleaning

def controlTag : Pattern :=
  .seqs [.char (· = '['),
    .oneOf [.word "cinder_questions".toList, .word "cinder_answer_key".toList,
      .word "working_space".toList],
    .char (· = ']')]

def fence : Pattern := .literal "\x60\x60\x60".toList

def openingFence : Pattern :=
  .seqs [.start, fence,
    .opt (.oneOf [.word "json".toList, .word "text".toList, .word "markdown".toList,
      .word "md".toList]),
    .star true isWhiteSpace]

def closingFence : Pattern := .seqs [.star true isWhiteSpace, fence, .stop]

def headingMark : Pattern := .seq (.oneUpTo 5 (· = '#')) (.plus isWhiteSpace)

/-- What `cleanModelText` makes of a text. -/
def cleanText (value : List Char) : List Char :=
  let s := replaceAll controlTag (fun _ => []) value
  let s := replaceFirst openingFence (fun _ => []) s
  let s := replaceFirst closingFence (fun _ => []) s
  let s := replaceAtLines headingMark (fun _ => []) s
  let s := replaceAll (.literal ['*', '*']) (fun _ => []) s
  let s := replaceAll (.seq (.char (· = '_')) (.plus (· = '_'))) (fun _ => []) s
  let s := replaceAll (.literal ['\r', '\n']) (fun _ => ['\n']) s
  strip isWhiteSpace s

def isMark (c : Char) : Bool := ['[', '\x60', '#', '*', '_', '\r'].contains c

theorem cleanText_plain {s : List Char} (h : ∀ c ∈ s, isMark c = false) :
    cleanText s = strip isWhiteSpace s := by
  have hchar (d : Char) (hd : isMark d = true) : Needs isMark (.char (· = d)) :=
    needs_char fun c hc => by rwa [decide_eq_true_eq.mp hc]
  have hfence : Needs isMark fence := (hchar '\x60' (by decide)).seq_left _
  have htag : Needs isMark controlTag := (hchar '[' (by decide)).seq_left _
  have hopening : Needs isMark openingFence := (hfence.seq_left _).seq_right _
  have hclosing : Needs isMark closingFence := (hfence.seq_left _).seq_right _
  have hheading : Needs isMark headingMark := ((hchar '#' (by decide)).seq_left _).seq_left _
  have hstars : Needs isMark (.literal ['*', '*']) := (hchar '*' (by decide)).seq_left _
  have hlines : Needs isMark (.seq (.char (· = '_')) (.plus (· = '_'))) :=
    (hchar '_' (by decide)).seq_left _
  have hbreak : Needs isMark (.literal ['\r', '\n']) := (hchar '\r' (by decide)).seq_left _
  simp only [cleanText, replaceAll, replaceAtLines, replaceFirst]
  rw [replaceFrom_eq_self htag h, replaceFirstFrom_eq_self hopening h,
    replaceFirstFrom_eq_self hclosing h, replaceFrom_eq_self hheading h,
    replaceFrom_eq_self hstars h, replaceFrom_eq_self hlines h, replaceFrom_eq_self hbreak h]

def cleanModelText (value : Option Json) (fallback : List Char) : List Char :=
  match value with
  | some (.string s) => cleanText s
  | _ => fallback

end Cleaning

section Numbers

mutual

/-- `Number` of an array's only element, which is written as a text first. -/
def elementNumber : Json → Option ℚ
  | .null => some 0
  | .number d => some d.value
  | .string s => number s
  | .array items => itemsNumber items
  | _ => none

def itemsNumber : List Json → Option ℚ
  | [] => some 0
  | item :: items => if items.isEmpty then elementNumber item else none

end

/-- `Number`, as the finite value it comes to. -/
def numberOf : Json → Option ℚ
  | .null => some 0
  | .boolean b => some (if b then 1 else 0)
  | .number d => some d.value
  | .string s => number s
  | .array items => itemsNumber items
  | .object _ => none

/-- `Math.round`. -/
def roundHalfUp (q : ℚ) : ℤ := ⌊q+1/2⌋

def numeric (value : Option Json) (fallback minimum maximum : ℚ) : ℚ :=
  match value.bind numberOf with
  | none => fallback
  | some parsed => max minimum (min maximum (roundHalfUp parsed))

end Numbers

section Fields

/-- A field of a value. Only an object has fields of the names that are read here. -/
def field (value : Json) (key : String) : Option Json :=
  match value with
  | .object members => (members.find? fun m => m.1 = key.toList).map (·.2)
  | _ => none

/-- `??`. -/
def orElse (a b : Option Json) : Option Json :=
  match a with
  | none | some .null => b
  | some v => some v

def isObject : Json → Bool
  | .array _ | .object _ => true
  | _ => false

def items? : Option Json → Option (List Json)
  | some (.array items) => some items
  | _ => none

end Fields

section Papers

def safeId (index : ℕ) : List Char := "question-".toList ++ Nat.toDigits 10 (index+1)

def sanitizeDiagramImageDataUrl (value : Option Json) : List Char :=
  match value with
  | some (.string s) =>
    let dataUrl := strip isWhiteSpace s
    let isImage : Pattern := .seqs [.word "data:image/".toList,
      .oneOf [.word "png".toList, .word "jpeg".toList], .word ";base64,".toList,
      .plus fun c => c.isAlphanum || c = '+' || c = '/', .upTo 2 (· = '=')]
    if 7000000 < (s.map unitCount).sum then []
    else if isImage.whole.test dataUrl then dataUrl
    else []
  | _ => []

def emptyScheme : PaperScheme := ⟨[], [], []⟩

def markingPoint (availableMarks : ℚ) (item : Json) : Option PaperMarkingPoint :=
  match item with
  | .string s =>
    let text := takeUnits 600 (cleanText s)
    if text = [] then none else some ⟨text, 1⟩
  | item =>
    let text := takeUnits 600 (cleanModelText (orElse (field item "text") (field item "point")) [])
    if !isObject item || text.isEmpty then none
    else some ⟨text, numeric (field item "marks") 1 0 (max 1 availableMarks)⟩

def normalizeScheme (value : Option Json) (availableMarks : ℚ) : PaperScheme :=
  match value.filter isObject with
  | none => emptyScheme
  | some candidate =>
    let rawPoints :=
      items? (orElse (field candidate "marking_points") (field candidate "markingPoints"))
    let rawAlternatives :=
      items? (orElse (field candidate "accepted_alternatives")
        (field candidate "acceptedAlternatives"))
    let notes := orElse (field candidate "guidance") (field candidate "notes")
    { markingPoints := ((rawPoints.getD []).take 20).filterMap (markingPoint availableMarks)
      acceptedAlternatives := (((rawAlternatives.getD []).map fun item =>
        takeUnits 400 (cleanModelText (some item) [])).filter fun s => !s.isEmpty).take 20
      guidance := takeUnits 2000 (cleanModelText notes []) }

def schemeField (candidate : Json) : Option Json :=
  orElse (orElse (field candidate "scheme") (field candidate "marking_scheme"))
    (field candidate "markingScheme")

def promptOf (item : Json) : List Char :=
  cleanModelText (orElse (field item "prompt") (field item "question")) []

def workingLinesField (item : Json) : Option Json :=
  orElse (field item "working_lines") (field item "workingLines")

def normalizeSubpart (item : Json) (index : ℕ) : Option PaperSubpart :=
  let prompt := takeUnits 4000 (promptOf item)
  let marks := numeric (field item "marks") 1 1 50
  if !isObject item || prompt.isEmpty then none
  else some
    { label := takeUnits 5 (cleanModelText (field item "label") [Char.ofNat (97+index)])
      prompt
      marks
      answer := takeUnits 8000 (cleanModelText (field item "answer") [])
      workingLines := numeric (workingLinesField item) 3 0 12
      scheme := some (normalizeScheme (schemeField item) marks) }

def normalizeSubparts (value : Option Json) : List PaperSubpart :=
  (((items? value).getD []).take 12).zipIdx.filterMap fun p => normalizeSubpart p.1 p.2

def normalizeDiagram (value : Option Json) : Option PaperDiagram :=
  match value.filter isObject with
  | none => none
  | some candidate =>
    let imageDataUrl := sanitizeDiagramImageDataUrl
      (orElse (field candidate "imageDataUrl") (field candidate "image_data_url"))
    if imageDataUrl = [] then none
    else some
      { imageDataUrl
        caption := takeUnits 240 (cleanModelText (field candidate "caption") [])
        alt := takeUnits 240 (cleanModelText (field candidate "alt") "Question diagram".toList) }

def defaultWorkingLines (marks : ℚ) : ℚ := if 5 ≤ marks then 6 else if 3 ≤ marks then 4 else 2

/-- An id in UTF-16 units, which may end in half of a character. -/
def questionId (item : Json) (index : ℕ) : List ℕ :=
  let id := (utf16 (cleanModelText (field item "id") (safeId index))).take 80
  if id = [] then utf16 (safeId index) else id

def normalizeQuestion (item : Json) (index : ℕ) : Option PaperQuestion :=
  let prompt := takeUnits 8000 (promptOf item)
  let subparts := normalizeSubparts (orElse (field item "subparts") (field item "parts"))
  let marks := if subparts = [] then numeric (field item "marks") 1 1 100
    else (subparts.map (·.marks)).sum
  if !isObject item || prompt.isEmpty then none
  else some
    { id := questionId item index
      prompt
      marks
      answer := takeUnits 12000 (cleanModelText (field item "answer") [])
      workingLines := numeric (workingLinesField item) (defaultWorkingLines marks) 0 14
      subparts
      diagram := normalizeDiagram (field item "diagram")
      source := takeUnits 300 (cleanModelText (field item "source") [])
      scheme := some (normalizeScheme (schemeField item) marks) }

/-- A bare array is taken for the questions. -/
def paperRoot (value : Json) : Json :=
  match value with
  | .array items => .object [("questions".toList, .array items)]
  | value => value

/-- The object that has the questions, which another may wrap. -/
def paperCandidate (root : Json) : Json :=
  match orElse (orElse (orElse (field root "paper") (field root "question_paper"))
    (field root "questionPaper")) (field root "data") with
  | some (.object members) => .object members
  | _ => root

def normalizeQuestions (items : List Json) : List PaperQuestion :=
  (items.take 50).zipIdx.filterMap fun p => normalizeQuestion p.1 p.2

def normalizeInstructions (value : Option Json) : List (List Char) :=
  ((((items? value).getD []).map fun item =>
    takeUnits 1000 (cleanModelText (some item) [])).filter fun s => !s.isEmpty).take 12

def normalizeGeneratedPaper (value : Json) : Except String GeneratedPaper :=
  let root := paperRoot value
  let candidate := paperCandidate root
  if !isObject root then .error "The AI response did not contain a paper specification."
  else match items? (field candidate "questions") with
    | none => .error "The AI response did not contain a questions list."
    | some items =>
      let questions := normalizeQuestions items
      if questions = [] then .error "The AI response did not contain usable questions."
      else .ok ⟨normalizeInstructions (field candidate "instructions"), questions⟩

end Papers

end Cinder.Worksheets
