import Cinder.Worksheets.PaperSpecs
import Cinder.Worksheets.WrappedLines
set_option autoImplicit false

/-!
The text and the pages that a paper is exported to. A document is the list of what is drawn on its
pages; the place on the page where the next text stands goes down from the top margin.
-/

namespace Cinder.Worksheets
open Cinder.Streams Cinder.Ecma

inductive ExamBoard where
  | cie
  | igcse
  | cbse
  | icse
  deriving DecidableEq

structure PaperSourceCitation where
  name : List Char
  pages : List ℕ
  deriving DecidableEq

structure PaperMetadata where
  title : List Char
  subject : List Char
  board : ExamBoard
  syllabusCode : List Char
  year : List Char
  session : List Char
  paperVariant : List Char
  durationMinutes : ℚ
  sources : List PaperSourceCitation
  headerText : Option (List Char)
  footerText : Option (List Char)
  repeatHeader : Bool
  repeatFooter : Bool

section Texts

def boardName : ExamBoard → List Char
  | .cie => "Cambridge International AS & A Level (CIE)".toList
  | .igcse => "Cambridge IGCSE".toList
  | .cbse => "CBSE".toList
  | .icse => "CISCE / ICSE".toList

/-- `page === end + 1`, where the sum is rounded. -/
def followsDouble (stop page : ℕ) : Bool := roundDouble ((stop : ℚ)+1) = some (page : ℚ)

/-- The ranges of sorted pages, of which the first range is open. -/
def openRanges (follows : ℕ → ℕ → Bool) (start stop : ℕ) : List ℕ → List (ℕ × ℕ)
  | [] => [(start, stop)]
  | page :: pages =>
    if follows stop page then openRanges follows start page pages
    else (start, stop) :: openRanges follows page page pages

section Citations
variable (numberText : ℕ → List Char)

def rangeText (r : ℕ × ℕ) : List Char :=
  if r.1 = r.2 then numberText r.1 else numberText r.1 ++ '-' :: numberText r.2

def pagesMark (rest : List ℕ) : List Char := if rest = [] then "p.".toList else "pp.".toList

def compactPageRanges (pages : List ℕ) : List Char :=
  match pages.eraseDups.mergeSort with
  | [] => []
  | page :: rest => pagesMark rest ++ ' ' ::
    ", ".toList.intercalate ((openRanges followsDouble page page rest).map (rangeText numberText))

end Citations

def labelled (word : String) (s : List Char) : List Char :=
  if s = [] then [] else word.toList ++ s

def boardDetails (metadata : PaperMetadata) : List Char :=
  " | ".toList.intercalate ([boardName metadata.board, labelled "Syllabus " metadata.syllabusCode,
    metadata.year, metadata.session, labelled "Paper " metadata.paperVariant].filter fun s =>
      !s.isEmpty)

variable (numberText : ℚ → List Char)

def sourceSummary (sources : List PaperSourceCitation) : List Char :=
  "; ".toList.intercalate (sources.map fun source =>
    let pages := compactPageRanges (fun page => numberText page) source.pages
    if pages = [] then source.name else source.name ++ " (".toList ++ pages ++ [')'])

def marksText (marks : ℚ) : List Char := '[' :: numberText marks ++ [']']

def timeText (metadata : PaperMetadata) : List Char :=
  "Time allowed: ".toList ++ numberText metadata.durationMinutes ++ " minutes".toList

def sourcesText (metadata : PaperMetadata) : List Char :=
  "Sources: ".toList ++ sourceSummary numberText metadata.sources

def metadataLines (metadata : PaperMetadata) : List (List Char) :=
  let title := strip isWhiteSpace metadata.title
  [if title = [] then "Question paper".toList else title,
    strip isWhiteSpace metadata.subject,
    boardDetails metadata,
    if 0 < metadata.durationMinutes then timeText numberText metadata else [],
    if metadata.sources = [] then [] else sourcesText numberText metadata].filter fun s =>
      !s.isEmpty

def questionNumber (index : ℕ) : List Char := Nat.toDigits 10 (index+1) ++ ['.']

def questionLines (question : PaperQuestion) (index : ℕ) : List (List Char) :=
  [[], questionNumber index ++ ' ' :: question.prompt ++ ' ' ::
    marksText numberText question.marks] ++
  (question.diagram.toList.map fun diagram =>
    let text := if diagram.caption = [] then diagram.alt else diagram.caption
    "[Diagram: ".toList ++ text ++ [']']) ++
  (question.subparts.flatMap fun part =>
    ("   (".toList ++ part.label ++ ") ".toList ++ part.prompt ++ ' ' ::
      marksText numberText part.marks) :: List.replicate ⌈part.workingLines⌉₊ []) ++
  if question.subparts = [] then List.replicate ⌈question.workingLines⌉₊ [] else []

def questionPaperText (metadata : PaperMetadata) (paper : GeneratedPaper) : List Char :=
  let instructions := if paper.instructions = [] then []
    else [[], "Instructions".toList] ++ paper.instructions.map fun item => '-' :: ' ' :: item
  let lines := metadataLines numberText metadata ++ instructions ++
    paper.questions.zipIdx.flatMap fun p => questionLines numberText p.1 p.2
  strip isWhiteSpace (['\n'].intercalate lines)

def schemeLines (scheme : Option PaperScheme) (indent : List Char) : List (List Char) :=
  match scheme with
  | none => []
  | some scheme =>
    (scheme.markingPoints.map fun point =>
      indent ++ '-' :: ' ' :: point.text ++ ' ' :: marksText numberText point.marks) ++
    (if scheme.acceptedAlternatives = [] then []
      else [indent ++ "Also accept: ".toList ++
        "; ".toList.intercalate scheme.acceptedAlternatives]) ++
    if scheme.guidance = [] then [] else [indent ++ "Guidance: ".toList ++ scheme.guidance]

end Texts

section Pages

inductive Kind where
  | question
  | answer
  deriving DecidableEq

inductive Face where
  | regular
  | bold
  deriving DecidableEq

abbrev Color := ℚ × ℚ × ℚ

def grey (q : ℚ) : Color := (q, q, q)

/-- What a drawn line of text is a part of. -/
inductive Piece where
  | prompt
  | subpart
  | answer
  | scheme
  | other
  deriving DecidableEq

inductive Op where
  | setTitle (text : List Char)
  | setSubject (text : List Char)
  | setCreator (text : List Char)
  | addPage (width height : ℚ)
  | drawText (page : ℕ) (piece : Piece) (text : List Char) (x y size : ℚ) (face : Face)
    (color : Option Color)
  | drawLine (page : ℕ) (start stop : ℚ × ℚ) (thickness : ℚ) (color : Color)
  | drawImage (page : ℕ) (image : List UInt8) (x y width height : ℚ)

/-- What the fonts, the images and the numbers come to. -/
structure Press where
  decomposition : Decomposition
  width : Face → Font
  numberText : ℚ → List Char
  /-- The bytes of the image, unless it cannot be rendered or there is nothing to render it on. -/
  diagramToPng : PaperDiagram → Except String (Option (List UInt8))
  embedPng : List UInt8 → Except String Unit
  scaleToFit : List UInt8 → ℚ → ℚ → ℚ × ℚ

/-- The number of pages, the place on the last of them, and what has been drawn. -/
structure Sheet where
  page : ℕ
  y : ℚ
  trace : List Op

def a4Width : ℚ := 595.28

def a4Height : ℚ := 841.89

def pageMargin : ℚ := 52

def contentBottom : ℚ := 48

def contentWidth : ℚ := a4Width-pageMargin*2

def pageTop : ℚ := a4Height-pageMargin

namespace Sheet

def emit (op : Op) (s : Sheet) : Sheet := { s with trace := s.trace ++ [op] }

def down (height : ℚ) (s : Sheet) : Sheet := { s with y := s.y-height }

end Sheet

def drawLines (op : List Char → Sheet → Op) (lineHeight : ℚ) (lines : List (List Char))
    (s : Sheet) : Sheet :=
  lines.foldl (fun s line => (s.emit (op line s)).down lineHeight) s

/-- How a text is set, with what is assumed where nothing is said. -/
structure TextOptions where
  x : ℚ := pageMargin
  width : ℚ := contentWidth
  size : ℚ := 10.5
  lineHeight : ℚ := size*1.42
  strong : Bool := false
  color : Color := grey 0.08
  gapAfter : ℚ := 0

def TextOptions.face (options : TextOptions) : Face := if options.strong then .bold else .regular

variable (press : Press) (metadata : PaperMetadata)

def drawCustomHeader (s : Sheet) : Sheet :=
  let header := strip isWhiteSpace (metadata.headerText.getD [])
  if header = [] then s
  else
    let lines := wrapLine press.decomposition header contentWidth (press.width .bold) 8.5
    (drawLines (fun line s =>
      .drawText s.page .other line pageMargin s.y 8.5 .bold (grey 0.3)) 11 lines s).down 7

def newPage (s : Sheet) : Sheet :=
  let s := { s.emit (.addPage a4Width a4Height) with page := s.page+1, y := pageTop }
  if metadata.repeatHeader then drawCustomHeader press metadata s else s

def ensureSpace (height : ℚ) (s : Sheet) : Sheet :=
  if s.y-height < contentBottom then newPage press metadata s else s

def wrappedLines (value : List Char) (options : TextOptions) : List (List Char) :=
  wrapLine press.decomposition value options.width (press.width options.face) options.size

def wrappedHeight (value : List Char) (options : TextOptions) : ℚ :=
  (wrappedLines press value options).length*options.lineHeight+options.gapAfter

def drawWrapped (piece : Piece) (value : List Char) (options : TextOptions) (s : Sheet) : Sheet :=
  let s := ensureSpace press metadata (wrappedHeight press value options) s
  (drawLines (fun line s =>
    .drawText s.page piece line options.x s.y options.size options.face (some options.color))
    options.lineHeight (wrappedLines press value options) s).down options.gapAfter

def schemeOptions (x width : ℚ) : TextOptions :=
  { x, width, size := 8.6, lineHeight := 11, gapAfter := 1, color := (0.26, 0.3, 0.26) }

def schemeHeight (scheme : Option PaperScheme) (width : ℚ) : ℚ :=
  ((schemeLines press.numberText scheme []).map fun line =>
    wrappedHeight press line (schemeOptions pageMargin width)).sum

def drawScheme (scheme : Option PaperScheme) (x : ℚ) (s : Sheet) : Sheet :=
  (schemeLines press.numberText scheme []).foldl (fun s line =>
    let options := schemeOptions x (a4Width-pageMargin-x)
    drawWrapped press metadata .scheme line options
      (ensureSpace press metadata (wrappedHeight press line options) s)) s

def drawMark (marks baseline : ℚ) (s : Sheet) : Sheet :=
  let label := marksText press.numberText marks
  let x := a4Width-pageMargin-press.width .bold label 9.5
  s.emit (.drawText s.page .other label x baseline 9.5 .bold (some (grey 0.08)))

def drawWorkingLines (workingLines x : ℚ) (s : Sheet) : Sheet :=
  (List.range ⌈workingLines⌉₊).foldl (fun s _ =>
    let s := (ensureSpace press metadata 18 s).down 12
    (s.emit (.drawLine s.page (x, s.y) (a4Width-pageMargin, s.y) 0.35 (grey 0.78))).down 6) s

def promptOptions : TextOptions :=
  { x := pageMargin+24, width := contentWidth-70, size := 10.5, lineHeight := 15, gapAfter := 5 }

def captionOptions : TextOptions :=
  { x := pageMargin+30, width := contentWidth-60, size := 8, lineHeight := 10, color := grey 0.3,
    gapAfter := 4 }

def answerOptions : TextOptions :=
  { x := pageMargin+24, width := contentWidth-24, size := 9.8, gapAfter := 4 }

def subpartOptions : TextOptions :=
  { x := pageMargin+50, width := contentWidth-96, size := 10, lineHeight := 14.2, gapAfter := 4 }

def sourceOptions : TextOptions :=
  { x := pageMargin+24, width := contentWidth-24, size := 8, color := grey 0.35 }

def answerText (answer : List Char) : List Char :=
  if answer = [] then "No answer supplied.".toList else answer

def sourceNote (source : List Char) : List Char := "Source note: ".toList ++ source

def subpartText (kind : Kind) (part : PaperSubpart) : List Char :=
  if kind = .answer then answerText part.answer else part.prompt

def subpartPiece (kind : Kind) : Piece := if kind = .answer then .answer else .subpart

def subpartHeight (kind : Kind) (part : PaperSubpart) : ℚ :=
  wrappedHeight press (subpartText kind part) subpartOptions+
  (if kind = .question then part.workingLines*18 else 0)+
  if kind = .answer then schemeHeight press part.scheme (contentWidth-62) else 0

def diagramHeight (diagram : PaperDiagram) : ℚ :=
  215+if diagram.caption = [] then 0 else wrappedHeight press diagram.caption captionOptions

def estimatedHeight (kind : Kind) (question : PaperQuestion) : ℚ :=
  wrappedHeight press question.prompt promptOptions+9+
  question.diagram.elim 0 (diagramHeight press)+
  (if kind = .answer ∧ question.subparts = [] then
    wrappedHeight press (answerText question.answer) answerOptions else 0)+
  (if kind = .answer then schemeHeight press question.scheme (contentWidth-36) else 0)+
  (question.subparts.map (subpartHeight press kind)).sum+
  (if question.subparts = [] ∧ kind = .question then question.workingLines*18 else 0)+
  if kind = .answer ∧ question.source ≠ [] then
    wrappedHeight press (sourceNote question.source) sourceOptions else 0

def drawDiagram (diagram : PaperDiagram) (s : Sheet) : Sheet :=
  let png := (press.diagramToPng diagram).bind fun png =>
    png.elim (.ok none) fun bytes => (press.embedPng bytes).map fun _ => some bytes
  match png with
  | .error _ =>
    drawWrapped press metadata .other ("Diagram: ".toList ++ diagram.alt)
      { size := 8.5, gapAfter := 4 } s
  | .ok none => s
  | .ok (some bytes) =>
    let (width, height) := press.scaleToFit bytes (min 370 (contentWidth-40)) 185
    let s := ensureSpace press metadata (height+26) s
    let x := pageMargin+(contentWidth-width)/2
    let s := (s.emit (.drawImage s.page bytes x (s.y-height) width height)).down (height+5)
    if diagram.caption = [] then s
    else drawWrapped press metadata .other diagram.caption captionOptions s

def drawSubpart (kind : Kind) (part : PaperSubpart) (s : Sheet) : Sheet :=
  let text := subpartText kind part
  let s := ensureSpace press metadata (wrappedHeight press text subpartOptions+
    if kind = .question ∧ part.workingLines ≠ 0 then 18 else 0) s
  let label := '(' :: pdfSafeText press.decomposition part.label ++ [')']
  let s := s.emit (.drawText s.page .other label (pageMargin+24) s.y 10 .regular none)
  let s := drawMark press part.marks s.y s
  let s := drawWrapped press metadata (subpartPiece kind) text subpartOptions s
  if kind = .question then drawWorkingLines press metadata part.workingLines (pageMargin+50) s
  else drawScheme press metadata part.scheme (pageMargin+62) s

/-- The number, the marks and the prompt of a question, and its diagram. -/
def drawPrompt (question : PaperQuestion) (index : ℕ) (s : Sheet) : Sheet :=
  let label := questionNumber index
  let s := s.emit (.drawText s.page .other label pageMargin s.y 11 .bold none)
  let s := drawMark press question.marks s.y s
  let s := drawWrapped press metadata .prompt question.prompt promptOptions s
  question.diagram.elim s fun diagram => drawDiagram press metadata diagram s

def pageCapacity : ℚ := a4Height-pageMargin-contentBottom

def drawQuestion (kind : Kind) (question : PaperQuestion) (index : ℕ) (s : Sheet) : Sheet :=
  let estimated := estimatedHeight press kind question
  let s := ensureSpace press metadata (if estimated ≤ pageCapacity then estimated
    else max 80 (wrappedHeight press question.prompt promptOptions+20)) s
  let startY := s.y
  let s := drawPrompt press metadata question index s
  let s := if kind = .answer ∧ question.subparts = [] then
      drawWrapped press metadata .answer (answerText question.answer) answerOptions s else s
  let s := if kind = .answer then
      drawScheme press metadata question.scheme (pageMargin+36) s else s
  let s := question.subparts.foldl (fun s part => drawSubpart press metadata kind part s) s
  let s := if question.subparts = [] ∧ kind = .question then
      drawWorkingLines press metadata question.workingLines (pageMargin+24) s else s
  let s := if kind = .answer ∧ question.source ≠ [] then
      drawWrapped press metadata .other (sourceNote question.source) sourceOptions s else s
  s.down (if startY = s.y then 14 else 9)

def documentTitle (kind : Kind) : List Char :=
  if kind = .answer then metadata.title ++ " - Marking scheme".toList else metadata.title

/-- What stands above the line at the head of the first page, and the line. -/
def drawTitle (kind : Kind) (s : Sheet) : Sheet :=
  let title := documentTitle metadata kind
  let s := drawCustomHeader press metadata s
  let s := drawWrapped press metadata .other
    (if title = [] then "Question paper".toList else title)
    { size := 19, lineHeight := 23, strong := true, gapAfter := 5 } s
  let s := drawWrapped press metadata .other metadata.subject
    { size := 11, strong := true, gapAfter := 2 } s
  let s := drawWrapped press metadata .other (boardDetails metadata)
    { size := 8.8, color := grey 0.28 } s
  let s := if kind = .question ∧ 0 < metadata.durationMinutes then
      drawWrapped press metadata .other (timeText press.numberText metadata) { size := 8.8 } s
    else s
  let s := if metadata.sources = [] then s.down 7
    else drawWrapped press metadata .other (sourcesText press.numberText metadata)
      { size := 8, lineHeight := 11, color := grey 0.3, gapAfter := 6 } s
  (s.emit (.drawLine s.page (pageMargin, s.y) (a4Width-pageMargin, s.y) 0.75 (grey 0.7))).down 15

def drawInstructions (instructions : List (List Char)) (s : Sheet) : Sheet :=
  let s := drawWrapped press metadata .other "Instructions".toList
    { size := 10, strong := true, gapAfter := 2 } s
  (instructions.foldl (fun s instruction =>
    drawWrapped press metadata .other ('-' :: ' ' :: instruction)
      { x := pageMargin+8, width := contentWidth-8, size := 9.3 } s) s).down 8

/-- The footers, which stand below everything else. -/
def footers (pages : ℕ) : List Op :=
  (List.range pages).flatMap fun index =>
    let pageNumber := Nat.toDigits 10 (index+1) ++ " of ".toList ++ Nat.toDigits 10 pages
    let footer := strip isWhiteSpace (metadata.footerText.getD [])
    let line := (pdfSafeText press.decomposition footer).take 160
    (if footer ≠ [] ∧ (metadata.repeatFooter ∨ index = pages-1) then
      [.drawText (index+1) .other line pageMargin 24 8 .regular (some (grey 0.42))]
    else []) ++
    [.drawText (index+1) .other pageNumber
      (a4Width-pageMargin-press.width .regular pageNumber 8) 24 8 .regular (some (grey 0.42))]

def startPaper (kind : Kind) : Sheet :=
  let title := documentTitle metadata kind
  let subject := if kind = .answer then "Marking scheme" else "Question paper"
  ⟨1, pageTop,
    [.setTitle (pdfSafeText press.decomposition title),
      .setSubject (pdfSafeText press.decomposition subject.toList),
      .setCreator "Teacher worksheet".toList, .addPage a4Width a4Height]⟩

def drawQuestions (kind : Kind) (questions : List PaperQuestion) (s : Sheet) : Sheet :=
  questions.zipIdx.foldl (fun s p => drawQuestion press metadata kind p.1 p.2 s) s

def createPaperPdf (paper : GeneratedPaper) (kind : Kind) : List Op :=
  let s := drawTitle press metadata kind (startPaper press metadata kind)
  let s := if kind = .question ∧ paper.instructions ≠ [] then
      drawInstructions press metadata paper.instructions s else s
  let s := drawQuestions press metadata kind paper.questions s
  s.trace ++ footers press metadata s.page

end Pages

section Plain

def helvetica : Font := fun text size =>
  (text.map fun c => if c = ' ' then 0.278 else 0.944).sum*size

def plainPress : Press where
  decomposition := asciiDecomposition
  width _ := helvetica
  numberText q := Nat.toDigits 10 q.num.natAbs
  diagramToPng _ := .ok none
  embedPng _ := .ok ()
  scaleToFit _ _ _ := (0, 0)

def plainMetadata : PaperMetadata where
  title := []
  subject := []
  board := .cie
  syllabusCode := []
  year := []
  session := []
  paperVariant := []
  durationMinutes := 0
  sources := []
  headerText := none
  footerText := none
  repeatHeader := false
  repeatFooter := false

end Plain

end Cinder.Worksheets

/-!
What a student is given does not depend on the answers, the marking schemes and the notes on the
sources.
-/

namespace Cinder.Worksheets

def PaperSubpart.withoutAnswers (part : PaperSubpart) : PaperSubpart :=
  { part with answer := [], scheme := none }

def PaperQuestion.withoutAnswers (question : PaperQuestion) : PaperQuestion :=
  { question with
    answer := []
    source := []
    scheme := none
    subparts := question.subparts.map PaperSubpart.withoutAnswers }

def GeneratedPaper.withoutAnswers (paper : GeneratedPaper) : GeneratedPaper :=
  { paper with questions := paper.questions.map PaperQuestion.withoutAnswers }

section Text
variable (numberText : ℚ → List Char)

theorem questionLines_withoutAnswers (question : PaperQuestion) (index : ℕ) :
    questionLines numberText question.withoutAnswers index =
      questionLines numberText question index := by
  simp only [questionLines, PaperQuestion.withoutAnswers, PaperSubpart.withoutAnswers,
    List.flatMap_map, List.map_eq_nil_iff]

theorem questionPaperText_withoutAnswers (metadata : PaperMetadata) (paper : GeneratedPaper) :
    questionPaperText numberText metadata paper.withoutAnswers =
      questionPaperText numberText metadata paper := by
  simp only [questionPaperText, GeneratedPaper.withoutAnswers, List.zipIdx_map, List.flatMap_map,
    Prod.map_fst, Prod.map_snd, id_eq, questionLines_withoutAnswers]
  rfl

end Text

section Pages
variable (press : Press) (metadata : PaperMetadata)

theorem subpartHeight_withoutAnswers (part : PaperSubpart) :
    subpartHeight press .question part.withoutAnswers = subpartHeight press .question part := rfl

theorem estimatedHeight_withoutAnswers (question : PaperQuestion) :
    estimatedHeight press .question question.withoutAnswers =
      estimatedHeight press .question question := by
  have hparts : (question.subparts.map PaperSubpart.withoutAnswers).map
      (subpartHeight press .question) = question.subparts.map (subpartHeight press .question) := by
    rw [List.map_map]
    exact List.map_congr_left fun part _ => subpartHeight_withoutAnswers press part
  simp [estimatedHeight, PaperQuestion.withoutAnswers, hparts]

theorem drawSubpart_withoutAnswers (part : PaperSubpart) (s : Sheet) :
    drawSubpart press metadata .question part.withoutAnswers s =
      drawSubpart press metadata .question part s := rfl

theorem drawQuestion_withoutAnswers (question : PaperQuestion) (index : ℕ) (s : Sheet) :
    drawQuestion press metadata .question question.withoutAnswers index s =
      drawQuestion press metadata .question question index s := by
  simp only [drawQuestion, estimatedHeight_withoutAnswers]
  simp [PaperQuestion.withoutAnswers, drawPrompt, List.foldl_map, drawSubpart_withoutAnswers]

theorem createPaperPdf_withoutAnswers (paper : GeneratedPaper) :
    createPaperPdf press metadata paper.withoutAnswers .question =
      createPaperPdf press metadata paper .question := by
  simp only [createPaperPdf, drawQuestions, GeneratedPaper.withoutAnswers, List.zipIdx_map,
    List.foldl_map, Prod.map_fst, Prod.map_snd, id_eq, drawQuestion_withoutAnswers]

end Pages

/-- Papers with the same questions give students the same text and the same pages. -/
theorem questionPaper_ignores_answers (press : Press) (metadata : PaperMetadata)
    {paper paper' : GeneratedPaper} (h : paper.withoutAnswers = paper'.withoutAnswers) :
    questionPaperText press.numberText metadata paper =
        questionPaperText press.numberText metadata paper' ∧
      createPaperPdf press metadata paper .question =
        createPaperPdf press metadata paper' .question := by
  constructor
  · rw [← questionPaperText_withoutAnswers, h, questionPaperText_withoutAnswers]
  · rw [← createPaperPdf_withoutAnswers, h, createPaperPdf_withoutAnswers]

def answered (answer : List Char) : GeneratedPaper :=
  ⟨[], [⟨Ecma.utf16 ['q'], ['p'], 2, answer, 3, [⟨['a'], ['p'], 2, answer, 1, none⟩], none, answer,
    some ⟨[⟨answer, 1⟩], [answer], answer⟩⟩]⟩

theorem questionPaper_ignores_answers_sample :
    questionPaperText plainPress.numberText plainMetadata (answered ['x']) =
        questionPaperText plainPress.numberText plainMetadata (answered ['y']) ∧
      createPaperPdf plainPress plainMetadata (answered ['x']) .question =
        createPaperPdf plainPress plainMetadata (answered ['y']) .question :=
  questionPaper_ignores_answers plainPress plainMetadata rfl

end Cinder.Worksheets
