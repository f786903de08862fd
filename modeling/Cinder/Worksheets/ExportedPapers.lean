import Cinder.Streams.MarkupTexts
import Cinder.Worksheets.PaperPages
set_option autoImplicit false

namespace Cinder.Worksheets
open Cinder.Streams Cinder.Ecma

section Texts

def replaceChar (c : Char) (replacement : String) (s : List Char) : List Char :=
  s.flatMap fun d => if d = c then replacement.toList else [d]

def escapeHtml (value : List Char) : List Char :=
  replaceChar '"' "&quot;" (replaceChar '>' "&gt;" (replaceChar '<' "&lt;"
    (replaceChar '&' "&amp;" value)))

def styleSheetLines : List String := [
  "@page\x7bsize:A4;margin:16mm 18mm\x7d*\x7bbox-sizing:border-box\x7d",
  "body\x7bmax-width:174mm;margin:0 auto;color:#171717;",
  "font:11pt/1.48 Arial,\"Liberation Sans\",sans-serif\x7d",
  "header\x7bpadding-bottom:12pt;border-bottom:1px solid #999\x7d",
  "h1\x7bmargin:0 0 5pt;font-size:20pt\x7dheader p\x7bmargin:2pt 0\x7d",
  ".custom\x7bfont-size:8.5pt;font-weight:700;text-transform:uppercase;letter-spacing:.05em\x7d",
  ".meta,.sources,footer\x7bfont-size:8.5pt;color:#444\x7d",
  "footer\x7bmargin-top:18pt;padding-top:7pt;border-top:1px solid #bbb\x7d",
  ".instructions\x7bmargin:12pt 0\x7d.instructions h2\x7bfont-size:10pt;margin:0 0 4pt\x7d",
  ".instructions ul\x7bmargin:0;padding-left:18pt\x7d.question\x7bmargin:14pt 0;",
  "break-inside:avoid\x7d",
  ".question-row,.subpart\x7bdisplay:grid;grid-template-columns:24pt 1fr 32pt;",
  "gap:5pt;align-items:start\x7d.question-row p,.subpart p\x7bmargin:0;white-space:pre-wrap\x7d",
  ".question-row>b,.subpart>b\x7btext-align:right\x7d.answer\x7bmargin:6pt 0 0 24pt!important;",
  "color:#26382b\x7d.subpart .answer\x7bmargin-left:0!important\x7d",
  ".subpart\x7bmargin:8pt 0 0 24pt\x7d.working\x7bmargin:7pt 0 0 24pt\x7d",
  ".working i\x7bdisplay:block;height:18pt;border-bottom:1px solid #bbb\x7d",
  "figure\x7bmax-width:130mm;margin:10pt auto;text-align:center\x7d",
  "figure img\x7bdisplay:block;max-width:100%;max-height:62mm;margin:auto\x7d",
  "figcaption\x7bmargin-top:4pt;color:#555;font-size:8.5pt\x7d",
  ".question small\x7bdisplay:block;margin:6pt 0 0 24pt;color:#555\x7d"]

def styleSheet : List Char := styleSheetLines.flatMap String.toList

variable (numberText : ℚ → List Char)

/-- `repeat`, which refuses a negative count and takes no account of a fraction. -/
def repeated (s : String) (count : ℚ) : Option (List Char) :=
  if count ≤ -1 then none else some (List.replicate ⌊count⌋₊ s.toList).flatten

def workingHtml (lines : ℚ) : Option (List Char) :=
  (repeated "<i></i>" lines).map fun rows =>
    "<div class=\"working\">".toList ++ rows ++ "</div>".toList

/-- Lines are drawn for what is to be written by hand. -/
def workingIf (drawn : Bool) (lines : ℚ) : Option (List Char) :=
  if drawn then workingHtml lines else some []

def figureHtml (diagram : PaperDiagram) : List Char :=
  "<figure><img src=\"".toList ++ escapeHtml diagram.imageDataUrl ++ "\" alt=\"".toList ++
    escapeHtml diagram.alt ++ "\">".toList ++
    (if diagram.caption = [] then []
      else "<figcaption>".toList ++ escapeHtml diagram.caption ++ "</figcaption>".toList) ++
    "</figure>".toList

/-- `answer || "No answer supplied."`. -/
def givenAnswer (answer : List Char) : List Char :=
  if answer = [] then "No answer supplied.".toList else answer

def answerHtml (answer : List Char) : List Char :=
  "<p class=\"answer\">".toList ++ escapeHtml (givenAnswer answer) ++ "</p>".toList

def subpartHtml (kind : Kind) (part : PaperSubpart) : Option (List Char) := do
  let working ← workingIf (kind = .question) part.workingLines
  some ("<div class=\"subpart\"><span>(".toList ++ escapeHtml part.label ++
    ")</span><div><p>".toList ++ escapeHtml part.prompt ++ "</p>".toList ++
    (if kind = .answer then answerHtml part.answer else []) ++ "</div><b>[".toList ++
    numberText part.marks ++ "]</b></div>".toList ++ working)

def questionHtml (kind : Kind) (question : PaperQuestion) (index : ℕ) : Option (List Char) := do
  let subparts ← question.subparts.mapM (subpartHtml numberText kind)
  let working ← workingIf (kind = .question ∧ question.subparts = []) question.workingLines
  some ("<section class=\"question\"><div class=\"question-row\"><strong>".toList ++
    Nat.toDigits 10 (index+1) ++ ".</strong><p>".toList ++ escapeHtml question.prompt ++
    "</p><b>[".toList ++ numberText question.marks ++ "]</b></div>".toList ++
    (question.diagram.map figureHtml).getD [] ++
    (if kind = .answer ∧ question.subparts = [] then answerHtml question.answer else []) ++
    subparts.flatten ++ working ++
    (if kind = .answer ∧ question.source ≠ [] then
      "<small>Source note: ".toList ++ escapeHtml question.source ++ "</small>".toList else []) ++
    "</section>".toList)

def instructionsHtml (kind : Kind) (paper : GeneratedPaper) : List Char :=
  if kind = .question ∧ paper.instructions ≠ [] then
    "<section class=\"instructions\"><h2>Instructions</h2><ul>".toList ++
      (paper.instructions.flatMap fun item =>
        "<li>".toList ++ escapeHtml item ++ "</li>".toList) ++ "</ul></section>".toList
  else []

def exportTitle (metadata : PaperMetadata) (kind : Kind) : List Char :=
  if kind = .answer then metadata.title ++ " - Marking scheme".toList else metadata.title

def sourcesHtml (metadata : PaperMetadata) : List Char :=
  if metadata.sources = [] then []
  else "<p class=\"sources\"><strong>Sources:</strong> ".toList ++
    escapeHtml (sourceSummary numberText metadata.sources) ++ "</p>".toList

def optionalHtml (first last : String) (text : Option (List Char)) : List Char :=
  let s := text.getD []
  if s = [] then [] else first.toList ++ escapeHtml s ++ last.toList

def durationText (metadata : PaperMetadata) (kind : Kind) : List Char :=
  if 0 < metadata.durationMinutes ∧ kind = .question then
    " | Time: ".toList ++ numberText metadata.durationMinutes ++ " minutes".toList
  else []

def paperHtml (metadata : PaperMetadata) (paper : GeneratedPaper) (kind : Kind) :
    Option (List Char) := do
  let questions ← paper.questions.zipIdx.mapM fun p => questionHtml numberText kind p.1 p.2
  let title := exportTitle metadata kind
  some ("<!doctype html><html><head><meta charset=\"utf-8\"><title>".toList ++ escapeHtml title ++
    "</title><style>".toList ++ styleSheet ++ "</style></head><body><header>".toList ++
    optionalHtml "<p class=\"custom\">" "</p>" metadata.headerText ++ "<h1>".toList ++
    escapeHtml title ++ "</h1><p><strong>".toList ++ escapeHtml metadata.subject ++
    "</strong></p><p class=\"meta\">".toList ++ escapeHtml (boardDetails metadata) ++
    durationText numberText metadata kind ++ "</p>".toList ++ sourcesHtml numberText metadata ++
    "</header>".toList ++ instructionsHtml kind paper ++ questions.flatten ++
    optionalHtml "<footer>" "</footer>" metadata.footerText ++ "</body></html>".toList)

end Texts

section Documents
-- What is made of a text before it stands in the document.
variable (numberText : ℚ → List Char) (e : List Char → List Char)

def textNodes (s : List Char) : List Node := if s = [] then [] else [.text (e s)]

def plainElement (name : String) (children : List Node) : Node := .element name.toList [] children

def classElement (name className : String) (children : List Node) : Node :=
  .element name.toList [("class".toList, className.toList)] children

def workingNode (lines : ℚ) : Node :=
  classElement "div" "working" (List.replicate ⌊lines⌋₊ (plainElement "i" []))

def figureNode (diagram : PaperDiagram) : Node :=
  plainElement "figure" (.element "img".toList
      [("src".toList, e diagram.imageDataUrl), ("alt".toList, e diagram.alt)] [] ::
    if diagram.caption = [] then [] else [plainElement "figcaption" [.text (e diagram.caption)]])

def answerNode (answer : List Char) : Node :=
  classElement "p" "answer" [.text (e (givenAnswer answer))]

def marksNode (marks : ℚ) : Node := plainElement "b" [.text (marksText numberText marks)]

def subpartNodes (kind : Kind) (part : PaperSubpart) : List Node :=
  classElement "div" "subpart"
    [plainElement "span" [.text ('(' :: e part.label ++ [')'])],
      plainElement "div" (plainElement "p" (textNodes e part.prompt) ::
        if kind = .answer then [answerNode e part.answer] else []),
      marksNode numberText part.marks] ::
    if kind = .question then [workingNode part.workingLines] else []

def questionNode (kind : Kind) (question : PaperQuestion) (index : ℕ) : Node :=
  classElement "section" "question"
    (classElement "div" "question-row"
        [plainElement "strong" [.text (questionNumber index)],
          plainElement "p" (textNodes e question.prompt), marksNode numberText question.marks] ::
      ((question.diagram.toList.map (figureNode e)) ++
        (if kind = .answer ∧ question.subparts = [] then [answerNode e question.answer]
          else []) ++
        question.subparts.flatMap (subpartNodes numberText e kind) ++
        (if kind = .question ∧ question.subparts = [] then [workingNode question.workingLines]
          else []) ++
        if kind = .answer ∧ question.source ≠ [] then
          [plainElement "small" [.text ("Source note: ".toList ++ e question.source)]] else []))

def instructionsNodes (kind : Kind) (paper : GeneratedPaper) : List Node :=
  if kind = .question ∧ paper.instructions ≠ [] then
    [classElement "section" "instructions"
      [plainElement "h2" [.text "Instructions".toList],
        plainElement "ul"
          (paper.instructions.map fun item => plainElement "li" (textNodes e item))]]
  else []

def sourcesNodes (metadata : PaperMetadata) : List Node :=
  if metadata.sources = [] then []
  else [classElement "p" "sources" [plainElement "strong" [.text "Sources:".toList],
    .text (' ' :: e (sourceSummary numberText metadata.sources))]]

def optionalNodes (make : List Node → Node) (text : Option (List Char)) : List Node :=
  let s := text.getD []
  if s = [] then [] else [make [.text (e s)]]

/-- The document of a paper. -/
def paperDocument (metadata : PaperMetadata) (paper : GeneratedPaper) (kind : Kind) : List Node :=
  let title := exportTitle metadata kind
  [.declaration "doctype html".toList,
    plainElement "html"
      [plainElement "head"
        [.element "meta".toList [("charset".toList, "utf-8".toList)] [],
          plainElement "title" (textNodes e title),
          plainElement "style" [.text styleSheet]],
        plainElement "body"
          (plainElement "header"
            (optionalNodes e (classElement "p" "custom") metadata.headerText ++
              [plainElement "h1" (textNodes e title),
                plainElement "p" [plainElement "strong" (textNodes e metadata.subject)],
                classElement "p" "meta"
                  [.text (e (boardDetails metadata) ++ durationText numberText metadata kind)]] ++
              sourcesNodes numberText e metadata) ::
            (instructionsNodes e kind paper ++
              (paper.questions.zipIdx.map fun p => questionNode numberText e kind p.1 p.2) ++
              optionalNodes e (plainElement "footer") metadata.footerText))]]

end Documents

section Written
variable {numberText : ℚ → List Char} {kind : Kind}

theorem escapeHtml_eq (value : List Char) : escapeHtml value = value.flatMap reference := by
  simp only [escapeHtml, replaceChar, List.flatMap_assoc]
  refine List.flatMap_congr fun c _ => ?_
  unfold reference
  split
  · simp
  · split
    · next hc => simp [hc]
    · split
      · next hc => simp [hc]
      · split
        · next hc => simp [hc]
        · next hlt hgt hquote => simp [hlt, hgt, hquote]

theorem escapeHtml_nil : escapeHtml [] = [] := rfl

@[simp] theorem write_textNodes (s : List Char) :
    Node.write (textNodes escapeHtml s) = escapeHtml s := by
  unfold textNodes
  split
  · next h => simp [h, escapeHtml_nil]
  · simp

variable {name : String} (children ns : List Node)

theorem write_plainElement (h : Node.isVoid name.toList = false) :
    Node.write (plainElement name children :: ns) = '<' :: (name.toList ++
      '>' :: (Node.write children ++ '<' :: '/' :: (name.toList ++ '>' :: Node.write ns))) := by
  simp [plainElement, Node.write_element _ _ _ h]

theorem write_classElement (className : String) (h : Node.isVoid name.toList = false) :
    Node.write (classElement name className children :: ns) = '<' :: (name.toList ++
      (" class=\"".toList ++ className.toList ++ "\">".toList ++
        (Node.write children ++ '<' :: '/' :: (name.toList ++ '>' :: Node.write ns)))) := by
  simp [classElement, Node.write_element _ _ _ h, Markup.attributeText]

theorem workingHtml_eq {lines : ℚ} (h : -1 < lines) :
    workingHtml lines = some (Node.write [workingNode lines]) := by
  have hrows (n : ℕ) : Node.write (List.replicate n (plainElement "i" [])) =
      (List.replicate n "<i></i>".toList).flatten := by
    induction n with
    | zero => rfl
    | succ n ih =>
      rw [List.replicate_succ, List.replicate_succ, write_plainElement _ _ (by decide), ih]
      simp
  rw [workingHtml, repeated, if_neg (not_le.mpr h), workingNode,
    write_classElement _ _ _ (by decide), hrows]
  simp

theorem figureHtml_eq (diagram : PaperDiagram) :
    figureHtml diagram = Node.write [figureNode escapeHtml diagram] := by
  unfold figureHtml figureNode
  rw [write_plainElement _ _ (by decide), Node.write_void _ _ _ (by decide)]
  split
  · simp [Markup.attributeText]
  · simp (disch := decide) [Markup.attributeText, write_plainElement]

theorem answerHtml_eq (answer : List Char) :
    answerHtml answer = Node.write [answerNode escapeHtml answer] := by
  unfold answerHtml answerNode
  generalize givenAnswer answer = s
  rw [write_classElement _ _ _ (by decide)]
  simp

/-- The exported page of a paper has no negative number of lines to write on. -/
structure Lined (paper : GeneratedPaper) : Prop where
  questions : ∀ question ∈ paper.questions, -1 < question.workingLines
  subparts : ∀ question ∈ paper.questions, ∀ part ∈ question.subparts,
    -1 < part.workingLines

theorem workingIf_eq (p : Prop) [Decidable p] {lines : ℚ} (h : -1 < lines) :
    workingIf p lines = some (Node.write (if p then [workingNode lines] else [])) := by
  by_cases hp : p
  · simp [workingIf, hp, workingHtml_eq h]
  · simp [workingIf, hp]

theorem subpartHtml_eq {part : PaperSubpart} (h : -1 < part.workingLines) :
    subpartHtml numberText kind part =
      some (Node.write (subpartNodes numberText escapeHtml kind part)) := by
  unfold subpartHtml subpartNodes
  rw [workingIf_eq _ h]
  cases kind with
  | question =>
    simp (disch := decide) [write_plainElement, write_classElement, marksNode, marksText]
  | answer =>
    simp (disch := decide) [answerHtml_eq, write_plainElement, write_classElement, marksNode,
      marksText]

theorem mapM_eq_some {α β : Type} {f : α → Option β} {g : α → β} {l : List α}
    (h : ∀ x ∈ l, f x = some (g x)) : l.mapM f = some (l.map g) := by
  induction l with
  | nil => rfl
  | cons x xs ih =>
    obtain ⟨hx, hxs⟩ := List.forall_mem_cons.mp h
    simp [hx, ih hxs]

theorem write_flatMap {α : Type} (f : α → List Node) (l : List α) :
    Node.write (l.flatMap f) = l.flatMap fun x => Node.write (f x) := by
  induction l with
  | nil => rfl
  | cons x xs ih => simp [ih]

theorem questionHtml_eq {question : PaperQuestion} (hlines : -1 < question.workingLines)
    (hparts : ∀ part ∈ question.subparts, -1 < part.workingLines) (index : ℕ) :
    questionHtml numberText kind question index =
      some (Node.write [questionNode numberText escapeHtml kind question index]) := by
  have hsubparts := mapM_eq_some (f := subpartHtml numberText kind)
    (g := fun part => Node.write (subpartNodes numberText escapeHtml kind part))
    fun part hpart => subpartHtml_eq (hparts part hpart)
  have hfigure : Node.write (question.diagram.toList.map (figureNode escapeHtml)) =
      (question.diagram.map figureHtml).getD [] := by
    cases question.diagram <;> simp [figureHtml_eq]
  have hworking := workingIf_eq (kind = .question ∧ question.subparts = []) hlines
  have hanswer : Node.write (if kind = .answer ∧ question.subparts = [] then
      [answerNode escapeHtml question.answer] else []) =
        if kind = .answer ∧ question.subparts = [] then answerHtml question.answer else [] := by
    split
    · rw [answerHtml_eq]
    · rfl
  have hsource : Node.write (if kind = .answer ∧ question.source ≠ [] then
      [plainElement "small" [.text ("Source note: ".toList ++ escapeHtml question.source)]]
        else []) =
      if kind = .answer ∧ question.source ≠ [] then
        "<small>Source note: ".toList ++ escapeHtml question.source ++ "</small>".toList
      else [] := by
    split
    · rw [write_plainElement _ _ (by decide)]
      simp
    · rfl
  unfold questionHtml questionNode
  rw [hsubparts, hworking, write_classElement _ _ _ (by decide),
    write_classElement _ _ _ (by decide), Node.write_append, Node.write_append, Node.write_append,
    Node.write_append, hfigure, hanswer, hsource, write_flatMap]
  generalize (if kind = .answer ∧ question.subparts = [] then answerHtml _ else []) = s
  generalize (if kind = .answer ∧ question.source ≠ [] then _ else ([] : List Char)) = t
  simp (disch := decide) [write_plainElement, marksNode, marksText, questionNumber,
    List.flatMap_def]

theorem write_map {α : Type} (f : α → Node) (l : List α) :
    Node.write (l.map f) = l.flatMap fun x => Node.write [f x] := by
  have h := write_flatMap (fun x => [f x]) l
  rw [List.map_eq_flatMap]
  exact h

theorem instructionsHtml_eq (paper : GeneratedPaper) :
    instructionsHtml kind paper = Node.write (instructionsNodes escapeHtml kind paper) := by
  unfold instructionsHtml instructionsNodes
  split
  · simp (disch := decide) [write_classElement, write_plainElement, write_map]
  · rfl

theorem sourcesHtml_eq (metadata : PaperMetadata) :
    sourcesHtml numberText metadata = Node.write (sourcesNodes numberText escapeHtml metadata) := by
  unfold sourcesHtml sourcesNodes
  split
  · rfl
  · simp (disch := decide) [write_classElement, write_plainElement]

theorem optionalHtml_eq (first last : String) (make : List Node → Node)
    (h : ∀ s, Node.write [make [.text s]] = first.toList ++ s ++ last.toList)
    (text : Option (List Char)) :
    optionalHtml first last text = Node.write (optionalNodes escapeHtml make text) := by
  simp only [optionalHtml, optionalNodes]
  split
  · rfl
  · rw [h]

-- `List.cons_append` holds by definition, and the kernel would evaluate the literals to see it.
theorem cons_append_eq {α : Type} (c : α) (s t : List α) : (c :: s) ++ t = c :: (s ++ t) := by
  simp

theorem nil_append_eq {α : Type} (t : List α) : ([] : List α) ++ t = t := by simp

theorem paperHtml_eq (metadata : PaperMetadata) {paper : GeneratedPaper} (h : Lined paper) :
    paperHtml numberText metadata paper kind =
      some (Node.write (paperDocument numberText escapeHtml metadata paper kind)) := by
  have hquestions := mapM_eq_some
    (f := fun p : PaperQuestion × ℕ => questionHtml numberText kind p.1 p.2)
    (g := fun p => Node.write [questionNode numberText escapeHtml kind p.1 p.2])
    (l := paper.questions.zipIdx) fun p hp =>
      have hmem := List.fst_mem_of_mem_zipIdx hp
      questionHtml_eq (h.questions p.1 hmem) (h.subparts p.1 hmem) p.2
  have hheader := optionalHtml_eq "<p class=\"custom\">" "</p>" (classElement "p" "custom")
    (fun s => by rw [write_classElement _ _ _ (by decide)]; simp) metadata.headerText
  have hfooter := optionalHtml_eq "<footer>" "</footer>" (plainElement "footer")
    (fun s => by rw [write_plainElement _ _ (by decide)]; simp) metadata.footerText
  unfold paperHtml paperDocument
  rw [hquestions, hheader, hfooter, sourcesHtml_eq, instructionsHtml_eq]
  generalize styleSheet = sheet
  generalize exportTitle metadata kind = title
  generalize boardDetails metadata = details
  generalize durationText numberText metadata kind = duration
  simp (disch := decide) only [write_plainElement, write_classElement, Node.write_void,
    Node.write_append, Node.write_text, Node.write_declaration, Node.write_nil, write_textNodes,
    write_map, List.flatMap_def, Option.bind_eq_bind, Option.bind_some, -String.reduceToList]
  simp only [List.append_assoc, List.append_nil, nil_append_eq, cons_append_eq,
    -String.reduceToList]
  simp only [String.reduceToList]
  rfl

end Written

section Read
variable {numberText : ℚ → List Char} {kind : Kind}

def ReadsAs (raw node : Node) : Prop := raw.Proper ∧ raw.isText = false ∧ raw.decode = node

def ReadsInside (raw nodes : List Node) : Prop :=
  Node.ProperForest raw ∧ Node.decodeForest raw = nodes

def Spells (w s : List Char) : Prop := '<' ∉ w ∧ readReferences w = s

variable {w s : List Char} {raw nodes : List Node} {name className : String}

-- As a Bool, since a quantifier over `Char` may also be decided by trying every character.
theorem forall_of_all {p : Char → Prop} [DecidablePred p] (h : s.all p = true) :
    ∀ c ∈ s, p c := by
  simpa using h

theorem spells_escapeHtml (s : List Char) : Spells (escapeHtml s) s := by
  rw [escapeHtml_eq]
  refine ⟨not_mem_reference (.inl rfl) s, ?_⟩
  have h := readReferences_reference s []
  simpa [readReferences] using h

theorem spells_plain (h : ∀ c ∈ s, c ≠ '<' ∧ c ≠ '&') : Spells s s :=
  ⟨fun hmem => (h _ hmem).1 rfl, readReferences_plain fun hmem => (h _ hmem).2 rfl⟩

theorem Spells.after (h : Spells w s) {p : List Char} (hp : ∀ c ∈ p, c ≠ '<' ∧ c ≠ '&') :
    Spells (p ++ w) (p ++ s) := by
  refine ⟨?_, ?_⟩
  · rw [List.mem_append]
    exact fun hmem => hmem.elim (fun hc => (hp _ hc).1 rfl) h.1
  · rw [readReferences_append (fun hmem => (hp _ hmem).2 rfl), h.2]

theorem spells_append (s : List Char) {p : List Char} (hp : ∀ c ∈ p, c ≠ '<' ∧ c ≠ '&') :
    Spells (escapeHtml s ++ p) (s ++ p) := by
  refine ⟨?_, ?_⟩
  · rw [List.mem_append]
    exact fun hmem => hmem.elim (spells_escapeHtml s).1 fun hc => (hp _ hc).1 rfl
  · rw [escapeHtml_eq, readReferences_reference,
      readReferences_plain fun hmem => (hp _ hmem).2 rfl]

theorem escapeHtml_eq_nil {s : List Char} : escapeHtml s = [] ↔ s = [] := by
  refine ⟨fun h => ?_, fun h => by rw [h, escapeHtml_nil]⟩
  have hspells := (spells_escapeHtml s).2
  rw [h] at hspells
  exact hspells.symm

theorem readsInside_text (hne : w ≠ []) (h : Spells w s) : ReadsInside [.text w] [.text s] := by
  simp [ReadsInside, Node.ProperForest, Node.Proper, Node.decodeForest, Node.decode, hne, h.1, h.2]

theorem readsInside_textNodes (s : List Char) :
    ReadsInside (textNodes escapeHtml s) (textNodes id s) := by
  unfold textNodes
  split
  · exact ⟨trivial, rfl⟩
  · next h => exact readsInside_text (by simpa [escapeHtml_eq_nil] using h) (spells_escapeHtml s)

theorem readsInside_elements (h : List.Forall₂ ReadsAs raw nodes) : ReadsInside raw nodes := by
  induction h with
  | nil => exact ⟨trivial, rfl⟩
  | cons hn hns ih =>
    obtain ⟨hproper, htext, hdecode⟩ := hn
    refine ⟨?_, by rw [Node.decodeForest, hdecode, ih.2]⟩
    rw [Node.ProperForest]
    exact ⟨hproper, by simp [htext], ih.1⟩

def IsName (name : String) : Bool :=
  name.toList ≠ [] && name.toList.all (·.isAlphanum) && !Node.isVoid name.toList

theorem reads_element (attributes : List (List Char × List Char)) (hname : IsName name = true)
    (hattributes : ∀ a ∈ attributes, '=' ∉ a.1 ∧ '"' ∉ a.2) (h : ReadsInside raw nodes) :
    ReadsAs (.element name.toList attributes raw) (.element name.toList
      (attributes.map fun a => (a.1, readReferences a.2)) nodes) := by
  simp only [IsName, Bool.and_eq_true, decide_eq_true_eq, List.all_eq_true,
    Bool.not_eq_true'] at hname
  obtain ⟨⟨hne, halpha⟩, hvoid⟩ := hname
  refine ⟨?_, rfl, by rw [Node.decode, h.2]⟩
  rw [Node.Proper]
  exact ⟨⟨hne, halpha, hattributes⟩, by simp [hvoid], h.1⟩

theorem reads_plainElement (name : String) (hname : IsName name = true)
    (h : ReadsInside raw nodes) :
    ReadsAs (plainElement name raw) (plainElement name nodes) :=
  reads_element _ hname (by simp) h

theorem reads_classElement (name className : String) (hname : IsName name = true)
    (hclass : ∀ c ∈ className.toList, c ≠ '"' ∧ c ≠ '&') (h : ReadsInside raw nodes) :
    ReadsAs (classElement name className raw) (classElement name className nodes) := by
  have hread : readReferences className.toList = className.toList :=
    readReferences_plain fun hmem => (hclass _ hmem).2 rfl
  have helement := reads_element [("class".toList, className.toList)] hname
    (by simpa using fun hmem => (hclass _ hmem).1 rfl) h
  simpa only [classElement, List.map_cons, List.map_nil, hread] using helement

theorem reads_if {p : Prop} [Decidable p] {raw node : Node} (h : ReadsAs raw node) :
    List.Forall₂ ReadsAs (if p then [raw] else []) (if p then [node] else []) := by
  split
  · exact .cons h .nil
  · exact .nil

theorem reads_list {α : Type} {f g : α → Node} {l : List α}
    (h : ∀ x ∈ l, ReadsAs (f x) (g x)) : List.Forall₂ ReadsAs (l.map f) (l.map g) := by
  induction l with
  | nil => exact .nil
  | cons x xs ih =>
    obtain ⟨hx, hxs⟩ := List.forall_mem_cons.mp h
    exact .cons hx (ih hxs)

theorem reads_workingNode (lines : ℚ) : ReadsAs (workingNode lines) (workingNode lines) := by
  have hrow : ReadsAs (plainElement "i" []) (plainElement "i" []) :=
    reads_plainElement _ (by decide) (readsInside_elements .nil)
  have hrows := reads_list (l := List.range ⌊lines⌋₊) fun _ _ => hrow
  rw [List.map_const', List.length_range] at hrows
  exact reads_classElement _ _ (by decide) (forall_of_all (by decide))
    (readsInside_elements hrows)

theorem reads_figureNode (diagram : PaperDiagram) :
    ReadsAs (figureNode escapeHtml diagram) (figureNode id diagram) := by
  have himg : ReadsAs
      (.element "img".toList [("src".toList, escapeHtml diagram.imageDataUrl),
        ("alt".toList, escapeHtml diagram.alt)] [])
      (.element "img".toList [("src".toList, diagram.imageDataUrl),
        ("alt".toList, diagram.alt)] []) := by
    have hquote (s : List Char) : '"' ∉ escapeHtml s := by
      rw [escapeHtml_eq]
      exact not_mem_reference (.inr (.inr rfl)) s
    have hread (s : List Char) : readReferences (escapeHtml s) = s := (spells_escapeHtml s).2
    refine ⟨?_, rfl, ?_⟩
    · rw [Node.Proper]
      refine ⟨⟨by decide, forall_of_all (by decide), ?_⟩, fun _ => rfl, trivial⟩
      simp [hquote]
    · simp [Node.decode, Node.decodeForest, hread]
  have hcaption : List.Forall₂ ReadsAs
      (if diagram.caption = [] then [] else [plainElement "figcaption"
        [.text (escapeHtml diagram.caption)]])
      (if diagram.caption = [] then [] else [plainElement "figcaption"
        [.text diagram.caption]]) := by
    split
    · exact .nil
    · next hne =>
      have htext := readsInside_text (mt escapeHtml_eq_nil.mp hne) (spells_escapeHtml _)
      exact .cons (reads_plainElement _ (by decide) htext) .nil
  exact reads_plainElement _ (by decide) (readsInside_elements (.cons himg hcaption))

theorem givenAnswer_ne_nil (answer : List Char) : givenAnswer answer ≠ [] := by
  unfold givenAnswer
  split
  · decide
  · next h => exact h

theorem reads_answerNode (answer : List Char) :
    ReadsAs (answerNode escapeHtml answer) (answerNode id answer) :=
  reads_classElement _ _ (by decide) (forall_of_all (by decide)) (readsInside_text
    (mt escapeHtml_eq_nil.mp (givenAnswer_ne_nil answer)) (spells_escapeHtml _))

variable (hnumber : ∀ q, ∀ c ∈ numberText q, c ≠ '<' ∧ c ≠ '&')
include hnumber

theorem reads_marksNode (marks : ℚ) :
    ReadsAs (marksNode numberText marks) (marksNode numberText marks) := by
  refine reads_plainElement _ (by decide) (readsInside_text (by simp [marksText]) (spells_plain ?_))
  intro c hc
  simp only [marksText, List.mem_append, List.mem_cons, List.not_mem_nil, or_false] at hc
  obtain (rfl | hc) | rfl := hc
  · decide
  · exact hnumber marks c hc
  · decide

theorem reads_subpartNodes (part : PaperSubpart) :
    List.Forall₂ ReadsAs (subpartNodes numberText escapeHtml kind part)
      (subpartNodes numberText id kind part) := by
  have hlabel : ReadsInside [.text ('(' :: escapeHtml part.label ++ [')'])]
      [.text ('(' :: part.label ++ [')'])] :=
    readsInside_text (by simp)
      ((spells_append part.label (p := [')']) (forall_of_all (by decide))).after (p := ['('])
        (forall_of_all (by decide)))
  have hprompt := reads_plainElement "p" (by decide) (readsInside_textNodes part.prompt)
  have hbody := reads_plainElement "div" (by decide)
    (readsInside_elements (.cons hprompt (reads_if (p := kind = .answer)
      (reads_answerNode part.answer))))
  have hlast := reads_marksNode hnumber part.marks
  exact .cons (reads_classElement _ _ (by decide) (forall_of_all (by decide))
    (readsInside_elements
      (.cons (reads_plainElement _ (by decide) hlabel) (.cons hbody (.cons hlast .nil)))))
    (reads_if (reads_workingNode part.workingLines))

theorem reads_questionNode (kind : Kind) (question : PaperQuestion) (index : ℕ) :
    ReadsAs (questionNode numberText escapeHtml kind question index)
      (questionNode numberText id kind question index) := by
  have hplain : ∀ c ∈ questionNumber index, c ≠ '<' ∧ c ≠ '&' := by
    intro c hc
    obtain hc | hc := List.mem_append.mp hc
    · have hdigit := Nat.isDigit_of_mem_toDigits (by decide) (by decide) hc
      constructor <;> rintro rfl <;> cases hdigit
    · obtain rfl : c = '.' := by simpa using hc
      decide
  have hnumberNode := reads_plainElement "strong" (by decide)
    (readsInside_text (by simp [questionNumber]) (spells_plain hplain))
  have hprompt := reads_plainElement "p" (by decide)
    (readsInside_textNodes question.prompt)
  have hrow := reads_classElement "div" "question-row" (by decide)
    (forall_of_all (by decide)) (readsInside_elements (.cons hnumberNode (.cons hprompt
      (.cons (reads_marksNode hnumber question.marks) .nil))))
  have hfigure := reads_list (l := question.diagram.toList) fun diagram _ =>
    reads_figureNode diagram
  have hanswer := reads_if (p := kind = .answer ∧ question.subparts = [])
    (reads_answerNode question.answer)
  have hsubparts : List.Forall₂ ReadsAs
      (question.subparts.flatMap (subpartNodes numberText escapeHtml kind))
      (question.subparts.flatMap (subpartNodes numberText id kind)) := by
    induction question.subparts with
    | nil => exact .nil
    | cons part parts ih => exact List.rel_append (reads_subpartNodes hnumber part) ih
  have hworking := reads_if (p := kind = .question ∧ question.subparts = [])
    (reads_workingNode question.workingLines)
  have hsource := reads_if (p := kind = .answer ∧ question.source ≠ [])
    (reads_plainElement "small" (by decide) (readsInside_text (by simp)
      ((spells_escapeHtml question.source).after (p := "Source note: ".toList)
        (forall_of_all (by decide)))))
  exact reads_classElement _ _ (by decide) (forall_of_all (by decide)) (readsInside_elements
    (.cons hrow (List.rel_append (List.rel_append (List.rel_append (List.rel_append hfigure
      hanswer) hsubparts) hworking) hsource)))

omit hnumber

theorem reads_instructionsNodes (kind : Kind) (paper : GeneratedPaper) :
    List.Forall₂ ReadsAs (instructionsNodes escapeHtml kind paper)
      (instructionsNodes id kind paper) := by
  have hitems := reads_list (l := paper.instructions) fun item _ =>
    reads_plainElement "li" (by decide) (readsInside_textNodes item)
  have htitle := reads_plainElement "h2" (by decide)
    (readsInside_text (by decide)
      (spells_plain (s := "Instructions".toList) (forall_of_all (by decide))))
  exact reads_if (reads_classElement _ _ (by decide) (forall_of_all (by decide))
    (readsInside_elements (.cons htitle
      (.cons (reads_plainElement _ (by decide) (readsInside_elements hitems)) .nil))))

theorem reads_sourcesNodes (numberText : ℚ → List Char) (metadata : PaperMetadata) :
    List.Forall₂ ReadsAs (sourcesNodes numberText escapeHtml metadata)
      (sourcesNodes numberText id metadata) := by
  have hword := reads_plainElement "strong" (by decide)
    (readsInside_text (by decide)
      (spells_plain (s := "Sources:".toList) (forall_of_all (by decide))))
  have hsummary := readsInside_text (by simp)
    ((spells_escapeHtml (sourceSummary numberText metadata.sources)).after (p := [' '])
      (forall_of_all (by decide)))
  unfold sourcesNodes
  split
  · exact .nil
  · refine .cons (reads_classElement _ _ (by decide) (forall_of_all (by decide)) ⟨?_, ?_⟩) .nil
    · rw [Node.ProperForest]
      exact ⟨hword.1, fun htext => absurd htext (by rw [hword.2.1]; decide), hsummary.1⟩
    · rw [Node.decodeForest, hword.2.2]
      exact congrArg _ hsummary.2

theorem reads_optionalNodes (make : List Node → Node) (text : Option (List Char))
    (h : ∀ {raw nodes}, ReadsInside raw nodes → ReadsAs (make raw) (make nodes)) :
    List.Forall₂ ReadsAs (optionalNodes escapeHtml make text) (optionalNodes id make text) := by
  simp only [optionalNodes]
  split
  · exact .nil
  · next hne =>
    exact .cons (h (readsInside_text (mt escapeHtml_eq_nil.mp hne) (spells_escapeHtml _))) .nil

include hnumber

theorem spells_durationText (metadata : PaperMetadata) :
    ∀ c ∈ durationText numberText metadata kind, c ≠ '<' ∧ c ≠ '&' := by
  intro c hc
  unfold durationText at hc
  split at hc
  · rw [List.mem_append, List.mem_append] at hc
    obtain (hc | hc) | hc := hc
    · exact forall_of_all (p := fun c => c ≠ '<' ∧ c ≠ '&') (s := " | Time: ".toList)
        (by decide) c hc
    · exact hnumber _ c hc
    · exact forall_of_all (p := fun c => c ≠ '<' ∧ c ≠ '&') (s := " minutes".toList)
        (by decide) c hc
  · simp at hc

omit hnumber in
theorem boardDetails_ne_nil (metadata : PaperMetadata) : boardDetails metadata ≠ [] := by
  have hboard : boardName metadata.board ≠ [] := by
    cases metadata.board <;> decide
  have hname : (!(boardName metadata.board).isEmpty) = true := by simpa using hboard
  rw [boardDetails, List.filter_cons_of_pos (by exact hname)]
  generalize List.filter _ _ = rest
  cases rest with
  | nil => simpa using hboard
  | cons s rest =>
    rw [List.intercalate_cons_of_ne_nil (by simp)]
    simp [hboard]

omit hnumber in
theorem plain_styleSheet : styleSheet ≠ [] ∧ ∀ c ∈ styleSheet, c ≠ '<' ∧ c ≠ '&' := by
  have hlines : ∀ line ∈ styleSheetLines,
      line.toList.all (fun c => c ≠ '<' ∧ c ≠ '&') = true := by
    decide +kernel
  refine ⟨?_, ?_⟩
  · intro hnil
    have hempty := List.flatMap_eq_nil_iff.mp hnil _ List.mem_cons_self
    revert hempty
    decide
  · intro c hc
    obtain ⟨line, hline, hmem⟩ := List.mem_flatMap.mp hc
    exact forall_of_all (hlines line hline) c hmem

theorem readsInside_paperDocument (kind : Kind) (metadata : PaperMetadata)
    (paper : GeneratedPaper) :
    ReadsInside (paperDocument numberText escapeHtml metadata paper kind)
      (paperDocument numberText id metadata paper kind) := by
  have hmeta : ReadsAs (.element "meta".toList [("charset".toList, "utf-8".toList)] [])
      (.element "meta".toList [("charset".toList, "utf-8".toList)] []) := by
    refine ⟨?_, rfl, ?_⟩
    · rw [Node.Proper]
      exact ⟨⟨by decide, forall_of_all (by decide), by decide⟩, fun _ => rfl, trivial⟩
    · have hvalue : readReferences "utf-8".toList = "utf-8".toList :=
        readReferences_plain (by decide)
      simp only [Node.decode, Node.decodeForest, List.map_cons, List.map_nil, hvalue]
  have hstyle := reads_plainElement "style" (by decide)
    (readsInside_text plain_styleSheet.1 (spells_plain plain_styleSheet.2))
  have htitle := reads_plainElement "title" (by decide)
    (readsInside_textNodes (exportTitle metadata kind))
  have hhead := reads_plainElement "head" (by decide)
    (readsInside_elements (.cons hmeta (.cons htitle (.cons hstyle .nil))))
  have hcustom := reads_optionalNodes (classElement "p" "custom") metadata.headerText
    (reads_classElement _ _ (by decide) (forall_of_all (by decide)))
  have hfooter := reads_optionalNodes (plainElement "footer") metadata.footerText
    (reads_plainElement _ (by decide))
  have hheading := reads_plainElement "h1" (by decide)
    (readsInside_textNodes (exportTitle metadata kind))
  have hsubject := reads_plainElement "p" (by decide)
    (readsInside_elements (.cons (reads_plainElement "strong" (by decide)
      (readsInside_textNodes metadata.subject)) .nil))
  have hdetails := reads_classElement "p" "meta" (by decide) (forall_of_all (by decide))
    (readsInside_text (w := escapeHtml (boardDetails metadata) ++
        durationText numberText metadata kind)
      (by simp [escapeHtml_eq_nil, boardDetails_ne_nil])
      (spells_append (boardDetails metadata) (spells_durationText hnumber metadata)))
  have hheader := reads_plainElement "header" (by decide)
    (readsInside_elements (List.rel_append (List.rel_append hcustom
      (.cons hheading (.cons hsubject (.cons hdetails .nil))))
        (reads_sourcesNodes numberText metadata)))
  have hquestions := reads_list (l := paper.questions.zipIdx) fun p _ =>
    reads_questionNode hnumber kind p.1 p.2
  have hbody := reads_plainElement "body" (by decide)
    (readsInside_elements (.cons hheader (List.rel_append (List.rel_append
      (reads_instructionsNodes kind paper) hquestions) hfooter)))
  have hdeclaration : ReadsAs (.declaration "doctype html".toList)
      (.declaration "doctype html".toList) :=
    ⟨by rw [Node.Proper]; decide, rfl, rfl⟩
  exact readsInside_elements (.cons hdeclaration (.cons (reads_plainElement _ (by decide)
    (readsInside_elements (.cons hhead (.cons hbody .nil)))) .nil))

/-- The exported page of a paper, read again: whatever its texts are, it is made of the elements of
the paper, each with its own text, and of nothing else. -/
theorem exported_paper_reads_back (metadata : PaperMetadata) {paper : GeneratedPaper}
    (hlines : Lined paper) :
    ∃ html, paperHtml numberText metadata paper kind = some html ∧
      Node.readDocument html = some (paperDocument numberText id metadata paper kind) := by
  obtain ⟨hproper, hdecode⟩ := readsInside_paperDocument hnumber kind metadata paper
  exact ⟨_, paperHtml_eq metadata hlines, by rw [Node.readDocument_write hproper, hdecode]⟩

omit hnumber

/-- A prompt that looks like markup. -/
def markupPaper : GeneratedPaper where
  instructions := ["Answer <b>all</b> questions.".toList]
  questions := [{
    id := utf16 "question-1".toList
    prompt := "Is 1 < 2 && \"x\"</p><script>?".toList
    marks := 2
    answer := []
    workingLines := 3
    subparts := []
    diagram := some ⟨"data:image/png;base64,".toList, [], "\" onerror=\"".toList⟩
    source := []
    scheme := none }]

theorem exported_paper_reads_back_markup :
    ∃ html, paperHtml plainPress.numberText plainMetadata markupPaper .question = some html ∧
      Node.readDocument html =
        some (paperDocument plainPress.numberText id plainMetadata markupPaper .question) := by
  refine exported_paper_reads_back ?_ plainMetadata ⟨by decide, by decide⟩
  intro q c hc
  have hdigit := Nat.isDigit_of_mem_toDigits (by decide) (by decide) hc
  constructor <;> rintro rfl <;> cases hdigit

end Read

end Cinder.Worksheets
