import Cinder.Worksheets.PaperPages
set_option autoImplicit false

/-!
Which lines of a paper stay on their pages: a text is kept together on one page, so that one with
more lines than a page has room for runs over the lower edge.
-/

namespace Cinder.Worksheets
open Cinder.Streams Cinder.Ecma

def Op.InRange : Op → Prop
  | .drawText _ piece _ _ y _ _ _ => piece ≠ .other → 0 ≤ y ∧ y ≤ pageTop
  | _ => True

/-- What is drawn from a place on a page is in range if and only if `P` holds. -/
def Prints (P : Prop) (f : Sheet → Sheet) : Prop :=
  ∀ s : Sheet, s.y ≤ pageTop → (f s).y ≤ pageTop ∧
    ∃ ops, (f s).trace = s.trace ++ ops ∧ ((∀ op ∈ ops, op.InRange) ↔ P)

section Rules
variable {P Q : Prop} {f g : Sheet → Sheet}

theorem Prints.comp (hf : Prints P f) (hg : Prints Q g) : Prints (P ∧ Q) fun s => g (f s) := by
  intro s hs
  obtain ⟨hmid, ops, htrace, hP⟩ := hf s hs
  obtain ⟨hend, ops', htrace', hQ⟩ := hg (f s) hmid
  refine ⟨hend, ops ++ ops', ?_, ?_⟩
  · rw [htrace', htrace, List.append_assoc]
  · rw [List.forall_mem_append, hP, hQ]

theorem Prints.iff (hf : Prints P f) (h : P ↔ Q) : Prints Q f := by
  intro s hs
  obtain ⟨hend, ops, htrace, hP⟩ := hf s hs
  exact ⟨hend, ops, htrace, hP.trans h⟩

theorem prints_same : Prints True fun s => s :=
  fun s hs => ⟨hs, [], (List.append_nil _).symm, by simp⟩

theorem Prints.after (hf : Prints True f) (hg : Prints Q g) : Prints Q fun s => g (f s) :=
  (hf.comp hg).iff (iff_of_eq (true_and Q))

theorem Prints.before (hf : Prints P f) (hg : Prints True g) : Prints P fun s => g (f s) :=
  (hf.comp hg).iff (iff_of_eq (and_true P))

theorem prints_ite {c : Prop} [Decidable c] (hf : c → Prints P f) :
    Prints (c → P) fun s => if c then f s else s := by
  by_cases hc : c
  · simpa [hc] using hf hc
  · simpa [hc] using prints_same

theorem prints_foldl {α : Type} {P : α → Prop} {f : α → Sheet → Sheet} {l : List α}
    (hf : ∀ x ∈ l, Prints (P x) (f x)) :
    Prints (∀ x ∈ l, P x) fun s => l.foldl (fun s x => f x s) s := by
  induction l with
  | nil => simpa using prints_same
  | cons x l ih =>
    rw [List.forall_mem_cons] at hf
    exact (hf.1.comp (ih hf.2)).iff List.forall_mem_cons.symm

theorem prints_when {c : Prop} [Decidable c] (hf : c → Prints True f) :
    Prints True fun s => if c then f s else s :=
  (prints_ite hf).iff (by simp)

theorem prints_each {α : Type} {f : α → Sheet → Sheet} {l : List α}
    (hf : ∀ x ∈ l, Prints True (f x)) : Prints True fun s => l.foldl (fun s x => f x s) s :=
  (prints_foldl hf).iff (by simp)

theorem prints_emit (op : Sheet → Op) (h : ∀ s, (op s).InRange) :
    Prints True fun s => s.emit (op s) :=
  fun s hs => ⟨hs, [op s], rfl, by simpa using h s⟩

theorem prints_down (height : ℚ) (h : 0 ≤ height) : Prints True (Sheet.down height) :=
  fun _ hs => ⟨(sub_le_self _ h).trans hs, [], (List.append_nil _).symm, by simp⟩

theorem Prints.lower (hf : Prints P f) (height : Sheet → ℚ) (h : ∀ s, 0 ≤ height s) :
    Prints P fun s => (f s).down (height s) := by
  intro s hs
  obtain ⟨hend, ops, htrace, hP⟩ := hf s hs
  exact ⟨(sub_le_self _ (h s)).trans hend, ops, htrace, hP⟩

end Rules

theorem pageTop_pos : 0 < pageTop := by norm_num [pageTop, a4Height, pageMargin]

theorem contentBottom_pos : 0 < contentBottom := by norm_num [contentBottom]

section Blocks
variable (press : Press) {metadata : PaperMetadata}

def NoHeader (metadata : PaperMetadata) : Prop :=
  strip isWhiteSpace (metadata.headerText.getD []) = []

theorem drawCustomHeader_of_noHeader (h : NoHeader metadata) (s : Sheet) :
    drawCustomHeader press metadata s = s := if_pos h

theorem newPage_of_noHeader (h : NoHeader metadata) (s : Sheet) :
    newPage press metadata s =
      ⟨s.page+1, pageTop, s.trace ++ [.addPage a4Width a4Height]⟩ := by
  rw [newPage, drawCustomHeader_of_noHeader press h]
  exact ite_self _

theorem ensureSpace_spec (h : NoHeader metadata) (height : ℚ) {s : Sheet} (hs : s.y ≤ pageTop) :
    let s' := ensureSpace press metadata height s
    (s'.y = pageTop ∨ (contentBottom ≤ s'.y-height ∧ s'.y ≤ pageTop)) ∧
      ∃ ops, s'.trace = s.trace ++ ops ∧ ∀ op ∈ ops, op.InRange := by
  intro s'
  simp only [s', ensureSpace]
  split
  · rw [newPage_of_noHeader press h]
    exact ⟨.inl rfl, _, rfl, by simp [Op.InRange]⟩
  · next hroom => exact ⟨.inr ⟨not_lt.mp hroom, hs⟩, [], by simp, by simp⟩

theorem prints_ensureSpace (h : NoHeader metadata) (height : ℚ) :
    Prints True (ensureSpace press metadata height) := by
  intro s hs
  obtain ⟨hplace, ops, htrace, hops⟩ := ensureSpace_spec press h height hs
  exact ⟨hplace.elim le_of_eq (·.2), ops, htrace, iff_true_intro hops⟩

theorem drawLines_spec {c : Prop} (op : List Char → Sheet → Op) {lineHeight : ℚ}
    (hheight : 0 < lineHeight)
    (hop : ∀ line (s : Sheet), s.y ≤ pageTop → ((op line s).InRange ↔ (c → 0 ≤ s.y)))
    (lines : List (List Char)) {s : Sheet} (hs : s.y ≤ pageTop) :
    (drawLines op lineHeight lines s).y = s.y-lines.length*lineHeight ∧
      ∃ ops, (drawLines op lineHeight lines s).trace = s.trace ++ ops ∧
        ((∀ o ∈ ops, o.InRange) ↔ (c → lines ≠ [] → 0 ≤ s.y-(lines.length-1)*lineHeight)) := by
  induction lines generalizing s with
  | nil => exact ⟨by simp [drawLines], [], by simp [drawLines], by simp⟩
  | cons line lines ih =>
    have hdown : ((s.emit (op line s)).down lineHeight).y ≤ pageTop :=
      (sub_le_self _ hheight.le).trans hs
    obtain ⟨hy, ops, htrace, hiff⟩ := ih hdown
    have hbelow : ((s.emit (op line s)).down lineHeight).y = s.y-lineHeight := rfl
    rw [hbelow] at hy hiff
    refine ⟨?_, op line s :: ops, ?_, ?_⟩
    · rw [List.length_cons, Nat.cast_succ]
      exact hy.trans (by ring)
    · rw [List.append_cons]
      exact htrace
    · rw [List.forall_mem_cons, hop line s hs, hiff, List.length_cons, Nat.cast_succ]
      have hlines : (0 : ℚ) ≤ lines.length*lineHeight := by positivity
      rw [← imp_and]
      refine imp_congr_right fun _ => ?_
      cases lines with
      | nil => simp
      | cons next lines =>
        constructor
        · rintro ⟨-, hlast⟩ -
          linarith [hlast (List.cons_ne_nil next lines)]
        · intro hlast
          have hlow := hlast (List.cons_ne_nil line _)
          exact ⟨by linarith, fun _ => by linarith⟩

def FitsPage (press : Press) (value : List Char) (options : TextOptions) : Prop :=
  ((wrappedLines press value options).length-1)*options.lineHeight ≤ pageTop

theorem prints_drawWrapped (h : NoHeader metadata) (piece : Piece) (value : List Char)
    (options : TextOptions) (hheight : 0 < options.lineHeight) (hgap : 0 ≤ options.gapAfter) :
    Prints (piece ≠ .other → FitsPage press value options)
      (drawWrapped press metadata piece value options) := by
  intro s hs
  obtain ⟨hplace, ops, htrace, hops⟩ :=
    ensureSpace_spec press h (wrappedHeight press value options) hs
  have htop := hplace.elim le_of_eq (·.2)
  obtain ⟨hy, ops', htrace', hiff⟩ := drawLines_spec (fun line s =>
    .drawText s.page piece line options.x s.y options.size options.face (some options.color))
    hheight (fun line s hs => imp_congr_right fun _ => and_iff_left hs)
    (wrappedLines press value options) htop
  have hlines : (0 : ℚ) ≤ (wrappedLines press value options).length*options.lineHeight := by
    positivity
  refine ⟨?_, ops ++ ops', ?_, ?_⟩
  · simp only [drawWrapped, Sheet.down, hy]
    linarith
  · rw [← List.append_assoc, ← htrace]
    exact htrace'
  · rw [List.forall_mem_append, and_iff_right hops, hiff, FitsPage]
    refine imp_congr_right fun _ => ?_
    constructor
    · intro hlast
      by_cases hnil : wrappedLines press value options = []
      · rw [hnil, List.length_nil, Nat.cast_zero]
        linarith [pageTop_pos]
      · linarith [hlast hnil]
    · intro hfits _
      have hneeded : wrappedHeight press value options =
        (wrappedLines press value options).length*options.lineHeight+options.gapAfter := rfl
      rcases hplace with htop | ⟨hroom, -⟩
      · rw [htop]
        linarith
      · linarith [contentBottom_pos]

theorem prints_other (h : NoHeader metadata) (value : List Char) (options : TextOptions)
    (hheight : 0 < options.lineHeight) (hgap : 0 ≤ options.gapAfter) :
    Prints True (drawWrapped press metadata .other value options) :=
  (prints_drawWrapped press h .other value options hheight hgap).iff (by simp)

def SchemeFits (press : Press) (scheme : Option PaperScheme) (x : ℚ) : Prop :=
  ∀ line ∈ schemeLines press.numberText scheme [],
    FitsPage press line (schemeOptions x (a4Width-pageMargin-x))

theorem prints_drawScheme (h : NoHeader metadata) (scheme : Option PaperScheme) (x : ℚ) :
    Prints (SchemeFits press scheme x) (drawScheme press metadata scheme x) := by
  refine prints_foldl fun line _ => ?_
  exact (prints_ensureSpace press h _).after ((prints_drawWrapped press h .scheme line _
    (by norm_num [schemeOptions]) (by norm_num [schemeOptions])).iff (by simp))

theorem prints_drawMark (marks : ℚ) : Prints True fun s => drawMark press marks s.y s :=
  prints_emit _ fun s => by simp [Op.InRange]

theorem prints_drawWorkingLines (h : NoHeader metadata) (workingLines x : ℚ) :
    Prints True (drawWorkingLines press metadata workingLines x) := by
  have hline : ∀ _ : ℕ, Prints True fun s =>
      let s := (ensureSpace press metadata 18 s).down 12
      (s.emit (.drawLine s.page (x, s.y) (a4Width-pageMargin, s.y) 0.35 (grey 0.78))).down 6 := by
    intro _
    have hspace := (prints_ensureSpace press h 18).after (prints_down 12 (by norm_num))
    have hdrawn := hspace.after (prints_emit (fun s =>
      .drawLine s.page (x, s.y) (a4Width-pageMargin, s.y) 0.35 (grey 0.78)) fun _ => trivial)
    exact hdrawn.after (prints_down 6 (by norm_num))
  exact prints_each fun n _ => hline n

def ScalesUp (press : Press) : Prop :=
  ∀ bytes width height, 0 ≤ (press.scaleToFit bytes width height).2

theorem prints_drawDiagram (h : NoHeader metadata) (hscale : ScalesUp press)
    (diagram : PaperDiagram) : Prints True (drawDiagram press metadata diagram) := by
  unfold drawDiagram
  generalize ((press.diagramToPng diagram).bind fun png =>
    png.elim (.ok none) fun bytes => (press.embedPng bytes).map fun _ => some bytes) = png
  cases png with
  | error _ => exact prints_other press h _ _ (by norm_num) (by norm_num)
  | ok png =>
    cases png with
    | none => exact prints_same
    | some bytes =>
      have hheight := hscale bytes (min 370 (contentWidth-40)) 185
      let size := press.scaleToFit bytes (min 370 (contentWidth-40)) 185
      have hspace := prints_ensureSpace press h (size.2+26)
      have himage := hspace.after (prints_emit (fun s => .drawImage s.page bytes
        (pageMargin+(contentWidth-size.1)/2) (s.y-size.2) size.1 size.2) fun _ => trivial)
      have hdown := himage.after (prints_down (size.2+5) (add_nonneg hheight (by norm_num)))
      have hcaption := prints_other press h diagram.caption captionOptions
        (by norm_num [captionOptions]) (by norm_num [captionOptions])
      by_cases hnone : diagram.caption = []
      · simp only [if_pos hnone]
        exact hdown
      · simp only [if_neg hnone]
        exact hdown.after hcaption

structure SubpartFits (press : Press) (kind : Kind) (part : PaperSubpart) : Prop where
  text : FitsPage press (subpartText kind part) subpartOptions
  scheme : kind = .answer → SchemeFits press part.scheme (pageMargin+62)

theorem prints_drawSubpart (h : NoHeader metadata) (kind : Kind) (part : PaperSubpart) :
    Prints (SubpartFits press kind part) (drawSubpart press metadata kind part) := by
  have hlabel (height : ℚ) := (prints_ensureSpace press h height).after (prints_emit (fun s =>
    .drawText s.page .other ('(' :: pdfSafeText press.decomposition part.label ++ [')'])
      (pageMargin+24) s.y 10 .regular none) fun s => by simp [Op.InRange])
  have hmark (height : ℚ) := (hlabel height).after (prints_drawMark press part.marks)
  have htext (height : ℚ) := (hmark height).after (prints_drawWrapped press h (subpartPiece kind)
    (subpartText kind part) subpartOptions (by norm_num [subpartOptions])
    (by norm_num [subpartOptions]))
  cases kind with
  | question =>
    have hrest := prints_drawWorkingLines press h part.workingLines (pageMargin+50)
    exact ((htext _).before hrest).iff
      ⟨fun hfits => ⟨hfits (by decide), by simp⟩, fun hfits _ => hfits.text⟩
  | answer =>
    have hrest := prints_drawScheme press h part.scheme (pageMargin+62)
    exact ((htext _).comp hrest).iff
      ⟨fun hfits => ⟨hfits.1 (by decide), fun _ => hfits.2⟩,
        fun hfits => ⟨fun _ => hfits.text, hfits.scheme rfl⟩⟩

theorem prints_drawPrompt (h : NoHeader metadata) (hscale : ScalesUp press)
    (question : PaperQuestion) (index : ℕ) :
    Prints (FitsPage press question.prompt promptOptions)
      (drawPrompt press metadata question index) := by
  have hlabel := prints_emit (fun s =>
    .drawText s.page .other (questionNumber index) pageMargin s.y 11 .bold none)
    fun s => by simp [Op.InRange]
  have hmark := hlabel.after (prints_drawMark press question.marks)
  have hprompt := hmark.after (prints_drawWrapped press h .prompt question.prompt promptOptions
    (by norm_num [promptOptions]) (by norm_num [promptOptions]))
  have hfits := hprompt.iff (forall_prop_of_true (by decide))
  unfold drawPrompt
  cases question.diagram with
  | none => exact hfits
  | some diagram => exact hfits.before (prints_drawDiagram press h hscale diagram)

/-- No text of a question has more lines than a page has room for. -/
structure QuestionFits (press : Press) (kind : Kind) (question : PaperQuestion) : Prop where
  prompt : FitsPage press question.prompt promptOptions
  answer : kind = .answer ∧ question.subparts = [] →
    FitsPage press (answerText question.answer) answerOptions
  scheme : kind = .answer → SchemeFits press question.scheme (pageMargin+36)
  subparts : ∀ part ∈ question.subparts, SubpartFits press kind part

theorem gap_nonneg (c : Prop) [Decidable c] : (0 : ℚ) ≤ if c then 14 else 9 := by
  split <;> norm_num

theorem prints_drawQuestion (h : NoHeader metadata) (hscale : ScalesUp press) (kind : Kind)
    (question : PaperQuestion) (index : ℕ) :
    Prints (QuestionFits press kind question)
      (drawQuestion press metadata kind question index) := by
  have hspace := prints_ensureSpace press h (if estimatedHeight press kind question ≤ pageCapacity
    then estimatedHeight press kind question
    else max 80 (wrappedHeight press question.prompt promptOptions+20))
  have hprompt := hspace.after (prints_drawPrompt press h hscale question index)
  have hanswer := hprompt.comp (prints_ite (c := kind = .answer ∧ question.subparts = []) fun _ =>
    (prints_drawWrapped press h .answer (answerText question.answer) answerOptions
      (by norm_num [answerOptions]) (by norm_num [answerOptions])).iff
        (forall_prop_of_true (by decide)))
  have hscheme := hanswer.comp (prints_ite (c := kind = .answer) fun _ =>
    prints_drawScheme press h question.scheme (pageMargin+36))
  have hparts := hscheme.comp (prints_foldl (l := question.subparts) fun part _ =>
    prints_drawSubpart press h kind part)
  have hlines := hparts.before (prints_when (c := question.subparts = [] ∧ kind = .question)
    fun _ => prints_drawWorkingLines press h question.workingLines (pageMargin+24))
  have hsource := hlines.before (prints_when (c := kind = .answer ∧ question.source ≠ []) fun _ =>
    prints_other press h (sourceNote question.source) sourceOptions (by norm_num [sourceOptions])
      (by norm_num [sourceOptions]))
  have hall := hsource.iff (Q := QuestionFits press kind question)
    ⟨fun ⟨⟨⟨hp, ha⟩, hs⟩, hq⟩ => ⟨hp, ha, hs, hq⟩,
      fun hfits => ⟨⟨⟨hfits.prompt, hfits.answer⟩, hfits.scheme⟩, hfits.subparts⟩⟩
  exact hall.lower _ fun s => gap_nonneg _

theorem prints_drawCustomHeader (h : NoHeader metadata) :
    Prints True (drawCustomHeader press metadata) := by
  intro s hs
  rw [drawCustomHeader_of_noHeader press h]
  exact prints_same s hs

theorem prints_drawTitle (h : NoHeader metadata) (kind : Kind) :
    Prints True (drawTitle press metadata kind) := by
  have hother (value : List Char) (options : TextOptions) (hheight : 0 < options.lineHeight)
      (hgap : 0 ≤ options.gapAfter) := prints_other press h value options hheight hgap
  let title := documentTitle metadata kind
  have hhead := (prints_drawCustomHeader press h).after (hother
    (if title = [] then "Question paper".toList else title)
    { size := 19, lineHeight := 23, strong := true, gapAfter := 5 } (by norm_num) (by norm_num))
  have hsubject := hhead.after (hother metadata.subject
    { size := 11, strong := true, gapAfter := 2 } (by norm_num) (by norm_num))
  have hboard := hsubject.after (hother (boardDetails metadata)
    { size := 8.8, color := grey 0.28 } (by norm_num) (by norm_num))
  have htime := hboard.after (prints_when (c := kind = .question ∧ 0 < metadata.durationMinutes)
    fun _ => hother (timeText press.numberText metadata) { size := 8.8 } (by norm_num)
      (by norm_num))
  have hline := (prints_emit (fun s => .drawLine s.page (pageMargin, s.y) (a4Width-pageMargin, s.y)
    0.75 (grey 0.7)) fun _ => trivial).after (prints_down 15 (by norm_num))
  have hsources : Prints True fun s => if metadata.sources = [] then s.down 7
      else drawWrapped press metadata .other (sourcesText press.numberText metadata)
        { size := 8, lineHeight := 11, color := grey 0.3, gapAfter := 6 } s := by
    split
    · exact prints_down 7 (by norm_num)
    · exact hother _ _ (by norm_num) (by norm_num)
  exact (htime.after hsources).after hline

theorem prints_drawInstructions (h : NoHeader metadata) (instructions : List (List Char)) :
    Prints True (drawInstructions press metadata instructions) := by
  have hhead := prints_other press h "Instructions".toList
    { size := 10, strong := true, gapAfter := 2 } (by norm_num) (by norm_num)
  have hlines := hhead.after (prints_each (l := instructions) fun instruction _ =>
    prints_other press h ('-' :: ' ' :: instruction)
      { x := pageMargin+8, width := contentWidth-8, size := 9.3 } (by norm_num) (by norm_num))
  exact hlines.after (prints_down 8 (by norm_num))

theorem prints_drawQuestions (h : NoHeader metadata) (hscale : ScalesUp press) (kind : Kind)
    (questions : List PaperQuestion) :
    Prints (∀ question ∈ questions, QuestionFits press kind question)
      (drawQuestions press metadata kind questions) := by
  have hall := prints_foldl (l := questions.zipIdx) fun p _ =>
    prints_drawQuestion press h hscale kind p.1 p.2
  refine hall.iff ⟨fun hfits question hquestion => ?_, fun hfits p hp => ?_⟩
  · obtain ⟨i, hi, rfl⟩ := List.getElem_of_mem hquestion
    exact hfits (questions[i], i) (List.mk_mem_zipIdx_iff_getElem?.mpr (by simp [hi]))
  · exact hfits p.1 (List.fst_mem_of_mem_zipIdx hp)

theorem footers_inRange (pages : ℕ) : ∀ op ∈ footers press metadata pages, op.InRange := by
  intro op hop
  obtain ⟨index, -, hop⟩ := List.mem_flatMap.mp hop
  rcases List.mem_append.mp hop with hop | hop
  · split at hop
    · simp [List.mem_singleton.mp hop, Op.InRange]
    · cases hop
  · simp [List.mem_singleton.mp hop, Op.InRange]

theorem forall_createPaperPdf_iff (h : NoHeader metadata) (hscale : ScalesUp press)
    (paper : GeneratedPaper) (kind : Kind) :
    (∀ op ∈ createPaperPdf press metadata paper kind, op.InRange) ↔
      ∀ question ∈ paper.questions, QuestionFits press kind question := by
  have hstart : (startPaper press metadata kind).y ≤ pageTop := le_rfl
  have hhead := (prints_drawTitle press h kind).after (prints_when
    (c := kind = .question ∧ paper.instructions ≠ []) fun _ =>
      prints_drawInstructions press h paper.instructions)
  obtain ⟨-, ops, htrace, hiff⟩ :=
    (hhead.after (prints_drawQuestions press h hscale kind paper.questions)) _ hstart
  have hsetup : ∀ op ∈ (startPaper press metadata kind).trace, op.InRange := by
    simp only [startPaper, List.forall_mem_cons]
    exact ⟨trivial, trivial, trivial, trivial, List.forall_mem_nil _⟩
  rw [← hiff, createPaperPdf]
  dsimp only at htrace ⊢
  rw [htrace, List.forall_mem_append, List.forall_mem_append]
  exact ⟨fun hall => hall.1.2, fun hops => ⟨⟨hsetup, hops⟩, footers_inRange press _⟩⟩

end Blocks

structure LinesFit (press : Press) (kind : Kind) (question : PaperQuestion) : Prop where
  prompt : (wrappedLines press question.prompt promptOptions).length ≤ 53
  answer : kind = .answer ∧ question.subparts = [] →
    (wrappedLines press (answerText question.answer) answerOptions).length ≤ 57
  scheme : kind = .answer → ∀ line ∈ schemeLines press.numberText question.scheme [],
    (wrappedLines press line (schemeOptions (pageMargin+36) (contentWidth-36))).length ≤ 72
  subparts : ∀ part ∈ question.subparts,
    (wrappedLines press (subpartText kind part) subpartOptions).length ≤ 56
  subpart_schemes : kind = .answer → ∀ part ∈ question.subparts,
    ∀ line ∈ schemeLines press.numberText part.scheme [],
      (wrappedLines press line (schemeOptions (pageMargin+62) (contentWidth-62))).length ≤ 72

theorem fitsPage_iff (press : Press) (value : List Char) (options : TextOptions) (n : ℕ)
    (hroom : ((n : ℚ)-1)*options.lineHeight ≤ pageTop) (hfull : pageTop < n*options.lineHeight) :
    FitsPage press value options ↔ (wrappedLines press value options).length ≤ n := by
  have hheight : 0 < options.lineHeight := by linarith
  rw [FitsPage]
  constructor
  · intro h
    by_contra hmore
    have hlarge : (n : ℚ)+1 ≤ (wrappedLines press value options).length := by
      exact_mod_cast not_le.mp hmore
    nlinarith
  · intro h
    have hsmall : ((wrappedLines press value options).length : ℚ) ≤ n := by exact_mod_cast h
    nlinarith

theorem schemeFits_iff (press : Press) (scheme : Option PaperScheme) (offset : ℚ) :
    SchemeFits press scheme (pageMargin+offset) ↔ ∀ line ∈ schemeLines press.numberText scheme [],
      (wrappedLines press line (schemeOptions (pageMargin+offset) (contentWidth-offset))).length ≤
        72 := by
  have hwidth : a4Width-pageMargin-(pageMargin+offset) = contentWidth-offset := by
    rw [contentWidth]
    ring
  rw [SchemeFits, hwidth]
  refine forall₂_congr fun line _ => fitsPage_iff press line _ 72 ?_ ?_
  · norm_num [schemeOptions, pageTop, a4Height, pageMargin]
  · norm_num [schemeOptions, pageTop, a4Height, pageMargin]

theorem questionFits_iff (press : Press) (kind : Kind) (question : PaperQuestion) :
    QuestionFits press kind question ↔ LinesFit press kind question := by
  have hprompt := fitsPage_iff press question.prompt promptOptions 53
    (by norm_num [promptOptions, pageTop, a4Height, pageMargin])
    (by norm_num [promptOptions, pageTop, a4Height, pageMargin])
  have hanswer := fitsPage_iff press (answerText question.answer) answerOptions 57
    (by norm_num [answerOptions, pageTop, a4Height, pageMargin])
    (by norm_num [answerOptions, pageTop, a4Height, pageMargin])
  have htext (part : PaperSubpart) :=
    fitsPage_iff press (subpartText kind part) subpartOptions 56
      (by norm_num [subpartOptions, pageTop, a4Height, pageMargin])
      (by norm_num [subpartOptions, pageTop, a4Height, pageMargin])
  constructor
  · intro h
    exact ⟨hprompt.mp h.prompt, fun hc => hanswer.mp (h.answer hc),
      fun hc => (schemeFits_iff press _ 36).mp (h.scheme hc),
      fun part hpart => (htext part).mp (h.subparts part hpart).text,
      fun hc part hpart => (schemeFits_iff press _ 62).mp ((h.subparts part hpart).scheme hc)⟩
  · intro h
    exact ⟨hprompt.mpr h.prompt, fun hc => hanswer.mpr (h.answer hc),
      fun hc => (schemeFits_iff press _ 36).mpr (h.scheme hc),
      fun part hpart => ⟨(htext part).mpr (h.subparts part hpart),
        fun hc => (schemeFits_iff press _ 62).mpr (h.subpart_schemes hc part hpart)⟩⟩

/-- Every line of a question, an answer or a scheme is on its page if and only if no such text has
more lines than a page has room for. -/
theorem createPaperPdf_inRange_iff (press : Press) {metadata : PaperMetadata}
    (h : NoHeader metadata) (hscale : ScalesUp press) (paper : GeneratedPaper) (kind : Kind) :
    (∀ op ∈ createPaperPdf press metadata paper kind, op.InRange) ↔
      ∀ question ∈ paper.questions, LinesFit press kind question := by
  rw [forall_createPaperPdf_iff press h hscale]
  exact forall₂_congr fun question _ => questionFits_iff press kind question

section LongPrompts

theorem noHeader_plain : NoHeader plainMetadata := rfl

theorem scalesUp_plain : ScalesUp plainPress := fun _ _ _ => le_refl (0 : ℚ)

theorem createPaperPdf_inRange_iff_sample :
    (∀ op ∈ createPaperPdf plainPress plainMetadata
        ⟨[], [⟨utf16 ['q'], ['W'], 1, ['W'], 2, [], none, [], none⟩]⟩ .answer, op.InRange) ↔
      ∀ question ∈ [(⟨utf16 ['q'], ['W'], 1, ['W'], 2, [], none, [], none⟩ : PaperQuestion)],
        LinesFit plainPress .answer question :=
  createPaperPdf_inRange_iff plainPress noHeader_plain scalesUp_plain
    ⟨[], [⟨utf16 ['q'], ['W'], 1, ['W'], 2, [], none, [], none⟩]⟩ .answer

variable {width : List Char → ℚ} {maxWidth : ℚ} {word : List Char}

theorem fillLines_replicate (hne : word ≠ []) (hone : width word ≤ maxWidth)
    (htwo : maxWidth < width (word ++ ' ' :: word)) (n : ℕ) :
    fillLines width maxWidth word (List.replicate n word) = List.replicate (n+1) word := by
  induction n with
  | zero => simp [fillLines, push, hne]
  | succ n ih =>
    rw [List.replicate_succ, fillLines]
    simp only [hne, if_false, if_pos hone, if_neg (not_le.mpr htwo), push, ih]
    rfl

def longWord : List Char := List.replicate 22 'W'

def longPrompt : List Char := joined (List.replicate 54 longWord)

theorem mem_joined {ws : List (List Char)} {c : Char} (h : c ∈ joined ws) :
    c = ' ' ∨ ∃ w ∈ ws, c ∈ w := by
  induction ws with
  | nil => cases h
  | cons w ws ih =>
    cases ws with
    | nil => exact .inr ⟨w, List.mem_cons_self, by simpa [joined] using h⟩
    | cons v ws =>
      rw [joined, List.intercalate_cons_cons, List.append_assoc, List.mem_append,
        List.mem_append, List.mem_singleton] at h
      rcases h with h | rfl | h
      · exact .inr ⟨w, List.mem_cons_self, h⟩
      · exact .inl rfl
      · obtain hblank | ⟨u, hu, hc⟩ := ih h
        · exact .inl hblank
        · exact .inr ⟨u, List.mem_cons_of_mem _ hu, hc⟩

theorem mem_longPrompt {c : Char} (h : c ∈ longPrompt) : c = ' ' ∨ c = 'W' := by
  obtain hblank | ⟨w, hw, hc⟩ := mem_joined h
  · exact .inl hblank
  · rw [List.eq_of_mem_replicate hw] at hc
    exact .inr (List.eq_of_mem_replicate hc)

theorem wrappedLines_longPrompt :
    wrappedLines plainPress longPrompt promptOptions = List.replicate 54 longWord := by
  have hprint : ∀ c ∈ longPrompt, isPrintable c = true := by
    intro c hc
    rcases mem_longPrompt hc with rfl | rfl <;> decide
  have hwords : words longPrompt = List.replicate 54 longWord := by
    refine words_joined fun w hw => ?_
    rw [List.eq_of_mem_replicate hw]
    exact ⟨by decide, fun c hc => by rw [List.eq_of_mem_replicate hc]; decide⟩
  have hone : helvetica longWord 10.5 ≤ promptOptions.width := by decide +kernel
  have htwo : promptOptions.width < helvetica (longWord ++ ' ' :: longWord) 10.5 := by
    decide +kernel
  have hne : longWord ≠ [] := by decide
  change wrapLine asciiDecomposition longPrompt promptOptions.width helvetica 10.5 = _
  rw [wrapLine, words_strip, pdfSafeText_printable _ hprint, hwords]
  rw [if_neg (by decide), List.replicate_succ, fillLines]
  simp only [if_true, if_pos hone]
  exact fillLines_replicate hne hone htwo 53

def promptOnly (prompt : List Char) : PaperQuestion :=
  ⟨utf16 (safeId 0), prompt, 1, [], 2, [], none, [], some emptyScheme⟩

theorem normalizeGeneratedPaper_prompt {prompt : List Char} (hne : prompt ≠ [])
    (hprompt : takeUnits 8000 (cleanText prompt) = prompt) :
    normalizeGeneratedPaper (.array [.object [("prompt".toList, .string prompt)]]) =
      .ok ⟨[], [promptOnly prompt]⟩ := by
  have hclean : promptOf (.object [("prompt".toList, .string prompt)]) = cleanText prompt := rfl
  have hquestion : normalizeQuestion (.object [("prompt".toList, .string prompt)]) 0 =
      some (promptOnly prompt) := by
    have hkept : (!isObject (.object [("prompt".toList, .string prompt)]) || prompt.isEmpty) =
        false := by simp [isObject, hne]
    simp only [normalizeQuestion, hclean, hprompt, hkept]
    rfl
  have hquestions : normalizeQuestions [.object [("prompt".toList, .string prompt)]] =
      [promptOnly prompt] := by
    change ([_].filterMap _) = _
    simp only [List.filterMap_cons, List.filterMap_nil, hquestion]
  have hitems : items? (field (paperCandidate (paperRoot (.array
      [.object [("prompt".toList, .string prompt)]]))) "questions") =
        some [.object [("prompt".toList, .string prompt)]] := rfl
  simp only [normalizeGeneratedPaper, hitems, hquestions]
  rfl

theorem cleanText_longPrompt : takeUnits 8000 (cleanText longPrompt) = longPrompt := by
  have hplain : ∀ c ∈ longPrompt, isMark c = false := by
    intro c hc
    rcases mem_longPrompt hc with rfl | rfl <;> decide
  have hends : strip isWhiteSpace longPrompt = longPrompt := by decide +kernel
  rw [cleanText_plain hplain, hends]
  exact takeUnits_eq_self (by decide +kernel)

/-- A page has no room for the last line of a prompt of 54 lines. -/
theorem long_prompt_runs_over :
    normalizeGeneratedPaper (.array [.object [("prompt".toList, .string longPrompt)]]) =
        .ok ⟨[], [promptOnly longPrompt]⟩ ∧
      ¬ ∀ op ∈ createPaperPdf plainPress plainMetadata
        ⟨[], [promptOnly longPrompt]⟩ .question,
          op.InRange := by
  refine ⟨normalizeGeneratedPaper_prompt (by decide) cleanText_longPrompt, fun h => ?_⟩
  rw [forall_createPaperPdf_iff plainPress noHeader_plain scalesUp_plain] at h
  have hlines := ((questionFits_iff _ _ _).mp (h _ List.mem_cons_self)).prompt
  rw [promptOnly, wrappedLines_longPrompt, List.length_replicate] at hlines
  omega

end LongPrompts

end Cinder.Worksheets
