import Cinder.Ecma.JsonValues
import Cinder.Ecma.PatternContexts
set_option autoImplicit false

/-!
Diagrams as SVG texts: what makes a text be rejected, what is then deleted from it and put into it.
What is put in makes no difference to the tests.
-/

namespace Cinder.Worksheets
open Cinder.Streams Cinder.Ecma

section Tests

def allowedSvgTags : List (List Char) :=
  ["svg", "g", "line", "rect", "circle", "ellipse", "polyline", "polygon", "path", "text"].map
    (·.toList)

def svgStart : Pattern := .seqs [.start, .word "<svg".toList, .boundary]

def svgEnd : Pattern := .seqs [.word "</svg>".toList, .star true isWhiteSpace, .stop]

def activeContent : Pattern :=
  .oneOf [.word "<!doctype".toList, .word "<?xml".toList, .word "<script".toList,
    .word "<style".toList, .word "<foreignobject".toList, .word "<image".toList,
    .word "<use".toList, .seq (.word "<a".toList) .boundary, .word "<iframe".toList,
    .word "<object".toList, .word "<embed".toList]

def isNameChar (c : Char) : Bool := isWordChar c || c = ':' || c = '-'

def svgTag : Pattern :=
  .seqs [.char (· = '<'), .opt (.char (· = '/')), .star true isWhiteSpace,
    .group 1 (.seq (.char (·.isAlpha)) (.star true isNameChar)), .boundary]

def blanksAndEquals : Pattern := .seq (.star true isWhiteSpace) (.char (· = '='))

def activeAttribute : Pattern :=
  .oneOf [.seqs [.boundary, .word "on".toList, .plus (·.isAlpha), blanksAndEquals],
    .seqs [.boundary, .oneOf [.word "href".toList, .word "xlink:href".toList, .word "src".toList,
      .word "style".toList], blanksAndEquals],
    .seqs [.word "url".toList, .star true isWhiteSpace, .char (· = '(')],
    .word "javascript:".toList, .word "data:".toList]

def tagNames (svg : List Char) : List (List Char) :=
  (matchAll svgTag svg).map fun r => ((r.text? 1).getD []).map Char.toLower

def isHarmless (svg : List Char) : Bool :=
  !activeContent.test svg && (tagNames svg).all (fun tag => allowedSvgTags.contains tag) &&
    !activeAttribute.test svg

def passesTests (svg : List Char) : Bool := svgStart.test svg && svgEnd.test svg && isHarmless svg

end Tests

section Edits

def svgComment : Pattern :=
  .seqs [.literal "<!--".toList, .star false (fun _ => true), .literal "-->".toList]

def isQuote (c : Char) : Bool := c = '"' || c = '\''

def sizeAttribute : Pattern :=
  .seqs [.char isWhiteSpace, .oneOf [.word "width".toList, .word "height".toList,
      .word "xmlns".toList], blanksAndEquals, .star true isWhiteSpace, .char isQuote,
    .star true (fun c => !isQuote c), .char isQuote]

/-- The text without comments and without the attributes that are set anew. -/
def strippedSvg (svg : List Char) : List Char :=
  replaceAll sizeAttribute (fun _ => []) (replaceAll svgComment (fun _ => []) svg)

def sizedStart : List Char :=
  "<svg xmlns=\"http://www.w3.org/2000/svg\" width=\"720\" height=\"360\"".toList

def viewBoxStart : List Char := "<svg viewBox=\"0 0 720 360\"".toList

def viewBoxAttribute : Pattern := .seqs [.boundary, .literal "viewBox".toList, blanksAndEquals]

/-- The text up to its first `>`. -/
def firstTag : List Char → List Char
  | [] => []
  | c :: s => if c = '>' then [c] else c :: firstTag s

def withSize (svg : List Char) : List Char :=
  let svg := replaceFirst svgStart (fun _ => sizedStart) svg
  let first := if '>' ∈ svg then firstTag svg else []
  if viewBoxAttribute.test first then svg
  else replaceFirst svgStart (fun _ => viewBoxStart) svg

def trimmedSvg (value : List Char) : List Char := takeUnits 24000 (strip isWhiteSpace value)

def sanitizeDiagramSvg (value : Option Json) : List Char :=
  match value with
  | some (.string s) =>
    -- behind half a character there is no `</svg>` at the end
    if halfLeft 24000 (strip isWhiteSpace s) = [] && passesTests (trimmedSvg s) then
      withSize (strippedSvg (trimmedSvg s))
    else []
  | _ => []

end Edits

section Start
variable {b : Pattern} {f : Reading → List Char}

theorem replaceFirstFrom_later (c : Char) (before s : List Char) :
    replaceFirstFrom (.seq .start b) f (c :: before) s = s := by
  induction s generalizing c before with
  | nil => rfl
  | cons d s ih =>
    have hnone : (Pattern.seq .start b).run ⟨c :: before, d :: s, []⟩ = [] := rfl
    rw [replaceFirstFrom, hnone]
    exact congrArg (d :: ·) (ih d (c :: before))

theorem replaceFirst_start (s : List Char) :
    replaceFirst (.seq .start b) f s =
      ((b.run ⟨[], s, []⟩).head?).elim s fun r => f r ++ r.rest := by
  have hfirst : (Pattern.seq .start b).run ⟨[], s, []⟩ = b.run ⟨[], s, []⟩ := List.append_nil _
  cases s with
  | nil =>
    rw [replaceFirst, replaceFirstFrom, hfirst]
    cases hrun : (b.run ⟨[], [], []⟩).head? with
    | none => rfl
    | some r =>
      obtain ⟨t, g, hrest, -⟩ := Pattern.mem_run_iff.mp (List.mem_of_head? hrun)
      have hnil := (List.append_eq_nil_iff.mp hrest.symm).2
      simp [hnil]
  | cons c s =>
    rw [replaceFirst, replaceFirstFrom, hfirst, replaceFirstFrom_later]
    cases (b.run ⟨[], c :: s, []⟩).head? <;> rfl

theorem rest_of_svgStart {s : List Char} {r : Reading}
    (h : ((Pattern.seqs [.word "<svg".toList, .boundary]).run ⟨[], s, []⟩).head? = some r) :
    r.rest = s.drop 4 := by
  obtain ⟨t, g, hrest, -, -, t₁, t₂, g₁, g₂, rfl, -, hword, t₃, t₄, g₃, g₄, rfl, -, hb,
      hempty⟩ :=
    Pattern.mem_run_iff.mp (List.mem_of_head? h)
  obtain ⟨hletters, -⟩ := Pattern.way_word.mp hword
  have hlength : t₁.length = 4 := hletters.length_eq.symm
  obtain ⟨rfl, -⟩ := hb
  obtain ⟨rfl, -⟩ := hempty
  simp only [List.append_nil] at hrest
  rw [hrest, ← hlength, List.drop_left]

theorem replaceFirst_svgStart (text s : List Char) :
    replaceFirst svgStart (fun _ => text) s =
      if svgStart.test s then text ++ s.drop 4 else s := by
  have hexec : svgStart.exec s =
      ((Pattern.seqs [.word "<svg".toList, .boundary]).run ⟨[], s, []⟩).head? :=
    Pattern.exec_start _ s
  have hreplace : replaceFirst svgStart (fun _ => text) s =
      (((Pattern.seqs [.word "<svg".toList, .boundary]).run ⟨[], s, []⟩).head?).elim s
        fun r => text ++ r.rest := replaceFirst_start s
  rw [hreplace, Pattern.test, hexec]
  cases hrun : ((Pattern.seqs [.word "<svg".toList, .boundary]).run ⟨[], s, []⟩).head? with
  | none => rfl
  | some r => simp [rest_of_svgStart hrun]

end Start

section Sized

def startTexts : List (List Char) := [sizedStart, viewBoxStart ++ sizedStart.drop 4]

theorem svgStart_startTexts {u : List Char} (hu : u ∈ startTexts) (s : List Char) :
    svgStart.test (u ++ s) = true := by
  rcases List.mem_pair.mp hu with rfl | rfl
  · rfl
  · rfl

/-- In a text that is put in place of the start, and behind its first `<`, nothing is found. -/
theorem fails_startTexts {u : List Char} (hu : u ∈ startTexts) :
    svgEnd.fails u = true ∧ activeContent.fails u = true ∧ activeAttribute.fails u = true ∧
      svgTag.fails (u.drop 4) = true ∧ u.reverse.head?.any isWordChar = false := by
  rcases List.mem_pair.mp hu with rfl | rfl
  · decide +kernel
  · decide +kernel

theorem tagNames_append {u : List Char} (hu : u ∈ startTexts) (s : List Char) :
    tagNames (u ++ s) = "svg".toList :: tagNames s := by
  obtain ⟨-, -, -, hfails, hend⟩ := fails_startTexts hu
  have hfirst : matchesFrom svgTag 0 [] (u ++ s) =
      ⟨['g', 'v', 's', '<'], u.drop 4 ++ s, [(1, ['s', 'v', 'g'])]⟩ ::
        matchesFrom svgTag 0 ['g', 'v', 's', '<'] (u.drop 4 ++ s) := by
    rcases List.mem_pair.mp hu with rfl | rfl
    · rfl
    · rfl
  have hbefore : (u.drop 4).reverse ++ ['g', 'v', 's', '<'] = u.reverse := by
    rcases List.mem_pair.mp hu with rfl | rfl
    · rfl
    · rfl
  have hrest : matchesFrom svgTag 0 u.reverse s = (matchAll svgTag s).map (·.after u.reverse) :=
    Pattern.matchesFrom_after (by decide) hend 0 [] s
  rw [tagNames, matchAll, hfirst, Pattern.matchesFrom_append hfails, hbefore, hrest,
    List.map_cons, List.map_map]
  rfl

theorem passesTests_append {u : List Char} (hu : u ∈ startTexts) (s : List Char) :
    passesTests (u ++ s) = (svgEnd.test s && isHarmless s) := by
  obtain ⟨hsvgEnd, hcontent, hattribute, -, hend⟩ := fails_startTexts hu
  have hsvg : allowedSvgTags.contains "svg".toList = true := by decide
  rw [passesTests, isHarmless, svgStart_startTexts hu, tagNames_append hu,
    Pattern.test_append (by decide) hsvgEnd hend, Pattern.test_append (by decide) hcontent hend,
    Pattern.test_append (by decide) hattribute hend, List.all_cons, hsvg]
  rfl

theorem withSize_of_start {s : List Char} (h : svgStart.test s = true) :
    ∃ u ∈ startTexts, withSize s = u ++ s.drop 4 := by
  have hsized : sizedStart ∈ startTexts := by simp [startTexts]
  have hboth : viewBoxStart ++ sizedStart.drop 4 ∈ startTexts := by simp [startTexts]
  have hdrop : (sizedStart ++ s.drop 4).drop 4 = sizedStart.drop 4 ++ s.drop 4 := rfl
  simp only [withSize, replaceFirst_svgStart, h, if_true, svgStart_startTexts hsized, hdrop]
  generalize viewBoxAttribute.test _ = found
  split
  · exact ⟨_, hsized, rfl⟩
  · exact ⟨_, hboth, (List.append_assoc ..).symm⟩

theorem withSize_of_no_start {s : List Char} (h : svgStart.test s = false) : withSize s = s := by
  simp [withSize, replaceFirst_svgStart, h]

end Sized

end Cinder.Worksheets
