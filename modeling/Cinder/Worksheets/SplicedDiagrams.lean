import Cinder.Ecma.Deletions
import Cinder.Worksheets.SafeDiagrams
import Mathlib.Data.List.DropRight
set_option autoImplicit false

/-!
When a diagram still passes the tests that its text has passed. They are made before comments and
attributes are deleted, and a deletion joins what stood on its two sides.
-/

namespace Cinder.Worksheets
open Cinder.Streams Cinder.Ecma

section Tags

/-- The text of a tag up to the end of its name, which is the last end of a word in the characters
of names that stand there. -/
def TagText (m name c : List Char) : Prop :=
  ∃ slash blanks d n, m = '<' :: (slash ++ (blanks ++ name)) ∧ name = d :: n ∧
    (slash = [] ∨ slash = ['/']) ∧ (∀ e ∈ blanks, isWhiteSpace e = true) ∧ d.isAlpha = true ∧
    (∀ e ∈ n, isNameChar e = true) ∧ name.getLast?.any isWordChar = true ∧
    ∀ e ∈ c.takeWhile isNameChar, isWordChar e = false

def ForeignTag (m c : List Char) : Prop :=
  ∃ name, TagText m name c ∧ allowedSvgTags.contains (name.map Char.toLower) = false

def Active (b m c : List Char) : Prop :=
  activeContent.Matches b m c ∨ ForeignTag m c ∨ activeAttribute.Matches b m c

theorem isNameChar_of_isWordChar (c : Char) (h : isWordChar c = true) : isNameChar c = true := by
  simp [isNameChar, h]

theorem isWordChar_of_isAlpha {c : Char} (h : c.isAlpha = true) : isWordChar c = true := by
  simp [isWordChar, Char.isAlphanum, h]

theorem not_name_of_isWhiteSpace {c : Char} (h : isWhiteSpace c = true) : isNameChar c = false := by
  by_contra hname
  simp only [isNameChar, isWordChar, Bool.not_eq_false, Bool.or_eq_true, decide_eq_true_eq] at hname
  rcases hname with ((hword | rfl) | rfl) | rfl
  · have hrange := toNat_of_isAlphanum hword
    simp [isWhiteSpace] at h
    omega
  · cases h
  · cases h
  · cases h

theorem head?_of_takeWhile {c : List Char}
    (hc : ∀ e ∈ c.takeWhile isNameChar, isWordChar e = false) : c.head?.any isWordChar = false := by
  cases c with
  | nil => rfl
  | cons d c =>
    by_contra hword
    have hd : isWordChar d = true := by simpa using hword
    rw [List.takeWhile_cons, if_pos (isNameChar_of_isWordChar d hd), List.forall_mem_cons] at hc
    rw [hc.1] at hd
    cases hd

theorem head?_reverse_append {d : Char} {n : List Char} (before : List Char) :
    ((d :: n).reverse ++ before).head? = (d :: n).getLast? := by
  rw [List.head?_append, List.head?_reverse, List.getLast?_cons]
  rfl

def tagName : Pattern := .group 1 (.seq (.char (·.isAlpha)) (.star true isNameChar))

theorem head?_tagName {d : Char} {n c : List Char} (hd : d.isAlpha = true)
    (hn : ∀ e ∈ n, isNameChar e = true) (hlast : (d :: n).getLast?.any isWordChar = true)
    (hc : ∀ e ∈ c.takeWhile isNameChar, isWordChar e = false) (before : List Char) :
    ((Pattern.seqs [tagName, .boundary]).run ⟨before, (d :: n) ++ c, []⟩).head? =
      some ⟨(d :: n).reverse ++ before, c, [(1, d :: n)]⟩ := by
  have hrun : (Pattern.seqs [tagName, .boundary]).run ⟨before, (d :: n) ++ c, []⟩ =
      (splits isNameChar (n ++ c)).reverse.flatMap fun q =>
        (Pattern.seq .boundary .empty).run
          (Reading.behind ⟨before, (d :: n) ++ c, []⟩ 1 (d :: q.1) q.2) := by
    simp only [Pattern.seqs, List.foldr, tagName, Pattern.run, List.cons_append, hd, if_true,
      List.flatMap_cons, List.flatMap_nil, List.append_nil, List.flatMap_map, ← List.map_reverse,
      List.map_map]
    refine congrArg (fun f => List.flatMap f _) (funext fun q => ?_)
    have hbetween : Reading.between ⟨before, d :: (n ++ c), []⟩
        ⟨q.1.reverse ++ d :: before, q.2, []⟩ = d :: q.1 := Reading.between_of_before (by simp)
    simp [Reading.behind, hbetween]
  rw [hrun]
  have hat : atBoundary ⟨(d :: n).reverse ++ before, c, [(1, d :: n)]⟩ = true := by
    rw [atBoundary, head?_reverse_append, hlast, head?_of_takeWhile hc]
    rfl
  have hfound : (Pattern.seq .boundary .empty).run
      (Reading.behind ⟨before, (d :: n) ++ c, []⟩ 1 (d :: n) c) =
        [⟨(d :: n).reverse ++ before, c, [(1, d :: n)]⟩] := by
    simp only [Pattern.run, Reading.behind, hat, if_true]
    rfl
  refine (Pattern.head?_longest hn (fun v w hv hvw hall => ?_) ?_).trans ?_
  · -- a longer name ends in no word, and none follows it
    subst hvw
    rw [List.takeWhile_append_of_pos hall, List.forall_mem_append] at hc
    obtain ⟨v, e, rfl⟩ := List.eq_nil_or_concat' v |>.resolve_left hv
    have he : isWordChar e = false := hc.1 e (by simp)
    have hnot : atBoundary (Reading.behind ⟨before, (d :: n) ++ (v ++ [e] ++ w), []⟩ 1
        (d :: (n ++ (v ++ [e]))) w) = false := by
      rw [atBoundary, Reading.behind, head?_of_takeWhile hc.2]
      simp [he]
    simp only [Pattern.run, hnot, Bool.false_eq_true, if_false]
    rfl
  · rw [hfound]
    exact List.cons_ne_nil _ _
  · rw [hfound]
    rfl

def blanksAndName : Pattern := .seqs [.star true isWhiteSpace, tagName, .boundary]

theorem head?_blanksAndName {blanks : List Char} {d : Char} {n c : List Char}
    (hblanks : ∀ e ∈ blanks, isWhiteSpace e = true) (hd : d.isAlpha = true)
    (hn : ∀ e ∈ n, isNameChar e = true) (hlast : (d :: n).getLast?.any isWordChar = true)
    (hc : ∀ e ∈ c.takeWhile isNameChar, isWordChar e = false) (before : List Char) :
    (blanksAndName.run ⟨before, blanks ++ ((d :: n) ++ c), []⟩).head? =
      some ⟨(d :: n).reverse ++ (blanks.reverse ++ before), c, [(1, d :: n)]⟩ := by
  have hname := head?_tagName hd hn hlast hc (blanks.reverse ++ before)
  have hrun : blanksAndName.run ⟨before, blanks ++ ((d :: n) ++ c), []⟩ =
      (splits isWhiteSpace (blanks ++ ((d :: n) ++ c))).reverse.flatMap fun q =>
        (Pattern.seqs [tagName, .boundary]).run ⟨q.1.reverse ++ before, q.2, []⟩ := by
    simp only [blanksAndName, Pattern.seqs, List.foldr, Pattern.run, if_true, ← List.map_reverse,
      List.flatMap_map]
  rw [hrun]
  refine (Pattern.head?_longest hblanks (fun v w hv hvw hall => ?_) ?_).trans hname
  · obtain ⟨e, v, rfl⟩ := List.exists_cons_of_ne_nil hv
    obtain ⟨rfl, -⟩ := List.cons.inj hvw
    have hword := not_name_of_isWhiteSpace (hall d List.mem_cons_self)
    rw [isNameChar_of_isWordChar d (isWordChar_of_isAlpha hd)] at hword
    cases hword
  · intro hnil
    rw [hnil] at hname
    cases hname

theorem head?_svgTag {m name c : List Char} (h : TagText m name c) (before : List Char) :
    ∃ r, (svgTag.run ⟨before, m ++ c, []⟩).head? = some r ∧ r.rest = c ∧ r.text? 1 = some name := by
  obtain ⟨slash, blanks, d, n, rfl, rfl, hslash, hblanks, hd, hn, hlast, hc⟩ := h
  have hhead (before : List Char) := head?_blanksAndName hblanks hd hn hlast hc before
  have hrun (s : List Char) : svgTag.run ⟨before, '<' :: s, []⟩ =
      ((Pattern.char (· = '/')).run ⟨'<' :: before, s, []⟩).flatMap blanksAndName.run ++
        blanksAndName.run ⟨'<' :: before, s, []⟩ := by
    simp [svgTag, blanksAndName, tagName, Pattern.seqs, Pattern.opt, Pattern.run]
  rcases hslash with rfl | rfl
  · have hnone : (Pattern.char (· = '/')).run
        ⟨'<' :: before, blanks ++ ((d :: n) ++ c), []⟩ = [] := by
      cases blanks with
      | nil =>
        have hne : d ≠ '/' := by rintro rfl; cases hd
        simp [Pattern.run, hne]
      | cons e blanks =>
        have hne : e ≠ '/' := by rintro rfl; cases hblanks '/' List.mem_cons_self
        simp [Pattern.run, hne]
    refine ⟨⟨(d :: n).reverse ++ (blanks.reverse ++ '<' :: before), c, [(1, d :: n)]⟩, ?_, rfl, rfl⟩
    have hshape : '<' :: ([] ++ (blanks ++ d :: n)) ++ c = '<' :: (blanks ++ ((d :: n) ++ c)) := by
      simp
    rw [hshape, hrun, hnone, List.flatMap_nil, List.nil_append, hhead]
  · refine ⟨⟨(d :: n).reverse ++ (blanks.reverse ++ '/' :: '<' :: before), c, [(1, d :: n)]⟩, ?_,
      rfl, rfl⟩
    have hshape : '<' :: (['/'] ++ (blanks ++ d :: n)) ++ c =
        '<' :: '/' :: (blanks ++ ((d :: n) ++ c)) := by simp
    have hslash : (Pattern.char (· = '/')).run
        ⟨'<' :: before, '/' :: (blanks ++ ((d :: n) ++ c)), []⟩ =
          [⟨'/' :: '<' :: before, blanks ++ ((d :: n) ++ c), []⟩] := by simp [Pattern.run]
    have hnone : blanksAndName.run ⟨'<' :: before, ['/'] ++ (blanks ++ ((d :: n) ++ c)), []⟩ = [] :=
      Pattern.run_eq_nil_of_rests (by decide) _ _
    rw [List.singleton_append] at hnone
    rw [hshape, hrun, hslash, hnone, List.append_nil, List.flatMap_singleton, hhead]

theorem exists_name_end {d : Char} (hd : isWordChar d = true) (s : List Char) :
    ∃ n c, s = n ++ c ∧ (∀ e ∈ n, isNameChar e = true) ∧
      (d :: n).getLast?.any isWordChar = true ∧
        ∀ e ∈ c.takeWhile isNameChar, isWordChar e = false := by
  let p := fun e => !isWordChar e
  let name := s.takeWhile isNameChar
  have hname : name.rdropWhile p ++ name.rtakeWhile p = name := List.rdropWhile_append_rtakeWhile
  refine ⟨name.rdropWhile p, name.rtakeWhile p ++ s.dropWhile isNameChar, ?_, fun e he => ?_, ?_,
    fun e he => ?_⟩
  · rw [← List.append_assoc, hname, List.takeWhile_append_dropWhile]
  · exact List.mem_takeWhile_imp ((List.rdropWhile_prefix p name).subset he)
  · by_cases hn : name.rdropWhile p = []
    · simpa [hn] using hd
    · rw [List.getLast?_cons_of_ne_nil hn, List.getLast?_eq_some_getLast hn]
      simpa [p] using List.rdropWhile_last_not p name hn
  · have hrest (e : Char) (he : e ∈ name.rtakeWhile p) : isNameChar e = true :=
      List.mem_takeWhile_imp ((List.rtakeWhile_suffix p name).subset he)
    have hnone : (s.dropWhile isNameChar).takeWhile isNameChar = [] := by
      cases hs : s.dropWhile isNameChar with
      | nil => rfl
      | cons f v =>
        have hf : isNameChar f = false := by
          simpa [hs] using List.head?_dropWhile_not isNameChar s
        simp [hf]
    rw [List.takeWhile_append_of_pos hrest, hnone, List.append_nil] at he
    simpa [p] using List.mem_rtakeWhile_imp he

theorem exists_tagText {before s : List Char} {r : Reading}
    (h : (svgTag.run ⟨before, s, []⟩).head? = some r) :
    ∃ m name, s = m ++ r.rest ∧ TagText m name r.rest ∧ r.text? 1 = some name := by
  obtain ⟨t, g, hrest, -, -, t₁, t₂, g₁, g₂, rfl, -, ⟨⟨e, he, rfl⟩, -⟩, t₃, t₄, g₃, g₄, rfl, -,
    hslash, blanks, t₅, g₅, g₆, rfl, -, ⟨hblanks, -⟩, t₆, t₇, g₇, g₈, rfl, -,
    ⟨g₉, -, t₈, t₉, g₁₀, g₁₁, rfl, -, ⟨⟨d, hd, rfl⟩, -⟩, -⟩, -⟩ :=
    Pattern.mem_run_iff.mp (List.mem_of_head? h)
  obtain rfl : e = '<' := of_decide_eq_true he
  obtain ⟨n, c, hsplit, hn, hlast, hc⟩ :=
    exists_name_end (isWordChar_of_isAlpha hd) (t₉ ++ (t₇ ++ r.rest))
  have hopt : t₃ = [] ∨ t₃ = ['/'] := by
    rcases hslash with ⟨⟨f, hf, rfl⟩, -⟩ | ⟨rfl, -⟩
    · exact .inr (by rw [of_decide_eq_true hf])
    · exact .inl rfl
  have htag : TagText ('<' :: (t₃ ++ (blanks ++ d :: n))) (d :: n) c :=
    ⟨t₃, blanks, d, n, rfl, rfl, hopt, hblanks, hd, hn, hlast, hc⟩
  have hs : s = ('<' :: (t₃ ++ (blanks ++ d :: n))) ++ c := by
    rw [show s = _ from hrest]
    simp [hsplit]
  obtain ⟨r', hr', rfl, hname⟩ := head?_svgTag htag before
  rw [← hs, h] at hr'
  obtain rfl := Option.some.inj hr'
  exact ⟨_, _, hs, htag, hname⟩

theorem svgTag_way {before t after : List Char} {g : List (ℕ × List Char)}
    (h : svgTag.Way before t after g) : ∃ u, t = '<' :: u ∧ '<' ∉ u := by
  obtain ⟨t₁, t₂, g₁, g₂, rfl, -, ⟨⟨e, he, rfl⟩, -⟩, hrest⟩ := h
  obtain rfl : e = '<' := of_decide_eq_true he
  exact ⟨t₂, rfl, not_mem_of_avoids (by decide) hrest⟩

theorem tagNames_all_iff (s : List Char) :
    (tagNames s).all (fun tag => allowedSvgTags.contains tag) = true ↔
      ¬Occurs (fun _ m c => ForeignTag m c) s := by
  rw [← not_iff_not, not_not, Bool.not_eq_true, List.all_eq_false]
  constructor
  · rintro ⟨tag, htag, hforeign⟩
    obtain ⟨r, hr, rfl⟩ := List.mem_map.mp htag
    obtain ⟨b, c, rfl, hrun⟩ := (Pattern.mem_matchAll_iff fun _ _ _ _ h => svgTag_way h).mp hr
    obtain ⟨m, name, rfl, htext, hname⟩ := exists_tagText hrun
    exact ⟨b, m, r.rest, rfl, name, htext, by simpa [hname] using hforeign⟩
  · rintro ⟨b, m, c, rfl, name, htext, hforeign⟩
    obtain ⟨r, hrun, -, hname⟩ := head?_svgTag htext b.reverse
    have hr : r ∈ matchAll svgTag (b ++ (m ++ c)) :=
      (Pattern.mem_matchAll_iff fun _ _ _ _ h => svgTag_way h).mpr ⟨b, m ++ c, rfl, hrun⟩
    exact ⟨_, List.mem_map.mpr ⟨r, hr, rfl⟩, by simpa [hname] using hforeign⟩

theorem isHarmless_iff (s : List Char) : isHarmless s = true ↔ ¬Occurs Active s := by
  have hactive : Occurs Active s ↔ Occurs activeContent.Matches s ∨
      Occurs (fun _ m c => ForeignTag m c) s ∨ Occurs activeAttribute.Matches s :=
    occurs_or.trans (or_congr_right occurs_or)
  rw [hactive, isHarmless, Bool.and_eq_true, Bool.and_eq_true, tagNames_all_iff,
    Bool.not_eq_true', ← Bool.not_eq_true, Bool.not_eq_true', ← Bool.not_eq_true,
    Pattern.test_iff_occurs, Pattern.test_iff_occurs, not_or, not_or, and_assoc]

theorem sturdy_foreignTag : Sturdy (fun _ m c => ForeignTag m c) isNameChar := by
  rintro b m c ⟨name, ⟨slash, blanks, d, n, rfl, hname, hslash, hblanks, hd, hn, hlast, hc⟩,
    hforeign⟩
  exact ⟨List.cons_ne_nil _ _, fun _ _ _ hfades => ⟨name, ⟨slash, blanks, d, n, rfl, hname, hslash,
    hblanks, hd, hn, hlast, fun e he => hc e (hfades.takeWhile e he)⟩, hforeign⟩⟩

theorem sturdy_activeContent : Sturdy activeContent.Matches isNameChar := by
  refine Pattern.sturdy_oneOf fun a ha => ?_
  have hlink : Sturdy (Pattern.seq (.word "<a".toList) .boundary).Matches isNameChar := by
    refine Pattern.sturdy_seq_boundary isNameChar_of_isWordChar rfl ?_
    exact .seq _ (.seq_empty (Pattern.ends_char fun _ => Pattern.of_isLetter rfl rfl))
  simp only [List.mem_cons, List.not_mem_nil, or_false] at ha
  rcases ha with rfl | rfl | rfl | rfl | rfl | rfl | rfl | rfl | rfl | rfl | rfl
  case inr.inr.inr.inr.inr.inr.inr.inl => exact hlink
  all_goals exact Pattern.sturdy_of_contextFree rfl rfl

theorem sturdy_activeAttribute : Sturdy activeAttribute.Matches isNameChar := by
  refine Pattern.sturdy_oneOf fun a ha => ?_
  simp only [List.mem_cons, List.not_mem_nil, or_false] at ha
  rcases ha with rfl | rfl | rfl | rfl | rfl
  · exact Pattern.sturdy_boundary_seq rfl ((Pattern.begins_word rfl rfl _).seq _)
  · refine Pattern.sturdy_boundary_seq rfl (.seq (Pattern.begins_oneOf fun a ha => ?_) _)
    simp only [List.mem_cons, List.not_mem_nil, or_false] at ha
    rcases ha with rfl | rfl | rfl | rfl
    all_goals exact Pattern.begins_word rfl rfl _
  · exact Pattern.sturdy_of_contextFree rfl rfl
  · exact Pattern.sturdy_of_contextFree rfl rfl
  · exact Pattern.sturdy_of_contextFree rfl rfl

theorem sturdy_active : Sturdy Active isNameChar :=
  sturdy_activeContent.or (sturdy_foreignTag.or sturdy_activeAttribute)

end Tags

section Deleted

/-- A diagram with a mark on what is deleted: first comments, then attributes in what is left. -/
def markedSvg (svg : List Char) : MarkedText :=
  takeOut sizeAttribute 0 [] (takeOut svgComment 0 [] (unmarked svg))

theorem kept_markedSvg (svg : List Char) : kept (markedSvg svg) = strippedSvg svg := by
  rw [markedSvg, kept_takeOut, kept_takeOut, kept_unmarked, strippedSvg, replaceAll, replaceAll]

theorem svgComment_way {before t after : List Char} {g : List (ℕ × List Char)}
    (h : svgComment.Way before t after g) : ∃ u, t = "<!--".toList ++ u ++ "-->".toList := by
  obtain ⟨t₁, t₂, g₁, g₂, rfl, -, hopen, u, t₃, g₃, g₄, rfl, -, -, t₄, t₅, g₅, g₆, rfl, -, hclose,
    rfl, -⟩ := h
  obtain ⟨rfl, -⟩ := Pattern.way_literal.mp hopen
  obtain ⟨rfl, -⟩ := Pattern.way_literal.mp hclose
  exact ⟨u, by simp⟩

theorem edged_svgComment : Edged isNameChar svgComment := by
  refine ⟨fun before t after g h => ?_, fun before t after g h => ?_⟩
  · obtain ⟨u, rfl⟩ := svgComment_way h
    exact ⟨'<', rfl, rfl⟩
  · obtain ⟨u, rfl⟩ := svgComment_way h
    exact ⟨'>', by rw [List.getLast?_append]; rfl, rfl⟩

theorem ends_sizeAttribute : sizeAttribute.Ends isQuote :=
  .seq _ (.seq _ (.seq _ (.seq _ (.seq _ (.seq _ (.seq_empty (Pattern.ends_char fun _ h => h)))))))

theorem edged_sizeAttribute : Edged isNameChar sizeAttribute := by
  refine ⟨.seq (Pattern.begins_char fun d hd => ?_) _, fun before t after g h => ?_⟩
  · rw [not_name_of_isWhiteSpace hd]
    rfl
  · obtain ⟨d, hlast, hd⟩ := ends_sizeAttribute _ _ _ _ h
    rw [isQuote, Bool.or_eq_true, decide_eq_true_eq, decide_eq_true_eq] at hd
    refine ⟨d, hlast, ?_⟩
    rcases hd with rfl | rfl
    · rfl
    · rfl

theorem fenced_markedSvg (svg : List Char) : Fenced isNameChar (markedSvg svg) :=
  fenced_takeOut edged_sizeAttribute (fenced_takeOut edged_svgComment (fenced_unmarked svg))

end Deleted

section Start

abbrev InEitherCase (w u : List Char) : Prop :=
  List.Forall₂ (fun c d => Pattern.isLetter c d = true) w u

theorem cases_start {u : List Char} (h : InEitherCase "<svg".toList u) :
    ∃ s v g, u = ['<', s, v, g] ∧ (s = 's' ∨ s = 'S') ∧ (v = 'v' ∨ v = 'V') ∧
      (g = 'g' ∨ g = 'G') := by
  rw [InEitherCase, show "<svg".toList = ['<', 's', 'v', 'g'] from rfl] at h
  obtain _ | @⟨_, c, _, _, hc, _ | @⟨_, s, _, _, hs, _ | @⟨_, v, _, _, hv,
    _ | @⟨_, g, _, _, hg, _ | _⟩⟩⟩⟩ := h
  obtain rfl : c = '<' := (Pattern.isLetter_iff.mp hc).elim id id
  exact ⟨s, v, g, rfl, Pattern.isLetter_iff.mp hs, Pattern.isLetter_iff.mp hv,
    Pattern.isLetter_iff.mp hg⟩

theorem InEitherCase.length_eq_four {u : List Char} (h : InEitherCase "<svg".toList u) :
    u.length = 4 := by
  obtain ⟨s, v, g, rfl, -⟩ := cases_start h
  rfl

theorem fails_start {u : List Char} (h : InEitherCase "<svg".toList u) :
    svgComment.fails u = true ∧ sizeAttribute.fails u = true := by
  obtain ⟨s, v, g, rfl, rfl | rfl, rfl | rfl, rfl | rfl⟩ := cases_start h
  all_goals exact ⟨by decide, by decide⟩

theorem atBoundary_start {u : List Char} (h : InEitherCase "<svg".toList u) (v : List Char) :
    atBoundary ⟨u.reverse, v, []⟩ = true ↔ v.head?.any isWordChar = false := by
  obtain ⟨s, w, g, rfl, -, -, hg⟩ := cases_start h
  have hword : isWordChar g = true := by
    rcases hg with rfl | rfl
    · rfl
    · rfl
  simp [atBoundary, hword]

theorem svgStart_iff {s : List Char} : svgStart.test s = true ↔
    ∃ u v, s = u ++ v ∧ InEitherCase "<svg".toList u ∧ v.head?.any isWordChar = false := by
  rw [Pattern.test_iff_occurs]
  constructor
  · rintro ⟨b, m, c, rfl, g, _, _, _, _, rfl, -, ⟨rfl, hb, -⟩, u, _, _, _, rfl, -, hword, _, _, _,
      _, rfl, -, ⟨rfl, hat, -⟩, rfl, -⟩
    obtain rfl := List.reverse_eq_nil_iff.mp hb
    have hletters := (Pattern.way_word.mp hword).1
    simp only [List.reverse_nil, List.append_nil, List.nil_append] at hat ⊢
    exact ⟨u, c, rfl, hletters, (atBoundary_start hletters c).mp hat⟩
  · rintro ⟨u, v, rfl, hletters, hv⟩
    refine ⟨[], u, v, rfl, [], [], u, [], [], rfl, rfl, ⟨rfl, rfl, rfl⟩, u, [], [], [],
      (List.append_nil u).symm, rfl, Pattern.way_word.mpr ⟨hletters, rfl⟩, [], [], [], [], rfl, rfl,
      ⟨rfl, ?_, rfl⟩, rfl, rfl⟩
    simpa using (atBoundary_start hletters v).mpr hv

theorem svgStart_append {u : List Char} (h : InEitherCase "<svg".toList u) (v : List Char) :
    svgStart.test (u ++ v) = true ↔ v.head?.any isWordChar = false := by
  rw [svgStart_iff]
  constructor
  · rintro ⟨u', v', hs, h', hv⟩
    rwa [(List.append_inj hs (by rw [h.length_eq_four, h'.length_eq_four])).2]
  · exact fun hv => ⟨u, v, rfl, h, hv⟩

theorem markedSvg_start {u : List Char} (h : InEitherCase "<svg".toList u) (v : List Char) :
    ∃ z, markedSvg (u ++ v) = unmarked u ++ z ∧ z.map (·.1) = v ∧ Fenced isNameChar z := by
  obtain ⟨hcomment, hsize⟩ := fails_start h
  let z := takeOut sizeAttribute 0 (u.reverse ++ [])
    (takeOut svgComment 0 (u.reverse ++ []) (unmarked v))
  have hz : markedSvg (u ++ v) = unmarked u ++ z := by
    rw [markedSvg, unmarked_append, takeOut_of_passes (.of_fails hcomment _),
      takeOut_of_passes (.of_fails hsize _)]
  refine ⟨z, hz, ?_, ?_⟩
  · rw [map_fst_takeOut, map_fst_takeOut, map_fst_unmarked]
  · have hfenced := fenced_markedSvg (u ++ v)
    rw [hz] at hfenced
    exact hfenced.right_of_append

def longerStart : Pattern := .seqs [.start, .word "<svg".toList, .char isWordChar]

theorem longerStart_matches {b m c : List Char} : longerStart.Matches b m c ↔
    b = [] ∧ ∃ u d, m = u ++ [d] ∧ InEitherCase "<svg".toList u ∧ isWordChar d = true := by
  constructor
  · rintro ⟨g, _, _, _, _, rfl, -, ⟨rfl, rfl, -⟩, u, _, _, _, rfl, -, hword, _, _, _, _, rfl, -,
      ⟨⟨d, hd, rfl⟩, -⟩, rfl, -⟩
    exact ⟨rfl, u, d, by simp, (Pattern.way_word.mp hword).1, hd⟩
  · rintro ⟨rfl, u, d, rfl, hletters, hd⟩
    exact ⟨[], [], u ++ [d], [], [], rfl, rfl, ⟨rfl, rfl, rfl⟩, u, [d], [], [], rfl, rfl,
      Pattern.way_word.mpr ⟨hletters, rfl⟩, [d], [], [], [], rfl, rfl, ⟨⟨d, hd, rfl⟩, rfl⟩, rfl,
      rfl⟩

/-- What is kept goes on with a word behind the start if and only if a deletion has joined it. -/
theorem splices_longerStart {u : List Char} (h : InEitherCase "<svg".toList u) {z : MarkedText}
    (hz : ((z.map (·.1)).head?).any isWordChar = false) :
    Splices longerStart.Matches (unmarked u ++ z) ↔ (kept z).head?.any isWordChar = true := by
  constructor
  · rintro ⟨x, d, y, b, m, m', c, hs, hx, hy, -, -, hm⟩
    obtain ⟨hb, u', e, hmm, hletters, he⟩ := longerStart_matches.mp hm
    obtain rfl := List.reverse_eq_nil_iff.mp hb
    have hkept := congrArg kept hs
    rw [kept_append, kept_unmarked, kept_append, kept_true, hx, hy, List.nil_append,
      ← List.append_assoc, hmm, List.append_assoc] at hkept
    have hlength : u.length = u'.length := by
      rw [h.length_eq_four, hletters.length_eq_four]
    rw [(List.append_inj hkept hlength).2]
    simpa using he
  · intro hword
    obtain _ | ⟨⟨d, _ | _⟩, z⟩ := z
    · cases hword
    · simp_all
    · rw [kept_true] at hword
      cases hk : kept z with
      | nil => simp [hk] at hword
      | cons e c =>
        have he : isWordChar e = true := by simpa [hk] using hword
        have hne : u ≠ [] := List.ne_nil_of_length_pos (by rw [h.length_eq_four]; omega)
        exact ⟨unmarked u, d, z, [], u, [e], c, rfl, kept_unmarked u, hk, hne,
          List.cons_ne_nil _ _, longerStart_matches.mpr ⟨rfl, u, e, rfl, h, he⟩⟩

end Start

section End

def EndText (e : List Char) : Prop :=
  ∃ w blanks, e = w ++ blanks ∧ InEitherCase "</svg>".toList w ∧ ∀ c ∈ blanks, isWhiteSpace c = true

theorem cases_end {e : List Char} (h : EndText e) : ∃ s v g blanks,
    e = '<' :: '/' :: s :: v :: g :: '>' :: blanks ∧ (s = 's' ∨ s = 'S') ∧ (v = 'v' ∨ v = 'V') ∧
      (g = 'g' ∨ g = 'G') ∧ ∀ c ∈ blanks, isWhiteSpace c = true := by
  obtain ⟨w, blanks, rfl, h, hblanks⟩ := h
  rw [InEitherCase, show "</svg>".toList = ['<', '/', 's', 'v', 'g', '>'] from rfl] at h
  obtain _ | @⟨_, c, _, _, hc, _ | @⟨_, d, _, _, hd, _ | @⟨_, s, _, _, hs, _ | @⟨_, v, _, _, hv,
    _ | @⟨_, g, _, _, hg, _ | @⟨_, e, _, _, he, _ | _⟩⟩⟩⟩⟩⟩ := h
  obtain rfl : c = '<' := (Pattern.isLetter_iff.mp hc).elim id id
  obtain rfl : d = '/' := (Pattern.isLetter_iff.mp hd).elim id id
  obtain rfl : e = '>' := (Pattern.isLetter_iff.mp he).elim id id
  exact ⟨s, v, g, blanks, rfl, Pattern.isLetter_iff.mp hs, Pattern.isLetter_iff.mp hv,
    Pattern.isLetter_iff.mp hg, hblanks⟩

theorem svgEnd_iff {s : List Char} :
    svgEnd.test s = true ↔ ∃ p e, s = p ++ e ∧ EndText e := by
  rw [Pattern.test_iff_occurs]
  constructor
  · rintro ⟨b, m, c, rfl, g, w, _, _, _, rfl, -, hword, blanks, _, _, _, rfl, -, ⟨hblanks, -⟩, _, _,
      _, _, rfl, -, ⟨rfl, hstop, -⟩, rfl, -⟩
    obtain rfl : c = [] := hstop
    exact ⟨b, w ++ blanks, by simp, w, blanks, rfl, (Pattern.way_word.mp hword).1, hblanks⟩
  · rintro ⟨p, _, rfl, w, blanks, rfl, hletters, hblanks⟩
    exact ⟨p, w ++ blanks, [], by simp, [], w, blanks, [], [], rfl, rfl,
      Pattern.way_word.mpr ⟨hletters, rfl⟩, blanks, [], [], [], (List.append_nil blanks).symm, rfl,
      ⟨hblanks, rfl⟩, [], [], [], [], rfl, rfl, ⟨rfl, rfl, rfl⟩, rfl, rfl⟩

theorem not_mem_end {e : List Char} (h : EndText e) {d : Char} (hd : isQuote d || d = '-') :
    d ∉ e := by
  obtain ⟨s, v, g, blanks, rfl, hs, hv, hg, hblanks⟩ := cases_end h
  have hletter (c : Char) (hc : (isQuote c || c = '-') = false) : d ≠ c := by
    rintro rfl
    rw [hc] at hd
    cases hd
  have hblank : d ∉ blanks := by
    intro hmem
    have hspace := hblanks d hmem
    simp only [isQuote, Bool.or_eq_true, decide_eq_true_eq] at hd
    rcases hd with (rfl | rfl) | rfl
    all_goals cases hspace
  have hs' : d ≠ s := by rcases hs with rfl | rfl <;> exact hletter _ rfl
  have hv' : d ≠ v := by rcases hv with rfl | rfl <;> exact hletter _ rfl
  have hg' : d ≠ g := by rcases hg with rfl | rfl <;> exact hletter _ rfl
  simp only [List.mem_cons, not_or]
  exact ⟨hletter _ rfl, hletter _ rfl, hs', hv', hg', hletter _ rfl, hblank⟩

theorem markedSvg_end {e : List Char} (h : EndText e) (p : List Char) :
    ∃ z, markedSvg (p ++ e) = z ++ unmarked e := by
  have hcomment : Spares svgComment e := by
    refine spares_of_ends_two (d := '-') (e := '>') (fun b t c g hway => ?_)
      (not_mem_end h rfl) ?_
    · obtain ⟨u, rfl⟩ := svgComment_way hway
      exact ⟨"<!--".toList ++ u ++ ['-'], by simp⟩
    · obtain ⟨s, v, g, blanks, rfl, -⟩ := cases_end h
      simp
  have hsize : Spares sizeAttribute e := by
    refine spares_of_ends ends_sizeAttribute fun c hc => ?_
    by_contra hquote
    rw [Bool.not_eq_false] at hquote
    exact not_mem_end h (by rw [hquote, Bool.true_or]) hc
  obtain ⟨z₁, hz₁, -⟩ := takeOut_append edged_svgComment.ne_nil hcomment (unmarked p)
    (Nat.zero_le _) []
  obtain ⟨z₂, hz₂, -⟩ := takeOut_append edged_sizeAttribute.ne_nil hsize z₁ (Nat.zero_le _) []
  exact ⟨z₂, by rw [markedSvg, unmarked_append, hz₁, hz₂]⟩

theorem svgEnd_kept {u v : List Char} (hu : InEitherCase "<svg".toList u)
    (hend : svgEnd.test (u ++ v) = true) {z : MarkedText}
    (hz : markedSvg (u ++ v) = unmarked u ++ z) : svgEnd.test (kept z) = true := by
  obtain ⟨p, e, ht, he⟩ := svgEnd_iff.mp hend
  obtain ⟨z', hz'⟩ := markedSvg_end he p
  rw [ht, hz'] at hz
  have hkept := congrArg kept hz
  rw [kept_append, kept_append, kept_unmarked, kept_unmarked] at hkept
  rcases List.append_eq_append_iff.mp hkept with ⟨w, hw, hrest⟩ | ⟨w, -, hw⟩
  · obtain ⟨s, x, g, rfl, hs, hx, hg⟩ := cases_start hu
    obtain ⟨s', x', g', blanks, rfl, -⟩ := cases_end he
    obtain _ | ⟨c, _ | ⟨d, w⟩⟩ := w
    · exact svgEnd_iff.mpr ⟨[], _, hrest.symm, he⟩
    · -- `<` is not the last of the four characters
      obtain rfl : '<' = c := List.head_eq_of_cons_eq hrest
      have hlast := congrArg List.getLast? hw
      rw [List.getLast?_concat] at hlast
      rcases hg with rfl | rfl
      all_goals cases hlast
    · -- `/` is none of them
      obtain rfl : '/' = d := List.head_eq_of_cons_eq (List.tail_eq_of_cons_eq hrest)
      have hmem : '/' ∈ ['<', s, x, g] := by simp [hw]
      rcases hs with rfl | rfl <;> rcases hx with rfl | rfl <;> rcases hg with rfl | rfl
      all_goals simp at hmem
  · exact svgEnd_iff.mpr ⟨w, e, hw, he⟩

end End

/-- Behind the opening `<svg` no letter follows, and nothing that the tests look for begins, before
something that is deleted and ends behind it. -/
def JoinsNothing (svg : List Char) : Prop :=
  ¬Splices longerStart.Matches (markedSvg svg) ∧ ¬Splices Active ((markedSvg svg).drop 4)

/-- A diagram passes the tests after it is cleaned if and only if no deletion has joined in it what
they look for. -/
theorem sanitizeDiagramSvg_passes_iff (value : List Char) :
    (sanitizeDiagramSvg (some (.string value)) = [] ∨
        passesTests (sanitizeDiagramSvg (some (.string value))) = true) ↔
      (halfLeft 24000 (strip isWhiteSpace value) = [] → passesTests (trimmedSvg value) = true →
        JoinsNothing (trimmedSvg value)) := by
  by_cases hhalf : halfLeft 24000 (strip isWhiteSpace value) = []
  swap
  · simp [sanitizeDiagramSvg, hhalf]
  by_cases htests : passesTests (trimmedSvg value) = true
  swap
  · simp [sanitizeDiagramSvg, htests]
  simp only [sanitizeDiagramSvg, hhalf, htests, decide_true, Bool.and_true, if_true,
    forall_const]
  rw [passesTests, Bool.and_eq_true, Bool.and_eq_true, isHarmless_iff] at htests
  obtain ⟨⟨hstart, hend⟩, hharmless⟩ := htests
  obtain ⟨u, v, ht, hu, hv⟩ := svgStart_iff.mp hstart
  rw [ht] at hend hharmless ⊢
  obtain ⟨z, hz, hchars, hfenced⟩ := markedSvg_start hu v
  have hdrop : (markedSvg (u ++ v)).drop 4 = z := by
    rw [hz, List.drop_left' (by rw [unmarked, List.length_map, hu.length_eq_four])]
  have hstripped : strippedSvg (u ++ v) = u ++ kept z := by
    rw [← kept_markedSvg, hz, kept_append, kept_unmarked]
  have hlonger : Splices longerStart.Matches (markedSvg (u ++ v)) ↔
      (kept z).head?.any isWordChar = true := by
    rw [hz]
    exact splices_longerStart hu (by rwa [hchars])
  have hactive : ¬Occurs Active (kept z) ↔ ¬Splices Active z := by
    refine not_congr (occurs_kept_iff isNameChar_of_isWordChar sturdy_active hfenced ?_)
    rw [hchars]
    exact fun h => hharmless (sturdy_active.occurs_behind hv u h)
  rw [JoinsNothing, hdrop, hlonger, hstripped, ← hactive, ← isHarmless_iff, Bool.not_eq_true,
    ← svgStart_append hu]
  cases hs : svgStart.test (u ++ kept z) with
  | true =>
    obtain ⟨w, hw, hsized⟩ := withSize_of_start hs
    rw [List.drop_left' hu.length_eq_four] at hsized
    have hne : w ++ kept z ≠ [] := by
      rcases List.mem_pair.mp hw with rfl | rfl
      · exact List.cons_ne_nil _ _
      · exact List.cons_ne_nil _ _
    rw [hsized, passesTests_append hw, svgEnd_kept hu hend hz]
    simp [hne]
  | false =>
    have hfails : passesTests (u ++ kept z) = false := by
      rw [passesTests, hs]
      rfl
    have hne : u ++ kept z ≠ [] := by
      obtain ⟨s, x, g, rfl, -⟩ := cases_start hu
      exact List.cons_ne_nil _ _
    rw [withSize_of_no_start hs, hfails]
    simp [hne]

/-- A comment keeps a tag from being one until it is taken out. -/
theorem comment_hides_script :
    passesTests (sanitizeDiagramSvg (some (.string "<svg><<!---->script></svg>".toList))) = false ∧
      ¬(sanitizeDiagramSvg (some (.string "<svg><<!---->script></svg>".toList)) = [] ∨
        passesTests (sanitizeDiagramSvg (some (.string "<svg><<!---->script></svg>".toList))) =
          true) := by
  have hfires : passesTests (sanitizeDiagramSvg
      (some (.string "<svg><<!---->script></svg>".toList))) = false := by decide +kernel
  refine ⟨hfires, fun h => ?_⟩
  rw [hfires] at h
  rcases h with hnil | hpasses
  · exact absurd hnil (by decide +kernel)
  · cases hpasses

end Cinder.Worksheets
