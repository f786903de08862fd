import Cinder.Ecma.Decimals
import Cinder.Ecma.Patterns
import Mathlib
set_option autoImplicit false

/-!
The texts of the gradebook: words to compare titles by, and the header of an assignment with the
title and the maximum that are read back from it.
-/

namespace Cinder.Teacher
open Cinder.Streams Cinder.Ecma

/-- What letters and numbers come to by Unicode and by the format of doubles. -/
structure TextRules where
  lower : List Char → List Char
  upper : List Char → List Char
  isWord : Char → Bool
  /-- The nearest double, or nothing if it is an infinity. -/
  nearest : Decimal → Option Decimal
  /-- The shortest decimal that is read as a double. -/
  shortest : ℚ → Decimal
  digits_lower : ∀ s, (lower s).filter (·.isDigit) = s.filter (·.isDigit)
  upper_ascii : ∀ s, (∀ c ∈ s, c.isUpper = true ∨ c.isDigit = true) → upper s = s
  isWord_of_isDigit : ∀ c, c.isDigit = true → isWord c = true

theorem isDigit_toLower (c : Char) :
    c.toLower.isDigit = c.isDigit ∧ (c.isDigit = true → c.toLower = c) := by
  by_cases hupper : c.isUpper = true
  · have hdigit : ∀ d : Char, d.isAlpha = true → d.isDigit = false := by
      intro d hd
      simp only [Char.isAlpha, Char.isUpper, Char.isLower, Char.isDigit, Bool.or_eq_true,
        decide_eq_true_eq, Bool.and_eq_true, Bool.and_eq_false_iff, decide_eq_false_iff_not,
        UInt32.le_iff_toNat_le, ge_iff_le] at hd ⊢
      simp only [Char.reduceVal, UInt32.reduceToNat] at hd ⊢
      omega
    have hc : c.isDigit = false := hdigit c (by simp [Char.isAlpha, hupper])
    refine ⟨?_, fun h => ?_⟩
    · rw [hdigit c.toLower (by simp [Char.isAlpha, hupper]), hc]
    · rw [hc] at h
      cases h
  · rw [Char.toLower_eq_of_not_isUpper hupper]
    exact ⟨rfl, fun _ => rfl⟩

theorem digits_map_toLower (s : List Char) :
    (s.map Char.toLower).filter (·.isDigit) = s.filter (·.isDigit) := by
  induction s with
  | nil => rfl
  | cons c s ih =>
    obtain ⟨hdigit, hsame⟩ := isDigit_toLower c
    rw [List.map_cons, List.filter_cons, List.filter_cons, ih, hdigit]
    split
    · next h => rw [hsame h]
    · rfl

theorem map_toUpper_ascii (s : List Char)
    (h : ∀ c ∈ s, c.isUpper = true ∨ c.isDigit = true) : s.map Char.toUpper = s := by
  have hsame : ∀ c ∈ s, c.toUpper = c := by
    intro c hc
    refine Char.toUpper_eq_of_not_isLower fun hlower => ?_
    have hcase := h c hc
    simp only [Char.isUpper, Char.isLower, Char.isDigit, decide_eq_true_eq, Bool.and_eq_true,
      UInt32.le_iff_toNat_le, ge_iff_le, Char.reduceVal, UInt32.reduceToNat] at hlower hcase
    omega
  exact (List.map_congr_left hsame).trans (List.map_id s)

/-- The digits of a double in full. -/
def dyadicDecimal (q : ℚ) : Decimal :=
  .normalize (q < 0) (q*10^(Nat.log2 q.den)).num.natAbs (-(Nat.log2 q.den))

/-- The rules of ASCII, where every decimal is a double. -/
def asciiRules : TextRules where
  lower := List.map Char.toLower
  upper := List.map Char.toUpper
  isWord := Char.isAlphanum
  nearest := some
  shortest := dyadicDecimal
  digits_lower := digits_map_toLower
  upper_ascii := map_toUpper_ascii
  isWord_of_isDigit := fun c h => by simp [Char.isAlphanum, h]

structure Assignment where
  id : String
  title : List Char
  maxPoints : Decimal
  deriving DecidableEq, Repr

inductive CellValue where
  | text (s : List Char)
  | number (d : Decimal)
  | notFinite (s : List Char)
  | boolean (b : Bool)
  | null
  deriving DecidableEq, Repr

/-- `String(value ?? "")`. -/
def cellText (value : Option CellValue) : List Char :=
  match value with
  | some (.text s) => s
  | some (.number d) => d.text
  | some (.notFinite s) => s
  | some (.boolean b) => if b then "true".toList else "false".toList
  | some .null => []
  | none => []

section Words
variable (rules : TextRules)

/-- A blank for each run of characters that do not satisfy `p`. -/
def blankRuns (p : Char → Bool) : List Char → List Char
  | [] => []
  | c :: s =>
    if p c then c :: blankRuns p s
    else if s.head?.any fun d => !p d then blankRuns p s
    else ' ' :: blankRuns p s

def normalizeWords (value : List Char) : List Char :=
  let s := rules.lower (strip isWhiteSpace value)
  let s := s.map fun c => if c = '’' ∨ c = '\'' then ' ' else c
  strip isWhiteSpace (blankRuns rules.isWord s)

theorem filter_blankRuns {p q : Char → Bool} (hq : ∀ c, q c = true → p c = true)
    (hblank : q ' ' = false) (s : List Char) : (blankRuns p s).filter q = s.filter q := by
  induction s with
  | nil => rfl
  | cons c s ih =>
    rw [blankRuns]
    split
    · rw [List.filter_cons, List.filter_cons, ih]
    · next hc =>
      have hcq : q c = false := by
        cases h : q c with
        | false => rfl
        | true => exact absurd (hq c h) hc
      rw [List.filter_cons, hcq]
      split
      · exact ih
      · rw [List.filter_cons, hblank]
        exact ih

theorem filter_dropWhile {p q : Char → Bool} (h : ∀ c, p c = true → q c = false)
    (s : List Char) : (s.dropWhile p).filter q = s.filter q := by
  induction s with
  | nil => rfl
  | cons c s ih =>
    cases hc : p c with
    | true => rw [List.dropWhile_cons_of_pos hc, ih, List.filter_cons, h c hc]; rfl
    | false => rw [List.dropWhile_cons_of_neg (by simp [hc])]

theorem filter_strip {p q : Char → Bool} (h : ∀ c, p c = true → q c = false)
    (s : List Char) : (strip p s).filter q = s.filter q := by
  rw [strip, List.rdropWhile, List.filter_reverse, filter_dropWhile h, List.filter_reverse,
    List.reverse_reverse, filter_dropWhile h]

theorem digits_normalizeWords (value : List Char) :
    (normalizeWords rules value).filter (·.isDigit) = value.filter (·.isDigit) := by
  have hspace : ∀ c : Char, isWhiteSpace c = true → c.isDigit = false := by
    intro c hc
    cases hd : c.isDigit with
    | false => rfl
    | true => rw [isWhiteSpace_of_isDigit hd] at hc; cases hc
  have hquote : ∀ s : List Char,
      (s.map fun c => if c = '’' ∨ c = '\'' then ' ' else c).filter (·.isDigit) =
        s.filter (·.isDigit) := by
    intro s
    induction s with
    | nil => rfl
    | cons c s ih =>
      rw [List.map_cons, List.filter_cons, List.filter_cons, ih]
      split
      · next hc => rcases hc with rfl | rfl <;> rfl
      · rfl
  simp only [normalizeWords]
  rw [filter_strip hspace, filter_blankRuns rules.isWord_of_isDigit (by decide), hquote,
    rules.digits_lower, filter_strip hspace]

end Words

/-- `\d+(?:\.\d+)?`. -/
def numberPattern : Pattern :=
  .seq (.plus (·.isDigit)) (.opt (.seq (.char (· = '.')) (.plus (·.isDigit))))

/-- `(?:points?)?`. -/
def pointsWord : Pattern := .opt (.seq (.word "point".toList) (.opt (.char (Pattern.isLetter 's'))))

/-- `\s*(?:-\s*)?\/\s*(\d+(?:\.\d+)?)\s*(?:points?)?`. -/
def maximumPattern : Pattern :=
  .seq (.star true isWhiteSpace)
    (.seq (.opt (.seq (.char (· = '-')) (.star true isWhiteSpace)))
      (.seq (.char (· = '/'))
        (.seq (.star true isWhiteSpace)
          (.seq (.group 2 numberPattern)
            (.seq (.star true isWhiteSpace) pointsWord)))))

theorem way_number {before t after : List Char} {g : List (Nat × List Char)} :
    numberPattern.Way before t after g ↔ Decimal.NumberText t ∧ g = [] := by
  constructor
  · rintro ⟨s, t₂, g₁, g₂, rfl, rfl, hwhole, hrest⟩
    obtain ⟨hs, hdigits, rfl⟩ := Pattern.way_plus.mp hwhole
    rcases hrest with ⟨t₃, t, g₁, g₂, rfl, rfl, ⟨⟨c, hc, rfl⟩, rfl⟩, hfraction⟩ | ⟨rfl, rfl⟩
    · obtain ⟨ht, hmore, rfl⟩ := Pattern.way_plus.mp hfraction
      obtain rfl : c = '.' := of_decide_eq_true hc
      exact ⟨.fraction ⟨hs, hdigits⟩ ⟨ht, hmore⟩, rfl⟩
    · rw [List.append_nil]
      exact ⟨.whole ⟨hs, hdigits⟩, rfl⟩
  · rintro ⟨htext, rfl⟩
    cases htext with
    | whole h =>
      exact ⟨t, [], [], [], (List.append_nil t).symm, rfl, Pattern.way_plus.mpr ⟨h.1, h.2, rfl⟩,
        .inr ⟨rfl, rfl⟩⟩
    | @fraction s t hs ht =>
      exact ⟨s, '.' :: t, [], [], rfl, rfl, Pattern.way_plus.mpr ⟨hs.1, hs.2, rfl⟩,
        .inl ⟨['.'], t, [], [], rfl, rfl, ⟨⟨'.', rfl, rfl⟩, rfl⟩,
          Pattern.way_plus.mpr ⟨ht.1, ht.2, rfl⟩⟩⟩

/-- A character of `points` in any case. -/
def isPointLetter (d : Char) : Bool := "points".toList.any fun c => Pattern.isLetter c d

theorem of_isPointLetter {q : Char → Bool}
    (hq : "points".toList.all (fun c => q c && q c.toUpper) = true) {d : Char}
    (h : isPointLetter d = true) : q d = true := by
  obtain ⟨c, hc, hd⟩ := List.any_eq_true.mp h
  have hcase := List.all_eq_true.mp hq c hc
  rw [Bool.and_eq_true] at hcase
  rw [Pattern.isLetter, Bool.or_eq_true, decide_eq_true_iff, decide_eq_true_iff] at hd
  rcases hd with rfl | rfl
  · exact hcase.1
  · exact hcase.2

theorem isPointLetter_of_word {s t : List Char}
    (h : List.Forall₂ (fun c d => Pattern.isLetter c d = true) s t)
    (hs : ∀ c ∈ s, c ∈ "points".toList) : ∀ d ∈ t, isPointLetter d = true := by
  induction h with
  | nil => exact List.forall_mem_nil _
  | cons hd _ ih =>
    rw [List.forall_mem_cons] at hs ⊢
    exact ⟨List.any_eq_true.mpr ⟨_, hs.1, hd⟩, ih hs.2⟩

theorem way_pointsWord {before t after : List Char} {g : List (Nat × List Char)}
    (h : pointsWord.Way before t after g) : (∀ c ∈ t, isPointLetter c = true) ∧ g = [] := by
  rcases h with ⟨t₁, t₂, g₁, g₂, rfl, rfl, hword, hlast⟩ | ⟨rfl, rfl⟩
  · obtain ⟨hletters, rfl⟩ := Pattern.way_word.mp hword
    have hfirst := isPointLetter_of_word hletters fun c hc => by
      have happend : "points".toList = "point".toList ++ ['s'] := by decide
      rw [happend]
      exact List.mem_append_left _ hc
    rcases hlast with ⟨⟨d, hd, rfl⟩, rfl⟩ | ⟨rfl, rfl⟩
    · have hs : isPointLetter d = true := List.any_eq_true.mpr ⟨'s', by decide, hd⟩
      exact ⟨List.forall_mem_append.mpr ⟨hfirst, List.forall_mem_singleton.mpr hs⟩, rfl⟩
    · rw [List.append_nil]
      exact ⟨hfirst, rfl⟩
  · exact ⟨List.forall_mem_nil _, rfl⟩

theorem way_maximum {before u after : List Char} {g : List (Nat × List Char)}
    (h : maximumPattern.Way before u after g) :
    ∃ front blanks digits back, u = front ++ '/' :: (blanks ++ (digits ++ back)) ∧
      (∀ c ∈ front, isWhiteSpace c = true ∨ c = '-') ∧ (∀ c ∈ blanks, isWhiteSpace c = true) ∧
      Decimal.NumberText digits ∧ (∀ c ∈ back, isWhiteSpace c = true ∨ isPointLetter c = true) ∧
      g = [(2, digits)] := by
  obtain ⟨w₁, u₁, g₁, g₁', rfl, rfl, ⟨hw₁, rfl⟩, h⟩ := h
  obtain ⟨dash, u₂, g₂, g₂', rfl, rfl, hdash, h⟩ := h
  obtain ⟨slash, u₃, g₃, g₃', rfl, rfl, ⟨⟨c, hc, rfl⟩, rfl⟩, h⟩ := h
  obtain ⟨w₂, u₄, g₄, g₄', rfl, rfl, ⟨hw₂, rfl⟩, h⟩ := h
  obtain ⟨digits, u₅, g₅, g₅', rfl, rfl, ⟨g₆, rfl, hdigits⟩, h⟩ := h
  obtain ⟨w₃, points, g₇, g₇', rfl, rfl, ⟨hw₃, rfl⟩, hpoints⟩ := h
  obtain rfl : c = '/' := of_decide_eq_true hc
  obtain ⟨htext, rfl⟩ := way_number.mp hdigits
  obtain ⟨hletters, rfl⟩ := way_pointsWord hpoints
  have hfront : (∀ c ∈ dash, isWhiteSpace c = true ∨ c = '-') ∧ g₂ = [] := by
    rcases hdash with ⟨t₁, t₂, g₁, g₂, rfl, rfl, ⟨⟨d, hd, rfl⟩, rfl⟩, ht₂, rfl⟩ | ⟨rfl, rfl⟩
    · exact ⟨List.forall_mem_append.mpr ⟨List.forall_mem_singleton.mpr
        (.inr (of_decide_eq_true hd)), fun c hc => .inl (ht₂ c hc)⟩, rfl⟩
    · exact ⟨List.forall_mem_nil _, rfl⟩
  obtain ⟨hfront, rfl⟩ := hfront
  refine ⟨w₁ ++ dash, w₂, digits, w₃ ++ points, ?_, ?_, hw₂, htext, ?_, ?_⟩
  · simp
  · exact List.forall_mem_append.mpr ⟨fun c hc => .inl (hw₁ c hc), hfront⟩
  · exact List.forall_mem_append.mpr
      ⟨fun c hc => .inl (hw₃ c hc), fun c hc => .inr (hletters c hc)⟩
  · rfl

theorem way_maximum_plain {before digits : List Char} (h : Decimal.NumberText digits) :
    maximumPattern.Way before (' ' :: ' ' :: '-' :: '/' :: digits) [] [(2, digits)] := by
  have hblanks : ∀ c ∈ [' ', ' '], isWhiteSpace c = true := List.all_eq_true.mp (by decide)
  have hnone : ∀ c ∈ ([] : List Char), isWhiteSpace c = true := List.forall_mem_nil _
  refine ⟨[' ', ' '], '-' :: '/' :: digits, [], [(2, digits)], rfl, rfl, ⟨hblanks, rfl⟩, ?_⟩
  refine ⟨['-'], '/' :: digits, [], [(2, digits)], rfl, rfl,
    .inl ⟨['-'], [], [], [], rfl, rfl, ⟨⟨'-', rfl, rfl⟩, rfl⟩, hnone, rfl⟩, ?_⟩
  refine ⟨['/'], digits, [], [(2, digits)], rfl, rfl, ⟨⟨'/', rfl, rfl⟩, rfl⟩, ?_⟩
  refine ⟨[], digits, [], [(2, digits)], rfl, rfl, ⟨hnone, rfl⟩, ?_⟩
  refine ⟨digits, [], [(2, digits)], [], (List.append_nil _).symm, rfl,
    ⟨[], rfl, way_number.mpr ⟨h, rfl⟩⟩, ?_⟩
  exact ⟨[], [], [], [], rfl, rfl, ⟨hnone, rfl⟩, .inr ⟨rfl, rfl⟩⟩

def headerPattern : Pattern :=
  .whole (.seq (.group 1 (.star false Pattern.isAny)) maximumPattern)

/-- `^["“](.*)["”]$`. -/
def quotedPattern : Pattern :=
  .whole (.seq (.char fun c => c = '"' || c = '“')
    (.seq (.group 1 (.star true Pattern.isAny)) (.char fun c => c = '"' || c = '”')))

/-- `.replace(/^["“](.*)["”]$/, "$1")`. -/
def unquote (s : List Char) : List Char :=
  match quotedPattern.exec s with
  | some r => (r.text? 1).getD []
  | none => s

structure ParsedHeader where
  title : List Char
  maxPoints : Option (Option Decimal)
  deriving DecidableEq, Repr

def parseAssignmentHeader (rules : TextRules) (value : Option CellValue) : ParsedHeader :=
  let text := strip isWhiteSpace (cellText value)
  match headerPattern.exec text with
  | some r => ⟨unquote (strip isWhiteSpace ((r.text? 1).getD [])),
      some (rules.nearest (Decimal.read ((r.text? 2).getD [])))⟩
  | none => ⟨text, none⟩

def quoted (title : List Char) : List Char := '"' :: title ++ ['"']

def formatAssignmentHeader (assignment : Assignment) : List Char :=
  quoted assignment.title ++ ' ' :: ' ' :: '-' :: '/' :: assignment.maxPoints.text

/-- A title on one line, and a maximum that is written without an exponent. -/
def Assignment.Readable (assignment : Assignment) : Prop :=
  (∀ c ∈ assignment.title, Pattern.isAny c = true) ∧ assignment.maxPoints.Plain

instance (assignment : Assignment) : Decidable assignment.Readable :=
  decidable_of_iff (assignment.title.all Pattern.isAny = true ∧ assignment.maxPoints.Plain)
    (by rw [Assignment.Readable, List.all_eq_true])

theorem append_cons_inj_of_not_mem {x : Char} {s s' t t' : List Char} (ht : x ∉ t)
    (ht' : x ∉ t') (h : s ++ x :: t = s' ++ x :: t') : s = s' ∧ t = t' := by
  have hreverse := congrArg List.reverse h
  simp only [List.reverse_append, List.reverse_cons, List.append_assoc, List.singleton_append]
    at hreverse
  have hsplit := splitOnce_append (s := t.reverse) (by simpa using ht) s.reverse
  rw [hreverse, splitOnce_append (s := t'.reverse) (by simpa using ht')] at hsplit
  obtain ⟨hback, hfront⟩ := Prod.mk.inj (Option.some.inj hsplit)
  exact ⟨(List.reverse_injective hfront).symm, (List.reverse_injective hback).symm⟩

theorem isAny_quoted {title : List Char} (h : ∀ c ∈ title, Pattern.isAny c = true) :
    ∀ c ∈ quoted title, Pattern.isAny c = true := by
  have hquote : Pattern.isAny '"' = true := by decide
  rw [quoted]
  exact List.forall_mem_append.mpr
    ⟨List.forall_mem_cons.mpr ⟨hquote, h⟩, List.forall_mem_singleton.mpr hquote⟩

theorem unquote_quoted {title : List Char} (h : ∀ c ∈ title, Pattern.isAny c = true) :
    unquote (quoted title) = title := by
  have hway : (Pattern.seq (.char fun c => c = '"' || c = '“')
      (.seq (.group 1 (.star true Pattern.isAny)) (.char fun c => c = '"' || c = '”'))).Way []
        (quoted title) [] [(1, title)] :=
    ⟨['"'], title ++ ['"'], [], [(1, title)], rfl, rfl, ⟨⟨'"', by decide, rfl⟩, rfl⟩,
      title, ['"'], [(1, title)], [], rfl, rfl, ⟨[], rfl, h, rfl⟩, ⟨'"', by decide, rfl⟩, rfl⟩
  obtain ⟨r, hr⟩ := Pattern.exec_of_way hway
  have hread := Pattern.way_of_exec hr
  obtain ⟨t₁, t₂, g₁, g₂, htext, hgroups, ⟨⟨c, -, rfl⟩, rfl⟩, t, t₃, g₃, g₄, rfl, rfl,
    ⟨g₅, rfl, -, rfl⟩, ⟨d, -, rfl⟩, rfl⟩ := hread
  obtain ⟨-, htail⟩ := List.cons.inj htext
  change title ++ ['"'] = t ++ [d] at htail
  obtain ⟨rfl, -⟩ := List.append_inj' htail rfl
  rw [unquote, quotedPattern, hr]
  simp [Reading.text?, hgroups]

variable {assignment : Assignment} (hneg : assignment.maxPoints.neg = false)
include hneg

theorem eq_text_of_post {blanks digits back : List Char}
    (hblanks : ∀ c ∈ blanks, isWhiteSpace c = true)
    (hback : ∀ c ∈ back, isWhiteSpace c = true ∨ isPointLetter c = true)
    (h : blanks ++ (digits ++ back) = assignment.maxPoints.text) :
    digits = assignment.maxPoints.text := by
  have hchar : ∀ c ∈ assignment.maxPoints.text,
      isWhiteSpace c = false ∧ isPointLetter c = false := by
    intro c hc
    rcases Decimal.mem_text hneg c hc with hdigit | hother
    · refine ⟨isWhiteSpace_of_isDigit hdigit, ?_⟩
      cases hletter : isPointLetter c with
      | false => rfl
      | true =>
        have hnot := of_isPointLetter (q := fun c => !c.isDigit) (by decide) hletter
        rw [hdigit] at hnot
        cases hnot
    · have hall :
          ['.', 'e', '+', '-'].all (fun c => !isWhiteSpace c && !isPointLetter c) = true := by
        decide
      simpa using List.all_eq_true.mp hall c hother
  have hnil : ∀ s : List Char, (∀ c ∈ s, c ∈ assignment.maxPoints.text) →
      (∀ c ∈ s, isWhiteSpace c = true ∨ isPointLetter c = true) → s = [] := by
    intro s hs hspace
    rw [List.eq_nil_iff_forall_not_mem]
    intro c hc
    obtain ⟨hwhite, hletter⟩ := hchar c (hs c hc)
    rcases hspace c hc with h | h
    · rw [hwhite] at h
      cases h
    · rw [hletter] at h
      cases h
  have hfront := hnil blanks (fun c hc => by rw [← h]; simp [hc]) fun c hc => .inl (hblanks c hc)
  have hend := hnil back (fun c hc => by rw [← h]; simp [hc]) hback
  rw [hfront, hend] at h
  simpa using h

theorem header_way {s u : List Char} {g : List (Nat × List Char)}
    (htext : s ++ u = formatAssignmentHeader assignment)
    (h : maximumPattern.Way s.reverse u [] g) :
    (∃ back, s = quoted assignment.title ++ back) ∧
      Decimal.NumberText assignment.maxPoints.text ∧ g = [(2, assignment.maxPoints.text)] := by
  obtain ⟨front, blanks, digits, back, rfl, hfront, hblanks, hdigits, hback, rfl⟩ := way_maximum h
  have hnumber : '/' ∉ assignment.maxPoints.text := by
    intro hmem
    rcases Decimal.mem_text hneg '/' hmem with h | h
    · cases h
    · simp at h
  have hpost : '/' ∉ blanks ++ (digits ++ back) := by
    simp only [List.mem_append, not_or]
    refine ⟨fun hmem => ?_, fun hmem => ?_, fun hmem => ?_⟩
    · have hspace := hblanks _ hmem
      cases hspace
    · rcases hdigits.mem _ hmem with h | h
      · cases h
      · cases h
    · rcases hback _ hmem with h | h
      · cases h
      · have hnot := of_isPointLetter (q := fun c => c != '/') (by decide) h
        cases hnot
  have hsides : (s ++ front) ++ '/' :: (blanks ++ (digits ++ back)) =
      (quoted assignment.title ++ [' ', ' ', '-']) ++ '/' :: assignment.maxPoints.text := by
    rw [List.append_assoc, htext, formatAssignmentHeader, List.append_assoc]
    rfl
  obtain ⟨hleft, hright⟩ := append_cons_inj_of_not_mem hpost hnumber hsides
  obtain rfl := eq_text_of_post hneg hblanks hback hright
  refine ⟨?_, hdigits, rfl⟩
  rcases List.append_eq_append_iff.mp hleft with ⟨more, hquoted, hmore⟩ | ⟨more, hs, -⟩
  · cases more using List.reverseRecOn with
    | nil => exact ⟨[], by rw [hquoted, List.append_nil, List.append_nil]⟩
    | append_singleton more c =>
      rw [quoted, ← List.append_assoc] at hquoted
      obtain ⟨-, hc⟩ := List.append_inj' hquoted rfl
      obtain rfl := (List.singleton_inj.mp hc)
      rcases hfront '"' (by rw [hmore]; simp) with h | h
      · cases h
      · cases h
  · exact ⟨more, hs⟩

theorem exec_header_eq_none (h : ¬assignment.Readable) :
    headerPattern.exec (formatAssignmentHeader assignment) = none := by
  rw [headerPattern, Pattern.exec_whole_eq_none]
  rintro g ⟨s, u, g₁, g₂, htext, -, ⟨g₃, -, hs, -⟩, hmaximum⟩
  rw [List.append_nil] at hmaximum
  obtain ⟨⟨back, hback⟩, hnumber, -⟩ := header_way hneg htext.symm hmaximum
  refine h ⟨fun c hc => hs c (by rw [hback, quoted]; simp [hc]), ?_⟩
  by_contra hplain
  obtain ⟨c, hc, hsign⟩ := Decimal.sign_mem_text hneg hplain
  rcases hnumber.mem c hc with h | rfl
  · rcases hsign with rfl | rfl <;> cases h
  · simp at hsign

theorem exec_header (h : assignment.Readable) :
    ∃ r, headerPattern.exec (formatAssignmentHeader assignment) = some r ∧
      r.text? 1 = some (quoted assignment.title) ∧
      r.text? 2 = some assignment.maxPoints.text := by
  have hnumber := (Decimal.plain_text hneg h.2).1
  obtain ⟨r, g, hr, hgroups, hway⟩ := Pattern.exec_lazy (p := Pattern.isAny) (n := 1)
    (isAny_quoted h.1) (u := ' ' :: ' ' :: '-' :: '/' :: assignment.maxPoints.text)
    (fun t v hv ht g hway => by
      obtain ⟨⟨back, hback⟩, -⟩ := header_way hneg
        (by rw [← List.append_assoc, ← ht, formatAssignmentHeader]) hway
      have hlength := congrArg List.length ht
      rw [hback, List.length_append, List.length_append] at hlength
      exact hv (List.eq_nil_of_length_eq_zero (by omega)))
    (way_maximum_plain hnumber)
  obtain ⟨-, -, rfl⟩ := header_way hneg rfl hway
  refine ⟨r, hr, ?_, ?_⟩
  · rw [Reading.text?, hgroups]
    rfl
  · rw [Reading.text?, hgroups]
    rfl

theorem strip_header :
    strip isWhiteSpace (formatAssignmentHeader assignment) = formatAssignmentHeader assignment := by
  obtain ⟨d, hd, -⟩ := Decimal.digit_mem_text hneg
  have hne := List.ne_nil_of_mem hd
  have hfront : (formatAssignmentHeader assignment).dropWhile isWhiteSpace =
      formatAssignmentHeader assignment :=
    List.dropWhile_cons_of_neg (by decide)
  have hlast : ∀ c ∈ assignment.maxPoints.text, isWhiteSpace c = false := by
    intro c hc
    rcases Decimal.mem_text hneg c hc with h | h
    · exact isWhiteSpace_of_isDigit h
    · have hall : ['.', 'e', '+', '-'].all (fun c => !isWhiteSpace c) = true := by decide
      simpa using List.all_eq_true.mp hall c h
  rw [strip, hfront, List.rdropWhile_eq_self_iff]
  intro hall
  have hsplit : formatAssignmentHeader assignment =
      (quoted assignment.title ++ [' ', ' ', '-', '/']) ++ assignment.maxPoints.text := by
    rw [formatAssignmentHeader, List.append_assoc]
    rfl
  have hend : (formatAssignmentHeader assignment).getLast hall ∈ assignment.maxPoints.text := by
    simp only [hsplit, List.getLast_append_of_ne_nil _ hne]
    exact List.getLast_mem hne
  rw [hlast _ hend]
  exact Bool.false_ne_true

theorem words_header_ne (rules : TextRules) :
    normalizeWords rules (formatAssignmentHeader assignment) ≠
      normalizeWords rules assignment.title := by
  intro h
  have hdigits := congrArg (List.filter (·.isDigit)) h
  rw [digits_normalizeWords, digits_normalizeWords] at hdigits
  have hlength := congrArg List.length hdigits
  obtain ⟨d, hd, hdigit⟩ := Decimal.digit_mem_text hneg
  have hpos : 0 < (assignment.maxPoints.text.filter (·.isDigit)).length :=
    List.length_pos_of_mem (List.mem_filter.mpr ⟨hd, hdigit⟩)
  rw [formatAssignmentHeader, quoted, List.filter_append, List.length_append] at hlength
  have hmore : ((' ' :: ' ' :: '-' :: '/' :: assignment.maxPoints.text).filter (·.isDigit)) =
      assignment.maxPoints.text.filter (·.isDigit) := rfl
  have htitle : (('"' :: assignment.title ++ ['"']).filter (·.isDigit)) =
      assignment.title.filter (·.isDigit) := by
    rw [List.filter_append]
    exact List.append_nil _
  rw [hmore, htitle] at hlength
  omega

theorem parse_header (rules : TextRules)
    (hmaximum : rules.nearest assignment.maxPoints = some assignment.maxPoints) :
    parseAssignmentHeader rules (some (.text (formatAssignmentHeader assignment))) =
      if assignment.Readable then ⟨assignment.title, some (some assignment.maxPoints)⟩
      else ⟨formatAssignmentHeader assignment, none⟩ := by
  rw [parseAssignmentHeader, cellText, strip_header hneg]
  split
  · next r hr =>
    by_cases h : assignment.Readable
    · obtain ⟨r', hr', htitle, hnumber⟩ := exec_header hneg h
      rw [hr] at hr'
      obtain rfl := Option.some.inj hr'
      have hstrip : strip isWhiteSpace (quoted assignment.title) = quoted assignment.title := by
        have hfront : (quoted assignment.title).dropWhile isWhiteSpace = quoted assignment.title :=
          List.dropWhile_cons_of_neg (by decide)
        rw [strip, hfront, quoted, List.rdropWhile_concat_neg _ _ _ (by decide)]
      rw [if_pos h, htitle, hnumber, Option.getD_some, Option.getD_some, hstrip,
        unquote_quoted h.1, (Decimal.plain_text hneg h.2).2, hmaximum]
    · rw [exec_header_eq_none hneg h] at hr
      cases hr
  · next hr =>
    by_cases h : assignment.Readable
    · obtain ⟨r', hr', -⟩ := exec_header hneg h
      rw [hr] at hr'
      cases hr'
    · rw [if_neg h]

end Cinder.Teacher
