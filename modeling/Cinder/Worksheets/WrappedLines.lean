import Cinder.Ecma.NumberTexts
import Cinder.Streams.WordRuns
set_option autoImplicit false

/-!
The lines that a printed paper's texts are broken into: characters that the standard fonts lack are
replaced, words are put on a line while it is wide enough, and a word too wide for a line of its own
is broken.
-/

namespace Cinder.Worksheets
open Cinder.Streams Cinder.Ecma

/-- Compatibility decomposition, of which only ASCII is said. -/
structure Decomposition where
  nfkd : List Char → List Char
  nfkd_ascii : ∀ s, (∀ c ∈ s, c.toNat < 0x80) → nfkd s = s

def characterReplacements : List (Char × String) :=
  [('\u2018', "'"), ('\u2019', "'"), ('\u201c', "\""), ('\u201d', "\""), ('\u2013', "-"),
    ('\u2014', "-"), ('\u2026', "..."), ('\u2022', "-"), ('\u00d7', "x"), ('\u00f7', "/"),
    ('\u2264', "<="), ('\u2265', ">="), ('\u2260', "!="), ('\u00b1', "+/-"), ('\u20b9', "Rs."),
    ('\u03a9', "ohm"), ('\u03b1', "alpha"), ('\u03b2', "beta"), ('\u03b3', "gamma"),
    ('\u03b4', "delta"), ('\u03b8', "theta"), ('\u03bb', "lambda"), ('\u03bc', "mu"),
    ('\u03c0', "pi"), ('\u03c3', "sigma"), ('\u03c6', "phi"), ('\u03c9', "omega"),
    ('\u00b2', "^2"), ('\u00b3', "^3")]

def replaced (c : Char) : List Char :=
  ((characterReplacements.lookup c).map (·.toList)).getD [c]

def isPrintable (c : Char) : Bool := 0x20 ≤ c.toNat && c.toNat ≤ 0x7e

/-- A character that the fonts lack leaves a mark for each of its UTF-16 units. -/
def marked (c : Char) : List Char :=
  if isPrintable c || c.toNat = 0xb0 then [c]
  else if 0x10000 ≤ c.toNat then ['?', '?']
  else ['?']

def pdfSafeText (decomposition : Decomposition) (value : List Char) : List Char :=
  ((decomposition.nfkd (value.flatMap replaced)).filter fun c =>
    !(0x300 ≤ c.toNat && c.toNat ≤ 0x36f)).flatMap marked

def words (s : List Char) : List (List Char) := runs (fun c => !isWhiteSpace c) s

section Lines
variable (width : List Char → ℚ) (maxWidth : ℚ)

/-- The pieces of a word that is too wide, and the last one apart. -/
def breakWord : List Char → List Char → List (List Char) × List Char
  | fragment, [] => ([], fragment)
  | fragment, c :: word =>
    if maxWidth < width (fragment ++ [c]) ∧ fragment ≠ [] then
      let (pieces, last) := breakWord [c] word
      (fragment :: pieces, last)
    else breakWord (fragment ++ [c]) word

def push (line : List Char) : List (List Char) := if line = [] then [] else [line]

def fillLines : List Char → List (List Char) → List (List Char)
  | line, [] => push line
  | line, word :: words =>
    let candidate := if line = [] then word else line ++ ' ' :: word
    if width candidate ≤ maxWidth then fillLines candidate words
    else if width word ≤ maxWidth then push line ++ fillLines word words
    else
      let (pieces, fragment) := breakWord width maxWidth [] word
      push line ++ pieces ++ fillLines fragment words

end Lines

abbrev Font := List Char → ℚ → ℚ

def wrapLine (decomposition : Decomposition) (value : List Char) (maxWidth : ℚ) (font : Font)
    (size : ℚ) : List (List Char) :=
  let words := words (strip isWhiteSpace (pdfSafeText decomposition value))
  if words = [] then [[]]
  else fillLines (fun text => font text size) maxWidth [] words

section Layouts
variable (wide : List Char → Prop)

def joined (ws : List (List Char)) : List Char := [' '].intercalate ws

/-- Lines that hold words in order: on a line words stand apart by a blank, and only a word that is
too wide is broken into pieces. -/
inductive Laid : List (List Char) → List (List Char) → Prop
  | nil : Laid [] []
  | line {rest lines : List (List Char)} (ws : List (List Char)) (h : ws ≠ []) :
    Laid rest lines → Laid (ws ++ rest) (joined ws :: lines)
  | broken {rest lines : List (List Char)} (piece word : List Char) (hpiece : piece ≠ [])
    (hword : word ≠ []) (hwide : wide (piece ++ word)) :
    Laid (word :: rest) lines → Laid ((piece ++ word) :: rest) (piece :: lines)

end Layouts

/-- The lines hold exactly a text's words, and a line that is too wide is a single character. -/
structure KeepsWords (width : List Char → ℚ) (maxWidth : ℚ) (ws lines : List (List Char)) :
    Prop where
  blank : ws = [] → lines = [[]]
  laid : ws ≠ [] → Laid (fun s => maxWidth < width s) ws lines
  narrow : ∀ line ∈ lines, line.length ≤ 1 ∨ width line ≤ maxWidth

theorem joined_concat {ws : List (List Char)} (h : ws ≠ []) (word : List Char) :
    joined (ws ++ [word]) = joined ws ++ ' ' :: word := by
  induction ws with
  | nil => exact absurd rfl h
  | cons w ws ih =>
    cases ws with
    | nil => simp [joined]
    | cons v ws => simpa [joined, List.intercalate_cons_cons] using ih (List.cons_ne_nil v ws)

theorem joined_eq_nil_iff {ws : List (List Char)} (h : ∀ w ∈ ws, w ≠ []) :
    joined ws = [] ↔ ws = [] := by
  cases ws with
  | nil => simp [joined]
  | cons w ws =>
    have hw := h w List.mem_cons_self
    cases ws with
    | nil => simpa [joined] using hw
    | cons v ws => simp [joined, List.intercalate_cons_cons]

theorem words_joined {ws : List (List Char)}
    (h : ∀ w ∈ ws, w ≠ [] ∧ ∀ c ∈ w, isWhiteSpace c = false) : words (joined ws) = ws := by
  have hblank : (!isWhiteSpace ' ') = false := by decide
  induction ws with
  | nil => rfl
  | cons w ws ih =>
    rw [List.forall_mem_cons] at h
    have hfirst : words w = [w] := runs_of_forall h.1.1 fun c hc => by simp [h.1.2 c hc]
    cases ws with
    | nil => simpa [joined] using hfirst
    | cons v ws =>
      rw [joined, List.intercalate_cons_cons, words, List.append_assoc, List.singleton_append,
        runs_append_cons (q := fun c => !isWhiteSpace c) hblank]
      exact congrArg₂ (· ++ ·) hfirst (ih h.2)

section Filled
variable {width : List Char → ℚ} {maxWidth : ℚ} {rest lines : List (List Char)}

theorem laid_push {wide : List Char → Prop} {ws : List (List Char)} (hws : ∀ w ∈ ws, w ≠ [])
    (h : Laid wide rest lines) : Laid wide (ws ++ rest) (push (joined ws) ++ lines) := by
  by_cases hnil : ws = []
  · simpa [hnil, joined, push] using h
  · have hline : joined ws ≠ [] := fun hj => hnil ((joined_eq_nil_iff hws).mp hj)
    simpa [push, hline] using Laid.line ws hnil h

theorem breakWord_last {fragment word : List Char} (h : fragment ++ word ≠ []) :
    (breakWord width maxWidth fragment word).2 ≠ [] := by
  induction word generalizing fragment with
  | nil => simpa [breakWord] using h
  | cons c word ih =>
    rw [breakWord]
    split
    · exact ih (by simp)
    · exact ih (by simp)

theorem laid_breakWord (hmono : ∀ p q, width p ≤ width (p ++ q)) (fragment : List Char)
    {word : List Char} (h : Laid (fun s => maxWidth < width s)
      ((breakWord width maxWidth fragment word).2 :: rest) lines) :
    Laid (fun s => maxWidth < width s) ((fragment ++ word) :: rest)
      ((breakWord width maxWidth fragment word).1 ++ lines) := by
  induction word generalizing fragment with
  | nil => simpa [breakWord] using h
  | cons c word ih =>
    rw [breakWord] at h ⊢
    split at h
    · next hcut =>
      rw [if_pos hcut]
      have hwide : maxWidth < width (fragment ++ c :: word) := by
        have hlonger := hmono (fragment ++ [c]) word
        rw [List.append_assoc, List.singleton_append] at hlonger
        exact lt_of_lt_of_le hcut.1 hlonger
      exact Laid.broken fragment (c :: word) hcut.2 (List.cons_ne_nil c word) hwide (ih [c] h)
    · next hgrow =>
      rw [if_neg hgrow]
      simpa using ih (fragment ++ [c]) h

theorem laid_fillLines (hmono : ∀ p q, width p ≤ width (p ++ q)) {words : List (List Char)}
    (ws : List (List Char)) (hwords : ∀ w ∈ words, w ≠ []) (hws : ∀ w ∈ ws, w ≠ []) :
    Laid (fun s => maxWidth < width s) (ws ++ words)
      (fillLines width maxWidth (joined ws) words) := by
  induction words generalizing ws with
  | nil =>
    rw [fillLines]
    have hnil : Laid (fun s => maxWidth < width s) [] [] := .nil
    simpa using laid_push hws hnil
  | cons word words ih =>
    have hrest : ∀ w ∈ words, w ≠ [] := fun w hw => hwords w (List.mem_cons_of_mem _ hw)
    have hword : word ≠ [] := hwords word List.mem_cons_self
    have hone : ∀ v : List Char, v ≠ [] → ∀ w ∈ [v], w ≠ [] := by simp
    have hcandidate : (if joined ws = [] then word else joined ws ++ ' ' :: word) =
        joined (ws ++ [word]) := by
      by_cases hnil : ws = []
      · simp [hnil, joined]
      · rw [if_neg fun hj => hnil ((joined_eq_nil_iff hws).mp hj), joined_concat hnil]
    simp only [fillLines, hcandidate]
    split
    · have hmore : ∀ w ∈ ws ++ [word], w ≠ [] := by
        intro w hw
        obtain hw | hw := List.mem_append.mp hw
        · exact hws w hw
        · exact hone word hword w hw
      simpa using ih (ws ++ [word]) hrest hmore
    split
    · have hnext := ih [word] hrest (hone word hword)
      simpa [joined] using laid_push hws hnext
    · have hlast : (breakWord width maxWidth [] word).2 ≠ [] :=
        breakWord_last (by simpa using hword)
      have hnext := ih [_] hrest (hone _ hlast)
      rw [List.append_assoc]
      refine laid_push hws (laid_breakWord hmono [] ?_)
      simpa [joined] using hnext

def Narrow (width : List Char → ℚ) (maxWidth : ℚ) (line : List Char) : Prop :=
  line.length ≤ 1 ∨ width line ≤ maxWidth

theorem narrow_push {line : List Char} (h : Narrow width maxWidth line) :
    ∀ l ∈ push line, Narrow width maxWidth l := by
  intro l hl
  rw [push] at hl
  split at hl
  · cases hl
  · rwa [List.mem_singleton.mp hl]

theorem narrow_breakWord (fragment word : List Char)
    (h : Narrow width maxWidth fragment) :
    (∀ l ∈ (breakWord width maxWidth fragment word).1, Narrow width maxWidth l) ∧
      Narrow width maxWidth (breakWord width maxWidth fragment word).2 := by
  induction word generalizing fragment with
  | nil => exact ⟨List.forall_mem_nil _, h⟩
  | cons c word ih =>
    rw [breakWord]
    split
    · obtain ⟨hpieces, hlast⟩ := ih [c] (.inl (by simp))
      exact ⟨List.forall_mem_cons.mpr ⟨h, hpieces⟩, hlast⟩
    · next hgrow =>
      refine ih (fragment ++ [c]) ?_
      rcases not_and_or.mp hgrow with hfits | hempty
      · exact .inr (not_lt.mp hfits)
      · exact .inl (by simp [not_not.mp hempty])

theorem narrow_fillLines {line : List Char} (words : List (List Char))
    (h : Narrow width maxWidth line) :
    ∀ l ∈ fillLines width maxWidth line words, Narrow width maxWidth l := by
  induction words generalizing line with
  | nil => exact narrow_push h
  | cons word words ih =>
    simp only [fillLines]
    generalize (if line = [] then word else line ++ ' ' :: word) = candidate
    split
    · next hfits => exact ih (.inr hfits)
    split
    · next hfits =>
      exact List.forall_mem_append.mpr ⟨narrow_push h, ih (.inr hfits)⟩
    · have hempty : Narrow width maxWidth [] := .inl (by simp)
      obtain ⟨hpieces, hlast⟩ := narrow_breakWord [] word hempty
      have hfirst := List.forall_mem_append.mpr ⟨narrow_push h, hpieces⟩
      exact List.forall_mem_append.mpr ⟨hfirst, ih hlast⟩

end Filled

section Wrapped

theorem words_strip (s : List Char) : words (strip isWhiteSpace s) = words s := by
  have h := runs_strip (q := fun c => !isWhiteSpace c) s
  simpa [words] using h

variable (decomposition : Decomposition) {font : Font} (maxWidth : ℚ) {size : ℚ}

theorem wrapLine_keepsWords (hmono : ∀ p q, font p size ≤ font (p ++ q) size)
    (text : List Char) :
    KeepsWords (font · size) maxWidth (words (pdfSafeText decomposition text))
      (wrapLine decomposition text maxWidth font size) := by
  rw [wrapLine, words_strip]
  by_cases hnil : words (pdfSafeText decomposition text) = []
  · rw [hnil, if_pos rfl]
    exact ⟨fun _ => rfl, fun h => absurd rfl h, by simp⟩
  · rw [if_neg hnil]
    have hwords : ∀ w ∈ words (pdfSafeText decomposition text), w ≠ [] :=
      fun w hw => ne_nil_of_mem_runs hw
    refine ⟨fun h => absurd h hnil, fun _ => ?_, narrow_fillLines _ (.inl (by simp))⟩
    exact laid_fillLines hmono [] hwords (List.forall_mem_nil _)

end Wrapped

section Counted
variable {p : Char → Bool}

theorem countP_joined (hp : p ' ' = false) (ws : List (List Char)) :
    (joined ws).countP p = ws.flatten.countP p := by
  induction ws with
  | nil => rfl
  | cons w ws ih =>
    cases ws with
    | nil => simp [joined]
    | cons v ws =>
      rw [joined] at ih ⊢
      rw [List.intercalate_cons_cons, List.countP_append, List.countP_append, ih]
      simp [hp]

theorem Laid.countP {wide : List Char → Prop} {ws lines : List (List Char)} (hp : p ' ' = false)
    (h : Laid wide ws lines) : lines.flatten.countP p = ws.flatten.countP p := by
  induction h with
  | nil => rfl
  | line ws _ _ ih => simp [countP_joined hp, ih]
  | broken piece word _ _ _ _ ih =>
    simp only [List.flatten_cons, List.countP_append] at ih ⊢
    omega

theorem KeepsWords.countP {width : List Char → ℚ} {maxWidth : ℚ} {ws lines : List (List Char)}
    (hp : p ' ' = false) (h : KeepsWords width maxWidth ws lines) :
    lines.flatten.countP p = ws.flatten.countP p := by
  by_cases hnil : ws = []
  · rw [h.blank hnil, hnil]
    rfl
  · exact (h.laid hnil).countP hp

theorem countP_eq_imp {q : Char → Bool} {s : List Char} (hpq : ∀ c, p c = true → q c = true)
    (h : s.countP p = s.countP q) : ∀ c ∈ s, q c = true → p c = true := by
  induction s with
  | nil => exact List.forall_mem_nil _
  | cons d s ih =>
    have hle := List.countP_mono_left (l := s) fun c _ => hpq c
    have hd := hpq d
    rw [List.countP_cons, List.countP_cons] at h
    intro c hc hq
    cases hpd : p d with
    | true =>
      rw [if_pos hpd, if_pos (hd hpd)] at h
      rcases List.mem_cons.mp hc with rfl | hc
      · exact hpd
      · exact ih (by omega) c hc hq
    | false =>
      have hqd : q d = false := by
        by_contra hne
        rw [if_neg (by simp [hpd]), if_pos (by simpa using hne)] at h
        omega
      rw [if_neg (by simp [hpd]), if_neg (by simp [hqd])] at h
      rcases List.mem_cons.mp hc with rfl | hc
      · rw [hqd] at hq
        cases hq
      · exact ih (by omega) c hc hq

end Counted

section Plain

def isPlain (c : Char) : Bool := isPrintable c || (9 ≤ c.toNat && c.toNat ≤ 13)

theorem replaced_ascii {c : Char} (h : c.toNat < 0x80) : replaced c = [c] := by
  have hnone : characterReplacements.lookup c = none := by
    rw [List.lookup_eq_none_iff]
    intro entry hentry
    have hkeys : characterReplacements.all (fun e => 0x80 ≤ e.1.toNat) = true := by decide
    have hkey := List.all_eq_true.mp hkeys entry hentry
    have hne : c ≠ entry.1 := by
      rintro rfl
      rw [decide_eq_true_eq] at hkey
      omega
    simpa using hne
  rw [replaced, hnone]
  rfl

theorem pdfSafeText_plain (decomposition : Decomposition) {text : List Char}
    (h : ∀ c ∈ text, isPlain c = true) :
    pdfSafeText decomposition text = text.map fun c => if isPrintable c then c else '?' := by
  have hascii : ∀ c ∈ text, c.toNat < 0x80 := by
    intro c hc
    have hplain := h c hc
    simp only [isPlain, isPrintable, Bool.or_eq_true, Bool.and_eq_true, decide_eq_true_eq] at hplain
    omega
  have hreplaced : text.flatMap replaced = text := by
    rw [List.flatMap_congr (g := fun c => [c]) fun c hc => replaced_ascii (hascii c hc)]
    exact List.flatMap_singleton' text
  have hkept : (text.filter fun c => !(0x300 ≤ c.toNat && c.toNat ≤ 0x36f)) = text := by
    refine List.filter_eq_self.mpr fun c hc => ?_
    have hlow := hascii c hc
    simp
    omega
  rw [pdfSafeText, hreplaced, decomposition.nfkd_ascii text hascii, hkept, List.map_eq_flatMap]
  refine List.flatMap_congr fun c hc => ?_
  have hlow := hascii c hc
  have hb0 : c.toNat ≠ 0xb0 := by omega
  have hbig : ¬0x10000 ≤ c.toNat := by omega
  cases hp : isPrintable c with
  | true => simp [marked, hp]
  | false => simp [marked, hp, hb0, hbig]

theorem pdfSafeText_printable (decomposition : Decomposition) {text : List Char}
    (h : ∀ c ∈ text, isPrintable c = true) : pdfSafeText decomposition text = text := by
  rw [pdfSafeText_plain decomposition fun c hc => by simp [isPlain, h c hc]]
  refine (List.map_congr_left fun c hc => ?_).trans (List.map_id text)
  rw [if_pos (h c hc)]
  rfl

theorem isPrintable_of_isWhiteSpace {c : Char} (hspace : isWhiteSpace c = true)
    (hprint : isPrintable c = true) : c = ' ' := by
  have hnat : c.toNat = 32 := by
    simp only [isWhiteSpace, isPrintable, Bool.or_eq_true, Bool.and_eq_true,
      decide_eq_true_eq] at hspace hprint
    omega
  exact Char.toNat_inj.mp hnat

/-- The words of a plain text come out whole if and only if blanks alone separate them: any other
white space is replaced before the text is cut into words. -/
theorem wrapLine_keepsWords_iff (decomposition : Decomposition) {font : Font} {size : ℚ}
    (maxWidth : ℚ) {text : List Char} (hmono : ∀ p q, font p size ≤ font (p ++ q) size)
    (htext : ∀ c ∈ text, isPlain c = true) :
    KeepsWords (font · size) maxWidth (words text)
        (wrapLine decomposition text maxWidth font size) ↔
      ∀ c ∈ text, isWhiteSpace c = true → c = ' ' := by
  have hsafe := pdfSafeText_plain decomposition htext
  have hkept := wrapLine_keepsWords decomposition maxWidth hmono text
  constructor
  · intro h c hc hspace
    by_contra hne
    -- A replaced character belongs to a word of the safe text and to none of the text itself.
    have hcount := (h.countP (p := fun c => c ≠ ' ') rfl).symm.trans (hkept.countP rfl)
    rw [words, words, flatten_runs, flatten_runs, List.countP_filter, List.countP_filter, hsafe,
      List.countP_map] at hcount
    have hmark := countP_eq_imp (fun d hd => ?_) hcount c hc ?_
    · simp [hspace] at hmark
    · have hd' : d ≠ ' ' ∧ isWhiteSpace d = false := by simpa using hd
      have hquestion : isWhiteSpace '?' = false := by decide
      cases hp : isPrintable d with
      | true => simp [hp, hd'.1, hd'.2]
      | false => simp [hp, hquestion]
    · have hprint : isPrintable c = false := by
        by_contra hp
        exact hne (isPrintable_of_isWhiteSpace hspace (by simpa using hp))
      have hquestion : isWhiteSpace '?' = false := by decide
      simp [hprint, hquestion]
  · intro h
    have hprint : ∀ c ∈ text, isPrintable c = true := by
      intro c hc
      by_contra hnot
      have hp : isPrintable c = false := by simpa using hnot
      have hplain := htext c hc
      have hspace : isWhiteSpace c = true := by
        simp only [isPlain, hp, Bool.false_or, Bool.and_eq_true, decide_eq_true_eq] at hplain
        simp [isWhiteSpace, hplain]
      rw [h c hc hspace] at hp
      cases hp
    rwa [pdfSafeText_printable decomposition hprint] at hkept

end Plain

def evenFont : Font := fun text size => text.length*size

theorem evenFont_mono {size : ℚ} (h : 0 ≤ size) (p q : List Char) :
    evenFont p size ≤ evenFont (p ++ q) size := by
  have hlength : (p.length : ℚ) ≤ (p ++ q).length := by exact_mod_cast (by simp)
  exact mul_le_mul_of_nonneg_right hlength h

def asciiDecomposition : Decomposition := ⟨id, fun _ _ => rfl⟩

theorem wrapLine_keepsWords_iff_sample :
    KeepsWords (evenFont · 1) 4 (words "abcdef gh".toList)
        (wrapLine asciiDecomposition "abcdef gh".toList 4 evenFont 1) ↔
      ∀ c ∈ "abcdef gh".toList, isWhiteSpace c = true → c = ' ' :=
  wrapLine_keepsWords_iff asciiDecomposition 4 (evenFont_mono (by decide))
    (List.all_eq_true.mp (by decide))

/-- A line break joins two words to one. -/
theorem line_break_joins_words :
    wrapLine asciiDecomposition ['a', '\n', 'b'] 4 evenFont 1 = [['a', '?', 'b']] ∧
      ¬ KeepsWords (evenFont · 1) 4 (words ['a', '\n', 'b'])
        (wrapLine asciiDecomposition ['a', '\n', 'b'] 4 evenFont 1) := by
  have hlines : wrapLine asciiDecomposition ['a', '\n', 'b'] 4 evenFont 1 = [['a', '?', 'b']] := by
    decide +kernel
  refine ⟨hlines, fun h => ?_⟩
  have hcount := h.countP (p := fun c => c ≠ ' ') rfl
  rw [hlines, words, flatten_runs] at hcount
  exact absurd hcount (by decide)

end Cinder.Worksheets
