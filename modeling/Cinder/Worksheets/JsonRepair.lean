import Cinder.Ecma.JsonParsing
import Cinder.Ecma.TextEdits
import Mathlib.Algebra.Order.BigOperators.Group.List
set_option autoImplicit false

/-!
How a model's JSON is repaired before it is read: raw characters of strings are escaped, and a comma
before a closing bracket is dropped.
-/

namespace Cinder.Worksheets
open Cinder.Streams Cinder.Ecma

section Repair

/-- The loop of the repair, which knows whether it is in a string, and behind a backslash there. -/
def repairStrings : Bool → Bool → List Char → List Char
  | _, escaped, [] => if escaped then ['\\', '\\'] else []
  | false, escaped, c :: s => c :: repairStrings (c = '"') escaped s
  | true, true, c :: s =>
    (if ['"', '\\', '/', 'b', 'f', 'n', 'r', 't', 'u'].contains c then ['\\', c]
      else ['\\', '\\', c]) ++ repairStrings true false s
  | true, false, c :: s =>
    if c = '\\' then repairStrings true true s
    else if c = '"' then c :: repairStrings false false s
    else if c = '\n' then '\\' :: 'n' :: repairStrings true false s
    else if c = '\r' then '\\' :: 'r' :: repairStrings true false s
    else if c = '\t' then '\\' :: 't' :: repairStrings true false s
    else c :: repairStrings true false s

def isClosing (c : Char) : Bool := c = '}' || c = ']'

def trailingComma : Pattern :=
  .seqs [.char (· = ','), .star true isWhiteSpace, .group 1 (.char isClosing)]

def repairCommonJsonIssues (value : List Char) : List Char :=
  replaceAll trailingComma (fun r => (r.text? 1).getD []) (repairStrings false false value)

end Repair

section Commas

/-! The replacement as a scan, which knows whether it is behind a comma that is dropped. -/

variable (space : Char → Bool)

def closes (s : List Char) : Bool := (s.dropWhile space).head?.any isClosing

def withoutCommas : Bool → List Char → List Char
  | _, [] => []
  | dropping, c :: s =>
    if c = ',' then
      if closes space s then withoutCommas true s else c :: withoutCommas false s
    else if dropping && space c then withoutCommas true s
    else c :: withoutCommas false s

variable {space}

theorem isClosing_iff {c : Char} : isClosing c = true ↔ c = '}' ∨ c = ']' := by simp [isClosing]

theorem not_space_of_isClosing {c : Char} (h : isClosing c = true) : isWhiteSpace c = false := by
  rcases isClosing_iff.mp h with rfl | rfl <;> decide

theorem withoutCommas_of_closes {t s : List Char} {c : Char} (hcomma : ',' ∉ t)
    (ht : ∀ c ∈ t, space c = true) (hc : isClosing c = true) (hspace : space c = false) :
    withoutCommas space true (t ++ c :: s) = c :: withoutCommas space false s := by
  have hne : c ≠ ',' := by
    rintro rfl
    cases hc
  induction t with
  | nil => simp [withoutCommas, hne, hspace]
  | cons d t ih =>
    rw [List.mem_cons, not_or] at hcomma
    rw [List.forall_mem_cons] at ht
    simp [withoutCommas, Ne.symm hcomma.1, ht.1, ih hcomma.2 ht.2]

theorem comma_not_space {t : List Char} (h : ∀ c ∈ t, isWhiteSpace c = true) : ',' ∉ t := by
  intro hmem
  cases h ',' hmem

theorem closes_iff {s : List Char} :
    closes isWhiteSpace s = true ↔
      ∃ t c u, s = t ++ c :: u ∧ (∀ c ∈ t, isWhiteSpace c = true) ∧ isClosing c = true := by
  constructor
  · intro h
    rw [closes] at h
    cases hdrop : s.dropWhile isWhiteSpace with
    | nil => simp [hdrop] at h
    | cons c u =>
      refine ⟨s.takeWhile isWhiteSpace, c, u, ?_, fun d hd => List.mem_takeWhile_imp hd, ?_⟩
      · rw [← hdrop, List.takeWhile_append_dropWhile]
      · simpa [hdrop] using h
  · rintro ⟨t, c, u, rfl, ht, hc⟩
    have hspace := not_space_of_isClosing hc
    rw [closes, List.dropWhile_append_of_pos ht, List.dropWhile_cons_of_neg (by simp [hspace])]
    exact hc

theorem mem_run_trailingComma {before s : List Char} {r : Reading} :
    r ∈ trailingComma.run ⟨before, s, []⟩ ↔
      ∃ t c u, s = ',' :: (t ++ c :: u) ∧ (∀ c ∈ t, isWhiteSpace c = true) ∧
        isClosing c = true ∧ r = ⟨c :: (t.reverse ++ ',' :: before), u, [(1, [c])]⟩ := by
  rw [Pattern.mem_run_iff]
  constructor
  · rintro ⟨w, g, hrest, hbefore, hgroups, w₁, w₂, g₁, g₂, rfl, rfl, ⟨⟨d, hd, rfl⟩, rfl⟩,
      w₃, w₄, g₃, g₄, rfl, rfl, ⟨ht, rfl⟩, w₅, w₆, g₅, g₆, rfl, rfl,
      ⟨g₇, rfl, ⟨c, hc, rfl⟩, rfl⟩, rfl, rfl⟩
    obtain rfl : d = ',' := by simpa using hd
    refine ⟨w₃, c, r.rest, by simpa using hrest, ht, hc, Reading.ext ?_ rfl ?_⟩
    · simpa using hbefore
    · simpa using hgroups
  · rintro ⟨t, c, u, rfl, ht, hc, rfl⟩
    refine ⟨',' :: (t ++ [c]), [(1, [c])], by simp, by simp, rfl, [','], t ++ [c], [], [(1, [c])],
      rfl, rfl, ⟨⟨',', by simp, rfl⟩, rfl⟩, t, [c], [], [(1, [c])], rfl, rfl, ⟨ht, rfl⟩, [c], [],
      [(1, [c])], [], rfl, rfl, ⟨[], rfl, ⟨c, hc, rfl⟩, rfl⟩, rfl, rfl⟩

theorem run_trailingComma {t u before : List Char} {c : Char}
    (ht : ∀ c ∈ t, isWhiteSpace c = true) (hc : isClosing c = true) :
    (trailingComma.run ⟨before, ',' :: (t ++ c :: u), []⟩).head? =
      some ⟨c :: (t.reverse ++ ',' :: before), u, [(1, [c])]⟩ := by
  have hmem : _ ∈ trailingComma.run ⟨before, ',' :: (t ++ c :: u), []⟩ :=
    mem_run_trailingComma.mpr ⟨t, c, u, rfl, ht, hc, rfl⟩
  obtain ⟨r, hr⟩ := Option.isSome_iff_exists.mp (List.isSome_head?.mpr (List.ne_nil_of_mem hmem))
  obtain ⟨t', c', u', heq, ht', hc', rfl⟩ := mem_run_trailingComma.mp (List.mem_of_head? hr)
  have hspace (c : Char) (hc : isClosing c = true) : ¬isWhiteSpace c = true := by
    simp [not_space_of_isClosing hc]
  have hdrop := congrArg (List.dropWhile isWhiteSpace) (List.cons.inj heq).2
  rw [List.dropWhile_append_of_pos ht, List.dropWhile_append_of_pos ht',
    List.dropWhile_cons_of_neg (hspace c hc), List.dropWhile_cons_of_neg (hspace c' hc')] at hdrop
  obtain ⟨rfl, rfl⟩ := List.cons.inj hdrop
  obtain rfl := List.append_cancel_right (List.cons.inj heq).2
  exact hr

theorem replaceFrom_trailingComma (before s : List Char) :
    replaceFrom (fun _ => true) trailingComma (fun r => (r.text? 1).getD []) 0 before s =
      withoutCommas isWhiteSpace false s := by
  induction hn : s.length using Nat.strong_induction_on generalizing s before with
  | _ n ih =>
  cases s with
  | nil => rfl
  | cons c s =>
    subst hn
    by_cases hc : c = ','
    · subst hc
      rw [withoutCommas, if_pos rfl]
      by_cases hcloses : closes isWhiteSpace s = true
      · obtain ⟨t, c, u, rfl, ht, hclosing⟩ := closes_iff.mp hcloses
        have hlength : (c :: (t.reverse ++ ',' :: before)).length-(before.length+1) =
            (t ++ [c]).length := by
          simp
          omega
        have hskip : t ++ c :: u = t ++ [c] ++ u := by simp
        rw [if_pos hcloses, withoutCommas_of_closes (comma_not_space ht) ht hclosing
          (not_space_of_isClosing hclosing), replaceFrom, if_pos rfl, run_trailingComma ht hclosing]
        simp only [hlength]
        rw [hskip, replaceFrom_skip, ih u.length (by simp; omega) _ u rfl]
        rfl
      · have hnone : trailingComma.run ⟨before, ',' :: s, []⟩ = [] := by
          rw [List.eq_nil_iff_forall_not_mem]
          intro r hr
          obtain ⟨t, c, u, heq, ht, hclosing, -⟩ := mem_run_trailingComma.mp hr
          exact hcloses (closes_iff.mpr ⟨t, c, u, (List.cons.inj heq).2, ht, hclosing⟩)
        rw [if_neg hcloses, replaceFrom_cons_of_nil hnone, ih s.length (by simp) _ s rfl]
    · have hnone : trailingComma.run ⟨before, c :: s, []⟩ = [] := by
        rw [List.eq_nil_iff_forall_not_mem]
        intro r hr
        obtain ⟨t, d, u, heq, -⟩ := mem_run_trailingComma.mp hr
        exact hc (List.cons.inj heq).1
      rw [replaceFrom_cons_of_nil hnone, ih s.length (by simp) _ s rfl]
      simp [withoutCommas, hc]

theorem repairCommonJsonIssues_eq (s : List Char) :
    repairCommonJsonIssues s = withoutCommas isWhiteSpace false (repairStrings false false s) :=
  replaceFrom_trailingComma _ _

theorem withoutCommas_append {t : List Char} (ht : ',' ∉ t) (s : List Char) :
    withoutCommas space false (t ++ s) = t ++ withoutCommas space false s := by
  induction t with
  | nil => rfl
  | cons c t ih =>
    rw [List.mem_cons, not_or] at ht
    simp [withoutCommas, Ne.symm ht.1, ih ht.2]

theorem withoutCommas_comma {s : List Char} (h : closes space s = false) :
    withoutCommas space false (',' :: s) = ',' :: withoutCommas space false s := by
  simp [withoutCommas, h]

end Commas

section Strings

def isPlainSpace (c : Char) : Bool := isWhiteSpace c && 32 ≤ c.toNat

/-- The text holds a comma with a closing bracket behind it, and white space at most between. -/
def hidesComma : List Char → Bool
  | [] => false
  | c :: s => (c = ',' && closes isPlainSpace s) || hidesComma s

theorem closes_cons (space : Char → Bool) (c : Char) (s : List Char) :
    closes space (c :: s) = if space c then closes space s else isClosing c := by
  cases h : space c <;> simp [closes, h]

theorem isPlainSpace_of_plain {c : Char} (h : Json.isPlain c = true) :
    isPlainSpace c = isWhiteSpace c := by
  simp only [Json.isPlain, Bool.and_eq_true] at h
  simp [isPlainSpace, h.2]

theorem escape_of_not_plain {c : Char} (h : Json.isPlain c = false) :
    (∃ t, Json.escape c = '\\' :: t ∧ ',' ∉ t) ∧ isPlainSpace c = false ∧ isClosing c = false ∧
      c ≠ ',' := by
  rcases Json.escape_special h with ⟨rfl, hescape⟩ | ⟨rfl, hescape⟩ | ⟨hlow, hescape⟩
  · exact ⟨⟨_, hescape, by decide⟩, by decide, by decide, by decide⟩
  · exact ⟨⟨_, hescape, by decide⟩, by decide, by decide, by decide⟩
  · obtain ⟨x, t, hcons, hx, ht⟩ := Json.exists_of_isEscape hescape
    refine ⟨⟨x :: t, hcons, ?_⟩, ?_, ?_, ?_⟩
    · rw [List.mem_cons, not_or]
      constructor
      · rintro rfl
        cases hx
      · intro hmem
        cases List.all_eq_true.mp ht ',' hmem
    · simp [isPlainSpace, hlow]
    · by_contra hclosing
      rcases isClosing_iff.mp (by simpa using hclosing) with rfl | rfl <;> simp at hlow
    · rintro rfl
      simp at hlow

theorem closes_string (s rest : List Char) :
    closes isWhiteSpace (s.flatMap Json.escape ++ '"' :: rest) = closes isPlainSpace s := by
  induction s with
  | nil => rfl
  | cons c s ih =>
    rw [List.flatMap_cons, List.append_assoc, closes_cons]
    cases hplain : Json.isPlain c with
    | true =>
      rw [Json.escape_plain hplain, List.singleton_append, closes_cons, ih,
        isPlainSpace_of_plain hplain]
    | false =>
      obtain ⟨⟨t, hescape, -⟩, hspace, hclosing, -⟩ := escape_of_not_plain hplain
      rw [hescape, List.cons_append, closes_cons, hspace, hclosing]
      rfl

theorem withoutCommas_string (dropping : Bool) (s rest : List Char) :
    withoutCommas isWhiteSpace dropping (s.flatMap Json.escape ++ '"' :: rest) =
      (withoutCommas isPlainSpace dropping s).flatMap Json.escape ++
        '"' :: withoutCommas isWhiteSpace false rest := by
  induction s generalizing dropping with
  | nil =>
    have hspace : isWhiteSpace '"' = false := by decide
    simp [withoutCommas, hspace]
  | cons c s ih =>
    rw [List.flatMap_cons, List.append_assoc]
    cases hplain : Json.isPlain c with
    | true =>
      have hspace := isPlainSpace_of_plain hplain
      rw [Json.escape_plain hplain, List.singleton_append]
      simp only [withoutCommas, closes_string, hspace, ih]
      split
      · split <;> simp [Json.escape_plain hplain]
      · split <;> simp [Json.escape_plain hplain]
    | false =>
      obtain ⟨⟨t, hescape, hcomma⟩, hspace, -, hc⟩ := escape_of_not_plain hplain
      have hslash : isWhiteSpace '\\' = false := by decide
      have hkept : ∀ u, withoutCommas isWhiteSpace false (t ++ u) =
          t ++ withoutCommas isWhiteSpace false u := withoutCommas_append hcomma
      simp [hescape, withoutCommas, hslash, hspace, hc, hkept, ih]

theorem withoutCommas_of_not_hides {s : List Char} (h : hidesComma s = false) :
    withoutCommas isPlainSpace false s = s := by
  induction s with
  | nil => rfl
  | cons c s ih =>
    simp only [hidesComma, Bool.or_eq_false_iff, Bool.and_eq_false_iff,
      decide_eq_false_iff_not] at h
    rcases h.1 with hc | hcloses
    · simp [withoutCommas, hc, ih h.2]
    · simp [withoutCommas, hcloses, ih h.2]

theorem withoutCommas_length_le (space : Char → Bool) (dropping : Bool) (s : List Char) :
    (withoutCommas space dropping s).length ≤ s.length := by
  induction s generalizing dropping with
  | nil => simp [withoutCommas]
  | cons c s ih =>
    have hdropped := ih true
    have hkept := ih false
    simp only [withoutCommas]
    split
    · split <;> simp <;> omega
    · split <;> simp <;> omega

theorem withoutCommas_length_lt {s : List Char} (h : hidesComma s = true) :
    (withoutCommas isPlainSpace false s).length < s.length := by
  induction s with
  | nil => cases h
  | cons c s ih =>
    have hdropped := withoutCommas_length_le isPlainSpace true s
    simp only [hidesComma, Bool.or_eq_true, Bool.and_eq_true, decide_eq_true_eq] at h
    rcases h with ⟨rfl, hcloses⟩ | h
    · simp [withoutCommas, hcloses]
      omega
    · have hkept := ih h
      simp only [withoutCommas]
      split
      · split <;> simp <;> omega
      · simp [hkept]

end Strings

section Gaps

def isOneComma (gap : List Char) : Bool :=
  let behind := gap.dropWhile Json.isJsonSpace
  behind.isEmpty || (behind.head? = some ',' && behind.tail.all isWhiteSpace)

def gapRest : List Char → List Char
  | [] => []
  | c :: s => if c = ',' && s.all isWhiteSpace then [] else c :: gapRest s

theorem closes_gap {gap : List Char} (hgap : Json.IsGap gap) {c : Char} (hc : isClosing c = true)
    (rest : List Char) : closes isWhiteSpace (gap ++ c :: rest) = gap.all isWhiteSpace := by
  induction gap with
  | nil => simp [closes_cons, not_space_of_isClosing hc, hc]
  | cons d gap ih =>
    rw [Json.IsGap, List.forall_mem_cons] at hgap
    rw [List.cons_append, closes_cons, ih hgap.2, List.all_cons]
    rcases hgap.1 with rfl | hspace
    · rfl
    · simp [hspace]

theorem withoutCommas_gap {gap : List Char} (hgap : Json.IsGap gap) {c : Char}
    (hc : isClosing c = true) (rest : List Char) :
    withoutCommas isWhiteSpace false (gap ++ c :: rest) =
      gapRest gap ++ c :: withoutCommas isWhiteSpace false rest := by
  induction gap with
  | nil =>
    have hcomma : c ≠ ',' := by
      rintro rfl
      cases hc
    simp [withoutCommas, gapRest, hcomma]
  | cons d gap ih =>
    rw [Json.IsGap, List.forall_mem_cons] at hgap
    rw [List.cons_append, withoutCommas, gapRest, closes_gap hgap.2 hc, ih hgap.2]
    by_cases hd : d = ','
    · cases hall : gap.all isWhiteSpace with
      | true =>
        have hspace : ∀ c ∈ gap, isWhiteSpace c = true := by simpa using hall
        simp [hd, withoutCommas_of_closes (comma_not_space hspace) hspace hc
          (not_space_of_isClosing hc)]
      | false => simp [hd]
    · simp [hd]

theorem gapRest_subset (gap : List Char) : gapRest gap ⊆ gap := by
  induction gap with
  | nil => exact List.Subset.refl _
  | cons c s ih =>
    rw [gapRest]
    split
    · exact List.nil_subset _
    · exact List.cons_subset_cons c ih

theorem gapRest_readable {gap : List Char} :
    (∀ c ∈ gapRest gap, Json.isJsonSpace c = true) ↔ isOneComma gap = true := by
  induction gap with
  | nil => simp [gapRest, isOneComma]
  | cons c s ih =>
    have hcomma : Json.isJsonSpace ',' = false := by decide
    rw [gapRest]
    by_cases hc : c = ','
    · subst hc
      cases hall : s.all isWhiteSpace <;> simp [isOneComma, hcomma, hall]
    · cases hspace : Json.isJsonSpace c with
      | true =>
        have hskip : isOneComma (c :: s) = isOneComma s := by simp [isOneComma, hspace]
        simp [hc, hspace, hskip, ih]
      | false => simp [isOneComma, hspace, hc]

end Gaps

section Pieces

def Writes (c : Char) (t : List Char) : Prop :=
  t = Json.escape c ∨ (t = [c] ∧ (c = '\n' ∨ c = '\r' ∨ c = '\t'))

inductive WritesToken : Token → List Char → Prop
  | string {s : List Char} {ts : List (List Char)} (h : List.Forall₂ Writes s ts) :
      WritesToken (.string s) ('"' :: (ts.flatten ++ ['"']))
  | other {t : Token} (h : t.isString = false) : WritesToken t t.text

structure TokenPiece where
  gap : List Char
  token : Token
  text : List Char

structure TokenPiece.Loose (p : TokenPiece) : Prop where
  written : WritesToken p.token p.text
  gap : ∀ c ∈ p.gap, c = ',' ∨ isWhiteSpace c = true
  closing : p.gap ≠ [] → p.token = .closeArray ∨ p.token = .closeObject

def looseText (pieces : List TokenPiece) : List Char := pieces.flatMap fun p => p.gap ++ p.text

theorem repairStrings_outside {t : List Char} (ht : '"' ∉ t) (s : List Char) :
    repairStrings false false (t ++ s) = t ++ repairStrings false false s := by
  induction t with
  | nil => rfl
  | cons c t ih =>
    rw [List.mem_cons, not_or] at ht
    simp [repairStrings, Ne.symm ht.1, ih ht.2]

theorem repairStrings_plain {c : Char} (h : Json.isPlain c = true) (s : List Char) :
    repairStrings true false (c :: s) = c :: repairStrings true false s := by
  simp only [Json.isPlain, Bool.and_eq_true, decide_eq_true_eq] at h
  have hne {d : Char} (hd : d.toNat < 32) : c ≠ d := by
    rintro rfl
    omega
  simp [repairStrings, h.1.1, h.1.2, hne (by decide : '\n'.toNat < 32),
    hne (by decide : '\r'.toNat < 32), hne (by decide : '\t'.toNat < 32)]

theorem repairStrings_digits {t : List Char} (h : t.all Char.isAlphanum = true) (s : List Char) :
    repairStrings true false (t ++ s) = t ++ repairStrings true false s := by
  induction t with
  | nil => rfl
  | cons c t ih =>
    rw [List.all_cons, Bool.and_eq_true] at h
    rw [List.cons_append, repairStrings_plain (Json.isPlain_of_isAlphanum h.1), ih h.2,
      List.cons_append]

theorem repairStrings_letter {x : Char} (hx : Json.isEscapeLetter x = true) (s : List Char) :
    repairStrings true false ('\\' :: x :: s) = '\\' :: x :: repairStrings true false s := by
  simp only [Json.isEscapeLetter, List.contains_iff_mem, List.mem_cons, List.not_mem_nil,
    or_false] at hx
  rcases hx with rfl | rfl | rfl | rfl | rfl | rfl <;> rfl

theorem repairStrings_writes {c : Char} {t : List Char} (h : Writes c t) (s : List Char) :
    repairStrings true false (t ++ s) = Json.escape c ++ repairStrings true false s := by
  rcases h with rfl | ⟨rfl, rfl | rfl | rfl⟩
  · cases hplain : Json.isPlain c with
    | true => rw [Json.escape_plain hplain, List.singleton_append, repairStrings_plain hplain,
        List.singleton_append]
    | false =>
      rcases Json.escape_special hplain with ⟨-, hescape⟩ | ⟨-, hescape⟩ | ⟨-, hescape⟩
      · rw [hescape]
        rfl
      · rw [hescape]
        rfl
      · obtain ⟨x, t, hcons, hx, ht⟩ := Json.exists_of_isEscape hescape
        rw [hcons, List.cons_append, List.cons_append, repairStrings_letter hx,
          repairStrings_digits ht, List.cons_append, List.cons_append]
  · rfl
  · rfl
  · rfl

theorem repairStrings_string {s : List Char} {ts : List (List Char)}
    (h : List.Forall₂ Writes s ts) (rest : List Char) :
    repairStrings false false ('"' :: (ts.flatten ++ '"' :: rest)) =
      Json.quote s ++ repairStrings false false rest := by
  have hbody : repairStrings true false (ts.flatten ++ '"' :: rest) =
      s.flatMap Json.escape ++ '"' :: repairStrings false false rest := by
    induction h with
    | nil => rfl
    | cons hc _ ih =>
      rw [List.flatten_cons, List.append_assoc, repairStrings_writes hc, ih, List.flatMap_cons,
        List.append_assoc]
  rw [repairStrings, Json.quote]
  simp [hbody]

theorem repairStrings_pieces {pieces : List TokenPiece} (h : ∀ p ∈ pieces, p.Loose) :
    repairStrings false false (looseText pieces) =
      Json.render (pieces.map fun p => (p.gap, p.token)) := by
  induction pieces with
  | nil => rfl
  | cons p pieces ih =>
    obtain ⟨gap, token, text⟩ := p
    rw [List.forall_mem_cons] at h
    obtain ⟨⟨hwritten, hgap, -⟩, hmore⟩ := h
    replace hwritten : WritesToken token text := hwritten
    have hquote : '"' ∉ gap := by
      intro hmem
      rcases hgap '"' hmem with hc | hc <;> cases hc
    have hloose : looseText (⟨gap, token, text⟩ :: pieces) = gap ++ (text ++ looseText pieces) := by
      simp [looseText]
    have hrender : Json.render ((⟨gap, token, text⟩ :: pieces).map fun p => (p.gap, p.token)) =
        gap ++ (token.text ++ Json.render (pieces.map fun p => (p.gap, p.token))) := by
      simp [Json.render]
    rw [hloose, hrender, repairStrings_outside hquote, ← ih hmore]
    cases hwritten with
    | string hs =>
      have hstring := repairStrings_string hs (looseText pieces)
      simpa [Token.text] using hstring
    | other hother =>
      have houtside : '"' ∉ token.text := by
        by_cases hcomma : token = .comma
        · simp [hcomma, Token.text]
        · exact fun hmem => (Token.mem_text hother hcomma '"' hmem).1 rfl
      rw [repairStrings_outside houtside]

theorem closes_text {t : Token} (ht : t.starts = true) (rest : List Char) :
    closes isWhiteSpace (t.text ++ rest) = false := by
  cases t with
  | boolean b => cases b <;> rfl
  | number d =>
    obtain ⟨c, s, htext, hc⟩ := d.text_head
    rw [Token.text, htext, List.cons_append, closes_cons]
    rcases hc with hdigit | rfl
    · have hclosing : isClosing c = false := by
        by_contra h
        rcases isClosing_iff.mp (by simpa using h) with rfl | rfl <;> cases hdigit
      rw [isWhiteSpace_of_isDigit hdigit, hclosing]
      rfl
    · rfl
  | closeArray => cases ht
  | closeObject => cases ht
  | comma => cases ht
  | colon => cases ht
  | _ => rfl

def BeforeClosing (p : List Char × Token) : Prop :=
  p.1 ≠ [] → p.2 = .closeArray ∨ p.2 = .closeObject

theorem closes_render {l : List (List Char × Token)} (hclosing : ∀ p ∈ l, BeforeClosing p)
    (hhead : ∀ t ∈ (l.map (·.2)).head?, t.starts = true) :
    closes isWhiteSpace (Json.render l) = false := by
  cases l with
  | nil => rfl
  | cons p l =>
    obtain ⟨gap, t⟩ := p
    have hstarts : t.starts = true := hhead t rfl
    have hgap : gap = [] := by
      by_contra hne
      rcases hclosing _ List.mem_cons_self hne with h | h
      · rw [show t = .closeArray from h] at hstarts
        cases hstarts
      · rw [show t = .closeObject from h] at hstarts
        cases hstarts
    have hrender : Json.render ((gap, t) :: l) = t.text ++ Json.render l := by
      simp [Json.render, hgap]
    rw [hrender, closes_text hstarts]

theorem withoutCommas_render {l : List (List Char × Token)} (hgaps : ∀ p ∈ l, Json.IsGap p.1)
    (hclosing : ∀ p ∈ l, BeforeClosing p) (hchain : (l.map (·.2)).IsChain (Token.mayFollow · ·)) :
    withoutCommas isWhiteSpace false (Json.render l) =
      Json.render (l.map fun p =>
        (gapRest p.1, p.2.mapString (withoutCommas isPlainSpace false))) := by
  induction l with
  | nil => rfl
  | cons p l ih =>
    obtain ⟨gap, t⟩ := p
    rw [List.forall_mem_cons] at hgaps hclosing
    rw [List.map_cons, List.isChain_cons] at hchain
    have ih := ih hgaps.2 hclosing.2 hchain.2
    have hrender (gap : List Char) (t : Token) (l : List (List Char × Token)) :
        Json.render ((gap, t) :: l) = gap ++ (t.text ++ Json.render l) := by
      simp [Json.render]
    rw [List.map_cons, hrender, hrender, ← ih]
    by_cases hgap : gap = []
    · subst hgap
      by_cases hcomma : t = .comma
      · subst hcomma
        have hkept := closes_render hclosing.2 fun u hu => hchain.1 u hu
        exact withoutCommas_comma hkept
      · cases hstring : t.isString with
        | true =>
          cases t with
          | string s =>
            have hs := withoutCommas_string false s (Json.render l)
            simpa [Token.text, Json.quote, gapRest, Token.mapString, withoutCommas] using hs
          | _ => cases hstring
        | false =>
          have hno : ',' ∉ t.text := fun hmem =>
            (Token.mem_text hstring hcomma ',' hmem).2 rfl
          have hsame : t.mapString (withoutCommas isPlainSpace false) = t := by
            cases t <;> first | rfl | cases hstring
          rw [hsame]
          exact withoutCommas_append hno _
    · rcases hclosing.1 hgap with h | h
      · rw [show t = .closeArray from h]
        exact withoutCommas_gap hgaps.1 rfl _
      · rw [show t = .closeObject from h]
        exact withoutCommas_gap hgaps.1 rfl _

theorem repair_tokens {ts : List Token} (hchain : ts.IsChain (Token.mayFollow · ·)) :
    repairCommonJsonIssues (ts.flatMap Token.text) =
      (ts.map (Token.mapString (withoutCommas isPlainSpace false))).flatMap Token.text := by
  have hloose : ∀ p ∈ ts.map fun t => (⟨[], t, t.text⟩ : TokenPiece), p.Loose := by
    rw [List.forall_mem_map]
    refine fun t _ => ⟨?_, List.forall_mem_nil _, fun h => absurd rfl h⟩
    cases t with
    | string s =>
      have hs : List.Forall₂ Writes s (s.map Json.escape) := by
        rw [List.forall₂_map_right_iff, List.forall₂_same]
        exact fun c _ => .inl rfl
      simpa [Token.text, Json.quote, List.flatMap] using WritesToken.string hs
    | _ => exact .other rfl
  have htext : ts.flatMap Token.text = looseText (ts.map fun t => ⟨[], t, t.text⟩) := by
    simp [looseText, List.flatMap_map]
  have hrendered := withoutCommas_render (l := ts.map fun t => ([], t)) (by simp [Json.IsGap])
    (by simp [BeforeClosing]) (by simpa using hchain)
  rw [htext, repairCommonJsonIssues_eq, repairStrings_pieces hloose, List.map_map]
  refine hrendered.trans ?_
  simp [Json.render, List.flatMap_map, gapRest]

end Pieces

section Meaning
variable {round : Decimal → Decimal}

theorem tokens_injective {v w : Json} (h : v.tokens = w.tokens) : v = w := by
  have hv := Json.parseTokens_eq_some_iff.mpr (Eq.refl v.tokens)
  rw [Json.parseTokens_eq_some_iff.mpr h] at hv
  exact (Option.some.inj hv).symm

theorem settle_mapStrings_iff {v : Json} (hv : v.Proper round) :
    (v.mapStrings (withoutCommas isPlainSpace false)).settle round = v ↔
      ∀ s, .string s ∈ v.tokens → hidesComma s = false := by
  constructor
  · intro h s hs
    by_contra hhides
    have hle := Json.textLength_settle_le round (v.mapStrings (withoutCommas isPlainSpace false))
    rw [h, Json.textLength, Json.textLength, Json.tokens_mapStrings, List.map_map] at hle
    have hlt : (v.tokens.map (Token.textLength ∘ Token.mapString
        (withoutCommas isPlainSpace false))).sum < (v.tokens.map Token.textLength).sum := by
      refine List.sum_lt_sum _ _ (fun t _ => ?_) ⟨_, hs, ?_⟩
      · cases t with
        | string s => exact withoutCommas_length_le _ _ s
        | _ => exact le_refl _
      · exact withoutCommas_length_lt (by simpa using hhides)
    omega
  · intro h
    have hsame : v.mapStrings (withoutCommas isPlainSpace false) = v := by
      refine tokens_injective ?_
      rw [Json.tokens_mapStrings]
      refine (List.map_congr_left fun t ht => ?_).trans (List.map_id _)
      cases t with
      | string s => exact congrArg Token.string (withoutCommas_of_not_hides (h s ht))
      | _ => rfl
    rw [hsame, Json.settle_of_proper v hv]

/-- A text that is written loosely is repaired to its value if no gap has more than a comma and no
string or key has one before a closing bracket. -/
theorem parse_repair_iff {v : Json} (hv : v.Proper round) {pieces : List TokenPiece}
    (hloose : ∀ p ∈ pieces, p.Loose) (htokens : pieces.map (·.token) = v.tokens) :
    Json.parse round (repairCommonJsonIssues (looseText pieces)) = some v ↔
      (∀ p ∈ pieces, isOneComma p.gap = true) ∧
        ∀ s, .string s ∈ v.tokens → hidesComma s = false := by
  have hgaps : ∀ p ∈ pieces.map fun p => (p.gap, p.token), Json.IsGap p.1 := by
    rw [List.forall_mem_map]
    exact fun p hp => (hloose p hp).gap
  have hclosing : ∀ p ∈ pieces.map fun p => (p.gap, p.token), BeforeClosing p := by
    rw [List.forall_mem_map]
    exact fun p hp => (hloose p hp).closing
  have htokens' : (pieces.map fun p => (p.gap, p.token)).map (·.2) = v.tokens := by
    rw [← htokens, List.map_map]
    rfl
  have hchain : ((pieces.map fun p => (p.gap, p.token)).map (·.2)).IsChain
      (Token.mayFollow · ·) := by
    have hv := Json.isChain_tokens v [] (by simp) .nil
    rwa [htokens', ← List.append_nil v.tokens]
  have hmapped : ((pieces.map fun p => (p.gap, p.token)).map fun p =>
      (gapRest p.1, p.2.mapString (withoutCommas isPlainSpace false))).map (·.2) =
        (v.mapStrings (withoutCommas isPlainSpace false)).tokens := by
    rw [Json.tokens_mapStrings, ← htokens']
    simp only [List.map_map]
    rfl
  rw [repairCommonJsonIssues_eq, repairStrings_pieces hloose,
    withoutCommas_render hgaps hclosing hchain, Json.parse_render hmapped, settle_mapStrings_iff hv]
  · simp only [List.forall_mem_map, gapRest_readable]
  · intro p hp
    obtain ⟨q, hq, rfl⟩ := List.mem_map.mp hp
    exact fun c hc => hgaps q hq c (gapRest_subset q.1 hc)
  · intro p hp hne
    obtain ⟨q, hq, rfl⟩ := List.mem_map.mp hp
    have hq1 : q.1 ≠ [] := by
      intro hnil
      refine hne ?_
      simp [hnil, gapRest]
    rcases hclosing q hq hq1 with h | h
    · exact .inl (by simp [h, Token.mapString])
    · exact .inr (by simp [h, Token.mapString])

/-- A raw line break in a string, and a comma too much. -/
theorem parse_repair_sample :
    Json.parse id (repairCommonJsonIssues "\x7b\"ask\":\"F\n2\",\n\x7d".toList) =
      some (.object [(['a', 's', 'k'], .string ['F', '\n', '2'])]) := by
  have hkey : List.Forall₂ Writes ['a', 's', 'k'] [['a'], ['s'], ['k']] :=
    .cons (.inl rfl) (.cons (.inl rfl) (.cons (.inl rfl) .nil))
  have hbreak : Writes '\n' ['\n'] := .inr ⟨rfl, .inl rfl⟩
  have htext : List.Forall₂ Writes ['F', '\n', '2'] [['F'], ['\n'], ['2']] :=
    .cons (.inl rfl) (.cons hbreak (.cons (.inl rfl) .nil))
  have hloose : ∀ p ∈ ([⟨[], .openObject, ['\x7b']⟩,
      ⟨[], .string ['a', 's', 'k'], ['"', 'a', 's', 'k', '"']⟩, ⟨[], .colon, [':']⟩,
      ⟨[], .string ['F', '\n', '2'], ['"', 'F', '\n', '2', '"']⟩,
      ⟨[',', '\n'], .closeObject, ['\x7d']⟩] : List TokenPiece), p.Loose := by
    simp only [List.forall_mem_cons]
    have hgap : ∀ c ∈ [',', '\n'], c = ',' ∨ isWhiteSpace c = true := by simp [isWhiteSpace]
    exact ⟨⟨.other rfl, List.forall_mem_nil _, fun h => absurd rfl h⟩,
      ⟨.string hkey, List.forall_mem_nil _, fun h => absurd rfl h⟩,
      ⟨.other rfl, List.forall_mem_nil _, fun h => absurd rfl h⟩,
      ⟨.string htext, List.forall_mem_nil _, fun h => absurd rfl h⟩,
      ⟨.other rfl, hgap, fun _ => .inr rfl⟩, List.forall_mem_nil _⟩
  have hv : (Json.object [(['a', 's', 'k'], .string ['F', '\n', '2'])]).Proper id :=
    ⟨by decide, trivial, trivial⟩
  refine (parse_repair_iff hv hloose rfl).mpr ⟨by decide, fun s hs => ?_⟩
  simp only [Json.tokens, Json.moreMembers, List.mem_cons, List.mem_append, Token.string.injEq,
    reduceCtorEq, List.not_mem_nil, false_or, or_false] at hs
  rcases hs with rfl | rfl <;> rfl

/-- A string that looks like the end of a list. -/
theorem comma_lost_in_string :
    Json.parse id (repairCommonJsonIssues (Json.string [',', ']']).stringify) ≠
      some (.string [',', ']']) := by
  have hlost : Json.parse id (repairCommonJsonIssues (Json.string [',', ']']).stringify) =
      some (.string [']']) := by
    rfl
  rw [hlost]
  simp

end Meaning

end Cinder.Worksheets
