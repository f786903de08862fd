import Cinder.Ecma.JsonTexts
set_option autoImplicit false

/-!
`JSON.stringify` and `JSON.parse`: the texts of the tokens, and how they are read again with white
space between them.
-/

namespace Cinder.Ecma
open Cinder.Storage Cinder.Streams

theorem Decimal.mem_unsignedText (d : Decimal) :
    ∀ c ∈ d.unsignedText, c.isDigit = true ∨ c ∈ ['.', 'e', '+', '-'] := by
  obtain ⟨neg, digits, exponent, hcanonical⟩ := d
  have habs : digits % 10 ≠ 0 ∨ (digits = 0 ∧ exponent = 0 ∧ false = false) :=
    hcanonical.imp_right fun h => ⟨h.1, h.2.1, rfl⟩
  have hmem := Decimal.mem_text (d := ⟨false, digits, exponent, habs⟩) rfl
  rwa [Decimal.text_of_nonneg rfl] at hmem

/-- A number begins with a digit or its sign. -/
theorem Decimal.text_head (d : Decimal) :
    ∃ c s, d.text = c :: s ∧ (c.isDigit = true ∨ c = '-') := by
  obtain ⟨p, htext, hvalid, -⟩ := d.unsignedText_parts
  obtain ⟨c, s, hwhole⟩ := List.exists_cons_of_ne_nil hvalid.whole.1.1
  cases hneg : d.neg with
  | true => exact ⟨'-', d.unsignedText, by simp [Decimal.text, hneg], .inr rfl⟩
  | false =>
    have htext' : ∃ s, d.text = c :: s := by
      rw [Decimal.text_of_nonneg hneg, htext, Decimal.Parts.text, hwhole]
      exact ⟨_, rfl⟩
    obtain ⟨s, hs⟩ := htext'
    exact ⟨c, s, hs, .inl (hvalid.whole.1.2 c (by simp [hwhole]))⟩

namespace Token

def text : Token → List Char
  | openArray => ['[']
  | closeArray => [']']
  | openObject => ['{']
  | closeObject => ['}']
  | comma => [',']
  | colon => [':']
  | null => ['n', 'u', 'l', 'l']
  | boolean true => ['t', 'r', 'u', 'e']
  | boolean false => ['f', 'a', 'l', 's', 'e']
  | number d => d.text
  | string s => Json.quote s

def isString : Token → Bool
  | string _ => true
  | _ => false

theorem mem_text {t : Token} (ht : t.isString = false) (hcomma : t ≠ comma) :
    ∀ c ∈ t.text, c ≠ '"' ∧ c ≠ ',' := by
  cases t with
  | comma => exact absurd rfl hcomma
  | string s => cases ht
  | boolean b => cases b <;> simp [text]
  | number d =>
    intro c hc
    rcases List.mem_append.mp hc with hc | hc
    · split at hc
      · simp [List.mem_singleton.mp hc]
      · cases hc
    · rcases d.mem_unsignedText c hc with hdigit | hmem
      · refine ⟨?_, ?_⟩ <;> rintro rfl <;> cases hdigit
      · simp only [List.mem_cons, List.not_mem_nil, or_false] at hmem
        rcases hmem with rfl | rfl | rfl | rfl <;> decide
  | _ => simp [text]

end Token

namespace Json

def stringify (v : Json) : List Char := v.tokens.flatMap Token.text

theorem moreMembers_concat (ms : List (List Char × Json)) :
    ∃ us, moreMembers ms = us ++ [.closeObject] := by
  induction ms with
  | nil => exact ⟨[], rfl⟩
  | cons m ms ih =>
    obtain ⟨us, hus⟩ := ih
    exact ⟨.comma :: .string m.1 :: .colon :: (m.2.tokens ++ us), by simp [moreMembers, hus]⟩

theorem tokens_object (members : List (List Char × Json)) :
    ∃ us, (object members).tokens = .openObject :: (us ++ [.closeObject]) := by
  cases members with
  | nil => exact ⟨[], rfl⟩
  | cons m ms =>
    obtain ⟨us, hus⟩ := moreMembers_concat ms
    exact ⟨.string m.1 :: .colon :: (m.2.tokens ++ us), by simp [tokens, hus]⟩

theorem stringify_object (members : List (List Char × Json)) :
    ∃ s, (object members).stringify = '{' :: (s ++ ['}']) := by
  obtain ⟨us, hus⟩ := tokens_object members
  exact ⟨us.flatMap Token.text, by simp [stringify, hus, Token.text]⟩

theorem tokens_append_ne {v w : Json} {t : Token} {ts : List Token} :
    v.tokens ++ t :: ts ≠ w.tokens := by
  intro h
  have hv := parseValue_tokens v (v.tokens.length+w.tokens.length) (t :: ts) (Nat.le_add_right _ _)
  have hw := parseValue_tokens w (v.tokens.length+w.tokens.length) [] (Nat.le_add_left _ _)
  rw [h] at hv
  rw [List.append_nil, hv] at hw
  cases hw

def isJsonSpace (c : Char) : Bool := c = ' ' || c = '\t' || c = '\n' || c = '\r'

section Lexing

/-- The first token, and what follows it. -/
def lexOne : List Char → Option (Token × List Char)
  | '[' :: s => some (.openArray, s)
  | ']' :: s => some (.closeArray, s)
  | '{' :: s => some (.openObject, s)
  | '}' :: s => some (.closeObject, s)
  | ',' :: s => some (.comma, s)
  | ':' :: s => some (.colon, s)
  | 'n' :: 'u' :: 'l' :: 'l' :: s => some (.null, s)
  | 't' :: 'r' :: 'u' :: 'e' :: s => some (.boolean true, s)
  | 'f' :: 'a' :: 'l' :: 's' :: 'e' :: s => some (.boolean false, s)
  | '"' :: s => (readString s).map fun r => (.string r.1, r.2)
  | s => (readNumber s).map fun r => (.number r.1, r.2)

/-- Every token has a character, which the fuel is for. -/
def lexFrom : ℕ → List Char → Option (List Token)
  | _, [] => some []
  | 0, _ :: _ => none
  | fuel+1, c :: s =>
    if isJsonSpace c then lexFrom fuel s
    else (lexOne (c :: s)).bind fun r => (lexFrom fuel r.2).map (r.1 :: ·)

def lex (s : List Char) : Option (List Token) := lexFrom s.length s

/-- `JSON.parse`, with numbers that are rounded. -/
def parse (round : Decimal → Decimal) (s : List Char) : Option Json :=
  ((lex s).bind parseTokens).map (settle round)

def isTokenStart (c : Char) : Bool := ['[', ']', '{', '}', ',', ':', 'n', 't', 'f', '"'].contains c

theorem lexOne_other {c : Char} (hc : isTokenStart c = false) (s : List Char) :
    lexOne (c :: s) = (readNumber (c :: s)).map fun r => (.number r.1, r.2) := by
  rw [lexOne]
  all_goals
    intro t h
    rw [(List.cons.inj h).1] at hc
    cases hc

theorem lexOne_text (t : Token) {rest : List Char} (hrest : ∀ d, t = .number d → EndsNumber rest) :
    lexOne (t.text ++ rest) = some (t, rest) := by
  cases t with
  | boolean b => cases b <;> rfl
  | number d =>
    obtain ⟨c, s, htext, hc⟩ := d.text_head
    have hread := readNumber_text d (hrest d rfl)
    rw [htext, List.cons_append] at hread
    have hother : isTokenStart c = false := by
      by_contra h
      simp only [isTokenStart, Bool.not_eq_false, List.contains_iff_mem, List.mem_cons,
        List.not_mem_nil, or_false] at h
      rcases h with rfl | rfl | rfl | rfl | rfl | rfl | rfl | rfl | rfl | rfl <;> simp at hc
    rw [Token.text, htext, List.cons_append, lexOne_other hother, hread, Option.map_some]
  | string s =>
    have hread := readString_quote s rest
    rw [Token.text, quote, List.cons_append, List.append_assoc, lexOne]
    simp [hread]
  | _ => rfl

theorem lexOne_space {c : Char} (hc : isWhiteSpace c = true) (s : List Char) :
    lexOne (c :: s) = none := by
  have hdigit : c.isDigit = false := by
    by_contra h
    rw [isWhiteSpace_of_isDigit (by simpa using h)] at hc
    cases hc
  have hne {d : Char} (hd : isWhiteSpace d = false) : c ≠ d := by
    rintro rfl
    rw [hd] at hc
    cases hc
  have hnumber : readNumber (c :: s) = none := by
    rw [readNumber]
    · rw [readMagnitude, readWhole]
      · simp [readDigits, hdigit]
      · exact fun t h => hne (by decide) (List.cons.inj h).1
    · exact fun t h => hne (by decide) (List.cons.inj h).1
  have hother : isTokenStart c = false := by
    by_contra h
    simp only [isTokenStart, Bool.not_eq_false, List.contains_iff_mem, List.mem_cons,
      List.not_mem_nil, or_false] at h
    rcases h with rfl | rfl | rfl | rfl | rfl | rfl | rfl | rfl | rfl | rfl <;>
      exact hne (by decide) rfl
  rw [lexOne_other hother, hnumber, Option.map_none]

theorem text_head_ne_space (t : Token) (rest : List Char) :
    ∃ c s, t.text ++ rest = c :: s ∧ isJsonSpace c = false := by
  cases t with
  | boolean b => cases b <;> exact ⟨_, _, rfl, rfl⟩
  | number d =>
    obtain ⟨c, s, htext, hc⟩ := d.text_head
    refine ⟨c, s ++ rest, by rw [Token.text, htext, List.cons_append], ?_⟩
    by_contra h
    simp only [isJsonSpace, Bool.not_eq_false, Bool.or_eq_true, decide_eq_true_eq] at h
    rcases h with ((rfl | rfl) | rfl) | rfl <;> simp at hc
  | _ => exact ⟨_, _, rfl, rfl⟩

theorem lexFrom_text (t : Token) {rest : List Char} (hrest : ∀ d, t = .number d → EndsNumber rest)
    (fuel : ℕ) : lexFrom (fuel+1) (t.text ++ rest) = (lexFrom fuel rest).map (t :: ·) := by
  have hone := lexOne_text t hrest
  obtain ⟨c, s, hcons, hc⟩ := text_head_ne_space t rest
  rw [hcons] at hone ⊢
  simp [lexFrom, hc, hone]

end Lexing

section Gaps

def render (l : List (List Char × Token)) : List Char := l.flatMap fun p => p.1 ++ p.2.text

def commasOf (gap : List Char) : List Token := (gap.filter (· = ',')).map fun _ => .comma

def allTokens (l : List (List Char × Token)) : List Token :=
  l.flatMap fun p => commasOf p.1 ++ [p.2]

def IsGap (gap : List Char) : Prop := ∀ c ∈ gap, c = ',' ∨ isWhiteSpace c = true

def Readable (gap : List Char) : Prop := ∀ c ∈ gap, c = ',' ∨ isJsonSpace c = true

theorem commasOf_eq_nil {gap : List Char} : commasOf gap = [] ↔ ',' ∉ gap := by
  rw [commasOf, List.map_eq_nil_iff, List.filter_eq_nil_iff]
  simp [List.forall_mem_ne']

theorem lexFrom_gap {gap : List Char} (hgap : IsGap gap) {rest : List Char} {fuel : ℕ}
    {ts : List Token} (hfuel : gap.length ≤ fuel) :
    lexFrom fuel (gap ++ rest) = some ts ↔
      Readable gap ∧ ∃ us, lexFrom (fuel-gap.length) rest = some us ∧ ts = commasOf gap ++ us := by
  induction gap generalizing fuel ts with
  | nil => simp [Readable, commasOf]
  | cons c gap ih =>
    obtain ⟨fuel, rfl⟩ : ∃ n, fuel = n+1 := Nat.exists_eq_add_one.mpr (by simp at hfuel; omega)
    rw [IsGap, List.forall_mem_cons] at hgap
    have hlength : gap.length ≤ fuel := by simpa using hfuel
    have hminus : fuel+1-(c :: gap).length = fuel-gap.length := by simp
    rw [List.cons_append, lexFrom, hminus, Readable, List.forall_mem_cons]
    by_cases hcomma : c = ','
    · subst hcomma
      have hone : lexOne (',' :: (gap ++ rest)) = some (.comma, gap ++ rest) := rfl
      have hspace : isJsonSpace ',' = false := rfl
      simp only [hspace, hone, Bool.false_eq_true, if_false, Option.bind_some,
        Option.map_eq_some_iff, ih hgap.2 hlength]
      constructor
      · rintro ⟨us, ⟨hreadable, vs, hvs, rfl⟩, rfl⟩
        exact ⟨⟨.inl trivial, hreadable⟩, vs, hvs, rfl⟩
      · rintro ⟨⟨-, hreadable⟩, vs, hvs, rfl⟩
        exact ⟨_, ⟨hreadable, vs, hvs, rfl⟩, rfl⟩
    · have hcommas : commasOf (c :: gap) = commasOf gap := by simp [commasOf, hcomma]
      rw [hcommas]
      cases hspace : isJsonSpace c with
      | true => simp [ih hgap.2 hlength, Readable]
      | false => simp [lexOne_space (hgap.1.resolve_left hcomma), hcomma]

theorem endsNumber_render {l : List (List Char × Token)} (hgaps : ∀ p ∈ l, IsGap p.1)
    (hhead : ∀ t ∈ (l.map (·.2)).head?, t.starts = false) : EndsNumber (render l) := by
  cases l with
  | nil => simp [EndsNumber, render]
  | cons p l =>
    obtain ⟨gap, t⟩ := p
    have hstarts : t.starts = false := hhead t rfl
    have hgap : IsGap gap := hgaps _ List.mem_cons_self
    intro c hc
    cases gap with
    | nil =>
      have hc : c ∈ (t.text ++ render l).head? := hc
      cases t <;> first | (cases hc; decide) | cases hstarts
    | cons d gap =>
      obtain rfl : d = c := by simpa [render] using hc
      rcases hgap d List.mem_cons_self with rfl | hspace
      · decide
      · refine ⟨?_, ?_, ?_, ?_⟩
        · by_contra h
          rw [isWhiteSpace_of_isDigit (by simpa using h)] at hspace
          cases hspace
        all_goals
          rintro rfl
          cases hspace

theorem lexFrom_render {l : List (List Char × Token)} (hgaps : ∀ p ∈ l, IsGap p.1)
    (hchain : (l.map (·.2)).IsChain (Token.mayFollow · ·)) {fuel : ℕ}
    (hfuel : (render l).length ≤ fuel) {ts : List Token} :
    lexFrom fuel (render l) = some ts ↔ (∀ p ∈ l, Readable p.1) ∧ ts = allTokens l := by
  induction l generalizing fuel ts with
  | nil => simp [render, lexFrom, allTokens, eq_comm]
  | cons p l ih =>
    obtain ⟨gap, t⟩ := p
    rw [List.forall_mem_cons] at hgaps
    rw [List.map_cons, List.isChain_cons] at hchain
    have hrender : render ((gap, t) :: l) = gap ++ (t.text ++ render l) := by simp [render]
    have hall : allTokens ((gap, t) :: l) = commasOf gap ++ t :: allTokens l := by
      simp [allTokens]
    obtain ⟨c, s, hcons, -⟩ := text_head_ne_space t []
    have hlength : 1 ≤ t.text.length := by
      rw [List.append_nil] at hcons
      rw [hcons]
      exact Nat.succ_le_succ (Nat.zero_le _)
    rw [hrender, List.length_append, List.length_append] at hfuel
    obtain ⟨n, hn⟩ : ∃ n, fuel-gap.length = n+1 := Nat.exists_eq_add_one.mpr (by omega)
    have hends : ∀ d, t = .number d → EndsNumber (render l) := by
      rintro d rfl
      refine endsNumber_render hgaps.2 fun u hu => ?_
      simpa [Token.mayFollow] using hchain.1 u hu
    have hgapfuel : gap.length ≤ fuel := by omega
    have hn' : (render l).length ≤ n := by omega
    rw [hrender, hall, lexFrom_gap hgaps.1 hgapfuel, hn, lexFrom_text t hends,
      List.forall_mem_cons]
    simp only [Option.map_eq_some_iff, ih hgaps.2 hchain.2 hn']
    constructor
    · rintro ⟨hgap, us, ⟨vs, ⟨hreadable, rfl⟩, rfl⟩, rfl⟩
      exact ⟨⟨hgap, hreadable⟩, rfl⟩
    · rintro ⟨⟨hgap, hreadable⟩, rfl⟩
      exact ⟨hgap, _, ⟨_, ⟨hreadable, rfl⟩, rfl⟩, rfl⟩

theorem not_isChain_allTokens {l : List (List Char × Token)} (hgaps : ∀ p ∈ l, IsGap p.1)
    (hclosing : ∀ p ∈ l, p.1 ≠ [] → p.2 = .closeArray ∨ p.2 = .closeObject)
    (h : (allTokens l).IsChain (Token.mayFollow · ·)) : ∀ p ∈ l, ',' ∉ p.1 := by
  induction l with
  | nil => exact List.forall_mem_nil _
  | cons p l ih =>
    obtain ⟨gap, t⟩ := p
    rw [List.forall_mem_cons] at hgaps hclosing ⊢
    have hall : allTokens ((gap, t) :: l) = commasOf gap ++ ([t] ++ allTokens l) := by
      simp [allTokens]
    rw [hall] at h
    refine ⟨fun hmem => ?_, ih hgaps.2 hclosing.2 ((List.isChain_append.mp
      (List.isChain_append.mp h).2.1).2.1)⟩
    have hlast : ∃ us, commasOf gap = us ++ [Token.comma] := by
      have hne : commasOf gap ≠ [] := fun hnil => commasOf_eq_nil.mp hnil hmem
      refine ⟨(commasOf gap).dropLast, ?_⟩
      have hcomma : (commasOf gap).getLast hne = .comma := by
        have := List.getLast_mem hne
        simp only [commasOf, List.mem_map] at this
        obtain ⟨_, -, heq⟩ := this
        exact heq.symm
      rw [← hcomma, List.dropLast_append_getLast]
    obtain ⟨us, hus⟩ := hlast
    have hfollow := (List.isChain_append.mp h).2.2 .comma (by simp [hus]) t rfl
    rcases hclosing.1 (List.ne_nil_of_mem hmem) with rfl | rfl <;> cases hfollow

end Gaps

section Parsing

theorem allTokens_plain {l : List (List Char × Token)} (h : ∀ p ∈ l, ',' ∉ p.1) :
    allTokens l = l.map (·.2) := by
  induction l with
  | nil => rfl
  | cons p l ih =>
    rw [List.forall_mem_cons] at h
    have hnil := commasOf_eq_nil.mpr h.1
    simpa [allTokens, hnil] using ih h.2

theorem parse_eq_some_iff {round : Decimal → Decimal} {s : List Char} {v : Json} :
    parse round s = some v ↔ ∃ w : Json, lex s = some w.tokens ∧ w.settle round = v := by
  simp [parse, Option.bind_eq_some_iff, parseTokens_eq_some_iff]

/-- Tokens of a value with gaps before brackets are read as the value if the gaps are white space of
JSON, and as nothing otherwise. -/
theorem parse_render {round : Decimal → Decimal} {l : List (List Char × Token)} {v w : Json}
    (hl : l.map (·.2) = v.tokens) (hgaps : ∀ p ∈ l, IsGap p.1)
    (hclosing : ∀ p ∈ l, p.1 ≠ [] → p.2 = .closeArray ∨ p.2 = .closeObject) :
    parse round (render l) = some w ↔
      (∀ p ∈ l, ∀ c ∈ p.1, isJsonSpace c = true) ∧ v.settle round = w := by
  have hchain : (l.map (·.2)).IsChain (Token.mayFollow · ·) := by
    have hv := isChain_tokens v [] (by simp) .nil
    rwa [hl, ← List.append_nil v.tokens]
  simp only [parse_eq_some_iff, lex, lexFrom_render hgaps hchain le_rfl]
  constructor
  · rintro ⟨u, ⟨hreadable, hu⟩, hw⟩
    have hu' := isChain_tokens u [] (by simp) .nil
    rw [List.append_nil, hu] at hu'
    have hcommas := not_isChain_allTokens hgaps hclosing hu'
    rw [allTokens_plain hcommas, hl] at hu
    have huv : u = v := by
      have h := parseTokens_eq_some_iff.mpr hu.symm
      rw [parseTokens_eq_some_iff.mpr rfl] at h
      exact (Option.some.inj h).symm
    refine ⟨fun p hp c hc => (hreadable p hp c hc).resolve_left ?_, huv ▸ hw⟩
    rintro rfl
    exact hcommas p hp hc
  · rintro ⟨hspace, hw⟩
    have hcommas : ∀ p ∈ l, ',' ∉ p.1 := by
      intro p hp hmem
      cases hspace p hp ',' hmem
    exact ⟨v, ⟨fun p hp c hc => .inr (hspace p hp c hc), by rw [allTokens_plain hcommas, hl]⟩, hw⟩

theorem lex_tokens {ts : List Token} (hchain : ts.IsChain (Token.mayFollow · ·)) :
    lex (ts.flatMap Token.text) = some ts := by
  have hrender : ts.flatMap Token.text = render (ts.map fun t => ([], t)) := by
    simp [render, List.flatMap_map]
  have hl : (ts.map fun t => (([] : List Char), t)).map (·.2) = ts := by simp
  have hgaps : ∀ p ∈ ts.map fun t => (([] : List Char), t), IsGap p.1 := by simp [IsGap]
  rw [← hl] at hchain
  rw [lex, hrender, lexFrom_render hgaps hchain le_rfl]
  refine ⟨by simp [Readable], ?_⟩
  rw [allTokens_plain (by simp), hl]

/-- A value is read again from its text. -/
theorem parse_stringify {round : Decimal → Decimal} {v : Json} (hv : v.Proper round) :
    parse round v.stringify = some v := by
  have hchain := isChain_tokens v [] (by simp) .nil
  rw [List.append_nil] at hchain
  exact parse_eq_some_iff.mpr ⟨v, lex_tokens hchain, settle_of_proper v hv⟩

end Parsing

section Places

theorem readSign_suffix (s : List Char) : (readSign s).2 <:+ s := by
  fun_cases readSign s
  · exact List.suffix_cons _ _
  · exact List.suffix_cons _ _
  · exact List.suffix_refl _

theorem readCodes_suffix {s rest : List Char} {codes : List ℕ}
    (h : readCodes s = some (codes, rest)) : rest <:+ s := by
  fun_induction readCodes s generalizing codes with
  | case1 a b c d s ih =>
    simp only [Option.bind_eq_some_iff, Option.map_eq_some_iff, Prod.mk.injEq] at h
    obtain ⟨code, -, r, hr, -, rfl⟩ := h
    exact (ih hr).trans ⟨['\\', 'u', a, b, c, d], rfl⟩
  | case2 c s hc ih =>
    simp only [Option.bind_eq_some_iff, Option.map_eq_some_iff, Prod.mk.injEq] at h
    obtain ⟨code, -, r, hr, -, rfl⟩ := h
    exact (ih hr).trans ⟨['\\', c], rfl⟩
  | case3 s =>
    cases h
    exact List.suffix_cons _ _
  | case4 c s => cases h
  | case5 c s =>
    rename_i ih
    simp only [Option.map_eq_some_iff, Prod.mk.injEq] at h
    obtain ⟨r, hr, -, rfl⟩ := h
    exact (ih hr).trans (List.suffix_cons _ _)
  | case6 => cases h

theorem readDigits_suffix (s : List Char) : (readDigits s).2 <:+ s := List.dropWhile_suffix _

theorem readWhole_suffix {s : List Char} {r : List Char × List Char} (h : readWhole s = some r) :
    r.2 <:+ s := by
  unfold readWhole at h
  split at h
  · cases h
    exact List.suffix_cons _ _
  · dsimp only at h
    split at h
    · cases h
    · cases h
      exact readDigits_suffix _

theorem readFractionPart_suffix {s : List Char} {r : List Char × List Char}
    (h : readFractionPart s = some r) : r.2 <:+ s := by
  unfold readFractionPart at h
  split at h
  · dsimp only at h
    split at h
    · cases h
    · cases h
      exact (readDigits_suffix _).trans (List.suffix_cons _ _)
  · cases h
    exact List.suffix_refl _

theorem readExponentPart_suffix {s : List Char} {r : ℤ × List Char}
    (h : readExponentPart s = some r) : r.2 <:+ s := by
  cases s with
  | nil =>
    cases h
    exact List.suffix_refl _
  | cons e s =>
    rw [readExponentPart] at h
    split at h
    · dsimp only at h
      split at h
      · cases h
      · cases h
        exact (readDigits_suffix _).trans ((readSign_suffix s).trans (List.suffix_cons _ _))
    · cases h
      exact List.suffix_refl _

theorem readMagnitude_suffix {neg : Bool} {s : List Char} {r : Decimal × List Char}
    (h : readMagnitude neg s = some r) : r.2 <:+ s := by
  simp only [readMagnitude, Option.bind_eq_some_iff, Option.map_eq_some_iff] at h
  obtain ⟨whole, hwhole, fraction, hfraction, exponent, hexponent, rfl⟩ := h
  exact (readExponentPart_suffix hexponent).trans
    ((readFractionPart_suffix hfraction).trans (readWhole_suffix hwhole))

theorem readNumber_suffix {s : List Char} {r : Decimal × List Char} (h : readNumber s = some r) :
    r.2 <:+ s := by
  unfold readNumber at h
  split at h
  · exact (readMagnitude_suffix h).trans (List.suffix_cons _ _)
  · exact readMagnitude_suffix h

theorem lexOne_spec {s rest : List Char} {t : Token} (h : lexOne s = some (t, rest)) :
    rest <:+ s ∧ (t = .openArray → s = '[' :: rest) ∧ (t = .openObject → s = '{' :: rest) ∧
      (t = .closeArray → s = ']' :: rest) ∧ (t = .closeObject → s = '}' :: rest) := by
  unfold lexOne at h
  split at h
  case h_10 s =>
    obtain ⟨r, hr, heq⟩ := Option.map_eq_some_iff.mp h
    obtain ⟨rfl, rfl⟩ := Prod.mk.inj heq
    obtain ⟨⟨codes, rest⟩, hcodes, rfl⟩ := Option.map_eq_some_iff.mp hr
    refine ⟨(readCodes_suffix hcodes).trans (List.suffix_cons _ _), ?_⟩
    simp
  case h_11 s _ _ _ _ _ _ _ _ _ _ =>
    obtain ⟨r, hr, heq⟩ := Option.map_eq_some_iff.mp h
    obtain ⟨rfl, rfl⟩ := Prod.mk.inj heq
    refine ⟨readNumber_suffix hr, ?_⟩
    simp
  case h_7 s =>
    cases h
    exact ⟨⟨['n', 'u', 'l', 'l'], rfl⟩, by simp⟩
  case h_8 s =>
    cases h
    exact ⟨⟨['t', 'r', 'u', 'e'], rfl⟩, by simp⟩
  case h_9 s =>
    cases h
    exact ⟨⟨['f', 'a', 'l', 's', 'e'], rfl⟩, by simp⟩
  all_goals
    cases h
    exact ⟨List.suffix_cons _ _, by simp⟩

theorem getLast?_of_suffix {α : Type} {s rest : List α} (h : rest <:+ s) (hne : rest ≠ []) :
    s.getLast? = rest.getLast? := by
  obtain ⟨u, rfl⟩ := h
  exact List.getLast?_append_of_ne_nil u hne

theorem lexFrom_eq_nil {fuel : ℕ} {s : List Char} (h : lexFrom fuel s = some []) :
    ∀ c ∈ s, isJsonSpace c = true := by
  induction fuel generalizing s with
  | zero =>
    cases s with
    | nil => exact List.forall_mem_nil _
    | cons c s => cases h
  | succ fuel ih =>
    cases s with
    | nil => exact List.forall_mem_nil _
    | cons c s =>
      rw [lexFrom] at h
      split at h
      · next hc => exact List.forall_mem_cons.mpr ⟨hc, ih h⟩
      · simp [Option.bind_eq_some_iff] at h

theorem lexFrom_nil {fuel : ℕ} : lexFrom fuel [] = some [] := by cases fuel <;> rfl

theorem lexFrom_last {fuel : ℕ} {s : List Char} {ts : List Token} {t : Token}
    (h : lexFrom fuel s = some ts) (ht : ts.getLast? = some t)
    (hs : s.getLast?.any isJsonSpace = false) :
    (t = .closeArray → s.getLast? = some ']') ∧ (t = .closeObject → s.getLast? = some '}') := by
  induction fuel generalizing s ts with
  | zero =>
    cases s with
    | nil =>
      cases h
      cases ht
    | cons c s => cases h
  | succ fuel ih =>
    cases s with
    | nil =>
      cases h
      cases ht
    | cons c s =>
      rw [lexFrom] at h
      split at h
      · have hne : s ≠ [] := by
          rintro rfl
          rw [lexFrom_nil] at h
          cases h
          cases ht
        rw [getLast?_of_suffix (List.suffix_cons c s) hne] at hs ⊢
        exact ih h ht hs
      · simp only [Option.bind_eq_some_iff, Option.map_eq_some_iff] at h
        obtain ⟨⟨u, rest⟩, hone, ts, hrest, rfl⟩ := h
        obtain ⟨hsuffix, -, -, harray, hobject⟩ := lexOne_spec hone
        cases ts with
        | nil =>
          have hnil : rest = [] := by
            by_contra hne
            rw [getLast?_of_suffix hsuffix hne, List.getLast?_eq_some_getLast hne,
              Option.any_some, lexFrom_eq_nil hrest _ (List.getLast_mem hne)] at hs
            cases hs
          obtain rfl : u = t := by simpa using ht
          refine ⟨fun hu => ?_, fun hu => ?_⟩
          · rw [harray hu, hnil, List.getLast?_singleton]
          · rw [hobject hu, hnil, List.getLast?_singleton]
        | cons v ts =>
          have hne : rest ≠ [] := by
            rintro rfl
            rw [lexFrom_nil] at hrest
            cases hrest
          rw [getLast?_of_suffix hsuffix hne] at hs ⊢
          exact ih hrest (by simpa using ht) hs

theorem lexFrom_first {fuel : ℕ} {s : List Char} {t : Token} {ts : List Token}
    (h : lexFrom fuel s = some (t :: ts)) (hs : s.head?.any isJsonSpace = false) :
    (t = .openArray → s.head? = some '[') ∧ (t = .openObject → s.head? = some '{') := by
  cases fuel with
  | zero => cases s <;> cases h
  | succ fuel =>
    cases s with
    | nil => cases h
    | cons c s =>
      rw [List.head?_cons, Option.any_some] at hs
      rw [lexFrom, hs] at h
      simp only [Bool.false_eq_true, if_false, Option.bind_eq_some_iff, Option.map_eq_some_iff] at h
      obtain ⟨⟨u, rest⟩, hone, ts', -, heq⟩ := h
      obtain ⟨rfl, -⟩ := List.cons.inj heq
      obtain ⟨-, harray, hobject, -⟩ := lexOne_spec hone
      refine ⟨fun hu => ?_, fun hu => ?_⟩
      · rw [harray hu, List.head?_cons]
      · rw [hobject hu, List.head?_cons]

theorem getLast?_moreItems (xs : List Json) : (moreItems xs).getLast? = some .closeArray := by
  induction xs with
  | nil => rfl
  | cons x xs ih =>
    have hne : moreItems xs ≠ [] := by
      intro h
      rw [h] at ih
      cases ih
    rw [← ih, moreItems]
    exact getLast?_of_suffix ((List.suffix_append _ _).trans (List.suffix_cons _ _)) hne

theorem getLast?_moreMembers (ms : List (List Char × Json)) :
    (moreMembers ms).getLast? = some .closeObject := by
  induction ms with
  | nil => rfl
  | cons m ms ih =>
    have hne : moreMembers ms ≠ [] := by
      intro h
      rw [h] at ih
      cases ih
    rw [← ih, moreMembers]
    exact getLast?_of_suffix ((List.suffix_append _ _).trans
      ⟨[.comma, .string m.1, .colon], rfl⟩) hne

theorem ends_array (items : List Json) : ∃ ts, (array items).tokens = .openArray :: ts ∧
    (array items).tokens.getLast? = some .closeArray := by
  cases items with
  | nil => exact ⟨_, rfl, rfl⟩
  | cons x xs =>
    have hlast := getLast?_moreItems xs
    refine ⟨x.tokens ++ moreItems xs, rfl, ?_⟩
    rw [← hlast, tokens]
    refine getLast?_of_suffix ((List.suffix_append _ _).trans (List.suffix_cons _ _)) fun h => ?_
    rw [h] at hlast
    cases hlast

theorem ends_object (members : List (List Char × Json)) :
    ∃ ts, (object members).tokens = .openObject :: ts ∧
      (object members).tokens.getLast? = some .closeObject := by
  cases members with
  | nil => exact ⟨_, rfl, rfl⟩
  | cons m ms =>
    have hlast := getLast?_moreMembers ms
    refine ⟨.string m.1 :: .colon :: (m.2.tokens ++ moreMembers ms), rfl, ?_⟩
    rw [← hlast, tokens]
    refine getLast?_of_suffix ((List.suffix_append _ _).trans
      ⟨[.openObject, .string m.1, .colon], rfl⟩) fun h => ?_
    rw [h] at hlast
    cases hlast

theorem ends_of_parse {round : Decimal → Decimal} {s : List Char} {v : Json}
    (h : parse round s = some v) (hfirst : s.head?.any isJsonSpace = false)
    (hlast : s.getLast?.any isJsonSpace = false) :
    (∀ items, v = array items → s.head? = some '[' ∧ s.getLast? = some ']') ∧
      ∀ members, v = object members → s.head? = some '{' ∧ s.getLast? = some '}' := by
  obtain ⟨w, hlex, rfl⟩ := parse_eq_some_iff.mp h
  refine ⟨fun items hitems => ?_, fun members hmembers => ?_⟩
  · cases w with
    | array items =>
      obtain ⟨ts, htokens, hend⟩ := ends_array items
      refine ⟨?_, (lexFrom_last hlex hend hlast).1 rfl⟩
      rw [htokens] at hlex
      exact (lexFrom_first hlex hfirst).1 rfl
    | _ => simp [settle] at hitems
  · cases w with
    | object members =>
      obtain ⟨ts, htokens, hend⟩ := ends_object members
      refine ⟨?_, (lexFrom_last hlex hend hlast).2 rfl⟩
      rw [htokens] at hlex
      exact (lexFrom_first hlex hfirst).2 rfl
    | _ => simp [settle] at hmembers

end Places

section Doubles

/-! Numbers as doubles. A number beyond all of them is read as infinite, which is not written. -/

-- The shortest decimal of the nearest double, if there is one.
variable (double : Decimal → Option Decimal)

/-- An infinite number is kept as it was written. -/
def nearest (d : Decimal) : Decimal := (double d).getD d

mutual

/-- `null` is written for an infinite number. -/
def finiteOnly : Json → Json
  | number d => if (double d).isSome then number d else null
  | array items => array (finiteItems items)
  | object members => object (finiteMembers members)
  | v => v

def finiteItems : List Json → List Json
  | [] => []
  | x :: xs => x.finiteOnly :: finiteItems xs

def finiteMembers : List (List Char × Json) → List (List Char × Json)
  | [] => []
  | m :: ms => (m.1, m.2.finiteOnly) :: finiteMembers ms

end

/-- `JSON.stringify`. -/
def jsonText (v : Json) : List Char := (v.finiteOnly double).stringify

def Exact (v : Json) : Prop := v.Proper (nearest double) ∧ v.finiteOnly double = v

variable {double}

theorem finiteItems_eq_map (items : List Json) :
    finiteItems double items = items.map (finiteOnly double) := by
  induction items with
  | nil => rfl
  | cons x xs ih => rw [finiteItems, ih, List.map_cons]

theorem finiteMembers_eq_map (members : List (List Char × Json)) :
    finiteMembers double members = members.map fun m => (m.1, m.2.finiteOnly double) := by
  induction members with
  | nil => rfl
  | cons m ms ih => rw [finiteMembers, ih, List.map_cons]

theorem properItems_iff {round : Decimal → Decimal} {items : List Json} :
    ProperItems round items ↔ ∀ x ∈ items, x.Proper round := by
  induction items with
  | nil => simp [ProperItems]
  | cons x xs ih => simp [ProperItems, ih]

theorem properMembers_iff {round : Decimal → Decimal} {members : List (List Char × Json)} :
    ProperMembers round members ↔ ∀ m ∈ members, m.2.Proper round := by
  induction members with
  | nil => simp [ProperMembers]
  | cons m ms ih => simp [ProperMembers, ih]

theorem map_eq_self_iff {α : Type} {f : α → α} {l : List α} : l.map f = l ↔ ∀ x ∈ l, f x = x := by
  conv => lhs; rhs; rw [← List.map_id l]
  rw [List.map_inj_left]
  rfl

theorem exact_string (s : List Char) : (string s).Exact double := ⟨trivial, rfl⟩

theorem exact_array {items : List Json} :
    (array items).Exact double ↔ ∀ x ∈ items, x.Exact double := by
  rw [Exact, Proper, properItems_iff, finiteOnly, array.injEq, finiteItems_eq_map, map_eq_self_iff]
  exact forall₂_and.symm

theorem exact_object {members : List (List Char × Json)} :
    (object members).Exact double ↔
      (members.map (·.1)).Nodup ∧ ∀ m ∈ members, m.2.Exact double := by
  have hfinite : members.map (fun m => (m.1, m.2.finiteOnly double)) = members ↔
      ∀ m ∈ members, m.2.finiteOnly double = m.2 := by
    rw [map_eq_self_iff]
    exact forall₂_congr fun m _ => by rw [Prod.ext_iff]; simp
  rw [Exact, Proper, properMembers_iff, finiteOnly, object.injEq, finiteMembers_eq_map, hfinite,
    and_assoc]
  exact and_congr_right fun _ => forall₂_and.symm

theorem parse_jsonText {v : Json} (hv : v.Exact double) :
    parse (nearest double) (v.jsonText double) = some v := by
  rw [jsonText, hv.2, parse_stringify hv.1]

theorem mem_moreItems {xs : List Json} {x : Json} (hx : x ∈ xs) {t : Token} (ht : t ∈ x.tokens) :
    t ∈ moreItems xs := by
  induction xs with
  | nil => cases hx
  | cons y ys ih =>
    rw [moreItems]
    cases hx with
    | head => simp [ht]
    | tail _ hx => simp [ih hx]

theorem mem_moreMembers {ms : List (List Char × Json)} {m : List Char × Json} (hm : m ∈ ms)
    {t : Token} (ht : t ∈ m.2.tokens) : t ∈ moreMembers ms := by
  induction ms with
  | nil => cases hm
  | cons n ns ih =>
    rw [moreMembers]
    cases hm with
    | head => simp [ht]
    | tail _ hm => simp [ih hm]

theorem mem_tokens_array {items : List Json} {x : Json} (hx : x ∈ items) {t : Token}
    (ht : t ∈ x.tokens) : t ∈ (array items).tokens := by
  cases items with
  | nil => cases hx
  | cons y ys =>
    rw [tokens]
    cases hx with
    | head => simp [ht]
    | tail _ hx => simp [mem_moreItems hx ht]

theorem mem_tokens_object {members : List (List Char × Json)} {m : List Char × Json}
    (hm : m ∈ members) {t : Token} (ht : t ∈ m.2.tokens) : t ∈ (object members).tokens := by
  cases members with
  | nil => cases hm
  | cons n ns =>
    rw [tokens]
    cases hm with
    | head => simp [ht]
    | tail _ hm => simp [mem_moreMembers hm ht]

mutual

/-- What is read is a value of doubles, if none of its numbers is infinite. A double is its own
nearest one. -/
theorem exact_settle (hdouble : ∀ d e, double d = some e → double e = some e) :
    ∀ v : Json, (∀ d, .number d ∈ v.tokens → double d ≠ none) →
      (v.settle (nearest double)).Exact double
  | null, _ => ⟨trivial, rfl⟩
  | boolean b, _ => ⟨trivial, rfl⟩
  | number d, h => by
    obtain ⟨e, he⟩ := Option.ne_none_iff_exists'.mp (h d List.mem_cons_self)
    have hnearest : nearest double d = e := by rw [nearest, he, Option.getD_some]
    rw [settle, hnearest]
    refine ⟨?_, ?_⟩
    · rw [Proper, nearest, hdouble d e he, Option.getD_some]
    · rw [finiteOnly, hdouble d e he, Option.isSome_some, if_pos rfl]
  | string s, _ => exact_string s
  | array items, h => by
    rw [settle, exact_array]
    exact exact_settleItems hdouble items fun x hx d hd =>
      h d (mem_tokens_array hx hd)
  | object members, h => by
    rw [settle, exact_object]
    refine ⟨(Entries.ofList _).unique, fun m hm => ?_⟩
    exact exact_settleMembers hdouble members (fun x hx d hd => h d (mem_tokens_object hx hd)) m
      (Entries.mem_of_mem_ofList hm)

theorem exact_settleItems (hdouble : ∀ d e, double d = some e → double e = some e) :
    ∀ xs : List Json, (∀ x ∈ xs, ∀ d, .number d ∈ x.tokens → double d ≠ none) →
      ∀ y ∈ settleItems (nearest double) xs, y.Exact double
  | [], _ => by simp [settleItems]
  | x :: xs, h => by
    rw [List.forall_mem_cons] at h
    rw [settleItems, List.forall_mem_cons]
    exact ⟨exact_settle hdouble x h.1, exact_settleItems hdouble xs h.2⟩

theorem exact_settleMembers (hdouble : ∀ d e, double d = some e → double e = some e) :
    ∀ ms : List (List Char × Json), (∀ m ∈ ms, ∀ d, .number d ∈ m.2.tokens → double d ≠ none) →
      ∀ n ∈ settleMembers (nearest double) ms, n.2.Exact double
  | [], _ => by simp [settleMembers]
  | m :: ms, h => by
    rw [List.forall_mem_cons] at h
    rw [settleMembers, List.forall_mem_cons]
    exact ⟨exact_settle hdouble m.2 h.1, exact_settleMembers hdouble ms h.2⟩

end

def FiniteNumbers (double : Decimal → Option Decimal) (s : List Char) : Prop :=
  ∀ ts, lex s = some ts → ∀ d, .number d ∈ ts → double d ≠ none

theorem exact_of_parse (hdouble : ∀ d e, double d = some e → double e = some e) {s : List Char}
    {v : Json} (h : parse (nearest double) s = some v) (hs : FiniteNumbers double s) :
    v.Exact double := by
  obtain ⟨w, hlex, rfl⟩ := parse_eq_some_iff.mp h
  exact exact_settle hdouble w (hs _ hlex)

end Doubles

end Json

end Cinder.Ecma
