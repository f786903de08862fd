import Cinder.Ecma.JsonValues
set_option autoImplicit false

/-!
JSON texts: `JSON.stringify` without blanks, and `JSON.parse`, which reads tokens first.
-/

namespace Cinder.Ecma
open Cinder.Streams

namespace Json

section Strings

def escape (c : Char) : List Char :=
  if c = '"' then ['\\', '"']
  else if c = '\\' then ['\\', '\\']
  else if c.toNat = 8 then ['\\', 'b']
  else if c.toNat = 9 then ['\\', 't']
  else if c.toNat = 10 then ['\\', 'n']
  else if c.toNat = 12 then ['\\', 'f']
  else if c.toNat = 13 then ['\\', 'r']
  else if c.toNat < 32 then
    ['\\', 'u', '0', '0', smallHexDigit (c.toNat/16), smallHexDigit (c.toNat % 16)]
  else [c]

def quote (s : List Char) : List Char := '"' :: (s.flatMap escape ++ ['"'])

def simpleEscape (c : Char) : Option Char :=
  if c = '"' ∨ c = '\\' ∨ c = '/' then some c
  else if c = 'b' then some (Char.ofNat 8)
  else if c = 't' then some '\t'
  else if c = 'n' then some '\n'
  else if c = 'f' then some (Char.ofNat 12)
  else if c = 'r' then some '\r'
  else none

def readHex (a b c d : Char) : Option ℕ := do
  let a ← readHexDigit a
  let b ← readHexDigit b
  let c ← readHexDigit c
  let d ← readHexDigit d
  some (4096*a+256*b+16*c+d)

/-- The codes that stand before the closing quote, and what follows it. -/
def readCodes : List Char → Option (List ℕ × List Char)
  | '\\' :: 'u' :: a :: b :: c :: d :: s =>
    (readHex a b c d).bind fun code => (readCodes s).map fun r => (code :: r.1, r.2)
  | '\\' :: c :: s =>
    (simpleEscape c).bind fun x => (readCodes s).map fun r => (x.toNat :: r.1, r.2)
  | '"' :: s => some ([], s)
  | c :: s =>
    if c = '\\' ∨ c.toNat < 32 then none else (readCodes s).map fun r => (c.toNat :: r.1, r.2)
  | [] => none
termination_by structural s => s

def isHighHalf (code : ℕ) : Bool := 0xD800 ≤ code && code < 0xDC00

def isLowHalf (code : ℕ) : Bool := 0xDC00 ≤ code && code < 0xE000

/-- Two halves are one character. A half alone is the replacement character. -/
def joinHalves : List ℕ → List Char
  | [] => []
  | high :: [] => [if isHighHalf high || isLowHalf high then Char.ofNat 0xFFFD else Char.ofNat high]
  | high :: low :: codes =>
    if isHighHalf high && isLowHalf low then
      Char.ofNat (0x10000+1024*(high-0xD800)+(low-0xDC00)) :: joinHalves codes
    else
      (if isHighHalf high || isLowHalf high then Char.ofNat 0xFFFD else Char.ofNat high) ::
        joinHalves (low :: codes)
termination_by structural codes => codes

def readString (s : List Char) : Option (List Char × List Char) :=
  (readCodes s).map fun r => (joinHalves r.1, r.2)

theorem not_half (c : Char) : isHighHalf c.toNat = false ∧ isLowHalf c.toNat = false := by
  have hvalid : c.toNat < 0xD800 ∨ (0xDFFF < c.toNat ∧ c.toNat < 0x110000) := c.valid
  simp only [isHighHalf, isLowHalf, Bool.and_eq_false_iff, decide_eq_false_iff_not]
  omega

theorem joinHalves_map_toNat (s : List Char) : joinHalves (s.map Char.toNat) = s := by
  induction s with
  | nil => rfl
  | cons c s ih =>
    obtain ⟨hhigh, hlow⟩ := not_half c
    cases s with
    | nil => simp [joinHalves, hhigh, hlow]
    | cons d s =>
      rw [List.map_cons, List.map_cons] at *
      simp [joinHalves, hhigh, hlow, ih]

theorem readCodes_plain {c : Char} (t : List Char) (hquote : c ≠ '"') (hslash : c ≠ '\\')
    (hlow : ¬c.toNat < 32) :
    readCodes (c :: t) = (readCodes t).map fun r => (c.toNat :: r.1, r.2) := by
  rw [readCodes]
  · exact if_neg fun h => h.elim hslash hlow
  · exact fun a b c d s h _ => hslash h
  · exact fun a s h _ => hslash h
  · exact hquote

theorem readHex_small {n : ℕ} (h : n < 32) :
    readHex '0' '0' (smallHexDigit (n/16)) (smallHexDigit (n % 16)) = some n := by
  have hzero : readHexDigit '0' = some 0 := by decide
  simp [readHex, hzero, readHexDigit_smallHexDigit (by omega : n/16 < 16),
    readHexDigit_smallHexDigit (Nat.mod_lt n (by decide : 16 > 0))]
  omega

theorem readCodes_escape (c : Char) (t : List Char) :
    readCodes (escape c ++ t) = (readCodes t).map fun r => (c.toNat :: r.1, r.2) := by
  unfold escape
  split
  · next h => rw [h]; rfl
  · next hquote =>
    split
    · next h => rw [h]; rfl
    · next hslash =>
      split
      · next h => rw [h]; rfl
      · split
        · next h => rw [h]; rfl
        · split
          · next h => rw [h]; rfl
          · split
            · next h => rw [h]; rfl
            · split
              · next h => rw [h]; rfl
              · split
                · next h =>
                  change (readHex _ _ _ _).bind _ = _
                  rw [readHex_small h]
                  rfl
                · next h => exact readCodes_plain t hquote hslash h

def isPlain (c : Char) : Bool := c ≠ '"' && c ≠ '\\' && 32 ≤ c.toNat

theorem escape_plain {c : Char} (h : isPlain c = true) : escape c = [c] := by
  simp only [isPlain, Bool.and_eq_true, decide_eq_true_eq] at h
  unfold escape
  rw [if_neg h.1.1, if_neg h.1.2, if_neg (by omega), if_neg (by omega), if_neg (by omega),
    if_neg (by omega), if_neg (by omega), if_neg (by omega)]

def isEscapeLetter (x : Char) : Bool := ['b', 'f', 'n', 'r', 't', 'u'].contains x

def isEscape (e : List Char) : Bool :=
  e.head? = some '\\' && (e.drop 1).head?.any isEscapeLetter && (e.drop 2).all Char.isAlphanum

theorem exists_of_isEscape {e : List Char} (h : isEscape e = true) :
    ∃ x t, e = '\\' :: x :: t ∧ isEscapeLetter x = true ∧ t.all Char.isAlphanum = true := by
  match e with
  | [] => cases h
  | [c] => simp [isEscape] at h
  | c :: x :: t =>
    simp only [isEscape, Bool.and_eq_true, decide_eq_true_eq, List.head?_cons, Option.some.injEq,
      List.drop_succ_cons, List.drop_zero, Option.any_some] at h
    obtain ⟨⟨rfl, hx⟩, ht⟩ := h
    exact ⟨x, t, rfl, hx, ht⟩

theorem isPlain_of_isAlphanum {c : Char} (h : c.isAlphanum = true) : isPlain c = true := by
  have hlow : 32 ≤ c.toNat := le_trans (by decide) (toNat_of_isAlphanum h).1
  have hquote : c ≠ '"' := by
    rintro rfl
    cases h
  have hslash : c ≠ '\\' := by
    rintro rfl
    cases h
  simp [isPlain, hquote, hslash, hlow]

theorem isEscape_escape {c : Char} (h : c.toNat < 32) : isEscape (escape c) = true := by
  have hall : (List.range 32).all (fun n => isEscape (escape (Char.ofNat n))) = true := by decide
  have hc := List.all_eq_true.mp hall c.toNat (List.mem_range.mpr h)
  rwa [Char.ofNat_toNat] at hc

theorem escape_special {c : Char} (h : isPlain c = false) :
    (c = '"' ∧ escape c = ['\\', '"']) ∨ (c = '\\' ∧ escape c = ['\\', '\\']) ∨
      (c.toNat < 32 ∧ isEscape (escape c) = true) := by
  by_cases hquote : c = '"'
  · exact .inl ⟨hquote, by rw [hquote]; rfl⟩
  · by_cases hslash : c = '\\'
    · exact .inr (.inl ⟨hslash, by rw [hslash]; rfl⟩)
    · have hlow : c.toNat < 32 := by
        simpa [isPlain, hquote, hslash] using h
      exact .inr (.inr ⟨hlow, isEscape_escape hlow⟩)

theorem readString_quote (s rest : List Char) :
    readString (s.flatMap escape ++ '"' :: rest) = some (s, rest) := by
  have hcodes : readCodes (s.flatMap escape ++ '"' :: rest) = some (s.map Char.toNat, rest) := by
    induction s with
    | nil => rfl
    | cons c s ih => simp [readCodes_escape, ih]
  rw [readString, hcodes, Option.map_some, joinHalves_map_toNat]

end Strings

section Numbers

def readWhole (s : List Char) : Option (List Char × List Char) :=
  match s with
  | '0' :: s => some (['0'], s)
  | s => let r := readDigits s
    if r.1 = [] then none else some r

def readFractionPart (s : List Char) : Option (List Char × List Char) :=
  match s with
  | '.' :: s => let r := readDigits s
    if r.1 = [] then none else some r
  | s => some ([], s)

def readExponentPart (s : List Char) : Option (ℤ × List Char) :=
  match s with
  | [] => some (0, [])
  | e :: s =>
    if e = 'e' ∨ e = 'E' then
      let signed := readSign s
      let r := readDigits signed.2
      if r.1 = [] then none
      else
        let n : ℤ := Nat.ofDigitChars 10 r.1 0
        some (if signed.1 then -n else n, r.2)
    else some (0, e :: s)

def readMagnitude (neg : Bool) (s : List Char) : Option (Decimal × List Char) :=
  (readWhole s).bind fun whole =>
  (readFractionPart whole.2).bind fun fraction =>
  (readExponentPart fraction.2).map fun exponent =>
    (.normalize neg (Nat.ofDigitChars 10 (whole.1 ++ fraction.1) 0)
      (exponent.1-fraction.1.length), exponent.2)

def readNumber (s : List Char) : Option (Decimal × List Char) :=
  match s with
  | '-' :: s => readMagnitude true s
  | s => readMagnitude false s

def EndsNumber (rest : List Char) : Prop :=
  ∀ c ∈ rest.head?, c.isDigit = false ∧ c ≠ '.' ∧ c ≠ 'e' ∧ c ≠ 'E'

theorem readDigits_stop {s rest : List Char} (hs : ∀ c ∈ s, c.isDigit = true)
    (hrest : ∀ c ∈ rest.head?, c.isDigit = false) : readDigits (s ++ rest) = (s, rest) := by
  rw [readDigits, List.takeWhile_append_of_pos hs, List.dropWhile_append_of_pos hs]
  cases rest with
  | nil => simp
  | cons c rest =>
    have hc : ¬c.isDigit = true := by simp [hrest c rfl]
    rw [List.takeWhile_cons_of_neg hc, List.dropWhile_cons_of_neg hc, List.append_nil]

theorem readWhole_append {s rest : List Char} (hs : Decimal.IsWhole s)
    (hrest : ∀ c ∈ rest.head?, c.isDigit = false) : readWhole (s ++ rest) = some (s, rest) := by
  rcases hs.2 with hhead | rfl
  · have hdigits := readDigits_stop hs.1.2 hrest
    obtain ⟨c, s, rfl⟩ := List.exists_cons_of_ne_nil hs.1.1
    have hc : c ≠ '0' := fun h => hhead (by rw [h]; rfl)
    rw [List.cons_append, readWhole]
    · simp only [List.cons_append] at hdigits
      simp [hdigits]
    · exact fun t h => hc (List.cons.inj h).1
  · rfl

theorem readFractionPart_append {f rest : List Char} (hf : ∀ c ∈ f, c.isDigit = true)
    (hrest : ∀ c ∈ rest.head?, c.isDigit = false ∧ c ≠ '.') :
    readFractionPart (Decimal.fractionText f ++ rest) = some (f, rest) := by
  by_cases hempty : f = []
  · rw [Decimal.fractionText, if_pos hempty, List.nil_append, hempty]
    cases rest with
    | nil => rfl
    | cons c rest =>
      rw [readFractionPart]
      exact fun s h => (hrest c rfl).2 (List.cons.inj h).1
  · have hdigits := readDigits_stop hf fun c hc => (hrest c hc).1
    simp [Decimal.fractionText, hempty, readFractionPart, hdigits]

theorem readExponentPart_signed (e : ℤ) {rest : List Char}
    (hrest : ∀ c ∈ rest.head?, c.isDigit = false) :
    readExponentPart (Decimal.signedExponent e ++ rest) = some (e, rest) := by
  have hdigits := readDigits_stop (isDecimal_toDigits e.natAbs).2 hrest
  have hvalue : Nat.ofDigitChars 10 (Nat.toDigits 10 e.natAbs) 0 = e.natAbs :=
    Nat.ofDigitChars_ten_toDigits
  by_cases hneg : e < 0
  · simp [Decimal.signedExponent, readExponentPart, hneg, readSign, hdigits, hvalue,
      Nat.toDigits_ne_nil]
    rw [abs_of_neg hneg, neg_neg]
  · simp [Decimal.signedExponent, readExponentPart, hneg, readSign, hdigits, hvalue,
      Nat.toDigits_ne_nil]
    omega

theorem readExponentPart_none {rest : List Char}
    (hrest : ∀ c ∈ rest.head?, c ≠ 'e' ∧ c ≠ 'E') : readExponentPart rest = some (0, rest) := by
  cases rest with
  | nil => rfl
  | cons c rest =>
    obtain ⟨he, hE⟩ := hrest c rfl
    simp [readExponentPart, he, hE]

theorem readNumber_text (d : Decimal) {rest : List Char} (hrest : EndsNumber rest) :
    readNumber (d.text ++ rest) = some (d, rest) := by
  obtain ⟨p, htext, hvalid, hvalue, -⟩ := Decimal.unsignedText_parts d
  obtain ⟨whole, fraction, exponent⟩ := p
  have hexponent : readExponentPart ((exponent.map Decimal.signedExponent).getD [] ++ rest) =
      some (exponent.getD 0, rest) := by
    cases exponent with
    | none => exact readExponentPart_none fun c hc => (hrest c hc).2.2
    | some e => exact readExponentPart_signed e fun c hc => (hrest c hc).1
  have hbehind : ∀ c ∈ ((exponent.map Decimal.signedExponent).getD [] ++ rest).head?,
      c.isDigit = false ∧ c ≠ '.' := by
    cases exponent with
    | none => exact fun c hc => ⟨(hrest c hc).1, (hrest c hc).2.1⟩
    | some e =>
      rintro c ⟨⟩
      decide
  have hfraction := readFractionPart_append hvalid.fraction hbehind
  have hnext : ∀ c ∈ (Decimal.fractionText fraction ++
      ((exponent.map Decimal.signedExponent).getD [] ++ rest)).head?, c.isDigit = false := by
    by_cases hempty : fraction = []
    · rw [Decimal.fractionText, if_pos hempty, List.nil_append]
      exact fun c hc => (hbehind c hc).1
    · rw [Decimal.fractionText, if_neg hempty]
      rintro c ⟨⟩
      decide
  have hwhole := readWhole_append hvalid.whole hnext
  have hunsigned : d.unsignedText ++ rest = whole ++ (Decimal.fractionText fraction ++
      ((exponent.map Decimal.signedExponent).getD [] ++ rest)) := by
    rw [htext, Decimal.Parts.text, List.append_assoc, List.append_assoc]
  have hmagnitude : readMagnitude d.neg (d.unsignedText ++ rest) = some (d, rest) := by
    rw [hunsigned, readMagnitude, hwhole, Option.bind_some, hfraction, Option.bind_some, hexponent,
      Option.map_some]
    exact congrArg (fun e => some (e, rest)) hvalue
  cases hneg : d.neg with
  | true =>
    rw [hneg] at hmagnitude
    rw [Decimal.text, hneg]
    exact hmagnitude
  | false =>
    rw [hneg] at hmagnitude
    rw [Decimal.text_of_nonneg hneg, readNumber, hmagnitude]
    intro s heq
    rw [hunsigned] at heq
    have hfirst := congrArg List.head? heq
    rw [List.head?_append_of_ne_nil _ hvalid.whole.1.1, List.head?_cons] at hfirst
    have hdigit := hvalid.whole.1.2 _ (List.mem_of_head? hfirst)
    cases hdigit

end Numbers

end Json

end Cinder.Ecma
