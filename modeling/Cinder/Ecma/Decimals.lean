import Cinder.Ecma.NumberTexts
set_option autoImplicit false

namespace Cinder.Ecma
open Cinder.Streams

/-- A number by its decimal digits, without a zero at their end. There is one zero. -/
@[ext] structure Decimal where
  neg : Bool
  digits : ℕ
  exponent : ℤ
  canonical : digits % 10 ≠ 0 ∨ (digits = 0 ∧ exponent = 0 ∧ neg = false)
  deriving DecidableEq, Repr

namespace Decimal

def zero : Decimal := ⟨false, 0, 0, .inr ⟨rfl, rfl, rfl⟩⟩

def value (d : Decimal) : ℚ := (if d.neg then -1 else 1)*d.digits*(10 : ℚ)^d.exponent

def stripZeros : ℕ → ℕ → ℤ → ℕ × ℤ
  | 0, m, e => (m, e)
  | fuel+1, m, e => if m % 10 = 0 then stripZeros fuel (m/10) (e+1) else (m, e)

theorem stripZeros_canonical {fuel m : ℕ} (hm : m ≠ 0) (hfuel : m ≤ fuel) (e : ℤ) :
    (stripZeros fuel m e).1 % 10 ≠ 0 := by
  induction fuel generalizing m e with
  | zero => omega
  | succ fuel ih =>
    rw [stripZeros]
    split
    · exact ih (by omega) (by omega) _
    · next h => exact h

def normalize (neg : Bool) (m : ℕ) (e : ℤ) : Decimal :=
  if h : m = 0 then zero
  else ⟨neg, (stripZeros m m e).1, (stripZeros m m e).2,
    .inl (stripZeros_canonical h (le_refl m) e)⟩

theorem stripZeros_mul {fuel m j : ℕ} (hm : m % 10 ≠ 0) (hfuel : j ≤ fuel) (e : ℤ) :
    stripZeros fuel (m*10^j) e = (m, e+j) := by
  induction fuel generalizing j e with
  | zero =>
    obtain rfl : j = 0 := by omega
    simp [stripZeros]
  | succ fuel ih =>
    cases j with
    | zero =>
      rw [pow_zero, mul_one, stripZeros, if_neg hm]
      simp
    | succ j =>
      have hdiv : m*10^(j+1)/10 = m*10^j := by
        rw [pow_succ, ← mul_assoc, Nat.mul_div_cancel _ (by decide)]
      have hmod : m*10^(j+1) % 10 = 0 := by
        rw [pow_succ, ← mul_assoc, Nat.mul_mod_left]
      rw [stripZeros, if_pos hmod, hdiv, ih (by omega)]
      push_cast
      rw [add_right_comm, add_assoc]

theorem normalize_mul (neg : Bool) {m : ℕ} (hm : m % 10 ≠ 0) (j : ℕ) (e : ℤ) :
    normalize neg (m*10^j) e = ⟨neg, m, e+j, .inl hm⟩ := by
  have hpos : m ≠ 0 := fun h => hm (by rw [h])
  have hlarge : j ≤ m*10^j :=
    (Nat.lt_pow_self (by decide : 1 < 10)).le.trans
      (Nat.le_mul_of_pos_left _ (Nat.pos_of_ne_zero hpos))
  have hne : m*10^j ≠ 0 := Nat.mul_ne_zero hpos (by positivity)
  have hstrip := stripZeros_mul hm hlarge e
  rw [normalize, dif_neg hne]
  ext <;> simp [hstrip]

theorem normalize_of_canonical (neg : Bool) {m : ℕ} (hm : m % 10 ≠ 0) (e : ℤ) :
    normalize neg m e = ⟨neg, m, e, .inl hm⟩ := by
  have hmul := normalize_mul neg hm 0 e
  rw [pow_zero, mul_one] at hmul
  rw [hmul]
  ext <;> simp

theorem stripZeros_value (fuel m : ℕ) (e : ℤ) :
    ((stripZeros fuel m e).1 : ℚ)*10^(stripZeros fuel m e).2 = m*10^e := by
  induction fuel generalizing m e with
  | zero => rfl
  | succ fuel ih =>
    rw [stripZeros]
    split
    · next h =>
      have hm : (m : ℚ) = (m/10 : ℕ)*10 := by
        exact_mod_cast (Nat.div_mul_cancel (Nat.dvd_of_mod_eq_zero h)).symm
      rw [ih, zpow_add_one₀ (by norm_num), hm]
      ring
    · rfl

theorem value_normalize (neg : Bool) (m : ℕ) (e : ℤ) :
    (normalize neg m e).value = (if neg then -1 else 1)*m*10^e := by
  unfold normalize
  split
  · next h => simp [h, value, zero]
  · rw [value, mul_assoc, stripZeros_value, mul_assoc]

theorem neg_normalize (m : ℕ) (e : ℤ) : (normalize false m e).neg = false := by
  unfold normalize
  split <;> rfl

def point (d : Decimal) : ℤ := (Nat.toDigits 10 d.digits).length+d.exponent

def Plain (d : Decimal) : Prop := d.digits = 0 ∨ (-6 < d.point ∧ d.point ≤ 21)

instance (d : Decimal) : Decidable d.Plain := inferInstanceAs (Decidable (_ ∨ _))

def exponentText (digits : List Char) (e : ℤ) : List Char :=
  let mantissa := if digits.length = 1 then digits else digits.take 1 ++ '.' :: digits.drop 1
  mantissa ++ 'e' :: (if e < 0 then '-' else '+') :: Nat.toDigits 10 e.natAbs

def unsignedText (d : Decimal) : List Char :=
  let digits := Nat.toDigits 10 d.digits
  if digits.length ≤ d.point ∧ d.point ≤ 21 then digits ++ List.replicate d.exponent.toNat '0'
  else if 0 < d.point ∧ d.point ≤ 21 then
    digits.take d.point.toNat ++ '.' :: digits.drop d.point.toNat
  else if -6 < d.point ∧ d.point ≤ 0 then
    '0' :: '.' :: (List.replicate (-d.point).toNat '0' ++ digits)
  else exponentText digits (d.point-1)

/-- `Number::toString`. -/
def text (d : Decimal) : List Char := (if d.neg then ['-'] else []) ++ d.unsignedText

def read (s : List Char) : Decimal :=
  let (neg, s) := readSign s
  let (whole, s) := readDigits s
  let (fraction, _) := readFraction s
  normalize neg (Nat.ofDigitChars 10 (whole ++ fraction) 0) (-fraction.length)

inductive NumberText : List Char → Prop where
  | whole {s : List Char} (h : IsDecimal s) : NumberText s
  | fraction {s t : List Char} (hs : IsDecimal s) (ht : IsDecimal t) : NumberText (s ++ '.' :: t)

theorem readSign_decimal {s : List Char} (h : IsDecimal s) (t : List Char) :
    readSign (s ++ t) = (false, s ++ t) := by
  obtain ⟨c, s, rfl⟩ := List.exists_cons_of_ne_nil h.1
  have hc := h.2 c List.mem_cons_self
  refine readSign_of_plain ?_ ?_ <;>
  · rw [List.cons_append, List.head?_cons]
    rintro ⟨⟩
    exact absurd hc (by decide)

theorem read_whole {s : List Char} (h : IsDecimal s) :
    read s = normalize false (Nat.ofDigitChars 10 s 0) 0 := by
  have hsign := readSign_decimal h []
  rw [List.append_nil] at hsign
  simp [read, hsign, readDigits_all h.2, readFraction]

theorem readDigits_append {s : List Char} (h : ∀ c ∈ s, c.isDigit = true) (t : List Char) :
    readDigits (s ++ '.' :: t) = (s, '.' :: t) := by
  have hdot : ('.' : Char).isDigit = false := by decide
  simp [readDigits, List.takeWhile_append_of_pos h, List.dropWhile_append_of_pos h, hdot]

theorem read_fraction {s t : List Char} (hs : IsDecimal s) (ht : IsDecimal t) :
    read (s ++ '.' :: t) =
      normalize false (Nat.ofDigitChars 10 (s ++ t) 0) (-(t.length : ℤ)) := by
  simp [read, readSign_decimal hs, readDigits_append hs.2, readFraction, readDigits_all ht.2]

variable {d : Decimal}

theorem text_of_nonneg (h : d.neg = false) : d.text = d.unsignedText := by
  rw [text, h]
  rfl

theorem isDigit_of_mem_zeros {n : ℕ} : ∀ c ∈ List.replicate n '0', c.isDigit = true := by
  intro c hc
  rw [List.eq_of_mem_replicate hc]
  decide

def IsWhole (s : List Char) : Prop :=
  IsDecimal s ∧ (s.head? ≠ some '0' ∨ s = ['0'])

def fractionText (fraction : List Char) : List Char :=
  if fraction = [] then [] else '.' :: fraction

def signedExponent (e : ℤ) : List Char :=
  'e' :: (if e < 0 then '-' else '+') :: Nat.toDigits 10 e.natAbs

/-- How a number is written: its digits, those behind the point, and the exponent. -/
structure Parts where
  whole : List Char
  fraction : List Char
  exponent : Option ℤ

def Parts.text (p : Parts) : List Char :=
  p.whole ++ (fractionText p.fraction ++ (p.exponent.map signedExponent).getD [])

def Parts.value (p : Parts) (neg : Bool) : Decimal :=
  normalize neg (Nat.ofDigitChars 10 (p.whole ++ p.fraction) 0)
    (p.exponent.getD 0-p.fraction.length)

structure Parts.Valid (p : Parts) : Prop where
  whole : IsWhole p.whole
  fraction : ∀ c ∈ p.fraction, c.isDigit = true

theorem head_append_ne {s t : List Char} (hs : s ≠ []) (h : s.head? ≠ some '0') :
    (s ++ t).head? ≠ some '0' := by
  rwa [List.head?_append_of_ne_nil _ hs]

theorem head_take_ne {s : List Char} {n : ℕ} (hn : n ≠ 0) (h : s.head? ≠ some '0') :
    (s.take n).head? ≠ some '0' := by
  rwa [List.head?_take, if_neg hn]

theorem isWhole_zero : IsWhole ['0'] := ⟨by decide, .inr rfl⟩

theorem exponentText_parts {s : List Char} (hs : s ≠ []) (e : ℤ) :
    exponentText s e = Parts.text ⟨s.take 1, s.drop 1, some e⟩ := by
  obtain ⟨c, s, rfl⟩ := List.exists_cons_of_ne_nil hs
  cases s with
  | nil => rfl
  | cons d s => simp [exponentText, Parts.text, fractionText, signedExponent]

/-- Every number is written in such parts, and without an exponent if it is written plainly. -/
theorem unsignedText_parts (d : Decimal) :
    ∃ p : Parts, d.unsignedText = p.text ∧ p.Valid ∧ p.value d.neg = d ∧
      (d.Plain → p.exponent = none) := by
  rcases d.canonical with hm | ⟨hdigits, hexponent, hneg⟩
  · have hs : IsDecimal (Nat.toDigits 10 d.digits) := isDecimal_toDigits _
    have hvalue : Nat.ofDigitChars 10 (Nat.toDigits 10 d.digits) 0 = d.digits :=
      Nat.ofDigitChars_ten_toDigits
    have hpoint : d.point = (Nat.toDigits 10 d.digits).length+d.exponent := rfl
    have hne : d.digits ≠ 0 := fun h => hm (by rw [h])
    have hfirst : (Nat.toDigits 10 d.digits).head? ≠ some '0' :=
      head?_toDigits_ne_zero (by decide) (by decide) (Nat.pos_of_ne_zero hne)
    have hplain : d.Plain → -6 < d.point ∧ d.point ≤ 21 := fun h => h.resolve_left hne
    have hd : ∀ e : ℤ, e = d.exponent → (⟨d.neg, d.digits, e, .inl hm⟩ : Decimal) = d :=
      fun e he => Decimal.ext rfl rfl he
    unfold unsignedText
    generalize Nat.toDigits 10 d.digits = s at *
    dsimp only
    split
    · next hlarge =>
      refine ⟨⟨s ++ List.replicate d.exponent.toNat '0', [], none⟩,
        by simp [Parts.text, fractionText],
        ⟨⟨hs.append isDigit_of_mem_zeros, .inl (head_append_ne hs.1 hfirst)⟩,
          List.forall_mem_nil _⟩, ?_, fun _ => rfl⟩
      simp only [Parts.value, List.append_nil, Nat.ofDigitChars_append, hvalue,
        Nat.ofDigitChars_replicate_zero, mul_comm, normalize_mul d.neg hm]
      refine hd _ ?_
      simp
      omega
    · next hsmall =>
      split
      · next hmiddle =>
        have hsplit : s.take d.point.toNat ++ s.drop d.point.toNat = s := List.take_append_drop ..
        have hzero : d.point.toNat ≠ 0 := by omega
        have hdrop : s.drop d.point.toNat ≠ [] := by simp; omega
        refine ⟨⟨s.take d.point.toNat, s.drop d.point.toNat, none⟩,
          by simp [Parts.text, fractionText, hdrop], ⟨⟨⟨by simp [hs.1]; omega,
            fun c hc => hs.2 c (List.mem_of_mem_take hc)⟩, .inl (head_take_ne hzero hfirst)⟩,
            fun c hc => hs.2 c (List.mem_of_mem_drop hc)⟩, ?_, fun _ => rfl⟩
        rw [Parts.value, hsplit, hvalue, normalize_of_canonical d.neg hm]
        refine hd _ ?_
        simp
        omega
      · next hlow =>
        split
        · next hnear =>
          have hrest : List.replicate (-d.point).toNat '0' ++ s ≠ [] :=
            List.append_ne_nil_of_right_ne_nil _ hs.1
          refine ⟨⟨['0'], List.replicate (-d.point).toNat '0' ++ s, none⟩,
            by simp [Parts.text, fractionText, hs.1], ⟨isWhole_zero,
              List.forall_mem_append.mpr ⟨isDigit_of_mem_zeros, hs.2⟩⟩, ?_, fun _ => rfl⟩
          have hfront : Nat.ofDigitChars 10 ['0'] 0 = 0 := by decide
          rw [Parts.value, Nat.ofDigitChars_append, Nat.ofDigitChars_append, hfront,
            Nat.ofDigitChars_replicate_zero, mul_zero, hvalue, normalize_of_canonical d.neg hm]
          refine hd _ ?_
          simp
          omega
        · next hfar =>
          have hnot : ¬d.Plain := by
            intro h
            have hrange := hplain h
            omega
          have hlength : 0 < s.length := List.length_pos_of_ne_nil hs.1
          have hsplit : s.take 1 ++ s.drop 1 = s := List.take_append_drop ..
          refine ⟨⟨s.take 1, s.drop 1, some (d.point-1)⟩, exponentText_parts hs.1 _,
            ⟨⟨⟨by simp [hs.1], fun c hc => hs.2 c (List.mem_of_mem_take hc)⟩,
              .inl (head_take_ne one_ne_zero hfirst)⟩,
              fun c hc => hs.2 c (List.mem_of_mem_drop hc)⟩, ?_, fun h => absurd h hnot⟩
          rw [Parts.value, hsplit, hvalue, normalize_of_canonical d.neg hm]
          refine hd _ ?_
          simp
          omega
  · have hzero : d = zero := Decimal.ext hneg hdigits hexponent
    rw [hzero]
    exact ⟨⟨['0'], [], none⟩, by decide, ⟨isWhole_zero, List.forall_mem_nil _⟩, by decide,
      fun _ => rfl⟩

theorem plain_text (hneg : d.neg = false) (hplain : d.Plain) :
    NumberText d.text ∧ read d.text = d := by
  obtain ⟨⟨whole, fraction, exponent⟩, htext, hvalid, hvalue, hnone⟩ := unsignedText_parts d
  obtain rfl : exponent = none := hnone hplain
  rw [hneg] at hvalue
  rw [text_of_nonneg hneg, htext]
  cases fraction with
  | nil =>
    have hwhole : Parts.text ⟨whole, [], none⟩ = whole := by simp [Parts.text, fractionText]
    rw [hwhole, read_whole hvalid.whole.1]
    refine ⟨.whole hvalid.whole.1, ?_⟩
    simpa [Parts.value] using hvalue
  | cons c fraction =>
    have hfraction : Parts.text ⟨whole, c :: fraction, none⟩ = whole ++ '.' :: c :: fraction := by
      simp [Parts.text, fractionText]
    have hdecimal : IsDecimal (c :: fraction) := ⟨List.cons_ne_nil _ _, hvalid.fraction⟩
    rw [hfraction, read_fraction hvalid.whole.1 hdecimal]
    refine ⟨.fraction hvalid.whole.1 hdecimal, ?_⟩
    simpa [Parts.value] using hvalue

theorem mem_exponentText {s : List Char} (hs : ∀ c ∈ s, c.isDigit = true) (e : ℤ) :
    ∀ c ∈ exponentText s e, c.isDigit = true ∨ c ∈ ['.', 'e', '+', '-'] := by
  have hmantissa : ∀ c ∈ (if s.length = 1 then s else s.take 1 ++ '.' :: s.drop 1),
      c.isDigit = true ∨ c ∈ ['.', 'e', '+', '-'] := by
    intro c hc
    split at hc
    · exact .inl (hs c hc)
    · rcases List.mem_append.mp hc with hc | hc
      · exact .inl (hs c (List.mem_of_mem_take hc))
      · rcases List.mem_cons.mp hc with rfl | hc
        · exact .inr (by simp)
        · exact .inl (hs c (List.mem_of_mem_drop hc))
  intro c hc
  rcases List.mem_append.mp hc with hc | hc
  · exact hmantissa c hc
  · rcases List.mem_cons.mp hc with rfl | hc
    · exact .inr (by simp)
    · rcases List.mem_cons.mp hc with rfl | hc
      · split <;> exact .inr (by simp)
      · exact .inl ((isDecimal_toDigits _).2 c hc)

theorem NumberText.mem {s : List Char} (h : NumberText s) :
    ∀ c ∈ s, c.isDigit = true ∨ c = '.' := by
  cases h with
  | whole h => exact fun c hc => .inl (h.2 c hc)
  | fraction hs ht =>
    intro c hc
    rcases List.mem_append.mp hc with hc | hc
    · exact .inl (hs.2 c hc)
    · exact (List.mem_cons.mp hc).symm.imp_left (ht.2 c)

theorem NumberText.exists_digit {s : List Char} (h : NumberText s) :
    ∃ c ∈ s, c.isDigit = true := by
  cases h with
  | whole h =>
    obtain ⟨c, hc⟩ := List.exists_mem_of_ne_nil _ h.1
    exact ⟨c, hc, h.2 c hc⟩
  | fraction hs ht =>
    obtain ⟨c, hc⟩ := List.exists_mem_of_ne_nil _ hs.1
    exact ⟨c, List.mem_append_left _ hc, hs.2 c hc⟩

theorem text_of_not_plain (hneg : d.neg = false) (hplain : ¬d.Plain) :
    d.text = exponentText (Nat.toDigits 10 d.digits) (d.point-1) := by
  rw [Plain, not_or] at hplain
  have hlength : 0 < (Nat.toDigits 10 d.digits).length := Nat.length_toDigits_pos
  rw [text_of_nonneg hneg, unsignedText]
  rw [if_neg (by omega), if_neg (by omega), if_neg (by omega)]

theorem mem_text (hneg : d.neg = false) :
    ∀ c ∈ d.text, c.isDigit = true ∨ c ∈ ['.', 'e', '+', '-'] := by
  intro c hc
  by_cases hplain : d.Plain
  · exact ((plain_text hneg hplain).1.mem c hc).imp_right fun h => by simp [h]
  · rw [text_of_not_plain hneg hplain] at hc
    exact mem_exponentText (isDecimal_toDigits _).2 _ c hc

theorem sign_mem_text (hneg : d.neg = false) (hplain : ¬d.Plain) :
    ∃ c ∈ d.text, c = '+' ∨ c = '-' := by
  rw [text_of_not_plain hneg hplain]
  refine ⟨if d.point-1 < 0 then '-' else '+', ?_, ?_⟩
  · exact List.mem_append_right _ (List.mem_cons_of_mem _ List.mem_cons_self)
  · split
    · exact .inr rfl
    · exact .inl rfl

theorem digit_mem_text (hneg : d.neg = false) : ∃ c ∈ d.text, c.isDigit = true := by
  by_cases hplain : d.Plain
  · exact (plain_text hneg hplain).1.exists_digit
  · rw [text_of_not_plain hneg hplain]
    obtain ⟨c, hc⟩ := List.exists_mem_of_ne_nil _ (isDecimal_toDigits (d.point-1).natAbs).1
    refine ⟨c, ?_, (isDecimal_toDigits _).2 c hc⟩
    exact List.mem_append_right _ (List.mem_cons_of_mem _ (List.mem_cons_of_mem _ hc))

end Decimal

end Cinder.Ecma
