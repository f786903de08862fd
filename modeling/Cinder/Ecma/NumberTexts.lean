import Cinder.Streams.DecimalTexts
import Cinder.Streams.WordRuns
import Mathlib.Data.Int.Log
import Mathlib.Data.Rat.Floor
set_option autoImplicit false

namespace Cinder.Ecma
open Cinder.Streams

/-- WhiteSpace and LineTerminator, which `trim` and `\s` go by. -/
def isWhiteSpace (c : Char) : Bool :=
  let n := c.toNat
  (9 ≤ n && n ≤ 13) || n = 32 || n = 0xA0 || n = 0x1680 || (0x2000 ≤ n && n ≤ 0x200A) ||
    n = 0x2028 || n = 0x2029 || n = 0x202F || n = 0x205F || n = 0x3000 || n = 0xFEFF

section Rounding

def roundHalfEven (q : ℚ) : ℤ :=
  if q-⌊q⌋ < 1/2 then ⌊q⌋
  else if 1/2 < q-⌊q⌋ then ⌊q⌋+1
  else if ⌊q⌋ % 2 = 0 then ⌊q⌋
  else ⌊q⌋+1

/-- The power of two that the last of 53 digits of a number counts. -/
def ulpExponent (q : ℚ) : ℤ := max (Int.log 2 |q|-52) (-1074)

/-- The nearest double, or nothing if it is an infinity. -/
def roundDouble (q : ℚ) : Option ℚ :=
  let x := roundHalfEven (q/2^ulpExponent q)*(2 : ℚ)^ulpExponent q
  if |x| < 2^1024 then some x else none

theorem roundHalfEven_intCast (n : ℤ) : roundHalfEven n = n := by
  have hhalf : (n : ℚ)-⌊(n : ℚ)⌋ < 1/2 := by simp
  rw [roundHalfEven, if_pos hhalf, Int.floor_intCast]

theorem ulpExponent_natCast {n : ℕ} (h : n < 2^53) : ulpExponent n ≤ 0 := by
  have hlog : Int.log 2 |(n : ℚ)| ≤ 52 := by
    rw [abs_of_nonneg (Nat.cast_nonneg n), Int.log_natCast]
    have hnat := Nat.log_mono_right (b := 2) (Nat.le_sub_one_of_lt h)
    have hmax : Nat.log 2 (2^53-1) = 52 := by decide +kernel
    omega
  unfold ulpExponent
  omega

theorem roundDouble_natCast {n : ℕ} (h : n < 2^53) : roundDouble n = some (n : ℚ) := by
  obtain ⟨k, hk⟩ := Int.eq_ofNat_of_zero_le (neg_nonneg.mpr (ulpExponent_natCast h))
  have hulp : ulpExponent n = -(k : ℤ) := by omega
  have hscaled : (n : ℚ)/2^ulpExponent n = ((n*2^k : ℕ) : ℤ) := by
    rw [hulp, zpow_neg, zpow_natCast, div_inv_eq_mul]
    push_cast
    rfl
  have hback : (((n*2^k : ℕ) : ℤ) : ℚ)*2^ulpExponent n = n := by
    rw [← hscaled]
    exact div_mul_cancel₀ _ (zpow_ne_zero _ two_ne_zero)
  have hsmall : |(n : ℚ)| < 2^1024 := by
    rw [abs_of_nonneg (Nat.cast_nonneg n)]
    have hlt : (n : ℚ) < 2^53 := by exact_mod_cast h
    exact hlt.trans (pow_lt_pow_right₀ one_lt_two (by decide))
  simp only [roundDouble]
  rw [hscaled, roundHalfEven_intCast, hback, if_pos hsmall]

/-- A number is rounded to at most half a unit below it, and not beyond an integer above it. -/
theorem roundHalfEven_bounds (q : ℚ) : q-1/2 ≤ roundHalfEven q ∧ roundHalfEven q ≤ ⌈q⌉ := by
  have hfloor := Int.floor_le q
  have hlt := Int.lt_floor_add_one q
  have hceil := Int.floor_le_ceil q
  have hnext (h : 1/2 ≤ q-⌊q⌋) : ⌊q⌋+1 ≤ ⌈q⌉ := by
    rw [Int.add_one_le_iff, Int.lt_ceil]
    linarith
  unfold roundHalfEven
  split
  · exact ⟨by linarith, hceil⟩
  · next hhalf =>
    rw [not_lt] at hhalf
    have hup := hnext hhalf
    split
    · exact ⟨by push_cast; linarith, hup⟩
    · split
      · exact ⟨by linarith, hceil⟩
      · exact ⟨by push_cast; linarith, hup⟩

theorem ceil_roundDouble {q : ℚ} (hq : 0 < q) (hlt : q < 2^40) (habove : ⌈q⌉+1/2^12 ≤ q+1) :
    ∃ x, roundDouble q = some x ∧ ⌈x⌉ = ⌈q⌉ := by
  have hulp : ulpExponent q ≤ -13 := by
    have hlog : Int.log 2 |q| < 40 := by
      rw [abs_of_pos hq, ← Int.lt_zpow_iff_log_lt (by decide) hq]
      exact_mod_cast hlt
    unfold ulpExponent
    omega
  obtain ⟨k, hk⟩ := Int.eq_ofNat_of_zero_le (show 0 ≤ -ulpExponent q by omega)
  have hexp : ulpExponent q = -(k : ℤ) := by omega
  have hlarge : (2 : ℚ)^13 ≤ 2^k := pow_le_pow_right₀ one_le_two (by omega)
  have hpos : (0 : ℚ) < 2^k := by positivity
  obtain ⟨hlow, hhigh⟩ := roundHalfEven_bounds (q*2^k)
  have hceil : ⌈q*2^k⌉ ≤ ⌈q⌉*2^k := by
    rw [Int.ceil_le]
    push_cast
    exact mul_le_mul_of_nonneg_right (Int.le_ceil q) hpos.le
  have hscale : q/2^ulpExponent q = q*2^k := by
    rw [hexp, zpow_neg, zpow_natCast, div_inv_eq_mul]
  have hback (z : ℤ) : (z : ℚ)*2^ulpExponent q = z/2^k := by
    rw [hexp, zpow_neg, zpow_natCast, div_eq_mul_inv]
  have hupper : (roundHalfEven (q*2^k) : ℚ)/2^k ≤ ⌈q⌉ := by
    rw [div_le_iff₀ hpos]
    exact_mod_cast hhigh.trans hceil
  have hlower : (⌈q⌉ : ℚ)-1 < roundHalfEven (q*2^k)/2^k := by
    rw [lt_div_iff₀ hpos]
    nlinarith
  have hceilPos : (1 : ℚ) ≤ ⌈q⌉ := by exact_mod_cast Int.one_le_ceil_iff.mpr hq
  have hsmall : |(roundHalfEven (q*2^k) : ℚ)/2^k| < 2^1024 := by
    rw [abs_of_pos (by linarith)]
    have hbound : (⌈q⌉ : ℚ) < 2^40+1 := (Int.ceil_lt_add_one q).trans (by linarith)
    have hbelow : (roundHalfEven (q*2^k) : ℚ)/2^k < 2^41 := by linarith
    exact hbelow.trans (pow_lt_pow_right₀ one_lt_two (by decide))
  refine ⟨roundHalfEven (q*2^k)/2^k, ?_, ?_⟩
  · simp only [roundDouble]
    rw [hscale, hback, if_pos hsmall]
  · rw [Int.ceil_eq_iff]
    exact ⟨hlower, hupper⟩

theorem roundDouble_nonpos {q x : ℚ} (hq : q ≤ 0) (h : roundDouble q = some x) : x ≤ 0 := by
  simp only [roundDouble] at h
  split at h
  · cases h
    have hpos : (0 : ℚ) < 2^ulpExponent q := zpow_pos two_pos _
    have hscaled : q/2^ulpExponent q ≤ 0 := div_nonpos_of_nonpos_of_nonneg hq hpos.le
    have hround := (roundHalfEven_bounds (q/2^ulpExponent q)).2.trans (Int.ceil_nonpos.mpr hscaled)
    exact mul_nonpos_of_nonpos_of_nonneg (by exact_mod_cast hround) hpos.le
  · cases h

end Rounding

def readDigits (s : List Char) : List Char × List Char :=
  (s.takeWhile (·.isDigit), s.dropWhile (·.isDigit))

/-- The exponent that ends a literal. -/
def readExponent (s : List Char) : Option ℤ :=
  match s with
  | [] => some 0
  | e :: s =>
    if e = 'e' ∨ e = 'E' then
      match s with
      | '-' :: digits => (readDecimal digits).map fun n => -(n : ℤ)
      | '+' :: digits => (readDecimal digits).map fun n => (n : ℤ)
      | digits => (readDecimal digits).map fun n => (n : ℤ)
    else none

def readFraction (s : List Char) : List Char × List Char :=
  match s with
  | '.' :: s => readDigits s
  | s => ([], s)

/-- StrUnsignedDecimalLiteral but for `Infinity`, as the rational that it stands for. -/
def readUnsigned (s : List Char) : Option ℚ := do
  let (whole, s) := readDigits s
  let (fraction, s) := readFraction s
  if whole = [] ∧ fraction = [] then none
  let exponent ← readExponent s
  some (Nat.ofDigitChars 10 (whole ++ fraction) 0*(10 : ℚ)^(exponent-fraction.length))

def readSigned (s : List Char) : Option ℚ :=
  match s with
  | '-' :: s => (readUnsigned s).map (-·)
  | '+' :: s => readUnsigned s
  | s => readUnsigned s

def radixOf (c : Char) : Option ℕ :=
  if c = 'x' ∨ c = 'X' then some 16
  else if c = 'o' ∨ c = 'O' then some 8
  else if c = 'b' ∨ c = 'B' then some 2
  else none

/-- NonDecimalIntegerLiteral, without its two first characters. -/
def readRadix (radix : ℕ) (s : List Char) : Option ℚ := do
  let digits ← s.mapM fun c => (readHexDigit c).filter (· < radix)
  if digits = [] then none else some ((digits.foldl (fun n d => radix*n+d) 0 : ℕ) : ℚ)

/-- StringNumericLiteral between its white space. -/
def readNumeric (s : List Char) : Option ℚ :=
  match s with
  | [] => some 0
  | '0' :: x :: digits => (radixOf x).elim (readSigned s) fun radix => readRadix radix digits
  | s => readSigned s

/-- `Number`, as the finite value it comes to. -/
def number (s : List Char) : Option ℚ := (readNumeric (strip isWhiteSpace s)).bind roundDouble

/-- Whether a number is negative, and what follows its sign. -/
def readSign (s : List Char) : Bool × List Char :=
  match s with
  | '-' :: s => (true, s)
  | '+' :: s => (false, s)
  | s => (false, s)

def dropHexPrefix (s : List Char) : List Char :=
  match s with
  | '0' :: x :: digits => if x = 'x' ∨ x = 'X' then digits else s
  | s => s

/-- `parseInt` in base sixteen: the number at the front of a text. -/
def parseHexInt (s : List Char) : Option ℤ :=
  let (negative, s) := readSign (s.dropWhile isWhiteSpace)
  let digits :=
    ((dropHexPrefix s).takeWhile fun c => (readHexDigit c).isSome).filterMap readHexDigit
  let n : ℤ := (digits.foldl (fun n d => 16*n+d) 0 : ℕ)
  if digits = [] then none else some (if negative then -n else n)

/-- `&` with a mask below 2^31, where what is not a number counts as zero. -/
def maskInt32 (n : Option ℤ) (mask : ℕ) : ℕ := (n.getD 0 % 4294967296).toNat &&& mask

theorem readSign_of_plain {s : List Char} (hminus : s.head? ≠ some '-')
    (hplus : s.head? ≠ some '+') : readSign s = (false, s) := by
  unfold readSign
  split
  · exact absurd rfl hminus
  · exact absurd rfl hplus
  · rfl

theorem dropHexPrefix_of_plain {s : List Char} (h : 'x' ∉ s ∧ 'X' ∉ s) : dropHexPrefix s = s := by
  unfold dropHexPrefix
  split
  · refine if_neg ?_
    rintro (rfl | rfl) <;> simp at h
  · rfl

theorem isWhiteSpace_of_isDigit {c : Char} (h : c.isDigit = true) : isWhiteSpace c = false := by
  simp only [Char.isDigit, Bool.and_eq_true, decide_eq_true_eq, UInt32.le_iff_toNat_le] at h
  have hlow : 48 ≤ c.toNat := h.1
  have hhigh : c.toNat ≤ 57 := h.2
  simp [isWhiteSpace]
  omega

theorem readDigits_all {s : List Char} (h : ∀ c ∈ s, c.isDigit = true) :
    readDigits s = (s, []) := by
  simp only [readDigits, Prod.mk.injEq]
  exact ⟨List.takeWhile_eq_self_iff.mpr h, List.dropWhile_eq_nil_iff.mpr h⟩

theorem readUnsigned_decimal {s : List Char} (h : IsDecimal s) :
    readUnsigned s = some (Nat.ofDigitChars 10 s 0 : ℚ) := by
  simp [readUnsigned, readDigits_all h.2, readFraction, readExponent, h.1]

theorem readSigned_decimal {s : List Char} (h : IsDecimal s) :
    readSigned s = some (Nat.ofDigitChars 10 s 0 : ℚ) := by
  rw [← readUnsigned_decimal h]
  unfold readSigned
  split
  · exact absurd (h.2 '-' List.mem_cons_self) (by decide)
  · exact absurd (h.2 '+' List.mem_cons_self) (by decide)
  · rfl

theorem radixOf_of_isDigit {c : Char} (h : c.isDigit = true) : radixOf c = none := by
  have hne : ∀ d : Char, d.isDigit = false → c ≠ d := by
    rintro d hd rfl
    rw [hd] at h
    cases h
  simp [radixOf, hne 'x' (by decide), hne 'X' (by decide), hne 'o' (by decide),
    hne 'O' (by decide), hne 'b' (by decide), hne 'B' (by decide)]

theorem readNumeric_decimal {s : List Char} (h : IsDecimal s) :
    readNumeric s = some (Nat.ofDigitChars 10 s 0 : ℚ) := by
  unfold readNumeric
  split
  · exact absurd rfl h.1
  · next x digits =>
    rw [radixOf_of_isDigit (h.2 x (by simp))]
    exact readSigned_decimal h
  · exact readSigned_decimal h

theorem number_decimal {s : List Char} (h : IsDecimal s)
    (hsmall : Nat.ofDigitChars 10 s 0 < 2^53) :
    number s = some (Nat.ofDigitChars 10 s 0 : ℚ) := by
  have hstrip : strip isWhiteSpace s = s :=
    strip_of_forall fun c hc => isWhiteSpace_of_isDigit (h.2 c hc)
  rw [number, hstrip, readNumeric_decimal h]
  exact roundDouble_natCast hsmall

theorem number_nil : number [] = some 0 := by
  have hzero : roundDouble ((0 : ℕ) : ℚ) = some ((0 : ℕ) : ℚ) := roundDouble_natCast (by decide)
  simpa [number, readNumeric, strip] using hzero

end Cinder.Ecma
