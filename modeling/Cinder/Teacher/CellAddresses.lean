import Cinder.Ecma.Patterns
import Cinder.Teacher.GradebookTexts
set_option autoImplicit false

namespace Cinder.Teacher
open Cinder.Streams Cinder.Ecma

/-- `[A-Z]{1,3}`. -/
def columnLetters : Pattern := .seq (.char (·.isUpper)) (.upTo 2 (·.isUpper))

/-- `[1-9]\d{0,3}`. -/
def rowDigits : Pattern :=
  .seq (.char fun c => c.isDigit && c != '0') (.upTo 3 (·.isDigit))

def standardPattern : Pattern := .whole (.seq (.group 1 columnLetters) (.group 2 rowDigits))

def reversedPattern : Pattern := .whole (.seq (.group 1 rowDigits) (.group 2 columnLetters))

def groupText (r : Reading) (n : ℕ) : List Char := (r.text? n).getD []

def normalizeCellAddress (rules : TextRules) (value : List Char) : Option (List Char) :=
  let compact := rules.upper (value.filter fun c => !(c = '$' || isWhiteSpace c))
  match standardPattern.exec compact with
  | some r => some (groupText r 1 ++ groupText r 2)
  | none => (reversedPattern.exec compact).map fun r => groupText r 2 ++ groupText r 1

structure CellLocation where
  address : List Char
  column : ℕ
  row : ℕ
  deriving DecidableEq, Repr

def columnNumber (letters : List Char) : ℕ := letters.foldl (fun n c => n*26+c.toNat-64) 0

def parseCellAddress (rules : TextRules) (value : List Char) : Option CellLocation := do
  let address ← normalizeCellAddress rules value
  let r ← standardPattern.exec address
  some ⟨address, columnNumber (groupText r 1)-1, Nat.ofDigitChars 10 (groupText r 2) 0-1⟩

def columnLoop : ℕ → ℕ → List Char → List Char
  | 0, _, label => label
  | fuel+1, value, label =>
    if 0 < value then
      columnLoop fuel ((value-1)/26) (Char.ofNat (65+(value-1) % 26) :: label)
    else label

def columnName (column : ℕ) : List Char := columnLoop (column+1) (column+1) []

def cellName (column row : ℕ) : List Char := columnName column ++ Nat.toDigits 10 (row+1)

section Columns

theorem columnLoop_append {fuel value : ℕ} (label : List Char) :
    columnLoop fuel value label = columnLoop fuel value [] ++ label := by
  induction fuel generalizing value label with
  | zero => rfl
  | succ fuel ih =>
    rw [columnLoop, columnLoop]
    split
    · rw [ih, ih [_], List.append_assoc]
      rfl
    · rfl

theorem columnLoop_succ (fuel value : ℕ) :
    columnLoop (fuel+1) (value+1) [] =
      columnLoop fuel (value/26) [] ++ [Char.ofNat (65+value % 26)] := by
  rw [columnLoop, if_pos (Nat.succ_pos value), columnLoop_append, Nat.add_sub_cancel]

theorem columnLoop_zero (fuel : ℕ) (label : List Char) : columnLoop fuel 0 label = label := by
  cases fuel <;> rfl

theorem letter_of_lt {n : ℕ} (h : n < 26) :
    (Char.ofNat (65+n)).isUpper = true ∧ (Char.ofNat (65+n)).toNat = 65+n := by
  revert n
  decide

theorem columnLoop_spec {fuel value : ℕ} (h : value ≤ fuel) :
    (∀ c ∈ columnLoop fuel value [], c.isUpper = true) ∧
      columnNumber (columnLoop fuel value []) = value := by
  induction fuel generalizing value with
  | zero =>
    obtain rfl : value = 0 := by omega
    exact ⟨List.forall_mem_nil _, rfl⟩
  | succ fuel ih =>
    cases value with
    | zero =>
      rw [columnLoop_zero]
      exact ⟨List.forall_mem_nil _, rfl⟩
    | succ value =>
      obtain ⟨hupper, hnumber⟩ := ih (by omega : value/26 ≤ fuel)
      obtain ⟨hletter, hcode⟩ := letter_of_lt (Nat.mod_lt value (by decide : 26 > 0))
      rw [columnLoop_succ]
      refine ⟨List.forall_mem_append.mpr ⟨hupper, List.forall_mem_singleton.mpr hletter⟩, ?_⟩
      rw [columnNumber, List.foldl_append, ← columnNumber, hnumber]
      simp only [List.foldl_cons, List.foldl_nil, hcode]
      omega

theorem length_columnLoop {fuel value : ℕ} (h : value ≤ fuel) :
    (columnLoop fuel value [] = [] ↔ value = 0) ∧
    ((columnLoop fuel value []).length ≤ 1 ↔ value ≤ 26) ∧
    ((columnLoop fuel value []).length ≤ 2 ↔ value ≤ 702) ∧
      ((columnLoop fuel value []).length ≤ 3 ↔ value ≤ 18278) := by
  induction fuel generalizing value with
  | zero =>
    obtain rfl : value = 0 := by omega
    simp [columnLoop]
  | succ fuel ih =>
    cases value with
    | zero => simp [columnLoop_zero]
    | succ value =>
      obtain ⟨hnone, hone, htwo, -⟩ := ih (by omega : value/26 ≤ fuel)
      rw [← List.length_eq_zero_iff] at hnone
      rw [columnLoop_succ, List.length_append, List.length_singleton]
      refine ⟨by simp, ?_, ?_, ?_⟩ <;> omega

end Columns

section Texts

def IsColumn (s : List Char) : Prop := s ≠ [] ∧ s.length ≤ 3 ∧ ∀ c ∈ s, c.isUpper = true

def IsRow (s : List Char) : Prop :=
  s.head?.any (· != '0') = true ∧ s.length ≤ 4 ∧ ∀ c ∈ s, c.isDigit = true

theorem way_columnLetters {before t after : List Char} {g : List (ℕ × List Char)} :
    columnLetters.Way before t after g ↔ IsColumn t ∧ g = [] := by
  constructor
  · rintro ⟨t₁, t₂, g₁, g₂, rfl, rfl, ⟨⟨c, hc, rfl⟩, rfl⟩, hmore⟩
    obtain ⟨hlength, hall, rfl⟩ := Pattern.way_upTo.mp hmore
    exact ⟨⟨List.cons_ne_nil _ _, Nat.succ_le_succ hlength, List.forall_mem_cons.mpr ⟨hc, hall⟩⟩,
      rfl⟩
  · rintro ⟨⟨hne, hlength, hall⟩, rfl⟩
    obtain ⟨c, t, rfl⟩ := List.exists_cons_of_ne_nil hne
    rw [List.forall_mem_cons] at hall
    exact ⟨[c], t, [], [], rfl, rfl, ⟨⟨c, hall.1, rfl⟩, rfl⟩,
      Pattern.way_upTo.mpr ⟨Nat.le_of_succ_le_succ hlength, hall.2, rfl⟩⟩

theorem way_rowDigits {before t after : List Char} {g : List (ℕ × List Char)} :
    rowDigits.Way before t after g ↔ IsRow t ∧ g = [] := by
  constructor
  · rintro ⟨t₁, t₂, g₁, g₂, rfl, rfl, ⟨⟨c, hc, rfl⟩, rfl⟩, hmore⟩
    obtain ⟨hlength, hall, rfl⟩ := Pattern.way_upTo.mp hmore
    rw [Bool.and_eq_true] at hc
    exact ⟨⟨hc.2, Nat.succ_le_succ hlength, List.forall_mem_cons.mpr ⟨hc.1, hall⟩⟩, rfl⟩
  · rintro ⟨⟨hfirst, hlength, hall⟩, rfl⟩
    cases t with
    | nil => cases hfirst
    | cons c t =>
      rw [List.forall_mem_cons] at hall
      exact ⟨[c], t, [], [], rfl, rfl, ⟨⟨c, Bool.and_eq_true_iff.mpr ⟨hall.1, hfirst⟩, rfl⟩, rfl⟩,
        Pattern.way_upTo.mpr ⟨Nat.le_of_succ_le_succ hlength, hall.2, rfl⟩⟩

theorem toNat_of_isUpper {c : Char} (h : c.isUpper = true) : 65 ≤ c.toNat ∧ c.toNat ≤ 90 := by
  simp only [Char.isUpper, decide_eq_true_eq, UInt32.le_iff_toNat_le, ge_iff_le] at h
  exact h

theorem isWhiteSpace_of_isUpper {c : Char} (h : c.isUpper = true) : isWhiteSpace c = false := by
  obtain ⟨hlow, hhigh⟩ := toNat_of_isUpper h
  simp [isWhiteSpace]
  omega

theorem not_isUpper_of_isDigit {c : Char} (h : c.isDigit = true) : c.isUpper = false := by
  rw [Char.isDigit_iff_toNat] at h
  have hhigh : c.toNat ≤ 57 := h.2
  cases hupper : c.isUpper with
  | false => rfl
  | true =>
    have hlow := toNat_of_isUpper hupper
    omega

theorem split_kinds {p : Char → Bool} {s s' t t' : List Char} (hs : ∀ c ∈ s, p c = true)
    (hs' : ∀ c ∈ s', p c = true) (ht : ∀ c ∈ t, p c = false) (ht' : ∀ c ∈ t', p c = false)
    (h : s ++ t = s' ++ t') : s = s' ∧ t = t' := by
  have hfront : ∀ u v : List Char, (∀ c ∈ u, p c = true) → (∀ c ∈ v, p c = false) →
      (u ++ v).takeWhile p = u := by
    intro u v hu hv
    rw [List.takeWhile_append_of_pos hu]
    cases v with
    | nil => rw [List.takeWhile_nil, List.append_nil]
    | cons c v =>
      rw [List.takeWhile_cons_of_neg (by simp [hv c List.mem_cons_self]), List.append_nil]
  have heq : s = s' := by rw [← hfront s t hs ht, h, hfront s' t' hs' ht']
  rw [heq] at h
  exact ⟨heq, List.append_cancel_left h⟩

theorem split_letters {s s' t t' : List Char} (hs : ∀ c ∈ s, c.isUpper = true)
    (hs' : ∀ c ∈ s', c.isUpper = true) (ht : ∀ c ∈ t, c.isDigit = true)
    (ht' : ∀ c ∈ t', c.isDigit = true) (h : s ++ t = s' ++ t') : s = s' ∧ t = t' :=
  split_kinds hs hs' (fun c hc => not_isUpper_of_isDigit (ht c hc))
    (fun c hc => not_isUpper_of_isDigit (ht' c hc)) h

variable {letters digits : List Char}

theorem exec_standard (hcolumn : IsColumn letters) (hrow : IsRow digits) :
    ∃ r, standardPattern.exec (letters ++ digits) = some r ∧ groupText r 1 = letters ∧
      groupText r 2 = digits := by
  obtain ⟨r, hr⟩ := Pattern.exec_of_way (a := .seq (.group 1 columnLetters) (.group 2 rowDigits))
    (s := letters ++ digits) (g := [(2, digits), (1, letters)])
    ⟨letters, digits, [(1, letters)], [(2, digits)], rfl, rfl,
      ⟨[], rfl, way_columnLetters.mpr ⟨hcolumn, rfl⟩⟩, [], rfl, way_rowDigits.mpr ⟨hrow, rfl⟩⟩
  obtain ⟨t₁, t₂, g₁, g₂, htext, hgroups, ⟨g₃, rfl, hfirst⟩, g₄, rfl, hsecond⟩ :=
    Pattern.way_of_exec hr
  obtain ⟨hletters, rfl⟩ := way_columnLetters.mp hfirst
  obtain ⟨hdigits, rfl⟩ := way_rowDigits.mp hsecond
  obtain ⟨rfl, rfl⟩ := split_letters hcolumn.2.2 hletters.2.2 hrow.2.2 hdigits.2.2 htext
  exact ⟨r, hr, by simp [groupText, Reading.text?, hgroups],
    by simp [groupText, Reading.text?, hgroups]⟩

theorem exec_standard_eq_none (hletters : ∀ c ∈ letters, c.isUpper = true)
    (hdigits : ∀ c ∈ digits, c.isDigit = true) (h : ¬(IsColumn letters ∧ IsRow digits)) :
    standardPattern.exec (letters ++ digits) = none := by
  rw [standardPattern, Pattern.exec_whole_eq_none]
  rintro g ⟨t₁, t₂, g₁, g₂, htext, -, ⟨g₃, rfl, hfirst⟩, g₄, rfl, hsecond⟩
  obtain ⟨hcolumn, -⟩ := way_columnLetters.mp hfirst
  obtain ⟨hrow, -⟩ := way_rowDigits.mp hsecond
  obtain ⟨rfl, rfl⟩ := split_letters hletters hcolumn.2.2 hdigits hrow.2.2 htext
  exact h ⟨hcolumn, hrow⟩

theorem exec_reversed_eq_none (hne : letters ≠ []) (hletters : ∀ c ∈ letters, c.isUpper = true) :
    reversedPattern.exec (letters ++ digits) = none := by
  rw [reversedPattern, Pattern.exec_whole_eq_none]
  rintro g ⟨t₁, t₂, g₁, g₂, htext, -, ⟨g₃, rfl, hfirst⟩, -⟩
  obtain ⟨hrow, -⟩ := way_rowDigits.mp hfirst
  obtain ⟨c, letters, rfl⟩ := List.exists_cons_of_ne_nil hne
  cases t₁ with
  | nil => cases hrow.1
  | cons d t₁ =>
    obtain ⟨rfl, -⟩ := List.cons.inj htext
    have hdigit := not_isUpper_of_isDigit (hrow.2.2 c List.mem_cons_self)
    rw [hletters c List.mem_cons_self] at hdigit
    cases hdigit

theorem isRow_toDigits {n : ℕ} (hn : 0 < n) : IsRow (Nat.toDigits 10 n) ↔ n < 10000 := by
  have hlength : (Nat.toDigits 10 n).length ≤ 4 ↔ n < 10^4 :=
    Nat.length_toDigits_le_iff (by decide) (by decide)
  constructor
  · exact fun h => hlength.mp h.2.1
  · intro h
    refine ⟨?_, hlength.mpr h, (isDecimal_toDigits n).2⟩
    obtain ⟨c, s, hs⟩ := List.exists_cons_of_ne_nil (Nat.toDigits_ne_nil (n := n) (b := 10))
    have hzero := head?_toDigits_ne_zero (by decide : 1 < 10) (by decide) hn
    rw [hs, List.head?_cons] at hzero ⊢
    simpa using hzero

theorem isColumn_columnName (column : ℕ) : IsColumn (columnName column) ↔ column ≤ 18277 := by
  obtain ⟨hnone, -, -, hthree⟩ := length_columnLoop (le_refl (column+1))
  rw [IsColumn, columnName, hthree, ne_eq, hnone]
  constructor
  · rintro ⟨-, h, -⟩
    omega
  · exact fun h => ⟨by omega, by omega, (columnLoop_spec (le_refl _)).1⟩

theorem upper_cellName (rules : TextRules) (hletters : ∀ c ∈ letters, c.isUpper = true)
    (hdigits : ∀ c ∈ digits, c.isDigit = true) :
    rules.upper ((letters ++ digits).filter fun c => !(c = '$' || isWhiteSpace c)) =
      letters ++ digits := by
  have hall : ∀ c ∈ letters ++ digits, c.isUpper = true ∨ c.isDigit = true := by
    intro c hc
    exact (List.mem_append.mp hc).imp (hletters c) (hdigits c)
  have hkept : (letters ++ digits).filter (fun c => !(c = '$' || isWhiteSpace c)) =
      letters ++ digits := by
    rw [List.filter_eq_self]
    intro c hc
    have hword : c ≠ '$' ∧ isWhiteSpace c = false := by
      rcases hall c hc with h | h
      · refine ⟨?_, isWhiteSpace_of_isUpper h⟩
        rintro rfl
        cases h
      · refine ⟨?_, isWhiteSpace_of_isDigit h⟩
        rintro rfl
        cases h
    simp [hword]
  rw [hkept, rules.upper_ascii _ hall]

theorem parse_cellName (rules : TextRules) (column row : ℕ) :
    parseCellAddress rules (cellName column row) =
      if column ≤ 18277 ∧ row < 9999 then some ⟨cellName column row, column, row⟩ else none := by
  obtain ⟨hletters, hnumber⟩ := columnLoop_spec (le_refl (column+1))
  change ∀ c ∈ columnName column, c.isUpper = true at hletters
  have hdigits := (isDecimal_toDigits (row+1)).2
  have hvalid : IsColumn (columnName column) ∧ IsRow (Nat.toDigits 10 (row+1)) ↔
      column ≤ 18277 ∧ row < 9999 := by
    rw [isColumn_columnName, isRow_toDigits (Nat.succ_pos row)]
    omega
  rw [parseCellAddress, normalizeCellAddress, cellName, upper_cellName rules hletters hdigits]
  by_cases h : column ≤ 18277 ∧ row < 9999
  · obtain ⟨hcolumn, hrow⟩ := hvalid.mpr h
    obtain ⟨r, hr, hfirst, hsecond⟩ := exec_standard hcolumn hrow
    have hrow' : Nat.ofDigitChars 10 (Nat.toDigits 10 (row+1)) 0 = row+1 :=
      Nat.ofDigitChars_ten_toDigits
    have hcolumn' : columnNumber (columnName column) = column+1 := hnumber
    rw [if_pos h, hr]
    simp [hfirst, hsecond, hr, hrow', hcolumn']
  · have hne : columnName column ≠ [] := by
      rw [columnName, ne_eq, (length_columnLoop (le_refl (column+1))).1]
      exact Nat.succ_ne_zero column
    rw [if_neg h, exec_standard_eq_none hletters hdigits (fun hv => h (hvalid.mp hv)),
      exec_reversed_eq_none hne hletters]
    rfl

end Texts

section Spellings

theorem letter_code {c : Char} (h : c.isUpper = true) :
    c.toNat-65 < 26 ∧ Char.ofNat (65+(c.toNat-65)) = c := by
  obtain ⟨hlow, hhigh⟩ := toNat_of_isUpper h
  refine ⟨by omega, ?_⟩
  rw [Nat.add_sub_cancel' hlow, Char.ofNat_toNat]

theorem columnLoop_columnNumber {s : List Char} (hs : ∀ c ∈ s, c.isUpper = true) {fuel : ℕ}
    (hfuel : columnNumber s ≤ fuel) : columnLoop fuel (columnNumber s) [] = s := by
  induction s using List.reverseRecOn generalizing fuel with
  | nil => exact columnLoop_zero fuel []
  | append_singleton s c ih =>
    obtain ⟨hs, hc⟩ := List.forall_mem_append.mp hs
    have hupper := hc c List.mem_cons_self
    obtain ⟨hlow, -⟩ := toNat_of_isUpper hupper
    obtain ⟨hcode, hletter⟩ := letter_code hupper
    have hnumber : columnNumber (s ++ [c]) = columnNumber s*26+(c.toNat-65)+1 := by
      simp only [columnNumber, List.foldl_append, List.foldl_cons, List.foldl_nil]
      omega
    rw [hnumber] at hfuel ⊢
    obtain ⟨fuel, rfl⟩ : ∃ n, fuel = n+1 := ⟨fuel-1, by omega⟩
    have hquotient : (columnNumber s*26+(c.toNat-65))/26 = columnNumber s := by omega
    have hremainder : (columnNumber s*26+(c.toNat-65)) % 26 = c.toNat-65 := by omega
    rw [columnLoop_succ, hquotient, hremainder, hletter, ih hs (by omega)]

theorem columnNumber_pos {s : List Char} (hne : s ≠ []) (hs : ∀ c ∈ s, c.isUpper = true) :
    0 < columnNumber s := by
  by_contra h
  have hzero : columnNumber s = 0 := by omega
  have hspelt := columnLoop_columnNumber hs (le_refl _)
  rw [hzero] at hspelt
  exact hne hspelt.symm

theorem columnName_columnNumber {s : List Char} (hne : s ≠ []) (hs : ∀ c ∈ s, c.isUpper = true) :
    columnName (columnNumber s-1) = s := by
  have hpos := columnNumber_pos hne hs
  rw [columnName, Nat.sub_add_cancel hpos]
  exact columnLoop_columnNumber hs (le_refl _)

theorem digitChar_of_isDigit {c : Char} (h : c.isDigit = true) :
    c.toNat-48 < 10 ∧ Nat.digitChar (c.toNat-48) = c := by
  rw [Char.isDigit_iff_toNat] at h
  have hlow : 48 ≤ c.toNat := h.1
  have hhigh : c.toNat ≤ 57 := h.2
  refine ⟨by omega, Char.toNat_inj.mp ?_⟩
  rw [Nat.toNat_digitChar_of_lt_ten (by omega)]
  omega

theorem toDigits_ofDigitChars {s : List Char} (hs : ∀ c ∈ s, c.isDigit = true)
    (hfirst : s.head?.any (· != '0') = true) :
    0 < Nat.ofDigitChars 10 s 0 ∧ Nat.toDigits 10 (Nat.ofDigitChars 10 s 0) = s := by
  induction s using List.reverseRecOn with
  | nil => cases hfirst
  | append_singleton s c ih =>
    obtain ⟨hs, hc⟩ := List.forall_mem_append.mp hs
    obtain ⟨hcode, hdigit⟩ := digitChar_of_isDigit (hc c List.mem_cons_self)
    have hvalue : Nat.ofDigitChars 10 (s ++ [c]) 0 =
        10*Nat.ofDigitChars 10 s 0+(c.toNat-48) := by
      rw [Nat.ofDigitChars_append, Nat.ofDigitChars_cons, Nat.ofDigitChars_nil]
      rfl
    cases s with
    | nil =>
      have hzero : c ≠ '0' := by simpa using hfirst
      have hpos : c.toNat-48 ≠ 0 := by
        intro h
        rw [h] at hdigit
        exact hzero hdigit.symm
      rw [hvalue, Nat.ofDigitChars_nil, Nat.mul_zero, Nat.zero_add,
        Nat.toDigits_of_lt_base hcode, hdigit]
      exact ⟨by omega, rfl⟩
    | cons d s =>
      obtain ⟨hpos, hdigits⟩ := ih hs (by simpa using hfirst)
      rw [hvalue, ← Nat.toDigits_append_toDigits (by decide) hpos hcode, hdigits,
        Nat.toDigits_of_lt_base hcode, hdigit]
      exact ⟨by omega, rfl⟩

theorem cellName_of_parts {letters digits : List Char} (hcolumn : IsColumn letters)
    (hrow : IsRow digits) :
    columnNumber letters-1 < 18278 ∧ Nat.ofDigitChars 10 digits 0-1 < 9999 ∧
      cellName (columnNumber letters-1) (Nat.ofDigitChars 10 digits 0-1) = letters ++ digits := by
  obtain ⟨hne, hlength, hletters⟩ := hcolumn
  obtain ⟨hfirst, hlength', hdigits⟩ := hrow
  obtain ⟨hpos, htext⟩ := toDigits_ofDigitChars hdigits hfirst
  have hname := columnName_columnNumber hne hletters
  have hcolumn' := (isColumn_columnName (columnNumber letters-1)).mp
    (by rw [hname]; exact ⟨hne, hlength, hletters⟩)
  have hrow' := (isRow_toDigits hpos).mp (by rw [htext]; exact ⟨hfirst, hlength', hdigits⟩)
  refine ⟨by omega, by omega, ?_⟩
  rw [cellName, hname, Nat.sub_add_cancel hpos, htext]

end Spellings

section Addresses

theorem not_isDigit_of_isUpper {c : Char} (h : c.isUpper = true) : c.isDigit = false := by
  cases hdigit : c.isDigit with
  | false => rfl
  | true =>
    rw [not_isUpper_of_isDigit hdigit] at h
    cases h

variable {letters digits : List Char}

theorem exec_reversed (hcolumn : IsColumn letters) (hrow : IsRow digits) :
    ∃ r, reversedPattern.exec (digits ++ letters) = some r ∧ groupText r 2 = letters ∧
      groupText r 1 = digits := by
  obtain ⟨r, hr⟩ := Pattern.exec_of_way (a := .seq (.group 1 rowDigits) (.group 2 columnLetters))
    (s := digits ++ letters) (g := [(2, letters), (1, digits)])
    ⟨digits, letters, [(1, digits)], [(2, letters)], rfl, rfl,
      ⟨[], rfl, way_rowDigits.mpr ⟨hrow, rfl⟩⟩, [], rfl, way_columnLetters.mpr ⟨hcolumn, rfl⟩⟩
  obtain ⟨t₁, t₂, g₁, g₂, htext, hgroups, ⟨g₃, rfl, hfirst⟩, g₄, rfl, hsecond⟩ :=
    Pattern.way_of_exec hr
  obtain ⟨hdigits, rfl⟩ := way_rowDigits.mp hfirst
  obtain ⟨hletters, rfl⟩ := way_columnLetters.mp hsecond
  obtain ⟨rfl, rfl⟩ := split_kinds hrow.2.2 hdigits.2.2
    (fun c hc => not_isDigit_of_isUpper (hcolumn.2.2 c hc))
    (fun c hc => not_isDigit_of_isUpper (hletters.2.2 c hc)) htext
  exact ⟨r, hr, by simp [groupText, Reading.text?, hgroups],
    by simp [groupText, Reading.text?, hgroups]⟩

theorem exec_standard_swapped (hrow : IsRow digits) :
    standardPattern.exec (digits ++ letters) = none := by
  rw [standardPattern, Pattern.exec_whole_eq_none]
  rintro g ⟨t₁, t₂, g₁, g₂, htext, -, ⟨g₃, rfl, hfirst⟩, -⟩
  obtain ⟨hletters, -⟩ := way_columnLetters.mp hfirst
  cases digits with
  | nil => cases hrow.1
  | cons d digits =>
    obtain ⟨c, t₁, rfl⟩ := List.exists_cons_of_ne_nil hletters.1
    obtain ⟨rfl, -⟩ := List.cons.inj htext
    have hupper := not_isUpper_of_isDigit (hrow.2.2 d List.mem_cons_self)
    rw [hletters.2.2 d List.mem_cons_self] at hupper
    cases hupper

/-- `toUpperCase` on the letters and digits of ASCII. -/
def TextRules.UppersLetters (rules : TextRules) : Prop :=
  ∀ s, (∀ c ∈ s, c.isAlpha = true ∨ c.isDigit = true) → rules.upper s = s.map Char.toUpper

def Spells (value text : List Char) : Prop :=
  (value.filter fun c => !(c = '$' || isWhiteSpace c)).map Char.toUpper = text

instance (value text : List Char) : Decidable (Spells value text) :=
  inferInstanceAs (Decidable (_ = _))

theorem isDigit_of_toUpper {c : Char} (h : c.toUpper.isDigit = true) : c.isDigit = true := by
  by_cases hlower : c.isLower = true
  · have hupper : c.toUpper.isUpper = true := by simp [Char.isAlpha, hlower]
    rw [not_isDigit_of_isUpper hupper] at h
    cases h
  · rwa [Char.toUpper_eq_of_not_isLower hlower] at h

theorem upper_of_spells {rules : TextRules} (hrules : rules.UppersLetters) {value text : List Char}
    (htext : ∀ c ∈ text, c.isUpper = true ∨ c.isDigit = true) (h : Spells value text) :
    rules.upper (value.filter fun c => !(c = '$' || isWhiteSpace c)) = text := by
  rw [← h]
  refine hrules _ fun c hc => ?_
  have hmem : c.toUpper ∈ text := by
    rw [← h]
    exact List.mem_map_of_mem hc
  exact (htext _ hmem).imp (fun hupper => c.isUpper_toUpper_eq_isAlpha ▸ hupper) isDigit_of_toUpper

theorem normalize_of_upper {rules : TextRules} {value : List Char} (hcolumn : IsColumn letters)
    (hrow : IsRow digits)
    (h : rules.upper (value.filter fun c => !(c = '$' || isWhiteSpace c)) = letters ++ digits ∨
      rules.upper (value.filter fun c => !(c = '$' || isWhiteSpace c)) = digits ++ letters) :
    normalizeCellAddress rules value = some (letters ++ digits) := by
  rw [normalizeCellAddress]
  rcases h with h | h
  · obtain ⟨r, hr, hletters, hdigits⟩ := exec_standard hcolumn hrow
    rw [h, hr]
    simp only [hletters, hdigits]
  · obtain ⟨r, hr, hletters, hdigits⟩ := exec_reversed hcolumn hrow
    rw [h, exec_standard_swapped hrow, hr]
    simp only [Option.map_some, hletters, hdigits]

theorem parse_of_normalize {rules : TextRules} {value : List Char} (hcolumn : IsColumn letters)
    (hrow : IsRow digits) (h : normalizeCellAddress rules value = some (letters ++ digits)) :
    parseCellAddress rules value =
      some ⟨letters ++ digits, columnNumber letters-1, Nat.ofDigitChars 10 digits 0-1⟩ := by
  obtain ⟨r, hr, hletters, hdigits⟩ := exec_standard hcolumn hrow
  simp [parseCellAddress, h, hr, hletters, hdigits]

theorem parts_of_normalize {rules : TextRules} {value address : List Char}
    (h : normalizeCellAddress rules value = some address) :
    ∃ letters digits, IsColumn letters ∧ IsRow digits ∧ address = letters ++ digits := by
  rw [normalizeCellAddress] at h
  split at h
  · next r hr =>
    obtain ⟨t₁, t₂, g₁, g₂, -, hgroups, ⟨g₃, rfl, hfirst⟩, g₄, rfl, hsecond⟩ :=
      Pattern.way_of_exec hr
    obtain ⟨hcolumn, rfl⟩ := way_columnLetters.mp hfirst
    obtain ⟨hrow, rfl⟩ := way_rowDigits.mp hsecond
    refine ⟨t₁, t₂, hcolumn, hrow, ?_⟩
    rw [← Option.some.inj h]
    simp [groupText, Reading.text?, hgroups]
  · obtain ⟨r, hr, rfl⟩ := Option.map_eq_some_iff.mp h
    obtain ⟨t₁, t₂, g₁, g₂, -, hgroups, ⟨g₃, rfl, hfirst⟩, g₄, rfl, hsecond⟩ :=
      Pattern.way_of_exec hr
    obtain ⟨hrow, rfl⟩ := way_rowDigits.mp hfirst
    obtain ⟨hcolumn, rfl⟩ := way_columnLetters.mp hsecond
    refine ⟨t₂, t₁, hcolumn, hrow, ?_⟩
    simp [groupText, Reading.text?, hgroups]

/-- A cell is read back from its name in any spelling, and every accepted address is a name. -/
theorem addresses_of_cells {rules : TextRules} (hrules : rules.UppersLetters) :
    (∀ column row : ℕ, column < 18278 → 1 ≤ row → row ≤ 9999 → ∀ value,
      Spells value (columnName column ++ Nat.toDigits 10 row) ∨
        Spells value (Nat.toDigits 10 row ++ columnName column) →
      parseCellAddress rules value =
        some ⟨columnName column ++ Nat.toDigits 10 row, column, row-1⟩) ∧
    ∀ value address, normalizeCellAddress rules value = some address →
      ∃ column row : ℕ, column < 18278 ∧ 1 ≤ row ∧ row ≤ 9999 ∧
        parseCellAddress rules value = some ⟨address, column, row-1⟩ ∧
        address = columnName column ++ Nat.toDigits 10 row := by
  constructor
  · intro column row hcolumn hrow hrow' value hvalue
    have hletters := (isColumn_columnName column).mpr (by omega)
    have hdigits := (isRow_toDigits (n := row) (by omega)).mpr (by omega)
    have hkinds : ∀ c ∈ columnName column ++ Nat.toDigits 10 row,
        c.isUpper = true ∨ c.isDigit = true := by
      intro c hc
      exact (List.mem_append.mp hc).imp (hletters.2.2 c) (hdigits.2.2 c)
    have hupper := hvalue.imp (upper_of_spells hrules hkinds) (upper_of_spells hrules
      fun c hc => hkinds c (List.mem_append.mpr (List.mem_append.mp hc).symm))
    have hnumber : columnNumber (columnName column) = column+1 := (columnLoop_spec (le_refl _)).2
    have hvalue' : Nat.ofDigitChars 10 (Nat.toDigits 10 row) 0 = row :=
      Nat.ofDigitChars_ten_toDigits
    rw [parse_of_normalize hletters hdigits (normalize_of_upper hletters hdigits hupper),
      hnumber, hvalue', Nat.add_sub_cancel]
  · intro value address h
    obtain ⟨letters, digits, hcolumn, hrow, rfl⟩ := parts_of_normalize h
    obtain ⟨hcolumn', hrow', hname⟩ := cellName_of_parts hcolumn hrow
    have hparse := parse_of_normalize hcolumn hrow h
    refine ⟨_, _, hcolumn', Nat.le_add_left 1 _, hrow', ?_, hname.symm⟩
    rw [hparse, Nat.add_sub_cancel]

theorem uppersLetters_asciiRules : asciiRules.UppersLetters := fun _ _ => rfl

theorem addresses_of_ascii_cells :
    parseCellAddress asciiRules "12 $aB".toList = some ⟨"AB12".toList, 27, 11⟩ ∧
      ∃ column row : ℕ, column < 18278 ∧ 1 ≤ row ∧ row ≤ 9999 ∧
        parseCellAddress asciiRules "12 $aB".toList = some ⟨"AB12".toList, column, row-1⟩ ∧
        "AB12".toList = columnName column ++ Nat.toDigits 10 row :=
  ⟨(addresses_of_cells uppersLetters_asciiRules).1 27 12 (by decide) (by decide) (by decide) _
    (.inr (by decide)),
    (addresses_of_cells uppersLetters_asciiRules).2 _ _ (by decide)⟩

end Addresses

end Cinder.Teacher

/-!
The cells of the gradebook: what a cell of the sheet stands for, by the headers and the usernames
that the sheet shows.
-/

namespace Cinder.Teacher
open Cinder.Streams Cinder.Ecma

structure User where
  id : String
  username : List Char
  displayName : List Char
  deriving DecidableEq, Repr

structure ContextSheet where
  name : String
  values : List (List CellValue)

structure GradebookAiContext where
  sheets : List ContextSheet

inductive GradebookCellTarget where
  | identity (address : List Char)
  | assignmentHeader (address : List Char) (assignment : Assignment)
  | grade (address : List Char) (assignment : Assignment) (student : User)
  | custom (address : List Char)
  deriving DecidableEq, Repr

def gradebookValues (workbook : Option GradebookAiContext) : Option (List (List CellValue)) :=
  workbook.bind fun w => (w.sheets.find? fun sheet => sheet.name = "Gradebook").map (·.values)

section Cells
variable (rules : TextRules)

def assignmentForHeader (value : Option CellValue) (assignments : List Assignment) :
    Option Assignment :=
  let parsed := parseAssignmentHeader rules value
  if parsed.title = [] then none
  else
    let title := normalizeWords rules parsed.title
    let titleMatches := assignments.filter fun a => normalizeWords rules a.title = title
    match titleMatches with
    | [assignment] => some assignment
    | _ => titleMatches.find? fun a => some (some a.maxPoints) = parsed.maxPoints

def findGradebookAssignmentColumn (assignment : Assignment) (assignments : List Assignment)
    (workbook : Option GradebookAiContext) : ℕ :=
  let headers := ((gradebookValues workbook).getD []).headD []
  match headers.findIdx? fun header =>
      (assignmentForHeader rules (some header) assignments).any (·.id = assignment.id) with
  | some column => column
  | none => match assignments.findIdx? (·.id = assignment.id) with
    | some column => column+2
    | none => 1

/-- The assignment that a column stands for, by its header or, under none, by its place. -/
def columnAssignment (assignments : List Assignment) (values : List (List CellValue))
    (column : ℕ) : Option Assignment :=
  let header := (values.headD [])[column]?
  match assignmentForHeader rules header assignments with
  | some assignment => some assignment
  | none =>
    if 2 ≤ column ∧ strip isWhiteSpace (cellText header) = [] then assignments[column-2]? else none

def shownUsername (values : List (List CellValue)) (row : ℕ) : List Char :=
  strip isWhiteSpace (cellText ((values[row]?.getD [])[1]?))

def rowStudent (roster : List User) (values : List (List CellValue)) (row : ℕ) : Option User :=
  (roster.find? fun item =>
    rules.lower item.username = rules.lower (shownUsername values row)).or roster[row-1]?

def resolveGradebookCellTarget (cell : List Char) (roster : List User)
    (assignments : List Assignment) (workbook : Option GradebookAiContext) :
    Option GradebookCellTarget :=
  (parseCellAddress rules cell).map fun location =>
    let values := (gradebookValues workbook).getD []
    if location.column ≤ 1 then .identity location.address
    else match columnAssignment rules assignments values location.column with
      | none => .custom location.address
      | some assignment =>
        if location.row = 0 then .assignmentHeader location.address assignment
        else match rowStudent rules roster values location.row with
          | some student => .grade location.address assignment student
          | none => .custom location.address

end Cells

end Cinder.Teacher
