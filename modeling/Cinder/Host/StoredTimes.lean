import Mathlib.Algebra.GroupWithZero.Nat
import Cinder.Host.HostValues
set_option autoImplicit false

namespace Cinder.Host

section Texts
variable {α : Type} [LT α]

theorem append_lt_append_iff {a b s t : List α} (h : a.length = b.length) :
    a ++ s < b ++ t ↔ a < b ∨ (a = b ∧ s < t) := by
  induction a generalizing b with
  | nil =>
    obtain rfl : b = [] := List.eq_nil_of_length_eq_zero h.symm
    simp
  | cons x a ih =>
    cases b with
    | nil => cases h
    | cons y b =>
      have hlength : a.length = b.length := Nat.succ.inj h
      rw [List.cons_append, List.cons_append, List.cons_lt_cons_iff, List.cons_lt_cons_iff,
        ih hlength, List.cons.injEq]
      tauto

end Texts

section Numbers

def padded : ℕ → ℕ → List Char
  | 0, _ => []
  | width+1, n => padded width (n/10) ++ [Nat.digitChar (n % 10)]

@[simp] theorem length_padded (width n : ℕ) : (padded width n).length = width := by
  induction width generalizing n with
  | zero => rfl
  | succ width ih => rw [padded, List.length_append, ih, List.length_singleton]

theorem digitChar_lt_iff {n m : ℕ} (hn : n < 10) (hm : m < 10) :
    Nat.digitChar n < Nat.digitChar m ↔ n < m := by
  rw [Char.lt_def, UInt32.lt_iff_toNat_lt]
  change (Nat.digitChar n).toNat < (Nat.digitChar m).toNat ↔ n < m
  rw [Nat.toNat_digitChar_of_lt_ten hn, Nat.toNat_digitChar_of_lt_ten hm]
  omega

theorem digitChar_inj {n m : ℕ} (hn : n < 10) (hm : m < 10)
    (h : Nat.digitChar n = Nat.digitChar m) : n = m := by
  have hcode := congrArg Char.toNat h
  rw [Nat.toNat_digitChar_of_lt_ten hn, Nat.toNat_digitChar_of_lt_ten hm] at hcode
  omega

theorem padded_inj {width n m : ℕ} (hn : n < 10^width) (hm : m < 10^width)
    (h : padded width n = padded width m) : n = m := by
  induction width generalizing n m with
  | zero =>
    rw [Nat.pow_zero] at hn hm
    omega
  | succ width ih =>
    rw [Nat.pow_succ] at hn hm
    obtain ⟨hfront, hlast⟩ := List.append_inj h (by simp)
    have hdigit := digitChar_inj (Nat.mod_lt n (by decide)) (Nat.mod_lt m (by decide))
      (List.cons.inj hlast).1
    have hrest := ih (by omega) (by omega) hfront
    omega

theorem padded_lt_iff {width n m : ℕ} (hn : n < 10^width) (hm : m < 10^width) :
    padded width n < padded width m ↔ n < m := by
  induction width generalizing n m with
  | zero =>
    rw [Nat.pow_zero] at hn hm
    simp [padded]
    omega
  | succ width ih =>
    rw [Nat.pow_succ] at hn hm
    have hdigit := digitChar_lt_iff (Nat.mod_lt n (by decide : 10 > 0))
      (Nat.mod_lt m (by decide : 10 > 0))
    have hfront : padded width (n/10) = padded width (m/10) ↔ n/10 = m/10 :=
      ⟨padded_inj (by omega) (by omega), congrArg _⟩
    rw [padded, padded, append_lt_append_iff (by simp), ih (by omega) (by omega), hfront,
      List.cons_lt_cons_iff, hdigit]
    simp
    omega

theorem padded_add (width k n : ℕ) :
    padded (width+k) n = padded width (n/10^k) ++ padded k (n % 10^k) := by
  induction k generalizing n with
  | zero => simp [padded]
  | succ k ih =>
    have hquotient : n/10/10^k = n/10^(k+1) := by rw [Nat.div_div_eq_div_mul, Nat.pow_succ']
    have hremainder : n % 10^(k+1)/10 = n/10 % 10^k := by
      rw [Nat.pow_succ', Nat.mod_mul_right_div_self]
    have hlast : n % 10^(k+1) % 10 = n % 10 :=
      Nat.mod_mod_of_dvd n ⟨10^k, Nat.pow_succ'⟩
    rw [← Nat.add_assoc, padded, ih, padded, hquotient, hremainder, hlast, List.append_assoc]

variable {width n m : ℕ} {s t : List Char}

theorem padded_append_lt_iff (hn : n < 10^width) (hm : m < 10^width) :
    padded width n ++ s < padded width m ++ t ↔ n < m ∨ (n = m ∧ s < t) := by
  have heq : padded width n = padded width m ↔ n = m := ⟨padded_inj hn hm, congrArg _⟩
  rw [append_lt_append_iff (by simp), padded_lt_iff hn hm, heq]

theorem padded_cons_lt_iff (hn : n < 10^width) (hm : m < 10^width) (c : Char) :
    padded width n ++ c :: s < padded width m ++ c :: t ↔ n < m ∨ (n = m ∧ s < t) := by
  rw [padded_append_lt_iff hn hm, List.cons_lt_cons_self]

end Numbers

section Endings

def utcOffset : List Char := ['+', '0', '0', ':', '0', '0']

/-- Nothing, or the digits that are needed of the three, six or nine. -/
def fractionText (nanos : ℕ) : List Char :=
  if nanos = 0 then []
  else if nanos % 1000000 = 0 then '.' :: padded 3 (nanos/1000000)
  else if nanos % 1000 = 0 then '.' :: padded 6 (nanos/1000)
  else '.' :: padded 9 nanos

theorem fractionText_cases (n : ℕ) :
    (n = 0 ∧ fractionText n = []) ∨
    (n ≠ 0 ∧ n % 1000000 = 0 ∧ fractionText n = '.' :: padded 3 (n/1000000)) ∨
    (n % 1000000 ≠ 0 ∧ n % 1000 = 0 ∧ fractionText n = '.' :: padded 6 (n/1000)) ∨
      (n % 1000 ≠ 0 ∧ fractionText n = '.' :: padded 9 n) := by
  unfold fractionText
  by_cases hzero : n = 0
  · exact .inl ⟨hzero, if_pos hzero⟩
  · by_cases hmillis : n % 1000000 = 0
    · exact .inr (.inl ⟨hzero, hmillis, by rw [if_neg hzero, if_pos hmillis]⟩)
    · by_cases hmicros : n % 1000 = 0
      · exact .inr (.inr (.inl ⟨hmillis, hmicros, by
          rw [if_neg hzero, if_neg hmillis, if_pos hmicros]⟩))
      · exact .inr (.inr (.inr ⟨hmicros, by rw [if_neg hzero, if_neg hmillis, if_neg hmicros]⟩))

theorem padded_head (k n : ℕ) :
    ∃ d < 10, ∃ rest, padded (k+1) n = Nat.digitChar d :: rest := by
  induction k generalizing n with
  | zero => exact ⟨n % 10, Nat.mod_lt n (by decide), [], rfl⟩
  | succ k ih =>
    obtain ⟨d, hd, rest, h⟩ := ih (n/10)
    exact ⟨d, hd, rest ++ [Nat.digitChar (n % 10)], by rw [padded, h, List.cons_append]⟩

theorem offset_lt_padded (k n : ℕ) :
    utcOffset < padded (k+1) n ++ utcOffset ∧ ¬padded (k+1) n ++ utcOffset < utcOffset := by
  obtain ⟨d, hd, rest, h⟩ := padded_head k n
  have hsign : '+' < Nat.digitChar d := by
    rw [Char.lt_def, UInt32.lt_iff_toNat_lt]
    change 43 < (Nat.digitChar d).toNat
    rw [Nat.toNat_digitChar_of_lt_ten hd]
    omega
  have hless : utcOffset < padded (k+1) n ++ utcOffset := by
    rw [h]
    exact List.cons_lt_cons_iff.mpr (.inl hsign)
  exact ⟨hless, fun hgreater => List.lt_asymm hless hgreater⟩

variable {n m : ℕ}

theorem padded_lt_longer (width k : ℕ) (hn : n < 10^width) (hm : m < 10^(width+(k+1))) :
    padded width n ++ utcOffset < padded (width+(k+1)) m ++ utcOffset ↔ n ≤ m/10^(k+1) := by
  have hquotient : m/10^(k+1) < 10^width := by
    rw [Nat.pow_add] at hm
    exact Nat.div_lt_of_lt_mul (by rwa [Nat.mul_comm] at hm)
  have hsuffix := (offset_lt_padded k (m % 10^(k+1))).1
  rw [padded_add, List.append_assoc, padded_append_lt_iff hn hquotient]
  simp only [hsuffix, and_true]
  omega

theorem padded_longer_lt (width k : ℕ) (hn : n < 10^(width+(k+1))) (hm : m < 10^width) :
    padded (width+(k+1)) n ++ utcOffset < padded width m ++ utcOffset ↔ n/10^(k+1) < m := by
  have hquotient : n/10^(k+1) < 10^width := by
    rw [Nat.pow_add] at hn
    exact Nat.div_lt_of_lt_mul (by rwa [Nat.mul_comm] at hn)
  have hsuffix := (offset_lt_padded k (n % 10^(k+1))).2
  rw [padded_add, List.append_assoc, padded_append_lt_iff hquotient hm]
  simp only [hsuffix, and_false, or_false]

theorem padded_lt_same (width : ℕ) (hn : n < 10^width) (hm : m < 10^width) :
    padded width n ++ utcOffset < padded width m ++ utcOffset ↔ n < m := by
  have hsame : ¬utcOffset < utcOffset := List.lt_irrefl utcOffset
  rw [padded_append_lt_iff hn hm]
  simp only [hsame, and_false, or_false]

def ending (nanos : ℕ) : List Char := fractionText nanos ++ utcOffset

theorem offset_lt_point (s : List Char) :
    utcOffset < '.' :: s ∧ ¬('.' :: s) < utcOffset := by
  have hless : utcOffset < '.' :: s := List.cons_lt_cons_iff.mpr (.inl (by decide))
  exact ⟨hless, fun hgreater => List.lt_asymm hless hgreater⟩

theorem ending_lt_iff (hn : n < 10^9) (hm : m < 10^9) : ending n < ending m ↔ n < m := by
  unfold ending
  rcases fractionText_cases n with ⟨rfl, hnt⟩ | ⟨hn₀, hn₁, hnt⟩ | ⟨hn₀, hn₁, hnt⟩ | ⟨hn₀, hnt⟩
  · rcases fractionText_cases m with ⟨rfl, hmt⟩ | ⟨hm₀, -, hmt⟩ | ⟨hm₀, -, hmt⟩ | ⟨hm₀, hmt⟩
    · exact iff_of_false (List.lt_irrefl _) (Nat.lt_irrefl 0)
    all_goals
      rw [hnt, hmt]
      exact iff_of_true (offset_lt_point _).1 (by omega)
  all_goals
    rcases fractionText_cases m with ⟨rfl, hmt⟩ | ⟨hm₀, hm₁, hmt⟩ | ⟨hm₀, hm₁, hmt⟩ | ⟨hm₀, hmt⟩
    · rw [hnt, hmt]
      exact iff_of_false (offset_lt_point _).2 (Nat.not_lt_zero n)
    all_goals rw [hnt, hmt, List.cons_append, List.cons_append, List.cons_lt_cons_self]
  · rw [padded_lt_same 3 (by omega) (by omega)]
    omega
  · rw [padded_lt_longer 3 2 (by omega) (by omega)]
    omega
  · rw [padded_lt_longer 3 5 (by omega) (by omega)]
    omega
  · rw [padded_longer_lt 3 2 (by omega) (by omega)]
    omega
  · rw [padded_lt_same 6 (by omega) (by omega)]
    omega
  · rw [padded_lt_longer 6 2 (by omega) (by omega)]
    omega
  · rw [padded_longer_lt 3 5 (by omega) (by omega)]
    omega
  · rw [padded_longer_lt 6 2 (by omega) (by omega)]
    omega
  · rw [padded_lt_same 9 (by omega) (by omega)]

end Endings

section Calendar

def total (length : ℕ → ℕ) : ℕ → ℕ
  | 0 => 0
  | n+1 => total length n+length n

theorem total_le (length : ℕ → ℕ) {n n' : ℕ} (h : n < n') :
    total length n+length n ≤ total length n' := by
  induction n' with
  | zero => cases h
  | succ n' ih =>
    rw [total]
    rcases Nat.lt_succ_iff_lt_or_eq.mp h with hlt | rfl
    · exact (ih hlt).trans (Nat.le_add_right _ _)
    · exact le_refl _

theorem total_add_lt_iff {length : ℕ → ℕ} {n n' r r' : ℕ} (hr : r < length n)
    (hr' : r' < length n') :
    total length n+r < total length n'+r' ↔ n < n' ∨ (n = n' ∧ r < r') := by
  rcases Nat.lt_trichotomy n n' with h | rfl | h
  · have hle := total_le length h
    omega
  · omega
  · have hle := total_le length h
    omega

def isLeap (year : ℕ) : Bool := year % 4 = 0 && (year % 100 != 0 || year % 400 = 0)

/-- The months count from zero. -/
def monthLength (year month : ℕ) : ℕ :=
  if month = 1 then if isLeap year then 29 else 28
  else if month = 3 ∨ month = 5 ∨ month = 8 ∨ month = 10 then 30
  else 31

def yearLength (year : ℕ) : ℕ := total (monthLength year) 12

example : yearLength 1900 = 365 ∧ yearLength 2000 = 366 := by decide

/-- A day of the Gregorian calendar, in a year of four digits. The month and the day count from
zero. -/
structure CalendarDate where
  year : ℕ
  month : ℕ
  day : ℕ
  year_lt : year < 10000
  month_lt : month < 12
  day_lt : day < monthLength year month
  deriving DecidableEq, Repr

def CalendarDate.dayOfYear (d : CalendarDate) : ℕ := total (monthLength d.year) d.month+d.day

def CalendarDate.number (d : CalendarDate) : ℕ := total yearLength d.year+d.dayOfYear

theorem dayOfYear_lt (d : CalendarDate) : d.dayOfYear < yearLength d.year := by
  have hle := total_le (monthLength d.year) d.month_lt
  have hday := d.day_lt
  rw [CalendarDate.dayOfYear, yearLength]
  omega

theorem number_lt_iff (d d' : CalendarDate) :
    d.number < d'.number ↔ d.year < d'.year ∨ (d.year = d'.year ∧
      (d.month < d'.month ∨ (d.month = d'.month ∧ d.day < d'.day))) := by
  rw [CalendarDate.number, CalendarDate.number, total_add_lt_iff (dayOfYear_lt d) (dayOfYear_lt d')]
  refine or_congr_right (and_congr_right fun hyear => ?_)
  have hday := d'.day_lt
  rw [CalendarDate.dayOfYear, CalendarDate.dayOfYear, ← hyear]
  rw [← hyear] at hday
  exact total_add_lt_iff d.day_lt hday

theorem number_inj {d d' : CalendarDate} (h : d.number = d'.number) : d = d' := by
  have hless := number_lt_iff d d'
  have hgreater := number_lt_iff d' d
  have hfields : d.year = d'.year ∧ d.month = d'.month ∧ d.day = d'.day := by omega
  cases d
  cases d'
  rw [CalendarDate.mk.injEq]
  exact hfields

end Calendar

section Times

/-- A time in UTC. The fraction of a second is in nanoseconds, and from 10⁹ on it belongs to a
leap second. -/
structure UtcTime where
  date : CalendarDate
  secs : ℕ
  frac : ℕ
  secs_lt : secs < 86400
  frac_lt : frac < 2000000000
  leap : 1000000000 ≤ frac → secs % 60 = 59
  deriving DecidableEq, Repr

namespace UtcTime

def seconds (t : UtcTime) : ℕ := t.date.number*86400+t.secs

def Before (t u : UtcTime) : Prop :=
  t.seconds < u.seconds ∨ (t.seconds = u.seconds ∧ t.frac < u.frac)

/-- `to_rfc3339`. -/
def toRfc3339 (t : UtcTime) : List Char :=
  padded 4 t.date.year ++ '-' :: (padded 2 (t.date.month+1) ++ '-' ::
    (padded 2 (t.date.day+1) ++ 'T' :: (padded 2 (t.secs/3600) ++ ':' ::
      (padded 2 (t.secs/60 % 60) ++ ':' :: (padded 2 (t.secs % 60+t.frac/1000000000) ++
        ending (t.frac % 1000000000))))))

example : toRfc3339 ⟨⟨2024, 0, 4, by decide, by decide, by decide⟩, 22028, 90000000, by decide,
    by decide, by decide⟩ = "2024-01-05T06:07:08.090+00:00".toList := by decide

theorem date_bounds (t : UtcTime) : t.date.year < 10^4 ∧ t.date.month+1 < 10^2 ∧
    t.date.day+1 < 10^2 ∧ t.secs/3600 < 10^2 ∧ t.secs/60 % 60 < 10^2 ∧
      t.secs % 60+t.frac/1000000000 < 10^2 := by
  have hyear := t.date.year_lt
  have hmonth := t.date.month_lt
  have hday := t.date.day_lt
  have hsecs := t.secs_lt
  have hfrac := t.frac_lt
  have hlength : monthLength t.date.year t.date.month ≤ 31 := by
    unfold monthLength
    split_ifs <;> decide
  omega

theorem time_lt_iff {s s' f f' : ℕ} (hf : f < 2000000000) (hf' : f' < 2000000000)
    (hleap : 1000000000 ≤ f → s % 60 = 59) (hleap' : 1000000000 ≤ f' → s' % 60 = 59) :
    s < s' ∨ (s = s' ∧ f < f') ↔ s/3600 < s'/3600 ∨ (s/3600 = s'/3600 ∧
      (s/60 % 60 < s'/60 % 60 ∨ (s/60 % 60 = s'/60 % 60 ∧
        (s % 60+f/1000000000 < s' % 60+f'/1000000000 ∨
          (s % 60+f/1000000000 = s' % 60+f'/1000000000 ∧
            f % 1000000000 < f' % 1000000000))))) := by
  have hs : s = s/3600*3600+s/60 % 60*60+s % 60 := by omega
  have hs' : s' = s'/3600*3600+s'/60 % 60*60+s' % 60 := by omega
  have hminute : s/60 % 60 < 60 ∧ s % 60 < 60 := by omega
  have hminute' : s'/60 % 60 < 60 ∧ s' % 60 < 60 := by omega
  have hfrac : f = f/1000000000*1000000000+f % 1000000000 ∧ f/1000000000 < 2 := by omega
  have hfrac' : f' = f'/1000000000*1000000000+f' % 1000000000 ∧ f'/1000000000 < 2 := by omega
  generalize s/3600 = h at *
  generalize s'/3600 = h' at *
  generalize s/60 % 60 = m at *
  generalize s'/60 % 60 = m' at *
  generalize s % 60 = c at *
  generalize s' % 60 = c' at *
  omega

theorem toRfc3339_lt_iff (t u : UtcTime) : t.toRfc3339 < u.toRfc3339 ↔ t.Before u := by
  obtain ⟨hyear, hmonth, hday, hhour, hminute, hsecond⟩ := t.date_bounds
  obtain ⟨hyear', hmonth', hday', hhour', hminute', hsecond'⟩ := u.date_bounds
  have hnanos : ∀ n, n % 1000000000 < 10^9 := fun n => Nat.mod_lt n (by decide)
  rw [toRfc3339, toRfc3339, padded_cons_lt_iff hyear hyear', padded_cons_lt_iff hmonth hmonth',
    padded_cons_lt_iff hday hday', padded_cons_lt_iff hhour hhour',
    padded_cons_lt_iff hminute hminute', padded_append_lt_iff hsecond hsecond',
    ending_lt_iff (hnanos _) (hnanos _), ← time_lt_iff t.frac_lt u.frac_lt t.leap u.leap]
  have hdate := number_lt_iff t.date u.date
  have hdate' := number_lt_iff u.date t.date
  have hsecs := t.secs_lt
  have hsecs' := u.secs_lt
  rw [Before, seconds, seconds]
  omega

theorem eq_of_not_before {t u : UtcTime} (h : ¬t.Before u) (h' : ¬u.Before t) : t = u := by
  have hsecs := t.secs_lt
  have hsecs' := u.secs_lt
  rw [Before, seconds, seconds] at h h'
  have hdate : t.date = u.date := number_inj (by omega)
  have htime : t.secs = u.secs ∧ t.frac = u.frac := by omega
  cases t
  cases u
  rw [UtcTime.mk.injEq]
  exact ⟨hdate, htime⟩

end UtcTime

end Times

section Bytes

/-- The bytes of a text, which SQLite compares. -/
def textBytes (s : List Char) : List UInt8 := s.flatMap String.utf8EncodeChar

def IsAscii (s : List Char) : Prop := ∀ c ∈ s, c.toNat < 128

theorem IsAscii.append {s t : List Char} (hs : IsAscii s) (ht : IsAscii t) : IsAscii (s ++ t) :=
  List.forall_mem_append.mpr ⟨hs, ht⟩

theorem IsAscii.cons {c : Char} {s : List Char} (hs : IsAscii s) (hc : c.toNat < 128) :
    IsAscii (c :: s) := List.forall_mem_cons.mpr ⟨hc, hs⟩

theorem isAscii_padded (width n : ℕ) : IsAscii (padded width n) := by
  induction width generalizing n with
  | zero => exact List.forall_mem_nil _
  | succ width ih =>
    have hdigit : (Nat.digitChar (n % 10)).toNat < 128 := by
      have hlow : n % 10 < 10 := Nat.mod_lt n (by decide)
      rw [Nat.toNat_digitChar_of_lt_ten hlow]
      omega
    exact (ih (n/10)).append (IsAscii.cons (List.forall_mem_nil _) hdigit)

theorem isAscii_ending (n : ℕ) : IsAscii (ending n) := by
  have hoffset : IsAscii utcOffset := by
    have hall : utcOffset.all (fun c => c.toNat < 128) = true := by decide
    exact fun c hc => of_decide_eq_true (List.all_eq_true.mp hall c hc)
  refine IsAscii.append ?_ hoffset
  unfold fractionText
  split_ifs
  · exact List.forall_mem_nil _
  all_goals exact (isAscii_padded _ _).cons (by decide)

theorem isAscii_toRfc3339 (t : UtcTime) : IsAscii t.toRfc3339 :=
  (isAscii_padded _ _).append (((isAscii_padded _ _).append (((isAscii_padded _ _).append
    (((isAscii_padded _ _).append (((isAscii_padded _ _).append (((isAscii_padded _ _).append
      (isAscii_ending _)).cons (by decide))).cons (by decide))).cons (by decide))).cons
        (by decide))).cons (by decide))

theorem textBytes_cons {c : Char} {s : List Char} (hc : c.toNat < 128) :
    textBytes (c :: s) = c.toUInt8 :: textBytes s := by
  have hsize : c.utf8Size = 1 := by
    rw [Char.utf8Size_eq_one_iff, UInt32.le_iff_toNat_le]
    exact Nat.le_of_lt_succ hc
  rw [textBytes, List.flatMap_cons, String.utf8EncodeChar_eq_singleton hsize]
  rfl

theorem toUInt8_lt_iff {c d : Char} (hc : c.toNat < 128) (hd : d.toNat < 128) :
    (c.toUInt8 < d.toUInt8 ↔ c < d) ∧ (c.toUInt8 = d.toUInt8 ↔ c = d) := by
  have hcode : ∀ x : Char, x.toNat < 128 → x.toUInt8.toNat = x.toNat := by
    intro x hx
    change x.val.toNat % 256 = x.val.toNat
    exact Nat.mod_eq_of_lt (hx.trans (by decide))
  constructor
  · rw [UInt8.lt_iff_toNat_lt, hcode c hc, hcode d hd, Char.lt_def, UInt32.lt_iff_toNat_lt]
    rfl
  · rw [← UInt8.toNat_inj, hcode c hc, hcode d hd, Char.toNat_inj]

theorem textBytes_lt_iff {s t : List Char} (hs : IsAscii s) (ht : IsAscii t) :
    textBytes s < textBytes t ↔ s < t := by
  induction s generalizing t with
  | nil =>
    cases t with
    | nil => exact iff_of_false (List.lt_irrefl _) (List.lt_irrefl _)
    | cons d t =>
      rw [textBytes_cons (ht d List.mem_cons_self)]
      exact iff_of_true (List.nil_lt_cons _ _) (List.nil_lt_cons _ _)
  | cons c s ih =>
    obtain ⟨hc, hs⟩ := List.forall_mem_cons.mp hs
    cases t with
    | nil => exact iff_of_false (List.not_lt_nil _) (List.not_lt_nil _)
    | cons d t =>
      obtain ⟨hd, ht⟩ := List.forall_mem_cons.mp ht
      obtain ⟨hlt, heq⟩ := toUInt8_lt_iff hc hd
      rw [textBytes_cons hc, textBytes_cons hd, List.cons_lt_cons_iff, List.cons_lt_cons_iff, hlt,
        heq, ih hs ht]

theorem textBytes_toRfc3339_lt_iff (t u : UtcTime) :
    textBytes t.toRfc3339 < textBytes u.toRfc3339 ↔ t.Before u :=
  (textBytes_lt_iff (isAscii_toRfc3339 t) (isAscii_toRfc3339 u)).trans (t.toRfc3339_lt_iff u)

/-- Stored texts are in the order of the times, and are the same for the same time only. -/
theorem stored_times_sort (t u : UtcTime) :
    (textBytes t.toRfc3339 < textBytes u.toRfc3339 ↔ t.Before u) ∧
      (textBytes t.toRfc3339 = textBytes u.toRfc3339 ↔ t = u) := by
  refine ⟨textBytes_toRfc3339_lt_iff t u, fun h => ?_, fun h => by rw [h]⟩
  refine UtcTime.eq_of_not_before ?_ ?_
  · rw [← textBytes_toRfc3339_lt_iff, h]
    exact List.lt_irrefl _
  · rw [← textBytes_toRfc3339_lt_iff, h]
    exact List.lt_irrefl _

end Bytes

end Cinder.Host
