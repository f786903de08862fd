import Cinder.Worksheets.PaperPages
set_option autoImplicit false

/-!
The ranges that pages are cited by. Pages are numbers of the language, which has not every integer
from 2^53 on, and one more than a page is rounded.
-/

namespace Cinder.Worksheets
open Cinder.Ecma

section Ranges
variable (follows : ℕ → ℕ → Bool)

def rangesOf (pages : List ℕ) : List (ℕ × ℕ) :=
  match pages.eraseDups.mergeSort with
  | [] => []
  | page :: pages => openRanges follows page page pages

def Covers (ranges : List (ℕ × ℕ)) (n : ℕ) : Prop := ∃ r ∈ ranges, r.1 ≤ n ∧ n ≤ r.2

def Separate (ranges : List (ℕ × ℕ)) : Prop :=
  (∀ r ∈ ranges, r.1 ≤ r.2) ∧ ranges.Pairwise fun r r' => r.2+1 < r'.1

/-- There are no other numbers between one and the one that follows it, and if there is the number
plus one then that one follows it. -/
structure Successive (IsNumber : ℕ → Prop) : Prop where
  between : ∀ n m x, IsNumber x → follows n m = true → n < x → x < m → False
  next : ∀ n, IsNumber (n+1) → follows n (n+1) = true

variable {follows} {IsNumber : ℕ → Prop} {start stop n : ℕ} {pages : List ℕ}

theorem covers_cons {r : ℕ × ℕ} {ranges : List (ℕ × ℕ)} :
    Covers (r :: ranges) n ↔ (r.1 ≤ n ∧ n ≤ r.2) ∨ Covers ranges n := by
  simp [Covers]

theorem covers_openRanges (h : Successive follows IsNumber) (hstart : start ≤ stop)
    (hsorted : (stop :: pages).Pairwise (· < ·)) (hn : IsNumber n) :
    Covers (openRanges follows start stop pages) n ↔ (start ≤ n ∧ n ≤ stop) ∨ n ∈ pages := by
  induction pages generalizing start stop with
  | nil => simp [openRanges, Covers]
  | cons page pages ih =>
    obtain ⟨hstop, hpages⟩ := List.pairwise_cons.mp hsorted
    have hless := hstop page List.mem_cons_self
    rw [openRanges, List.mem_cons]
    split
    · next hfollows =>
      have hgap := h.between stop page n hn hfollows
      rw [ih (by omega) hpages]
      have hmerged : start ≤ n ∧ n ≤ page ↔ (start ≤ n ∧ n ≤ stop) ∨ n = page := by
        have hother : ¬(stop < n ∧ n < page) := fun hbetween => hgap hbetween.1 hbetween.2
        omega
      rw [hmerged, or_assoc]
    · have hsingle : page ≤ n ∧ n ≤ page ↔ n = page := by omega
      rw [covers_cons, ih (le_refl page) hpages, hsingle]

theorem separate_openRanges (h : Successive follows IsNumber) (hstart : start ≤ stop)
    (hsorted : (stop :: pages).Pairwise (· < ·)) (hpages : ∀ x ∈ pages, IsNumber x) :
    Separate (openRanges follows start stop pages) ∧
      ∀ r ∈ openRanges follows start stop pages, start ≤ r.1 := by
  induction pages generalizing start stop with
  | nil => simp [openRanges, Separate, hstart]
  | cons page pages ih =>
    obtain ⟨hstop, hrest⟩ := List.pairwise_cons.mp hsorted
    have hless := hstop page List.mem_cons_self
    obtain ⟨hpage, hpages⟩ := List.forall_mem_cons.mp hpages
    rw [openRanges]
    split
    · exact ih (by omega) hrest hpages
    · next hfollows =>
      obtain ⟨⟨horder, hpairs⟩, hfirst⟩ := ih (le_refl page) hrest hpages
      have hgap : stop+1 < page := by
        have hne : page ≠ stop+1 := by
          rintro rfl
          exact hfollows (h.next stop hpage)
        omega
      refine ⟨⟨List.forall_mem_cons.mpr ⟨hstart, horder⟩, List.pairwise_cons.mpr ⟨?_, hpairs⟩⟩,
        List.forall_mem_cons.mpr ⟨le_refl start, fun r hr => ?_⟩⟩
      · intro r hr
        exact hgap.trans_le (hfirst r hr)
      · have hle := hfirst r hr
        omega

theorem nodup_eraseDups (pages : List ℕ) : pages.eraseDups.Nodup := by
  induction pages using List.reverseRecOn with
  | nil => exact .nil
  | append_singleton pages page ih =>
    rw [List.eraseDups_append]
    by_cases hmem : page ∈ pages
    · have hnone : [page].removeAll pages = [] := by simp [List.removeAll, hmem]
      rw [hnone, List.eraseDups_nil, List.append_nil]
      exact ih
    · have hone : [page].removeAll pages = [page] := by simp [List.removeAll, hmem]
      rw [hone, List.nodup_append]
      refine ⟨ih, List.nodup_singleton page, fun x hx y hy => ?_⟩
      rw [List.mem_eraseDups] at hx hy
      rw [List.mem_singleton.mp hy]
      exact ne_of_mem_of_not_mem hx hmem

theorem sorted_pages (pages : List ℕ) :
    pages.eraseDups.mergeSort.Pairwise (· < ·) ∧
      ∀ n, n ∈ pages.eraseDups.mergeSort ↔ n ∈ pages := by
  have hperm := pages.eraseDups.mergeSort_perm fun a b => a ≤ b
  have hnodup := hperm.nodup_iff.mpr (nodup_eraseDups pages)
  have hsorted : pages.eraseDups.mergeSort.Pairwise fun a b => decide (a ≤ b) = true := by
    refine List.pairwise_mergeSort (fun a b c hab hbc => ?_) (fun a b => ?_) pages.eraseDups
    · rw [decide_eq_true_eq] at *
      exact hab.trans hbc
    · simpa using le_total a b
  refine ⟨(hsorted.and hnodup).imp fun h => lt_of_le_of_ne (of_decide_eq_true h.1) h.2, fun n => ?_⟩
  rw [hperm.mem_iff, List.mem_eraseDups]

theorem rangesOf_spec (h : Successive follows IsNumber) (hpages : ∀ x ∈ pages, IsNumber x) :
    (∀ n, IsNumber n → (Covers (rangesOf follows pages) n ↔ n ∈ pages)) ∧
      Separate (rangesOf follows pages) := by
  obtain ⟨hsorted, hmem⟩ := sorted_pages pages
  rw [rangesOf]
  split
  · next hnil =>
    rw [hnil] at hmem
    refine ⟨fun n _ => ?_, List.forall_mem_nil _, .nil⟩
    rw [← hmem n]
    simp [Covers]
  · next page rest hcons =>
    rw [hcons] at hsorted hmem
    have hrest : ∀ x ∈ rest, IsNumber x :=
      fun x hx => hpages x ((hmem x).mp (List.mem_cons_of_mem page hx))
    refine ⟨fun n hn => ?_, (separate_openRanges h (le_refl page) hsorted hrest).1⟩
    have hsingle : page ≤ n ∧ n ≤ page ↔ n = page := by omega
    rw [covers_openRanges h (le_refl page) hsorted hn, hsingle, ← hmem n, List.mem_cons]

end Ranges

section Doubles

theorem roundHalfEven_le {x : ℚ} {m : ℤ} (h : x ≤ m) : roundHalfEven x ≤ m := by
  have hfloor : ⌊x⌋ ≤ m := Int.cast_le.mp ((Int.floor_le x).trans h)
  unfold roundHalfEven
  split
  · exact hfloor
  · next hhalf =>
    have hless : ⌊x⌋ < m := by
      rw [← Int.cast_lt (R := ℚ)]
      linarith
    split_ifs <;> omega

theorem ulpExponent_mono {q n : ℚ} (hq : 0 < q) (h : q ≤ n) : ulpExponent q ≤ ulpExponent n := by
  have habs : |q| ≤ |n| := by
    rw [abs_of_pos hq, abs_of_pos (hq.trans_le h)]
    exact h
  have hlog := Int.log_mono_right (b := 2) (abs_pos.mpr hq.ne') habs
  exact max_le_max (by omega) (le_refl _)

theorem roundDouble_le {q n x : ℚ} (hq : 0 < q) (h : q ≤ n) (hn : roundDouble n = some n)
    (hx : roundDouble q = some x) : x ≤ n := by
  have hulp := ulpExponent_mono hq h
  have hdouble : (roundHalfEven (n/2^ulpExponent n) : ℚ)*2^ulpExponent n = n := by
    unfold roundDouble at hn
    dsimp only at hn
    split at hn
    · exact Option.some.inj hn
    · cases hn
  have hrounded : (roundHalfEven (q/2^ulpExponent q) : ℚ)*2^ulpExponent q = x := by
    unfold roundDouble at hx
    dsimp only at hx
    split at hx
    · exact Option.some.inj hx
    · cases hx
  generalize roundHalfEven (n/2^ulpExponent n) = k at hdouble
  obtain ⟨j, hj⟩ := Int.eq_ofNat_of_zero_le (sub_nonneg.mpr hulp)
  have hpos : (0 : ℚ) < 2^ulpExponent q := zpow_pos two_pos _
  have hscaled : n = ((k*2^j : ℤ) : ℚ)*2^ulpExponent q := by
    have hexp : ulpExponent n = (j : ℤ)+ulpExponent q := by omega
    rw [← hdouble, hexp, zpow_add₀ two_ne_zero, zpow_natCast]
    push_cast
    ring
  have hle : q/2^ulpExponent q ≤ ((k*2^j : ℤ) : ℚ) := by
    rw [div_le_iff₀ hpos, ← hscaled]
    exact h
  rw [← hrounded, hscaled]
  exact mul_le_mul_of_nonneg_right (Int.cast_le.mpr (roundHalfEven_le hle)) hpos.le

def IsDouble (n : ℕ) : Prop := roundDouble n = some (n : ℚ)

instance (n : ℕ) : Decidable (IsDouble n) := inferInstanceAs (Decidable (_ = _))

theorem successive_doubles : Successive followsDouble IsDouble where
  between n m x hx hfollows hn hm := by
    have hle : (n : ℚ)+1 ≤ x := by exact_mod_cast hn
    have hpos : (0 : ℚ) < (n : ℚ)+1 := by positivity
    have hmx := roundDouble_le hpos hle hx (of_decide_eq_true hfollows)
    have hmx' : m ≤ x := by exact_mod_cast hmx
    omega
  next n hn := by
    have hnext : roundDouble ((n : ℚ)+1) = some ((n : ℚ)+1) := by
      rw [IsDouble] at hn
      push_cast at hn
      exact hn
    rw [followsDouble, hnext]
    simp

end Doubles

section Citations
variable {start stop n : ℕ} {pages : List ℕ}

theorem stop_of_mem_openRanges {follows : ℕ → ℕ → Bool} :
    ∀ r ∈ openRanges follows start stop pages, r.2 ∈ stop :: pages := by
  induction pages generalizing start stop with
  | nil => simp [openRanges]
  | cons page pages ih =>
    rw [openRanges]
    split
    · exact fun r hr => List.mem_cons_of_mem stop (ih r hr)
    · refine List.forall_mem_cons.mpr ⟨List.mem_cons_self, fun r hr => ?_⟩
      exact List.mem_cons_of_mem stop (ih r hr)

theorem stop_of_mem_rangesOf {follows : ℕ → ℕ → Bool} {r : ℕ × ℕ}
    (hr : r ∈ rangesOf follows pages) : r.2 ∈ pages := by
  obtain ⟨-, hmem⟩ := sorted_pages pages
  rw [rangesOf] at hr
  split at hr
  · cases hr
  · next page rest hcons =>
    rw [← hmem, hcons]
    exact stop_of_mem_openRanges r hr

theorem isDouble_of_le (h : n ≤ 2^53) : IsDouble n := by
  rcases h.lt_or_eq with hlt | rfl
  · exact roundDouble_natCast hlt
  · decide +kernel

theorem pagesMark_eq_iff {page : ℕ} {rest : List ℕ} (h : pages.eraseDups.mergeSort = page :: rest) :
    pagesMark rest = "p.".toList ↔ ∃ n, ∀ m, m ∈ pages ↔ m = n := by
  obtain ⟨hsorted, hmem⟩ := sorted_pages pages
  rw [h] at hsorted hmem
  have hmark : pagesMark rest = "p.".toList ↔ rest = [] := by
    unfold pagesMark
    split
    · next hrest => exact iff_of_true rfl hrest
    · next hrest => exact iff_of_false (by decide) hrest
  rw [hmark]
  constructor
  · rintro rfl
    exact ⟨page, fun m => by rw [← hmem m, List.mem_singleton]⟩
  · rintro ⟨n, hn⟩
    cases rest with
    | nil => rfl
    | cons second rest =>
      have hfirst := (hn page).mp ((hmem page).mp List.mem_cons_self)
      have hsecond := (hn second).mp ((hmem second).mp (by simp))
      have hless := (List.pairwise_cons.mp hsorted).1 second List.mem_cons_self
      omega

theorem compactPageRanges_cons {page : ℕ} {rest : List ℕ} (numberText : ℕ → List Char)
    (h : pages.eraseDups.mergeSort = page :: rest) :
    compactPageRanges numberText pages = pagesMark rest ++ ' ' ::
      ", ".toList.intercalate ((rangesOf followsDouble pages).map (rangeText numberText)) := by
  rw [compactPageRanges, rangesOf, h]

theorem compactPageRanges_eq_nil (numberText : ℕ → List Char) :
    compactPageRanges numberText pages = [] ↔ pages = [] := by
  obtain ⟨-, hmem⟩ := sorted_pages pages
  cases hsorted : pages.eraseDups.mergeSort with
  | nil =>
    rw [hsorted] at hmem
    have hnil : pages = [] := List.eq_nil_iff_forall_not_mem.mpr fun n hn => by
      cases (hmem n).mpr hn
    rw [compactPageRanges, hsorted]
    exact iff_of_true rfl hnil
  | cons page rest =>
    rw [hsorted] at hmem
    have hpage := (hmem page).mp List.mem_cons_self
    rw [compactPageRanges_cons numberText hsorted]
    exact iff_of_false (by simp) (List.ne_nil_of_mem hpage)

/-- The ranges denote the listed pages among the numbers of the language, and up to 2^53 these are
all integers. -/
theorem page_ranges_denote_pages (numberText : ℕ → List Char) (hpages : ∀ n ∈ pages, IsDouble n) :
    (compactPageRanges numberText pages = [] ↔ pages = []) ∧
    (pages ≠ [] → ∃ mark, (mark = "p.".toList ∨ mark = "pp.".toList) ∧
      compactPageRanges numberText pages = mark ++ ' ' ::
        ", ".toList.intercalate ((rangesOf followsDouble pages).map (rangeText numberText)) ∧
      (mark = "p.".toList ↔ ∃ n, ∀ m, m ∈ pages ↔ m = n)) ∧
    Separate (rangesOf followsDouble pages) ∧
    (∀ n, IsDouble n → (Covers (rangesOf followsDouble pages) n ↔ n ∈ pages)) ∧
      ((∀ n ∈ pages, n ≤ 2^53) → ∀ n, Covers (rangesOf followsDouble pages) n ↔ n ∈ pages) := by
  obtain ⟨hcovers, hseparate⟩ := rangesOf_spec successive_doubles hpages
  refine ⟨compactPageRanges_eq_nil numberText, fun hne => ?_, hseparate, hcovers,
    fun hsmall n => ?_⟩
  · cases hsorted : pages.eraseDups.mergeSort with
    | nil =>
      have hnil : compactPageRanges numberText pages = [] := by rw [compactPageRanges, hsorted]
      exact absurd ((compactPageRanges_eq_nil numberText).mp hnil) hne
    | cons page rest =>
      refine ⟨pagesMark rest, ?_, compactPageRanges_cons numberText hsorted,
        pagesMark_eq_iff hsorted⟩
      unfold pagesMark
      split
      · exact .inl rfl
      · exact .inr rfl
  · constructor
    · rintro ⟨r, hr, hlow, hhigh⟩
      have hstop := hsmall r.2 (stop_of_mem_rangesOf hr)
      exact (hcovers n (isDouble_of_le (by omega))).mp ⟨r, hr, hlow, hhigh⟩
    · exact fun hn => (hcovers n (hpages n hn)).mpr hn

theorem page_ranges_denote_cited_pages :
    Covers (rangesOf followsDouble [9, 3, 1, 2, 8, 5, 3]) 4 ↔ 4 ∈ [9, 3, 1, 2, 8, 5, 3] :=
  (page_ranges_denote_pages (Nat.toDigits 10) (by decide +kernel)).2.2.2.1 4 (by decide +kernel)

theorem compactPageRanges_sorted (numberText : ℕ → List Char) (page : ℕ) (rest : List ℕ)
    (h : (page :: rest).eraseDups = page :: rest) (hsorted : (page :: rest).Pairwise (· ≤ ·)) :
    rangesOf followsDouble (page :: rest) = openRanges followsDouble page page rest ∧
    compactPageRanges numberText (page :: rest) = pagesMark rest ++ ' ' ::
      ", ".toList.intercalate ((openRanges followsDouble page page rest).map
        (rangeText numberText)) := by
  have hsame : (page :: rest).eraseDups.mergeSort = page :: rest := by
    rw [h]
    exact List.mergeSort_of_pairwise (hsorted.imp fun hle => decide_eq_true hle)
  rw [compactPageRanges, rangesOf, hsame]
  exact ⟨rfl, rfl⟩

example : compactPageRanges (Nat.toDigits 10) [1, 2, 3, 5, 8, 9] = "pp. 1-3, 5, 8-9".toList := by
  rw [(compactPageRanges_sorted _ _ _ (by decide) (by decide)).2]
  decide +kernel

/-- The double behind 2^53+2 is 2^53+4, and the integer between them is in the range that is
printed for the two. -/
theorem unlisted_page_is_cited :
    IsDouble 9007199254740994 ∧ IsDouble 9007199254740996 ∧
      compactPageRanges (Nat.toDigits 10) [9007199254740994, 9007199254740996] =
        "pp. 9007199254740994-9007199254740996".toList ∧
      Covers (rangesOf followsDouble [9007199254740994, 9007199254740996]) 9007199254740995 ∧
      9007199254740995 ∉ [9007199254740994, 9007199254740996] := by
  obtain ⟨hranges, htext⟩ := compactPageRanges_sorted (Nat.toDigits 10) 9007199254740994
    [9007199254740996] (by decide) (by decide)
  rw [hranges, htext]
  refine ⟨by decide +kernel, by decide +kernel, by decide +kernel, ?_, by decide⟩
  exact ⟨(9007199254740994, 9007199254740996), by decide +kernel, by decide, by decide⟩

end Citations

end Cinder.Worksheets
