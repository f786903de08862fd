import Cinder.Worksheets.PaperSpecs
import Mathlib.Data.List.Infix
set_option autoImplicit false

/-!
Which markers are left in a model's text when it was cleaned: deletions can join pieces of the text
to a marker that is not looked for any more.
-/

namespace Cinder.Worksheets
open Cinder.Streams Cinder.Ecma Cinder.Ecma.Pattern

section Markers

def controlWords : List (List Char) :=
  ["cinder_questions".toList, "cinder_answer_key".toList, "working_space".toList]

def IsTag (t : List Char) : Prop :=
  ∃ w ∈ controlWords, ∃ u, t = '[' :: (u ++ [']']) ∧
    List.Forall₂ (fun c d => isLetter c d = true) w u

inductive Untagged : List Char → List Char → Prop where
  | nil : Untagged [] []
  | tag {t s u : List Char} (ht : IsTag t) : Untagged s u → Untagged (t ++ s) u
  | char {c : Char} {s u : List Char} (hc : ∀ t, IsTag t → ¬t <+: c :: s) :
    Untagged s u → Untagged (c :: s) (c :: u)

def IsMarker (m : List Char) : Prop := IsTag m ∨ m = ['*', '*'] ∨ m = ['_', '_']

def HasMarker (s : List Char) : Prop := ∃ m, IsMarker m ∧ m <:+: s

inductive Gap : ℕ → List Char → Prop where
  | nil : Gap 0 []
  | pair {n : ℕ} {g : List Char} : Gap n g → Gap n ('*' :: '*' :: g)
  | under {n : ℕ} {g : List Char} : Gap n g → Gap (n+1) ('_' :: g)

def isEmphasis (c : Char) : Bool := c = '*' || c = '_'

/-- A text that comes to a word without its pairs of asterisks and its runs of underscores. -/
inductive Spread : List Char → List Char → Prop where
  | nil : Spread [] []
  | letter {n : ℕ} {g w m : List Char} {c : Char} (hgap : Gap n g) (hn : n ≠ 1)
    (hc : isEmphasis c = false) : Spread w m → Spread (c :: w) (g ++ c :: m)
  | under {g w m : List Char} {c : Char} (hgap : Gap 1 g) (hc : isEmphasis c = false) :
    Spread w m → Spread ('_' :: c :: w) (g ++ c :: m)

/-- Between two others stands what comes to a marker: a control tag that is spread, or two runs of
an odd number of asterisks with several underscores between them. -/
inductive Joint : List Char → List Char → List Char → Prop where
  | tag {p q w m : List Char} (hw : IsTag ('[' :: w)) (hm : Spread w m) : Joint p ('[' :: m) q
  | pair {n : ℕ} {p q g : List Char} (hgap : Gap n g) (hn : 2 ≤ n) (hp : p.getLast? ≠ some '*')
    (hq : q.head? ≠ some '*') : Joint p ('*' :: (g ++ ['*'])) q

def Joins (s : List Char) : Prop := ∃ p m q, s = p ++ (m ++ q) ∧ Joint p m q

end Markers

section Gaps
variable {n k : ℕ} {g s u v x y q : List Char} {c : Char}

def withoutPairs (s : List Char) : List Char := editRuns '*' (· % 2) 0 s

def withoutRuns (s : List Char) : List Char := editRuns '_' (fun n => if n = 1 then 1 else 0) 0 s

/-- `**` and runs of underscores are deleted. -/
def withoutEmphasis (s : List Char) : List Char := withoutRuns (withoutPairs s)

@[simp] theorem withoutPairs_pair (s : List Char) :
    withoutPairs ('*' :: '*' :: s) = withoutPairs s := editRuns_add_two 0 s

theorem withoutPairs_cons (hc : c ≠ '*') (s : List Char) :
    withoutPairs (c :: s) = c :: withoutPairs s := editRuns_cons hc 0 s

theorem withoutPairs_single (hs : s.head? ≠ some '*') :
    withoutPairs ('*' :: s) = '*' :: withoutPairs s := by
  cases s with
  | nil => rfl
  | cons c s =>
    have hc : c ≠ '*' := fun h => hs (congrArg some h)
    rw [withoutPairs_cons hc, withoutPairs, editRuns, if_pos rfl, editRuns_cons hc]
    rfl

theorem Gap.pairs (h : Gap n g) (k : ℕ) : Gap n (List.replicate (2*k) '*' ++ g) := by
  induction k with
  | zero => exact h
  | succ k ih => exact ih.pair

theorem Gap.append {m : ℕ} {g' : List Char} (h : Gap n g) (h' : Gap m g') :
    Gap (n+m) (g ++ g') := by
  induction h with
  | nil => rwa [Nat.zero_add]
  | pair _ ih => exact ih.pair
  | under _ ih =>
    rw [Nat.add_right_comm]
    exact ih.under

theorem run_parity (k : ℕ) : (k % 2 = 1 ∧ ∃ g, Gap 0 g ∧ List.replicate k '*' = g ++ ['*']) ∨
    (k % 2 = 0 ∧ Gap 0 (List.replicate k '*')) := by
  have hpairs : Gap 0 (List.replicate (2*(k/2)) '*') := by simpa using Gap.nil.pairs (k/2)
  obtain hk | hk : k = 2*(k/2)+1 ∨ k = 2*(k/2) := by omega
  · refine .inl ⟨by omega, _, hpairs, ?_⟩
    rw [← List.replicate_succ', ← hk]
  · exact .inr ⟨by omega, by rwa [← hk] at hpairs⟩

theorem gap_of_editRuns (h : editRuns '*' (· % 2) k s = List.replicate n '_') :
    Gap n (List.replicate k '*' ++ s) := by
  induction s generalizing k n with
  | nil =>
    rw [editRuns] at h
    obtain ⟨hodd, -⟩ | ⟨heven, hgap⟩ := run_parity k
    · rw [hodd] at h
      cases n <;> cases h
    · rw [heven] at h
      cases n with
      | zero => rwa [List.append_nil]
      | succ n => cases h
  | cons c s ih =>
    rw [editRuns] at h
    split at h
    · next hc =>
      subst hc
      have hnext := ih h
      rwa [List.replicate_succ', List.append_assoc, List.singleton_append] at hnext
    · next hc =>
      obtain ⟨hodd, -⟩ | ⟨heven, hgap⟩ := run_parity k
      · rw [hodd] at h
        cases n <;> cases h
      · rw [heven] at h
        cases n with
        | zero => cases h
        | succ n =>
          obtain ⟨rfl, hs⟩ := List.cons.inj h
          have hboth := hgap.append (ih hs).under
          rwa [Nat.zero_add] at hboth

theorem gap_iff : Gap n g ↔ withoutPairs g = List.replicate n '_' := by
  constructor
  · intro h
    induction h with
    | nil => rfl
    | pair _ ih => rw [withoutPairs_pair, ih]
    | under _ ih => rw [withoutPairs_cons (by decide), ih, List.replicate_succ]
  · exact fun h => gap_of_editRuns h

theorem withoutRuns_replicate (n : ℕ) :
    withoutRuns (List.replicate n '_') = List.replicate (if n = 1 then 1 else 0) '_' := by
  have hrun : withoutRuns (List.replicate n '_' ++ []) = _ := editRuns_run 0 n []
  rwa [List.append_nil, Nat.zero_add] at hrun

theorem withoutRuns_eq_nil_iff : withoutRuns v = [] ↔ ∃ n, n ≠ 1 ∧ v = List.replicate n '_' := by
  constructor
  · intro h
    obtain ⟨hv, hleft⟩ := eq_replicate_of_editRuns
      (show ∀ c ∈ withoutRuns v, c = '_' by simp [h])
    refine ⟨v.length, fun hone => ?_, hv⟩
    rw [← withoutRuns, h, Nat.zero_add, hone] at hleft
    cases hleft
  · rintro ⟨n, hn, rfl⟩
    rw [withoutRuns_replicate, if_neg hn]
    rfl

theorem withoutRuns_eq_one_iff : withoutRuns v = ['_'] ↔ v = ['_'] := by
  constructor
  · intro h
    obtain ⟨hv, hleft⟩ := eq_replicate_of_editRuns
      (show ∀ c ∈ withoutRuns v, c = '_' by simp [h])
    rw [← withoutRuns, h, Nat.zero_add] at hleft
    split at hleft
    · next hone => rw [hv, hone]; rfl
    · cases hleft
  · rintro rfl
    rfl

theorem withoutEmphasis_eq_nil_iff : withoutEmphasis g = [] ↔ ∃ n, n ≠ 1 ∧ Gap n g := by
  simp only [withoutEmphasis, withoutRuns_eq_nil_iff, gap_iff]

theorem withoutEmphasis_eq_one_iff : withoutEmphasis g = ['_'] ↔ Gap 1 g := by
  rw [withoutEmphasis, withoutRuns_eq_one_iff, gap_iff]
  rfl

theorem withoutRuns_append (hc : c ≠ '_') (u v : List Char) :
    withoutRuns (u ++ c :: v) = withoutRuns u ++ c :: withoutRuns v := editRuns_append hc 0 u v

theorem not_emphasis (h : isEmphasis c = false) : c ≠ '*' ∧ c ≠ '_' := by
  simpa [isEmphasis] using h

theorem withoutEmphasis_append (hc : isEmphasis c = false) (u v : List Char) :
    withoutEmphasis (u ++ c :: v) = withoutEmphasis u ++ c :: withoutEmphasis v := by
  obtain ⟨hstar, hunder⟩ := not_emphasis hc
  rw [withoutEmphasis, withoutPairs, editRuns_append hstar, withoutRuns, editRuns_append hunder]
  rfl

theorem exists_of_withoutEmphasis (hc : isEmphasis c = false)
    (h : withoutEmphasis s = x ++ c :: y) :
    ∃ u v, s = u ++ c :: v ∧ withoutEmphasis u = x ∧ withoutEmphasis v = y := by
  obtain ⟨hstar, hunder⟩ := not_emphasis hc
  obtain ⟨u', v', hs, rfl, rfl⟩ := exists_of_editRuns hunder h
  obtain ⟨u, v, rfl, rfl, rfl⟩ := exists_of_editRuns hstar hs
  exact ⟨u, v, rfl, rfl, rfl⟩

end Gaps

section Tags
variable {v w m s t : List Char} {c : Char}

inductive Word : List Char → Prop where
  | nil : Word []
  | letter {c : Char} {w : List Char} (hc : isEmphasis c = false) : Word w → Word (c :: w)
  | under {c : Char} {w : List Char} (hc : isEmphasis c = false) : Word w → Word ('_' :: c :: w)

theorem spread_iff (hw : Word w) :
    (∃ y, withoutEmphasis v = w ++ y) ↔ ∃ m q, v = m ++ q ∧ Spread w m := by
  induction hw generalizing v with
  | nil =>
    exact iff_of_true ⟨_, rfl⟩ ⟨[], v, rfl, .nil⟩
  | @letter c w hc _ ih =>
    constructor
    · rintro ⟨y, hy⟩
      obtain ⟨g, v', rfl, hg, hv'⟩ := exists_of_withoutEmphasis (x := []) hc hy
      obtain ⟨n, hn, hgap⟩ := withoutEmphasis_eq_nil_iff.mp hg
      obtain ⟨m, q, rfl, hm⟩ := ih.mp ⟨y, hv'⟩
      exact ⟨g ++ c :: m, q, by simp, .letter hgap hn hc hm⟩
    · rintro ⟨m, q, rfl, hm⟩
      cases hm with
      | @letter n g _ m _ hgap hn _ hm =>
        obtain ⟨y, hy⟩ := ih.mpr ⟨m, q, rfl, hm⟩
        have hg := withoutEmphasis_eq_nil_iff.mpr ⟨n, hn, hgap⟩
        refine ⟨y, ?_⟩
        rw [List.append_assoc, List.cons_append, withoutEmphasis_append hc, hg, hy]
        rfl
      | under => cases hc
  | @under c w hc _ ih =>
    constructor
    · rintro ⟨y, hy⟩
      obtain ⟨g, v', rfl, hg, hv'⟩ := exists_of_withoutEmphasis (x := ['_']) hc hy
      obtain ⟨m, q, rfl, hm⟩ := ih.mp ⟨y, hv'⟩
      exact ⟨g ++ c :: m, q, by simp, .under (withoutEmphasis_eq_one_iff.mp hg) hc hm⟩
    · rintro ⟨m, q, rfl, hm⟩
      cases hm with
      | letter _ _ hunder => cases hunder
      | @under g _ m _ hgap _ hm =>
        obtain ⟨y, hy⟩ := ih.mpr ⟨m, q, rfl, hm⟩
        have hg := withoutEmphasis_eq_one_iff.mpr hgap
        refine ⟨y, ?_⟩
        rw [List.append_assoc, List.cons_append, withoutEmphasis_append hc, hg, hy]
        rfl

def stays (c : Char) : Bool := !isEmphasis c && !isEmphasis c.toUpper

def isWord : List Char → Bool
  | [] => true
  | '_' :: c :: w => stays c && isWord w
  | c :: w => stays c && isWord w

theorem stays_letter {d : Char} (hc : stays c = true) (h : isLetter c d = true) :
    isEmphasis d = false := by
  simp only [stays, Bool.and_eq_true, Bool.not_eq_true'] at hc
  simp only [isLetter, Bool.or_eq_true, decide_eq_true_eq] at h
  obtain rfl | rfl := h
  · exact hc.1
  · exact hc.2

theorem word_of_letters (hw : isWord w = true)
    (h : List.Forall₂ (fun c d => isLetter c d = true) w t) : Word t := by
  induction w using isWord.induct generalizing t with
  | case1 =>
    cases h
    exact .nil
  | case2 c w ih =>
    rw [isWord, Bool.and_eq_true] at hw
    obtain ⟨d, t', hd, hnext, rfl⟩ := List.forall₂_cons_left_iff.mp h
    obtain ⟨e, t, he, hrest, rfl⟩ := List.forall₂_cons_left_iff.mp hnext
    have hunder : d = '_' := by
      have hupper : ('_').toUpper = '_' := by decide
      simpa [isLetter, hupper] using hd
    rw [hunder]
    exact .under (stays_letter hw.1 he) (ih hw.2 hrest)
  | case3 c w hnot ih =>
    rw [isWord, Bool.and_eq_true] at hw
    · obtain ⟨d, t, hd, hrest, rfl⟩ := List.forall₂_cons_left_iff.mp h
      exact .letter (stays_letter hw.1 hd) (ih hw.2 hrest)
    · exact hnot

theorem word_of_isTag (h : IsTag t) : ∃ w, t = '[' :: w ∧ Word w := by
  obtain ⟨w, hw, u, rfl, hletters⟩ := h
  have hall : controlWords.all (fun w => isWord (w ++ [']'])) = true := by decide
  have hclose : List.Forall₂ (fun c d => isLetter c d = true) [']'] [']'] := .cons (by decide) .nil
  exact ⟨_, rfl, word_of_letters (List.all_eq_true.mp hall w hw)
    (List.rel_append hletters hclose)⟩

theorem tag_infix_iff :
    (∃ t, IsTag t ∧ t <:+: withoutEmphasis s) ↔
      ∃ p m q w, s = p ++ ('[' :: m ++ q) ∧ IsTag ('[' :: w) ∧ Spread w m := by
  constructor
  · rintro ⟨t, ht, x, y, hxy⟩
    obtain ⟨w, rfl, hw⟩ := word_of_isTag ht
    rw [List.append_assoc, List.cons_append] at hxy
    obtain ⟨p, v, rfl, -, hv⟩ := exists_of_withoutEmphasis (by decide) hxy.symm
    obtain ⟨m, q, rfl, hm⟩ := (spread_iff hw).mp ⟨y, hv⟩
    exact ⟨p, m, q, w, rfl, ht, hm⟩
  · rintro ⟨p, m, q, w, rfl, ht, hm⟩
    obtain ⟨w', heq, hw⟩ := word_of_isTag ht
    obtain rfl := (List.cons.inj heq).2
    obtain ⟨y, hy⟩ := (spread_iff hw).mpr ⟨m, q, rfl, hm⟩
    refine ⟨_, ht, withoutEmphasis p, y, ?_⟩
    rw [List.cons_append, withoutEmphasis_append (by decide), hy]
    simp

end Tags

section Pairs
variable {d c : Char} {left : ℕ → ℕ} {n k : ℕ} {s x y g q p : List Char}

theorem not_pair_editRuns (hleft : ∀ n, left n ≤ 1) : editRuns d left k s ≠ x ++ d :: d :: y := by
  induction s generalizing k x with
  | nil =>
    intro h
    have hlength := congrArg List.length h
    have hk := hleft k
    simp only [editRuns, List.length_replicate, List.length_append, List.length_cons] at hlength
    omega
  | cons c s ih =>
    rw [editRuns]
    split
    · exact ih
    · next hc =>
      have hrest : ∀ x, c :: editRuns d left 0 s ≠ x ++ d :: d :: y := by
        intro x h
        cases x with
        | nil => exact hc (List.cons.inj h).1
        | cons e x => exact ih (List.cons.inj h).2
      have hk : left k = 0 ∨ left k = 1 := by have := hleft k; omega
      obtain hk | hk := hk
      · rw [hk]
        exact hrest x
      · rw [hk]
        intro h
        cases x with
        | nil => exact hc (List.cons.inj (List.cons.inj h).2).1
        | cons e x => exact hrest x (List.cons.inj h).2

theorem withoutPairs_append (hp : p.getLast? ≠ some '*') (s : List Char) :
    withoutPairs (p ++ s) = withoutPairs p ++ withoutPairs s := by
  obtain rfl | ⟨p, c, rfl⟩ := p.eq_nil_or_concat'
  · rfl
  · have hc : c ≠ '*' := by
      rintro rfl
      exact hp (by simp)
    have hlast : withoutPairs (p ++ [c]) = withoutPairs p ++ [c] := editRuns_append hc 0 p []
    rw [List.append_assoc, List.singleton_append, hlast, List.append_assoc]
    exact editRuns_append hc 0 p s

theorem exists_of_last (h : withoutPairs s = x ++ ['*']) :
    ∃ p g, s = p ++ '*' :: g ∧ Gap 0 g ∧ p.getLast? ≠ some '*' := by
  have hlast : (s.rdropWhile (· = '*')).getLast? ≠ some '*' := by
    intro hstar
    have hne : s.rdropWhile (· = '*') ≠ [] := by
      intro hnil
      rw [hnil] at hstar
      cases hstar
    refine List.rdropWhile_last_not _ _ hne ?_
    rw [List.getLast?_eq_some_getLast hne] at hstar
    exact decide_eq_true (Option.some.inj hstar)
  have hrun : ∀ c ∈ s.rtakeWhile (· = '*'), c = '*' := fun c hc => by
    simpa using List.mem_rtakeWhile_imp hc
  have hs := List.rdropWhile_append_rtakeWhile (l := s) (p := fun c => c = '*')
  rw [List.eq_replicate_of_mem hrun] at hs
  generalize s.rdropWhile (· = '*') = p at hs hlast
  generalize (s.rtakeWhile (· = '*')).length = m at hs
  subst hs
  have hstars : withoutPairs (List.replicate m '*' ++ []) = List.replicate ((0+m) % 2) '*' :=
    editRuns_run 0 m []
  rw [withoutPairs_append hlast, ← List.append_nil (List.replicate m '*'), hstars,
    Nat.zero_add] at h
  obtain hm | hm : m % 2 = 0 ∨ m = 2*(m/2)+1 := by omega
  · rw [hm, List.replicate_zero, List.append_nil] at h
    obtain rfl | ⟨p, c, rfl⟩ := p.eq_nil_or_concat'
    · cases x <;> cases h
    · have hc : c ≠ '*' := fun heq => hlast (by simp [heq])
      have hend : withoutPairs (p ++ [c]) = withoutPairs p ++ [c] := editRuns_append hc 0 p []
      rw [hend] at h
      exact absurd (List.cons.inj (List.append_inj' h rfl).2).1 hc
  · refine ⟨p, List.replicate (2*(m/2)) '*', ?_, by simpa using Gap.nil.pairs (m/2), hlast⟩
    conv => lhs; rw [hm, List.replicate_succ]

theorem exists_of_first (h : editRuns '*' (· % 2) k s = List.replicate n '_' ++ '*' :: y) :
    ∃ g q, List.replicate k '*' ++ s = g ++ '*' :: q ∧ Gap n g ∧ q.head? ≠ some '*' := by
  induction s generalizing k n with
  | nil =>
    rw [editRuns] at h
    obtain ⟨hodd, g, hg, hk⟩ | ⟨heven, -⟩ := run_parity k
    · rw [hodd] at h
      cases n with
      | zero => exact ⟨g, [], by rw [hk, List.append_nil], hg, by simp⟩
      | succ n => cases h
    · rw [heven] at h
      cases n <;> cases h
  | cons c s ih =>
    rw [editRuns] at h
    split at h
    · next hc =>
      subst hc
      have hnext := ih h
      rwa [List.replicate_succ', List.append_assoc, List.singleton_append] at hnext
    · next hc =>
      obtain ⟨hodd, g, hg, hk⟩ | ⟨heven, hgap⟩ := run_parity k
      · rw [hodd] at h
        cases n with
        | zero =>
          refine ⟨g, c :: s, ?_, hg, fun hstar => hc (Option.some.inj hstar)⟩
          rw [hk, List.append_assoc, List.singleton_append]
        | succ n => cases h
      · rw [heven] at h
        cases n with
        | zero => exact absurd (List.cons.inj h).1 hc
        | succ n =>
          obtain ⟨rfl, hs⟩ := List.cons.inj h
          obtain ⟨g, q, hrest, hg, hq⟩ := ih hs
          have hboth := hgap.append hg.under
          rw [Nat.zero_add] at hboth
          change s = _ at hrest
          exact ⟨_, q, by rw [hrest, List.append_assoc, List.cons_append], hboth, hq⟩

theorem withoutPairs_gap (hgap : Gap n g) (hq : q.head? ≠ some '*') :
    withoutPairs (g ++ '*' :: q) = List.replicate n '_' ++ '*' :: withoutPairs q := by
  induction hgap with
  | nil => exact withoutPairs_single hq
  | pair _ ih => simpa using ih
  | under _ ih =>
    rw [List.cons_append, withoutPairs_cons (by decide), ih, List.replicate_succ, List.cons_append]

theorem withoutPairs_star_gap (hgap : Gap n g) (hn : n ≠ 0) (hq : q.head? ≠ some '*') :
    withoutPairs ('*' :: (g ++ '*' :: q)) =
      '*' :: (List.replicate n '_' ++ '*' :: withoutPairs q) := by
  induction hgap with
  | nil => exact absurd rfl hn
  | pair _ ih => simpa using ih hn
  | @under n g hgap _ =>
    rw [withoutPairs_single (by simp), withoutPairs_gap hgap.under hq]

/-- Two asterisks are left together if only several underscores were between them, and pairs. -/
theorem pair_infix_iff : ['*', '*'] <:+: withoutEmphasis s ↔
    ∃ p g q n, s = p ++ ('*' :: (g ++ ['*']) ++ q) ∧ Gap n g ∧ 2 ≤ n ∧
      p.getLast? ≠ some '*' ∧ q.head? ≠ some '*' := by
  constructor
  · rintro ⟨x, y, hxy⟩
    rw [List.append_assoc, withoutEmphasis] at hxy
    obtain ⟨u, v, hpairs, -, hv⟩ := exists_of_editRuns (by decide) hxy.symm
    obtain ⟨r, v', rfl, hr, -⟩ := exists_of_editRuns (x := []) (by decide) hv
    obtain ⟨n, hn, rfl⟩ := withoutRuns_eq_nil_iff.mp hr
    have hne : n ≠ 0 := by
      rintro rfl
      exact not_pair_editRuns (fun n => by omega) hpairs
    obtain ⟨n, rfl⟩ : ∃ m, n = m+2 := ⟨n-2, by omega⟩
    have hsplit : withoutPairs s =
        (u ++ ['*']) ++ '_' :: (List.replicate (n+1) '_' ++ '*' :: v') := by
      rw [hpairs, List.replicate_succ]
      simp
    obtain ⟨s₁, s₂, rfl, hfirst, hsecond⟩ := exists_of_editRuns (by decide) hsplit
    obtain ⟨p, g, rfl, hg, hp⟩ := exists_of_last hfirst
    obtain ⟨g', q, hs₂, hg', hq⟩ := exists_of_first hsecond
    change s₂ = _ at hs₂
    subst hs₂
    refine ⟨p, g ++ '_' :: g', q, _, by simp, hg.append hg'.under, by omega, hp, hq⟩
  · rintro ⟨p, g, q, n, rfl, hgap, hn, hp, hq⟩
    have hpairs : withoutPairs (p ++ ('*' :: (g ++ ['*']) ++ q)) =
        withoutPairs p ++ '*' :: (List.replicate n '_' ++ '*' :: withoutPairs q) := by
      rw [withoutPairs_append hp, ← withoutPairs_star_gap hgap (by omega) hq]
      simp
    rw [withoutEmphasis, hpairs, withoutRuns_append (by decide), withoutRuns_append (by decide),
      withoutRuns_replicate, if_neg (by omega)]
    exact ⟨_, _, by simp; rfl⟩

theorem hasMarker_withoutEmphasis : HasMarker (withoutEmphasis s) ↔ Joins s := by
  constructor
  · rintro ⟨m, ht | rfl | rfl, hm⟩
    · obtain ⟨p, b, q, w, rfl, hw, hspread⟩ := tag_infix_iff.mp ⟨m, ht, hm⟩
      exact ⟨p, _, q, rfl, .tag hw hspread⟩
    · obtain ⟨p, g, q, n, rfl, hgap, hn, hp, hq⟩ := pair_infix_iff.mp hm
      exact ⟨p, _, q, rfl, .pair hgap hn hp hq⟩
    · obtain ⟨x, y, hxy⟩ := hm
      rw [List.append_assoc] at hxy
      exact absurd hxy.symm (not_pair_editRuns fun n => by split <;> omega)
  · rintro ⟨p, m, q, rfl, hjoint⟩
    cases hjoint with
    | tag hw hm =>
      obtain ⟨t, ht, hinfix⟩ := tag_infix_iff.mpr ⟨p, _, q, _, rfl, hw, hm⟩
      exact ⟨t, .inl ht, hinfix⟩
    | pair hgap hn hp hq =>
      exact ⟨_, .inr (.inl rfl), pair_infix_iff.mpr ⟨p, _, q, _, rfl, hgap, hn, hp, hq⟩⟩

end Pairs

section Stretches
variable {c : Char} {u v p m q s t w : List Char} {n : ℕ} {g : List Char}

def isTagMark (c : Char) : Bool := isWordChar c || c = '[' || c = ']' || c = '*'

theorem split_cases (hm : m ≠ []) (hc : c ∉ m) (h : u ++ c :: v = p ++ (m ++ q)) :
    (∃ q', u = p ++ (m ++ q') ∧ q = q' ++ c :: v) ∨
      ∃ p', v = p' ++ (m ++ q) ∧ p = u ++ c :: p' := by
  obtain ⟨a, hp, hv⟩ | ⟨a, hu, hmq⟩ := List.append_eq_append_iff.mp h
  · cases a with
    | nil =>
      obtain ⟨d, m, rfl⟩ := List.exists_cons_of_ne_nil hm
      exact absurd List.mem_cons_self ((List.cons.inj hv).1 ▸ hc)
    | cons d a =>
      obtain ⟨rfl, hrest⟩ := List.cons.inj hv
      exact .inr ⟨a, hrest, hp⟩
  · obtain ⟨b, rfl, hq⟩ | ⟨b, rfl, hv⟩ := List.append_eq_append_iff.mp hmq
    · exact .inl ⟨b, hu, hq⟩
    · cases b with
      | nil => exact .inl ⟨[], by simpa using hu, hv.symm⟩
      | cons d b =>
        obtain ⟨rfl, -⟩ := List.cons.inj hv
        exact absurd (by simp) hc

theorem mark_of_gap (h : Gap n g) : ∀ c ∈ g, isTagMark c = true := by
  induction h with
  | nil => exact List.forall_mem_nil _
  | pair _ ih => simpa using ⟨by decide, ih⟩
  | under _ ih => simpa using ⟨by decide, ih⟩

theorem mark_of_spread (h : Spread w m) (hw : ∀ c ∈ w, isTagMark c = true) :
    ∀ c ∈ m, isTagMark c = true := by
  induction h with
  | nil => exact hw
  | letter hgap _ _ _ ih =>
    rw [List.forall_mem_cons] at hw
    rw [List.forall_mem_append, List.forall_mem_cons]
    exact ⟨mark_of_gap hgap, hw.1, ih hw.2⟩
  | under hgap _ _ ih =>
    rw [List.forall_mem_cons, List.forall_mem_cons] at hw
    rw [List.forall_mem_append, List.forall_mem_cons]
    exact ⟨mark_of_gap hgap, hw.2.1, ih hw.2.2⟩

theorem exists_letter (h : List.Forall₂ (fun c d => isLetter c d = true) w t) {d : Char}
    (hd : d ∈ t) : ∃ c ∈ w, isLetter c d = true := by
  induction h with
  | nil => cases hd
  | cons hletter _ ih =>
    cases hd with
    | head => exact ⟨_, List.mem_cons_self, hletter⟩
    | tail _ hd =>
      obtain ⟨c, hc, hletter⟩ := ih hd
      exact ⟨c, List.mem_cons_of_mem _ hc, hletter⟩

theorem mark_of_isTag (h : IsTag t) : ∀ c ∈ t, isTagMark c = true := by
  obtain ⟨w, hw, u, rfl, hletters⟩ := h
  have hall : controlWords.all (fun w => w.all fun c => isTagMark c && isTagMark c.toUpper) =
    true := by decide
  have hmarks := List.all_eq_true.mp (List.all_eq_true.mp hall w hw)
  rw [List.forall_mem_cons, List.forall_mem_append]
  refine ⟨by decide, fun d hd => ?_, by simp; decide⟩
  obtain ⟨c, hc, hletter⟩ := exists_letter hletters hd
  have hboth := hmarks c hc
  simp only [Bool.and_eq_true] at hboth
  simp only [isLetter, Bool.or_eq_true, decide_eq_true_eq] at hletter
  obtain rfl | rfl := hletter
  · exact hboth.1
  · exact hboth.2

theorem Joint.marks (h : Joint p m q) : m ≠ [] ∧ ∀ c ∈ m, isTagMark c = true := by
  cases h with
  | tag hw hm =>
    have htag := mark_of_isTag hw
    rw [List.forall_mem_cons] at htag
    exact ⟨List.cons_ne_nil _ _, List.forall_mem_cons.mpr ⟨htag.1, mark_of_spread hm htag.2⟩⟩
  | pair hgap _ _ _ =>
    refine ⟨List.cons_ne_nil _ _, List.forall_mem_cons.mpr ⟨by decide, ?_⟩⟩
    rw [List.forall_mem_append]
    exact ⟨mark_of_gap hgap, by simp; decide⟩

theorem Joint.congr {p' q' : List Char} (h : Joint p m q)
    (hp : p'.getLast? = some '*' → p.getLast? = some '*')
    (hq : q'.head? = some '*' → q.head? = some '*') : Joint p' m q' := by
  cases h with
  | tag hw hm => exact .tag hw hm
  | pair hgap hn hp' hq' => exact .pair hgap hn (mt hp hp') (mt hq hq')

theorem not_mem_of_marks (hm : ∀ c ∈ m, isTagMark c = true) (hc : isTagMark c = false) : c ∉ m := by
  intro hmem
  rw [hm c hmem] at hc
  cases hc

theorem ofStretches_joins : OfStretches isTagMark Joins where
  nil := by
    rintro ⟨p, m, q, h, hjoint⟩
    have hm := (List.append_eq_nil_iff.mp (List.append_eq_nil_iff.mp h.symm).2).1
    exact hjoint.marks.1 hm
  append u c v hc := by
    have hstar : c ≠ '*' := by
      rintro rfl
      cases hc
    constructor
    · rintro ⟨p, m, q, h, hjoint⟩
      obtain ⟨hne, hmarks⟩ := hjoint.marks
      obtain ⟨q', rfl, rfl⟩ | ⟨p', rfl, rfl⟩ := split_cases hne (not_mem_of_marks hmarks hc) h
      · refine .inl ⟨p, m, q', rfl, hjoint.congr id fun hq => ?_⟩
        cases q' with
        | nil => cases hq
        | cons d q' => exact hq
      · refine .inr ⟨p', m, q, rfl, hjoint.congr (fun hp => ?_) id⟩
        obtain rfl | ⟨p', d, rfl⟩ := p'.eq_nil_or_concat'
        · cases hp
        · simpa [List.getLast?_cons] using hp
    · rintro (⟨p, m, q, rfl, hjoint⟩ | ⟨p, m, q, rfl, hjoint⟩)
      · refine ⟨p, m, q ++ c :: v, by simp, hjoint.congr id fun hq => ?_⟩
        cases q with
        | nil => exact absurd (Option.some.inj hq) hstar
        | cons d q => exact hq
      · refine ⟨u ++ c :: p, m, q, by simp, hjoint.congr (fun hp => ?_) id⟩
        obtain rfl | ⟨p, d, rfl⟩ := p.eq_nil_or_concat'
        · exact absurd (by simpa using hp) hstar
        · simpa [List.getLast?_cons] using hp

theorem marker_marks (h : IsMarker m) : m ≠ [] ∧ ∀ c ∈ m, isTagMark c = true := by
  obtain ht | rfl | rfl := h
  · obtain ⟨w, rfl, -⟩ := word_of_isTag ht
    exact ⟨List.cons_ne_nil _ _, mark_of_isTag ht⟩
  · exact ⟨List.cons_ne_nil _ _, by simp; decide⟩
  · exact ⟨List.cons_ne_nil _ _, by simp; decide⟩

theorem ofStretches_hasMarker : OfStretches isTagMark HasMarker where
  nil := by
    rintro ⟨m, hm, h⟩
    exact (marker_marks hm).1 (List.infix_nil.mp h)
  append u c v hc := by
    constructor
    · rintro ⟨m, hm, p, q, h⟩
      obtain ⟨hne, hmarks⟩ := marker_marks hm
      rw [List.append_assoc] at h
      obtain ⟨q', rfl, -⟩ | ⟨p', rfl, -⟩ := split_cases hne (not_mem_of_marks hmarks hc) h.symm
      · exact .inl ⟨m, hm, p, q', List.append_assoc _ _ _⟩
      · exact .inr ⟨m, hm, p', q, List.append_assoc _ _ _⟩
    · rintro (⟨m, hm, h⟩ | ⟨m, hm, h⟩)
      · exact ⟨m, hm, h.trans (List.prefix_append _ _).isInfix⟩
      · exact ⟨m, hm, h.trans ((List.suffix_cons _ _).trans (List.suffix_append _ _)).isInfix⟩

end Stretches

section Cleaning
variable {s t u : List Char} {c : Char}

theorem joins_cons (hopen : c ≠ '[') (hstar : c ≠ '*') (s : List Char) :
    Joins (c :: s) ↔ Joins s := by
  constructor
  · rintro ⟨p, m, q, h, hjoint⟩
    cases p with
    | nil =>
      cases hjoint with
      | tag hw hm => exact absurd (List.cons.inj h).1 hopen
      | pair hgap hn hp hq => exact absurd (List.cons.inj h).1 hstar
    | cons d p =>
      refine ⟨p, m, q, (List.cons.inj h).2, hjoint.congr (fun hp => ?_) id⟩
      simp [List.getLast?_cons, hp]
  · rintro ⟨p, m, q, rfl, hjoint⟩
    refine ⟨c :: p, m, q, rfl, hjoint.congr (fun hp => ?_) id⟩
    cases hlast : p.getLast? with
    | none => simp [List.getLast?_cons, hlast, hstar] at hp
    | some d => simpa [List.getLast?_cons, hlast] using hp

theorem joins_append (ht : '[' ∉ t) (ht' : '*' ∉ t) (s : List Char) : Joins (t ++ s) ↔ Joins s := by
  induction t with
  | nil => rfl
  | cons c t ih =>
    rw [List.mem_cons, not_or] at ht ht'
    rw [List.cons_append, joins_cons (Ne.symm ht.1) (Ne.symm ht'.1), ih ht.2 ht'.2]

theorem way_controlTag {before after : List Char} {g : List (ℕ × List Char)} :
    controlTag.Way before t after g ↔ IsTag t ∧ g = [] := by
  constructor
  · rintro ⟨t₁, t₂, g₁, g₂, rfl, rfl, ⟨⟨c, hc, rfl⟩, rfl⟩, u, t₃, g₃, g₄, rfl, rfl, hword, t₄, t₅,
      g₅, g₆, rfl, rfl, ⟨⟨d, hd, rfl⟩, rfl⟩, rfl, rfl⟩
    obtain rfl := of_decide_eq_true hc
    obtain rfl := of_decide_eq_true hd
    obtain hword | hword | hword := hword <;> obtain ⟨hletters, rfl⟩ := way_word.mp hword <;>
      exact ⟨⟨_, by simp [controlWords], u, rfl, hletters⟩, rfl⟩
  · rintro ⟨⟨w, hw, u, rfl, hletters⟩, rfl⟩
    refine ⟨['['], u ++ [']'], [], [], rfl, rfl, ⟨⟨'[', rfl, rfl⟩, rfl⟩, u, [']'], [], [], rfl, rfl,
      ?_, [']'], [], [], [], rfl, rfl, ⟨⟨']', rfl, rfl⟩, rfl⟩, rfl, rfl⟩
    simp only [controlWords, List.mem_cons, List.not_mem_nil, or_false] at hw
    obtain rfl | rfl | rfl := hw
    · exact .inl (way_word.mpr ⟨hletters, rfl⟩)
    · exact .inr (.inl (way_word.mpr ⟨hletters, rfl⟩))
    · exact .inr (.inr (way_word.mpr ⟨hletters, rfl⟩))

theorem tag_unique {t' s' : List Char} (h : IsTag t) (h' : IsTag t') (heq : t ++ s = t' ++ s') :
    t = t' ∧ s = s' := by
  have hall : controlWords.all (fun w => w.all fun c => c ≠ ']' && c.toUpper ≠ ']') = true := by
    decide
  have hsplit {t : List Char} (h : IsTag t) (s : List Char) :
      ∃ b, t = b ++ [']'] ∧ splitOnce ']' (t ++ s) = some (b, s) := by
    obtain ⟨w, hw, u, rfl, hletters⟩ := h
    have hnot : ']' ∉ '[' :: u := by
      rw [List.mem_cons, not_or]
      refine ⟨by decide, fun hmem => ?_⟩
      obtain ⟨c, hc, hletter⟩ := exists_letter hletters hmem
      have hboth := List.all_eq_true.mp (List.all_eq_true.mp hall w hw) c hc
      simp only [Bool.and_eq_true, decide_eq_true_eq] at hboth
      simp only [isLetter, Bool.or_eq_true, decide_eq_true_eq] at hletter
      exact hletter.elim (fun heq => hboth.1 heq.symm) fun heq => hboth.2 heq.symm
    have hcut := splitOnce_append hnot s
    exact ⟨'[' :: u, rfl, by simpa using hcut⟩
  obtain ⟨b, rfl, hb⟩ := hsplit h s
  obtain ⟨b', rfl, hb'⟩ := hsplit h' s'
  rw [heq, hb'] at hb
  obtain ⟨rfl, rfl⟩ := Prod.mk.inj (Option.some.inj hb)
  exact ⟨rfl, rfl⟩

theorem isTag_ne_nil (h : IsTag t) : t ≠ [] := by
  obtain ⟨w, hw, u, rfl, -⟩ := h
  exact List.cons_ne_nil _ _

theorem replaceFrom_controlTag (h : Untagged s u) (before : List Char) :
    replaceFrom (fun _ => true) controlTag (fun _ => []) 0 before s = u := by
  induction h generalizing before with
  | nil => rfl
  | @tag t s u ht _ ih =>
    have hmem : (⟨t.reverse ++ before, s, []⟩ : Reading) ∈ controlTag.run ⟨before, t ++ s, []⟩ :=
      mem_run_iff.mpr ⟨t, [], rfl, rfl, rfl, way_controlTag.mpr ⟨ht, rfl⟩⟩
    obtain ⟨r, hr⟩ := Option.isSome_iff_exists.mp
      (List.isSome_head?.mpr (List.ne_nil_of_mem hmem))
    obtain ⟨t', g, hs, -, hway, hreplaced⟩ :=
      @replaceFrom_match (fun _ => true) controlTag (fun _ => [])
        (fun _ _ _ _ hway => isTag_ne_nil (way_controlTag.mp hway).1) before (t ++ s) r rfl hr
    obtain ⟨rfl, hrest⟩ := tag_unique ht (way_controlTag.mp hway).1 hs
    rw [hreplaced, ← hrest]
    exact ih _
  | @char c s u hc _ ih =>
    rw [replaceFrom_cons, ih]
    intro _
    by_contra hsome
    obtain ⟨r, hr⟩ := Option.ne_none_iff_exists'.mp hsome
    obtain ⟨t, g, hs, -, -, hway⟩ := mem_run_iff.mp (List.mem_of_head? hr)
    exact hc t (way_controlTag.mp hway).1 ⟨r.rest, hs.symm⟩

theorem replaceAll_controlTag (h : Untagged s u) : replaceAll controlTag (fun _ => []) s = u :=
  replaceFrom_controlTag h []

theorem exists_untagged (s : List Char) : ∃ u, Untagged s u := by
  by_cases htag : ∃ t, IsTag t ∧ t <+: s
  · obtain ⟨t, ht, rest, hrest⟩ := htag
    obtain ⟨u, hu⟩ := exists_untagged rest
    exact ⟨u, hrest ▸ .tag ht hu⟩
  · cases s with
    | nil => exact ⟨[], .nil⟩
    | cons c s =>
      obtain ⟨u, hu⟩ := exists_untagged s
      exact ⟨c :: u, .char (fun t ht hstart => htag ⟨t, ht, hstart⟩) hu⟩
termination_by s.length
decreasing_by
  · have hpos := List.length_pos_of_ne_nil (isTag_ne_nil ht)
    have hlength := congrArg List.length hrest
    rw [List.length_append] at hlength
    omega
  · simp

theorem joins_openingFence (s : List Char) :
    Joins (replaceFirst openingFence (fun _ => []) s) ↔ Joins s := by
  obtain hsame | ⟨b, t, r, g, hs, hreplaced, hway⟩ :=
    replaceFirstFrom_cases openingFence (fun _ => []) [] s
  · rw [replaceFirst, hsame]
  · have hopen : '[' ∉ t := not_mem_of_avoids (by decide) hway
    have hstar : '*' ∉ t := not_mem_of_avoids (by decide) hway
    obtain ⟨t₁, t₂, g₁, g₂, -, -, ⟨-, hbefore, -⟩, -⟩ := hway
    have hb : b = [] := by simpa using hbefore
    rw [replaceFirst, hreplaced, hs, hb]
    exact (joins_append hopen hstar r.rest).symm

theorem mark_spec (h : isTagMark c = true) :
    isWhiteSpace c = false ∧ c ≠ '\x60' ∧ c ≠ '#' := by
  have hrange : c.toNat ≤ 122 ∧ 42 ≤ c.toNat ∧ c ≠ '\x60' := by
    simp only [isTagMark, isWordChar, Bool.or_eq_true, decide_eq_true_eq] at h
    obtain (((h | rfl) | rfl) | rfl) | rfl := h
    · have hrange := toNat_of_isAlphanum h
      refine ⟨hrange.2, by omega, ?_⟩
      rintro rfl
      cases h
    all_goals decide
  refine ⟨?_, hrange.2.2, ?_⟩
  · simp [isWhiteSpace]
    omega
  · rintro rfl
    exact absurd hrange.2.1 (by decide)

theorem not_mark (h : isWhiteSpace c = true) : isTagMark c = false := by
  by_contra hmark
  rw [(mark_spec (by simpa using hmark)).1] at h
  cases h

theorem cut_closingFence (s : List Char) :
    Cut isTagMark true s (replaceFirst closingFence (fun _ => []) s) := by
  obtain hsame | ⟨b, t, r, g, hs, hreplaced, hway⟩ :=
    replaceFirstFrom_cases closingFence (fun _ => []) [] s
  · rw [replaceFirst, hsame]
    exact .refl _ _ _
  · have hplain : ∀ c ∈ t, isTagMark c = false := by
      intro c hc
      by_contra hmark
      obtain ⟨hspace, htick, -⟩ := mark_spec (c := c) (by simpa using hmark)
      have havoids : avoids c closingFence = true := by
        simp [closingFence, fence, seqs, literal, avoids, hspace, htick]
      exact not_mem_of_avoids havoids hway hc
    obtain ⟨t₁, t₂, g₁, g₂, rfl, -, -, t₃, t₄, g₃, g₄, rfl, -, -, t₅, t₆, g₅, g₆, rfl, -,
      ⟨rfl, hrest, -⟩, rfl, -⟩ := hway
    have hnil : r.rest = [] := by simpa using hrest
    rw [replaceFirst, hreplaced, hs, hnil]
    simpa using cut_append hplain true b

theorem cut_headingMark (s : List Char) :
    Cut isTagMark true s (replaceAtLines headingMark (fun _ => []) s) := by
  have hmarks (c : Char) (hc : isTagMark c = true) : avoids c headingMark = true := by
    obtain ⟨hspace, -, hhash⟩ := mark_spec hc
    simp [headingMark, oneUpTo, upTo, opt, plus, avoids, hspace, hhash]
  refine cut_replaceFrom (fun before t after g hway => ?_) hmarks (fun before h => ?_) [] s
  · obtain ⟨t₁, t₂, g₁, g₂, rfl, -, -, hplus⟩ := hway
    exact List.append_ne_nil_of_right_ne_nil _ (way_plus.mp hplus).1
  · cases before with
    | nil => rfl
    | cons c before =>
      have hc : isAny c = false := by simpa [isLineStart] using h
      have hspace : isWhiteSpace c = true := by
        simp only [isAny, Bool.not_eq_false', Bool.or_eq_true, decide_eq_true_eq] at hc
        obtain ((rfl | rfl) | hc) | hc := hc
        · rfl
        · rfl
        · simp [isWhiteSpace, hc]
        · simp [isWhiteSpace, hc]
      have hmark : isTagMark c = false := not_mark hspace
      simp [hmark]

theorem cut_lineBreaks (b : Bool) (before s : List Char) : Cut isTagMark b s
    (replaceFrom (fun _ => true) (.literal ['\r', '\n']) (fun _ => ['\n']) 0 before s) := by
  induction hn : s.length using Nat.strong_induction_on generalizing s before b with
  | _ n ih =>
  subst hn
  cases s with
  | nil => exact .stop (List.forall_mem_nil _)
  | cons c s =>
    by_cases hbreak : ∃ s', c :: s = '\r' :: '\n' :: s'
    · obtain ⟨s', hs⟩ := hbreak
      rw [hs] at ih ⊢
      rw [replaceFrom_two]
      exact .change (by decide) (by decide) (.drop (by decide) (ih _ (by simp) _ _ _ rfl))
    · rw [replaceFrom_two_of_ne fun s' hs => hbreak ⟨s', hs⟩]
      exact .keep (ih _ (by simp) _ _ _ rfl)

/-- A cleaned text has a marker exactly if pieces of the text without its tags are joined to one. -/
theorem hasMarker_cleanText (h : Untagged s u) : HasMarker (cleanText s) ↔ Joins u := by
  simp only [cleanText]
  rw [replaceAll_controlTag h, ← (cut_strip (fun _ => not_mark) _).iff ofStretches_hasMarker,
    replaceAll, ← (cut_lineBreaks true [] _).iff ofStretches_hasMarker, replaceAll,
    replaceFrom_runs, ← withoutRuns, replaceAll, replaceFrom_pairs, ← withoutPairs,
    ← withoutEmphasis, hasMarker_withoutEmphasis,
    ← (cut_headingMark _).iff ofStretches_joins, ← (cut_closingFence _).iff ofStretches_joins,
    joins_openingFence]

/-- A cleaned text has no marker if and only if deletions join no pieces of it to one. -/
theorem cleaned_text_has_no_marker_iff (value fallback : List Char) :
    (∀ m, IsMarker m → ¬m <:+: cleanModelText (some (.string value)) fallback) ↔
      ∃ u, Untagged value u ∧ ¬Joins u := by
  obtain ⟨u, hu⟩ := exists_untagged value
  have hmarker := not_congr (hasMarker_cleanText hu)
  have hclean : (∀ m, IsMarker m → ¬m <:+: cleanModelText (some (.string value)) fallback) ↔
      ¬HasMarker (cleanText value) := by
    simp [HasMarker, cleanModelText]
  rw [hclean, hmarker]
  refine ⟨fun hnot => ⟨u, hu, hnot⟩, ?_⟩
  rintro ⟨u', hu', hnot⟩
  rwa [← replaceAll_controlTag hu, replaceAll_controlTag hu']

/-- Where asterisks stand in a control tag, it is whole once they are deleted. -/
theorem cleaned_text_keeps_tag :
    ¬∀ value m : List Char, IsMarker m → ¬m <:+: cleanModelText (some (.string value)) [] := by
  intro h
  have hclean : cleanModelText (some (.string "[CINDER**_QUESTIONS]".toList)) [] =
      '[' :: ("CINDER_QUESTIONS".toList ++ [']']) := by decide +kernel
  have htag : IsTag ('[' :: ("CINDER_QUESTIONS".toList ++ [']'])) :=
    ⟨"cinder_questions".toList, by simp [controlWords], _, rfl, by decide⟩
  refine h "[CINDER**_QUESTIONS]".toList _ (.inl htag) ?_
  rw [hclean]

example : cleanText "*__*".toList = ['*', '*'] := by decide +kernel

end Cleaning

end Cinder.Worksheets
