import Cinder.Ecma.Patterns
import Mathlib.Data.Nat.SuccPred
set_option autoImplicit false

/-!
Texts that are cut by their UTF-16 units, and texts in which matches of a pattern are replaced: runs
of a character that are shortened, and characters that are taken away between others.
-/

namespace Cinder.Ecma
open Cinder.Streams

section Slices

def unitCount (c : Char) : ℕ := if 0x10000 ≤ c.toNat then 2 else 1

/-- `slice` from the start. A character of which only a half would be left is dropped. -/
def takeUnits : ℕ → List Char → List Char
  | _, [] => []
  | n, c :: s => if unitCount c ≤ n then c :: takeUnits (n-unitCount c) s else []

def charUnits (c : Char) : List ℕ :=
  if 0x10000 ≤ c.toNat then
    [0xD800+(c.toNat-0x10000)/0x400, 0xDC00+(c.toNat-0x10000)%0x400]
  else [c.toNat]

def utf16 (s : List Char) : List ℕ := s.flatMap charUnits

/-- The half of a character in which `slice` ends. -/
def halfLeft : ℕ → List Char → List ℕ
  | _, [] => []
  | n, c :: s => if unitCount c ≤ n then halfLeft (n-unitCount c) s else (charUnits c).take n

theorem length_charUnits (c : Char) : (charUnits c).length = unitCount c := by
  unfold charUnits unitCount
  split <;> rfl

/-- All that is dropped is half of a character. -/
theorem take_utf16 (n : ℕ) (s : List Char) :
    (utf16 s).take n = utf16 (takeUnits n s) ++ halfLeft n s := by
  induction s generalizing n with
  | nil => simp [utf16, takeUnits, halfLeft]
  | cons c s ih =>
    have hlength := length_charUnits c
    rw [utf16, List.flatMap_cons, List.take_append, takeUnits, halfLeft, hlength]
    split
    · rw [List.take_of_length_le (by omega), ← utf16, ih, utf16, utf16, List.flatMap_cons,
        List.append_assoc]
    · rw [Nat.sub_eq_zero_of_le (by omega)]
      simp [utf16]

theorem utf16_of_small {s : List Char} (h : ∀ c ∈ s, c.toNat < 0x10000) :
    utf16 s = s.map Char.toNat := by
  induction s with
  | nil => rfl
  | cons c s ih =>
    rw [List.forall_mem_cons] at h
    rw [utf16, List.flatMap_cons, ← utf16, ih h.2, charUnits, if_neg (by omega)]
    rfl

theorem takeUnits_eq_self {n : ℕ} {s : List Char} (h : (s.map unitCount).sum ≤ n) :
    takeUnits n s = s := by
  induction s generalizing n with
  | nil => rfl
  | cons c s ih =>
    rw [List.map_cons, List.sum_cons] at h
    rw [takeUnits, if_pos (by omega), ih (by omega)]

end Slices

section Matches
variable (a : Pattern)

/-- `matchAll`, for a pattern that matches no empty text. So many characters of a match are still to
be passed. -/
def matchesFrom : ℕ → List Char → List Char → List Reading
  | _, _, [] => []
  | skip+1, before, c :: s => matchesFrom skip (c :: before) s
  | 0, before, c :: s =>
    match (a.run ⟨before, c :: s, []⟩).head? with
    | some r => r :: matchesFrom (r.before.length-(before.length+1)) (c :: before) s
    | none => matchesFrom 0 (c :: before) s

def matchAll (s : List Char) : List Reading := matchesFrom a 0 [] s

end Matches

section Replacements
variable (here : List Char → Bool) (a : Pattern) (f : Reading → List Char)

/-- `replace` with the flag `g`, where the text before satisfies `here`, for a pattern that matches
no empty text. So many characters of a match are still to be passed. -/
def replaceFrom : ℕ → List Char → List Char → List Char
  | _, _, [] => []
  | skip+1, before, c :: s => replaceFrom skip (c :: before) s
  | 0, before, c :: s =>
    match if here before then (a.run ⟨before, c :: s, []⟩).head? else none with
    | some r => f r ++ replaceFrom (r.before.length-(before.length+1)) (c :: before) s
    | none => c :: replaceFrom 0 (c :: before) s

def replaceAll (s : List Char) : List Char := replaceFrom (fun _ => true) a f 0 [] s

def isLineStart (before : List Char) : Bool := before.head?.all fun c => !Pattern.isAny c

/-- `replace` of a pattern behind `^`, with the flags `g` and `m`. -/
def replaceAtLines (s : List Char) : List Char := replaceFrom isLineStart a f 0 [] s

/-- `replace` without the flag `g`. -/
def replaceFirstFrom : List Char → List Char → List Char
  | before, [] => (a.run ⟨before, [], []⟩).head?.elim [] f
  | before, c :: s =>
    match (a.run ⟨before, c :: s, []⟩).head? with
    | some r => f r ++ r.rest
    | none => c :: replaceFirstFrom (c :: before) s

def replaceFirst (s : List Char) : List Char := replaceFirstFrom a f [] s

/-- No text is matched whose characters all fail `p`. -/
def Needs (p : Char → Bool) (a : Pattern) : Prop :=
  ∀ r : Reading, (∀ c ∈ r.rest, p c = false) → a.run r = []

variable {here a f} {b : Pattern} {p : Char → Bool}

theorem needs_char {q : Char → Bool} (h : ∀ c, q c = true → p c = true) : Needs p (.char q) := by
  intro r hr
  obtain ⟨before, rest, groups⟩ := r
  cases rest with
  | nil => rfl
  | cons c s =>
    have hp : p c = false := hr c List.mem_cons_self
    have hq : q c = false := by
      by_contra hq
      rw [h c (by simpa using hq)] at hp
      cases hp
    simp [Pattern.run, hq]

theorem Needs.seq_left (h : Needs p a) (b : Pattern) : Needs p (.seq a b) := by
  intro r hr
  rw [Pattern.run, h r hr, List.flatMap_nil]

theorem Needs.seq_right (a : Pattern) (h : Needs p b) : Needs p (.seq a b) := by
  intro r hr
  rw [Pattern.run, List.flatMap_eq_nil_iff]
  intro r' hr'
  obtain ⟨t, -, hrest, -⟩ := Pattern.mem_run_iff.mp hr'
  exact h r' fun c hc => hr c (by rw [hrest]; exact List.mem_append_right t hc)

theorem replaceFrom_cons_of_nil {c : Char} {s before : List Char}
    (h : a.run ⟨before, c :: s, []⟩ = []) :
    replaceFrom here a f 0 before (c :: s) = c :: replaceFrom here a f 0 (c :: before) s := by
  rw [replaceFrom, h]
  split <;> simp_all

theorem replaceFrom_skip (t : List Char) (before s : List Char) :
    replaceFrom here a f t.length before (t ++ s) =
      replaceFrom here a f 0 (t.reverse ++ before) s := by
  induction t generalizing before with
  | nil => rfl
  | cons c t ih =>
    rw [List.length_cons, List.cons_append, replaceFrom, ih]
    simp

theorem replaceFrom_eq_self (ha : Needs p a) {s : List Char} (hs : ∀ c ∈ s, p c = false)
    (before : List Char) : replaceFrom here a f 0 before s = s := by
  induction s generalizing before with
  | nil => rfl
  | cons c s ih =>
    have hnone : (if here before then (a.run ⟨before, c :: s, []⟩).head? else none) = none := by
      rw [ha _ hs]
      exact ite_self _
    rw [replaceFrom, hnone]
    exact congrArg (c :: ·) (ih (fun d hd => hs d (List.mem_cons_of_mem _ hd)) _)

theorem replaceFirstFrom_eq_self (ha : Needs p a) {s : List Char} (hs : ∀ c ∈ s, p c = false)
    (before : List Char) : replaceFirstFrom a f before s = s := by
  induction s generalizing before with
  | nil =>
    rw [replaceFirstFrom, ha _ hs]
    rfl
  | cons c s ih =>
    rw [replaceFirstFrom, ha _ hs]
    exact congrArg (c :: ·) (ih (fun d hd => hs d (List.mem_cons_of_mem _ hd)) _)

def avoids (c : Char) : Pattern → Bool
  | .char p | .star _ p => !p c
  | .seq a b | .alt a b => avoids c a && avoids c b
  | .group _ a => avoids c a
  | _ => true

theorem not_mem_of_avoids {c : Char} (h : avoids c a = true) {before t after : List Char}
    {g : List (Nat × List Char)} (hway : a.Way before t after g) : c ∉ t := by
  induction a generalizing before t after g with
  | empty => simp [hway.1]
  | char p =>
    obtain ⟨⟨d, hd, rfl⟩, -⟩ := hway
    intro hmem
    rw [avoids, List.mem_singleton.mp hmem, hd] at h
    cases h
  | seq a b iha ihb =>
    obtain ⟨t₁, t₂, g₁, g₂, rfl, -, ha, hb⟩ := hway
    rw [avoids, Bool.and_eq_true] at h
    simp [iha h.1 ha, ihb h.2 hb]
  | alt a b iha ihb =>
    rw [avoids, Bool.and_eq_true] at h
    rcases hway with ha | hb
    · exact iha h.1 ha
    · exact ihb h.2 hb
  | star greedy p =>
    intro hmem
    rw [avoids, hway.1 c hmem] at h
    cases h
  | group n a ih =>
    obtain ⟨g₁, -, ha⟩ := hway
    exact ih h ha
  | start => simp [hway.1]
  | stop => simp [hway.1]
  | boundary => simp [hway.1]

theorem replaceFirstFrom_cases (a : Pattern) (f : Reading → List Char) (before s : List Char) :
    replaceFirstFrom a f before s = s ∨
      ∃ b t r g, s = b ++ (t ++ r.rest) ∧ replaceFirstFrom a f before s = b ++ (f r ++ r.rest) ∧
        a.Way (b.reverse ++ before) t r.rest g := by
  induction s generalizing before with
  | nil =>
    rw [replaceFirstFrom]
    cases hrun : (a.run ⟨before, [], []⟩).head? with
    | none => exact .inl rfl
    | some r =>
      obtain ⟨t, g, hrest, -, -, hway⟩ := Pattern.mem_run_iff.mp (List.mem_of_head? hrun)
      have hnil : r.rest = [] := (List.append_eq_nil_iff.mp hrest.symm).2
      exact .inr ⟨[], t, r, g, hrest, by simp [hnil], hway⟩
  | cons c s ih =>
    rw [replaceFirstFrom]
    cases hrun : (a.run ⟨before, c :: s, []⟩).head? with
    | none =>
      rcases ih (c :: before) with hsame | ⟨b, t, r, g, hs, hreplaced, hway⟩
      · exact .inl (congrArg (c :: ·) hsame)
      · refine .inr ⟨c :: b, t, r, g, congrArg (c :: ·) hs, congrArg (c :: ·) hreplaced, ?_⟩
        rwa [List.reverse_cons, List.append_assoc]
    | some r =>
      obtain ⟨t, g, hrest, -, -, hway⟩ := Pattern.mem_run_iff.mp (List.mem_of_head? hrun)
      exact .inr ⟨[], t, r, g, hrest, rfl, hway⟩

end Replacements

section Runs
variable (d : Char) (left : ℕ → ℕ)

/-- Of every run of a character so many are left as its length says. So many of a run have been
read. -/
def editRuns : ℕ → List Char → List Char
  | n, [] => List.replicate (left n) d
  | n, c :: s =>
    if c = d then editRuns (n+1) s else List.replicate (left n) d ++ c :: editRuns 0 s

variable {d left} {c : Char} {n : ℕ} {s x y : List Char}

theorem editRuns_cons (h : c ≠ d) (n : ℕ) (s : List Char) :
    editRuns d left n (c :: s) = List.replicate (left n) d ++ c :: editRuns d left 0 s :=
  if_neg h

theorem editRuns_run (n k : ℕ) (s : List Char) :
    editRuns d left n (List.replicate k d ++ s) = editRuns d left (n+k) s := by
  induction k generalizing n with
  | zero => rfl
  | succ k ih =>
    rw [List.replicate_succ, List.cons_append, editRuns, if_pos rfl, ih]
    congr 1
    omega

theorem editRuns_append (h : c ≠ d) (n : ℕ) (u v : List Char) :
    editRuns d left n (u ++ c :: v) = editRuns d left n u ++ c :: editRuns d left 0 v := by
  induction u generalizing n with
  | nil => rw [List.nil_append, editRuns_cons h, editRuns]
  | cons e u ih =>
    rw [List.cons_append, editRuns, editRuns]
    split
    · exact ih _
    · rw [ih, List.append_assoc, List.cons_append]

theorem mem_replicate_append {k : ℕ} {e : Char} (hc : c ≠ d)
    (h : List.replicate k d ++ e :: s = x ++ c :: y) :
    (x = List.replicate k d ∧ e = c ∧ s = y) ∨
      ∃ x', x = List.replicate k d ++ e :: x' ∧ s = x' ++ c :: y := by
  induction k generalizing x with
  | zero =>
    cases x with
    | nil =>
      obtain ⟨he, hs⟩ := List.cons.inj h
      exact .inl ⟨rfl, he, hs⟩
    | cons f x =>
      obtain ⟨he, hs⟩ := List.cons.inj h
      exact .inr ⟨x, by rw [he]; rfl, hs⟩
  | succ k ih =>
    rw [List.replicate_succ, List.cons_append] at h
    cases x with
    | nil => exact absurd (List.cons.inj h).1.symm hc
    | cons f x =>
      obtain ⟨rfl, hs⟩ := List.cons.inj h
      obtain ⟨rfl, he, hy⟩ | ⟨x', rfl, hy⟩ := ih hs
      · exact .inl ⟨rfl, he, hy⟩
      · exact .inr ⟨x', rfl, hy⟩

theorem exists_of_editRuns (hc : c ≠ d) (h : editRuns d left n s = x ++ c :: y) :
    ∃ u v, s = u ++ c :: v ∧ editRuns d left n u = x ∧ editRuns d left 0 v = y := by
  induction s generalizing n x with
  | nil =>
    have hmem : c ∈ List.replicate (left n) d := by
      rw [editRuns] at h
      simp [h]
    exact absurd (List.eq_of_mem_replicate hmem) hc
  | cons e s ih =>
    rw [editRuns] at h
    split at h
    · next he =>
      obtain ⟨u, v, rfl, hu, hv⟩ := ih h
      exact ⟨e :: u, v, rfl, by rw [editRuns, if_pos he, hu], hv⟩
    · next he =>
      obtain ⟨rfl, rfl, hy⟩ | ⟨x', rfl, hs⟩ := mem_replicate_append hc h
      · exact ⟨[], s, rfl, rfl, hy⟩
      · obtain ⟨u, v, rfl, hu, hv⟩ := ih hs
        exact ⟨e :: u, v, rfl, by rw [editRuns, if_neg he, hu], hv⟩

theorem eq_replicate_of_editRuns (h : ∀ c ∈ editRuns d left n s, c = d) :
    s = List.replicate s.length d ∧ editRuns d left n s = List.replicate (left (n+s.length)) d := by
  induction s generalizing n with
  | nil => exact ⟨rfl, rfl⟩
  | cons e s ih =>
    rw [editRuns] at h ⊢
    split at h
    · next he =>
      obtain ⟨hs, hleft⟩ := ih h
      rw [if_pos he, hleft, he, List.length_cons, List.replicate_succ, ← hs]
      refine ⟨rfl, ?_⟩
      congr 2
      omega
    · next he => exact absurd (h e (by simp)) he

theorem editRuns_of_head (hleft : left 0 = 0) (hs : s.head? ≠ some d) (n : ℕ) :
    editRuns d left n s = List.replicate (left n) d ++ editRuns d left 0 s := by
  cases s with
  | nil => simp [editRuns, hleft]
  | cons c s =>
    have hc : c ≠ d := fun h => hs (congrArg some h)
    rw [editRuns_cons hc, editRuns_cons hc, hleft]
    rfl

theorem editRuns_short (hnone : left 0 = 0) (hone : left 1 = 1)
    (h : ∀ s', c :: s ≠ d :: d :: s') : editRuns d left 0 (c :: s) = c :: editRuns d left 0 s := by
  by_cases hc : c = d
  · have hs : s.head? ≠ some d := by
      cases s with
      | nil => simp
      | cons e s =>
        intro he
        exact h s (by rw [hc, Option.some.inj he])
    rw [editRuns, if_pos hc, editRuns_of_head hnone hs, hone, hc]
    rfl
  · rw [editRuns_cons hc, hnone]
    rfl

theorem editRuns_dropWhile (n : ℕ) (s : List Char) : editRuns d left n s =
    editRuns d left (n+(s.takeWhile (· = d)).length) (s.dropWhile (· = d)) := by
  have hrun : s.takeWhile (· = d) = List.replicate (s.takeWhile (· = d)).length d :=
    List.eq_replicate_of_mem fun c hc => by simpa using List.mem_takeWhile_imp hc
  rw [← editRuns_run, ← hrun, List.takeWhile_append_dropWhile]

theorem head?_dropWhile_ne (d : Char) (s : List Char) : (s.dropWhile (· = d)).head? ≠ some d := by
  intro h
  have hnot := List.head?_dropWhile_not (fun c : Char => c = d) s
  rw [h] at hnot
  simp at hnot

theorem editRuns_add_two (n : ℕ) (s : List Char) :
    editRuns d (· % 2) (n+2) s = editRuns d (· % 2) n s := by
  induction s generalizing n with
  | nil => simp [editRuns]
  | cons c s ih =>
    rw [editRuns, editRuns, Nat.add_right_comm, ih (n+1), Nat.add_mod_right]

end Runs

section Cuts
variable (mark : Char → Bool)

/-- Characters that are no marks are changed, and dropped at the start, at the end and behind each
other. Whether the last one that is left is no mark. -/
inductive Cut : Bool → List Char → List Char → Prop where
  | stop {b : Bool} {s : List Char} (h : ∀ c ∈ s, mark c = false) : Cut b s []
  | keep {b : Bool} {c : Char} {s t : List Char} : Cut (!mark c) s t → Cut b (c :: s) (c :: t)
  | change {b : Bool} {c e : Char} {s t : List Char} (hc : mark c = false) (he : mark e = false) :
    Cut true s t → Cut b (c :: s) (e :: t)
  | drop {c : Char} {s t : List Char} (hc : mark c = false) : Cut true s t → Cut true (c :: s) t

structure OfStretches (P : List Char → Prop) : Prop where
  nil : ¬P []
  append : ∀ u c v, mark c = false → (P (u ++ c :: v) ↔ P u ∨ P v)

variable {mark} {P : List Char → Prop} {s t : List Char}

theorem OfStretches.cons (h : OfStretches mark P) {c : Char} (hc : mark c = false) (s : List Char) :
    P (c :: s) ↔ P s := by
  have happend := h.append [] c s hc
  rwa [List.nil_append, or_iff_right h.nil] at happend

theorem OfStretches.not_of_plain (h : OfStretches mark P) (hs : ∀ c ∈ s, mark c = false) :
    ¬P s := by
  induction s with
  | nil => exact h.nil
  | cons c s ih =>
    rw [List.forall_mem_cons] at hs
    rw [h.cons hs.1]
    exact ih hs.2

theorem OfStretches.append_right (h : OfStretches mark P) (hs : ∀ c ∈ s, mark c = false)
    (u : List Char) : P (u ++ s) ↔ P u := by
  cases s with
  | nil => rw [List.append_nil]
  | cons c s =>
    rw [List.forall_mem_cons] at hs
    rw [h.append u c s hs.1, or_iff_left (h.not_of_plain hs.2)]

theorem Cut.append_iff (h : OfStretches mark P) {b : Bool} (hcut : Cut mark b s t) (p : List Char)
    (hp : b = true → p = [] ∨ ∃ q c, p = q ++ [c] ∧ mark c = false) :
    P (p ++ s) ↔ P (p ++ t) := by
  induction hcut generalizing p with
  | stop hs => rw [h.append_right hs, List.append_nil]
  | @keep b c s t _ ih =>
    have hkept := ih (p ++ [c]) fun hc => .inr ⟨p, c, rfl, by simpa using hc⟩
    simpa using hkept
  | @change b c e s t hc he _ ih =>
    have hrest : P s ↔ P t := ih [] fun _ => .inl rfl
    rw [h.append p _ _ hc, h.append p _ _ he, hrest]
  | @drop c s t hc _ ih =>
    have hrest : P s ↔ P t := ih [] fun _ => .inl rfl
    obtain rfl | ⟨q, d, rfl, hd⟩ := hp rfl
    · exact (h.cons hc s).trans hrest
    · rw [List.append_assoc, List.append_assoc, List.singleton_append, List.singleton_append,
        h.append q d _ hd, h.append q d _ hd, h.cons hc, hrest]

theorem Cut.iff (h : OfStretches mark P) (hcut : Cut mark true s t) : P s ↔ P t :=
  hcut.append_iff h [] fun _ => .inl rfl

theorem Cut.refl (mark : Char → Bool) (b : Bool) (s : List Char) : Cut mark b s s := by
  induction s generalizing b with
  | nil => exact .stop (List.forall_mem_nil _)
  | cons c s ih => exact .keep (ih _)

theorem cut_append (hs : ∀ c ∈ s, mark c = false) (b : Bool) (u : List Char) :
    Cut mark b (u ++ s) u := by
  induction u generalizing b with
  | nil => exact .stop hs
  | cons c u ih => exact .keep (ih _)

theorem Cut.drops {w : List Char} (hw : ∀ c ∈ w, mark c = false) (h : Cut mark true s t) :
    Cut mark true (w ++ s) t := by
  induction w with
  | nil => exact h
  | cons c w ih =>
    rw [List.forall_mem_cons] at hw
    exact .drop hw.1 (ih hw.2)

theorem cut_strip {p : Char → Bool} (hp : ∀ c, p c = true → mark c = false) (s : List Char) :
    Cut mark true s (strip p s) := by
  have hleft : ∀ c ∈ s.takeWhile p, mark c = false := fun c hc => hp c (List.mem_takeWhile_imp hc)
  have hright : ∀ c ∈ (s.dropWhile p).rtakeWhile p, mark c = false :=
    fun c hc => hp c (List.mem_rtakeWhile_imp hc)
  have hs : s = s.takeWhile p ++ (strip p s ++ (s.dropWhile p).rtakeWhile p) := by
    rw [strip, List.rdropWhile_append_rtakeWhile, List.takeWhile_append_dropWhile]
  have hcut := (cut_append hright true (strip p s)).drops hleft
  rwa [← hs] at hcut

end Cuts

section Matching
variable {here : List Char → Bool} {a : Pattern} {f : Reading → List Char} {mark : Char → Bool}

theorem replaceFrom_match (ha : ∀ before t after g, a.Way before t after g → t ≠ [])
    {before s : List Char} {r : Reading} (hhere : here before = true)
    (h : (a.run ⟨before, s, []⟩).head? = some r) :
    ∃ t g, s = t ++ r.rest ∧ t ≠ [] ∧ a.Way before t r.rest g ∧
      replaceFrom here a f 0 before s =
        f r ++ replaceFrom here a f 0 (t.reverse ++ before) r.rest := by
  obtain ⟨t, g, hrest, hbefore, -, hway⟩ := Pattern.mem_run_iff.mp (List.mem_of_head? h)
  have hne := ha _ _ _ _ hway
  refine ⟨t, g, hrest, hne, hway, ?_⟩
  obtain ⟨c, t, rfl⟩ := List.exists_cons_of_ne_nil hne
  change s = c :: (t ++ r.rest) at hrest
  subst hrest
  have hlength : r.before.length-(before.length+1) = t.length := by
    rw [hbefore, List.length_append, List.length_reverse, List.length_cons]
    change t.length+1+before.length-(before.length+1) = t.length
    omega
  rw [replaceFrom, if_pos hhere, h]
  simp only [hlength, replaceFrom_skip]
  rw [List.reverse_cons, List.append_assoc, List.singleton_append]

theorem replaceFrom_cons {before s : List Char} {c : Char}
    (h : here before = true → (a.run ⟨before, c :: s, []⟩).head? = none) :
    replaceFrom here a f 0 before (c :: s) = c :: replaceFrom here a f 0 (c :: before) s := by
  rw [replaceFrom]
  split
  · next hmatch =>
    split at hmatch
    · next hhere =>
      rw [h hhere] at hmatch
      cases hmatch
    · cases hmatch
  · rfl

theorem cut_replaceFrom (ha : ∀ before t after g, a.Way before t after g → t ≠ [])
    (hmarks : ∀ c, mark c = true → avoids c a = true)
    (hhere : ∀ before, here before = true → before.head?.all (fun c => !mark c) = true)
    (before s : List Char) :
    Cut mark (before.head?.all fun c => !mark c) s
      (replaceFrom here a (fun _ => []) 0 before s) := by
  cases s with
  | nil => exact .stop (List.forall_mem_nil _)
  | cons c s =>
    cases hrun : (a.run ⟨before, c :: s, []⟩).head? with
    | none =>
      rw [replaceFrom_cons fun _ => hrun]
      exact .keep (cut_replaceFrom ha hmarks hhere (c :: before) s)
    | some r =>
      by_cases hat : here before = true
      · obtain ⟨t, g, hs, hne, hway, hreplaced⟩ := replaceFrom_match (f := fun _ => []) ha hat hrun
        have hplain : ∀ c ∈ t, mark c = false := by
          intro c hc
          by_contra hmark
          exact not_mem_of_avoids (hmarks c (by simpa using hmark)) hway hc
        have hclear : (t.reverse ++ before).head?.all (fun c => !mark c) = true := by
          cases hreverse : t.reverse with
          | nil => exact absurd (List.reverse_eq_nil_iff.mp hreverse) hne
          | cons d u =>
            have hd : d ∈ t := List.mem_reverse.mp (by rw [hreverse]; exact List.mem_cons_self)
            simp [hplain d hd]
        have hcut := cut_replaceFrom ha hmarks hhere (t.reverse ++ before) r.rest
        rw [hclear] at hcut
        rw [hreplaced, hhere before hat, hs]
        exact hcut.drops hplain
      · rw [replaceFrom_cons fun h => absurd h hat]
        exact .keep (cut_replaceFrom ha hmarks hhere (c :: before) s)
termination_by s.length
decreasing_by
  · simp
  · have hlength := congrArg List.length hs
    have hpos := List.length_pos_of_ne_nil hne
    rw [List.length_append] at hlength
    omega
  · simp

end Matching

section RunMatches
variable {f : Reading → List Char} {c d e : Char} {s : List Char}

theorem replaceFrom_two (before s : List Char) :
    replaceFrom (fun _ => true) (.literal [d, e]) f 0 before (d :: e :: s) =
      f ⟨e :: d :: before, s, []⟩ ++
        replaceFrom (fun _ => true) (.literal [d, e]) f 0 (e :: d :: before) s := by
  have hrun : (Pattern.literal [d, e]).run ⟨before, d :: e :: s, []⟩ =
      [⟨e :: d :: before, s, []⟩] := by simp [Pattern.literal, Pattern.run]
  have hskip : (e :: d :: before).length-(before.length+1) = 1 := by
    simp only [List.length_cons]
    omega
  rw [replaceFrom, if_pos rfl, hrun]
  simp only [List.head?_cons, hskip, replaceFrom]

theorem replaceFrom_two_of_ne (h : ∀ s', c :: s ≠ d :: e :: s') (before : List Char) :
    replaceFrom (fun _ => true) (.literal [d, e]) f 0 before (c :: s) =
      c :: replaceFrom (fun _ => true) (.literal [d, e]) f 0 (c :: before) s := by
  refine replaceFrom_cons_of_nil ?_
  by_cases hc : c = d
  · cases s with
    | nil => simp [Pattern.literal, Pattern.run]
    | cons c' s =>
      have hc' : c' ≠ e := by
        rintro rfl
        exact h s (by rw [hc])
      simp [Pattern.literal, Pattern.run, hc, hc']
  · simp [Pattern.literal, Pattern.run, hc]

theorem replaceFrom_pairs (before s : List Char) :
    replaceFrom (fun _ => true) (.literal [d, d]) (fun _ => []) 0 before s =
      editRuns d (· % 2) 0 s := by
  induction hn : s.length using Nat.strong_induction_on generalizing s before with
  | _ n ih =>
  subst hn
  cases s with
  | nil => rfl
  | cons c s =>
    by_cases hpair : ∃ s', c :: s = d :: d :: s'
    · obtain ⟨s', hs⟩ := hpair
      rw [hs] at ih ⊢
      rw [replaceFrom_two, ih s'.length (by simp) _ s' rfl, editRuns, if_pos rfl, editRuns,
        if_pos rfl]
      exact (editRuns_add_two 0 s').symm
    · rw [replaceFrom_two_of_ne fun s' hs => hpair ⟨s', hs⟩, ih s.length (by simp) _ s rfl]
      exact (editRuns_short rfl rfl fun s' hs => hpair ⟨s', hs⟩).symm

theorem run_long (before s : List Char) :
    ((Pattern.seq (.char (· = d)) (.plus (· = d))).run ⟨before, d :: d :: s, []⟩).head? =
      some ⟨(s.takeWhile (· = d)).reverse ++ d :: d :: before, s.dropWhile (· = d), []⟩ := by
  simp [Pattern.plus, Pattern.run, Pattern.getLast?_splits]

theorem run_short (h : ∀ s', s ≠ d :: d :: s') (before : List Char) :
    (Pattern.seq (.char (· = d)) (.plus (· = d))).run ⟨before, s, []⟩ = [] := by
  rw [List.eq_nil_iff_forall_not_mem]
  intro r hr
  obtain ⟨t, g, hrest, -, -, t₁, t₂, g₁, g₂, rfl, -, ⟨⟨c, hc, rfl⟩, -⟩, hplus⟩ :=
    Pattern.mem_run_iff.mp hr
  obtain ⟨hne, hall, -⟩ := Pattern.way_plus.mp hplus
  obtain ⟨c', t, rfl⟩ := List.exists_cons_of_ne_nil hne
  have hc' := hall c' List.mem_cons_self
  obtain rfl := of_decide_eq_true hc
  obtain rfl := of_decide_eq_true hc'
  exact h (t ++ r.rest) hrest

theorem replaceFrom_runs (before s : List Char) :
    replaceFrom (fun _ => true) (.seq (.char (· = d)) (.plus (· = d))) (fun _ => []) 0 before s =
      editRuns d (fun n => if n = 1 then 1 else 0) 0 s := by
  induction hn : s.length using Nat.strong_induction_on generalizing s before with
  | _ n ih =>
  subst hn
  cases s with
  | nil => rfl
  | cons c s =>
    by_cases hlong : ∃ s', c :: s = d :: d :: s'
    · obtain ⟨s', hs⟩ := hlong
      rw [hs] at ih ⊢
      obtain ⟨t, g, hrest, -, -, hreplaced⟩ :=
        @replaceFrom_match (fun _ => true) _ (fun _ => []) (fun before t after g hway => by
          obtain ⟨t₁, t₂, g₁, g₂, rfl, -, ⟨⟨c, -, rfl⟩, -⟩, -⟩ := hway
          exact List.cons_ne_nil _ _) _ _ _ rfl (run_long (d := d) before s')
      have hlength := (List.dropWhile_sublist (fun c => c = d) (l := s')).length_le
      have hlt : (s'.dropWhile (· = d)).length < (d :: d :: s').length := by
        simp only [List.length_cons]
        omega
      rw [hreplaced, ih _ hlt _ _ rfl, editRuns, if_pos rfl, editRuns, if_pos rfl,
        editRuns_dropWhile _ s', editRuns_of_head rfl (head?_dropWhile_ne d s') (0+1+1+_),
        if_neg (by omega)]
      rfl
    · rw [replaceFrom_cons_of_nil (run_short (fun s' hs => hlong ⟨s', hs⟩) before),
        ih s.length (by simp) _ s rfl]
      exact (editRuns_short rfl rfl fun s' hs => hlong ⟨s', hs⟩).symm

end RunMatches

end Cinder.Ecma
