import Cinder.Ecma.PatternContexts
import Mathlib.Data.List.Chain
set_option autoImplicit false

/-!
Texts in which matches of patterns are taken out, with a mark on every character that goes. A match
in what is kept stood in the text already, or a deletion has joined it.
-/

namespace Cinder.Ecma
open Cinder.Streams

abbrev MarkedText := List (Char × Bool)

section Marks

def kept (s : MarkedText) : List Char := (s.filter fun p => !p.2).map (·.1)

def unmarked (t : List Char) : MarkedText := t.map (·, false)

variable {s s' : MarkedText} {c : Char} {t : List Char}

@[simp] theorem kept_nil : kept [] = [] := rfl

@[simp] theorem kept_true (c : Char) (s : MarkedText) : kept ((c, true) :: s) = kept s := rfl

@[simp] theorem kept_false (c : Char) (s : MarkedText) :
    kept ((c, false) :: s) = c :: kept s := rfl

@[simp] theorem kept_append (s s' : MarkedText) : kept (s ++ s') = kept s ++ kept s' := by
  simp [kept]

@[simp] theorem kept_unmarked (t : List Char) : kept (unmarked t) = t := by
  induction t with
  | nil => rfl
  | cons c t ih => exact congrArg (c :: ·) ih

@[simp] theorem map_fst_unmarked (t : List Char) : (unmarked t).map (·.1) = t := by
  induction t with
  | nil => rfl
  | cons c t ih => exact congrArg (c :: ·) ih

theorem unmarked_append (t u : List Char) : unmarked (t ++ u) = unmarked t ++ unmarked u :=
  List.map_append

theorem unmarked_cons (c : Char) (t : List Char) : unmarked (c :: t) = (c, false) :: unmarked t :=
  rfl

end Marks

namespace Pattern

def Begins (p : Char → Bool) (a : Pattern) : Prop :=
  ∀ b t c g, a.Way b t c g → ∃ d, t.head? = some d ∧ p d = true

def Ends (p : Char → Bool) (a : Pattern) : Prop :=
  ∀ b t c g, a.Way b t c g → ∃ d, t.getLast? = some d ∧ p d = true

variable {p q : Char → Bool} {a : Pattern}

theorem begins_char (h : ∀ d, q d = true → p d = true) : (char q).Begins p := by
  rintro b t c g ⟨⟨d, hd, rfl⟩, -⟩
  exact ⟨d, rfl, h d hd⟩

theorem ends_char (h : ∀ d, q d = true → p d = true) : (char q).Ends p := by
  rintro b t c g ⟨⟨d, hd, rfl⟩, -⟩
  exact ⟨d, rfl, h d hd⟩

theorem isLetter_iff {c d : Char} : isLetter c d = true ↔ d = c ∨ d = c.toUpper := by
  rw [isLetter, Bool.or_eq_true, decide_eq_true_eq, decide_eq_true_eq]

theorem of_isLetter {c d : Char} (hc : p c = true) (hupper : p c.toUpper = true)
    (h : isLetter c d = true) : p d = true := by
  rcases isLetter_iff.mp h with rfl | rfl
  · exact hc
  · exact hupper

theorem Begins.seq (ha : a.Begins p) (b : Pattern) : (seq a b).Begins p := by
  rintro before t after g ⟨t₁, t₂, g₁, g₂, rfl, -, h₁, -⟩
  obtain ⟨d, hd, hp⟩ := ha _ _ _ _ h₁
  exact ⟨d, by rw [List.head?_append, hd]; rfl, hp⟩

theorem Ends.seq (a : Pattern) {b : Pattern} (hb : b.Ends p) : (seq a b).Ends p := by
  rintro before t after g ⟨t₁, t₂, g₁, g₂, rfl, -, -, h₂⟩
  obtain ⟨d, hd, hp⟩ := hb _ _ _ _ h₂
  exact ⟨d, by rw [List.getLast?_append, hd]; rfl, hp⟩

theorem Ends.seq_empty (ha : a.Ends p) : (Pattern.seq a empty).Ends p := by
  rintro before t after g ⟨t₁, t₂, g₁, g₂, rfl, -, h₁, rfl, -⟩
  rw [List.append_nil]
  exact ha _ _ _ _ h₁

theorem begins_word {c : Char} (hc : p c = true) (hupper : p c.toUpper = true) (s : List Char) :
    (word (c :: s)).Begins p :=
  (begins_char fun _ => of_isLetter hc hupper).seq _

end Pattern

section TakingOut
variable (a : Pattern)

/-- The matches in what is kept are taken out. So many characters of a match are still to go. -/
def takeOut : ℕ → List Char → MarkedText → MarkedText
  | _, _, [] => []
  | skip, before, (c, true) :: s => (c, true) :: takeOut skip before s
  | skip+1, before, (c, false) :: s => (c, true) :: takeOut skip (c :: before) s
  | 0, before, (c, false) :: s =>
    match (a.run ⟨before, c :: kept s, []⟩).head? with
    | some r => (c, true) :: takeOut (r.before.length-(before.length+1)) (c :: before) s
    | none => (c, false) :: takeOut 0 (c :: before) s

variable {a}

@[simp] theorem takeOut_nil (skip : ℕ) (before : List Char) : takeOut a skip before [] = [] := by
  cases skip <;> rfl

@[simp] theorem takeOut_true (skip : ℕ) (before : List Char) (c : Char) (s : MarkedText) :
    takeOut a skip before ((c, true) :: s) = (c, true) :: takeOut a skip before s := by
  cases skip <;> rfl

theorem takeOut_of_none {before : List Char} {c : Char} {s : MarkedText}
    (h : (a.run ⟨before, c :: kept s, []⟩).head? = none) :
    takeOut a 0 before ((c, false) :: s) = (c, false) :: takeOut a 0 (c :: before) s := by
  rw [takeOut, h]

theorem takeOut_of_some {before : List Char} {c : Char} {s : MarkedText} {r : Reading}
    (h : (a.run ⟨before, c :: kept s, []⟩).head? = some r) :
    takeOut a 0 before ((c, false) :: s) =
      (c, true) :: takeOut a (r.before.length-(before.length+1)) (c :: before) s := by
  rw [takeOut, h]

theorem takeOut_of_passes {u : List Char} {s : MarkedText} (h : a.Passes u (kept s))
    (before : List Char) :
    takeOut a 0 before (unmarked u ++ s) = unmarked u ++ takeOut a 0 (u.reverse ++ before) s := by
  induction u generalizing before with
  | nil => rfl
  | cons c u ih =>
    have hnone : (a.run ⟨before, c :: kept (unmarked u ++ s), []⟩).head? = none := by
      rw [kept_append, kept_unmarked, h.1, List.head?_nil]
    rw [unmarked_cons, List.cons_append, takeOut_of_none hnone, ih h.2, List.reverse_cons,
      List.append_assoc]
    rfl

theorem map_fst_takeOut (skip : ℕ) (before : List Char) (s : MarkedText) :
    (takeOut a skip before s).map (·.1) = s.map (·.1) := by
  induction s generalizing skip before with
  | nil => simp
  | cons p s ih =>
    obtain ⟨c, gone⟩ := p
    cases gone with
    | true => simp [ih]
    | false =>
      cases skip with
      | succ skip => exact congrArg (c :: ·) (ih skip _)
      | zero =>
        cases h : (a.run ⟨before, c :: kept s, []⟩).head? with
        | some r => rw [takeOut_of_some h, List.map_cons, ih, List.map_cons]
        | none => rw [takeOut_of_none h, List.map_cons, ih, List.map_cons]

theorem kept_takeOut (skip : ℕ) (before : List Char) (s : MarkedText) :
    kept (takeOut a skip before s) =
      replaceFrom (fun _ => true) a (fun _ => []) skip before (kept s) := by
  induction s generalizing skip before with
  | nil => cases skip <;> simp [replaceFrom]
  | cons p s ih =>
    obtain ⟨c, gone⟩ := p
    cases gone with
    | true => rw [takeOut_true, kept_true, kept_true, ih]
    | false =>
      cases skip with
      | succ skip => exact ih skip _
      | zero =>
        rw [kept_false, replaceFrom, if_pos rfl]
        cases h : (a.run ⟨before, c :: kept s, []⟩).head? with
        | some r =>
          rw [takeOut_of_some h, kept_true, ih]
          rfl
        | none => rw [takeOut_of_none h, kept_false, ih]

theorem match_cons {before : List Char} {c : Char} {u : List Char} {r : Reading}
    (ha : ∀ before t after g, a.Way before t after g → t ≠ [])
    (h : (a.run ⟨before, c :: u, []⟩).head? = some r) :
    ∃ t g, u = t ++ r.rest ∧ a.Way before (c :: t) r.rest g ∧
      r.before.length-(before.length+1) = t.length := by
  obtain ⟨t, g, hrest, hbefore, -, hway⟩ := Pattern.mem_run_iff.mp (List.mem_of_head? h)
  cases t with
  | nil => exact absurd rfl (ha _ _ _ _ hway)
  | cons d t =>
    obtain ⟨rfl, hu⟩ := List.cons.inj hrest
    refine ⟨t, g, hu, hway, ?_⟩
    simp only [hbefore, List.length_append, List.length_reverse, List.length_cons]
    omega

def Spares (a : Pattern) (u : List Char) : Prop :=
  ∀ before t after g w w', a.Way before t after g → w ++ (t ++ after) = w' ++ u →
    u.length ≤ after.length

theorem spares_of {u : List Char}
    (h : ∀ before t after g w w' v, a.Way before t after g → w ++ t = w' ++ v → v <+: u → v = []) :
    Spares a u := by
  intro before t after g w w' hway ht
  rw [← List.append_assoc] at ht
  rcases List.append_eq_append_iff.mp ht with ⟨v, -, hafter⟩ | ⟨v, hv, hu⟩
  · rw [hafter, List.length_append]
    omega
  · obtain rfl := h _ _ _ _ w w' v hway hv ⟨after, hu.symm⟩
    rw [hu, List.nil_append]

theorem spares_of_ends {p : Char → Bool} (ha : a.Ends p) {u : List Char}
    (hu : ∀ c ∈ u, p c = false) : Spares a u := by
  refine spares_of fun before t after g w w' v hway ht hv => ?_
  obtain ⟨d, hd, hp⟩ := ha _ _ _ _ hway
  rcases List.eq_nil_or_concat' v with rfl | ⟨v, e, rfl⟩
  · rfl
  · have hlast := congrArg List.getLast? ht
    rw [List.getLast?_append, hd, ← List.append_assoc, List.getLast?_concat] at hlast
    obtain rfl : d = e := Option.some.inj hlast
    rw [hu d (hv.subset (by simp))] at hp
    cases hp

theorem spares_of_ends_two {d e : Char} (ha : ∀ b t c g, a.Way b t c g → ∃ t', t = t' ++ [d, e])
    {u : List Char} (hd : d ∉ u) (he : u.head? ≠ some e) : Spares a u := by
  refine spares_of fun before t after g w w' v hway ht hv => ?_
  obtain ⟨t', rfl⟩ := ha _ _ _ _ hway
  have hends : w ++ (t' ++ [d, e]) = (w ++ t' ++ [d]) ++ [e] := by simp
  rw [hends] at ht
  rcases List.eq_nil_or_concat' v with rfl | ⟨v, f, rfl⟩
  · rfl
  · rw [← List.append_assoc] at ht
    obtain ⟨hfirst, hlast⟩ := List.append_inj' ht rfl
    obtain rfl : e = f := List.head_eq_of_cons_eq hlast
    rcases List.eq_nil_or_concat' v with rfl | ⟨v, g, rfl⟩
    · obtain ⟨k, rfl⟩ := hv
      exact absurd rfl he
    · rw [← List.append_assoc] at hfirst
      obtain rfl : d = g := List.head_eq_of_cons_eq (List.append_inj' hfirst rfl).2
      exact absurd (hv.subset (by simp)) hd

theorem takeOut_of_spares {u w v : List Char}
    (ha : ∀ before t after g, a.Way before t after g → t ≠ []) (hu : Spares a u)
    (hw : u = w ++ v) (before : List Char) : takeOut a 0 before (unmarked v) = unmarked v := by
  induction v generalizing w before with
  | nil => rfl
  | cons c v ih =>
    have hnone : (a.run ⟨before, c :: kept (unmarked v), []⟩).head? = none := by
      rw [kept_unmarked, Option.eq_none_iff_forall_ne_some]
      intro r hr
      obtain ⟨t, g, hv, hway, -⟩ := match_cons ha hr
      have hlength := hu _ _ _ _ w [] hway (by rw [hw, hv]; simp)
      rw [hw, hv, List.length_append, List.length_cons, List.length_append] at hlength
      omega
    have hnext : u = (w ++ [c]) ++ v := by simp [hw]
    rw [unmarked_cons, takeOut_of_none hnone, ih hnext]

/-- An end that no match reaches into is kept. -/
theorem takeOut_append {u : List Char} (ha : ∀ before t after g, a.Way before t after g → t ≠ [])
    (hu : Spares a u) (s : MarkedText) {skip : ℕ} (hskip : skip ≤ (kept s).length)
    (before : List Char) :
    ∃ s', takeOut a skip before (s ++ unmarked u) = s' ++ unmarked u ∧
      s'.map (·.1) = s.map (·.1) := by
  induction s generalizing skip before with
  | nil =>
    obtain rfl : skip = 0 := Nat.le_zero.mp hskip
    exact ⟨[], takeOut_of_spares ha hu (List.nil_append u).symm before, rfl⟩
  | cons p s ih =>
    obtain ⟨c, gone⟩ := p
    cases gone with
    | true =>
      obtain ⟨s', hs', hchars⟩ := ih hskip before
      exact ⟨(c, true) :: s', by rw [List.cons_append, takeOut_true, hs']; rfl,
        congrArg (c :: ·) hchars⟩
    | false =>
      rw [kept_false, List.length_cons] at hskip
      cases skip with
      | succ skip =>
        obtain ⟨s', hs', hchars⟩ := ih (Nat.le_of_succ_le_succ hskip) (c :: before)
        exact ⟨(c, true) :: s', congrArg ((c, true) :: ·) hs', congrArg (c :: ·) hchars⟩
      | zero =>
        rw [List.cons_append]
        cases h : (a.run ⟨before, c :: kept (s ++ unmarked u), []⟩).head? with
        | none =>
          obtain ⟨s', hs', hchars⟩ := ih (Nat.zero_le _) (c :: before)
          exact ⟨(c, false) :: s', by rw [takeOut_of_none h, hs']; rfl, congrArg (c :: ·) hchars⟩
        | some r =>
          obtain ⟨t, g, ht, hway, hlength⟩ := match_cons ha h
          rw [kept_append, kept_unmarked] at ht
          have hafter := hu _ _ _ _ [] (c :: kept s) hway (by simp [ht])
          have htotal := congrArg List.length ht
          rw [List.length_append, List.length_append] at htotal
          have hskipped : t.length ≤ (kept s).length := by omega
          obtain ⟨s', hs', hchars⟩ := ih hskipped (c :: before)
          exact ⟨(c, true) :: s', by rw [takeOut_of_some h, hlength, hs']; rfl,
            congrArg (c :: ·) hchars⟩

end TakingOut

section Fences
variable (q : Char → Bool)

def Beside (p p' : Char × Bool) : Prop :=
  (p.2 = true → p'.2 = false → q p.1 = false) ∧ (p.2 = false → p'.2 = true → q p'.1 = false)

def Fenced (s : MarkedText) : Prop := s.IsChain (Beside q)

def Edged (a : Pattern) : Prop := a.Begins (fun c => !q c) ∧ a.Ends (fun c => !q c)

variable {q} {a : Pattern}

theorem Edged.ne_nil (h : Edged q a) (before t after : List Char) (g : List (ℕ × List Char))
    (hway : a.Way before t after g) : t ≠ [] := by
  rintro rfl
  obtain ⟨c, hc, -⟩ := h.1 _ _ _ _ hway
  cases hc

theorem beside_true {p : Char × Bool} {c : Char} :
    Beside q p (c, true) ↔ (p.2 = false → q c = false) := by
  simp [Beside]

theorem beside_false {p : Char × Bool} {c : Char} :
    Beside q p (c, false) ↔ (p.2 = true → q p.1 = false) := by
  simp [Beside]

theorem fenced_unmarked (t : List Char) : Fenced q (unmarked t) := by
  induction t with
  | nil => exact .nil
  | cons c t ih =>
    cases t with
    | nil => exact .singleton _
    | cons d t => exact List.isChain_cons_cons.mpr ⟨beside_false.mpr (by simp), ih⟩

/-- The last character that goes of a match is one that may, and the next match begins with one. -/
theorem fenced_takeOut_cons (ha : Edged q a) {s : MarkedText} {p p' : Char × Bool}
    (h : Fenced q (p :: s)) {skip : ℕ} (before : List Char) (hchar : p'.1 = p.1)
    (hgone : p.2 = true → p'.2 = true)
    (hlast : skip = 0 → p'.2 = true → p.2 = false → q p.1 = false)
    (hskip : ∀ k, skip = k+1 → p'.2 = true ∧ ∃ d, (kept s)[k]? = some d ∧ q d = false) :
    Fenced q (p' :: takeOut a skip before s) := by
  induction s generalizing skip before p p' with
  | nil => rw [takeOut_nil]; exact .singleton _
  | cons x s ih =>
    obtain ⟨hbeside, hrest⟩ := List.isChain_cons_cons.mp h
    obtain ⟨c, gone⟩ := x
    cases gone with
    | true =>
      rw [takeOut_true]
      refine List.isChain_cons_cons.mpr ⟨beside_true.mpr fun hp' => ?_, ?_⟩
      · refine beside_true.mp hbeside ?_
        cases hp : p.2 with
        | false => rfl
        | true => rw [hgone hp] at hp'; cases hp'
      · exact ih hrest before rfl id (fun _ _ h => nomatch h) fun k hk =>
          ⟨rfl, (hskip k hk).2⟩
    | false =>
      cases skip with
      | succ k =>
        obtain ⟨hp', d, hd, hq⟩ := hskip k rfl
        refine List.isChain_cons_cons.mpr
          ⟨beside_true.mpr fun h => (by rw [hp'] at h; cases h), ?_⟩
        refine ih hrest _ rfl (fun _ => rfl) (fun hk _ _ => ?_) fun j hj => ⟨rfl, d, ?_, hq⟩
        · subst hk
          rw [kept_false, List.getElem?_cons_zero] at hd
          rwa [Option.some.inj hd]
        · subst hj
          rwa [kept_false, List.getElem?_cons_succ] at hd
      | zero =>
        cases hrun : (a.run ⟨before, c :: kept s, []⟩).head? with
        | none =>
          rw [takeOut_of_none hrun]
          refine List.isChain_cons_cons.mpr ⟨beside_false.mpr fun hp' => ?_, ?_⟩
          · rw [hchar]
            cases hp : p.2 with
            | false => exact hlast rfl hp' hp
            | true => exact beside_false.mp hbeside hp
          · exact ih hrest _ rfl id (fun _ h => nomatch h) fun k hk => nomatch hk
        | some r =>
          obtain ⟨t, g, ht, hway, hlength⟩ := match_cons ha.ne_nil hrun
          obtain ⟨e, he, hfirst⟩ := ha.1 _ _ _ _ hway
          obtain ⟨d, hd, hq⟩ := ha.2 _ _ _ _ hway
          rw [Bool.not_eq_true'] at hfirst hq
          obtain rfl : c = e := Option.some.inj he
          rw [takeOut_of_some hrun, hlength]
          refine List.isChain_cons_cons.mpr ⟨beside_true.mpr fun _ => hfirst, ?_⟩
          refine ih hrest _ rfl (fun _ => rfl) (fun _ _ _ => hfirst) fun k hk => ⟨rfl, d, ?_, hq⟩
          have hget : t[k]? = some d := by
            rwa [List.getLast?_eq_getElem?, List.length_cons, hk, Nat.add_sub_cancel,
              List.getElem?_cons_succ] at hd
          rw [ht, List.getElem?_append_left (by omega), hget]

theorem fenced_takeOut (ha : Edged q a) {s : MarkedText} (h : Fenced q s) :
    Fenced q (takeOut a 0 [] s) := by
  cases s with
  | nil => rw [takeOut_nil]; exact .nil
  | cons p s =>
    have hself : Fenced q (p :: p :: s) := List.isChain_cons_cons.mpr
      ⟨⟨fun h h' => absurd h (by simp [h']), fun h h' => absurd h (by simp [h'])⟩, h⟩
    have hfenced : Fenced q (p :: takeOut a 0 [] (p :: s)) :=
      fenced_takeOut_cons ha hself [] rfl id (fun _ h h' => absurd h (by simp [h']))
        fun _ hk => by cases hk
    exact hfenced.tail

end Fences

section Occurrences
variable (M : List Char → List Char → List Char → Prop)

/-- Somewhere in a text stands one such, with the text before it, last first, and behind it. -/
def Occurs (t : List Char) : Prop := ∃ b m c, t = b ++ (m ++ c) ∧ M b.reverse m c

def Splices (s : MarkedText) : Prop :=
  ∃ x d z b m m' c, s = x ++ (d, true) :: z ∧ kept x = b ++ m ∧ kept z = m' ++ c ∧ m ≠ [] ∧
    m' ≠ [] ∧ M b.reverse (m ++ m') c

def Pattern.Matches (a : Pattern) (b m c : List Char) : Prop := ∃ g, a.Way b m c g

def Fades (q : Char → Bool) (c c' : List Char) : Prop :=
  ∃ u w w', c = u ++ w ∧ c' = u ++ w' ∧ w'.head?.any q = false

/-- It is not empty and stays one where less follows. What stands before matters only if it begins
as a word, and then only whether that ends in a word. -/
def Sturdy (q : Char → Bool) : Prop :=
  ∀ ⦃b m c⦄, M b m c → m ≠ [] ∧ ∀ ⦃b' c'⦄,
    (m.head?.any isWordChar = true → b.head?.any isWordChar = false →
      b'.head?.any isWordChar = false) → Fades q c c' → M b' m c'

variable {M} {q : Char → Bool} {s : MarkedText}

theorem Fades.refl (q : Char → Bool) (c : List Char) : Fades q c c :=
  ⟨c, [], [], (List.append_nil c).symm, (List.append_nil c).symm, rfl⟩

theorem Fades.head {p : Char → Bool} (hp : ∀ c, p c = true → q c = true) {c c' : List Char}
    (h : Fades q c c') (hc : c.head?.any p = false) : c'.head?.any p = false := by
  obtain ⟨u, w, w', rfl, rfl, hw⟩ := h
  cases u with
  | nil =>
    cases w' with
    | nil => rfl
    | cons d w' =>
      cases hd : p d with
      | false => simpa using hd
      | true => simp [hp d hd] at hw
  | cons d u => exact hc

theorem exists_of_kept_cons {b c : List Char} {d : Char} (h : kept s = b ++ d :: c) :
    ∃ x y, s = x ++ (d, false) :: y ∧ kept x = b ∧ kept y = c := by
  induction s generalizing b with
  | nil => simp at h
  | cons p s ih =>
    obtain ⟨e, gone⟩ := p
    cases gone with
    | true =>
      obtain ⟨x, y, rfl, hx, hy⟩ := ih h
      exact ⟨(e, true) :: x, y, rfl, hx, hy⟩
    | false =>
      rw [kept_false] at h
      cases b with
      | nil =>
        obtain ⟨rfl, hs⟩ := List.cons.inj h
        exact ⟨[], s, rfl, rfl, hs⟩
      | cons f b =>
        obtain ⟨rfl, hs⟩ := List.cons.inj h
        obtain ⟨x, y, rfl, hx, hy⟩ := ih hs
        exact ⟨(e, false) :: x, y, rfl, by rw [kept_false, hx], hy⟩

theorem kept_split {m c : List Char} (h : kept s = m ++ c) :
    (∃ z, s = unmarked m ++ z ∧ kept z = c) ∨
      ∃ x d z m₁ m₂, m = m₁ ++ m₂ ∧ m₂ ≠ [] ∧ s = x ++ (d, true) :: z ∧ kept x = m₁ ∧
        kept z = m₂ ++ c := by
  induction m generalizing s with
  | nil => exact .inl ⟨s, rfl, h⟩
  | cons e m ih =>
    cases s with
    | nil => simp at h
    | cons p s =>
      obtain ⟨d, gone⟩ := p
      cases gone with
      | true => exact .inr ⟨[], d, s, [], e :: m, rfl, List.cons_ne_nil _ _, rfl, rfl, h⟩
      | false =>
        obtain ⟨rfl, hs⟩ := List.cons.inj h
        rcases ih hs with ⟨z, rfl, hz⟩ | ⟨x, f, z, m₁, m₂, rfl, hne, rfl, hx, hz⟩
        · exact .inl ⟨z, rfl, hz⟩
        · exact .inr ⟨(d, false) :: x, f, z, d :: m₁, m₂, rfl, hne, rfl, by rw [kept_false, hx], hz⟩

/-- What follows a kept character in the text is what follows it in what is kept, up to a
deletion. -/
theorem fades_kept {p : Char} (h : Fenced q ((p, false) :: s)) :
    Fades q (kept s) (s.map (·.1)) := by
  induction s generalizing p with
  | nil => exact ⟨[], [], [], rfl, rfl, rfl⟩
  | cons x s ih =>
    obtain ⟨d, gone⟩ := x
    obtain ⟨hbeside, hrest⟩ := List.isChain_cons_cons.mp h
    cases gone with
    | true => exact ⟨[], kept s, d :: s.map (·.1), rfl, rfl, by simpa using beside_true.mp hbeside⟩
    | false =>
      obtain ⟨u, w, w', hkept, hchars, hw⟩ := ih hrest
      exact ⟨d :: u, w, w', by rw [kept_false, hkept]; rfl, by rw [List.map_cons, hchars]; rfl, hw⟩

theorem Fenced.reverse (h : Fenced q s) : Fenced q s.reverse :=
  List.isChain_reverse.mpr (h.imp fun _ _ hp => ⟨fun h h' => hp.2 h' h, fun h h' => hp.1 h' h⟩)

theorem kept_reverse (s : MarkedText) : kept s.reverse = (kept s).reverse := by
  simp [kept, List.filter_reverse]

/-- If a text has no such thing, then what is kept of it has one if and only if a deletion has
joined it. -/
theorem occurs_kept_iff (hq : ∀ c, isWordChar c = true → q c = true) (hM : Sturdy M q)
    (hs : Fenced q s) (hnone : ¬Occurs M (s.map (·.1))) :
    Occurs M (kept s) ↔ Splices M s := by
  constructor
  · rintro ⟨b, m, c, hkept, hm⟩
    obtain ⟨hne, hstays⟩ := hM hm
    obtain ⟨e, m, rfl⟩ := List.exists_cons_of_ne_nil hne
    obtain ⟨x, y, rfl, hx, hy⟩ := exists_of_kept_cons hkept
    rcases kept_split hy with ⟨z, rfl, hz⟩ | ⟨y₁, d, z, m₁, m₂, rfl, hne₂, rfl, hy₁, hz⟩
    · refine absurd ⟨x.map (·.1), e :: m, z.map (·.1), by simp, ?_⟩ hnone
      obtain ⟨m', f, hmf⟩ := List.eq_nil_or_concat' (e :: m) |>.resolve_left hne
      have hbefore : Fades q (kept x.reverse) (x.reverse.map (·.1)) := by
        have hrev := hs.reverse
        rw [List.reverse_append, List.reverse_cons, List.append_assoc] at hrev
        exact fades_kept (p := e) hrev.right_of_append
      have hafter : Fades q (kept z) (z.map (·.1)) := by
        have hshape : x ++ (e, false) :: (unmarked m ++ z) =
            (x ++ unmarked m') ++ (f, false) :: z := by
          have hlist : (e, false) :: unmarked m = unmarked m' ++ [(f, false)] := by
            rw [← unmarked_cons, hmf, unmarked_append]
            rfl
          rw [List.append_assoc, ← List.singleton_append (l := z),
            ← List.append_assoc (unmarked m'), ← hlist]
          rfl
        rw [hshape] at hs
        exact fades_kept (p := f) hs.right_of_append
      rw [kept_reverse, hx, List.map_reverse] at hbefore
      rw [hz] at hafter
      exact hstays (fun _ => hbefore.head hq) hafter
    · refine ⟨x ++ (e, false) :: y₁, d, z, b, e :: m₁, m₂, c, by simp, ?_, hz,
        List.cons_ne_nil _ _, hne₂, hm⟩
      rw [kept_append, kept_false, hx, hy₁]
  · rintro ⟨x, d, z, b, m, m', c, rfl, hx, hz, -, -, hm⟩
    exact ⟨b, m ++ m', c, by rw [kept_append, kept_true, hx, hz]; simp, hm⟩

/-- Behind another text stands what stands in a text that begins with nothing of a word. -/
theorem Sturdy.occurs_behind (hM : Sturdy M q) {t : List Char}
    (ht : t.head?.any isWordChar = false) (u : List Char) (h : Occurs M t) : Occurs M (u ++ t) := by
  obtain ⟨b, m, c, rfl, hm⟩ := h
  obtain ⟨hne, hstays⟩ := hM hm
  obtain ⟨e, m, rfl⟩ := List.exists_cons_of_ne_nil hne
  refine ⟨u ++ b, e :: m, c, (List.append_assoc ..).symm, hstays (fun hword hb => ?_) (.refl q c)⟩
  rw [List.reverse_append]
  cases hrev : b.reverse with
  | nil =>
    rw [List.reverse_eq_nil_iff.mp hrev] at ht
    simp_all
  | cons f b => rwa [hrev] at hb

theorem occurs_or {N : List Char → List Char → List Char → Prop} {t : List Char} :
    Occurs (fun b m c => M b m c ∨ N b m c) t ↔ Occurs M t ∨ Occurs N t := by
  simp only [Occurs, and_or_left, exists_or]

theorem Sturdy.or {N : List Char → List Char → List Char → Prop} (hM : Sturdy M q)
    (hN : Sturdy N q) : Sturdy (fun b m c => M b m c ∨ N b m c) q := by
  rintro b m c (hm | hm)
  · exact ⟨(hM hm).1, fun _ _ hb hc => .inl ((hM hm).2 hb hc)⟩
  · exact ⟨(hN hm).1, fun _ _ hb hc => .inr ((hN hm).2 hb hc)⟩

theorem Fades.takeWhile {c c' : List Char} (h : Fades q c c') :
    ∀ d ∈ c'.takeWhile q, d ∈ c.takeWhile q := by
  obtain ⟨u, w, w', rfl, rfl, hw⟩ := h
  induction u with
  | nil =>
    cases w' with
    | nil => simp
    | cons e w' => simp_all
  | cons e u ih =>
    intro d hd
    rw [List.cons_append, List.takeWhile_cons] at hd ⊢
    cases he : q e with
    | false =>
      rw [he, if_neg Bool.false_ne_true] at hd
      cases hd
    | true =>
      rw [he, if_pos rfl] at hd
      rw [if_pos rfl]
      rcases List.mem_cons.mp hd with rfl | hd
      · exact List.mem_cons_self
      · exact List.mem_cons_of_mem _ (ih d hd)

end Occurrences

namespace Pattern

def contextFree : Pattern → Bool
  | seq a b | alt a b => a.contextFree && b.contextFree
  | group _ a => a.contextFree
  | start | stop | boundary => false
  | _ => true

def consumes : Pattern → Bool
  | char _ => true
  | seq a b => a.consumes || b.consumes
  | alt a b => a.consumes && b.consumes
  | group _ a => a.consumes
  | _ => false

variable {a b : Pattern} {q : Char → Bool} {before before' after after' t : List Char}
variable {g : List (ℕ × List Char)}

theorem Way.of_contextFree (ha : a.contextFree = true) (h : a.Way before t after g)
    (before' after' : List Char) : a.Way before' t after' g := by
  induction a generalizing before t after g before' after' with
  | empty => exact h
  | char p => exact h
  | seq a b iha ihb =>
    rw [contextFree, Bool.and_eq_true] at ha
    obtain ⟨t₁, t₂, g₁, g₂, rfl, rfl, h₁, h₂⟩ := h
    exact ⟨t₁, t₂, g₁, g₂, rfl, rfl, iha ha.1 h₁ _ _, ihb ha.2 h₂ _ _⟩
  | alt a b iha ihb =>
    rw [contextFree, Bool.and_eq_true] at ha
    exact h.imp (fun h => iha ha.1 h _ _) fun h => ihb ha.2 h _ _
  | star greedy p => exact h
  | group n a ih =>
    obtain ⟨g₁, hg, h⟩ := h
    exact ⟨g₁, hg, ih ha h _ _⟩
  | start => cases ha
  | stop => cases ha
  | boundary => cases ha

theorem Way.ne_nil (ha : a.consumes = true) (h : a.Way before t after g) : t ≠ [] := by
  induction a generalizing before t after g with
  | char p =>
    obtain ⟨⟨c, -, rfl⟩, -⟩ := h
    exact List.cons_ne_nil _ _
  | seq a b iha ihb =>
    rw [consumes, Bool.or_eq_true] at ha
    obtain ⟨t₁, t₂, g₁, g₂, rfl, rfl, h₁, h₂⟩ := h
    rcases ha with ha | ha
    · exact List.append_ne_nil_of_left_ne_nil (iha ha h₁) _
    · exact List.append_ne_nil_of_right_ne_nil _ (ihb ha h₂)
  | alt a b iha ihb =>
    rw [consumes, Bool.and_eq_true] at ha
    rcases h with h | h
    · exact iha ha.1 h
    · exact ihb ha.2 h
  | group n a ih =>
    obtain ⟨g₁, -, h⟩ := h
    exact ih ha h
  | _ => cases ha

theorem way_oneOf {as : List Pattern} :
    (oneOf as).Way before t after g ↔ ∃ a ∈ as, a.Way before t after g := by
  induction as with
  | nil => simp [oneOf, Way]
  | cons a as ih =>
    cases as with
    | nil => simp [oneOf]
    | cons b as => simp [oneOf, Way, ih]

theorem begins_oneOf {as : List Pattern} (h : ∀ a ∈ as, a.Begins q) : (oneOf as).Begins q := by
  intro before t after g hway
  obtain ⟨a, ha, hway⟩ := way_oneOf.mp hway
  exact h a ha _ _ _ _ hway

theorem sturdy_oneOf {as : List Pattern} (h : ∀ a ∈ as, Sturdy a.Matches q) :
    Sturdy (oneOf as).Matches q := by
  rintro before t after ⟨g, hway⟩
  obtain ⟨a, ha, hway⟩ := way_oneOf.mp hway
  obtain ⟨hne, hstays⟩ := h a ha ⟨g, hway⟩
  refine ⟨hne, fun _ _ hb hc => ?_⟩
  obtain ⟨g', hway'⟩ := hstays hb hc
  exact ⟨g', way_oneOf.mpr ⟨a, ha, hway'⟩⟩

theorem sturdy_of_contextFree (ha : a.contextFree = true) (hne : a.consumes = true) :
    Sturdy a.Matches q := by
  rintro before t after ⟨g, hway⟩
  exact ⟨hway.ne_nil hne, fun _ _ _ _ => ⟨g, hway.of_contextFree ha _ _⟩⟩

theorem atBoundary_iff_of_word {d : Char} (hd : isWordChar d = true) (before u : List Char) :
    atBoundary ⟨before, d :: u, []⟩ = true ↔ before.head?.any isWordChar = false := by
  simp [atBoundary, hd]

theorem sturdy_boundary_seq (ha : a.contextFree = true) (hword : a.Begins isWordChar) :
    Sturdy (seq boundary a).Matches q := by
  rintro before t after ⟨g, t₁, t₂, g₁, g₂, rfl, rfl, ⟨rfl, hat, rfl⟩, hway⟩
  obtain ⟨d, hd, hd'⟩ := hword _ _ _ _ hway
  obtain ⟨u, rfl⟩ : ∃ u, t₂ = d :: u := ⟨_, List.eq_cons_of_mem_head? hd⟩
  refine ⟨List.cons_ne_nil _ _, fun b' c' hb _ => ⟨_, [], d :: u, [], g₂, rfl, rfl,
    ⟨rfl, ?_, rfl⟩, hway.of_contextFree ha _ _⟩⟩
  exact (atBoundary_iff_of_word hd' b' (u ++ c')).mpr
    (hb (by simpa using hd') ((atBoundary_iff_of_word hd' before (u ++ after)).mp hat))

theorem sturdy_seq_boundary (hq : ∀ c, isWordChar c = true → q c = true)
    (ha : a.contextFree = true) (hword : a.Ends isWordChar) :
    Sturdy (seq a boundary).Matches q := by
  rintro before t after ⟨g, t₁, t₂, g₁, g₂, rfl, rfl, hway, rfl, hat, rfl⟩
  obtain ⟨d, hd, hd'⟩ := hword _ _ _ _ hway
  have hlast : t₁.reverse.head? = some d := by rw [List.head?_reverse, hd]
  have hne : t₁ ≠ [] := by
    rintro rfl
    cases hd
  have hat' (b c : List Char) : atBoundary ⟨t₁.reverse ++ b, c, []⟩ = true ↔
      c.head?.any isWordChar = false := by
    simp [atBoundary, List.head?_append, hlast, hd']
  refine ⟨by simpa using hne, fun b' c' _ hc => ⟨_, t₁, [], g₁, [], rfl, rfl,
    hway.of_contextFree ha _ _, rfl, (hat' b' c').mpr (hc.head hq ((hat' before after).mp hat)),
    rfl⟩⟩

theorem matches_of_run {s : List Char} (h : (a.run ⟨before, s, []⟩).head?.isSome = true) :
    ∃ m c, s = m ++ c ∧ a.Matches before m c := by
  obtain ⟨r, hr⟩ := Option.isSome_iff_exists.mp h
  obtain ⟨t, g, hrest, -, -, hway⟩ := mem_run_iff.mp (List.mem_of_head? hr)
  exact ⟨t, r.rest, hrest, g, hway⟩

theorem matches_of_execFrom {s : List Char} (h : (a.execFrom before s).isSome = true) :
    ∃ b m c, s = b ++ (m ++ c) ∧ a.Matches (b.reverse ++ before) m c := by
  induction s generalizing before with
  | nil =>
    obtain ⟨m, c, hs, hm⟩ := matches_of_run h
    exact ⟨[], m, c, hs, hm⟩
  | cons d s ih =>
    rw [execFrom, Option.isSome_or, Bool.or_eq_true] at h
    rcases h with h | h
    · obtain ⟨m, c, hs, hm⟩ := matches_of_run h
      exact ⟨[], m, c, hs, hm⟩
    · obtain ⟨b, m, c, rfl, hm⟩ := ih h
      exact ⟨d :: b, m, c, rfl, by rwa [List.reverse_cons, List.append_assoc]⟩

/-- A pattern is found in a text if and only if one of its matches stands there. -/
theorem test_iff_occurs {s : List Char} : a.test s = true ↔ Occurs a.Matches s := by
  constructor
  · intro h
    obtain ⟨b, m, c, hs, hm⟩ := matches_of_execFrom h
    exact ⟨b, m, c, hs, by rwa [List.append_nil] at hm⟩
  · rintro ⟨b, m, c, rfl, g, hway⟩
    exact test_of_way hway

theorem splits_cons {P : List Char → List Char → Prop} {e : Char} {s : List Char} :
    (∃ b c, e :: s = b ++ c ∧ P (b.reverse ++ before) c) ↔
      P before (e :: s) ∨ ∃ b c, s = b ++ c ∧ P (b.reverse ++ e :: before) c := by
  constructor
  · rintro ⟨b, c, hs, h⟩
    cases b with
    | nil =>
      rw [List.nil_append] at hs
      exact .inl (by rw [hs]; exact h)
    | cons f b =>
      obtain ⟨rfl, rfl⟩ := List.cons.inj hs
      exact .inr ⟨b, c, rfl, by rwa [List.reverse_cons, List.append_assoc] at h⟩
  · rintro (h | ⟨b, c, rfl, h⟩)
    · exact ⟨[], e :: s, rfl, h⟩
    · exact ⟨e :: b, c, rfl, by rwa [List.reverse_cons, List.append_assoc]⟩

theorem head?_unrepeated {d : Char} (ha : ∀ b t c g, a.Way b t c g → ∃ u, t = d :: u ∧ d ∉ u)
    {c : List Char} {r : Reading} (h : (a.run ⟨before, c, []⟩).head? = some r) :
    ∃ u, c = d :: (u ++ r.rest) ∧ d ∉ u ∧ r.before.length-(before.length+1) = u.length := by
  obtain ⟨t, g, hrest, hbefore, -, hway⟩ := mem_run_iff.mp (List.mem_of_head? h)
  obtain ⟨u, rfl, hu⟩ := ha _ _ _ _ hway
  refine ⟨u, hrest, hu, ?_⟩
  simp only [hbefore, List.length_append, List.length_reverse, List.length_cons]
  omega

/-- In the rest of a match its first character does not stand again, and no match begins there. -/
theorem mem_matchesFrom_iff {d : Char}
    (ha : ∀ b t c g, a.Way b t c g → ∃ u, t = d :: u ∧ d ∉ u) {s : List Char} {r : Reading}
    {skip : ℕ} (hskip : d ∉ s.take skip) :
    r ∈ matchesFrom a skip before s ↔
      ∃ b c, s = b ++ c ∧ (a.run ⟨b.reverse ++ before, c, []⟩).head? = some r := by
  induction s generalizing skip before with
  | nil =>
    have hnone : ¬∃ b c, [] = b ++ c ∧ (a.run ⟨b.reverse ++ before, c, []⟩).head? = some r := by
      rintro ⟨b, c, hs, h⟩
      obtain ⟨u, rfl, -⟩ := head?_unrepeated ha h
      simp at hs
    cases skip <;> simpa [matchesFrom] using hnone
  | cons e s ih =>
    rw [splits_cons (P := fun before c => (a.run ⟨before, c, []⟩).head? = some r)]
    cases skip with
    | succ skip =>
      rw [List.take_succ_cons, List.mem_cons, not_or] at hskip
      rw [matchesFrom, ih hskip.2, or_iff_right]
      intro h
      obtain ⟨u, hs, -⟩ := head?_unrepeated ha h
      exact hskip.1 (List.cons.inj hs).1.symm
    | zero =>
      rw [matchesFrom]
      cases hrun : (a.run ⟨before, e :: s, []⟩).head? with
      | none =>
        have hstart : d ∉ s.take 0 := by simp
        simp only [ih hstart, reduceCtorEq, false_or]
      | some r' =>
        obtain ⟨u, hs, hu, hlength⟩ := head?_unrepeated ha hrun
        have hnone : d ∉ s.take u.length := by rwa [(List.cons.inj hs).2, List.take_left]
        simp only [hlength, List.mem_cons, ih hnone, Option.some.injEq, eq_comm]

/-- Of matches that begin with a character that they do not have again, none is passed over. -/
theorem mem_matchAll_iff {d : Char}
    (ha : ∀ b t c g, a.Way b t c g → ∃ u, t = d :: u ∧ d ∉ u) {s : List Char} {r : Reading} :
    r ∈ matchAll a s ↔ ∃ b c, s = b ++ c ∧ (a.run ⟨b.reverse, c, []⟩).head? = some r := by
  have hstart : d ∉ s.take 0 := by simp
  have h : r ∈ matchesFrom a 0 [] s ↔ _ := mem_matchesFrom_iff ha hstart
  simpa [matchAll] using h

end Pattern

end Cinder.Ecma
