import Cinder.Ecma.NumberTexts
set_option autoImplicit false

namespace Cinder.Ecma

/-- Only classes of characters are repeated. -/
inductive Pattern where
  | empty
  | char (p : Char → Bool)
  | seq (a b : Pattern)
  | alt (a b : Pattern)
  | star (greedy : Bool) (p : Char → Bool)
  | group (n : Nat) (a : Pattern)
  | start
  | stop
  | boundary

/-- Where a match has come to: the characters before, last first, those that follow, and the
texts of the groups, the latest first. -/
@[ext] structure Reading where
  before : List Char
  rest : List Char
  groups : List (Nat × List Char) := []
  deriving DecidableEq, Repr

namespace Reading

def text? (r : Reading) (n : Nat) : Option (List Char) :=
  (r.groups.find? fun g => g.1 = n).map (·.2)

def between (r r' : Reading) : List Char :=
  (r'.before.take (r'.before.length-r.before.length)).reverse

theorem between_of_before {r r' : Reading} {t : List Char} (h : r'.before = t.reverse ++ r.before) :
    r.between r' = t := by
  have hlength : r'.before.length-r.before.length = t.reverse.length := by
    rw [h, List.length_append]
    omega
  rw [between, hlength, h, List.take_left, List.reverse_reverse]

def behind (r : Reading) (n : Nat) (t u : List Char) : Reading :=
  ⟨t.reverse ++ r.before, u, (n, t) :: r.groups⟩

end Reading

/-- The prefixes whose characters all satisfy `p`, shortest first, with what follows each. -/
def splits (p : Char → Bool) : List Char → List (List Char × List Char)
  | [] => [([], [])]
  | c :: s => ([], c :: s) ::
      if p c then (splits p s).map fun q => (c :: q.1, q.2) else []

def isWordChar (c : Char) : Bool := c.isAlphanum || c = '_'

def atBoundary (r : Reading) : Bool :=
  (r.before.head?.any isWordChar) != (r.rest.head?.any isWordChar)

namespace Pattern

def run : Pattern → Reading → List Reading
  | empty, r => [r]
  | char p, r => match r.rest with
    | [] => []
    | c :: s => if p c then [{ r with before := c :: r.before, rest := s }] else []
  | seq a b, r => (a.run r).flatMap b.run
  | alt a b, r => a.run r ++ b.run r
  | star greedy p, r =>
    let ways := (splits p r.rest).map fun q =>
      { r with before := q.1.reverse ++ r.before, rest := q.2 }
    if greedy then ways.reverse else ways
  | group n a, r => (a.run r).map fun r' => { r' with groups := (n, r.between r') :: r'.groups }
  | start, r => if r.before = [] then [r] else []
  | stop, r => if r.rest = [] then [r] else []
  | boundary, r => if atBoundary r then [r] else []

def execFrom (a : Pattern) (before : List Char) : List Char → Option Reading
  | [] => (a.run ⟨before, [], []⟩).head?
  | c :: s => (a.run ⟨before, c :: s, []⟩).head?.or (a.execFrom (c :: before) s)

def exec (a : Pattern) (s : List Char) : Option Reading := a.execFrom [] s

/-- `?`. -/
def opt (a : Pattern) : Pattern := alt a empty

/-- `+`. -/
def plus (p : Char → Bool) : Pattern := seq (char p) (star true p)

def upTo : Nat → (Char → Bool) → Pattern
  | 0, _ => empty
  | n+1, p => opt (seq (char p) (upTo n p))

/-- `.`. -/
def isAny (c : Char) : Bool :=
  !(c = '\n' || c = '\r' || c.toNat = 0x2028 || c.toNat = 0x2029)

def isLetter (c d : Char) : Bool := d = c || d = c.toUpper

def word (s : List Char) : Pattern := s.foldr (fun c a => seq (char (isLetter c)) a) empty

def literal (s : List Char) : Pattern := s.foldr (fun c a => seq (char (· = c)) a) empty

def seqs (as : List Pattern) : Pattern := as.foldr seq empty

def oneUpTo (n : Nat) (p : Char → Bool) : Pattern := seq (char p) (upTo n p)

/-- `test`. -/
def test (a : Pattern) (s : List Char) : Bool := (a.exec s).isSome

/-- `^` and `$` around a pattern. -/
def whole (a : Pattern) : Pattern := seq start (seq a stop)

def oneOf (as : List Pattern) : Pattern :=
  match as with
  | [] => char fun _ => false
  | [a] => a
  | a :: b :: as => alt a (oneOf (b :: as))

variable {r r' : Reading}

theorem mem_splits {p : Char → Bool} {s : List Char} {q : List Char × List Char} :
    q ∈ splits p s ↔ s = q.1 ++ q.2 ∧ ∀ c ∈ q.1, p c = true := by
  induction s generalizing q with
  | nil =>
    rw [splits, List.mem_singleton]
    constructor
    · rintro rfl
      exact ⟨rfl, List.forall_mem_nil _⟩
    · rintro ⟨h, -⟩
      obtain ⟨hfirst, hsecond⟩ := List.append_eq_nil_iff.mp h.symm
      exact Prod.ext hfirst hsecond
  | cons c s ih =>
    obtain ⟨t, u⟩ := q
    rw [splits, List.mem_cons]
    constructor
    · rintro (h | h)
      · cases h
        exact ⟨rfl, List.forall_mem_nil _⟩
      · split at h
        · next hc =>
          obtain ⟨⟨t', u'⟩, hmem, heq⟩ := List.mem_map.mp h
          cases heq
          obtain ⟨rfl, hall⟩ := ih.mp hmem
          exact ⟨rfl, List.forall_mem_cons.mpr ⟨hc, hall⟩⟩
        · cases h
    · rintro ⟨hs, hall⟩
      cases t with
      | nil => exact .inl (by rw [hs]; rfl)
      | cons d t =>
        obtain ⟨rfl, hs⟩ := List.cons.inj hs
        rw [List.forall_mem_cons] at hall
        rw [if_pos hall.1]
        exact .inr (List.mem_map.mpr ⟨(t, u), ih.mpr ⟨hs, hall.2⟩, rfl⟩)

/-- Reads the text between two others, the one before it from its end, and matches the groups. -/
def Way : Pattern → (before text after : List Char) → (groups : List (Nat × List Char)) → Prop
  | empty, _, t, _, g => t = [] ∧ g = []
  | char p, _, t, _, g => (∃ c, p c = true ∧ t = [c]) ∧ g = []
  | seq a b, before, t, after, g => ∃ t₁ t₂ g₁ g₂, t = t₁ ++ t₂ ∧ g = g₂ ++ g₁ ∧
      a.Way before t₁ (t₂ ++ after) g₁ ∧ b.Way (t₁.reverse ++ before) t₂ after g₂
  | alt a b, before, t, after, g => a.Way before t after g ∨ b.Way before t after g
  | star _ p, _, t, _, g => (∀ c ∈ t, p c = true) ∧ g = []
  | group n a, before, t, after, g => ∃ g₁, g = (n, t) :: g₁ ∧ a.Way before t after g₁
  | start, before, t, _, g => t = [] ∧ before = [] ∧ g = []
  | stop, _, t, after, g => t = [] ∧ after = [] ∧ g = []
  | boundary, before, t, after, g => t = [] ∧ atBoundary ⟨before, after, []⟩ = true ∧ g = []

def Goes (a : Pattern) (r r' : Reading) : Prop :=
  ∃ t g, r.rest = t ++ r'.rest ∧ r'.before = t.reverse ++ r.before ∧ r'.groups = g ++ r.groups ∧
    a.Way r.before t r'.rest g

theorem goes_stay {a : Pattern} {P : Prop}
    (hway : ∀ t g, a.Way r.before t r'.rest g ↔ t = [] ∧ P ∧ g = []) :
    Goes a r r' ↔ r' = r ∧ P := by
  constructor
  · rintro ⟨t, g, hrest, hbefore, hgroups, hw⟩
    obtain ⟨rfl, hP, rfl⟩ := (hway t g).mp hw
    exact ⟨Reading.ext hbefore hrest.symm hgroups, hP⟩
  · rintro ⟨rfl, hP⟩
    exact ⟨[], [], rfl, rfl, rfl, (hway [] []).mpr ⟨rfl, hP, rfl⟩⟩

theorem mem_run_char {p : Char → Bool} : r' ∈ (char p).run r ↔ Goes (char p) r r' := by
  obtain ⟨before, rest, groups⟩ := r
  cases rest with
  | nil =>
    refine iff_of_false List.not_mem_nil ?_
    rintro ⟨t, g, hrest, -, -, ⟨c, -, rfl⟩, -⟩
    cases hrest
  | cons c s =>
    simp only [run]
    constructor
    · intro h
      split at h
      · next hc =>
        rw [List.mem_singleton.mp h]
        exact ⟨[c], [], rfl, rfl, rfl, ⟨c, hc, rfl⟩, rfl⟩
      · cases h
    · rintro ⟨t, g, hrest, hbefore, hgroups, ⟨d, hd, rfl⟩, rfl⟩
      obtain ⟨rfl, hs⟩ := List.cons.inj hrest
      rw [if_pos hd, List.mem_singleton]
      exact Reading.ext hbefore hs.symm hgroups

theorem mem_run_star {greedy : Bool} {p : Char → Bool} :
    r' ∈ (star greedy p).run r ↔ Goes (star greedy p) r r' := by
  have hway : r' ∈ (splits p r.rest).map (fun q =>
      ({ r with before := q.1.reverse ++ r.before, rest := q.2 } : Reading)) ↔
        Goes (star greedy p) r r' := by
    rw [List.mem_map]
    constructor
    · rintro ⟨q, hq, rfl⟩
      obtain ⟨hrest, hall⟩ := mem_splits.mp hq
      exact ⟨q.1, [], hrest, rfl, rfl, hall, rfl⟩
    · rintro ⟨t, g, hrest, hbefore, hgroups, hall, rfl⟩
      exact ⟨(t, r'.rest), mem_splits.mpr ⟨hrest, hall⟩, Reading.ext hbefore.symm rfl hgroups.symm⟩
  rw [← hway]
  cases greedy <;> simp [run]

theorem goes_seq {a b : Pattern} :
    Goes (seq a b) r r' ↔ ∃ r₁, Goes a r r₁ ∧ Goes b r₁ r' := by
  constructor
  · rintro ⟨t, g, hrest, hbefore, hgroups, t₁, t₂, g₁, g₂, rfl, rfl, ha, hb⟩
    refine ⟨⟨t₁.reverse ++ r.before, t₂ ++ r'.rest, g₁ ++ r.groups⟩,
      ⟨t₁, g₁, hrest.trans (List.append_assoc ..), rfl, rfl, ha⟩, t₂, g₂, rfl, ?_, ?_, hb⟩
    · rw [hbefore, List.reverse_append, List.append_assoc]
    · rw [hgroups, List.append_assoc]
  · rintro ⟨r₁, ⟨t₁, g₁, hrest₁, hbefore₁, hgroups₁, ha⟩, t₂, g₂, hrest₂, hbefore₂, hgroups₂, hb⟩
    refine ⟨t₁ ++ t₂, g₂ ++ g₁, ?_, ?_, ?_, t₁, t₂, g₁, g₂, rfl, rfl, ?_, ?_⟩
    · rw [hrest₁, hrest₂, List.append_assoc]
    · rw [hbefore₂, hbefore₁, List.reverse_append, List.append_assoc]
    · rw [hgroups₂, hgroups₁, List.append_assoc]
    · rw [← hrest₂]
      exact ha
    · rw [← hbefore₁]
      exact hb

theorem goes_alt {a b : Pattern} : Goes (alt a b) r r' ↔ Goes a r r' ∨ Goes b r r' := by
  simp only [Goes, Way, and_or_left, exists_or]

theorem goes_group {n : Nat} {a : Pattern} :
    Goes (group n a) r r' ↔
      ∃ r₁, Goes a r r₁ ∧ r' = { r₁ with groups := (n, r.between r₁) :: r₁.groups } := by
  constructor
  · rintro ⟨t, g, hrest, hbefore, hgroups, g₁, rfl, ha⟩
    have hbetween : r.between ⟨r'.before, r'.rest, g₁ ++ r.groups⟩ = t :=
      Reading.between_of_before hbefore
    refine ⟨⟨r'.before, r'.rest, g₁ ++ r.groups⟩, ⟨t, g₁, hrest, hbefore, rfl, ha⟩,
      Reading.ext rfl rfl ?_⟩
    rw [hgroups, hbetween, List.cons_append]
  · rintro ⟨r₁, ⟨t, g, hrest, hbefore, hgroups, ha⟩, rfl⟩
    refine ⟨t, (n, t) :: g, hrest, hbefore, ?_, g, rfl, ha⟩
    rw [Reading.between_of_before hbefore, hgroups, List.cons_append]

/-- What the matcher finds is what the pattern describes. -/
theorem mem_run_iff {a : Pattern} : r' ∈ a.run r ↔ Goes a r r' := by
  induction a generalizing r r' with
  | empty =>
    rw [goes_stay (P := True) fun t g => by simp [Way]]
    simp [run]
  | char p => exact mem_run_char
  | seq a b iha ihb => simp only [goes_seq, run, List.mem_flatMap, iha, ihb]
  | alt a b iha ihb => rw [goes_alt, ← iha, ← ihb, run, List.mem_append]
  | star greedy p => exact mem_run_star
  | group n a ih => simp only [goes_group, ← ih, run, List.mem_map, eq_comm]
  | start =>
    rw [goes_stay (P := r.before = []) fun t g => Iff.rfl]
    simp only [run]
    split <;> simp [*]
  | stop =>
    rw [run]
    constructor
    · intro h
      split at h
      · next hrest =>
        rw [List.mem_singleton.mp h]
        exact ⟨[], [], rfl, rfl, rfl, rfl, hrest, rfl⟩
      · cases h
    · rintro ⟨t, g, hrest, hbefore, hgroups, rfl, hafter, rfl⟩
      rw [hafter, List.append_nil] at hrest
      rw [if_pos hrest, List.mem_singleton]
      exact Reading.ext hbefore (hafter.trans hrest.symm) hgroups
  | boundary =>
    rw [run]
    constructor
    · intro h
      split at h
      · next hat =>
        rw [List.mem_singleton.mp h]
        exact ⟨[], [], rfl, rfl, rfl, rfl, hat, rfl⟩
      · cases h
    · rintro ⟨t, g, hrest, hbefore, hgroups, rfl, hat, rfl⟩
      have hat' : atBoundary r = true := by
        rw [List.nil_append] at hrest
        rw [← hat, ← hrest]
        rfl
      rw [if_pos hat', List.mem_singleton]
      exact Reading.ext hbefore hrest.symm hgroups

theorem way_upTo {n : Nat} {p : Char → Bool} {before t after : List Char}
    {g : List (Nat × List Char)} :
    (upTo n p).Way before t after g ↔ t.length ≤ n ∧ (∀ c ∈ t, p c = true) ∧ g = [] := by
  induction n generalizing before t after g with
  | zero =>
    rw [Nat.le_zero, List.length_eq_zero_iff]
    constructor
    · rintro ⟨rfl, hg⟩
      exact ⟨rfl, List.forall_mem_nil _, hg⟩
    · rintro ⟨ht, -, hg⟩
      exact ⟨ht, hg⟩
  | succ n ih =>
    constructor
    · rintro (⟨t₁, t₂, g₁, g₂, rfl, rfl, ⟨⟨c, hc, rfl⟩, rfl⟩, hrest⟩ | ⟨rfl, hg⟩)
      · obtain ⟨hlength, hall, rfl⟩ := ih.mp hrest
        exact ⟨Nat.succ_le_succ hlength, List.forall_mem_cons.mpr ⟨hc, hall⟩, rfl⟩
      · exact ⟨Nat.zero_le _, List.forall_mem_nil _, hg⟩
    · rintro ⟨hlength, hall, rfl⟩
      cases t with
      | nil => exact .inr ⟨rfl, rfl⟩
      | cons c t =>
        rw [List.forall_mem_cons] at hall
        exact .inl ⟨[c], t, [], [], rfl, rfl, ⟨⟨c, hall.1, rfl⟩, rfl⟩,
          ih.mpr ⟨Nat.le_of_succ_le_succ hlength, hall.2, rfl⟩⟩

theorem way_plus {p : Char → Bool} {before t after : List Char} {g : List (Nat × List Char)} :
    (plus p).Way before t after g ↔ t ≠ [] ∧ (∀ c ∈ t, p c = true) ∧ g = [] := by
  constructor
  · rintro ⟨t₁, t₂, g₁, g₂, rfl, rfl, ⟨⟨c, hc, rfl⟩, rfl⟩, hall, rfl⟩
    exact ⟨List.cons_ne_nil _ _, List.forall_mem_cons.mpr ⟨hc, hall⟩, rfl⟩
  · rintro ⟨hne, hall, rfl⟩
    obtain ⟨c, t, rfl⟩ := List.exists_cons_of_ne_nil hne
    rw [List.forall_mem_cons] at hall
    exact ⟨[c], t, [], [], rfl, rfl, ⟨⟨c, hall.1, rfl⟩, rfl⟩, hall.2, rfl⟩

theorem way_word {s before t after : List Char} {g : List (Nat × List Char)} :
    (word s).Way before t after g ↔ List.Forall₂ (fun c d => isLetter c d = true) s t ∧ g = [] := by
  induction s generalizing before t g with
  | nil => rw [List.forall₂_nil_left_iff]; rfl
  | cons c s ih =>
    constructor
    · rintro ⟨t₁, t₂, g₁, g₂, rfl, rfl, ⟨⟨d, hd, rfl⟩, rfl⟩, hrest⟩
      obtain ⟨hall, rfl⟩ := ih.mp hrest
      exact ⟨hall.cons hd, rfl⟩
    · rintro ⟨hall, rfl⟩
      obtain ⟨d, u, hd, hrest, rfl⟩ := List.forall₂_cons_left_iff.mp hall
      exact ⟨[d], u, [], [], rfl, rfl, ⟨⟨d, hd, rfl⟩, rfl⟩, ih.mpr ⟨hrest, rfl⟩⟩

theorem way_literal {s before t after : List Char} {g : List (Nat × List Char)} :
    (literal s).Way before t after g ↔ t = s ∧ g = [] := by
  induction s generalizing before t g with
  | nil => exact Iff.rfl
  | cons c s ih =>
    constructor
    · rintro ⟨t₁, t₂, g₁, g₂, rfl, rfl, ⟨⟨d, hd, rfl⟩, rfl⟩, hrest⟩
      obtain ⟨rfl, rfl⟩ := ih.mp hrest
      obtain rfl : d = c := of_decide_eq_true hd
      exact ⟨rfl, rfl⟩
    · rintro ⟨rfl, rfl⟩
      exact ⟨[c], s, [], [], rfl, rfl, ⟨⟨c, decide_eq_true rfl, rfl⟩, rfl⟩, ih.mpr ⟨rfl, rfl⟩⟩

theorem splits_append {p : Char → Bool} {t : List Char} (ht : ∀ c ∈ t, p c = true)
    (u : List Char) :
    ∃ earlier later, splits p (t ++ u) = earlier ++ (t, u) :: later ∧
      ∀ q ∈ earlier, ∃ v, v ≠ [] ∧ t = q.1 ++ v ∧ q.2 = v ++ u := by
  induction t with
  | nil =>
    cases u with
    | nil => exact ⟨[], [], rfl, List.forall_mem_nil _⟩
    | cons c u => exact ⟨[], _, rfl, List.forall_mem_nil _⟩
  | cons c t ih =>
    rw [List.forall_mem_cons] at ht
    obtain ⟨earlier, later, hsplits, hearlier⟩ := ih ht.2
    refine ⟨([], c :: (t ++ u)) :: earlier.map (fun q => (c :: q.1, q.2)),
      later.map fun q => (c :: q.1, q.2), ?_, ?_⟩
    · rw [List.cons_append, splits, if_pos ht.1, hsplits]
      simp
    · rw [List.forall_mem_cons, List.forall_mem_map]
      refine ⟨⟨c :: t, List.cons_ne_nil _ _, rfl, rfl⟩, fun q hq => ?_⟩
      obtain ⟨v, hv, ht', hu⟩ := hearlier q hq
      exact ⟨v, hv, congrArg (c :: ·) ht', hu⟩

theorem getLast?_splits (p : Char → Bool) (s : List Char) :
    (splits p s).getLast? = some (s.takeWhile p, s.dropWhile p) := by
  induction s with
  | nil => rfl
  | cons c s ih =>
    rw [splits, List.getLast?_cons]
    by_cases hc : p c = true <;> simp [hc, ih]

/-- The first way is the longest behind which there is one. -/
theorem head?_longest {p : Char → Bool} {t u : List Char} {f : List Char × List Char → List Reading}
    (ht : ∀ c ∈ t, p c = true)
    (hlonger : ∀ v w, v ≠ [] → u = v ++ w → (∀ c ∈ v, p c = true) → f (t ++ v, w) = [])
    (hsome : f (t, u) ≠ []) :
    ((splits p (t ++ u)).reverse.flatMap f).head? = (f (t, u)).head? := by
  induction t generalizing f with
  | nil =>
    have hnone : ∀ q ∈ splits p u, q.1 ≠ [] → f q = [] := by
      rintro ⟨v, w⟩ hq hv
      obtain ⟨hu, hall⟩ := mem_splits.mp hq
      exact hlonger v w hv hu hall
    rw [List.nil_append]
    cases u with
    | nil => simp [splits]
    | cons c u =>
      rw [splits] at hnone ⊢
      rw [List.forall_mem_cons] at hnone
      have hlater : (if p c then (splits p u).map fun q => (c :: q.1, q.2) else []).reverse.flatMap
          f = [] := by
        rw [List.flatMap_eq_nil_iff]
        intro q hq
        have hq := List.mem_reverse.mp hq
        refine hnone.2 q hq ?_
        split at hq
        · obtain ⟨q', -, rfl⟩ := List.mem_map.mp hq
          exact List.cons_ne_nil _ _
        · cases hq
      rw [List.reverse_cons, List.flatMap_append, hlater, List.flatMap_singleton, List.nil_append]
  | cons c t ih =>
    rw [List.forall_mem_cons] at ht
    have hrest := ih (f := fun q => f (c :: q.1, q.2)) ht.2 hlonger hsome
    have hne : ((splits p (t ++ u)).reverse.flatMap fun q => f (c :: q.1, q.2)) ≠ [] := by
      intro hnil
      rw [hnil] at hrest
      exact hsome (List.head?_eq_none_iff.mp hrest.symm)
    rw [List.cons_append, splits, if_pos ht.1, List.reverse_cons, List.flatMap_append,
      ← List.map_reverse, List.flatMap_map, List.head?_append_of_ne_nil _ hne, hrest]

theorem exec_start (a : Pattern) (s : List Char) :
    (seq start a).exec s = (a.run ⟨[], s, []⟩).head? := by
  have hlater : ∀ t c before, (seq start a).execFrom (c :: before) t = none := by
    intro t
    induction t with
    | nil => exact fun c before => rfl
    | cons d t ih =>
      intro c before
      rw [execFrom, ih]
      rfl
  have hfirst : (seq start a).run ⟨[], s, []⟩ = a.run ⟨[], s, []⟩ := List.append_nil _
  cases s with
  | nil => rw [exec, execFrom, hfirst]
  | cons c s => rw [exec, execFrom, hlater, hfirst, Option.or_none]

theorem goes_stop {a : Pattern} :
    Goes (seq a stop) r r' ↔ ∃ g, r' = ⟨r.rest.reverse ++ r.before, [], g ++ r.groups⟩ ∧
      a.Way r.before r.rest [] g := by
  constructor
  · rintro ⟨t, g, hrest, hbefore, hgroups, t₁, t₂, g₁, g₂, rfl, rfl, ha, rfl, hstop, rfl⟩
    simp only [hstop, List.append_nil, List.nil_append] at hrest hbefore hgroups ha
    rw [hrest]
    exact ⟨g₁, Reading.ext hbefore hstop hgroups, ha⟩
  · rintro ⟨g, rfl, ha⟩
    refine ⟨r.rest, g, (List.append_nil _).symm, rfl, rfl, r.rest, [], g, [], ?_, rfl, ha, rfl, rfl,
      rfl⟩
    exact (List.append_nil _).symm

theorem way_of_exec {a : Pattern} {s : List Char} (h : (whole a).exec s = some r) :
    a.Way [] s [] r.groups := by
  rw [whole, exec_start] at h
  obtain ⟨g, rfl, ha⟩ := goes_stop.mp (mem_run_iff.mp (List.mem_of_head? h))
  simpa using ha

theorem exec_of_way {a : Pattern} {s : List Char} {g : List (Nat × List Char)}
    (h : a.Way [] s [] g) : ∃ r, (whole a).exec s = some r := by
  have hmem := mem_run_iff.mpr (goes_stop.mpr ⟨g, rfl, h⟩ : Goes (seq a stop) ⟨[], s, []⟩ _)
  rw [whole, exec_start]
  exact Option.isSome_iff_exists.mp (List.isSome_head?.mpr (List.ne_nil_of_mem hmem))

theorem exec_whole_eq_none {a : Pattern} {s : List Char} :
    (whole a).exec s = none ↔ ∀ g, ¬a.Way [] s [] g := by
  constructor
  · intro h g hway
    obtain ⟨r, hr⟩ := exec_of_way hway
    rw [h] at hr
    cases hr
  · intro h
    rw [Option.eq_none_iff_forall_ne_some]
    exact fun r hr => h _ (way_of_exec hr)

theorem run_lazy (p : Char → Bool) (a : Pattern) (n : Nat) (r : Reading) :
    (seq (group n (star false p)) a).run r =
      (splits p r.rest).flatMap fun q => a.run (r.behind n q.1 q.2) := by
  simp only [run, Bool.false_eq_true, if_false, List.flatMap_map]
  refine congrArg (fun f => (splits p r.rest).flatMap f) (funext fun q => ?_)
  rw [Reading.between_of_before rfl]
  rfl

/-- A lazy group takes the shortest text behind which the rest matches. -/
theorem head?_lazy {p : Char → Bool} {a : Pattern} {n : Nat} {t u : List Char}
    (hrest : r.rest = t ++ u) (ht : ∀ c ∈ t, p c = true)
    (hearlier : ∀ t' v, v ≠ [] → t = t' ++ v → a.run (r.behind n t' (v ++ u)) = [])
    (hsome : a.run (r.behind n t u) ≠ []) :
    ((seq (group n (star false p)) a).run r).head? = (a.run (r.behind n t u)).head? := by
  obtain ⟨earlier, later, hsplits, hshorter⟩ := splits_append ht u
  have hnone : earlier.flatMap (fun q => a.run (r.behind n q.1 q.2)) = [] := by
    rw [List.flatMap_eq_nil_iff]
    intro q hq
    obtain ⟨v, hv, hq₁, hq₂⟩ := hshorter q hq
    rw [hq₂]
    exact hearlier q.1 v hv hq₁
  rw [run_lazy, hrest, hsplits, List.flatMap_append, hnone, List.nil_append, List.flatMap_cons,
    List.head?_append_of_ne_nil _ hsome]

/-- A lazy group at the start takes the shortest text behind which the rest matches. -/
theorem exec_lazy {p : Char → Bool} {a : Pattern} {n : Nat} {t u : List Char}
    (ht : ∀ c ∈ t, p c = true)
    (hearlier : ∀ t' v, v ≠ [] → t = t' ++ v → ∀ g, ¬a.Way t'.reverse (v ++ u) [] g)
    {g : List (Nat × List Char)} (h : a.Way t.reverse u [] g) :
    ∃ r g, (whole (seq (group n (star false p)) a)).exec (t ++ u) = some r ∧
      r.groups = g ++ [(n, t)] ∧ a.Way t.reverse u [] g := by
  have hassoc : (seq (seq (group n (star false p)) a) stop).run ⟨[], t ++ u, []⟩ =
      (seq (group n (star false p)) (seq a stop)).run ⟨[], t ++ u, []⟩ := by
    simp only [run, List.flatMap_assoc]
  have hnone : ∀ t' v, v ≠ [] → t = t' ++ v →
      (seq a stop).run (Reading.behind ⟨[], t ++ u, []⟩ n t' (v ++ u)) = [] := by
    intro t' v hv ht'
    rw [List.eq_nil_iff_forall_not_mem]
    intro r hr
    obtain ⟨g, -, hway⟩ := goes_stop.mp (mem_run_iff.mp hr)
    rw [Reading.behind, List.append_nil] at hway
    exact hearlier t' v hv ht' g hway
  have hsome : (seq a stop).run (Reading.behind ⟨[], t ++ u, []⟩ n t u) ≠ [] := by
    refine List.ne_nil_of_mem (mem_run_iff.mpr (goes_stop.mpr ⟨g, rfl, ?_⟩))
    rw [Reading.behind, List.append_nil]
    exact h
  obtain ⟨r, hr⟩ := Option.isSome_iff_exists.mp (List.isSome_head?.mpr hsome)
  obtain ⟨g', rfl, hway⟩ := goes_stop.mp (mem_run_iff.mp (List.mem_of_head? hr))
  rw [Reading.behind, List.append_nil] at hway
  refine ⟨⟨u.reverse ++ (t.reverse ++ []), [], g' ++ [(n, t)]⟩, g', ?_, rfl, hway⟩
  rw [whole, exec_start, hassoc, head?_lazy rfl ht hnone hsome, hr]
  rfl

end Pattern

end Cinder.Ecma
