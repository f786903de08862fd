import Mathlib.Data.Rat.Floor
import Mathlib.Tactic.Linarith
set_option autoImplicit false

namespace Cinder.Reviews

/-- Nanoseconds since the epoch. -/
abbrev Instant := Int

def seconds (n : Int) : Int := n*1000000000

def minutes (n : Int) : Int := seconds (60*n)

inductive Grade where
  | again
  | hard
  | good
  | easy
  deriving DecidableEq, Repr

structure ReviewState where
  due : Instant
  /-- The current interval in days. -/
  stability : ℚ
  /-- The ease factor. -/
  difficulty : ℚ
  reps : Int
  lapses : Int
  lastReview : Option Instant
  deriving DecidableEq, Repr

def initialEase : ℚ := 5/2
def minEase : ℚ := 13/10
def relearnMinutes : Int := 10
def maxIntervalDays : ℚ := 365

/-- To the nearest whole number, and away from zero in the middle of two. -/
def roundAway (q : ℚ) : Int := if q < 0 then -⌊-q+1/2⌋ else ⌊q+1/2⌋

namespace ReviewState

def new (now : Instant) : ReviewState where
  due := now
  stability := 0
  difficulty := initialEase
  reps := 0
  lapses := 0
  lastReview := none

/-- The ease after a grade that is not `again`. -/
def eased (s : ReviewState) : Grade → ℚ
  | .hard => max (s.difficulty-15/100) minEase
  | .easy => s.difficulty+15/100
  | _ => s.difficulty

def multiplier (s : ReviewState) : Grade → ℚ
  | .hard => 12/10
  | .easy => s.eased .easy*(13/10)
  | g => s.eased g

/-- The interval in days after a grade that is not `again`. -/
def interval (s : ReviewState) (g : Grade) : ℚ :=
  min (if s.reps+1 = 1 then 1 else if s.reps+1 = 2 then 6 else s.stability*s.multiplier g)
    maxIntervalDays

def grade (s : ReviewState) (g : Grade) (now : Instant) : ReviewState :=
  if g = .again then
    { due := now+minutes relearnMinutes
      stability := 0
      difficulty := max (s.difficulty-20/100) minEase
      reps := 0
      lapses := s.lapses+1
      lastReview := some now }
  else
    { due := now+seconds (roundAway (s.interval g*86400))
      stability := s.interval g
      difficulty := s.eased g
      reps := s.reps+1
      lapses := s.lapses
      lastReview := some now }

def graded (s : ReviewState) (history : List (Grade × Instant)) : ReviewState :=
  history.foldl (fun s call => s.grade call.1 call.2) s

theorem graded_concat (s : ReviewState) (l : List (Grade × Instant)) (call : Grade × Instant) :
    s.graded (l ++ [call]) = (s.graded l).grade call.1 call.2 := by
  simp [graded]

section Grades
variable (s : ReviewState) {g : Grade} (now : Instant)

theorem grade_again : s.grade .again now =
    { due := now+minutes relearnMinutes
      stability := 0
      difficulty := max (s.difficulty-20/100) minEase
      reps := 0
      lapses := s.lapses+1
      lastReview := some now } := if_pos rfl

theorem grade_of_ne (hg : g ≠ .again) : s.grade g now =
    { due := now+seconds (roundAway (s.interval g*86400))
      stability := s.interval g
      difficulty := s.eased g
      reps := s.reps+1
      lapses := s.lapses
      lastReview := some now } := if_neg hg

@[simp] theorem lastReview_grade : (s.grade g now).lastReview = some now := by
  unfold grade
  split <;> rfl

end Grades

theorem roundAway_of_nonneg {q : ℚ} (h : 0 ≤ q) : roundAway q = ⌊q+1/2⌋ := if_neg h.not_gt

theorem roundAway_mono {p q : ℚ} (hp : 0 ≤ p) (h : p ≤ q) : roundAway p ≤ roundAway q := by
  rw [roundAway_of_nonneg hp, roundAway_of_nonneg (hp.trans h)]
  exact Int.floor_le_floor (by linarith)

theorem interval_le_cap (s : ReviewState) (g : Grade) : s.interval g ≤ maxIntervalDays :=
  min_le_right _ _

theorem interval_first {s : ReviewState} (hr : s.reps+1 = 1) (g : Grade) : s.interval g = 1 := by
  rw [interval, if_pos hr]
  norm_num [maxIntervalDays]

/-- What every history keeps. A card has the interval zero until it is passed, one day after it
is passed for the first time since it lapsed, and one day or more from then on. -/
structure Sound (s : ReviewState) : Prop where
  ease : minEase ≤ s.difficulty
  reps : 0 ≤ s.reps
  fresh : s.reps = 0 → s.stability = 0
  first : s.reps = 1 → s.stability = 1
  passed : 0 < s.reps → 1 ≤ s.stability
  capped : s.stability ≤ maxIntervalDays

theorem sound_new (now : Instant) : (new now).Sound where
  ease := by norm_num [new, initialEase, minEase]
  reps := le_refl 0
  fresh _ := rfl
  first h := by simp [new] at h
  passed h := absurd h (lt_irrefl 0)
  capped := by norm_num [new, maxIntervalDays]

namespace Sound
variable {s : ReviewState} (hs : s.Sound)
include hs

theorem minEase_le_eased (g : Grade) : minEase ≤ s.eased g := by
  have h := hs.ease
  cases g with
  | hard => exact le_max_right _ _
  | easy => simp only [eased]; linarith
  | again | good => exact h

theorem stability_nonneg : 0 ≤ s.stability := by
  rcases hs.reps.eq_or_lt with hr | hr
  · exact (hs.fresh hr.symm).ge
  · exact zero_le_one.trans (hs.passed hr)

theorem one_le_multiplier (g : Grade) : 1 ≤ s.multiplier g := by
  have h := hs.minEase_le_eased g
  cases g <;> simp only [multiplier, minEase] at h ⊢ <;> linarith

theorem stability_le_multiplied (g : Grade) : s.stability ≤ s.stability*s.multiplier g :=
  le_mul_of_one_le_right hs.stability_nonneg (hs.one_le_multiplier g)

theorem stability_le_interval (g : Grade) : s.stability ≤ s.interval g := by
  refine le_min ?_ hs.capped
  split
  next hr => rw [hs.fresh (by omega)]; exact zero_le_one
  next =>
    split
    next hr => rw [hs.first (by omega)]; norm_num
    next => exact hs.stability_le_multiplied g

theorem one_le_interval (g : Grade) : 1 ≤ s.interval g := by
  refine le_min ?_ (by norm_num [maxIntervalDays])
  split
  next => exact le_refl 1
  next hr =>
    have hpassed : 1 ≤ s.stability := hs.passed (by have := hs.reps; omega)
    split
    next => norm_num
    next => exact hpassed.trans (hs.stability_le_multiplied g)

theorem grade (g : Grade) (now : Instant) : (s.grade g now).Sound := by
  by_cases hg : g = .again
  · subst hg
    rw [grade_again]
    exact
      { ease := le_max_right _ _
        reps := le_refl 0
        fresh := fun _ => rfl
        first := fun h => absurd h zero_ne_one
        passed := fun h => absurd h (lt_irrefl 0)
        capped := by norm_num [maxIntervalDays] }
  · have hreps := hs.reps
    rw [grade_of_ne s now hg]
    exact
      { ease := hs.minEase_le_eased g
        reps := by simp only; omega
        fresh := fun h => by simp only at h; omega
        first := fun h => interval_first h g
        passed := fun _ => hs.one_le_interval g
        capped := interval_le_cap s g }

theorem graded (l : List (Grade × Instant)) : (s.graded l).Sound := by
  induction l generalizing s with
  | nil => exact hs
  | cons call l ih => exact ih (hs.grade call.1 call.2)

theorem stability_pos {g : Grade} (hg : g ≠ .again) (now : Instant) :
    0 < (s.grade g now).stability := by
  rw [grade_of_ne s now hg]
  exact zero_lt_one.trans_le (hs.one_le_interval g)

theorem stability_le_grade {g : Grade} (hg : g ≠ .again) (now : Instant) :
    s.stability ≤ (s.grade g now).stability := by
  rw [grade_of_ne s now hg]
  exact hs.stability_le_interval g

theorem stability_le_graded (l : List (Grade × Instant)) (hl : ∀ call ∈ l, call.1 ≠ .again) :
    s.stability ≤ (s.graded l).stability := by
  induction l generalizing s with
  | nil => exact le_refl _
  | cons call l ih =>
    calc s.stability
      _ ≤ (s.grade call.1 call.2).stability := hs.stability_le_grade (hl call (by simp)) _
      _ ≤ ((s.grade call.1 call.2).graded l).stability :=
          ih (hs.grade call.1 call.2) fun c hc => hl c (by simp [hc])

/-- An interval of a day or more is a positive number of seconds, also after rounding. -/
theorem now_lt_due (g : Grade) (now : Instant) : now < (s.grade g now).due := by
  by_cases hg : g = .again
  · subst hg
    have hpos : 0 < minutes relearnMinutes := by decide
    rw [grade_again]
    exact lt_add_of_pos_right now hpos
  · have hday := hs.one_le_interval g
    have hround : 1 ≤ roundAway (s.interval g*86400) := by
      rw [roundAway_of_nonneg (by linarith), Int.le_floor]
      push_cast
      linarith
    have hpos : 0 < seconds (roundAway (s.interval g*86400)) := by
      unfold seconds
      omega
    rw [grade_of_ne s now hg]
    exact lt_add_of_pos_right now hpos

theorem hard_le_good : s.interval .hard ≤ s.interval .good := by
  have hmul : s.stability*s.multiplier .hard ≤ s.stability*s.multiplier .good := by
    refine mul_le_mul_of_nonneg_left ?_ hs.stability_nonneg
    have h := hs.ease
    simp only [multiplier, eased, minEase] at h ⊢
    linarith
  unfold interval
  gcongr
  split_ifs <;> first | exact le_refl _ | exact hmul

theorem good_le_easy : s.interval .good ≤ s.interval .easy := by
  have hmul : s.stability*s.multiplier .good ≤ s.stability*s.multiplier .easy := by
    refine mul_le_mul_of_nonneg_left ?_ hs.stability_nonneg
    have h := hs.ease
    simp only [multiplier, eased, minEase] at h ⊢
    linarith
  unfold interval
  gcongr
  split_ifs <;> first | exact le_refl _ | exact hmul

theorem due_le_due {g g' : Grade} (hg : g ≠ .again) (hg' : g' ≠ .again)
    (h : s.interval g ≤ s.interval g') (now : Instant) :
    (s.grade g now).due ≤ (s.grade g' now).due := by
  have hday := hs.one_le_interval g
  have hround := roundAway_mono (p := s.interval g*86400) (q := s.interval g'*86400)
    (by linarith) (by linarith)
  have hseconds : seconds (roundAway (s.interval g*86400)) ≤
      seconds (roundAway (s.interval g'*86400)) := by
    unfold seconds
    omega
  rw [grade_of_ne s now hg, grade_of_ne s now hg']
  exact Int.add_le_add_left hseconds now

end Sound

/-- The ranges and the orderings that a state of a card is to have. -/
structure InRange (s : ReviewState) : Prop where
  ease : minEase ≤ s.difficulty
  interval : 0 ≤ s.stability ∧ s.stability ≤ maxIntervalDays
  passed : ∀ g now, g ≠ .again → 0 < (s.grade g now).stability
  grows : ∀ l : List (Grade × Instant), (∀ call ∈ l, call.1 ≠ .again) →
    s.stability ≤ (s.graded l).stability
  later : ∀ now, s.lastReview = some now → now < s.due
  ordered : ∀ now, (s.grade .hard now).due ≤ (s.grade .good now).due ∧
    (s.grade .good now).due ≤ (s.grade .easy now).due

theorem lastReview_lt_due (start : Instant) (l : List (Grade × Instant)) (now : Instant)
    (h : ((new start).graded l).lastReview = some now) : now < ((new start).graded l).due := by
  rcases List.eq_nil_or_concat' l with rfl | ⟨l', call, rfl⟩
  · simp [graded, new] at h
  · rw [graded_concat, lastReview_grade, Option.some.injEq] at h
    rw [graded_concat, ← h]
    exact ((sound_new start).graded l').now_lt_due call.1 call.2

/-- Whatever grades a card is given, and at whatever times, it stays in range. -/
theorem scheduler_in_range (start : Instant) (history : List (Grade × Instant)) :
    ((new start).graded history).InRange := by
  have hs : ((new start).graded history).Sound := (sound_new start).graded history
  exact
    { ease := hs.ease
      interval := ⟨hs.stability_nonneg, hs.capped⟩
      passed := fun _ now hg => hs.stability_pos hg now
      grows := hs.stability_le_graded
      later := lastReview_lt_due start history
      ordered := fun now =>
        ⟨hs.due_le_due (by decide) (by decide) hs.hard_le_good now,
          hs.due_le_due (by decide) (by decide) hs.good_le_easy now⟩ }

end ReviewState

def Grade.rank : Grade → Nat
  | .again => 0
  | .hard => 1
  | .good => 2
  | .easy => 3

def NoWorse (l l' : List (Grade × Instant)) : Prop :=
  List.Forall₂ (fun call call' => call.1.rank ≤ call'.1.rank ∧ call.2 = call'.2) l l'

namespace ReviewState
section Behind
variable {s t : ReviewState} {g g' : Grade}

/-- One state of a card is behind another: the card comes back no later, and nothing that its next
intervals are computed from is larger. -/
structure Behind (s t : ReviewState) : Prop where
  reps : s.reps ≤ t.reps
  ease : s.difficulty ≤ t.difficulty
  stability : s.stability ≤ t.stability
  lapses : t.lapses ≤ s.lapses
  due : s.due ≤ t.due

def PastSteps (s : ReviewState) : Prop := 2 ≤ s.reps → 6 ≤ s.stability

theorem six_le_interval (hs : s.Sound) (hpast : s.PastSteps) (hr : 1 ≤ s.reps) (g : Grade) :
    6 ≤ s.interval g := by
  have hcap : (6 : ℚ) ≤ maxIntervalDays := by norm_num [maxIntervalDays]
  have hfirst : ¬s.reps+1 = 1 := by omega
  rw [interval, if_neg hfirst]
  apply le_min _ hcap
  split
  · exact le_refl 6
  · have hsix : 6 ≤ s.stability := hpast (by omega)
    exact hsix.trans (hs.stability_le_multiplied g)

theorem PastSteps.grade (hs : s.Sound) (hpast : s.PastSteps) (g : Grade) (now : Instant) :
    (s.grade g now).PastSteps := by
  intro hr
  by_cases hg : g = .again
  · subst hg
    simp [grade_again] at hr
  · rw [grade_of_ne s now hg] at hr ⊢
    have hreps : 1 ≤ s.reps := by simp only at hr; omega
    exact six_le_interval hs hpast hreps g

namespace Behind

theorem eased (h : Behind s t) (hs : s.Sound) (ht : t.Sound) (hg : g ≠ .again)
    (hrank : g.rank ≤ g'.rank) : s.eased g ≤ t.eased g' := by
  have hease := h.ease
  have hmin := hs.ease
  have hmin' := ht.ease
  cases g <;> cases g' <;> simp [Grade.rank] at hrank hg <;> simp only [ReviewState.eased]
  case hard.hard => exact max_le_max (by linarith) (le_refl _)
  all_goals first | linarith | exact max_le (by linarith) (by linarith)

theorem multiplier (h : Behind s t) (ht : t.Sound) (hg : g ≠ .again)
    (hrank : g.rank ≤ g'.rank) : s.multiplier g ≤ t.multiplier g' := by
  have hease := h.ease
  have hmin := ht.ease
  cases g <;> cases g' <;> simp [Grade.rank] at hrank hg <;>
    simp only [ReviewState.multiplier, ReviewState.eased, minEase] at hmin ⊢ <;> linarith

/-- The next interval, also where the better card is at a later one of the fixed first steps. -/
theorem interval_le (h : Behind s t) (hs : s.Sound) (ht : t.Sound) (hpast : t.PastSteps)
    (hg : g ≠ .again) (hrank : g.rank ≤ g'.rank) : s.interval g ≤ t.interval g' := by
  have hreps := h.reps
  have hnonneg := hs.reps
  by_cases hfirst : s.reps = 0
  · have hone : s.interval g = 1 := interval_first (by omega) g
    rw [hone]
    exact ht.one_le_interval g'
  by_cases hsecond : s.reps = 1
  · have hsix : 6 ≤ t.interval g' := six_le_interval ht hpast (by omega) g'
    have hthis : s.interval g ≤ 6 := by
      rw [ReviewState.interval, if_neg (by omega), if_pos (by omega)]
      exact min_le_left _ _
    exact hthis.trans hsix
  have hmul : s.stability*s.multiplier g ≤ t.stability*t.multiplier g' :=
    mul_le_mul h.stability (h.multiplier ht hg hrank)
      (zero_le_one.trans (hs.one_le_multiplier g)) ht.stability_nonneg
  rw [ReviewState.interval, ReviewState.interval, if_neg (by omega), if_neg (by omega), if_neg (by omega),
    if_neg (by omega)]
  exact min_le_min_right _ hmul

theorem grade (h : Behind s t) (hs : s.Sound) (ht : t.Sound) (hpast : t.PastSteps)
    (hrank : g.rank ≤ g'.rank) (now : Instant) : Behind (s.grade g now) (t.grade g' now) := by
  have ht' := ht.grade g' now
  have hlapses := h.lapses
  by_cases hg : g = .again
  · subst hg
    have hday := ht.one_le_interval g'
    have hstability := ht'.stability_nonneg
    have hreps := ht'.reps
    have hease : max (s.difficulty-20/100) minEase ≤ (t.grade g' now).difficulty := by
      have h₁ := h.ease
      have h₂ := hs.ease
      have h₃ := ht'.ease
      apply max_le _ h₃
      by_cases hg' : g' = .again
      · rw [hg', grade_again]
        exact le_max_of_le_left (by linarith)
      · rw [grade_of_ne t now hg']
        cases g' <;> simp only [ReviewState.eased]
        case hard => exact le_max_of_le_left (by linarith)
        all_goals linarith
    have hlapses : (t.grade g' now).lapses ≤ s.lapses+1 := by
      have hbefore := h.lapses
      by_cases hg' : g' = .again
      · rw [hg', grade_again]
        exact Int.add_le_add_right hbefore 1
      · rw [grade_of_ne t now hg']
        simp only
        omega
    have hdue : now+minutes relearnMinutes ≤ (t.grade g' now).due := by
      by_cases hg' : g' = .again
      · rw [hg', grade_again]
      · have hround : 86400 ≤ roundAway (t.interval g'*86400) := by
          rw [roundAway_of_nonneg (by linarith), Int.le_floor]
          push_cast
          linarith
        have hseconds : minutes relearnMinutes ≤ seconds (roundAway (t.interval g'*86400)) := by
          simp only [minutes, seconds, relearnMinutes]
          omega
        rw [grade_of_ne t now hg']
        exact Int.add_le_add_left hseconds now
    rw [grade_again]
    exact ⟨hreps, hease, hstability, hlapses, hdue⟩
  · have hg' : g' ≠ .again := by
      intro hagain
      subst hagain
      cases g <;> simp [Grade.rank] at hrank hg
    have hinterval := h.interval_le hs ht hpast hg hrank
    have hday := hs.one_le_interval g
    have hround := roundAway_mono (p := s.interval g*86400) (q := t.interval g'*86400)
      (by linarith) (by linarith)
    have hseconds : seconds (roundAway (s.interval g*86400)) ≤
        seconds (roundAway (t.interval g'*86400)) := by
      unfold seconds
      omega
    rw [grade_of_ne s now hg, grade_of_ne t now hg']
    exact
      { reps := Int.add_le_add_right h.reps 1
        ease := h.eased hs ht hg hrank
        stability := hinterval
        lapses := hlapses
        due := Int.add_le_add_left hseconds now }

end Behind

/-- A review keeps what two states of a card are kept in, and so does a whole history. -/
theorem behind_graded {l l' : List (Grade × Instant)} (hl : NoWorse l l') (h : Behind s t)
    (hs : s.Sound) (ht : t.Sound) (hpast : t.PastSteps) :
    Behind (s.graded l) (t.graded l') := by
  induction hl generalizing s t with
  | nil => exact h
  | @cons call call' l l' hcall _ ih =>
    obtain ⟨hrank, hnow⟩ := hcall
    have hnext := h.grade hs ht hpast hrank call.2
    rw [hnow] at hnext
    have hs' := hs.grade call.1 call.2
    rw [hnow] at hs'
    have hstep := ih hnext hs' (ht.grade _ _) (hpast.grade ht _ _)
    simpa [graded, hnow] using hstep

end Behind

/-- Whoever answers the same reviews no worse sees the card again no sooner, and with an ease and
an interval that are no smaller. -/
theorem better_answers_never_come_back_sooner (start : Instant)
    {l l' : List (Grade × Instant)} (hl : NoWorse l l') :
    Behind ((new start).graded l) ((new start).graded l') := by
  have hsame : Behind (new start) (new start) :=
    ⟨le_refl _, le_refl _, le_refl _, le_refl _, le_refl _⟩
  have hpast : (new start).PastSteps := by
    intro hr
    simp [new] at hr
  exact behind_graded hl hsame (sound_new start) (sound_new start) hpast

theorem better_answers_never_come_back_sooner_sample :
    Behind ((new 0).graded [(.hard, 0), (.again, minutes 5)])
      ((new 0).graded [(.good, 0), (.hard, minutes 5)]) := by
  apply better_answers_never_come_back_sooner
  exact .cons ⟨by decide, rfl⟩ (.cons ⟨by decide, rfl⟩ .nil)

end ReviewState

end Cinder.Reviews
