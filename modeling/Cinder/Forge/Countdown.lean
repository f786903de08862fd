import Cinder.Forge.Workspaces
set_option autoImplicit false

/-!
The study timer: what its buttons and the clock do to it, and what is left of it when the app is
opened again from the text that is stored.
-/

namespace Cinder.Forge
open Cinder.Ecma Cinder.Worksheets

inductive CountdownStatus where
  | idle
  | running
  | paused
  | done
  deriving DecidableEq, Repr

def CountdownStatus.text : CountdownStatus → String
  | idle => "idle"
  | running => "running"
  | paused => "paused"
  | done => "done"

def CountdownStatus.all : List CountdownStatus := [idle, running, paused, done]

/-- `deadline` counts milliseconds since the epoch, and is any number in what is stored. -/
structure StoredCountdown where
  minutes : ℕ
  status : CountdownStatus
  deadline : Decimal
  pausedSeconds : ℕ
  deriving DecidableEq, Repr

def timerMinutes : List ℕ := [5, 10, 15, 20, 25, 30]

def whole (n : ℕ) : Decimal := .normalize false n 0

/-- The double that stands for a number. No infinity comes up where it is used. -/
def rounded (q : ℚ) : ℚ := (roundDouble q).getD q

def remainingSeconds (deadline : Decimal) (now : ℕ) : ℕ :=
  ⌈rounded (rounded (rounded deadline.value-now)/1000)⌉.toNat

section Restoring
variable (double : Decimal → Option Decimal)

def fallback : StoredCountdown := ⟨25, .idle, .zero, 25*60⟩

def finiteField (saved : Json) (key : String) : Option Decimal :=
  match field saved key with
  | some (.number d) => double d
  | _ => none

def savedMinutes (saved : Json) : Option ℕ :=
  match field saved "minutes" with
  | some (.number d) => timerMinutes.find? fun n => whole n = d
  | _ => none

def savedStatus (saved : Json) : Option CountdownStatus :=
  match field saved "status" with
  | some (.string s) => CountdownStatus.all.find? fun status => status.text.toList = s
  | _ => none

def savedDeadline (saved : Json) : Decimal :=
  match finiteField double saved "deadline" with
  | some d => if d.neg then .zero else d
  | none => .zero

def savedSeconds (saved : Json) (minutes : ℕ) : ℕ :=
  match finiteField double saved "pausedSeconds" with
  | some d => min (minutes*60) (roundHalfUp (rounded d.value)).toNat
  | none => minutes*60

def restoreSaved (saved : Json) (now : ℕ) : StoredCountdown :=
  match savedMinutes saved, savedStatus saved with
  | some minutes, some status =>
    let deadline := savedDeadline double saved
    if status = .running ∧ remainingSeconds deadline now = 0 then ⟨minutes, .done, .zero, 0⟩
    else ⟨minutes, status, deadline, savedSeconds double saved minutes⟩
  | _, _ => fallback

def restoreCountdown (value : Option (List Char)) (now : ℕ) : StoredCountdown :=
  match value.filter (· ≠ []) with
  | none => fallback
  | some text =>
    match Json.parse (Json.nearest double) text with
    | none => fallback
    | some saved => restoreSaved double saved now

def timerMembers (timer : StoredCountdown) : List (List Char × Json) :=
  [("minutes".toList, .number (whole timer.minutes)),
    ("status".toList, .string timer.status.text.toList),
    ("deadline".toList, .number timer.deadline),
    ("pausedSeconds".toList, .number (whole timer.pausedSeconds))]

def timerText (timer : StoredCountdown) : List Char :=
  (Json.object (timerMembers timer)).jsonText double

end Restoring

namespace StoredCountdown

def seconds (timer : StoredCountdown) (now : ℕ) : ℕ :=
  match timer.status with
  | .running => remainingSeconds timer.deadline now
  | .paused => timer.pausedSeconds
  | .done => 0
  | .idle => timer.minutes*60

def tick (timer : StoredCountdown) (now : ℕ) : StoredCountdown :=
  if timer.status = .running ∧ remainingSeconds timer.deadline now = 0 then
    { timer with status := .done, deadline := .zero, pausedSeconds := 0 }
  else timer

def choose (timer : StoredCountdown) (value : ℕ) : StoredCountdown :=
  if value ∈ timerMinutes then ⟨value, .idle, .zero, value*60⟩ else timer

def toggle (timer : StoredCountdown) (now : ℕ) : StoredCountdown :=
  match timer.status with
  | .running | .paused =>
    { timer with status := .idle, deadline := .zero, pausedSeconds := timer.minutes*60 }
  | .idle | .done =>
    { timer with
      status := .running
      deadline := whole (now+timer.minutes*60000)
      pausedSeconds := timer.minutes*60 }

def pause (timer : StoredCountdown) (now : ℕ) : StoredCountdown :=
  match timer.status with
  | .running =>
    let next := remainingSeconds timer.deadline now
    { timer with
      status := if next = 0 then .done else .paused
      deadline := .zero
      pausedSeconds := next }
  | .paused => { timer with status := .running, deadline := whole (now+timer.pausedSeconds*1000) }
  | .idle | .done => timer

end StoredCountdown

/-- `reload` closes the app and opens it again. -/
inductive TimerAction where
  | tick
  | choose (value : ℕ)
  | toggle
  | pause
  | reload
  deriving DecidableEq, Repr

/-- No clock shows a later time. -/
structure TimerEvent where
  action : TimerAction
  time : ℕ
  valid : time ≤ 8640000000000000
  deriving DecidableEq, Repr

structure TimerApp where
  timer : StoredCountdown
  stored : Option (List Char)
  deriving DecidableEq, Repr

namespace TimerApp
variable (double : Decimal → Option Decimal)

def shows (timer : StoredCountdown) : TimerApp := ⟨timer, some (timerText double timer)⟩

def after (app : TimerApp) (e : TimerEvent) : StoredCountdown :=
  match e.action with
  | .tick => app.timer.tick e.time
  | .choose value => app.timer.choose value
  | .toggle => app.timer.toggle e.time
  | .pause => app.timer.pause e.time
  | .reload => restoreCountdown double app.stored e.time

def step (app : TimerApp) (e : TimerEvent) : TimerApp := shows double (app.after double e)

def start : TimerApp := shows double fallback

def run (events : List TimerEvent) : TimerApp := events.foldl (step double) (start double)

end TimerApp

section Numbers

@[simp] theorem value_whole (n : ℕ) : (whole n).value = n := by
  simp [whole, Decimal.value_normalize]

@[simp] theorem whole_inj {m n : ℕ} : whole m = whole n ↔ m = n := by
  refine ⟨fun h => ?_, fun h => by rw [h]⟩
  have hvalue := congrArg Decimal.value h
  simpa using hvalue

@[simp] theorem neg_whole (n : ℕ) : (whole n).neg = false := Decimal.neg_normalize n 0

theorem rounded_natCast {n : ℕ} (h : n < 2^53) : rounded n = n := by
  simp [rounded, roundDouble_natCast h]

theorem rounded_nonpos {q : ℚ} (hq : q ≤ 0) : rounded q ≤ 0 := by
  unfold rounded
  cases h : roundDouble q with
  | none => simpa using hq
  | some x => simpa using roundDouble_nonpos hq h

theorem ceil_thousandth (n : ℕ) : ⌈(n : ℚ)/1000⌉ = ((n+999)/1000 : ℕ) := by
  rw [Int.ceil_eq_iff]
  have hlow : (n+999)/1000*1000 < n+1000 := by omega
  have hhigh : n ≤ (n+999)/1000*1000 := by omega
  generalize (n+999)/1000 = k at *
  constructor
  · rw [Int.cast_natCast, lt_div_iff₀ (by norm_num)]
    have hcast : (k*1000 : ℚ) < n+1000 := by exact_mod_cast hlow
    linarith
  · rw [Int.cast_natCast, div_le_iff₀ (by norm_num)]
    exact_mod_cast hhigh

/-- The rounding of the doubles does not show: a part of a second counts as a whole one. -/
theorem remainingSeconds_whole {n now : ℕ} (hn : n < 2^53) (hsoon : n ≤ now+2^40) :
    remainingSeconds (whole n) now = (n-now+999)/1000 := by
  simp only [remainingSeconds, value_whole, rounded_natCast hn]
  by_cases hpast : n ≤ now
  · have hcast : (n : ℚ) ≤ now := by exact_mod_cast hpast
    have hdiff : rounded ((n : ℚ)-now) ≤ 0 := rounded_nonpos (by linarith)
    have hquotient : rounded ((n : ℚ)-now)/1000 ≤ 0 :=
      div_nonpos_of_nonpos_of_nonneg hdiff (by norm_num)
    have hceil := Int.ceil_nonpos.mpr (rounded_nonpos hquotient)
    omega
  · have hcast : (n : ℚ)-now = (n-now : ℕ) := by
      push_cast [Nat.cast_sub (show now ≤ n by omega)]
      rfl
    rw [hcast, rounded_natCast (show n-now < 2^53 by omega)]
    have hpos : 0 < n-now := by omega
    have hbound : n-now ≤ 2^40 := by omega
    generalize n-now = m at *
    have hceil := ceil_thousandth m
    obtain ⟨x, hx, heq⟩ := ceil_roundDouble (q := (m : ℚ)/1000) (by positivity)
      (by
        rw [div_lt_iff₀ (by norm_num)]
        exact_mod_cast (show m < 2^40*1000 by omega))
      (by
        rw [hceil]
        have hmul : (m+999)/1000*1000 ≤ m+999 := Nat.div_mul_le_self _ _
        generalize (m+999)/1000 = k at *
        have hcast : (k*1000 : ℚ) ≤ m+999 := by exact_mod_cast hmul
        push_cast
        linarith)
    rw [rounded, hx, Option.getD_some, heq, hceil, Int.toNat_natCast]

end Numbers

section Invariant
variable {timer : StoredCountdown} {last now : ℕ}

/-- What the timer is like when the clock last stood at `last`. A running one has a deadline that
its minutes reach. -/
inductive Sound (last : ℕ) : StoredCountdown → Prop where
  | idle {m : ℕ} (hm : m ∈ timerMinutes) : Sound last ⟨m, .idle, .zero, m*60⟩
  | running {m n p : ℕ} (hm : m ∈ timerMinutes) (hn : n ≤ last+m*60000) (hp : p ≤ m*60) :
    Sound last ⟨m, .running, whole n, p⟩
  | paused {m p : ℕ} (hm : m ∈ timerMinutes) (hp : p ≤ m*60) : Sound last ⟨m, .paused, .zero, p⟩
  | done {m : ℕ} (hm : m ∈ timerMinutes) : Sound last ⟨m, .done, .zero, 0⟩

theorem le_of_mem_timerMinutes {m : ℕ} (hm : m ∈ timerMinutes) : m ≤ 30 := by
  simp only [timerMinutes, List.mem_cons, List.not_mem_nil, or_false] at hm
  omega

theorem Sound.minutes (h : Sound last timer) : timer.minutes ∈ timerMinutes := by
  cases h <;> assumption

theorem Sound.later (h : Sound last timer) (hle : last ≤ now) : Sound now timer := by
  cases h with
  | idle hm => exact .idle hm
  | running hm hn hp => exact .running hm (by omega) hp
  | paused hm hp => exact .paused hm hp
  | done hm => exact .done hm

theorem remainingSeconds_running {m n : ℕ} (hm : m ∈ timerMinutes) (hn : n ≤ last+m*60000)
    (hle : last ≤ now) (hnow : now ≤ 8640000000000000) :
    remainingSeconds (whole n) now = (n-now+999)/1000 := by
  have hm := le_of_mem_timerMinutes hm
  exact remainingSeconds_whole (by omega) (by omega)

theorem sound_tick (h : Sound last timer) (hle : last ≤ now) : Sound now (timer.tick now) := by
  unfold StoredCountdown.tick
  split
  · exact .done h.minutes
  · exact h.later hle

theorem sound_choose (h : Sound last timer) (hle : last ≤ now) (value : ℕ) :
    Sound now (timer.choose value) := by
  unfold StoredCountdown.choose
  split
  · next hvalue => exact .idle hvalue
  · exact h.later hle

theorem sound_toggle (h : Sound last timer) : Sound now (timer.toggle now) := by
  have hm := h.minutes
  cases h with
  | idle => exact .running hm (le_refl _) (le_refl _)
  | running => exact .idle hm
  | paused => exact .idle hm
  | done => exact .running hm (le_refl _) (le_refl _)

theorem sound_pause (h : Sound last timer) (hle : last ≤ now) (hnow : now ≤ 8640000000000000) :
    Sound now (timer.pause now) := by
  cases h with
  | idle hm => exact .idle hm
  | running hm hn hp =>
    simp only [StoredCountdown.pause, remainingSeconds_running hm hn hle hnow]
    split
    · next hzero => rw [hzero]; exact .done hm
    · exact .paused hm (by omega)
  | @paused m p hm hp =>
    have hlong : now+p*1000 ≤ now+m*60000 := by omega
    exact .running hm hlong hp
  | done hm => exact .done hm

end Invariant

section Stored
variable {double : Decimal → Option Decimal} {timer : StoredCountdown} {last now : ℕ}

theorem find?_of_mem {α : Type} [DecidableEq α] {x : α} {l : List α} (h : x ∈ l) :
    l.find? (fun y => y = x) = some x := by
  induction l with
  | nil => simp at h
  | cons y ys ih =>
    by_cases hy : y = x
    · simp [hy]
    · have hmem : x ∈ ys := by simpa [Ne.symm hy] using h
      simp [hy, ih hmem]

theorem nodup_timerMembers (timer : StoredCountdown) : ((timerMembers timer).map (·.1)).Nodup := by
  simp only [timerMembers, List.map_cons, List.map_nil]
  decide

theorem field_minutes (timer : StoredCountdown) : field (.object (timerMembers timer)) "minutes" =
    some (.number (whole timer.minutes)) :=
  field_of_mem (nodup_timerMembers timer) (by simp [timerMembers])

theorem field_status (timer : StoredCountdown) : field (.object (timerMembers timer)) "status" =
    some (.string timer.status.text.toList) :=
  field_of_mem (nodup_timerMembers timer) (by simp [timerMembers])

theorem field_deadline (timer : StoredCountdown) : field (.object (timerMembers timer)) "deadline" =
    some (.number timer.deadline) :=
  field_of_mem (nodup_timerMembers timer) (by simp [timerMembers])

theorem field_pausedSeconds (timer : StoredCountdown) :
    field (.object (timerMembers timer)) "pausedSeconds" =
      some (.number (whole timer.pausedSeconds)) :=
  field_of_mem (nodup_timerMembers timer) (by simp [timerMembers])

theorem savedMinutes_timer (hm : timer.minutes ∈ timerMinutes) :
    savedMinutes (.object (timerMembers timer)) = some timer.minutes := by
  simp only [savedMinutes, field_minutes, whole_inj]
  exact find?_of_mem hm

theorem savedStatus_timer (timer : StoredCountdown) :
    savedStatus (.object (timerMembers timer)) = some timer.status := by
  simp only [savedStatus, field_status]
  cases timer.status <;> decide

variable (hdouble : ∀ n < 2^53, double (whole n) = some (whole n))
include hdouble

theorem savedDeadline_timer {n : ℕ} (hn : timer.deadline = whole n) (hlt : n < 2^53) :
    savedDeadline double (.object (timerMembers timer)) = timer.deadline := by
  simp [savedDeadline, finiteField, field_deadline, hn, hdouble n hlt]

theorem savedSeconds_timer (hp : timer.pausedSeconds ≤ timer.minutes*60)
    (hm : timer.minutes ≤ 30) :
    savedSeconds double (.object (timerMembers timer)) timer.minutes = timer.pausedSeconds := by
  have hlt : timer.pausedSeconds < 2^53 := by omega
  have hround : roundHalfUp (timer.pausedSeconds : ℚ) = timer.pausedSeconds := by
    rw [roundHalfUp, Int.floor_eq_iff]
    constructor <;> push_cast <;> linarith
  simp [savedSeconds, finiteField, field_pausedSeconds, hdouble _ hlt, rounded_natCast hlt, hround,
    hp]

theorem exact_timerMembers {n : ℕ} (hn : timer.deadline = whole n) (hlt : n < 2^53)
    (hp : timer.pausedSeconds ≤ timer.minutes*60) (hm : timer.minutes ≤ 30) :
    (Json.object (timerMembers timer)).Exact double := by
  have hnumber (k : ℕ) (hk : k < 2^53) : (Json.number (whole k)).Exact double := by
    simp [Json.Exact, Json.Proper, Json.nearest, Json.finiteOnly, hdouble k hk]
  refine Json.exact_object.mpr ⟨nodup_timerMembers timer, ?_⟩
  simp only [timerMembers, hn, List.forall_mem_cons, List.not_mem_nil, false_implies, implies_true,
    and_true]
  exact ⟨hnumber _ (by omega), Json.exact_string _, hnumber n hlt, hnumber _ (by omega)⟩

theorem restoreCountdown_timerText (h : Sound last timer) (hle : last ≤ now)
    (hnow : now ≤ 8640000000000000) :
    restoreCountdown double (some (timerText double timer)) now = timer.tick now := by
  have hm := le_of_mem_timerMinutes h.minutes
  obtain ⟨n, hn, hlt⟩ : ∃ n, timer.deadline = whole n ∧ n < 2^53 := by
    have hzero : Decimal.zero = whole 0 := rfl
    cases h with
    | running hmem hn hp => exact ⟨_, rfl, by have := le_of_mem_timerMinutes hmem; omega⟩
    | _ => exact ⟨0, hzero, by norm_num⟩
  have hp : timer.pausedSeconds ≤ timer.minutes*60 := by
    cases h <;> simp_all
  have hparse : Json.parse (Json.nearest double) (timerText double timer) =
      some (.object (timerMembers timer)) :=
    Json.parse_jsonText (exact_timerMembers hdouble hn hlt hp hm)
  have hne : timerText double timer ≠ [] := by
    intro hempty
    rw [hempty] at hparse
    cases hparse
  have hsome : (some (timerText double timer)).filter (· ≠ []) = some (timerText double timer) := by
    simp [hne]
  simp only [restoreCountdown, hsome, hparse, restoreSaved, savedMinutes_timer h.minutes,
    savedStatus_timer, savedDeadline_timer hdouble hn hlt, savedSeconds_timer hdouble hp hm,
    StoredCountdown.tick]

end Stored

section Reloads
variable {double : Decimal → Option Decimal} {last : ℕ}

def ClockAdvances : ℕ → List TimerEvent → Prop
  | _, [] => True
  | last, e :: es => last ≤ e.time ∧ ClockAdvances e.time es

def TimerEvent.leftOpen (e : TimerEvent) : TimerEvent :=
  if e.action = .reload then { e with action := .tick } else e

theorem sound_fallback : Sound last fallback := Sound.idle (by decide : 25 ∈ timerMinutes)

variable (hdouble : ∀ n < 2^53, double (whole n) = some (whole n))
include hdouble

theorem after_leftOpen {timer : StoredCountdown} {e : TimerEvent} (h : Sound last timer)
    (hle : last ≤ e.time) : (TimerApp.shows double timer).after double e =
      (TimerApp.shows double timer).after double e.leftOpen := by
  unfold TimerEvent.leftOpen
  split
  · next hreload =>
    simp only [TimerApp.after, hreload, TimerApp.shows]
    exact restoreCountdown_timerText hdouble h hle e.valid
  · rfl

theorem sound_after {timer : StoredCountdown} {e : TimerEvent} (h : Sound last timer)
    (hle : last ≤ e.time) : Sound e.time ((TimerApp.shows double timer).after double e) := by
  obtain ⟨action, time, valid⟩ := e
  cases action with
  | tick => exact sound_tick h hle
  | choose value => exact sound_choose h hle value
  | toggle => exact sound_toggle h
  | pause => exact sound_pause h hle valid
  | reload =>
    simp only [TimerApp.after, TimerApp.shows, restoreCountdown_timerText hdouble h hle valid]
    exact sound_tick h hle

theorem foldl_leftOpen {events : List TimerEvent} {timer : StoredCountdown} (h : Sound last timer)
    (hclock : ClockAdvances last events) :
    events.foldl (TimerApp.step double) (TimerApp.shows double timer) =
      (events.map TimerEvent.leftOpen).foldl (TimerApp.step double)
        (TimerApp.shows double timer) := by
  induction events generalizing timer last with
  | nil => rfl
  | cons e es ih =>
    obtain ⟨hle, hclock⟩ := hclock
    have hstep : TimerApp.step double (TimerApp.shows double timer) e.leftOpen =
        TimerApp.step double (TimerApp.shows double timer) e := by
      rw [TimerApp.step, TimerApp.step, after_leftOpen hdouble h hle]
    rw [List.map_cons, List.foldl_cons, List.foldl_cons, hstep]
    exact ih (sound_after hdouble h hle) hclock

/-- Closing the app and opening it again cannot be told from leaving it open: in every run, at
every time, the timer is what it would be had the clock only ticked. -/
theorem reloading_goes_unnoticed {events : List TimerEvent} (hclock : ClockAdvances 0 events) :
    TimerApp.run double events = TimerApp.run double (events.map TimerEvent.leftOpen) :=
  foldl_leftOpen hdouble sound_fallback hclock

omit hdouble

def pausedMinute : List TimerEvent :=
  [⟨.choose 5, 0, by norm_num⟩, ⟨.toggle, 1000, by norm_num⟩, ⟨.pause, 61001, by norm_num⟩,
    ⟨.reload, 700000, by norm_num⟩, ⟨.pause, 800000, by norm_num⟩, ⟨.reload, 900000, by norm_num⟩]

theorem reloading_goes_unnoticed_after_a_minute :
    (TimerApp.run some pausedMinute).timer = ⟨5, .running, whole 1040000, 240⟩ ∧
      TimerApp.run some pausedMinute =
        TimerApp.run some (pausedMinute.map TimerEvent.leftOpen) :=
  ⟨by decide +kernel,
    reloading_goes_unnoticed (fun _ _ => rfl) (by simp [ClockAdvances, pausedMinute])⟩

end Reloads

section Ledger
variable {double : Decimal → Option Decimal}

/-- How long the timer has run since it was started, and how often it was paused. -/
structure Ledger where
  last : ℕ
  ran : ℕ
  pauses : ℕ
  deriving DecidableEq, Repr

/-- The time since the last event counts if the timer ran. -/
def Ledger.after (l : Ledger) (timer : StoredCountdown) (e : TimerEvent) : Ledger :=
  match e.action, timer.status with
  | .toggle, .idle | .toggle, .done => ⟨e.time, 0, 0⟩
  | .pause, .running => ⟨e.time, l.ran+(e.time-l.last), l.pauses+1⟩
  | _, .running => ⟨e.time, l.ran+(e.time-l.last), l.pauses⟩
  | _, _ => ⟨e.time, l.ran, l.pauses⟩

def ledgerStep (double : Decimal → Option Decimal) (s : TimerApp × Ledger) (e : TimerEvent) :
    TimerApp × Ledger :=
  (s.1.step double e, s.2.after s.1.timer e)

def ledgerRun (double : Decimal → Option Decimal) (events : List TimerEvent) : TimerApp × Ledger :=
  events.foldl (ledgerStep double) (TimerApp.start double, ⟨0, 0, 0⟩)

/-- What has run and what is left come to the minutes, but for the part of a second that each
pause rounds up. -/
inductive OnTime (l : Ledger) : StoredCountdown → Prop where
  | idle {m p : ℕ} {d : Decimal} : OnTime l ⟨m, .idle, d, p⟩
  | running {m n p : ℕ} {d : Decimal} (hd : d = whole n) (hlow : 60000*m+l.last ≤ l.ran+n)
    (hhigh : l.ran+n ≤ 60000*m+l.last+999*l.pauses) : OnTime l ⟨m, .running, d, p⟩
  | paused {m p : ℕ} {d : Decimal} (hlow : 60000*m ≤ l.ran+1000*p)
    (hhigh : l.ran+1000*p ≤ 60000*m+999*l.pauses) : OnTime l ⟨m, .paused, d, p⟩
  | done {m p : ℕ} {d : Decimal} (hlow : 60000*m ≤ l.ran) : OnTime l ⟨m, .done, d, p⟩

variable {timer : StoredCountdown} {l : Ledger} {e : TimerEvent}

structure Ledger.Keeps (l : Ledger) (timer : StoredCountdown) (now : ℕ) (l' : Ledger) : Prop where
  last : l'.last = now
  ran : l'.ran = if timer.status = .running then l.ran+(now-l.last) else l.ran
  pauses : l'.pauses = l.pauses

theorem OnTime.keeps {l' : Ledger} {now : ℕ} (h : OnTime l timer) (hle : l.last ≤ now)
    (hkeeps : l.Keeps timer now l') : OnTime l' timer := by
  obtain ⟨hlast, hran, hpauses⟩ := hkeeps
  cases h with
  | idle => exact .idle
  | running hd hlow hhigh =>
    rw [if_pos rfl] at hran
    exact .running hd (by omega) (by omega)
  | paused hlow hhigh =>
    rw [if_neg (by simp)] at hran
    exact .paused (by omega) (by omega)
  | done hlow =>
    rw [if_neg (by simp)] at hran
    exact .done (by omega)

theorem onTime_tick {l' : Ledger} {now : ℕ} (hsound : Sound l.last timer) (h : OnTime l timer)
    (hle : l.last ≤ now) (hnow : now ≤ 8640000000000000) (hkeeps : l.Keeps timer now l') :
    OnTime l' (timer.tick now) := by
  have hstays := h.keeps hle hkeeps
  unfold StoredCountdown.tick
  split
  · next hrings =>
    obtain ⟨hstatus, hzero⟩ := hrings
    cases hsound with
    | @running m n p hm hn hp =>
      rw [remainingSeconds_running hm hn hle hnow] at hzero
      cases hstays with
      | running hd hlow hhigh =>
        obtain rfl := whole_inj.mp hd
        have hlast := hkeeps.last
        have hran : 60000*m ≤ l'.ran := by omega
        exact .done hran
    | _ => cases hstatus
  · exact hstays

theorem onTime_choose {l' : Ledger} {now : ℕ} (h : OnTime l timer) (hle : l.last ≤ now)
    (hkeeps : l.Keeps timer now l') (value : ℕ) : OnTime l' (timer.choose value) := by
  unfold StoredCountdown.choose
  split
  · exact .idle
  · exact h.keeps hle hkeeps

theorem onTime_start {m n p : ℕ} {l' : Ledger} (hlast : l'.last = n) (hran : l'.ran = 0) :
    OnTime l' ⟨m, .running, whole (n+m*60000), p⟩ :=
  .running rfl (by omega) (by omega)

theorem onTime_pause {now : ℕ} (hsound : Sound l.last timer) (h : OnTime l timer)
    (hle : l.last ≤ now) (hnow : now ≤ 8640000000000000) (hstatus : timer.status = .running) :
    OnTime ⟨now, l.ran+(now-l.last), l.pauses+1⟩ (timer.pause now) := by
  cases hsound with
  | @running m n p hm hn hp =>
    cases h with
    | running hd hlow hhigh =>
      obtain rfl := whole_inj.mp hd
      simp only [StoredCountdown.pause, remainingSeconds_running hm hn hle hnow]
      have hleft : 60000*m ≤ l.ran+(now-l.last)+1000*((n-now+999)/1000) := by omega
      split
      · next hzero =>
        rw [hzero] at hleft
        exact .done hleft
      · have hround : l.ran+(now-l.last)+1000*((n-now+999)/1000) ≤
            60000*m+999*(l.pauses+1) := by omega
        exact .paused hleft hround
  | _ => cases hstatus

theorem onTime_resume {l' : Ledger} {now : ℕ} (h : OnTime l timer)
    (hstatus : timer.status = .paused) (hkeeps : l.Keeps timer now l') :
    OnTime l' (timer.pause now) := by
  obtain ⟨hlast, hran, hpauses⟩ := hkeeps
  rw [if_neg (by simp [hstatus])] at hran
  cases h with
  | @paused m p d hlow hhigh =>
    have hlow : 60000*m+l'.last ≤ l'.ran+(now+p*1000) := by omega
    have hhigh : l'.ran+(now+p*1000) ≤ 60000*m+l'.last+999*l'.pauses := by omega
    exact .running rfl hlow hhigh
  | _ => cases hstatus

theorem keeps_after (hstart : e.action = .toggle → timer.status = .running ∨ timer.status = .paused)
    (hpause : e.action = .pause → timer.status ≠ .running) :
    l.Keeps timer e.time (l.after timer e) := by
  cases haction : e.action <;> cases hstatus : timer.status <;>
    simp_all [Ledger.after] <;> constructor <;> simp [hstatus]

variable (hdouble : ∀ n < 2^53, double (whole n) = some (whole n))
include hdouble

theorem onTime_after (hsound : Sound l.last timer) (h : OnTime l timer) (hle : l.last ≤ e.time) :
    OnTime (l.after timer e) ((TimerApp.shows double timer).after double e) := by
  cases haction : e.action with
  | tick =>
    simp only [TimerApp.after, haction, TimerApp.shows]
    exact onTime_tick hsound h hle e.valid (keeps_after (by simp [haction]) (by simp [haction]))
  | choose value =>
    simp only [TimerApp.after, haction, TimerApp.shows]
    exact onTime_choose h hle (keeps_after (by simp [haction]) (by simp [haction])) value
  | toggle =>
    simp only [TimerApp.after, haction, TimerApp.shows]
    cases hstatus : timer.status <;> simp only [StoredCountdown.toggle, hstatus]
    · exact onTime_start (by simp [Ledger.after, haction, hstatus])
        (by simp [Ledger.after, haction, hstatus])
    · exact .idle
    · exact .idle
    · exact onTime_start (by simp [Ledger.after, haction, hstatus])
        (by simp [Ledger.after, haction, hstatus])
  | pause =>
    simp only [TimerApp.after, haction, TimerApp.shows]
    cases hstatus : timer.status with
    | running =>
      have hledger : l.after timer e = ⟨e.time, l.ran+(e.time-l.last), l.pauses+1⟩ := by
        simp only [Ledger.after, haction, hstatus]
      rw [hledger]
      exact onTime_pause hsound h hle e.valid hstatus
    | paused => exact onTime_resume h hstatus (keeps_after (by simp [haction]) (by simp [hstatus]))
    | _ =>
      simp only [StoredCountdown.pause, hstatus]
      exact h.keeps hle (keeps_after (by simp [haction]) (by simp [hstatus]))
  | reload =>
    simp only [TimerApp.after, haction, TimerApp.shows,
      restoreCountdown_timerText hdouble hsound hle e.valid]
    exact onTime_tick hsound h hle e.valid (keeps_after (by simp [haction]) (by simp [haction]))

omit hdouble in
theorem last_after : (l.after timer e).last = e.time := by
  unfold Ledger.after
  split <;> rfl

theorem onTime_foldl {events : List TimerEvent} (hsound : Sound l.last timer) (h : OnTime l timer)
    (hvalid : l.last ≤ 8640000000000000) (hclock : ClockAdvances l.last events) :
    ∃ timer' l', events.foldl (ledgerStep double) (TimerApp.shows double timer, l) =
      (TimerApp.shows double timer', l') ∧ l'.last ≤ 8640000000000000 ∧ Sound l'.last timer' ∧
      OnTime l' timer' := by
  induction events generalizing timer l with
  | nil => exact ⟨timer, l, rfl, hvalid, hsound, h⟩
  | cons e es ih =>
    obtain ⟨hle, hclock⟩ := hclock
    have hlast : (l.after timer e).last = e.time := last_after
    rw [← hlast] at hclock
    have hnext := sound_after hdouble hsound hle
    rw [← hlast] at hnext
    refine ih hnext (onTime_after hdouble hsound h hle) ?_ hclock
    rw [last_after]
    exact e.valid

/-- In every run, what the timer shows and the time it has run since it was started come to at
least its minutes, so that it never rings early. As long as it shows something they come to at
most a second more, and another one for each pause. -/
theorem timer_is_on_time {events : List TimerEvent} (hclock : ClockAdvances 0 events)
    (hactive : (ledgerRun double events).1.timer.status ≠ .idle) :
    let s := ledgerRun double events
    let shown := s.1.timer.seconds s.2.last
    60000*s.1.timer.minutes ≤ s.2.ran+1000*shown ∧
      (0 < shown → s.2.ran+1000*shown ≤ 60000*s.1.timer.minutes+999*(s.2.pauses+1)) := by
  obtain ⟨timer, l, hfoldl, hvalid, hsound, h⟩ :=
    onTime_foldl hdouble (l := ⟨0, 0, 0⟩) sound_fallback .idle (Nat.zero_le _) hclock
  have hrun : ledgerRun double events = (TimerApp.shows double timer, l) := hfoldl
  rw [hrun] at hactive ⊢
  simp only [TimerApp.shows] at hactive ⊢
  cases hsound with
  | idle hm => simp at hactive
  | running hm hn hp =>
    cases h with
    | running hd hlow hhigh =>
      obtain rfl := whole_inj.mp hd
      simp only [StoredCountdown.seconds, remainingSeconds_running hm hn (le_refl _) hvalid]
      omega
  | paused hm hp =>
    cases h with
    | paused hlow hhigh =>
      simp only [StoredCountdown.seconds]
      omega
  | done hm =>
    cases h with
    | done hlow => simpa [StoredCountdown.seconds] using hlow

omit hdouble in
theorem timer_is_on_time_after_a_minute :
    let s := ledgerRun some pausedMinute
    s.2 = ⟨900000, 160001, 1⟩ ∧ s.1.timer.seconds s.2.last = 140 ∧
      60000*s.1.timer.minutes ≤ s.2.ran+1000*s.1.timer.seconds s.2.last := by
  have hclock : ClockAdvances 0 pausedMinute := by simp [ClockAdvances, pausedMinute]
  refine ⟨by decide +kernel, by decide +kernel, ?_⟩
  exact (timer_is_on_time (fun _ _ => rfl) hclock (by decide +kernel)).1

end Ledger

end Cinder.Forge
