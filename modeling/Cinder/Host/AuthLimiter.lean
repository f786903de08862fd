import Cinder.Programs.AnsweredCalls
import Cinder.Storage.UniqueTable
import Mathlib.Logic.Function.Basic
set_option autoImplicit false

namespace Cinder.Host
open Cinder.Programs Cinder.Storage

abbrev Instant := Nat

def window : Nat := 60*1000000000

def maxPerWindow : UInt32 := 30

def sweepAt : Nat := 4096

variable {Addr : Type} [DecidableEq Addr]

structure SeenEntry (Addr : Type) where
  ip : Addr
  start : Instant
  count : UInt32
  deriving DecidableEq, Repr

instance : Keyed (SeenEntry Addr) where
  clash r r' := r.ip = r'.ip
  refl r := decide_eq_true rfl
  symm r r' := by simp [eq_comm]

def sweep (now : Instant) (seen : Table (SeenEntry Addr)) : Table (SeenEntry Addr) :=
  if sweepAt ≤ seen.rows.length then seen.delete fun e => !(now-e.start < window) else seen

/-- The entry of an address, counted up for a call. `duration_since` does not go below zero. -/
def countCall (seen : Table (SeenEntry Addr)) (ip : Addr) (now : Instant) : SeenEntry Addr :=
  let entry := (seen.find? fun e => e.ip = ip).getD ⟨ip, now, 0⟩
  let entry := if window ≤ now-entry.start then ⟨ip, now, 0⟩ else entry
  { entry with count := entry.count+1 }

/-- `AuthLimiter::allow`, for a call from an address at a time. -/
def allow (seen : Table (SeenEntry Addr)) (call : Addr × Instant) :
    Bool × Table (SeenEntry Addr) :=
  let seen := sweep call.2 seen
  let entry := countCall seen call.1 call.2
  (entry.count ≤ maxPerWindow, seen.put entry)

structure Window where
  start : Instant
  count : Nat
  deriving DecidableEq, Repr

def Window.call (w : Option Window) (now : Instant) : Window :=
  let w := w.getD ⟨now, 0⟩
  let w := if window ≤ now-w.start then ⟨now, 0⟩ else w
  { w with count := w.count+1 }

def allowForEver (seen : Addr → Option Window) (call : Addr × Instant) :
    ((Addr × Instant) × Bool) × (Addr → Option Window) :=
  let w := Window.call (seen call.1) call.2
  (((call.1, w.start), w.count ≤ maxPerWindow.toNat), Function.update seen call.1 (some w))

def decisions (calls : List (Addr × Instant)) : List Bool := answers allow .empty calls

def foreverAnswers (calls : List (Addr × Instant)) : List ((Addr × Instant) × Bool) :=
  answers allowForEver (fun _ => none) calls

def windowsOf (calls : List (Addr × Instant)) : List (Addr × Instant) :=
  (foreverAnswers calls).map (·.1)

section Forever

theorem lt_of_window_le {start now : Nat} (h : window ≤ now-start) : start < now := by
  have hpositive : 0 < window := by decide
  omega

theorem Window.call_cases (w : Option Window) (now : Instant) :
    (∃ v, w = some v ∧ now-v.start < window ∧ Window.call w now = ⟨v.start, v.count+1⟩) ∨
      ((∀ v, w = some v → window ≤ now-v.start) ∧ Window.call w now = ⟨now, 1⟩) := by
  cases w with
  | none =>
    refine .inr ⟨fun v hv => (by cases hv), ?_⟩
    simp only [Window.call, Option.getD_none]
    split <;> rfl
  | some v =>
    by_cases h : window ≤ now-v.start
    · refine .inr ⟨fun v' hv => by cases hv; exact h, ?_⟩
      simp only [Window.call, Option.getD_some, if_pos h]
    · refine .inl ⟨v, rfl, Nat.not_le.mp h, ?_⟩
      simp only [Window.call, Option.getD_some, if_neg h]

/-- The count of an address is the number of calls in its latest window. -/
structure Counts (calls : List (Addr × Instant)) (seen : Addr → Option Window) : Prop where
  latest : ∀ ip w, seen ip = some w → w.count = (windowsOf calls).count (ip, w.start)
  earlier : ∀ k ∈ windowsOf calls, ∃ w, seen k.1 = some w ∧ k.2 ≤ w.start
  allowed : ∀ k, (foreverAnswers calls).count (k, true) =
    min ((windowsOf calls).count k) maxPerWindow.toNat

theorem counts_nil : Counts [] (fun _ : Addr => none) where
  latest ip w hw := by cases hw
  earlier k hk := by cases hk
  allowed k := rfl

theorem foreverAnswers_concat (calls : List (Addr × Instant)) (c : Addr × Instant) :
    foreverAnswers (calls ++ [c]) = foreverAnswers calls ++
      [(allowForEver (stateAfter allowForEver (fun _ => none) calls) c).1] :=
  answers_concat _ _ _ _

theorem windowsOf_concat (calls : List (Addr × Instant)) (c : Addr × Instant) :
    windowsOf (calls ++ [c]) = windowsOf calls ++
      [(c.1, (Window.call (stateAfter allowForEver (fun _ => none) calls c.1) c.2).start)] := by
  simp [windowsOf, foreverAnswers_concat, allowForEver]

theorem Counts.next {calls : List (Addr × Instant)} {seen : Addr → Option Window}
    (h : Counts calls seen) (ip : Addr) (now : Instant) :
    (Window.call (seen ip) now).count =
        (windowsOf calls).count (ip, (Window.call (seen ip) now).start)+1 ∧
      ∀ v, seen ip = some v → v.start ≤ (Window.call (seen ip) now).start := by
  rcases Window.call_cases (seen ip) now with ⟨v, hv, -, hcall⟩ | ⟨hover, hcall⟩
  · rw [hcall, hv]
    refine ⟨congrArg (·+1) (h.latest ip v hv), fun v' hv' => ?_⟩
    cases hv'
    exact Nat.le_refl _
  · rw [hcall]
    have hfresh : (ip, now) ∉ windowsOf calls := by
      intro hmem
      obtain ⟨w, hw, hle⟩ := h.earlier _ hmem
      exact Nat.lt_irrefl _ (Nat.lt_of_lt_of_le (lt_of_window_le (hover w hw)) hle)
    refine ⟨by rw [List.count_eq_zero_of_not_mem hfresh], fun v hv => ?_⟩
    exact Nat.le_of_lt (lt_of_window_le (hover v hv))

theorem counts_run (calls : List (Addr × Instant)) :
    Counts calls (stateAfter allowForEver (fun _ => none) calls) := by
  induction calls using List.reverseRecOn with
  | nil => exact counts_nil
  | append_singleton calls c ih =>
    obtain ⟨ip, now⟩ := c
    have hwindows := windowsOf_concat calls (ip, now)
    have hanswers := foreverAnswers_concat calls (ip, now)
    rw [stateAfter_concat]
    generalize stateAfter allowForEver (fun _ => none) calls = seen at *
    obtain ⟨hcount, hstart⟩ := ih.next ip now
    simp only [allowForEver] at hanswers hwindows ⊢
    generalize Window.call (seen ip) now = w at *
    refine ⟨fun ip' w' hw' => ?_, fun k hk => ?_, fun k => ?_⟩
    · rw [hwindows, List.count_append]
      by_cases hip : ip' = ip
      · rw [hip, Function.update_self] at hw'
        cases hw'
        rw [hip, hcount]
        simp
      · rw [Function.update_of_ne hip] at hw'
        rw [ih.latest ip' w' hw']
        simp [Ne.symm hip]
    · rw [hwindows] at hk
      rcases List.mem_append.mp hk with hk | hk
      · obtain ⟨v, hv, hle⟩ := ih.earlier k hk
        by_cases hip : k.1 = ip
        · rw [hip] at hv ⊢
          exact ⟨w, Function.update_self .., Nat.le_trans hle (hstart v hv)⟩
        · exact ⟨v, by rw [Function.update_of_ne hip]; exact hv, hle⟩
      · rw [List.mem_singleton.mp hk]
        exact ⟨w, Function.update_self .., Nat.le_refl _⟩
    · rw [hwindows, hanswers, List.count_append, List.count_append, ih.allowed k]
      by_cases hk : k = (ip, w.start)
      · rw [hk, hcount]
        by_cases hmore : (windowsOf calls).count (ip, w.start)+1 ≤ maxPerWindow.toNat
        · rw [decide_eq_true hmore]
          simp
          omega
        · rw [decide_eq_false hmore]
          simp
          omega
      · simp [Ne.symm hk]

end Forever

section Swept

/-- The entries that the limiter has are those of the limiter without a bound, and the ones it
has not are over. -/
structure Follows (calls : List (Addr × Instant)) (seen : Table (SeenEntry Addr))
    (forever : Addr → Option Window) : Prop where
  kept : ∀ e ∈ seen.rows, forever e.ip = some ⟨e.start, e.count.toNat⟩
  swept : ∀ ip w, forever ip = some w → (∀ e ∈ seen.rows, e.ip ≠ ip) →
    ∃ c ∈ calls, window ≤ c.2-w.start

variable {calls : List (Addr × Instant)} {seen : Table (SeenEntry Addr)}
  {forever : Addr → Option Window}

theorem Follows.sweep (h : Follows calls seen forever) (ip : Addr) (now : Instant) :
    Follows (calls ++ [(ip, now)]) (sweep now seen) forever := by
  unfold Host.sweep
  split
  · refine ⟨fun e he => h.kept e (Table.mem_delete.mp he).1, fun ip' w hw hnone => ?_⟩
    by_cases hseen : ∃ e ∈ seen.rows, e.ip = ip'
    · obtain ⟨e, he, rfl⟩ := hseen
      cases (h.kept e he).symm.trans hw
      refine ⟨(ip, now), List.mem_append_right _ (List.mem_singleton.mpr rfl), ?_⟩
      by_contra hlive
      have hkept : e ∈ (seen.delete fun e => !decide (now-e.start < window)).rows :=
        Table.mem_delete.mpr ⟨he, by simpa using Nat.not_le.mp hlive⟩
      exact hnone e hkept rfl
    · obtain ⟨c, hc, hover⟩ := h.swept ip' w hw fun e he heq => hseen ⟨e, he, heq⟩
      exact ⟨c, List.mem_append_left _ hc, hover⟩
  · refine ⟨h.kept, fun ip' w hw hnone => ?_⟩
    obtain ⟨c, hc, hover⟩ := h.swept ip' w hw hnone
    exact ⟨c, List.mem_append_left _ hc, hover⟩

theorem Follows.countCall (h : Follows calls seen forever) {ip : Addr} {now : Instant}
    (hlast : ∀ c ∈ calls, c.2 ≤ now) (hcount : (Window.call (forever ip) now).count < 4294967296) :
    (countCall seen ip now).ip = ip ∧ Window.call (forever ip) now =
      ⟨(countCall seen ip now).start, (countCall seen ip now).count.toNat⟩ := by
  unfold Host.countCall
  cases hfind : seen.find? fun e => e.ip = ip with
  | some e =>
    obtain ⟨he, hip⟩ := Table.mem_of_find? hfind
    have hip : e.ip = ip := of_decide_eq_true hip
    have hforever := h.kept e he
    rw [hip] at hforever
    rw [hforever] at hcount ⊢
    by_cases hover : window ≤ now-e.start
    · simp only [Window.call, Option.getD_some, if_pos hover]
      exact ⟨trivial, rfl⟩
    · simp only [Window.call, Option.getD_some, if_neg hover] at hcount ⊢
      have hone : (e.count+1).toNat = e.count.toNat+1 := Nat.mod_eq_of_lt hcount
      rw [hone]
      exact ⟨hip, rfl⟩
  | none =>
    have hnone : ∀ e ∈ seen.rows, e.ip ≠ ip := fun e he =>
      of_decide_eq_false (Table.find?_eq_none.mp hfind e he)
    have hcall : Window.call (forever ip) now = ⟨now, 1⟩ := by
      rcases Window.call_cases (forever ip) now with ⟨v, hv, hlive, -⟩ | ⟨-, hcall⟩
      · obtain ⟨c, hc, hover⟩ := h.swept ip v hv hnone
        have hle := Nat.sub_le_sub_right (hlast c hc) v.start
        exact absurd (Nat.le_trans hover hle) (Nat.not_le.mpr hlive)
      · exact hcall
    rw [hcall]
    simp only [Option.getD_none]
    split <;> exact ⟨rfl, rfl⟩

theorem Follows.put (h : Follows calls seen forever) (entry : SeenEntry Addr) :
    Follows calls (seen.put entry)
      (Function.update forever entry.ip (some ⟨entry.start, entry.count.toNat⟩)) := by
  refine ⟨fun e he => ?_, fun ip w hw hnone => ?_⟩
  · rcases Table.mem_put.mp he with ⟨hmem, hclash⟩ | rfl
    · rw [Function.update_of_ne (of_decide_eq_false hclash)]
      exact h.kept e hmem
    · exact Function.update_self ..
  · have hother : ip ≠ entry.ip := fun heq => hnone entry (Table.mem_put.mpr (.inr rfl)) heq.symm
    rw [Function.update_of_ne hother] at hw
    refine h.swept ip w hw fun e he heq => ?_
    have hclash : Keyed.clash e entry = false := decide_eq_false (heq.trans_ne hother)
    exact hnone e (Table.mem_put.mpr (.inl ⟨he, hclash⟩)) heq

/-- The calls are made in the order of their times, with fewer than 2^32 in each window of an
address. -/
structure Admitted (calls : List (Addr × Instant)) : Prop where
  ordered : calls.Pairwise fun c c' => c.2 ≤ c'.2
  few : ∀ k, (windowsOf calls).count k < 4294967296

theorem Admitted.front {c : Addr × Instant} (h : Admitted (calls ++ [c])) : Admitted calls := by
  refine ⟨(List.pairwise_append.mp h.ordered).1, fun k => ?_⟩
  have hfew := h.few k
  rw [windowsOf_concat, List.count_append] at hfew
  omega

theorem follows_step {c : Addr × Instant} (hcalls : Admitted (calls ++ [c]))
    (h : Follows calls seen forever)
    (hforever : forever = stateAfter allowForEver (fun _ => none) calls) :
    (allow seen c).1 = (allowForEver forever c).1.2 ∧
      Follows (calls ++ [c]) (allow seen c).2 (allowForEver forever c).2 := by
  obtain ⟨ip, now⟩ := c
  have hlast : ∀ c ∈ calls ++ [(ip, now)], c.2 ≤ now := by
    intro c hc
    rcases List.mem_append.mp hc with hc | hc
    · exact (List.pairwise_append.mp hcalls.ordered).2.2 c hc _ (List.mem_singleton.mpr rfl)
    · exact Nat.le_of_eq (congrArg Prod.snd (List.mem_singleton.mp hc))
  have hcounts := counts_run calls
  have hfew := hcalls.few (ip, (Window.call (forever ip) now).start)
  rw [← hforever] at hcounts
  rw [windowsOf_concat, ← hforever, List.count_append, List.count_singleton_self,
    ← (hcounts.next ip now).1] at hfew
  have hswept := h.sweep ip now
  obtain ⟨hip, hcall⟩ := hswept.countCall hlast hfew
  have hput := hswept.put (Host.countCall (Host.sweep now seen) ip now)
  rw [hip, ← hcall] at hput
  refine ⟨?_, hput⟩
  simp only [allow, allowForEver, hcall]
  exact decide_eq_decide.mpr UInt32.le_iff_toNat_le

theorem follows_empty : Follows [] Table.empty (fun _ : Addr => none) where
  kept e he := by cases he
  swept ip w hw := by cases hw

theorem decisions_eq (h : Admitted calls) : decisions calls = (foreverAnswers calls).map (·.2) :=
  (answers_eq_of_follows (fun _ _ => Admitted.front) follows_empty
    (fun _ _ _ _ => follows_step) h).1

def fromAddress (ip : Addr) (call : Addr × Instant) : Bool := call.1 = ip

theorem foreverAnswers_alone (ip : Addr) (calls : List (Addr × Instant)) :
    answersTo allowForEver (fun _ => none) (fromAddress ip) calls =
      foreverAnswers (calls.filter (fromAddress ip)) := by
  refine (answersTo_eq_alone (fun seen : Addr → Option Window => seen ip) ?_ ?_ calls).1
  · rintro ⟨ip', now⟩ seen seen' hip hsame
    have hip : ip' = ip := of_decide_eq_true hip
    rw [hip]
    simp [allowForEver, hsame]
  · rintro ⟨ip', now⟩ seen hip
    exact Function.update_of_ne (Ne.symm (of_decide_eq_false hip)) ..

theorem Admitted.alone (h : Admitted calls) (ip : Addr) :
    Admitted (calls.filter (fromAddress ip)) := by
  refine ⟨h.ordered.sublist List.filter_sublist, fun k => ?_⟩
  have hsub := (answersTo_sublist allowForEver (fun _ => none) (fromAddress ip) calls).map (·.1)
  rw [foreverAnswers_alone] at hsub
  exact Nat.lt_of_le_of_lt (hsub.count_le k) (h.few k)

theorem zip_windowsOf (h : Admitted calls) :
    (windowsOf calls).zip (decisions calls) = foreverAnswers calls := by
  rw [decisions_eq h, windowsOf, List.zip_map']
  exact List.map_id _

theorem admitted_of_length {calls : List (Addr × Instant)}
    (hordered : calls.Pairwise fun c c' => c.2 ≤ c'.2) (hlength : calls.length < 4294967296) :
    Admitted calls := by
  refine ⟨hordered, fun k => Nat.lt_of_le_of_lt List.count_le_length ?_⟩
  rw [windowsOf, List.length_map, foreverAnswers, length_answers]
  exact hlength

end Swept

/-- Sweeping is unobservable, no window of an address gets more than its budget, and no address
sees the calls of another. -/
theorem sweeping_is_unobservable (calls : List (Addr × Instant)) (h : Admitted calls) :
    decisions calls = (foreverAnswers calls).map (·.2) ∧
      (∀ k, ((windowsOf calls).zip (decisions calls)).count (k, true) ≤ maxPerWindow.toNat) ∧
      ∀ ip, answersTo allow .empty (fromAddress ip) calls =
        decisions (calls.filter (fromAddress ip)) := by
  refine ⟨decisions_eq h, fun k => ?_, fun ip => ?_⟩
  · rw [zip_windowsOf h, (counts_run calls).allowed k]
    exact Nat.min_le_right _ _
  · rw [answersTo_of_map (decisions_eq h), foreverAnswers_alone, decisions_eq (h.alone ip)]

/-- One address uses up its budget, another one calls, and the first one calls a minute later. -/
def busyMinute : List (Nat × Instant) :=
  List.replicate 31 (10, 5) ++ [(11, 5), (10, 60*1000000000+5)]

theorem sweeping_is_unobservable_sample :
    decisions busyMinute = (foreverAnswers busyMinute).map (·.2) ∧
      decisions busyMinute = List.replicate 30 true ++ [false, true, true] :=
  ⟨(sweeping_is_unobservable busyMinute (admitted_of_length (by decide) (by decide))).1,
    by decide⟩

end Cinder.Host
