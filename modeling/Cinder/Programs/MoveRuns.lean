import Mathlib.Algebra.Order.Monoid.Defs
import Mathlib.Data.List.Nodup
set_option autoImplicit false

namespace Cinder.Programs

variable {S M : Type} {step : S → M → S} {ok : S → M → Prop}

def RunMeets (step : S → M → S) (ok : S → M → Prop) : S → List M → Prop
  | _, [] => True
  | s, m :: ms => ok s m ∧ RunMeets step ok (step s m) ms

instance decidableRunMeets (step : S → M → S) (ok : S → M → Prop) [∀ s m, Decidable (ok s m)] :
    (s : S) → (ms : List M) → Decidable (RunMeets step ok s ms)
  | _, [] => .isTrue trivial
  | s, m :: ms =>
    have := decidableRunMeets step ok (step s m) ms
    inferInstanceAs (Decidable (_ ∧ _))

theorem runMeets_of_forall (h : ∀ s m, ok s m) (s : S) (ms : List M) : RunMeets step ok s ms := by
  induction ms generalizing s with
  | nil => trivial
  | cons m ms ih => exact ⟨h s m, ih _⟩

/-- What every admitted move keeps, an admitted run keeps. -/
theorem RunMeets.inv {I : S → Prop} (h : ∀ s m, I s → ok s m → I (step s m)) {s : S} {ms : List M}
    (hms : RunMeets step ok s ms) (hs : I s) : I (ms.foldl step s) := by
  induction ms generalizing s with
  | nil => exact hs
  | cons m ms ih => exact ih hms.2 (h s m hs hms.1)

theorem runMeets_append {s : S} {ms ns : List M} : RunMeets step ok s (ms ++ ns) ↔
    RunMeets step ok s ms ∧ RunMeets step ok (ms.foldl step s) ns := by
  induction ms generalizing s with
  | nil => simp [RunMeets]
  | cons m ms ih => simp [RunMeets, ih, and_assoc]

theorem RunMeets.of_prefix {s : S} {ms ns : List M} (hms : RunMeets step ok s ms) (h : ns <+: ms) :
    RunMeets step ok s ns := by
  induction ns generalizing s ms with
  | nil => trivial
  | cons n ns ih =>
    obtain ⟨rest, rfl⟩ := h
    exact ⟨hms.1, ih hms.2 (List.prefix_append ns rest)⟩

/-- Where the condition is what a move needs for `P` to hold after it, a run is
admitted if and only if `P` holds in every state it reaches. -/
theorem runMeets_iff {I P : S → Prop} (h : ∀ s m, I s → ok s m → I (step s m))
    (hP : ∀ s, I s → P s) (hok : ∀ s m, I s → P (step s m) → ok s m) {s : S} (hs : I s)
    (ms : List M) : RunMeets step ok s ms ↔ ∀ ns, ns <+: ms → P (ns.foldl step s) := by
  induction ms generalizing s with
  | nil =>
    refine ⟨fun _ ns hns => ?_, fun _ => trivial⟩
    rw [List.prefix_nil.mp hns]
    exact hP s hs
  | cons m ms ih =>
    constructor
    · rintro ⟨hm, hrest⟩ ns hns
      cases ns with
      | nil => exact hP s hs
      | cons n ns =>
        obtain ⟨rfl, htail⟩ := List.cons_prefix_cons.mp hns
        exact (ih (h s n hs hm)).mp hrest ns htail
    · intro hall
      have hm := hok s m hs (hall [m] (List.prefix_append [m] ms))
      refine ⟨hm, (ih (h s m hs hm)).mpr fun ns hns => ?_⟩
      exact hall (m :: ns) (List.cons_prefix_cons.mpr ⟨rfl, hns⟩)

/-- Two accounts of one run, of which the first never gains more than the second: they agree
at the end if and only if they agreed at the start and every move was admitted. -/
theorem runMeets_iff_accounts {A : Type} [AddCommMonoid A] [PartialOrder A]
    [IsOrderedCancelAddMonoid A] {f g : S → A} (h : ∀ s m, ∃ a b, f (step s m) = f s + a ∧
      g (step s m) = g s + b ∧ a ≤ b ∧ (a = b ↔ ok s m)) {s : S} (hs : f s ≤ g s) (ms : List M) :
    f (ms.foldl step s) = g (ms.foldl step s) ↔ f s = g s ∧ RunMeets step ok s ms := by
  induction ms generalizing s with
  | nil => exact (and_iff_left trivial).symm
  | cons m ms ih =>
    obtain ⟨a, b, hf, hg, hab, hok⟩ := h s m
    have hstep : f (step s m) ≤ g (step s m) := by
      rw [hf, hg]
      exact add_le_add hs hab
    rw [List.foldl_cons, ih hstep, hf, hg, add_eq_add_iff_eq_and_eq hs hab, hok, RunMeets, and_assoc]

end Cinder.Programs

/-!
Steps that are taken once each, in the order of a list, and recorded as they are taken:
what is still to come of them, from what is recorded.
-/

namespace Cinder.Programs

section Recorded
variable {ν σ ε : Type}

def pending (all : List ν) (recorded : ν → Bool) : List ν := all.filter fun m => !recorded m

def outcomeOf (apply : ν → σ → Except ε σ) (all : List ν) (recorded : ν → Bool) (s : σ) :
    Except ε σ :=
  (pending all recorded).foldlM (fun s m => apply m s) s

variable {apply : ν → σ → Except ε σ} {all before after : List ν} {recorded recorded' : ν → Bool}
  {m : ν} {s s' : σ}

theorem pending_congr (h : ∀ m ∈ all, recorded' m = recorded m) :
    pending all recorded' = pending all recorded :=
  List.filter_congr fun m hm => by rw [h m hm]

theorem pending_nil (h : ∀ m ∈ all, recorded m = true) : pending all recorded = [] :=
  List.filter_eq_nil_iff.mpr fun m hm => by simp [h m hm]

theorem pending_next (hbefore : ∀ b ∈ before, recorded b = true) (hm : recorded m = false) :
    pending (before ++ m :: after) recorded = m :: pending after recorded := by
  rw [pending, List.filter_append, List.filter_cons_of_pos (by simp [hm])]
  exact congrArg (· ++ m :: pending after recorded) (pending_nil hbefore)

theorem outcomeOf_congr (h : ∀ m ∈ all, recorded' m = recorded m) :
    outcomeOf apply all recorded' s = outcomeOf apply all recorded s := by
  rw [outcomeOf, pending_congr h, outcomeOf]

theorem outcomeOf_nil (h : ∀ m ∈ all, recorded m = true) :
    outcomeOf apply all recorded s = .ok s := by
  rw [outcomeOf, pending_nil h]
  rfl

theorem outcomeOf_error (hbefore : ∀ b ∈ before, recorded b = true) (hm : recorded m = false)
    {e : ε} (happly : apply m s = .error e) :
    outcomeOf apply (before ++ m :: after) recorded s = .error e := by
  rw [outcomeOf, pending_next hbefore hm, List.foldlM_cons, happly]
  rfl

theorem outcomeOf_record (hnodup : (before ++ m :: after).Nodup)
    (hbefore : ∀ b ∈ before, recorded b = true) (hm : recorded m = false)
    (happly : apply m s = .ok s') (hself : recorded' m = true)
    (hother : ∀ n, n ≠ m → recorded' n = recorded n) :
    outcomeOf apply (before ++ m :: after) recorded' s' =
      outcomeOf apply (before ++ m :: after) recorded s := by
  obtain ⟨-, hafter, hdisjoint⟩ := List.nodup_append.mp hnodup
  have hbefore' : ∀ b ∈ before ++ [m], recorded' b = true := by
    intro b hb
    rcases List.mem_append.mp hb with hb | hb
    · have hne : b ≠ m := hdisjoint b hb m List.mem_cons_self
      rw [hother b hne, hbefore b hb]
    · rw [List.mem_singleton.mp hb, hself]
  have hsplit : before ++ m :: after = (before ++ [m]) ++ after := by simp
  have hrest : pending (before ++ m :: after) recorded' = pending after recorded := by
    rw [hsplit, pending, List.filter_append]
    have hnone : (before ++ [m]).filter (fun m => !recorded' m) = [] := pending_nil hbefore'
    rw [hnone, List.nil_append]
    exact pending_congr fun n hn => hother n fun heq =>
      (List.nodup_cons.mp hafter).1 (heq ▸ hn)
  rw [outcomeOf, hrest, outcomeOf, pending_next hbefore hm, List.foldlM_cons, happly]
  rfl

end Recorded

end Cinder.Programs
