import Mathlib.Data.List.Basic
import Mathlib.Data.List.DropRight
set_option autoImplicit false

namespace Cinder.Streams
variable {α : Type} (p : α → Bool)

def strip (s : List α) : List α := (s.dropWhile p).rdropWhile p

variable (s : List α)

theorem strip_sublist : (strip p s).Sublist s :=
  (List.rdropWhile_prefix p _).sublist.trans (List.dropWhile_suffix p).sublist

theorem not_head_dropWhile {x : α} {rest : List α} (h : s.dropWhile p = x :: rest) :
    p x = false := by
  have hfirst := List.head?_dropWhile_not p s
  rw [h] at hfirst
  exact hfirst

theorem dropWhile_strip : (strip p s).dropWhile p = strip p s := by
  obtain ⟨after, hafter⟩ := List.rdropWhile_prefix p (s.dropWhile p)
  change strip p s ++ after = s.dropWhile p at hafter
  cases hs : strip p s with
  | nil => rfl
  | cons x rest =>
    rw [hs] at hafter
    have hx := not_head_dropWhile p s hafter.symm
    exact List.dropWhile_cons_of_neg (by simp [hx])

@[simp] theorem strip_strip : strip p (strip p s) = strip p s := by
  rw [strip, dropWhile_strip]
  exact List.rdropWhile_idempotent p _

theorem strip_eq_nil_iff : strip p s = [] ↔ ∀ x ∈ s, p x = true := by
  rw [strip, List.rdropWhile_eq_nil_iff]
  constructor
  · intro h
    rw [← List.dropWhile_eq_nil_iff]
    cases hs : s.dropWhile p with
    | nil => rfl
    | cons x rest =>
      rw [hs] at h
      exact absurd (h x List.mem_cons_self) (by simp [not_head_dropWhile p s hs])
  · intro h x hx
    exact h x ((List.dropWhile_suffix p).subset hx)

variable {p}

theorem rdropWhile_append_cons {x : α} (hx : p x = false) (t : List α) :
    (s ++ x :: t).rdropWhile p = s ++ x :: t.rdropWhile p := by
  have hstop : (x :: s.reverse).dropWhile p = x :: s.reverse :=
    List.dropWhile_cons_of_neg (by simp [hx])
  simp only [List.rdropWhile, List.reverse_append, List.reverse_cons, List.append_assoc,
    List.singleton_append, List.dropWhile_append]
  split
  · next hempty =>
    simp [List.isEmpty_iff.mp hempty, hstop]
  · simp

theorem strip_of_forall {s : List α} (hs : ∀ x ∈ s, p x = false) : strip p s = s := by
  have hfront : s.dropWhile p = s := by
    cases s with
    | nil => rfl
    | cons x s => exact List.dropWhile_cons_of_neg (by simp [hs x (by simp)])
  rw [strip, hfront, List.rdropWhile_eq_self_iff]
  intro hne
  simp [hs _ (List.getLast_mem hne)]

theorem strip_cons {x : α} (hx : p x = true) : strip p (x :: s) = strip p s := by
  rw [strip, List.dropWhile_cons_of_pos hx, strip]

theorem strip_concat {x : α} (hx : p x = true) : strip p (s ++ [x]) = strip p s := by
  unfold strip
  rw [List.dropWhile_append]
  split
  · next hempty =>
    rw [List.isEmpty_iff.mp hempty, List.dropWhile_cons_of_pos hx, List.dropWhile_nil]
  · rw [List.rdropWhile_concat_pos p _ x hx]

end Cinder.Streams

/-!
The runs of a text: the longest stretches whose letters all satisfy a predicate.
-/

namespace Cinder.Streams
variable {α : Type}

section Parts
variable {p q : α → Bool}

theorem splitOnP_eq_flatMap (h : ∀ x, q x = true → p x = true) (s : List α) :
    s.splitOnP p = (s.splitOnP q).flatMap (List.splitOnP p) := by
  induction s with
  | nil => rfl
  | cons x s ih =>
    rw [List.splitOnP_cons_eq_if_modifyHead, List.splitOnP_cons_eq_if_modifyHead, ih]
    obtain ⟨first, rest, hparts⟩ := List.exists_cons_of_ne_nil (List.splitOnP_ne_nil q s)
    rw [hparts]
    cases hq : q x with
    | true => simp [h x hq]
    | false =>
      obtain ⟨a, b, hfirst⟩ := List.exists_cons_of_ne_nil (List.splitOnP_ne_nil p first)
      cases hp : p x with
      | true => simp [List.splitOnP_cons_eq_if_modifyHead, hp]
      | false => simp [List.splitOnP_cons_eq_if_modifyHead, hp, hfirst]

theorem flatten_splitOnP (s : List α) :
    (s.splitOnP p).flatten = s.filter fun x => !p x := by
  induction s with
  | nil => rfl
  | cons x s ih =>
    rw [List.splitOnP_cons_eq_if_modifyHead]
    obtain ⟨first, rest, hparts⟩ := List.exists_cons_of_ne_nil (List.splitOnP_ne_nil p s)
    rw [hparts] at ih ⊢
    cases hp : p x with
    | true => simpa [hp] using ih
    | false => simpa [hp] using ih

end Parts

section Runs
variable (q : α → Bool)

def runs (s : List α) : List (List α) :=
  (s.splitOnP fun x => !q x).filter fun r => !r.isEmpty

variable {q} {s r : List α}

theorem ne_nil_of_mem_runs (h : r ∈ runs q s) : r ≠ [] := by
  have hr := (List.mem_filter.mp h).2
  intro hnil
  simp [hnil] at hr

theorem flatten_runs (s : List α) : (runs q s).flatten = s.filter q := by
  rw [runs, List.flatten_filter_not_isEmpty, flatten_splitOnP]
  simp

theorem of_mem_runs (h : r ∈ runs q s) : ∀ x ∈ r, x ∈ s ∧ q x = true := by
  intro x hx
  have hmem : x ∈ (runs q s).flatten := List.mem_flatten.mpr ⟨r, h, hx⟩
  rw [flatten_runs] at hmem
  exact List.mem_filter.mp hmem

theorem runs_of_forall (hne : s ≠ []) (h : ∀ x ∈ s, q x = true) : runs q s = [s] := by
  rw [runs, List.splitOnP_eq_singleton fun x hx => by simp [h x hx]]
  simp [hne]

theorem runs_append_cons {x : α} (hx : q x = false) (s t : List α) :
    runs q (s ++ x :: t) = runs q s ++ runs q t := by
  rw [runs, List.splitOnP_append_cons s t (by simp [hx]), List.filter_append]
  rfl

theorem runs_dropWhile (s : List α) : runs q (s.dropWhile fun x => !q x) = runs q s := by
  induction s with
  | nil => rfl
  | cons x s ih =>
    cases hx : q x with
    | true => rw [List.dropWhile_cons_of_neg (by simp [hx])]
    | false =>
      rw [List.dropWhile_cons_of_pos (by simp [hx]), ih]
      exact (runs_append_cons hx [] s).symm

theorem runs_rdropWhile (s : List α) : runs q (s.rdropWhile fun x => !q x) = runs q s := by
  induction s using List.reverseRecOn with
  | nil => rfl
  | append_singleton s x ih =>
    cases hx : q x with
    | true => rw [List.rdropWhile_concat_neg _ _ _ (by simp [hx])]
    | false =>
      rw [List.rdropWhile_concat_pos _ _ _ (by simp [hx]), ih, runs_append_cons hx]
      simp [runs]

@[simp] theorem runs_strip (s : List α) : runs q (strip (fun x => !q x) s) = runs q s := by
  rw [strip, runs_rdropWhile, runs_dropWhile]

theorem mem_runs_iff {p : α → Bool} (h : ∀ x, q x = true → p x = true) :
    r ∈ runs q s ↔ ∃ v ∈ runs p s, r ∈ runs q v := by
  have hcut : s.splitOnP (fun x => !q x) =
      (s.splitOnP fun x => !p x).flatMap (List.splitOnP fun x => !q x) :=
    splitOnP_eq_flatMap (fun x hx => by
      cases hqx : q x with
      | true => simp [h x hqx] at hx
      | false => rfl) s
  simp only [runs, hcut, List.mem_filter, List.mem_flatMap]
  constructor
  · rintro ⟨⟨v, hv, hr⟩, hne⟩
    refine ⟨v, ⟨hv, ?_⟩, hr, hne⟩
    cases v with
    | nil => simp_all
    | cons x v => rfl
  · rintro ⟨v, ⟨hv, -⟩, hr, hne⟩
    exact ⟨⟨v, hv, hr⟩, hne⟩

theorem runs_eq_singleton (h : r ∈ runs q s) (hlen : (s.filter q).length ≤ r.length) :
    runs q s = [s.filter q] := by
  obtain ⟨before, after, hruns⟩ := List.append_of_mem h
  have hall := flatten_runs (q := q) s
  rw [hruns, List.flatten_append, List.flatten_cons] at hall
  rw [← hall, List.length_append, List.length_append] at hlen
  have hrest : before.flatten = [] ∧ after.flatten = [] :=
    ⟨List.eq_nil_of_length_eq_zero (by omega), List.eq_nil_of_length_eq_zero (by omega)⟩
  have hnil : ∀ l : List (List α), (∀ t ∈ l, t ∈ runs q s) → l.flatten = [] → l = [] := by
    intro l hl hflat
    cases l with
    | nil => rfl
    | cons t l =>
      exact absurd (List.flatten_eq_nil_iff.mp hflat t List.mem_cons_self)
        (ne_nil_of_mem_runs (hl t List.mem_cons_self))
  have hbefore := hnil before (fun t ht => by rw [hruns]; simp [ht]) hrest.1
  have hafter := hnil after (fun t ht => by rw [hruns]; simp [ht]) hrest.2
  rw [hruns, ← hall, hbefore, hafter]
  simp

end Runs

end Cinder.Streams
