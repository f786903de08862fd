import Mathlib.Data.List.Lex
import Mathlib.Data.List.Sort
set_option autoImplicit false

namespace Cinder.Storage

variable {α : Type} [LinearOrder α]

/-- The least items, beyond the `keep` greatest ones. -/
def surplus (items : List α) (keep : Nat) : List α :=
  (items.mergeSort (· ≤ ·)).take (items.length-keep)

def later (items : List α) (x : α) : Nat := items.countP (x < ·)

variable {items : List α} {keep : Nat} {x y : α}

theorem length_surplus (items : List α) (keep : Nat) :
    (surplus items keep).length = items.length-keep := by
  rw [surplus, List.length_take, List.length_mergeSort]
  omega

theorem mem_of_mem_surplus (h : x ∈ surplus items keep) : x ∈ items :=
  List.mem_mergeSort.mp (List.mem_of_mem_take h)

theorem nodup_surplus (h : items.Nodup) (keep : Nat) : (surplus items keep).Nodup :=
  ((List.mergeSort_perm items _).nodup_iff.mpr h).sublist (List.take_sublist _ _)

theorem mem_drop_of_not_mem (hy : y ∈ items) (hkept : y ∉ surplus items keep) :
    y ∈ (items.mergeSort (· ≤ ·)).drop (items.length-keep) := by
  have hsorted : y ∈ items.mergeSort (· ≤ ·) := List.mem_mergeSort.mpr hy
  rw [← List.take_append_drop (items.length-keep) (items.mergeSort (· ≤ ·)),
    List.mem_append] at hsorted
  exact hsorted.resolve_left hkept

theorem le_of_surplus_of_drop (hx : x ∈ surplus items keep)
    (hy : y ∈ (items.mergeSort (· ≤ ·)).drop (items.length-keep)) : x ≤ y := by
  have hsorted := List.pairwise_mergeSort' (· ≤ ·) items
  rw [← List.take_append_drop (items.length-keep) (items.mergeSort (· ≤ ·)),
    List.pairwise_append] at hsorted
  exact hsorted.2.2 x hx y hy

theorem le_of_surplus (hx : x ∈ surplus items keep) (hy : y ∈ items)
    (hkept : y ∉ surplus items keep) : x ≤ y :=
  le_of_surplus_of_drop hx (mem_drop_of_not_mem hy hkept)

theorem countP_split (items : List α) (keep : Nat) (p : α → Bool) : items.countP p = (surplus items keep).countP p +
    ((items.mergeSort (· ≤ ·)).drop (items.length-keep)).countP p := by
  rw [surplus, ← List.countP_append, List.take_append_drop]
  exact ((List.mergeSort_perm items _).countP_eq p).symm

theorem mem_surplus_iff (h : items.Nodup) :
    x ∈ surplus items keep ↔ x ∈ items ∧ keep ≤ later items x := by
  unfold later
  have hlength : ((items.mergeSort (· ≤ ·)).drop (items.length-keep)).length =
      items.length-(items.length-keep) := by
    rw [List.length_drop, List.length_mergeSort]
  constructor
  · intro hx
    refine ⟨mem_of_mem_surplus hx, ?_⟩
    have hpos : 0 < items.length-keep := by
      rw [← length_surplus]
      exact List.length_pos_of_mem hx
    have hnodup := (List.mergeSort_perm items (· ≤ ·)).nodup_iff.mpr h
    rw [← List.take_append_drop (items.length-keep) (items.mergeSort (· ≤ ·)),
      List.nodup_append] at hnodup
    have hall : ((items.mergeSort (· ≤ ·)).drop (items.length-keep)).countP (x < ·) =
        ((items.mergeSort (· ≤ ·)).drop (items.length-keep)).length :=
      List.countP_eq_length.mpr fun y hy => decide_eq_true
        (lt_of_le_of_ne (le_of_surplus_of_drop hx hy) (hnodup.2.2 x hx y hy))
    rw [countP_split items keep, hall, hlength]
    omega
  · rintro ⟨hx, hcount⟩
    by_contra hkept
    have hdrop := mem_drop_of_not_mem hx hkept
    have hnone : (surplus items keep).countP (x < ·) = 0 := List.countP_eq_zero.mpr fun y hy => by
      simpa using le_of_surplus_of_drop hy hdrop
    have hless : ((items.mergeSort (· ≤ ·)).drop (items.length-keep)).countP (x < ·) <
        ((items.mergeSort (· ≤ ·)).drop (items.length-keep)).length := by
      refine lt_of_le_of_ne List.countP_le_length fun hall => ?_
      have hself := List.countP_eq_length.mp hall x hdrop
      simp at hself
    rw [countP_split items keep, hnone] at hcount
    omega

theorem length_kept (h : items.Nodup) (keep : Nat) (stays : α → Bool)
    (hstays : ∀ x ∈ items, stays x = true ↔ x ∉ surplus items keep) :
    (items.filter stays).length = min keep items.length := by
  have hover : (items.filter fun x => !stays x).Perm (surplus items keep) := by
    refine (List.perm_ext_iff_of_nodup (h.filter _) (nodup_surplus h keep)).mpr fun x => ?_
    rw [List.mem_filter, Bool.not_eq_true']
    constructor
    · rintro ⟨hx, hgone⟩
      by_contra hkept
      rw [(hstays x hx).mpr hkept] at hgone
      cases hgone
    · intro hx
      have hmem := mem_of_mem_surplus hx
      exact ⟨hmem, Bool.eq_false_iff.mpr fun hstay => (hstays x hmem).mp hstay hx⟩
  have hsplit := List.length_eq_length_filter_add (l := items) stays
  rw [hover.length_eq, length_surplus] at hsplit
  omega

theorem later_congr {items' : List α} (h : items.Nodup) (h' : items'.Nodup)
    (hsame : ∀ y, x < y → (y ∈ items ↔ y ∈ items')) : later items x = later items' x := by
  have hperm : (items.filter (x < ·)).Perm (items'.filter (x < ·)) := by
    refine (List.perm_ext_iff_of_nodup (h.filter _) (h'.filter _)).mpr fun y => ?_
    simp only [List.mem_filter, decide_eq_true_eq]
    exact and_congr_left (hsame y)
  rw [later, later, List.countP_eq_length_filter, List.countP_eq_length_filter, hperm.length_eq]

theorem take_lt_of_take_lt {a b : List α} {n : Nat} (h : b.take n < a.take n) : b < a := by
  induction n generalizing a b with
  | zero => simp at h
  | succ n ih =>
    cases a with
    | nil => simp at h
    | cons x a =>
      cases b with
      | nil => exact List.nil_lt_cons x a
      | cons y b =>
        rw [List.take_succ_cons, List.take_succ_cons, List.cons_lt_cons_iff] at h
        rw [List.cons_lt_cons_iff]
        exact h.imp id fun ⟨heq, hlt⟩ => ⟨heq, ih hlt⟩

theorem take_le_take_of_append {p a b : List α} (h : p ++ a ≤ p ++ b) (n : Nat) :
    a.take n ≤ b.take n := by
  by_contra hlt
  have htake : b.take n < a.take n := not_le.mp hlt
  have happend : p ++ b < p ++ a := List.append_left_lt (take_lt_of_take_lt htake)
  exact not_lt.mpr h happend

end Cinder.Storage
