import Mathlib.Data.List.Induction
import Mathlib.Data.List.MinMax
import Mathlib.Order.Nat
set_option autoImplicit false

/-!
Rows that are only ever added, in the order they were added: numbered without a
gap, or each carrying on from where the one before it ended.
-/

namespace Cinder.Storage

variable {Row : Type} {rows : List Row}

section Numbered
variable {number : Row → Int}

def Numbered (number : Row → Int) (rows : List Row) : Prop :=
  rows.map number = (List.range rows.length).map fun k : Nat => (k : Int)+1

instance (number : Row → Int) (rows : List Row) : Decidable (Numbered number rows) :=
  inferInstanceAs (Decidable (_ = _))

@[simp] theorem numbered_nil : Numbered number [] := rfl

theorem numbered_concat {r : Row} :
    Numbered number (rows ++ [r]) ↔ Numbered number rows ∧ number r = rows.length+1 := by
  unfold Numbered
  rw [List.length_append, List.length_singleton, List.range_succ, List.map_append, List.map_append]
  constructor
  · intro h
    obtain ⟨hrows, hr⟩ := List.append_inj h (by simp)
    exact ⟨hrows, by simpa using hr⟩
  · rintro ⟨hrows, hr⟩
    rw [hrows]
    simp [hr]

theorem Numbered.exists_iff (h : Numbered number rows) {k : Int} :
    (∃ r ∈ rows, number r = k) ↔ 1 ≤ k ∧ k ≤ rows.length := by
  rw [← List.mem_map, h]
  simp only [List.mem_map, List.mem_range]
  constructor
  · rintro ⟨n, hn, rfl⟩
    omega
  · rintro ⟨hlow, hhigh⟩
    exact ⟨(k-1).toNat, by omega, by omega⟩

theorem Numbered.max? (h : Numbered number rows) :
    ((rows.map number).max?).getD 0 = rows.length := by
  cases hmax : (rows.map number).max? with
  | none =>
    have hnil := List.max?_eq_none_iff.mp hmax
    simp [List.map_eq_nil_iff.mp hnil]
  | some k =>
    obtain ⟨hmem, hle⟩ := List.max?_eq_some_iff.mp hmax
    have hk := h.exists_iff.mp (List.mem_map.mp hmem)
    obtain ⟨r, hr, hlast⟩ := h.exists_iff.mpr (by omega : 1 ≤ (rows.length : Int) ∧ _ ≤ _)
    have hle' := hle _ (List.mem_map.mpr ⟨r, hr, rfl⟩)
    simp only [Option.getD_some]
    omega

theorem Numbered.max?_nat {number : Row → Nat} (h : Numbered (fun r => (number r : Int)) rows) :
    ((rows.map number).max?).getD 0 = rows.length := by
  cases hmax : (rows.map number).max? with
  | none =>
    have hnil := List.max?_eq_none_iff.mp hmax
    simp [List.map_eq_nil_iff.mp hnil]
  | some k =>
    obtain ⟨hmem, hle⟩ := List.max?_eq_some_iff.mp hmax
    obtain ⟨r, hr, rfl⟩ := List.mem_map.mp hmem
    have hbound := h.exists_iff.mp ⟨r, hr, rfl⟩
    obtain ⟨r', hr', hlast⟩ := h.exists_iff.mpr (by omega : 1 ≤ (rows.length : Int) ∧ _ ≤ _)
    have hle' := hle _ (List.mem_map.mpr ⟨r', hr', rfl⟩)
    simp only [Option.getD_some]
    omega

theorem Numbered.foldr_max {number : Row → Nat} (h : Numbered (fun r => (number r : Int)) rows) :
    (rows.map number).foldr max 0 = rows.length := by
  refine le_antisymm (List.max_le_of_forall_le _ _ fun k hk => ?_) ?_
  · obtain ⟨r, hr, rfl⟩ := List.mem_map.mp hk
    have hbound := h.exists_iff.mp ⟨r, hr, rfl⟩
    omega
  · by_cases hlen : rows.length = 0
    · omega
    · obtain ⟨r, hr, hlast⟩ := h.exists_iff.mpr (by omega : 1 ≤ (rows.length : Int) ∧ _ ≤ _)
      refine List.le_max_of_le (List.mem_map_of_mem hr) ?_
      omega

end Numbered

section Chained
variable {Value : Type} {before after : Row → Value}

/-- The first row starts from `first`, each later one from what the row before
it left, and the last one leaves `last`. -/
def Chained (before after : Row → Value) (first : Value) : List Row → Value → Prop
  | [], last => first = last
  | r :: rows, last => before r = first ∧ Chained before after (after r) rows last

theorem chained_concat {first last : Value} {r : Row} :
    Chained before after first (rows ++ [r]) last ↔
      Chained before after first rows (before r) ∧ after r = last := by
  induction rows generalizing first with
  | nil => simp [Chained, eq_comm]
  | cons x rows ih => simp [Chained, ih, and_assoc]

instance decidableChained [DecidableEq Value] (before after : Row → Value) (first : Value) :
    (rows : List Row) → (last : Value) → Decidable (Chained before after first rows last)
  | [], last => inferInstanceAs (Decidable (first = last))
  | r :: rows, last =>
    have := decidableChained before after (after r) rows last
    inferInstanceAs (Decidable (_ ∧ _))

end Chained

end Cinder.Storage

namespace Cinder.Storage

variable {Value : Type} {last v : Value} {log : List Value}

/-- No entry with another value follows one with `last`. -/
def ClosedBy (last : Value) (log : List Value) : Prop :=
  log.Pairwise fun v w => v = last → w = last

@[simp] theorem closedBy_nil : ClosedBy last ([] : List Value) := List.Pairwise.nil

theorem closedBy_concat : ClosedBy last (log ++ [v]) ↔
    ClosedBy last log ∧ (last ∈ log → v = last) := by
  unfold ClosedBy
  rw [List.pairwise_append]
  refine and_congr_right fun _ => ⟨fun h hmem => h.2 last hmem v (by simp) rfl, fun h => ?_⟩
  refine ⟨List.pairwise_singleton _ _, fun w hw v' hv' hlast => ?_⟩
  rw [List.mem_singleton.mp hv']
  exact h (hlast ▸ hw)

variable [DecidableEq Value]

instance (last : Value) (log : List Value) : Decidable (ClosedBy last log) :=
  inferInstanceAs (Decidable (List.Pairwise _ _))

/-- The value after an entry. The value `last` is not replaced. -/
def absorb (last : Value) (current : Option Value) (v : Value) : Option Value :=
  if current = some last then current else some v

def absorbed (last : Value) (log : List Value) : Option Value := log.foldl (absorb last) none

@[simp] theorem absorbed_nil : absorbed last [] = none := rfl

@[simp] theorem absorbed_concat :
    absorbed last (log ++ [v]) = absorb last (absorbed last log) v := by
  simp [absorbed]

theorem absorbed_eq_last_iff : absorbed last log = some last ↔ last ∈ log := by
  induction log using List.reverseRecOn with
  | nil => simp
  | append_singleton log v ih =>
    rw [absorbed_concat, absorb]
    split
    · next h => simp [h, ih.mp h]
    · next h => simp [mt ih.mpr h, eq_comm]

end Cinder.Storage
