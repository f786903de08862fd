import Mathlib.Algebra.BigOperators.Group.List.Basic
import Mathlib.Algebra.Order.BigOperators.Group.List
import Mathlib.Algebra.Order.Field.Basic
import Mathlib.Algebra.Order.Floor.Semiring
import Mathlib.Data.List.Sort
import Mathlib.Tactic.Linarith
set_option autoImplicit false

namespace Cinder.Storage

section Quantiles
variable {K : Type} [Field K] [LinearOrder K] [IsStrictOrderedRing K] [FloorSemiring K]

/-- The value at a place between two neighbours, in proportion to its distance from them. -/
def interpolated (xs : List K) (pos : K) : Option K := do
  let a ← xs[⌊pos⌋₊]?
  let b ← xs[⌈pos⌉₊]?
  some (a+(b-a)*(pos-⌊pos⌋₊))

variable {xs : List K} {p q : K}

omit [IsStrictOrderedRing K] in
theorem interpolated_of {pos a b : K} (ha : xs[⌊pos⌋₊]? = some a) (hb : xs[⌈pos⌉₊]? = some b) :
    interpolated xs pos = some (a+(b-a)*(pos-⌊pos⌋₊)) := by
  rw [interpolated, ha, hb]
  rfl

@[simp] theorem interpolated_natCast (n : ℕ) : interpolated xs (n : K) = xs[n]? := by
  rw [interpolated, Nat.floor_natCast, Nat.ceil_natCast]
  cases xs[n]? <;> simp

omit [Field K] [IsStrictOrderedRing K] [FloorSemiring K] in
theorem le_of_sorted (hs : xs.SortedLE) {i j : ℕ} {a b : K} (h : i ≤ j) (ha : xs[i]? = some a)
    (hb : xs[j]? = some b) : a ≤ b := by
  obtain ⟨hi, rfl⟩ := List.getElem?_eq_some_iff.mp ha
  obtain ⟨hj, rfl⟩ := List.getElem?_eq_some_iff.mp hb
  exact hs.getElem_le_getElem_of_le h

omit [Field K] [IsStrictOrderedRing K] [FloorSemiring K] in
theorem head_le (hs : xs.SortedLE) {m x : K} (hm : xs.head? = some m) (hx : x ∈ xs) : m ≤ x := by
  obtain ⟨i, hi⟩ := List.mem_iff_getElem?.mp hx
  rw [List.head?_eq_getElem?] at hm
  exact le_of_sorted hs (Nat.zero_le i) hm hi

omit [Field K] [IsStrictOrderedRing K] [FloorSemiring K] in
theorem le_getLast (hs : xs.SortedLE) {m x : K} (hm : xs.getLast? = some m) (hx : x ∈ xs) :
    x ≤ m := by
  obtain ⟨i, hi⟩ := List.mem_iff_getElem?.mp hx
  obtain ⟨hlt, -⟩ := List.getElem?_eq_some_iff.mp hi
  rw [List.getLast?_eq_getElem?] at hm
  exact le_of_sorted hs (by omega) hi hm

/-- Every place between the first and the last has neighbours, and its value is between theirs. -/
theorem exists_interpolated {pos : K} (hs : xs.SortedLE) (hpos : 0 ≤ pos)
    (h : ⌈pos⌉₊ < xs.length) :
    ∃ a x b, xs[⌊pos⌋₊]? = some a ∧ xs[⌈pos⌉₊]? = some b ∧ interpolated xs pos = some x ∧
      a ≤ x ∧ x ≤ b := by
  have ha := List.getElem?_eq_getElem ((Nat.floor_le_ceil pos).trans_lt h)
  have hb := List.getElem?_eq_getElem h
  have hle := le_of_sorted hs (Nat.floor_le_ceil pos) ha hb
  have hlow : 0 ≤ pos-⌊pos⌋₊ := sub_nonneg.mpr (Nat.floor_le hpos)
  have hhigh : pos-⌊pos⌋₊ ≤ 1 := by linarith [Nat.lt_floor_add_one pos]
  refine ⟨_, _, _, ha, hb, interpolated_of ha hb, ?_, ?_⟩
  · have hnonneg := mul_nonneg (sub_nonneg.mpr hle) hlow
    linarith
  · have hmul := mul_le_of_le_one_right (sub_nonneg.mpr hle) hhigh
    linarith

theorem interpolated_mono (hs : xs.SortedLE) (hp : 0 ≤ p) (h : p ≤ q) (hq : ⌈q⌉₊ < xs.length) :
    ∃ x y, interpolated xs p = some x ∧ interpolated xs q = some y ∧ x ≤ y := by
  obtain ⟨a, x, b, ha, hb, hx, -, hxb⟩ :=
    exists_interpolated hs hp ((Nat.ceil_mono h).trans_lt hq)
  obtain ⟨a', y, b', ha', hb', hy, hay, -⟩ := exists_interpolated hs (hp.trans h) hq
  refine ⟨x, y, hx, hy, ?_⟩
  by_cases hapart : ⌈p⌉₊ ≤ ⌊q⌋₊
  · exact hxb.trans ((le_of_sorted hs hapart hb ha').trans hay)
  · -- Both places are between the same neighbours.
    have hpnext := Nat.ceil_le_floor_add_one p
    have hqnext := Nat.ceil_le_floor_add_one q
    have hfloors := Nat.floor_mono h
    have hceils := Nat.ceil_mono h
    have hfloor : ⌊p⌋₊ = ⌊q⌋₊ := by omega
    have hceil : ⌈p⌉₊ = ⌈q⌉₊ := by omega
    rw [hfloor, ha'] at ha
    rw [hceil, hb'] at hb
    obtain rfl := Option.some.inj ha
    obtain rfl := Option.some.inj hb
    have hle := le_of_sorted hs (Nat.floor_le_ceil q) ha' hb'
    rw [interpolated_of (hfloor ▸ ha') (hceil ▸ hb'), hfloor] at hx
    rw [interpolated_of ha' hb'] at hy
    obtain rfl := Option.some.inj hx
    obtain rfl := Option.some.inj hy
    have hmul := mul_le_mul_of_nonneg_left (sub_le_sub_right h (⌊q⌋₊ : K)) (sub_nonneg.mpr hle)
    linarith

def quantile (xs : List K) (p : K) : Option K :=
  if xs.isEmpty then none else interpolated xs (p*((xs.length-1 : ℕ) : K))

theorem quantile_mono (hs : xs.SortedLE) (hne : xs ≠ []) (hp : 0 ≤ p) (h : p ≤ q) (hq : q ≤ 1) :
    ∃ x y, quantile xs p = some x ∧ quantile xs q = some y ∧ x ≤ y := by
  have hempty : xs.isEmpty = false := by simpa using hne
  have hlength := List.length_pos_of_ne_nil hne
  have hlast : (0 : K) ≤ (xs.length-1 : ℕ) := Nat.cast_nonneg _
  have hceil : ⌈q*((xs.length-1 : ℕ) : K)⌉₊ ≤ xs.length-1 :=
    Nat.ceil_le.mpr (mul_le_of_le_one_left hlast hq)
  simp only [quantile, hempty]
  exact interpolated_mono hs (mul_nonneg hp hlast) (mul_le_mul_of_nonneg_right h hlast)
    (by omega)

theorem quantile_zero (xs : List K) : quantile xs 0 = xs.head? := by
  cases xs with
  | nil => rfl
  | cons x xs => rw [quantile, zero_mul, ← Nat.cast_zero, interpolated_natCast]; rfl

theorem quantile_one (xs : List K) : quantile xs 1 = xs.getLast? := by
  cases xs with
  | nil => rfl
  | cons x xs => rw [quantile, one_mul, interpolated_natCast, List.getLast?_eq_getElem?]; rfl

end Quantiles

section Means
variable {K : Type} [Field K] [LinearOrder K] [IsStrictOrderedRing K] {xs : List K} {m : K}

def mean (xs : List K) : Option K := if xs.isEmpty then none else some (xs.sum/xs.length)

theorem mean_le (hne : xs ≠ []) (h : ∀ x ∈ xs, x ≤ m) : xs.sum/xs.length ≤ m := by
  have hlength : (0 : K) < xs.length := by exact_mod_cast List.length_pos_of_ne_nil hne
  rw [div_le_iff₀ hlength, mul_comm, ← nsmul_eq_mul]
  exact List.sum_le_card_nsmul xs m h

theorem le_mean (hne : xs ≠ []) (h : ∀ x ∈ xs, m ≤ x) : m ≤ xs.sum/xs.length := by
  have hlength : (0 : K) < xs.length := by exact_mod_cast List.length_pos_of_ne_nil hne
  rw [le_div_iff₀ hlength, mul_comm, ← nsmul_eq_mul]
  exact List.card_nsmul_le_sum xs m h

end Means

section Classes
variable {α : Type} (f : α → ℕ)

def tally (n : ℕ) (xs : List α) : List ℕ :=
  xs.foldl (fun counts x => counts.modify (f x) (·+1)) (List.replicate n 0)

variable {f}

theorem sum_modify {counts : List ℕ} {i : ℕ} (h : i < counts.length) :
    (counts.modify i (·+1)).sum = counts.sum+1 := by
  induction counts generalizing i with
  | nil => cases h
  | cons c counts ih =>
    cases i with
    | zero => simp; omega
    | succ i =>
      have hi := ih (Nat.lt_of_succ_lt_succ h)
      simp; omega

theorem countP_add (p q : α → Bool) (xs : List α) :
    xs.countP p+xs.countP q+xs.countP (fun x => !p x && !q x) =
      xs.length+xs.countP fun x => p x && q x := by
  induction xs with
  | nil => rfl
  | cons x xs ih =>
    simp only [List.countP_cons, List.length_cons]
    cases p x <;> cases q x <;> simp <;> omega

theorem length_tally (n : ℕ) (xs : List α) : (tally f n xs).length = n := by
  have hfold (counts : List ℕ) :
      (xs.foldl (fun counts x => counts.modify (f x) (·+1)) counts).length = counts.length := by
    induction xs generalizing counts with
    | nil => rfl
    | cons x xs ih => rw [List.foldl_cons, ih, List.length_modify]
  rw [tally, hfold, List.length_replicate]

theorem sum_tally {n : ℕ} {xs : List α} (h : ∀ x ∈ xs, f x < n) :
    (tally f n xs).sum = xs.length := by
  have hfold (counts : List ℕ) (hcounts : counts.length = n) :
      (xs.foldl (fun counts x => counts.modify (f x) (·+1)) counts).sum =
        counts.sum+xs.length := by
    induction xs generalizing counts with
    | nil => rfl
    | cons x xs ih =>
      rw [List.forall_mem_cons] at h
      rw [List.foldl_cons, ih h.2 _ (by rw [List.length_modify, hcounts]),
        sum_modify (by rw [hcounts]; exact h.1), List.length_cons]
      omega
  rw [tally, hfold _ (List.length_replicate ..)]
  simp

end Classes

end Cinder.Storage
