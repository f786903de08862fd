import Mathlib.Data.List.Basic
set_option autoImplicit false

namespace Cinder.Storage

variable {Row Row' : Type}

/-- `ORDER BY … LIMIT 1`. -/
def firstBy (before : Row → Row → Bool) : List Row → Option Row
  | [] => none
  | r :: rs => match firstBy before rs with
    | none => some r
    | some r' => if before r r' then some r else some r'

/-- `JOIN … ON`. -/
def joined (on : Row → Row' → Bool) (rows : List Row) (rows' : List Row') : List (Row × Row') :=
  rows.flatMap fun r => (rows'.filter (on r)).map fun r' => (r, r')

theorem firstBy_mem {before : Row → Row → Bool} {rows : List Row} {r : Row}
    (h : firstBy before rows = some r) : r ∈ rows := by
  induction rows with
  | nil => cases h
  | cons r' rs ih =>
    unfold firstBy at h
    split at h
    · cases h
      exact List.mem_cons_self
    · next hrest =>
      split at h
      · cases h
        exact List.mem_cons_self
      · exact List.mem_cons_of_mem _ (ih (hrest.trans h))

theorem firstBy_isSome {before : Row → Row → Bool} {rows : List Row} :
    (firstBy before rows).isSome = true ↔ rows ≠ [] := by
  cases rows with
  | nil => simp [firstBy]
  | cons r rs =>
    simp only [ne_eq, reduceCtorEq, not_false_eq_true, iff_true]
    unfold firstBy
    split
    · rfl
    · split <;> rfl

theorem mem_joined {on : Row → Row' → Bool} {rows : List Row} {rows' : List Row'}
    {p : Row × Row'} : p ∈ joined on rows rows' ↔ p.1 ∈ rows ∧ p.2 ∈ rows' ∧ on p.1 p.2 = true := by
  simp only [joined, List.mem_flatMap, List.mem_map, List.mem_filter]
  constructor
  · rintro ⟨r, hr, r', hr', rfl⟩
    exact ⟨hr, hr'⟩
  · exact fun h => ⟨p.1, h.1, p.2, h.2, rfl⟩

theorem pairwise_joined {on : Row → Row' → Bool} {rows : List Row} {rows' : List Row'}
    {R : Row × Row' → Row × Row' → Prop}
    (hleft : rows.Pairwise fun r s => ∀ r' s', R (r, r') (s, s'))
    (hright : ∀ r, rows'.Pairwise fun r' s' => R (r, r') (r, s')) :
    (joined on rows rows').Pairwise R := by
  rw [joined, List.pairwise_flatMap]
  refine ⟨fun r _ => ?_, hleft.imp fun h x hx y hy => ?_⟩
  · exact List.pairwise_map.mpr ((hright r).sublist List.filter_sublist)
  · obtain ⟨r', -, rfl⟩ := List.mem_map.mp hx
    obtain ⟨s', -, rfl⟩ := List.mem_map.mp hy
    exact h r' s'

end Cinder.Storage
