import Mathlib.Logic.Relation
set_option autoImplicit false

namespace Cinder.Storage
open Relation

variable {α : Type} {parent parent' : α → Option α}

def Up (parent : α → Option α) (a b : α) : Prop := parent a = some b

def Acyclic (parent : α → Option α) : Prop := ∀ a, ¬TransGen (Up parent) a a

theorem Acyclic.of_le (h : Acyclic parent) (hle : ∀ a b, parent' a = some b → parent a = some b) :
    Acyclic parent' := fun a ha => h a (TransGen.mono hle a a ha)

/-- A way up in a tree where only `m` has another parent: either it is a way up in
the old tree, or it passes `m`. -/
theorem transGen_or_passes {m : α} (hsame : ∀ a b, a ≠ m → parent' a = some b → parent a = some b)
    {a b : α} (h : TransGen (Up parent') a b) :
    TransGen (Up parent) a b ∨ ReflTransGen (Up parent') a m ∧ TransGen (Up parent') m b := by
  induction h with
  | single hab =>
    by_cases ha : a = m
    · subst ha
      exact .inr ⟨.refl, .single hab⟩
    · exact .inl (.single (hsame _ _ ha hab))
  | @tail y b hay hyb ih =>
    by_cases hy : y = m
    · subst hy
      exact .inr ⟨hay.to_reflTransGen, .single hyb⟩
    · exact ih.imp (fun hold => hold.tail (hsame _ _ hy hyb)) fun hm => ⟨hm.1, hm.2.tail hyb⟩

/-- The same for a way up to `m`: it begins with a way up in the old tree. -/
theorem reaches_of_repointed {m : α}
    (hsame : ∀ a b, a ≠ m → parent' a = some b → parent a = some b) {a b : α}
    (h : ReflTransGen (Up parent') a b) :
    ReflTransGen (Up parent) a b ∨ ReflTransGen (Up parent) a m := by
  induction h with
  | refl => exact .inl .refl
  | @tail y b _ hyb ih =>
    rcases ih with hold | hm
    · by_cases hy : y = m
      · exact .inr (hy ▸ hold)
      · exact .inl (hold.tail (hsame _ _ hy hyb))
    · exact .inr hm

/-- Only `m` gets another parent, and `m` is neither that parent nor above it. -/
theorem Acyclic.repoint (h : Acyclic parent) {m : α}
    (hsame : ∀ a b, a ≠ m → parent' a = some b → parent a = some b)
    (hnew : ∀ p, parent' m = some p → ¬ReflTransGen (Up parent) p m) : Acyclic parent' := by
  intro a ha
  rcases transGen_or_passes hsame ha with hold | ⟨ham, hma⟩
  · exact h a hold
  · obtain ⟨p, hp, hpm⟩ := TransGen.head'_iff.mp (hma.trans_left ham)
    exact hnew p hp ((reaches_of_repointed hsame hpm).elim id id)

theorem Acyclic.attach (h : Acyclic parent) {m : α}
    (hsame : ∀ a b, a ≠ m → parent' a = some b → parent a = some b)
    (hleaf : ∀ a, parent a ≠ some m) (hself : parent' m ≠ some m) : Acyclic parent' := by
  refine h.repoint hsame fun p hp hpm => ?_
  rcases ReflTransGen.cases_tail hpm with hpm | ⟨y, -, hym⟩
  · exact hself (hpm ▸ hp)
  · exact hleaf y hym

end Cinder.Storage
