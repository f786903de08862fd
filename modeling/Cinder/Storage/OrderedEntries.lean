import Mathlib.Algebra.Ring.Nat
import Mathlib.Data.List.Nodup
set_option autoImplicit false

namespace Cinder.Storage

structure Entries (κ α : Type) where
  list : List (κ × α)
  unique : (list.map Prod.fst).Nodup

namespace Entries

variable {κ α : Type} [DecidableEq κ]

def empty : Entries κ α := ⟨[], List.nodup_nil⟩

def get (m : Entries κ α) (k : κ) : Option α := (m.list.find? fun e => e.1 = k).map Prod.snd

def has (m : Entries κ α) (k : κ) : Bool := (m.get k).isSome

/-- An entry that is there keeps its place. -/
def setIn (k : κ) (x : α) : List (κ × α) → List (κ × α)
  | [] => [(k, x)]
  | e :: es => if e.1 = k then (k, x) :: es else e :: setIn k x es

theorem map_fst_setIn (k : κ) (x : α) (es : List (κ × α)) :
    (setIn k x es).map Prod.fst =
      if k ∈ es.map Prod.fst then es.map Prod.fst else es.map Prod.fst ++ [k] := by
  induction es with
  | nil => simp [setIn]
  | cons e es ih =>
    by_cases he : e.1 = k
    · simp [setIn, he]
    · simp only [setIn, he, if_false, List.map_cons, ih, List.mem_cons, Ne.symm he, false_or]
      split <;> simp

def set (m : Entries κ α) (k : κ) (x : α) : Entries κ α where
  list := setIn k x m.list
  unique := by
    rw [map_fst_setIn]
    split
    · exact m.unique
    · next hk =>
      refine List.nodup_append.mpr ⟨m.unique, List.nodup_singleton k, ?_⟩
      intro k' hk' k'' hk''
      rw [List.mem_singleton.mp hk'']
      exact fun h => hk (h ▸ hk')

def delete (m : Entries κ α) (k : κ) : Entries κ α where
  list := m.list.filter fun e => e.1 ≠ k
  unique := m.unique.sublist (List.filter_sublist.map _)

def ofList (es : List (κ × α)) : Entries κ α := es.foldl (fun m e => m.set e.1 e.2) empty

@[simp] theorem get_empty (k : κ) : (empty : Entries κ α).get k = none := rfl

theorem get_set (m : Entries κ α) (k k' : κ) (x : α) :
    (m.set k x).get k' = if k' = k then some x else m.get k' := by
  simp only [get, set]
  induction m.list with
  | nil => by_cases h : k' = k <;> simp [setIn, h, Ne.symm]
  | cons e es ih =>
    by_cases he : e.1 = k
    · by_cases hk : k' = k
      · simp [setIn, he, hk]
      · have hne : k ≠ k' := fun h => hk h.symm
        simp [setIn, he, hk, hne]
    · by_cases hek : e.1 = k'
      · have hk : k' ≠ k := fun h => he (hek.trans h)
        simp [setIn, hek, hk]
      · simpa [setIn, he, hek, List.find?_cons] using ih

@[simp] theorem get_set_self (m : Entries κ α) (k : κ) (x : α) : (m.set k x).get k = some x := by
  simp [get_set]

theorem get_set_other (m : Entries κ α) {k k' : κ} (h : k' ≠ k) (x : α) :
    (m.set k x).get k' = m.get k' := by
  simp [get_set, h]

def setAll (m : Entries κ α) (es : List (κ × α)) : Entries κ α :=
  es.foldl (fun m e => m.set e.1 e.2) m

theorem get_setAll_of_not_mem {m : Entries κ α} {es : List (κ × α)} {k : κ}
    (h : ∀ e ∈ es, e.1 ≠ k) : (m.setAll es).get k = m.get k := by
  induction es generalizing m with
  | nil => rfl
  | cons e es ih =>
    rw [List.forall_mem_cons] at h
    rw [setAll, List.foldl_cons, ← setAll, ih h.2, get_set_other m (Ne.symm h.1)]

theorem get_setAll_of_mem {m : Entries κ α} {es : List (κ × α)} {k : κ} {x : α}
    (hmem : (k, x) ∈ es) (hsame : ∀ e ∈ es, e.1 = k → e.2 = x) : (m.setAll es).get k = some x := by
  induction es generalizing m with
  | nil => cases hmem
  | cons e es ih =>
    rw [List.forall_mem_cons] at hsame
    rw [setAll, List.foldl_cons, ← setAll]
    by_cases hlater : (k, x) ∈ es
    · exact ih hlater hsame.2
    · obtain rfl := (List.mem_cons.mp hmem).resolve_right hlater
      rw [get_setAll_of_not_mem, get_set_self]
      intro e he hk
      exact hlater (by rw [← hk, ← hsame.2 e he hk]; exact he)

theorem mem_of_get_setAll {m : Entries κ α} {es : List (κ × α)} {k : κ} {x : α}
    (h : (m.setAll es).get k = some x) : (k, x) ∈ es ∨ m.get k = some x := by
  induction es generalizing m with
  | nil => exact .inr h
  | cons e es ih =>
    rcases ih h with hmem | hget
    · exact .inl (List.mem_cons_of_mem _ hmem)
    · rw [get_set] at hget
      split at hget
      · next hk =>
        rw [hk, ← Option.some.inj hget]
        exact .inl List.mem_cons_self
      · exact .inr hget

theorem get_delete (m : Entries κ α) (k k' : κ) :
    (m.delete k).get k' = if k' = k then none else m.get k' := by
  simp only [get, delete, List.find?_filter]
  by_cases h : k' = k
  · rw [if_pos h, List.find?_eq_none.mpr, Option.map_none]
    intro e _ he
    simp only [decide_eq_true_eq] at he
    exact he.1 (he.2.trans h)
  · rw [if_neg h]
    congr 2
    funext e
    by_cases he : e.1 = k'
    · simp [he, h]
    · simp [he]

theorem mem_list {m : Entries κ α} {k : κ} {x : α} : (k, x) ∈ m.list ↔ m.get k = some x := by
  obtain ⟨es, hes⟩ := m
  simp only [get]
  induction es with
  | nil => simp
  | cons e es ih =>
    obtain ⟨hhead, htail⟩ := List.nodup_cons.mp hes
    by_cases he : e.1 = k
    · have hnone : ∀ y, (k, y) ∉ es := fun y hy =>
        hhead (he ▸ List.mem_map.mpr ⟨(k, y), hy, rfl⟩)
      obtain ⟨k₀, x₀⟩ := e
      obtain rfl : k₀ = k := he
      simp [hnone, eq_comm]
    · have hne : (k, x) ≠ e := fun h => he (h ▸ rfl)
      rw [List.mem_cons, ih htail, List.find?_cons, decide_eq_false he]
      simp [hne]

theorem mem_of_mem_ofList {es : List (κ × α)} {e : κ × α} (h : e ∈ (ofList es).list) : e ∈ es := by
  rcases mem_of_get_setAll (mem_list.mp h) with hmem | hget
  · exact hmem
  · cases hget

theorem setIn_of_not_mem {k : κ} {x : α} {es : List (κ × α)} (h : k ∉ es.map Prod.fst) :
    setIn k x es = es ++ [(k, x)] := by
  induction es with
  | nil => rfl
  | cons e es ih =>
    rw [List.map_cons, List.mem_cons, not_or] at h
    rw [setIn, if_neg (Ne.symm h.1), ih h.2, List.cons_append]

theorem list_setAll_of_nodup {m : Entries κ α} {es : List (κ × α)}
    (h : ((m.list ++ es).map Prod.fst).Nodup) : (m.setAll es).list = m.list ++ es := by
  induction es generalizing m with
  | nil => exact (List.append_nil _).symm
  | cons e es ih =>
    have hnew : e.1 ∉ m.list.map Prod.fst := by
      rw [List.map_append, List.map_cons, List.nodup_append] at h
      exact fun hmem => h.2.2 _ hmem _ List.mem_cons_self rfl
    have hset : (m.set e.1 e.2).list = m.list ++ [e] := setIn_of_not_mem hnew
    have hlist : (m.list ++ [e]) ++ es = m.list ++ e :: es := List.append_assoc ..
    rw [setAll, List.foldl_cons, ← setAll, ih, hset, hlist]
    rw [hset, hlist]
    exact h

theorem ofList_of_nodup {es : List (κ × α)} (h : (es.map Prod.fst).Nodup) :
    (ofList es).list = es := list_setAll_of_nodup h

theorem sum_setIn_le (f : κ × α → ℕ) (k : κ) (x : α) (es : List (κ × α)) :
    ((setIn k x es).map f).sum ≤ (es.map f).sum+f (k, x) := by
  induction es with
  | nil => simp [setIn]
  | cons e es ih =>
    rw [setIn]
    split
    · simp only [List.map_cons, List.sum_cons]
      omega
    · simp only [List.map_cons, List.sum_cons]
      omega

theorem sum_setAll_le (f : κ × α → ℕ) (m : Entries κ α) (es : List (κ × α)) :
    ((m.setAll es).list.map f).sum ≤ (m.list.map f).sum+(es.map f).sum := by
  induction es generalizing m with
  | nil => exact Nat.le_refl _
  | cons e es ih =>
    have hlater := ih (m.set e.1 e.2)
    have hset : ((m.set e.1 e.2).list.map f).sum ≤ (m.list.map f).sum+f e :=
      sum_setIn_le f e.1 e.2 m.list
    rw [setAll, List.foldl_cons, ← setAll, List.map_cons, List.sum_cons]
    omega

theorem sum_ofList_le (f : κ × α → ℕ) (es : List (κ × α)) :
    ((ofList es).list.map f).sum ≤ (es.map f).sum := by
  have hall := sum_setAll_le f empty es
  rwa [show (empty : Entries κ α).list = [] from rfl, List.map_nil, List.sum_nil,
    Nat.zero_add] at hall

theorem list_eq_nil_iff {m : Entries κ α} : m.list = [] ↔ ∀ k, m.get k = none := by
  constructor
  · intro h k
    simp [get, h]
  · intro h
    refine List.eq_nil_iff_forall_not_mem.mpr fun ⟨k, x⟩ hmem => ?_
    rw [mem_list, h k] at hmem
    cases hmem

end Entries

end Cinder.Storage
