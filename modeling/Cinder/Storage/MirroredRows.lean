import Mathlib.Data.List.Pairwise
set_option autoImplicit false

/-!
Rows that are mirrored in a second list by triggers: each row that is inserted,
changed or removed changes the mirror by its key. `image` is what the mirror
holds of a row, and `key` is the key as the mirror has it.
-/

namespace Cinder.Storage

variable {Row X κ : Type} {key : X → κ} {image : Row → X}

def Mirrors (image : Row → X) (rows : List Row) (xs : List X) : Prop :=
  xs.Perm (rows.map image)

def KeyedBy (key : X → κ) (image : Row → X) (rows : List Row) : Prop :=
  rows.Pairwise fun r r' => key (image r) ≠ key (image r')

theorem keyedBy_unique {rows : List Row} (h : KeyedBy key image rows) {r r' : Row}
    (hr : r ∈ rows) (hr' : r' ∈ rows) (hkey : key (image r) = key (image r')) : r = r' := by
  by_contra hne
  have : Std.Symm fun r r' : Row => key (image r) ≠ key (image r') :=
    ⟨fun _ _ hab => hab.symm⟩
  exact h.forall hr hr' hne hkey

theorem Mirrors.insert {rows : List Row} {xs : List X} (h : Mirrors image rows xs) (r : Row) :
    Mirrors image (rows ++ [r]) (xs ++ [image r]) := by
  unfold Mirrors
  rw [List.map_append]
  exact h.append (.refl _)

section Triggers
variable [DecidableEq κ]

theorem foldl_drop (rs : List Row) (xs : List X) :
    rs.foldl (fun xs r => xs.filter fun x => key x ≠ key (image r)) xs =
      xs.filter fun x => ∀ r ∈ rs, key x ≠ key (image r) := by
  induction rs generalizing xs with
  | nil => exact (List.filter_eq_self.mpr (by simp)).symm
  | cons r rs ih =>
    rw [List.foldl_cons, ih, List.filter_filter]
    refine List.filter_congr fun x _ => ?_
    simp only [List.forall_mem_cons, Bool.decide_and, Bool.and_comm]

/-- One trigger for each changed row. The images that were put in before have
other keys and stay. -/
theorem foldl_replace {f : Row → Row} (hf : ∀ r, key (image (f r)) = key (image r))
    {rs : List Row} (hrs : KeyedBy key image rs) (xs : List X) :
    rs.foldl (fun xs r => xs.filter (fun x => key x ≠ key (image r)) ++ [image (f r)]) xs =
      xs.filter (fun x => ∀ r ∈ rs, key x ≠ key (image r)) ++ rs.map fun r => image (f r) := by
  induction rs generalizing xs with
  | nil =>
    rw [List.map_nil, List.append_nil]
    exact (List.filter_eq_self.mpr (by simp)).symm
  | cons r rs ih =>
    obtain ⟨hr, hrest⟩ := List.pairwise_cons.mp hrs
    have hkeep : [image (f r)].filter (fun x => ∀ r' ∈ rs, key x ≠ key (image r')) =
        [image (f r)] := by
      refine List.filter_eq_self.mpr fun x hx => ?_
      rw [List.mem_singleton.mp hx, hf]
      simpa using hr
    rw [List.foldl_cons, ih hrest, List.filter_append, hkeep, List.filter_filter,
      List.append_assoc, List.singleton_append, List.map_cons]
    congr 1
    refine List.filter_congr fun x _ => ?_
    simp only [List.forall_mem_cons, Bool.decide_and, Bool.and_comm]

/-- The keys of the rows with `p` are those of no other row. -/
theorem filter_images {rows : List Row} (hrows : KeyedBy key image rows) (p : Row → Bool) :
    (rows.map image).filter (fun x => ∀ r ∈ rows.filter p, key x ≠ key (image r)) =
      (rows.filter fun r => !p r).map image := by
  rw [List.filter_map]
  congr 1
  refine List.filter_congr fun r hr => ?_
  cases hp : p r with
  | true => simpa using ⟨r, hr, hp, rfl⟩
  | false =>
    simp only [Function.comp, List.mem_filter, Bool.not_false, decide_eq_true_eq]
    rintro r' ⟨hr', hp'⟩ hkey
    rw [keyedBy_unique hrows hr hr' hkey, hp'] at hp
    cases hp

theorem Mirrors.remove {rows : List Row} {xs : List X} (hrows : KeyedBy key image rows)
    (h : Mirrors image rows xs) (p : Row → Bool) :
    Mirrors image (rows.filter fun r => !p r)
      ((rows.filter p).foldl (fun xs r => xs.filter fun x => key x ≠ key (image r)) xs) := by
  rw [foldl_drop, Mirrors, ← filter_images hrows]
  exact h.filter _

theorem map_update_perm (p : Row → Bool) (f : Row → Row) (rows : List Row) :
    (rows.map fun r => if p r then f r else r).Perm
      ((rows.filter fun r => !p r) ++ (rows.filter p).map f) := by
  induction rows with
  | nil => exact .refl _
  | cons r rows ih =>
    cases hp : p r with
    | true => simpa [hp] using (ih.cons (f r)).trans List.perm_middle.symm
    | false => simpa [hp] using ih.cons r

theorem Mirrors.update {rows : List Row} {xs : List X} (hrows : KeyedBy key image rows)
    (h : Mirrors image rows xs) (p : Row → Bool) {f : Row → Row}
    (hf : ∀ r, key (image (f r)) = key (image r)) :
    Mirrors image (rows.map fun r => if p r then f r else r)
      ((rows.filter p).foldl
        (fun xs r => xs.filter (fun x => key x ≠ key (image r)) ++ [image (f r)]) xs) := by
  rw [foldl_replace hf (hrows.sublist List.filter_sublist), Mirrors]
  have hkept := h.filter fun x => decide (∀ r ∈ rows.filter p, key x ≠ key (image r))
  rw [filter_images hrows] at hkept
  refine (hkept.append_right _).trans ?_
  have hperm := (map_update_perm p f rows).map image
  rw [List.map_append, List.map_map (f := f)] at hperm
  exact hperm.symm

end Triggers

end Cinder.Storage
