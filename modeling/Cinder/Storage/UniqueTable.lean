import Mathlib.Data.List.Pairwise
set_option autoImplicit false

/-!
Tables of rows under PRIMARY KEY and UNIQUE constraints. The constraint is part
of the table, so a table that breaks it cannot be built.
-/

namespace Cinder.Storage

/-- `clash r r'` says that the constraints forbid storing both rows. -/
class Keyed (Row : Type) where
  clash : Row → Row → Bool
  refl : ∀ r, clash r r = true
  symm : ∀ r r', clash r r' = clash r' r

@[ext] structure Table (Row : Type) [Keyed Row] where
  rows : List Row
  unique : rows.Pairwise fun r r' => Keyed.clash r r' = false

namespace Table

variable {Row : Type} [Keyed Row]

def empty : Table Row := ⟨[], .nil⟩

instance : Inhabited (Table Row) := ⟨empty⟩

instance [DecidableEq Row] : DecidableEq (Table Row) := fun t t' =>
  decidable_of_iff (t.rows = t'.rows) Table.ext_iff.symm

def single (r : Row) : Table Row := ⟨[r], List.pairwise_singleton _ _⟩

@[simp] theorem rows_single (r : Row) : (single r).rows = [r] := rfl

@[simp] theorem rows_empty : (empty : Table Row).rows = [] := rfl

theorem eq_of_clash {t : Table Row} {r r' : Row} (hr : r ∈ t.rows) (hr' : r' ∈ t.rows)
    (h : Keyed.clash r r' = true) : r = r' := by
  by_contra hne
  have : Std.Symm fun r r' : Row => Keyed.clash r r' = false :=
    ⟨fun a b hab => (Keyed.symm b a).trans hab⟩
  have hf := t.unique.forall hr hr' hne
  simp [h] at hf

/-- `INSERT`. A row that clashes with a stored one is refused. -/
def insert (t : Table Row) (r : Row) : Option (Table Row) :=
  if h : t.rows.all (fun r' => !Keyed.clash r' r) then
    some ⟨t.rows ++ [r], List.pairwise_append.mpr ⟨t.unique, List.pairwise_singleton _ _, by
      intro a ha b hb
      rw [List.mem_singleton.mp hb]
      simpa using List.all_eq_true.mp h a ha⟩⟩
  else none

theorem rows_insert {t t' : Table Row} {r : Row} (h : t.insert r = some t') :
    t'.rows = t.rows ++ [r] := by
  unfold insert at h
  split at h
  · cases h; rfl
  · contradiction

theorem mem_insert {t t' : Table Row} {r x : Row} (h : t.insert r = some t') :
    x ∈ t'.rows ↔ x ∈ t.rows ∨ x = r := by
  rw [rows_insert h, List.mem_append, List.mem_singleton]

theorem clash_insert {t t' : Table Row} {r x : Row} (h : t.insert r = some t')
    (hx : x ∈ t.rows) : Keyed.clash x r = false := by
  unfold insert at h
  split at h
  · rename_i hall
    simpa using List.all_eq_true.mp hall x hx
  · contradiction

theorem insert_isSome {t : Table Row} {r : Row} (h : ∀ x ∈ t.rows, Keyed.clash x r = false) :
    ∃ t', t.insert r = some t' := by
  have hall : t.rows.all (fun x => !Keyed.clash x r) = true := by
    simpa [List.all_eq_true] using h
  exact ⟨_, by rw [insert, dif_pos hall]⟩

/-- Several `INSERT`s of one transaction. -/
def insertAll (t : Table Row) : List Row → Option (Table Row)
  | [] => some t
  | r :: rs => (t.insert r).bind fun t' => t'.insertAll rs

theorem rows_insertAll {t t' : Table Row} {rs : List Row} (h : t.insertAll rs = some t') :
    t'.rows = t.rows ++ rs := by
  induction rs generalizing t with
  | nil => cases h; simp
  | cons r rs ih =>
    obtain ⟨u, hu, hrest⟩ := Option.bind_eq_some_iff.mp h
    rw [ih hrest, rows_insert hu, List.append_assoc, List.singleton_append]

theorem mem_insertAll {t t' : Table Row} {rs : List Row} {x : Row}
    (h : t.insertAll rs = some t') : x ∈ t'.rows ↔ x ∈ t.rows ∨ x ∈ rs := by
  rw [rows_insertAll h, List.mem_append]

theorem insertAll_isSome {t : Table Row} {rs : List Row}
    (h : (t.rows ++ rs).Pairwise fun r r' => Keyed.clash r r' = false) :
    ∃ t', t.insertAll rs = some t' := by
  induction rs generalizing t with
  | nil => exact ⟨t, rfl⟩
  | cons r rs ih =>
    obtain ⟨u, hu⟩ := insert_isSome fun x hx =>
      (List.pairwise_append.mp h).2.2 x hx r List.mem_cons_self
    have hrest : (u.rows ++ rs).Pairwise fun r r' => Keyed.clash r r' = false := by
      rw [rows_insert hu, List.append_assoc, List.singleton_append]
      exact h
    obtain ⟨t', ht'⟩ := ih hrest
    exact ⟨t', by rw [insertAll, hu, Option.bind_some, ht']⟩

/-- The assignment of an `UPDATE` touches no column of a constraint. -/
def KeepsKeys (f : Row → Row) : Prop :=
  ∀ r r', Keyed.clash (f r) r' = Keyed.clash r r'

theorem KeepsKeys.both {f : Row → Row} (hf : KeepsKeys f) (r r' : Row) :
    Keyed.clash (f r) (f r') = Keyed.clash r r' := by
  rw [hf r, Keyed.symm r (f r'), hf r', Keyed.symm r' r]

/-- `UPDATE … SET f WHERE p`. -/
def update (t : Table Row) (p : Row → Bool) (f : Row → Row) (hf : KeepsKeys f) : Table Row where
  rows := t.rows.map fun r => if p r then f r else r
  unique := by
    rw [List.pairwise_map]
    refine t.unique.imp fun {r r'} h => ?_
    have hr : Keyed.clash r (f r') = Keyed.clash r r' := by
      rw [Keyed.symm, hf r', Keyed.symm]
    split <;> split
    · exact (hf.both r r').trans h
    · exact (hf r r').trans h
    · exact hr.trans h
    · exact h

@[simp] theorem rows_update (t : Table Row) (p : Row → Bool) (f : Row → Row)
    (hf : KeepsKeys f) :
    (t.update p f hf).rows = t.rows.map fun r => if p r then f r else r := rfl

theorem mem_update {t : Table Row} {p : Row → Bool} {f : Row → Row} {hf : KeepsKeys f}
    {x : Row} : x ∈ (t.update p f hf).rows ↔ ∃ r ∈ t.rows, x = if p r then f r else r := by
  rw [rows_update, List.mem_map]
  exact ⟨fun ⟨r, hr, h⟩ => ⟨r, hr, h.symm⟩, fun ⟨r, hr, h⟩ => ⟨r, hr, h.symm⟩⟩

/-- The assignment of an `UPDATE` makes no row clash that did not before. -/
def FreesKeys (f : Row → Row) : Prop :=
  ∀ r r', Keyed.clash (f r) r' = true → Keyed.clash r r' = true

/-- An `UPDATE` by which rows may leave a partial index. -/
def release (t : Table Row) (p : Row → Bool) (f : Row → Row) (hf : FreesKeys f) : Table Row where
  rows := t.rows.map fun r => if p r then f r else r
  unique := by
    rw [List.pairwise_map]
    have hstep : ∀ r r', Keyed.clash (if p r then f r else r) r' = true →
        Keyed.clash r r' = true := fun r r' h => by
      split at h
      · exact hf r r' h
      · exact h
    refine t.unique.imp fun {r r'} h => ?_
    by_contra hclash
    have hleft := hstep r _ (Bool.not_eq_false _ ▸ hclash)
    have hboth := hstep r' r (by rwa [Keyed.symm])
    rw [Keyed.symm, h] at hboth
    cases hboth

@[simp] theorem rows_release (t : Table Row) (p : Row → Bool) (f : Row → Row) (hf : FreesKeys f) :
    (t.release p f hf).rows = t.rows.map fun r => if p r then f r else r := rfl

theorem mem_release {t : Table Row} {p : Row → Bool} {f : Row → Row} (hf : FreesKeys f)
    {x : Row} : x ∈ (t.release p f hf).rows ↔ ∃ r ∈ t.rows, (if p r then f r else r) = x :=
  List.mem_map

/-- `CREATE UNIQUE INDEX` on rows that are there. -/
def ofRows (rows : List Row) : Option (Table Row) :=
  if h : rows.Pairwise fun r r' => Keyed.clash r r' = false then some ⟨rows, h⟩ else none

theorem rows_ofRows {rows : List Row} {t : Table Row} (h : ofRows rows = some t) :
    t.rows = rows := by
  unfold ofRows at h
  split at h
  · cases h; rfl
  · contradiction

theorem ofRows_isSome {rows : List Row} (h : rows.Pairwise fun r r' => Keyed.clash r r' = false) :
    ∃ t, ofRows rows = some t := ⟨_, dif_pos h⟩

/-- An `UPDATE` of a key column, which is refused if two rows would clash. -/
def rekey (t : Table Row) (p : Row → Bool) (f : Row → Row) : Option (Table Row) :=
  ofRows (t.rows.map fun r => if p r then f r else r)

theorem rows_rekey {t t' : Table Row} {p : Row → Bool} {f : Row → Row}
    (h : t.rekey p f = some t') : t'.rows = t.rows.map fun r => if p r then f r else r :=
  rows_ofRows h

/-- `DELETE … WHERE p`. -/
def delete (t : Table Row) (p : Row → Bool) : Table Row where
  rows := t.rows.filter fun r => !p r
  unique := t.unique.sublist List.filter_sublist

@[simp] theorem rows_delete (t : Table Row) (p : Row → Bool) :
    (t.delete p).rows = t.rows.filter fun r => !p r := rfl

theorem mem_delete {t : Table Row} {p : Row → Bool} {x : Row} :
    x ∈ (t.delete p).rows ↔ x ∈ t.rows ∧ p x = false := by
  simp

/-- `put` of a key-value store: the row replaces the one with its key. -/
def put (t : Table Row) (r : Row) : Table Row where
  rows := t.rows.filter (fun r' => !Keyed.clash r' r) ++ [r]
  unique := List.pairwise_append.mpr ⟨t.unique.sublist List.filter_sublist,
    List.pairwise_singleton _ _, by
      intro a ha b hb
      rw [List.mem_singleton.mp hb]
      simpa using (List.mem_filter.mp ha).2⟩

theorem mem_put {t : Table Row} {r x : Row} :
    x ∈ (t.put r).rows ↔ (x ∈ t.rows ∧ Keyed.clash x r = false) ∨ x = r := by
  simp [put]

/-- `INSERT … ON CONFLICT(key) DO UPDATE SET f`, where `onKey` is a stored row's
conflict with the new one on that key. -/
def upsert (t : Table Row) (onKey : Row → Bool) (f : Row → Row) (hf : KeepsKeys f)
    (r : Row) : Option (Table Row) :=
  if t.rows.any onKey then some (t.update onKey f hf) else t.insert r

theorem upsert_cases {t t' : Table Row} {onKey : Row → Bool} {f : Row → Row}
    {hf : KeepsKeys f} {r : Row} (h : t.upsert onKey f hf r = some t') :
    (t.rows.any onKey = true ∧ t' = t.update onKey f hf) ∨
      (t.rows.any onKey = false ∧ t.insert r = some t') := by
  unfold upsert at h
  cases hany : t.rows.any onKey with
  | true => exact .inl ⟨rfl, by simpa [hany] using h.symm⟩
  | false => exact .inr ⟨rfl, by simpa [hany] using h⟩

theorem upsert_isSome {t : Table Row} {onKey : Row → Bool} {f : Row → Row} {hf : KeepsKeys f}
    {r : Row} (h : ∀ x ∈ t.rows, onKey x = false → Keyed.clash x r = false) :
    ∃ t', t.upsert onKey f hf r = some t' := by
  unfold upsert
  split
  · exact ⟨_, rfl⟩
  · rename_i hnone
    simp only [List.any_eq_true, not_exists, not_and, Bool.not_eq_true] at hnone
    exact insert_isSome fun x hx => h x hx (hnone x hx)

theorem any_upsert {t t' : Table Row} {onKey : Row → Bool} {f : Row → Row} {hf : KeepsKeys f}
    {r : Row} (h : t.upsert onKey f hf r = some t') (hr : onKey r = true)
    (hkey : ∀ x, onKey (f x) = onKey x) : ∃ x ∈ t'.rows, onKey x = true := by
  rcases upsert_cases h with ⟨hany, rfl⟩ | ⟨-, hins⟩
  · obtain ⟨x, hx, hxk⟩ := List.any_eq_true.mp hany
    exact ⟨f x, mem_update.mpr ⟨x, hx, by rw [if_pos hxk]⟩, (hkey x).trans hxk⟩
  · exact ⟨r, (mem_insert hins).mpr (.inr rfl), hr⟩

/-- The row a `SELECT … WHERE p` returns, when the key `p` asks for is unique. -/
def find? (t : Table Row) (p : Row → Bool) : Option Row := t.rows.find? p

theorem mem_of_find? {t : Table Row} {p : Row → Bool} {r : Row} (h : t.find? p = some r) :
    r ∈ t.rows ∧ p r = true :=
  ⟨List.mem_of_find?_eq_some h, List.find?_some h⟩

theorem find?_eq_none {t : Table Row} {p : Row → Bool} :
    t.find? p = none ↔ ∀ r ∈ t.rows, p r = false := by
  simp [find?]

theorem find?_isSome {t : Table Row} {p : Row → Bool} (h : ∃ r ∈ t.rows, p r = true) :
    ∃ r, t.find? p = some r :=
  Option.isSome_iff_exists.mp (by simpa [find?, List.find?_isSome] using h)

theorem update_of_none {t : Table Row} {p : Row → Bool} {f : Row → Row} {hf : KeepsKeys f}
    (h : ∀ r ∈ t.rows, p r = false) : t.update p f hf = t := by
  have hid : t.rows.map (fun r => if p r then f r else r) = t.rows.map id :=
    List.map_congr_left fun r hr => by simp [h r hr]
  refine Table.ext ?_
  rw [rows_update, hid, List.map_id]

theorem find?_update {t : Table Row} {p q : Row → Bool} {f : Row → Row} {hf : KeepsKeys f}
    (hq : ∀ r, q (f r) = q r) :
    (t.update p f hf).find? q = (t.find? q).map fun r => if p r then f r else r := by
  have hcomp : (q ∘ fun r => if p r then f r else r) = q := by
    funext r
    simp only [Function.comp]
    split
    · exact hq r
    · rfl
  rw [find?, rows_update, List.find?_map, hcomp, find?]

theorem find?_update_self {t : Table Row} {p : Row → Bool} {f : Row → Row} (hf : KeepsKeys f)
    {r : Row} (h : t.find? p = some r) (hp : ∀ r, p (f r) = p r) :
    (t.update p f hf).find? p = some (f r) := by
  rw [find?_update hp, h, Option.map_some, if_pos (mem_of_find? h).2]

theorem find?_update_other {t : Table Row} {p q : Row → Bool} {f : Row → Row}
    {hf : KeepsKeys f} (hq : ∀ r, q (f r) = q r) (hpq : ∀ r, q r = true → p r = false) :
    (t.update p f hf).find? q = t.find? q := by
  rw [find?_update hq]
  cases h : t.find? q with
  | none => rfl
  | some r => simp [hpq r (mem_of_find? h).2]

theorem find?_insert_other {t t' : Table Row} {q : Row → Bool} {r : Row}
    (h : t.insert r = some t') (hq : q r = false) : t'.find? q = t.find? q := by
  simp [find?, rows_insert h, List.find?_append, hq]

theorem find?_insert_of_some {t t' : Table Row} {q : Row → Bool} {r x : Row}
    (h : t.insert r = some t') (hx : t.find? q = some x) : t'.find? q = some x := by
  rw [find?] at hx
  rw [find?, rows_insert h, List.find?_append, hx, Option.some_or]

theorem find?_upsert_other {t t' : Table Row} {p q : Row → Bool} {f : Row → Row}
    {hf : KeepsKeys f} {r : Row} (h : t.upsert p f hf r = some t') (hq : ∀ r, q (f r) = q r)
    (hpq : ∀ r, q r = true → p r = false) (hr : q r = false) : t'.find? q = t.find? q := by
  rcases upsert_cases h with ⟨-, rfl⟩ | ⟨-, hins⟩
  · exact find?_update_other hq hpq
  · exact find?_insert_other hins hr

theorem filter_update {t : Table Row} {p q : Row → Bool} {f : Row → Row} {hf : KeepsKeys f}
    (hq : ∀ r, p r = true → q r = false ∧ q (f r) = false) :
    (t.update p f hf).rows.filter q = t.rows.filter q := by
  rw [rows_update]
  induction t.rows with
  | nil => rfl
  | cons r rs ih =>
    cases hp : p r with
    | true =>
      have hqr := hq r hp
      simp [hp, hqr.1, hqr.2, ih]
    | false => simp [hp, List.filter_cons, ih]

theorem find?_of_mem {t : Table Row} {p : Row → Bool} {r : Row} (hr : r ∈ t.rows)
    (hp : p r = true) (huniq : ∀ r' ∈ t.rows, p r' = true → Keyed.clash r' r = true) :
    t.find? p = some r := by
  cases h : t.find? p with
  | none =>
    have hf := find?_eq_none.mp h r hr
    rw [hp] at hf
    contradiction
  | some r' =>
    obtain ⟨hm, hp'⟩ := mem_of_find? h
    rw [eq_of_clash hm hr (huniq r' hm hp')]

theorem filter_of_mem {t : Table Row} {p : Row → Bool} {r : Row} (hr : r ∈ t.rows)
    (hp : p r = true) (huniq : ∀ r' ∈ t.rows, p r' = true → Keyed.clash r' r = true) :
    t.rows.filter p = [r] := by
  have hsame : ∀ r' ∈ t.rows.filter p, r' = r := fun r' hr' =>
    eq_of_clash (List.mem_filter.mp hr').1 hr
      (huniq r' (List.mem_filter.mp hr').1 (List.mem_filter.mp hr').2)
  have hmem : r ∈ t.rows.filter p := List.mem_filter.mpr ⟨hr, hp⟩
  have hunique := t.unique.filter p
  rcases hfilter : t.rows.filter p with _ | ⟨a, _ | ⟨b, rest⟩⟩
  · simp [hfilter] at hmem
  · rw [hsame a (by simp [hfilter])]
  · rw [hfilter] at hunique
    have hclash := List.rel_of_pairwise_cons hunique List.mem_cons_self
    rw [hsame a (by simp [hfilter]), hsame b (by simp [hfilter]), Keyed.refl] at hclash
    cases hclash

end Table

end Cinder.Storage
