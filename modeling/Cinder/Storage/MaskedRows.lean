import Cinder.Storage.UniqueTable
set_option autoImplicit false

/-!
Two tables that differ only in columns a mask hides. Whatever a query does not
read of the hidden columns it answers alike on both, and the same statement
leaves tables that again differ only there.
-/

namespace Cinder.Storage

variable {Row : Type} {m : Row → Row} {l l' : List Row} {p : Row → Bool}

def Masked (m : Row → Row) (l l' : List Row) : Prop := l.map m = l'.map m

theorem any_masked (h : Masked m l l') (hp : ∀ r, p (m r) = p r) : l.any p = l'.any p := by
  have hcomp : p ∘ m = p := funext hp
  have hany := congrArg (fun l => List.any l p) h
  simpa only [List.any_map, hcomp] using hany

theorem countP_masked (h : Masked m l l') (hp : ∀ r, p (m r) = p r) :
    l.countP p = l'.countP p := by
  have hcomp : p ∘ m = p := funext hp
  have hcount := congrArg (fun l => List.countP p l) h
  simpa only [List.countP_map, hcomp] using hcount

theorem any_map_congr {f : Row → Row} (hf : ∀ r ∈ l, p (f r) = p r) :
    (l.map f).any p = l.any p := by
  induction l with
  | nil => rfl
  | cons r l ih =>
    have hr := hf r List.mem_cons_self
    have hl := ih fun r' hr' => hf r' (List.mem_cons_of_mem _ hr')
    simp only [List.map_cons, List.any_cons, hr, hl]

theorem find?_masked (h : Masked m l l') (hp : ∀ r, p (m r) = p r) :
    Option.Rel (fun r r' => m r = m r') (l.find? p) (l'.find? p) := by
  have hcomp : p ∘ m = p := funext hp
  have hfind := congrArg (fun l => List.find? p l) h
  simp only [List.find?_map, hcomp] at hfind
  cases hl : l.find? p with
  | none =>
    cases hl' : l'.find? p with
    | none => exact .none
    | some r' => simp [hl, hl'] at hfind
  | some r =>
    cases hl' : l'.find? p with
    | none => simp [hl, hl'] at hfind
    | some r' =>
      rw [hl, hl'] at hfind
      exact .some (Option.some.inj hfind)

theorem filter_masked (h : Masked m l l') (hp : ∀ r, p (m r) = p r) :
    Masked m (l.filter p) (l'.filter p) := by
  have hcomp : p ∘ m = p := funext hp
  have hfilter := congrArg (fun l => List.filter p l) h
  simpa only [Masked, List.filter_map, hcomp] using hfilter

theorem map_masked {α : Type} {g : Row → α} (h : Masked m l l') (hg : ∀ r, g (m r) = g r) :
    l.map g = l'.map g := by
  have hcomp : g ∘ m = g := funext hg
  have hmap := congrArg (fun l => List.map g l) h
  simpa only [List.map_map, hcomp] using hmap

theorem map_update_masked {f f' : Row → Row} (h : Masked m l l') (hp : ∀ r, p (m r) = p r)
    (hf : ∀ r r', p r = true → m r = m r' → m (f r) = m (f' r')) :
    Masked m (l.map fun r => if p r then f r else r) (l'.map fun r => if p r then f' r else r) := by
  induction l generalizing l' with
  | nil =>
    cases l' with
    | nil => rfl
    | cons r' l' => cases h
  | cons r l ih =>
    cases l' with
    | nil => cases h
    | cons r' l' =>
      obtain ⟨hr, hl⟩ := List.cons.inj h
      have hpr : p r = p r' := by rw [← hp r, hr, hp r']
      have hhead : m (if p r then f r else r) = m (if p r' then f' r' else r') := by
        rw [← hpr]
        cases hk : p r with
        | true => exact hf r r' hk hr
        | false => exact hr
      exact congrArg₂ List.cons hhead (ih hl)

section Tables
variable [Keyed Row] {t t' : Table Row}

theorem insert_masked {r r' : Row} (hm : Table.KeepsKeys m) (h : Masked m t.rows t'.rows)
    (hr : m r = m r') :
    Option.Rel (fun u u' : Table Row => Masked m u.rows u'.rows) (t.insert r) (t'.insert r') := by
  have hclash : ∀ x, Keyed.clash x r = Keyed.clash x r' := fun x => by
    rw [Keyed.symm, ← hm r, hr, hm r', Keyed.symm]
  have hall : (t.rows.all fun x => !Keyed.clash x r) = t'.rows.all fun x => !Keyed.clash x r' := by
    have hany := any_masked (p := fun x => Keyed.clash x r) h fun x => hm x r
    simp only [List.all_eq_not_any_not, Bool.not_not]
    rw [hany]
    simp only [hclash]
  cases hu : t.insert r with
  | none =>
    cases hu' : t'.insert r' with
    | none => exact .none
    | some u' =>
      simp only [Table.insert] at hu hu'
      split at hu
      · cases hu
      · split at hu'
        · rename_i hn hy
          exact absurd (hall.trans hy) hn
        · cases hu'
  | some u =>
    cases hu' : t'.insert r' with
    | none =>
      simp only [Table.insert] at hu hu'
      split at hu
      · split at hu'
        · cases hu'
        · rename_i hy hn
          exact absurd (hall.symm.trans hy) hn
      · cases hu
    | some u' =>
      refine .some ?_
      rw [Masked, Table.rows_insert hu, Table.rows_insert hu', List.map_append, List.map_append, h]
      simp [hr]

theorem update_masked {f f' : Row → Row} {hk : Table.KeepsKeys f} {hk' : Table.KeepsKeys f'}
    (h : Masked m t.rows t'.rows) (hp : ∀ r, p (m r) = p r)
    (hf : ∀ r r', p r = true → m r = m r' → m (f r) = m (f' r')) :
    Masked m (t.update p f hk).rows (t'.update p f' hk').rows := by
  rw [Table.rows_update, Table.rows_update]
  exact map_update_masked h hp hf

theorem upsert_masked {f f' : Row → Row} (hk : Table.KeepsKeys f) (hk' : Table.KeepsKeys f')
    {r r' : Row} (hm : Table.KeepsKeys m) (h : Masked m t.rows t'.rows)
    (hp : ∀ r, p (m r) = p r) (hf : ∀ r r', p r = true → m r = m r' → m (f r) = m (f' r'))
    (hr : m r = m r') :
    Option.Rel (fun u u' : Table Row => Masked m u.rows u'.rows) (t.upsert p f hk r)
      (t'.upsert p f' hk' r') := by
  have hany := any_masked h hp
  unfold Table.upsert
  cases hany' : t'.rows.any p with
  | true =>
    rw [hany, hany']
    exact .some (update_masked h hp hf)
  | false =>
    rw [hany, hany']
    exact insert_masked hm h hr

end Tables

end Cinder.Storage
