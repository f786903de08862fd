import Mathlib.Data.List.Basic
set_option autoImplicit false

namespace Cinder.Storage

variable {N C : Type}

/-- The entries of a directory, in the order in which they are listed. -/
inductive Directory (N C : Type) where
  | nil
  | file (name : N) (content : C) (rest : Directory N C)
  | dir (name : N) (entries rest : Directory N C)
  deriving DecidableEq

inductive Node (N C : Type) where
  | file (content : C)
  | dir (entries : Directory N C)
  deriving DecidableEq

variable [DecidableEq N]

namespace Directory

def lookup (name : N) : Directory N C → Option (Node N C)
  | nil => none
  | file n c rest => if n = name then some (.file c) else rest.lookup name
  | dir n d rest => if n = name then some (.dir d) else rest.lookup name

def cons (name : N) : Node N C → Directory N C → Directory N C
  | .file c, rest => file name c rest
  | .dir d, rest => dir name d rest

def put (name : N) (x : Node N C) : Directory N C → Directory N C
  | nil => cons name x nil
  | file n c rest => if n = name then cons name x rest else file n c (rest.put name x)
  | dir n d rest => if n = name then cons name x rest else dir n d (rest.put name x)

end Directory

def Node.find : List N → Node N C → Option (Node N C)
  | [], x => some x
  | name :: path, .dir d => (d.lookup name).bind (Node.find path)
  | _ :: _, .file _ => none

namespace Directory
variable {d d' e e' : Directory N C} {name n : N} {x : Node N C} {path : List N} {c : C}

@[simp] theorem lookup_cons (rest : Directory N C) :
    (cons name x rest).lookup n = if name = n then some x else rest.lookup n := by
  cases x <;> rfl

theorem lookup_put (d : Directory N C) :
    (d.put name x).lookup n = if name = n then some x else d.lookup n := by
  induction d with
  | nil => simp [put, lookup]
  | file m c rest ih | dir m sub rest _ ih =>
    rw [put]
    split
    · next hm =>
      subst hm
      rw [lookup_cons, lookup]
      split <;> rfl
    · next hm =>
      rw [lookup, lookup, ih]
      by_cases hn : m = n
      · subst hn
        simp [Ne.symm hm]
      · simp [hn]

theorem put_lookup (h : d.lookup name = some x) : d.put name x = d := by
  induction d with
  | nil => cases h
  | file m c rest ih | dir m sub rest _ ih =>
    rw [lookup] at h
    rw [put]
    split
    · next hm =>
      rw [if_pos hm] at h
      cases h
      rw [hm]
      rfl
    · next hm =>
      rw [if_neg hm] at h
      rw [ih h]

def find (d : Directory N C) (path : List N) : Option (Node N C) := (Node.dir d).find path

theorem find_nil (d : Directory N C) : d.find [] = some (.dir d) := rfl

theorem find_cons (d : Directory N C) (name : N) (path : List N) :
    d.find (name :: path) = (d.lookup name).bind (Node.find path) := rfl

theorem find_cons_none (h : d.lookup name = none) : d.find (name :: path) = none := by
  rw [find_cons, h, Option.bind_none]

theorem find_cons_dir (h : d.lookup name = some (.dir e)) :
    d.find (name :: path) = e.find path := by
  rw [find_cons, h, Option.bind_some, find]

theorem find_cons_file (h : d.lookup name = some (.file c)) :
    d.find (name :: path) = if path = [] then some (.file c) else none := by
  rw [find_cons, h, Option.bind_some]
  cases path with
  | nil => rfl
  | cons => rfl

def Grows (d d' : Directory N C) : Prop :=
  ∀ path, (∀ c, d.find path = some (.file c) → d'.find path = some (.file c)) ∧
    ∀ e, d.find path = some (.dir e) → ∃ e', d'.find path = some (.dir e')

theorem Grows.refl (d : Directory N C) : Grows d d := fun _ => ⟨fun _ h => h, fun e h => ⟨e, h⟩⟩

theorem Grows.trans {d'' : Directory N C} (h : Grows d d') (h' : Grows d' d'') : Grows d d'' := by
  intro path
  refine ⟨fun c hc => (h' path).1 c ((h path).1 c hc), fun e he => ?_⟩
  obtain ⟨e', he'⟩ := (h path).2 e he
  exact (h' path).2 e' he'

theorem Grows.lookup_file (h : Grows d d') (hc : d.lookup n = some (.file c)) :
    d'.lookup n = some (.file c) := by
  have hfind := (h [n]).1 c (by rw [find_cons_file hc, if_pos rfl])
  rw [find_cons, Option.bind_eq_some_iff] at hfind
  obtain ⟨y, hy, hfound⟩ := hfind
  obtain rfl : y = .file c := Option.some.inj hfound
  exact hy

theorem Grows.lookup_dir (h : Grows d d') (he : d.lookup n = some (.dir e)) :
    ∃ e', d'.lookup n = some (.dir e') ∧ Grows e e' := by
  obtain ⟨e', hfind⟩ := (h [n]).2 e (by rw [find_cons_dir he, find_nil])
  rw [find_cons, Option.bind_eq_some_iff] at hfind
  obtain ⟨y, hy, hfound⟩ := hfind
  obtain rfl : y = .dir e' := Option.some.inj hfound
  refine ⟨e', hy, fun path => ?_⟩
  have hpath := h (n :: path)
  rwa [find_cons_dir he, find_cons_dir hy] at hpath

theorem grows_of_lookup (hfile : ∀ n c, d.lookup n = some (.file c) → d'.lookup n = some (.file c))
    (hdir : ∀ n e, d.lookup n = some (.dir e) → ∃ e', d'.lookup n = some (.dir e') ∧ Grows e e') :
    Grows d d' := by
  intro path
  cases path with
  | nil => exact ⟨fun c hc => (by cases hc), fun e _ => ⟨d', rfl⟩⟩
  | cons n path =>
    cases hn : d.lookup n with
    | none =>
      rw [find_cons_none hn]
      exact ⟨fun c hc => (by cases hc), fun e he => (by cases he)⟩
    | some y =>
      cases y with
      | file c =>
        rw [find_cons_file hn, find_cons_file (hfile n c hn)]
        split
        · exact ⟨fun c hc => hc, fun e he => (by cases he)⟩
        · exact ⟨fun c hc => (by cases hc), fun e he => (by cases he)⟩
      | dir e =>
        obtain ⟨e', he', hgrows⟩ := hdir n e hn
        rw [find_cons_dir hn, find_cons_dir he']
        exact hgrows path

theorem grows_put_new (h : d.lookup name = none) : Grows d (d.put name x) := by
  have hne : ∀ n y, d.lookup n = some y → name ≠ n := by
    rintro n y hn rfl
    rw [h] at hn
    cases hn
  refine grows_of_lookup (fun n c hc => ?_) fun n e he => ⟨e, ?_, Grows.refl e⟩
  · rw [lookup_put, if_neg (hne n _ hc), hc]
  · rw [lookup_put, if_neg (hne n _ he), he]

theorem grows_put_dir (h : d.lookup name = some (.dir e)) (hgrows : Grows e e') :
    Grows d (d.put name (.dir e')) := by
  refine grows_of_lookup (fun n c hc => ?_) fun n f hf => ?_
  · have hne : name ≠ n := by
      rintro rfl
      rw [h] at hc
      cases hc
    rw [lookup_put, if_neg hne, hc]
  · rw [lookup_put]
    by_cases hn : name = n
    · subst hn
      rw [h] at hf
      cases hf
      exact ⟨e', if_pos rfl, hgrows⟩
    · exact ⟨f, by rw [if_neg hn, hf], Grows.refl f⟩

def Free (d : Directory N C) (path : List N) : Prop :=
  d.find path = none ∧ ∀ q, q <+: path → ∀ c, d.find q ≠ some (.file c)

theorem not_free_nil (d : Directory N C) : ¬d.Free [] := fun h => by cases h.1

theorem free_of_lookup_none (h : d.lookup name = none) : d.Free (name :: path) := by
  refine ⟨find_cons_none h, fun q hq c hc => ?_⟩
  cases q with
  | nil => cases hc
  | cons m q =>
    obtain ⟨rfl, -⟩ := List.cons_prefix_cons.mp hq
    rw [find_cons_none h] at hc
    cases hc

theorem not_free_file (h : d.lookup name = some (.file c)) : ¬d.Free (name :: path) := by
  intro hfree
  refine hfree.2 [name] (List.cons_prefix_cons.mpr ⟨rfl, List.nil_prefix⟩) c ?_
  rw [find_cons_file h, if_pos rfl]

theorem free_dir_iff (h : d.lookup name = some (.dir e)) :
    d.Free (name :: path) ↔ e.Free path := by
  rw [Free, Free, find_cons_dir h]
  refine and_congr_right fun _ => ⟨fun hall q hq c hc => ?_, fun hall q hq c hc => ?_⟩
  · refine hall (name :: q) (List.cons_prefix_cons.mpr ⟨rfl, hq⟩) c ?_
    rw [find_cons_dir h, hc]
  · cases q with
    | nil => cases hc
    | cons m q =>
      obtain ⟨rfl, hrest⟩ := List.cons_prefix_cons.mp hq
      rw [find_cons_dir h] at hc
      exact hall q hrest c hc

theorem free_put_of_ne (h : name ≠ n) : (d.put name x).Free (n :: path) ↔ d.Free (n :: path) := by
  cases hn : d.lookup n with
  | none =>
    have hput : (d.put name x).lookup n = none := by rw [lookup_put, if_neg h, hn]
    exact iff_of_true (free_of_lookup_none hput) (free_of_lookup_none hn)
  | some y =>
    have hput : (d.put name x).lookup n = some y := by rw [lookup_put, if_neg h, hn]
    cases y with
    | file c => exact iff_of_false (not_free_file hput) (not_free_file hn)
    | dir e => rw [free_dir_iff hput, free_dir_iff hn]

end Directory

end Cinder.Storage
