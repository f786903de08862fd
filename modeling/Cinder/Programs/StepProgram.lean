import Mathlib.Logic.Function.Basic
set_option autoImplicit false

/-!
Request handlers as programs of atomic steps over one shared state. A handler
that runs on its own connection is interrupted only between its statements, so
a program is a tree of statements: reads, and writes named by a label of `L`.
-/

namespace Cinder.Programs

/-- What the store does with a statement. A statement that fails leaves the
state as it was, so a transaction that is rolled back is one failed statement. -/
class Engine (S L : Type) (ε : outParam Type) where
  run : L → S → Except ε S

/-- `read` sees the state it is taken in. `write` executes a statement, and
its continuation sees the state the statement was executed on. -/
inductive Program (S L ε α : Type) where
  | ret : α → Program S L ε α
  | fail : ε → Program S L ε α
  | read : (S → Program S L ε α) → Program S L ε α
  | write : L → (S → Program S L ε α) → Program S L ε α

theorem bind_eq_ok {ε α β : Type} {x : Except ε α} {f : α → Except ε β} {b : β} :
    (x >>= f) = .ok b ↔ ∃ a, x = .ok a ∧ f a = .ok b := by
  cases x with
  | error e => exact ⟨(by cases ·), fun ⟨a, h, _⟩ => by cases h⟩
  | ok a => exact ⟨fun h => ⟨a, rfl, h⟩, fun ⟨a', h, hf⟩ => by cases h; exact hf⟩

theorem bind_eq_error {ε α β : Type} {x : Except ε α} {f : α → Except ε β} {e : ε} :
    (x >>= f) = .error e ↔ x = .error e ∨ ∃ a, x = .ok a ∧ f a = .error e := by
  cases x with
  | error e' =>
    have hbind : (Except.error e' >>= f) = Except.error e' := rfl
    simp [hbind]
  | ok a =>
    have hbind : (Except.ok a >>= f) = f a := rfl
    simp [hbind]

namespace Program

variable {S L ε α β γ : Type}

def bind : Program S L ε α → (α → Program S L ε β) → Program S L ε β
  | .ret a, f => f a
  | .fail e, _ => .fail e
  | .read k, f => .read fun s => (k s).bind f
  | .write l k, f => .write l fun s => (k s).bind f

instance : Monad (Program S L ε) where
  pure := .ret
  bind := bind

@[simp] theorem pure_eq (a : α) : (pure a : Program S L ε α) = .ret a := rfl

@[simp] theorem ret_bind (a : α) (f : α → Program S L ε β) : (ret a >>= f) = f a := rfl

@[simp] theorem fail_bind (e : ε) (f : α → Program S L ε β) :
    ((fail e : Program S L ε α) >>= f) = fail e := rfl

@[simp] theorem read_bind (k : S → Program S L ε α) (f : α → Program S L ε β) :
    (read k >>= f) = read fun s => k s >>= f := rfl

@[simp] theorem write_bind (l : L) (k : S → Program S L ε α) (f : α → Program S L ε β) :
    (write l k >>= f) = write l fun s => k s >>= f := rfl

theorem bind_assoc (p : Program S L ε α) (f : α → Program S L ε β) (g : β → Program S L ε γ) :
    (p >>= f) >>= g = p >>= fun a => f a >>= g := by
  induction p with
  | ret a => rfl
  | fail e => rfl
  | read k ih => simp [ih]
  | write l k ih => simp [ih]

/-- A `SELECT` that always has a row. -/
def query (q : S → α) : Program S L ε α := .read fun s => .ret (q s)

/-- A `SELECT` whose missing row is the error `e`. -/
def queryRow (q : S → Option α) (e : ε) : Program S L ε α :=
  .read fun s => match q s with
    | some a => .ret a
    | none => .fail e

def execute (l : L) : Program S L ε Unit := .write l fun _ => .ret ()

/-- Executes a statement and reports a fact of the state it ran on, such as
how many rows it changed. -/
def executeReturning (l : L) (q : S → α) : Program S L ε α := .write l fun s => .ret (q s)

/-- Early return with `e` unless `c` holds. -/
def require (c : Prop) [Decidable c] (e : ε) : Program S L ε Unit :=
  if c then .ret () else .fail e

/-- A check that runs without the store. -/
def ofExcept : Except ε α → Program S L ε α
  | .ok a => .ret a
  | .error e => .fail e

/-- Hands the outcome of `p` to the caller instead of returning early. A
statement of `L` that fails is not caught: the callers catch reads only. -/
def outcome : Program S L ε α → Program S L ε (Except ε α)
  | .ret a => .ret (.ok a)
  | .fail e => .ret (.error e)
  | .read k => .read fun s => (k s).outcome
  | .write l k => .write l fun s => (k s).outcome

/-- The same program over a larger set of statements. -/
def relabel {L' : Type} (f : L → L') : Program S L ε α → Program S L' ε α
  | .ret a => .ret a
  | .fail e => .fail e
  | .read k => .read fun s => (k s).relabel f
  | .write l k => .write (f l) fun s => (k s).relabel f

/-- The same program on a larger state, of which it sees a part. -/
def within {T L' : Type} (view : T → S) (f : L → L') : Program S L ε α → Program T L' ε α
  | .ret a => .ret a
  | .fail e => .fail e
  | .read k => .read fun t => (k (view t)).within view f
  | .write l k => .write (f l) fun t => (k (view t)).within view f

section Within
variable {T L' : Type} (view : T → S) (f : L → L')

theorem within_bind (p : Program S L ε α) (g : α → Program S L ε β) :
    (p >>= g).within view f = p.within view f >>= fun a => (g a).within view f := by
  induction p with
  | ret a => rfl
  | fail e => rfl
  | read k ih => simp [within, ih]
  | write l k ih => simp [within, ih]

theorem within_queryRow (q : S → Option α) (e : ε) :
    (queryRow q e : Program S L ε α).within view f = queryRow (fun t => q (view t)) e := by
  simp only [queryRow, within, read.injEq]
  funext t
  cases q (view t) <;> rfl

theorem within_require (c : Prop) [Decidable c] (e : ε) :
    (require c e : Program S L ε Unit).within view f = require c e := by
  unfold require
  split <;> rfl

theorem within_ofExcept (r : Except ε α) :
    (ofExcept r : Program S L ε α).within view f = ofExcept r := by
  cases r <;> rfl

theorem within_outcome {p : Program S L ε α} : p.outcome.within view f = (p.within view f).outcome := by
  induction p with
  | ret a => rfl
  | fail e => rfl
  | read k ih => simp [outcome, within, ih]
  | write l k ih => simp [outcome, within, ih]

end Within

/-- The program without the statements that only record what it has read: each
is the plain read again. -/
def unrecord {L' : Type} (f : L → Option L') : Program S L ε α → Program S L' ε α
  | .ret a => .ret a
  | .fail e => .fail e
  | .read k => .read fun s => (k s).unrecord f
  | .write l k =>
    match f l with
    | some l' => .write l' fun s => (k s).unrecord f
    | none => .read fun s => (k s).unrecord f

theorem unrecord_bind {L' : Type} (f : L → Option L') (p : Program S L ε α)
    (g : α → Program S L ε β) :
    (p >>= g).unrecord f = p.unrecord f >>= fun a => (g a).unrecord f := by
  induction p with
  | ret a => rfl
  | fail e => rfl
  | read k ih => simp [unrecord, ih]
  | write l k ih => cases hl : f l <;> simp [unrecord, hl, ih]

theorem unrecord_relabel {L' : Type} {f : L → Option L'} {g : L' → L}
    (h : ∀ l, f (g l) = some l) (p : Program S L' ε α) : (p.relabel g).unrecord f = p := by
  induction p with
  | ret a => rfl
  | fail e => rfl
  | read k ih => simp [relabel, unrecord, ih]
  | write l k ih => simp [relabel, unrecord, h, ih]

/-- No statement of the program is a write. -/
def ReadOnly : Program S L ε α → Prop
  | .ret _ => True
  | .fail _ => True
  | .read k => ∀ s, (k s).ReadOnly
  | .write _ _ => False

@[simp] theorem readOnly_ret (a : α) : (ret a : Program S L ε α).ReadOnly := trivial

@[simp] theorem readOnly_fail (e : ε) : (fail e : Program S L ε α).ReadOnly := trivial

@[simp] theorem readOnly_query (q : S → α) : (query q : Program S L ε α).ReadOnly :=
  fun _ => trivial

@[simp] theorem readOnly_queryRow (q : S → Option α) (e : ε) :
    (queryRow q e : Program S L ε α).ReadOnly := by
  simp only [queryRow, ReadOnly]
  intro s
  cases q s <;> trivial

@[simp] theorem readOnly_require (c : Prop) [Decidable c] (e : ε) :
    (require c e : Program S L ε Unit).ReadOnly := by
  unfold require; split <;> trivial

@[simp] theorem readOnly_ofExcept (r : Except ε α) :
    (ofExcept r : Program S L ε α).ReadOnly := by
  cases r <;> trivial

theorem ReadOnly.bind {p : Program S L ε α} {f : α → Program S L ε β}
    (hp : p.ReadOnly) (hf : ∀ a, (f a).ReadOnly) : (p >>= f).ReadOnly := by
  induction p with
  | ret a => exact hf a
  | fail e => trivial
  | read k ih => exact fun s => ih s (hp s)
  | write l k ih => exact hp.elim

theorem ReadOnly.outcome {p : Program S L ε α} (hp : p.ReadOnly) : p.outcome.ReadOnly := by
  induction p with
  | ret a => trivial
  | fail e => trivial
  | read k ih => exact fun s => ih s (hp s)
  | write l k ih => exact hp.elim

theorem readOnly_relabel {L' : Type} {f : L → L'} {p : Program S L ε α} (hp : p.ReadOnly) :
    (p.relabel f).ReadOnly := by
  induction p with
  | ret a => trivial
  | fail e => trivial
  | read k ih => exact fun s => ih s (hp s)
  | write l k ih => exact hp.elim

theorem ReadOnly.within {T L' : Type} {p : Program S L ε α} (hp : p.ReadOnly) (view : T → S)
    (f : L → L') : (p.within view f).ReadOnly := by
  induction p with
  | ret a => trivial
  | fail e => trivial
  | read k ih => exact fun t => ih _ (hp _)
  | write l k ih => exact hp.elim

/-- Every write of the program is one of `p`. -/
def WritesOnly (p : L → Prop) : Program S L ε α → Prop
  | .ret _ => True
  | .fail _ => True
  | .read k => ∀ s, (k s).WritesOnly p
  | .write l k => p l ∧ ∀ s, (k s).WritesOnly p

theorem WritesOnly.imp {c d : L → Prop} {p : Program S L ε α} (hp : p.WritesOnly c)
    (h : ∀ l, c l → d l) : p.WritesOnly d := by
  induction p with
  | ret a => trivial
  | fail e => trivial
  | read k ih => exact fun s => ih s (hp s)
  | write l k ih => exact ⟨h l hp.1, fun s => ih s (hp.2 s)⟩

theorem WritesOnly.bind {c : L → Prop} {p : Program S L ε α} {f : α → Program S L ε β}
    (hp : p.WritesOnly c) (hf : ∀ a, (f a).WritesOnly c) : (p >>= f).WritesOnly c := by
  induction p with
  | ret a => exact hf a
  | fail e => trivial
  | read k ih => exact fun s => ih s (hp s)
  | write l k ih => exact ⟨hp.1, fun s => ih s (hp.2 s)⟩

theorem ReadOnly.writesOnly {c : L → Prop} {p : Program S L ε α} (hp : p.ReadOnly) :
    p.WritesOnly c := by
  induction p with
  | ret a => trivial
  | fail e => trivial
  | read k ih => exact fun s => ih s (hp s)
  | write l k ih => exact hp.elim

theorem writesOnly_ofExcept_bind {c : L → Prop} {r : Except ε α} {f : α → Program S L ε β}
    (hf : ∀ a, r = .ok a → (f a).WritesOnly c) : (ofExcept r >>= f).WritesOnly c := by
  cases r with
  | ok a => exact hf a rfl
  | error e => trivial

theorem writesOnly_require_bind {c : L → Prop} {q : Prop} [Decidable q] {e : ε}
    {f : Unit → Program S L ε β} (hf : q → (f ()).WritesOnly c) :
    (require q e >>= f).WritesOnly c := by
  unfold require
  split
  · next hq => exact hf hq
  · trivial

theorem writesOnly_of_forall {c : L → Prop} (h : ∀ l, c l) (p : Program S L ε α) :
    p.WritesOnly c := by
  induction p with
  | ret a => trivial
  | fail e => trivial
  | read k ih => exact ih
  | write l k ih => exact ⟨h l, ih⟩

theorem WritesOnly.relabel {L' : Type} {f : L → L'} {c : L' → Prop} {p : Program S L ε α}
    (hp : p.WritesOnly fun l => c (f l)) : (p.relabel f).WritesOnly c := by
  induction p with
  | ret a => trivial
  | fail e => trivial
  | read k ih => exact fun s => ih s (hp s)
  | write l k ih => exact ⟨hp.1, fun s => ih s (hp.2 s)⟩

theorem WritesOnly.within {T L' : Type} {view : T → S} {f : L → L'} {c : L' → Prop}
    {p : Program S L ε α} (hp : p.WritesOnly fun l => c (f l)) :
    (p.within view f).WritesOnly c := by
  induction p with
  | ret a => trivial
  | fail e => trivial
  | read k ih => exact fun t => ih _ (hp _)
  | write l k ih => exact ⟨hp.1, fun t => ih _ (hp.2 _)⟩

theorem writesOnly_pure {c : L → Prop} (a : α) : (pure a : Program S L ε α).WritesOnly c := trivial

theorem writesOnly_execute {c : L → Prop} {l : L} (h : c l) :
    (execute l : Program S L ε Unit).WritesOnly c := ⟨h, fun _ => trivial⟩

theorem writesOnly_executeReturning {c : L → Prop} {l : L} (q : S → α) (h : c l) :
    (executeReturning l q : Program S L ε α).WritesOnly c := ⟨h, fun _ => trivial⟩

section Alone
variable [Engine S L ε]

/-- The program run to its end with no other request in between. -/
def exec : Program S L ε α → S → Except ε α × S
  | .ret a, s => (.ok a, s)
  | .fail e, s => (.error e, s)
  | .read k, s => (k s).exec s
  | .write l k, s =>
    match Engine.run l s with
    | .ok s' => (k s).exec s'
    | .error e => (.error e, s)

@[simp] theorem exec_ret (a : α) (s : S) : (ret a : Program S L ε α).exec s = (.ok a, s) := rfl

@[simp] theorem exec_fail (e : ε) (s : S) :
    (fail e : Program S L ε α).exec s = (.error e, s) := rfl

@[simp] theorem exec_read (k : S → Program S L ε α) (s : S) :
    (read k).exec s = (k s).exec s := rfl

theorem exec_write (l : L) (k : S → Program S L ε α) (s : S) :
    (write l k).exec s = match (Engine.run l s : Except ε S) with
      | .ok s' => (k s).exec s'
      | .error e => (.error e, s) := rfl

theorem exec_write_ok {l : L} {s s' : S} (k : S → Program S L ε α)
    (h : Engine.run l s = .ok s') : (write l k).exec s = (k s).exec s' := by
  simp [exec_write, h]

theorem exec_execute {l : L} {s s' : S} (h : Engine.run l s = (.ok s' : Except ε S)) :
    (execute l : Program S L ε Unit).exec s = (.ok (), s') := exec_write_ok _ h

theorem exec_within {T L' : Type} [Engine T L' ε] {view : T → S} {f : L → L'}
    {p : Program S L ε α} (hp : p.ReadOnly) (t : T) :
    (p.within view f).exec t = ((p.exec (view t)).1, t) := by
  induction p with
  | ret a => rfl
  | fail e => rfl
  | read k ih => exact ih (view t) (hp (view t))
  | write l k ih => exact hp.elim

theorem exec_bind (p : Program S L ε α) (f : α → Program S L ε β) (s : S) :
    (p >>= f).exec s = match p.exec s with
      | (.ok a, s') => (f a).exec s'
      | (.error e, s') => (.error e, s') := by
  induction p generalizing s with
  | ret a => rfl
  | fail e => rfl
  | read k ih => exact ih s s
  | write l k ih =>
    rw [write_bind, exec_write, exec_write]
    cases Engine.run l s with
    | ok s' => exact ih s s'
    | error e => rfl

theorem exec_bind_ok {p : Program S L ε α} {s s' : S} {a : α} (f : α → Program S L ε β)
    (h : p.exec s = (.ok a, s')) : (p >>= f).exec s = (f a).exec s' := by
  simp [exec_bind, h]

theorem exec_bind_eq_ok {p : Program S L ε α} {f : α → Program S L ε β} {s s' : S} {b : β}
    (h : (p >>= f).exec s = (.ok b, s')) :
    ∃ a t, p.exec s = (.ok a, t) ∧ (f a).exec t = (.ok b, s') := by
  rw [exec_bind] at h
  rcases hp : p.exec s with ⟨r, t⟩
  rw [hp] at h
  cases r with
  | ok a => exact ⟨a, t, rfl, h⟩
  | error e => cases h

@[simp] theorem exec_query (q : S → α) (s : S) :
    (query q : Program S L ε α).exec s = (.ok (q s), s) := rfl

theorem exec_queryRow (q : S → Option α) (e : ε) (s : S) :
    (queryRow q e : Program S L ε α).exec s = match q s with
      | some a => (.ok a, s)
      | none => (.error e, s) := by
  simp only [queryRow, exec_read]
  cases q s <;> rfl

theorem exec_queryRow_some {q : S → Option α} {e : ε} {s : S} {a : α} (h : q s = some a) :
    (queryRow q e : Program S L ε α).exec s = (.ok a, s) := by
  rw [exec_queryRow, h]

theorem exec_queryRow_ok {q : S → Option α} {e : ε} {s s' : S} {a : α}
    (h : (queryRow q e : Program S L ε α).exec s = (.ok a, s')) : q s = some a ∧ s' = s := by
  rw [exec_queryRow] at h
  cases hq : q s with
  | none => simp [hq] at h
  | some b =>
    simp only [hq, Prod.mk.injEq, Except.ok.injEq] at h
    exact ⟨by rw [h.1], h.2.symm⟩

theorem exec_require (c : Prop) [Decidable c] (e : ε) (s : S) :
    (require c e : Program S L ε Unit).exec s = if c then (.ok (), s) else (.error e, s) := by
  unfold require; split <;> rfl

theorem exec_require_ok {c : Prop} [Decidable c] {e : ε} {s s' : S} {u : Unit}
    (h : (require c e : Program S L ε Unit).exec s = (.ok u, s')) : c ∧ s' = s := by
  rw [exec_require] at h
  by_cases hc : c
  · rw [if_pos hc] at h
    exact ⟨hc, (Prod.mk.inj h).2.symm⟩
  · rw [if_neg hc] at h
    cases h

@[simp] theorem exec_ofExcept (r : Except ε α) (s : S) :
    (ofExcept r : Program S L ε α).exec s = (r, s) := by
  cases r <;> rfl

theorem exec_ofExcept_ok {r : Except ε α} {s s' : S} {a : α}
    (h : (ofExcept r : Program S L ε α).exec s = (.ok a, s')) : r = .ok a ∧ s' = s := by
  rw [exec_ofExcept] at h
  exact ⟨(Prod.mk.inj h).1, (Prod.mk.inj h).2.symm⟩

theorem exec_executeReturning_ok {l : L} {q : S → α} {s s' : S} {a : α}
    (h : (executeReturning l q : Program S L ε α).exec s = (.ok a, s')) :
    Engine.run l s = .ok s' ∧ a = q s := by
  rw [executeReturning, exec_write] at h
  split at h
  · next t ht =>
    cases h
    exact ⟨ht, rfl⟩
  · cases h

theorem exec_execute_ok {l : L} {s s' : S} {u : Unit}
    (h : (execute l : Program S L ε Unit).exec s = (.ok u, s')) : Engine.run l s = .ok s' :=
  (exec_executeReturning_ok h).1

theorem exec_readOnly {p : Program S L ε α} (hp : p.ReadOnly) (s : S) : (p.exec s).2 = s := by
  induction p with
  | ret a => rfl
  | fail e => rfl
  | read k ih => exact ih s (hp s)
  | write l k ih => exact hp.elim

theorem exec_outcome {p : Program S L ε α} (hp : p.ReadOnly) (s : S) :
    p.outcome.exec s = (.ok (p.exec s).1, s) := by
  induction p with
  | ret a => rfl
  | fail e => rfl
  | read k ih => exact ih s (hp s)
  | write l k ih => exact hp.elim

theorem exec_relabel {L' : Type} [Engine S L' ε] {f : L → L'}
    (hf : ∀ l s, (Engine.run (f l) s : Except ε S) = Engine.run l s) (p : Program S L ε α) (s : S) :
    (p.relabel f).exec s = p.exec s := by
  induction p generalizing s with
  | ret a => rfl
  | fail e => rfl
  | read k ih => exact ih s s
  | write l k ih =>
    rw [relabel, exec_write, exec_write, hf]
    cases Engine.run l s with
    | ok s' => exact ih s s'
    | error e => rfl

theorem exec_unrecord {L' : Type} [Engine S L' ε] {f : L → Option L'}
    (hsome : ∀ l l' s, f l = some l' → (Engine.run l s : Except ε S) = Engine.run l' s)
    {p : Program S L ε α}
    (hp : p.WritesOnly fun l => f l = none → ∀ s, (Engine.run l s : Except ε S) = .ok s) (s : S) :
    (p.unrecord f).exec s = p.exec s := by
  induction p generalizing s with
  | ret a => rfl
  | fail e => rfl
  | read k ih => exact ih s (hp s) s
  | write l k ih =>
    rw [exec_write]
    cases hl : f l with
    | some l' =>
      simp only [unrecord, hl]
      rw [exec_write, hsome l l' s hl]
      cases Engine.run l' s with
      | ok s' => exact ih s (hp.2 s) s'
      | error e => rfl
    | none =>
      simp only [unrecord, hl]
      rw [hp.1 hl s]
      exact ih s (hp.2 s) s

/-- A run alone ends in a state with `I`, whatever its outcome. -/
def Leaves (I : S → Prop) (p : Program S L ε α) (s : S) : Prop := I (p.exec s).2

theorem leaves_readOnly {I : S → Prop} {p : Program S L ε α} {s : S} (hp : p.ReadOnly)
    (hs : I s) : p.Leaves I s := by
  rw [Leaves, exec_readOnly hp]
  exact hs

theorem leaves_bind {I : S → Prop} {p : Program S L ε α} {f : α → Program S L ε β} {s : S}
    (hp : p.Leaves I s) (hf : ∀ a s', p.exec s = (.ok a, s') → (f a).Leaves I s') :
    (p >>= f).Leaves I s := by
  unfold Leaves at *
  rw [exec_bind]
  rcases hx : p.exec s with ⟨r, s'⟩
  rw [hx] at hp
  cases r with
  | ok a => exact hf a s' hx
  | error e => exact hp

theorem leaves_readOnly_bind {I : S → Prop} {p : Program S L ε α} {f : α → Program S L ε β}
    {s : S} (hp : p.ReadOnly) (hs : I s)
    (hf : ∀ a, p.exec s = (.ok a, s) → (f a).Leaves I s) : (p >>= f).Leaves I s := by
  refine leaves_bind (leaves_readOnly hp hs) fun a s' hx => ?_
  obtain rfl : s' = s := by rw [← exec_readOnly hp s, hx]
  exact hf a hx

theorem leaves_bind_readOnly {I : S → Prop} {p : Program S L ε α} {f : α → Program S L ε β}
    {s : S} (hp : p.Leaves I s) (hf : ∀ a, (f a).ReadOnly) : (p >>= f).Leaves I s := by
  refine leaves_bind hp fun a s' hx => leaves_readOnly (hf a) ?_
  rw [Leaves, hx] at hp
  exact hp

theorem leaves_bind_ok {I : S → Prop} {p : Program S L ε α} {f : α → Program S L ε β}
    {s s' : S} {a : α} (hp : p.exec s = (.ok a, s')) (hf : (f a).Leaves I s') :
    (p >>= f).Leaves I s := by
  rw [Leaves, exec_bind_ok f hp]
  exact hf

theorem leaves_write {I : S → Prop} {l : L} {k : S → Program S L ε α} {s : S} (hs : I s)
    (hk : ∀ s', Engine.run l s = .ok s' → (k s).Leaves I s') : (write l k).Leaves I s := by
  unfold Leaves
  rw [exec_write]
  cases hr : (Engine.run l s : Except ε S) with
  | ok s' => exact hk s' hr
  | error e => exact hs

theorem leaves_execute_bind {I : S → Prop} {l : L} {f : Unit → Program S L ε α} {s : S}
    (hs : I s) (hf : ∀ s', Engine.run l s = .ok s' → (f ()).Leaves I s') :
    (execute l >>= f).Leaves I s := leaves_write hs hf

theorem leaves_executeReturning_bind {I : S → Prop} {l : L} {q : S → α}
    {f : α → Program S L ε β} {s : S} (hs : I s)
    (hf : ∀ s', Engine.run l s = .ok s' → (f (q s)).Leaves I s') :
    (executeReturning l q >>= f).Leaves I s := leaves_write hs hf

theorem leaves_of_writesOnly {I : S → Prop} {c : L → Prop} {p : Program S L ε α} {s : S}
    (hc : ∀ l s s', c l → I s → Engine.run l s = .ok s' → I s') (hp : p.WritesOnly c)
    (hs : I s) : p.Leaves I s := by
  induction p generalizing s with
  | ret a => exact hs
  | fail e => exact hs
  | read k ih => exact ih s (hp s) hs
  | write l k ih => exact leaves_write hs fun s' hr => ih s (hp.2 s) (hc l s s' hp.1 hs hr)

end Alone

end Program

end Cinder.Programs

namespace Cinder.Programs.Program

variable {S L ε α β : Type} [Engine S L ε]

/-- The program, run alone from `s`, tries a statement with `q`. -/
def Executes (q : L → Prop) : Program S L ε α → S → Prop
  | .ret _, _ => False
  | .fail _, _ => False
  | .read k, s => (k s).Executes q s
  | .write l k, s => q l ∨ ∃ s', Engine.run l s = .ok s' ∧ (k s).Executes q s'

variable {q : L → Prop} {s : S} {f : α → Program S L ε β}

@[simp] theorem not_executes_fail (e : ε) : ¬(fail e : Program S L ε α).Executes q s := id

@[simp] theorem executes_query_bind {get : S → α} :
    (query get >>= f).Executes q s ↔ (f (get s)).Executes q s := Iff.rfl

@[simp] theorem executes_queryRow_bind {get : S → Option α} {e : ε} :
    (queryRow get e >>= f).Executes q s ↔ ∃ a, get s = some a ∧ (f a).Executes q s := by
  simp only [queryRow, read_bind, Executes]
  cases get s <;> simp

@[simp] theorem executes_require_bind {c : Prop} [Decidable c] {e : ε}
    {g : Unit → Program S L ε β} :
    (require c e >>= g).Executes q s ↔ c ∧ (g ()).Executes q s := by
  unfold require
  split <;> simp [*]

theorem executes_execute_bind {l : L} {g : Unit → Program S L ε β} (h : q l) :
    (execute l >>= g).Executes q s := Or.inl h

end Cinder.Programs.Program
