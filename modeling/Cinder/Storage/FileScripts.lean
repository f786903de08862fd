import Mathlib.Logic.Function.Basic
set_option autoImplicit false

/-!
Code that works on files, on a machine that may stop at every step and whose
file operations may fail. A rename happens whole or not at all; a file that is
being written may be left with any first part.
-/

namespace Cinder.Storage

variable {F A ε α β : Type}

inductive IoError where
  | notFound
  | alreadyExists
  | other
  deriving DecidableEq, Repr

/-- What every file holds. -/
abbrev Disk (F A : Type) := F → Option (List A)

inductive FileOp (F A : Type) where
  | metadata (f : F)
  | read (f : F)
  | remove (f : F)
  | createNew (f : F)
  | writeAll (f : F) (contents : List A)
  | syncAll (f : F)
  | rename (f g : F)
  | setPermissions (f : F)
  | createDirAll
  deriving DecidableEq

/-- How an operation goes. One that fails, or that the machine stops in, has
written `n` items if it is a write. -/
inductive Fate where
  | fine
  | fails (n : Nat)
  | crash (n : Nat)
  deriving DecidableEq

def Fate.isFailure : Fate → Bool
  | .fails _ => true
  | _ => false

def Fate.isCrash : Fate → Bool
  | .crash _ => true
  | _ => false

section Disks
variable [DecidableEq F]

def Disk.set (d : Disk F A) (f : F) (x : Option (List A)) : Disk F A := Function.update d f x

@[simp] theorem Disk.set_self (d : Disk F A) (f : F) (x : Option (List A)) : d.set f x f = x := by
  simp [set]

theorem Disk.set_of_ne {d : Disk F A} {f g : F} {x : Option (List A)} (h : g ≠ f) :
    d.set f x g = d g := by
  simp [set, h]

def FileOp.perform (d : Disk F A) : FileOp F A → Except IoError (List A) × Disk F A
  | .metadata f => (if (d f).isSome then .ok [] else .error .notFound, d)
  | .read f => (match d f with
    | some x => .ok x
    | none => .error .notFound, d)
  | .remove f => (if (d f).isSome then .ok [] else .error .notFound, d.set f none)
  | .createNew f =>
    if (d f).isSome then (.error .alreadyExists, d) else (.ok [], d.set f (some []))
  | .writeAll f contents => (.ok [], d.set f (some contents))
  | .syncAll _ => (.ok [], d)
  | .rename f g =>
    if (d f).isSome then (.ok [], (d.set g (d f)).set f none) else (.error .notFound, d)
  | .setPermissions f => (if (d f).isSome then .ok [] else .error .notFound, d)
  | .createDirAll => (.ok [], d)

/-- What an operation leaves that did not come to its end. -/
def FileOp.torn (n : Nat) (d : Disk F A) : FileOp F A → Disk F A
  | .writeAll f contents => d.set f (some (contents.take n))
  | .syncAll f => d.set f ((d f).map (List.take n))
  | _ => d

end Disks

/-- Every operation hands its reply to the rest of the script. -/
inductive Script (F A ε α : Type) where
  | ret : α → Script F A ε α
  | fail : ε → Script F A ε α
  | op : FileOp F A → (Except IoError (List A) → Script F A ε α) → Script F A ε α

namespace Script

def bind : Script F A ε α → (α → Script F A ε β) → Script F A ε β
  | .ret a, f => f a
  | .fail e, _ => .fail e
  | .op o k, f => .op o fun r => (k r).bind f

instance : Monad (Script F A ε) where
  pure := .ret
  bind := bind

@[simp] theorem pure_eq (a : α) : (pure a : Script F A ε α) = .ret a := rfl

@[simp] theorem ret_bind (a : α) (f : α → Script F A ε β) : (ret a >>= f) = f a := rfl

@[simp] theorem fail_bind (e : ε) (f : α → Script F A ε β) :
    ((fail e : Script F A ε α) >>= f) = fail e := rfl

@[simp] theorem op_bind (o : FileOp F A) (k : Except IoError (List A) → Script F A ε α)
    (f : α → Script F A ε β) : (op o k >>= f) = op o fun r => k r >>= f := rfl

@[simp] theorem bind_ret (p : Script F A ε α) : (p >>= .ret) = p := by
  induction p with
  | ret a => rfl
  | fail e => rfl
  | op o k ih => simp [ih]

theorem bind_assoc {γ : Type} (p : Script F A ε α) (f : α → Script F A ε β)
    (g : β → Script F A ε γ) : (p >>= f) >>= g = p >>= fun a => f a >>= g := by
  induction p with
  | ret a => rfl
  | fail e => rfl
  | op o k ih => simp [ih]

def attempt (o : FileOp F A) : Script F A ε (Except IoError (List A)) := .op o .ret

def act (o : FileOp F A) (e : IoError → ε) : Script F A ε Unit :=
  .op o fun r => match r with
    | .ok _ => .ret ()
    | .error x => .fail (e x)

def require (c : Prop) [Decidable c] (e : ε) : Script F A ε Unit :=
  if c then .ret () else .fail e

end Script

structure FileEvent (F A : Type) where
  op : FileOp F A
  fate : Fate
  before : Disk F A

structure Finish (F A ε α : Type) where
  result : Option (Except ε α)
  disk : Disk F A
  events : List (FileEvent F A)

def Finish.clean (o : Finish F A ε α) : Bool :=
  o.result.isSome && o.events.all fun e => e.fate = .fine

def Finish.map (f : α → β) (o : Finish F A ε α) : Finish F A ε β :=
  ⟨o.result.map (Except.map f), o.disk, o.events⟩

@[simp] theorem Finish.clean_map (f : α → β) (o : Finish F A ε α) :
    (o.map f).clean = o.clean := by
  simp [map, clean]

section Execution
variable [DecidableEq F]

/-- Where no fates are left everything goes well. -/
def Script.exec : Script F A ε α → List Fate → Disk F A → Finish F A ε α
  | .ret a, fates, d => match fates with
    | .crash _ :: _ => ⟨none, d, []⟩
    | _ => ⟨some (.ok a), d, []⟩
  | .fail e, fates, d => match fates with
    | .crash _ :: _ => ⟨none, d, []⟩
    | _ => ⟨some (.error e), d, []⟩
  | .op o k, fates, d => match fates.headD .fine with
    | .crash n => ⟨none, o.torn n d, [⟨o, .crash n, d⟩]⟩
    | .fails n =>
      let rest := (k (.error .other)).exec fates.tail (o.torn n d)
      { rest with events := ⟨o, .fails n, d⟩ :: rest.events }
    | .fine =>
      let rest := (k (o.perform d).1).exec fates.tail (o.perform d).2
      { rest with events := ⟨o, .fine, d⟩ :: rest.events }

/-- Whatever happens to the script from `d` on, as long as all its steps satisfy
`G`: the flag says that nothing went wrong. -/
def Script.Ends (G : FileEvent F A → Prop) : Script F A ε α → Disk F A →
    (Bool → Option (Except ε α) → Disk F A → Prop) → Prop
  | .ret a, d, Q => Q true (some (.ok a)) d ∧ Q false none d
  | .fail e, d, Q => Q true (some (.error e)) d ∧ Q false none d
  | .op o k, d, Q =>
    (∀ n, G ⟨o, .crash n, d⟩ → Q false none (o.torn n d)) ∧
    (∀ n, G ⟨o, .fails n, d⟩ →
      (k (.error .other)).Ends G (o.torn n d) fun _ r d' => Q false r d') ∧
    (G ⟨o, .fine, d⟩ → (k (o.perform d).1).Ends G (o.perform d).2 Q)

namespace Script

variable {G : FileEvent F A → Prop} {d : Disk F A}

theorem Ends.sound {p : Script F A ε α} {Q : Bool → Option (Except ε α) → Disk F A → Prop}
    (h : p.Ends G d Q) (fates : List Fate) (hG : ∀ e ∈ (p.exec fates d).events, G e) :
    Q (p.exec fates d).clean (p.exec fates d).result (p.exec fates d).disk := by
  induction p generalizing d Q fates with
  | ret a =>
    obtain ⟨hret, hcrash⟩ := h
    rcases fates with _ | ⟨_ | _ | _, fates⟩ <;> assumption
  | fail e =>
    obtain ⟨hfail, hcrash⟩ := h
    rcases fates with _ | ⟨_ | _ | _, fates⟩ <;> assumption
  | op o k ih =>
    obtain ⟨hcrash, hfails, hfine⟩ := h
    rw [exec] at hG ⊢
    generalize fates.headD .fine = fate at hG ⊢
    cases fate with
    | fine =>
      have hrest := ih _ (hfine (hG _ List.mem_cons_self)) fates.tail
        fun e he => hG e (List.mem_cons_of_mem _ he)
      simpa [Finish.clean] using hrest
    | fails n =>
      have hrest := ih _ (hfails n (hG _ List.mem_cons_self)) fates.tail
        fun e he => hG e (List.mem_cons_of_mem _ he)
      simpa [Finish.clean] using hrest
    | crash n => exact hcrash n (hG _ List.mem_cons_self)

theorem exec_nil_clean (p : Script F A ε α) (d : Disk F A) : (p.exec [] d).clean = true := by
  induction p generalizing d with
  | ret a => rfl
  | fail e => rfl
  | op o k ih =>
    have hrest := ih (o.perform d).1 (o.perform d).2
    simpa [exec, Finish.clean] using hrest

theorem Ends.weaken {p : Script F A ε α} {Q Q' : Bool → Option (Except ε α) → Disk F A → Prop}
    (h : p.Ends G d Q) (hQ : ∀ c r d', Q c r d' → Q' c r d') : p.Ends G d Q' := by
  induction p generalizing d Q Q' with
  | ret a => exact h.imp (hQ _ _ _) (hQ _ _ _)
  | fail e => exact h.imp (hQ _ _ _) (hQ _ _ _)
  | op o k ih =>
    obtain ⟨hcrash, hfails, hfine⟩ := h
    exact ⟨fun n hG => hQ _ _ _ (hcrash n hG), fun n hG => ih _ (hfails n hG) fun _ => hQ _,
      fun hG => ih _ (hfine hG) hQ⟩

theorem Ends.and {p : Script F A ε α} {Q Q' : Bool → Option (Except ε α) → Disk F A → Prop}
    (h : p.Ends G d Q) (h' : p.Ends G d Q') :
    p.Ends G d fun c r d' => Q c r d' ∧ Q' c r d' := by
  induction p generalizing d Q Q' with
  | ret a => exact ⟨⟨h.1, h'.1⟩, h.2, h'.2⟩
  | fail e => exact ⟨⟨h.1, h'.1⟩, h.2, h'.2⟩
  | op o k ih =>
    exact ⟨fun n hG => ⟨h.1 n hG, h'.1 n hG⟩, fun n hG => ih _ (h.2.1 n hG) (h'.2.1 n hG),
      fun hG => ih _ (h.2.2 hG) (h'.2.2 hG)⟩

/-- What has to hold after the first of two scripts: one that stops or fails is
the end of the whole. -/
def Then (G : FileEvent F A → Prop) (f : α → Script F A ε β)
    (Q : Bool → Option (Except ε β) → Disk F A → Prop) (c : Bool) (r : Option (Except ε α))
    (d : Disk F A) : Prop :=
  match r with
  | none => Q false none d
  | some (.error e) => Q c (some (.error e)) d
  | some (.ok a) => (f a).Ends G d fun c' r' d' => Q (c && c') r' d'

theorem Ends.bind {p : Script F A ε α} {f : α → Script F A ε β}
    {Q : Bool → Option (Except ε β) → Disk F A → Prop} (h : p.Ends G d (Then G f Q)) :
    (p >>= f).Ends G d Q := by
  induction p generalizing d Q with
  | ret a => exact h.1
  | fail e => exact h
  | op o k ih =>
    obtain ⟨hcrash, hfails, hfine⟩ := h
    refine ⟨hcrash, fun n hG => ih _ ((hfails n hG).weaken ?_), fun hG => ih _ (hfine hG)⟩
    rintro c (_ | _ | a) d' hQ
    · exact hQ
    · exact hQ
    · exact hQ.weaken fun c' r d'' hQ' => by simpa using hQ'

theorem Ends.attempt {o : FileOp F A} {f : Except IoError (List A) → Script F A ε β}
    {Q : Bool → Option (Except ε β) → Disk F A → Prop}
    (hcrash : ∀ n, G ⟨o, .crash n, d⟩ → Q false none (o.torn n d))
    (hfails : ∀ n, G ⟨o, .fails n, d⟩ →
      (f (.error .other)).Ends G (o.torn n d) fun _ r d' => Q false r d')
    (hfine : (f (o.perform d).1).Ends G (o.perform d).2 Q) :
    (attempt o >>= f).Ends G d Q :=
  ⟨hcrash, hfails, fun _ => hfine⟩

/-- After an operation whose error is returned the rest starts only from a
success. -/
theorem Ends.act {o : FileOp F A} {e : IoError → ε} {f : Unit → Script F A ε β}
    {Q : Bool → Option (Except ε β) → Disk F A → Prop}
    (hcrash : ∀ n, Q false none (o.torn n d))
    (hfails : ∀ n, Q false (some (.error (e .other))) (o.torn n d))
    (hok : ∀ r, (o.perform d).1 = .ok r → (f ()).Ends G (o.perform d).2 Q)
    (herror : ∀ x, (o.perform d).1 = .error x →
      Q true (some (.error (e x))) (o.perform d).2 ∧ Q false none (o.perform d).2) :
    (act o e >>= f).Ends G d Q := by
  refine ⟨fun n _ => hcrash n, fun n _ => ⟨hfails n, hcrash n⟩, fun _ => ?_⟩
  cases h : (o.perform d).1 with
  | ok r => exact hok r h
  | error x => exact herror x h

theorem Ends.require {c : Prop} [Decidable c] {e : ε} {f : Unit → Script F A ε β}
    {Q : Bool → Option (Except ε β) → Disk F A → Prop}
    (hok : c → (f ()).Ends G d Q)
    (hfail : ¬c → Q true (some (.error e)) d ∧ Q false none d) :
    (require c e >>= f).Ends G d Q := by
  unfold Script.require
  split
  · next h => exact hok h
  · next h => exact hfail h

end Script
end Execution

end Cinder.Storage
