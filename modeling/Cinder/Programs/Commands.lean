set_option autoImplicit false

/-!
Commands on a state that stays changed when they fail: `Err` is returned beside
whatever was assigned before.
-/

namespace Cinder.Programs

def Command (S ε α : Type) : Type := S → Except ε α × S

namespace Command

variable {S T ε α β : Type}

instance : Monad (Command S ε) where
  pure a := fun s => (.ok a, s)
  bind p f := fun s => match p s with
    | (.ok a, s') => f a s'
    | (.error e, s') => (.error e, s')

def fail (e : ε) : Command S ε α := fun s => (.error e, s)

def get : Command S ε S := fun s => (.ok s, s)

def modify (f : S → S) : Command S ε Unit := fun s => (.ok (), f s)

def require (c : Prop) [Decidable c] (e : ε) : Command S ε Unit :=
  if c then pure () else fail e

/-- A step outside the state, which may fail. -/
def attempt (failure : Option ε) : Command S ε Unit :=
  match failure with
  | none => pure ()
  | some e => fail e

def zoom (read : S → T) (write : S → T → S) (p : Command T ε α) : Command S ε α := fun s =>
  ((p (read s)).1, write s (p (read s)).2)

/-- Hands the outcome to the caller, who goes on either way. -/
def outcome (p : Command S ε α) : Command S ε (Except ε α) := fun s => (.ok (p s).1, (p s).2)

/-- A transaction: what a failed command has changed is undone. -/
def atomically (p : Command S ε α) : Command S ε α := fun s =>
  match p s with
  | (.ok a, s') => (.ok a, s')
  | (.error e, _) => (.error e, s)

def ofExcept : Except ε α → Command S ε α
  | .ok a => pure a
  | .error e => fail e

@[simp] theorem pure_run (a : α) (s : S) : (pure a : Command S ε α) s = (.ok a, s) := rfl

@[simp] theorem fail_run (e : ε) (s : S) : (fail e : Command S ε α) s = (.error e, s) := rfl

@[simp] theorem get_run (s : S) : (get : Command S ε S) s = (.ok s, s) := rfl

@[simp] theorem modify_run (f : S → S) (s : S) :
    (modify f : Command S ε Unit) s = (.ok (), f s) := rfl

theorem bind_run (p : Command S ε α) (f : α → Command S ε β) (s : S) :
    (p >>= f) s = match p s with
      | (.ok a, s') => f a s'
      | (.error e, s') => (.error e, s') := rfl

theorem bind_ok {p : Command S ε α} {f : α → Command S ε β} {s s' : S} {a : α}
    (h : p s = (.ok a, s')) : (p >>= f) s = f a s' := by
  rw [bind_run, h]

theorem bind_error {p : Command S ε α} {f : α → Command S ε β} {s s' : S} {e : ε}
    (h : p s = (.error e, s')) : (p >>= f) s = (.error e, s') := by
  rw [bind_run, h]

theorem of_bind_ok {p : Command S ε α} {f : α → Command S ε β} {s s' : S} {b : β}
    (h : (p >>= f) s = (.ok b, s')) : ∃ a t, p s = (.ok a, t) ∧ f a t = (.ok b, s') := by
  rw [bind_run] at h
  rcases hp : p s with ⟨e | a, t⟩
  · rw [hp] at h
    cases h
  · rw [hp] at h
    exact ⟨a, t, rfl, h⟩

theorem require_run (c : Prop) [Decidable c] (e : ε) (s : S) :
    (require c e : Command S ε Unit) s = if c then (.ok (), s) else (.error e, s) := by
  unfold require
  split <;> rfl

theorem require_bind_ok {c : Prop} [Decidable c] (hc : c) (e : ε) (f : Unit → Command S ε β) (s : S) :
    (require c e >>= f) s = f () s :=
  bind_ok (by rw [require_run, if_pos hc])

theorem require_bind_error {c : Prop} [Decidable c] (hc : ¬c) (e : ε) (f : Unit → Command S ε β)
    (s : S) : (require c e >>= f) s = (.error e, s) :=
  bind_error (by rw [require_run, if_neg hc])

theorem forM_cons (f : α → Command S ε Unit) (x : α) (xs : List α) :
    (x :: xs).forM f = f x >>= fun _ => xs.forM f := rfl

theorem attempt_run (failure : Option ε) (s : S) :
    (attempt failure : Command S ε Unit) s = match failure with
      | none => (.ok (), s)
      | some e => (.error e, s) := by
  cases failure <;> rfl

theorem ofExcept_ok {x : Except ε α} {a : α} (h : x = .ok a) (s : S) :
    ofExcept x s = (.ok a, s) := by
  rw [h]
  rfl

theorem of_ofExcept_ok {x : Except ε α} {s s' : S} {a : α} (h : ofExcept x s = (.ok a, s')) :
    x = .ok a ∧ s' = s := by
  cases x with
  | error e => cases h
  | ok b =>
    cases h
    exact ⟨rfl, rfl⟩

theorem ofExcept_error {x : Except ε α} {e : ε} (h : x = .error e) (s : S) :
    ofExcept x s = (.error e, s) := by
  rw [h]
  rfl

/-- If the command fails, it leaves a state with `P`. -/
def FailsWith (P : S → Prop) (p : Command S ε α) (s : S) : Prop :=
  ∀ e, (p s).1 = .error e → P (p s).2

section FailsWith
variable {P : S → Prop} {s : S}

theorem failsWith_ok {p : Command S ε α} {s' : S} {a : α} (h : p s = (.ok a, s')) :
    p.FailsWith P s := by
  intro e he
  rw [h] at he
  cases he

theorem failsWith_error {p : Command S ε α} {s' : S} {e : ε} (h : p s = (.error e, s')) :
    p.FailsWith P s ↔ P s' := by
  unfold FailsWith
  rw [h]
  exact ⟨fun hP => hP e rfl, fun hP _ _ => hP⟩

theorem failsWith_bind_ok {p : Command S ε α} {f : α → Command S ε β} {s' : S} {a : α}
    (h : p s = (.ok a, s')) : (p >>= f).FailsWith P s ↔ (f a).FailsWith P s' := by
  unfold FailsWith
  rw [bind_ok h]

theorem failsWith_bind_error {p : Command S ε α} {f : α → Command S ε β} {s' : S} {e : ε}
    (h : p s = (.error e, s')) : (p >>= f).FailsWith P s ↔ P s' :=
  failsWith_error (bind_error h)

theorem failsWith_require_bind {c : Prop} [Decidable c] {e : ε} {f : Unit → Command S ε β}
    (hs : P s) : (require c e >>= f).FailsWith P s ↔ (c → (f ()).FailsWith P s) := by
  by_cases hc : c
  · have hrun : (require c e : Command S ε Unit) s = (.ok (), s) := by rw [require_run, if_pos hc]
    rw [failsWith_bind_ok hrun]
    simp [hc]
  · have hrun : (require c e : Command S ε Unit) s = (.error e, s) := by
      rw [require_run, if_neg hc]
    rw [failsWith_bind_error hrun]
    simp [hc, hs]

theorem failsWith_attempt_bind {failure : Option ε} {f : Unit → Command S ε β} (hs : P s) :
    (attempt failure >>= f).FailsWith P s ↔ (failure = none → (f ()).FailsWith P s) := by
  cases failure with
  | none =>
    have hrun : (attempt none : Command S ε Unit) s = (.ok (), s) := rfl
    rw [failsWith_bind_ok hrun]
    simp
  | some e =>
    have hrun : (attempt (some e) : Command S ε Unit) s = (.error e, s) := rfl
    rw [failsWith_bind_error hrun]
    simp [hs]

end FailsWith

def Succeeds (p : Command S ε α) (s : S) : Prop := ∃ a s', p s = (.ok a, s')

theorem succeeds_of_ok {p : Command S ε α} {s s' : S} {a : α} (h : p s = (.ok a, s')) :
    p.Succeeds s := ⟨a, s', h⟩

theorem not_succeeds_of_error {p : Command S ε α} {s s' : S} {e : ε} (h : p s = (.error e, s')) :
    ¬p.Succeeds s := by
  rintro ⟨a, t, ha⟩
  rw [h] at ha
  cases ha

/-- Either a command succeeds or it fails. -/
theorem succeeds_or_error (p : Command S ε α) (s : S) :
    p.Succeeds s ∨ ∃ e, p s = (.error e, (p s).2) := by
  rcases h : p s with ⟨_ | a, s'⟩
  · exact .inr ⟨_, rfl⟩
  · exact .inl ⟨a, s', h⟩

@[simp] theorem succeeds_pure (a : α) (s : S) : (pure a : Command S ε α).Succeeds s := ⟨a, s, rfl⟩

@[simp] theorem succeeds_fail (e : ε) (s : S) : ¬(fail e : Command S ε α).Succeeds s :=
  not_succeeds_of_error rfl

theorem succeeds_bind_of_ok {p : Command S ε α} {f : α → Command S ε β} {s s' : S} {a : α}
    (h : p s = (.ok a, s')) : (p >>= f).Succeeds s ↔ (f a).Succeeds s' := by
  unfold Succeeds
  rw [bind_ok h]

theorem Succeeds.of_bind {p : Command S ε α} {f : α → Command S ε β} {s : S}
    (h : (p >>= f).Succeeds s) : p.Succeeds s := by
  rcases succeeds_or_error p s with hp | ⟨e, he⟩
  · exact hp
  · exact absurd h (not_succeeds_of_error (bind_error he))

@[simp] theorem succeeds_bind_pure (p : Command S ε α) (g : α → β) (s : S) :
    (p >>= fun a => pure (g a)).Succeeds s ↔ p.Succeeds s := by
  refine ⟨fun h => h.of_bind, fun ⟨a, s', h⟩ => ?_⟩
  rw [succeeds_bind_of_ok h]
  exact succeeds_pure _ s'

@[simp] theorem succeeds_modify (f : S → S) (s : S) : (modify f : Command S ε Unit).Succeeds s :=
  ⟨_, _, rfl⟩

@[simp] theorem succeeds_modify_bind (f : S → S) (g : Unit → Command S ε β) (s : S) :
    (modify f >>= g).Succeeds s ↔ (g ()).Succeeds (f s) :=
  succeeds_bind_of_ok rfl

@[simp] theorem succeeds_get_bind (f : S → Command S ε β) (s : S) :
    (get >>= f).Succeeds s ↔ (f s).Succeeds s :=
  succeeds_bind_of_ok rfl

@[simp] theorem succeeds_attempt_bind (failure : Option ε) (f : Unit → Command S ε β) (s : S) :
    (attempt failure >>= f).Succeeds s ↔ failure = none ∧ (f ()).Succeeds s := by
  cases failure with
  | none =>
    have hok : (attempt none : Command S ε Unit) s = (.ok (), s) := rfl
    simp [succeeds_bind_of_ok hok]
  | some e =>
    have hfail : ((attempt (some e) : Command S ε Unit) >>= f) s = (.error e, s) := rfl
    simpa using not_succeeds_of_error hfail

/-- A part of the state that the command leaves alone, whatever its outcome. -/
def Keeps {T : Type} (part : S → T) (p : Command S ε α) : Prop := ∀ s, part (p s).2 = part s

section Keeps
variable {part : S → T}

theorem Keeps.pure (a : α) : (Pure.pure a : Command S ε α).Keeps part := fun _ => rfl

theorem Keeps.fail (e : ε) : (fail e : Command S ε α).Keeps part := fun _ => rfl

theorem Keeps.get : (get : Command S ε S).Keeps part := fun _ => rfl

theorem Keeps.modify {f : S → S} (h : ∀ s, part (f s) = part s) :
    (modify f : Command S ε Unit).Keeps part := h

theorem Keeps.attempt (failure : Option ε) :
    (attempt failure : Command S ε Unit).Keeps part := by
  cases failure <;> exact fun _ => rfl

theorem Keeps.require (c : Prop) [Decidable c] (e : ε) :
    (require c e : Command S ε Unit).Keeps part := by
  unfold Command.require
  split <;> exact fun _ => rfl

theorem Keeps.ofExcept (x : Except ε α) : (ofExcept x : Command S ε α).Keeps part := by
  cases x <;> exact fun _ => rfl

theorem Keeps.bind {p : Command S ε α} {f : α → Command S ε β} (hp : p.Keeps part)
    (hf : ∀ a, (f a).Keeps part) : (p >>= f).Keeps part := by
  intro s
  rw [bind_run]
  have hs := hp s
  rcases hr : p s with ⟨_ | a, s'⟩ <;> rw [hr] at hs
  · exact hs
  · exact (hf a s').trans hs

theorem Keeps.after {f : α → Command S ε β} (hf : ∀ a, (f a).Keeps part) (p : Command S ε α)
    (s : S) : part ((p >>= f) s).2 = part (p s).2 := by
  rw [bind_run]
  rcases p s with ⟨_ | a, s'⟩
  · rfl
  · exact hf a s'

/-- A sequence either ends with its first command, or goes on from a state with
the same part. -/
theorem Keeps.bind_cases {p : Command S ε α} {f : α → Command S ε β} (hp : p.Keeps part)
    {s s' : S} {r : Except ε β} (h : (p >>= f) s = (r, s')) :
    (∃ e, r = .error e ∧ part s' = part s) ∨
      ∃ a t, p s = (.ok a, t) ∧ part t = part s ∧ f a t = (r, s') := by
  have hs := hp s
  rw [bind_run] at h
  rcases hr : p s with ⟨_ | a, t⟩ <;> rw [hr] at h hs
  · cases h
    exact .inl ⟨_, rfl, hs⟩
  · exact .inr ⟨a, t, rfl, hs, h⟩

theorem Keeps.of_bind_ok {p : Command S ε α} {f : α → Command S ε β} (hp : p.Keeps part)
    {s s' : S} {b : β} (h : (p >>= f) s = (.ok b, s')) :
    ∃ a t, p s = (.ok a, t) ∧ part t = part s ∧ f a t = (.ok b, s') := by
  rcases hp.bind_cases h with ⟨e, he, -⟩ | hgoes
  · cases he
  · exact hgoes

theorem require_bind_cases {c : Prop} [Decidable c] {e : ε} {f : Unit → Command S ε β} {s s' : S}
    {r : Except ε β} (h : (require c e >>= f) s = (r, s')) :
    (r = .error e ∧ s' = s) ∨ (c ∧ f () s = (r, s')) := by
  rw [bind_run, require_run] at h
  by_cases hc : c
  · rw [if_pos hc] at h
    exact .inr ⟨hc, h⟩
  · rw [if_neg hc] at h
    cases h
    exact .inl ⟨rfl, rfl⟩

/-- A step that may fail either ends a sequence, or the sequence goes on from the
same state. -/
theorem ofExcept_bind_cases {x : Except ε α} {f : α → Command S ε β} {s s' : S} {r : Except ε β}
    (h : (ofExcept x >>= f) s = (r, s')) :
    (∃ e, x = .error e ∧ r = .error e ∧ s' = s) ∨ ∃ a, x = .ok a ∧ f a s = (r, s') := by
  cases x with
  | error e =>
    cases h
    exact .inl ⟨e, rfl, rfl, rfl⟩
  | ok a => exact .inr ⟨a, rfl, h⟩

theorem attempt_bind_cases {failure : Option ε} {f : Unit → Command S ε β} {s s' : S}
    {r : Except ε β} (h : (attempt failure >>= f) s = (r, s')) :
    (∃ e, failure = some e ∧ r = .error e ∧ s' = s) ∨ (failure = none ∧ f () s = (r, s')) := by
  cases failure with
  | some e =>
    cases h
    exact .inl ⟨e, rfl, rfl, rfl⟩
  | none => exact .inr ⟨rfl, h⟩

theorem atomically_ok {p : Command S ε α} {s s' : S} {a : α} (h : p s = (.ok a, s')) :
    p.atomically s = (.ok a, s') := by
  rw [atomically, h]

theorem atomically_error {p : Command S ε α} {s s' : S} {e : ε} (h : p s = (.error e, s')) :
    p.atomically s = (.error e, s) := by
  rw [atomically, h]

theorem outcome_bind_run (p : Command S ε α) (f : Except ε α → Command S ε β) (s : S) :
    (p.outcome >>= f) s = f (p s).1 (p s).2 := rfl

/-- Where the condition is about that part alone, a failure keeps it only if it
held before. -/
theorem Keeps.failsWith {p : Command S ε α} (hp : p.Keeps part) {P : S → Prop}
    (hP : ∀ s s', part s = part s' → P s → P s') (s : S) :
    p.FailsWith P s ↔ p.Succeeds s ∨ P s := by
  rcases succeeds_or_error p s with h | ⟨e, he⟩
  · obtain ⟨a, s', ha⟩ := id h
    exact ⟨fun _ => .inl h, fun _ => failsWith_ok ha⟩
  · rw [failsWith_error he]
    refine ⟨fun h => .inr (hP _ _ (hp s) h), fun h => ?_⟩
    exact hP _ _ (hp s).symm (h.resolve_left (not_succeeds_of_error he))

end Keeps

theorem failsWith_bind_pure {P : S → Prop} (p : Command S ε α) (b : β) (s : S) :
    (p >>= fun _ => pure b).FailsWith P s ↔ p.FailsWith P s := by
  rcases succeeds_or_error p s with ⟨a, s', ha⟩ | ⟨e, he⟩
  · exact ⟨fun _ => failsWith_ok ha, fun _ => failsWith_ok (bind_ok ha)⟩
  · rw [failsWith_bind_error he, failsWith_error he]

theorem failsWith_bind_modify {P : S → Prop} (p : Command S ε α) (f : S → S) (s : S) :
    (p >>= fun _ => modify f).FailsWith P s ↔ p.FailsWith P s := by
  rcases succeeds_or_error p s with ⟨a, s', ha⟩ | ⟨e, he⟩
  · exact ⟨fun _ => failsWith_ok ha, fun _ => failsWith_ok (bind_ok ha)⟩
  · rw [failsWith_bind_error he, failsWith_error he]

theorem bind_assoc {γ : Type} (p : Command S ε α) (f : α → Command S ε β) (g : β → Command S ε γ) :
    (p >>= f) >>= g = p >>= fun a => f a >>= g := by
  funext s
  simp only [bind_run]
  rcases p s with ⟨_ | a, s'⟩ <;> rfl

end Command

end Cinder.Programs
