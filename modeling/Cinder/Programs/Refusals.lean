import Cinder.Programs.StepProgram
set_option autoImplicit false

/-!
Programs that check before they write. A program is refused unless `c` if,
without `c`, it ends in an error and leaves the state as it was.
-/

namespace Cinder.Programs.Program

variable {S L ε α β : Type} [Engine S L ε]

def RefusedUnless (c : Prop) (p : Program S L ε α) (s : S) : Prop :=
  c ∨ ∃ e, p.exec s = (.error e, s)

def Succeeds (p : Program S L ε α) (s : S) : Prop := ∃ a s', p.exec s = (.ok a, s')

variable {c : Prop} {s s' : S}

section Rules
variable {f : α → Program S L ε β}

theorem refusedUnless_of {p : Program S L ε α} (hc : c) : p.RefusedUnless c s := .inl hc

theorem refusedUnless_fail (e : ε) : (fail e : Program S L ε α).RefusedUnless c s :=
  .inr ⟨e, rfl⟩

theorem RefusedUnless.imp {d : Prop} {p : Program S L ε α} (hp : p.RefusedUnless c s)
    (h : c → d) : p.RefusedUnless d s := Or.imp_left h hp

theorem refusedUnless_bind {p : Program S L ε α} (hp : p.ReadOnly)
    (hf : ∀ a, p.exec s = (.ok a, s) → (f a).RefusedUnless c s) :
    (p >>= f).RefusedUnless c s := by
  have hs := exec_readOnly hp s
  unfold RefusedUnless
  rw [exec_bind]
  rcases hx : p.exec s with ⟨r, t⟩
  rw [hx] at hs
  subst hs
  cases r with
  | ok a => exact hf a hx
  | error e => exact .inr ⟨e, rfl⟩

theorem refusedUnless_query_bind {q : S → α} (hf : (f (q s)).RefusedUnless c s) :
    (query q >>= f).RefusedUnless c s := hf

theorem refusedUnless_queryRow_bind {q : S → Option α} {e : ε}
    (hf : ∀ a, q s = some a → (f a).RefusedUnless c s) :
    (queryRow q e >>= f).RefusedUnless c s :=
  refusedUnless_bind (readOnly_queryRow _ _) fun a ha => hf a (exec_queryRow_ok ha).1

theorem refusedUnless_require_bind {d : Prop} [Decidable d] {e : ε} {g : Unit → Program S L ε β}
    (hg : d → (g ()).RefusedUnless c s) : (require d e >>= g).RefusedUnless c s :=
  refusedUnless_bind (readOnly_require _ _) fun _ hd => hg (exec_require_ok hd).1

theorem refusedUnless_executeReturning_bind {l : L} {q : S → α}
    (hl : Engine.run l s = (.ok s : Except ε S)) (hf : (f (q s)).RefusedUnless c s) :
    (executeReturning l q >>= f).RefusedUnless c s := by
  have hexec : (executeReturning l q).exec s = (.ok (q s), s) := exec_write_ok _ hl
  unfold RefusedUnless
  rw [exec_bind_ok _ hexec]
  exact hf

theorem refusedUnless_execute_bind {l : L} {g : Unit → Program S L ε β}
    (hl : ∀ s', Engine.run l s = (.ok s' : Except ε S) → c) :
    (execute l >>= g).RefusedUnless c s := by
  cases hrun : (Engine.run l s : Except ε S) with
  | ok s' => exact .inl (hl s' hrun)
  | error e =>
    refine .inr ⟨e, ?_⟩
    rw [exec_bind, show (execute l : Program S L ε Unit).exec s = (.error e, s) from by
      rw [execute, exec_write, hrun]]

theorem refusedUnless_require {d : Prop} [Decidable d] {e : ε} (h : d → c) :
    (require d e : Program S L ε Unit).RefusedUnless c s := by
  by_cases hd : d
  · exact .inl (h hd)
  · exact .inr ⟨e, by rw [exec_require, if_neg hd]⟩

theorem succeeds_bind {p : Program S L ε α} {a : α} (hp : p.exec s = (.ok a, s'))
    (hf : (f a).Succeeds s') : (p >>= f).Succeeds s := by
  unfold Succeeds
  rw [exec_bind_ok _ hp]
  exact hf

theorem succeeds_require_bind {d : Prop} [Decidable d] {e : ε} {g : Unit → Program S L ε β}
    (hd : d) (hg : (g ()).Succeeds s) : (require d e >>= g).Succeeds s :=
  succeeds_bind (by rw [exec_require, if_pos hd]) hg

theorem succeeds_queryRow_bind {q : S → Option α} {e : ε} {a : α} (hq : q s = some a)
    (hf : (f a).Succeeds s) : (queryRow q e >>= f).Succeeds s :=
  succeeds_bind (by rw [exec_queryRow, hq]) hf

theorem succeeds_query_bind {q : S → α} (hf : (f (q s)).Succeeds s) :
    (query q >>= f).Succeeds s := hf

theorem succeeds_execute_bind {l : L} {g : Unit → Program S L ε β}
    (hl : Engine.run l s = (.ok s' : Except ε S)) (hg : (g ()).Succeeds s') :
    (execute l >>= g).Succeeds s :=
  succeeds_bind ((exec_write_ok _ hl).trans rfl) hg

theorem succeeds_executeReturning_bind {l : L} {q : S → α}
    (hl : Engine.run l s = (.ok s' : Except ε S)) (hf : (f (q s)).Succeeds s') :
    (executeReturning l q >>= f).Succeeds s :=
  succeeds_bind ((exec_write_ok _ hl).trans rfl) hf

@[simp] theorem succeeds_ret (a : α) : (ret a : Program S L ε α).Succeeds s := ⟨a, s, rfl⟩

@[simp] theorem not_succeeds_fail (e : ε) : ¬(fail e : Program S L ε α).Succeeds s := by
  rintro ⟨a, s', h⟩
  cases h

@[simp] theorem succeeds_require {d : Prop} [Decidable d] {e : ε} :
    (require d e : Program S L ε Unit).Succeeds s ↔ d := by
  unfold require
  split <;> simp [*]

theorem succeeds_read {k : S → Program S L ε α} : (read k).Succeeds s ↔ (k s).Succeeds s := Iff.rfl

@[simp] theorem succeeds_query_bind_iff {q : S → α} :
    (query q >>= f).Succeeds s ↔ (f (q s)).Succeeds s := Iff.rfl

@[simp] theorem succeeds_queryRow_bind_iff {q : S → Option α} {e : ε} :
    (queryRow q e >>= f).Succeeds s ↔ ∃ a, q s = some a ∧ (f a).Succeeds s := by
  simp only [queryRow, read_bind, succeeds_read]
  cases q s <;> simp

@[simp] theorem succeeds_require_bind_iff {d : Prop} [Decidable d] {e : ε}
    {g : Unit → Program S L ε β} :
    (require d e >>= g).Succeeds s ↔ d ∧ (g ()).Succeeds s := by
  unfold require
  split <;> simp [*]

theorem succeeds_readOnly_bind_iff {p : Program S L ε Unit} {g : Unit → Program S L ε β}
    (hp : p.ReadOnly) : (p >>= g).Succeeds s ↔ p.Succeeds s ∧ (g ()).Succeeds s := by
  constructor
  · rintro ⟨a, s', h⟩
    obtain ⟨u, t, hu, hg⟩ := exec_bind_eq_ok h
    obtain rfl : t = s := by rw [← exec_readOnly hp s, hu]
    exact ⟨⟨u, t, hu⟩, a, s', hg⟩
  · rintro ⟨⟨u, t, hu⟩, hg⟩
    obtain rfl : t = s := by rw [← exec_readOnly hp s, hu]
    exact succeeds_bind hu hg

end Rules

/-- Where the checks `g` are all that the program asks, it lets through without
`c` exactly what passes them without `c`. -/
theorem refusedUnless_iff {g : Prop} {p : Program S L ε α} (hrefused : p.RefusedUnless g s)
    (hpass : g → p.Succeeds s) : p.RefusedUnless c s ↔ ¬(g ∧ ¬c) := by
  rw [not_and_not_right]
  constructor
  · rintro (hc | ⟨e, he⟩) hg
    · exact hc
    · obtain ⟨a, s', ha⟩ := hpass hg
      rw [he] at ha
      cases ha
  · exact hrefused.imp

theorem not_refusedUnless {p : Program S L ε α} (hc : ¬c) (hok : (p.exec s).1.isOk = true) :
    ¬p.RefusedUnless c s := by
  rintro (h | ⟨e, he⟩)
  · exact hc h
  · rw [he] at hok
    cases hok

section Relabel
variable {L' : Type} [Engine S L' ε] {h : L → L'}

theorem refusedUnless_relabel_iff
    (hrun : ∀ l s, (Engine.run (h l) s : Except ε S) = Engine.run l s) {p : Program S L ε α} :
    ((p >>= fun _ => pure ()).relabel h).RefusedUnless c s ↔ p.RefusedUnless c s := by
  unfold RefusedUnless
  rw [exec_relabel hrun, exec_bind]
  rcases p.exec s with ⟨r, t⟩
  cases r <;> simp

end Relabel

end Cinder.Programs.Program
