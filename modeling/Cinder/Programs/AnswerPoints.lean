import Cinder.Programs.RequestPool
set_option autoImplicit false

/-!
Where in its run a request is answered. A request may be refused only before it
has changed anything, or give its answer only with a certain write.
-/

namespace Cinder.Programs

variable {ι R S L ε α β : Type}

namespace Program

/-- No branch of the program ends with `e`. -/
def NeverFails (e : ε) : Program S L ε α → Prop
  | .ret _ => True
  | .fail e' => e' ≠ e
  | .read k => ∀ s, (k s).NeverFails e
  | .write _ k => ∀ s, (k s).NeverFails e

/-- After a write with `c` no branch of the program ends with `e`. -/
def FailsBefore (c : L → Prop) (e : ε) : Program S L ε α → Prop
  | .ret _ => True
  | .fail _ => True
  | .read k => ∀ s, (k s).FailsBefore c e
  | .write l k => ∀ s, (k s).FailsBefore c e ∧ (c l → (k s).NeverFails e)

variable {c : L → Prop} {e : ε}

theorem NeverFails.failsBefore {p : Program S L ε α} (h : p.NeverFails e) :
    p.FailsBefore c e := by
  induction p with
  | ret a => trivial
  | fail e' => trivial
  | read k ih => exact fun s => ih s (h s)
  | write l k ih => exact fun s => ⟨ih s (h s), fun _ => h s⟩

/-- A prefix that makes no write with `c` may fail as it likes. -/
theorem FailsBefore.bind {p : Program S L ε α} {f : α → Program S L ε β}
    (hp : p.WritesOnly fun l => ¬c l) (hf : ∀ a, (f a).FailsBefore c e) :
    (p >>= f).FailsBefore c e := by
  induction p with
  | ret a => exact hf a
  | fail e' => trivial
  | read k ih => exact fun s => ih s (hp s)
  | write l k ih => exact fun s => ⟨ih s (hp.2 s), fun hc => absurd hc hp.1⟩

variable [Engine S L ε]

theorem failsBefore_advance {p : Program S L ε α} (i : ι) (w : World ι S L)
    (h : p.FailsBefore c e) : (p.advance i w).2.FailsBefore c e := by
  cases p with
  | ret a => trivial
  | fail e' => trivial
  | read k => exact h w.state
  | write l k =>
    rw [advance]
    split
    · exact (h w.state).1
    · trivial

end Program

section Runs
variable [Engine S L ε] {c : L → Prop} {e : ε}

/-- Every event has a process, and a process that can still end with `e` has
made no write with `c`. -/
def CleanSoFar (c : L → Prop) (e : ε) (pool : Pool ι R S L ε α) : Prop :=
  (∀ ev ∈ pool.world.history, (pool.procs ev.proc).isSome = true) ∧
    ∀ i r p, pool.procs i = some (r, p) → p.FailsBefore c e ∧
      (p.NeverFails e ∨ ∀ ev ∈ pool.world.history, ev.proc = i → ¬c ev.label)

/-- One step of a process keeps its own half of `CleanSoFar`. -/
theorem clean_advance (herr : ∀ (l : L) (s : S), Engine.run l s ≠ .error e) {i : ι}
    {w : World ι S L} {p : Program S L ε α} (hb : p.FailsBefore c e)
    (h : p.NeverFails e ∨ ∀ ev ∈ w.history, ev.proc = i → ¬c ev.label) :
    (p.advance i w).2.NeverFails e ∨
      ∀ ev ∈ (p.advance i w).1.history, ev.proc = i → ¬c ev.label := by
  cases p with
  | ret a => exact .inl trivial
  | fail e' => exact h
  | read k => exact h.imp (fun hn => hn w.state) id
  | write l k =>
    rw [Program.advance]
    cases hr : (Engine.run l w.state : Except ε S) with
    | error e' => exact .inl fun he => herr l w.state (by rw [hr, he])
    | ok s =>
      by_cases hc : c l
      · exact .inl ((hb w.state).2 hc)
      · refine h.imp (fun hn => hn w.state) fun hev ev hm hi => ?_
        rcases List.mem_cons.mp hm with rfl | hm
        · exact hc
        · exact hev ev hm hi

theorem history_advance {i : ι} {w : World ι S L} {p : Program S L ε α} {ev : Event ι S L}
    (h : ev ∈ (p.advance i w).1.history) : ev.proc = i ∨ ev ∈ w.history := by
  cases p with
  | ret a => exact .inr h
  | fail e => exact .inr h
  | read k => exact .inr h
  | write l k =>
    rw [Program.advance] at h
    split at h
    · rcases List.mem_cons.mp h with rfl | h
      · exact .inl rfl
      · exact .inr h
    · exact .inr h

theorem history_advance_of_ne {i j : ι} {w : World ι S L} {p : Program S L ε α}
    (hne : j ≠ i) (h : ∀ ev ∈ w.history, ev.proc = j → ¬c ev.label) :
    ∀ ev ∈ (p.advance i w).1.history, ev.proc = j → ¬c ev.label := by
  intro ev hm hj
  rcases history_advance hm with hi | hm
  · exact absurd (hj.symm.trans hi) hne
  · exact h ev hm hj

variable [DecidableEq ι] {handle : R → Program S L ε α}

theorem cleanSoFar_move (herr : ∀ (l : L) (s : S), Engine.run l s ≠ .error e)
    (h : ∀ r, (handle r).FailsBefore c e) {pool : Pool ι R S L ε α} (hp : CleanSoFar c e pool)
    (m : Move ι R) : CleanSoFar c e (pool.move handle m) := by
  obtain ⟨hev, hps⟩ := hp
  cases m with
  | start i r =>
    cases hi : pool.procs i with
    | some q => simpa [Pool.move, hi] using ⟨hev, hps⟩
    | none =>
      simp only [Pool.move, hi]
      refine ⟨fun ev hm => ?_, fun j r' p hj => ?_⟩
      · by_cases hji : ev.proc = i
        · simp [hji]
        · simp only [Function.update_of_ne hji]
          exact hev ev hm
      · by_cases hji : j = i
        · subst hji
          simp only [Function.update_self, Option.some.injEq, Prod.mk.injEq] at hj
          obtain ⟨rfl, rfl⟩ := hj
          refine ⟨h _, .inr fun ev hm hproc => ?_⟩
          have hsome := hev ev hm
          simp [hproc, hi] at hsome
        · simp only [Function.update_of_ne hji] at hj
          exact hps j r' p hj
  | advance i =>
    cases hi : pool.procs i with
    | none => simpa [Pool.move, hi] using ⟨hev, hps⟩
    | some q =>
      obtain ⟨r, p⟩ := q
      obtain ⟨hb, hq⟩ := hps i r p hi
      simp only [Pool.move, hi]
      refine ⟨fun ev hm => ?_, fun j r' p' hj => ?_⟩
      · by_cases hji : ev.proc = i
        · simp [hji]
        · simp only [Function.update_of_ne hji]
          exact (history_advance hm).elim (absurd · hji) (hev ev)
      · by_cases hji : j = i
        · subst hji
          simp only [Function.update_self, Option.some.injEq, Prod.mk.injEq] at hj
          obtain ⟨rfl, rfl⟩ := hj
          exact ⟨Program.failsBefore_advance _ _ hb, clean_advance herr hb hq⟩
        · simp only [Function.update_of_ne hji] at hj
          obtain ⟨hb', hq'⟩ := hps j r' p' hj
          exact ⟨hb', hq'.imp id fun hclean => history_advance_of_ne hji hclean⟩

theorem cleanSoFar_run (herr : ∀ (l : L) (s : S), Engine.run l s ≠ .error e)
    (h : ∀ r, (handle r).FailsBefore c e) {pool : Pool ι R S L ε α} (hp : CleanSoFar c e pool)
    (ms : List (Move ι R)) : CleanSoFar c e (pool.run handle ms) := by
  induction ms generalizing pool with
  | nil => exact hp
  | cons m ms ih => exact ih (cleanSoFar_move herr h hp m)

/-- A process that ended with `e` made no write with `c`. -/
theorem Pool.clean_failure (herr : ∀ (l : L) (s : S), Engine.run l s ≠ .error e)
    (h : ∀ r, (handle r).FailsBefore c e) (s : S) (ms : List (Move ι R)) {i : ι} {r : R}
    (hi : ((Pool.idle s : Pool ι R S L ε α).run handle ms).procs i = some (r, .fail e)) :
    ∀ ev ∈ ((Pool.idle s : Pool ι R S L ε α).run handle ms).world.history,
      ev.proc = i → ¬c ev.label := by
  have hidle : CleanSoFar c e (Pool.idle s : Pool ι R S L ε α) :=
    ⟨fun ev hm => (List.not_mem_nil hm).elim, fun i r p hp => by cases hp⟩
  exact ((cleanSoFar_run herr h hidle ms).2 i r _ hi).2.elim (fun hn => (hn rfl).elim) id

end Runs

section Answers

namespace Program

/-- An answer with `A` is given by the write with `c` just before it. -/
def AnswersOn (c : L → Prop) (A : α → Prop) : Program S L ε α → Prop
  | .ret a => ¬A a
  | .fail _ => True
  | .read k => ∀ s, (k s).AnswersOn c A
  | .write l k => ∀ s, (k s).AnswersOn c A ∨ c l ∧ ∃ a, k s = .ret a

variable {c : L → Prop} {A : β → Prop}

theorem AnswersOn.bind (p : Program S L ε α) {f : α → Program S L ε β}
    (hf : ∀ a, (f a).AnswersOn c A) : (p >>= f).AnswersOn c A := by
  induction p with
  | ret a => exact hf a
  | fail e => trivial
  | read k ih => exact fun s => ih s
  | write l k ih => exact fun s => .inl (ih s)

theorem AnswersOn.within {T L' : Type} {view : T → S} {f : L → L'} {c' : L' → Prop}
    {B : α → Prop} {g : α → β} {p : Program S L ε α} (hp : p.AnswersOn c B)
    (hc : ∀ l, c l → c' (f l)) (hA : ∀ a, A (g a) → B a) :
    (p.within view f >>= fun a => pure (g a)).AnswersOn c' A := by
  induction p with
  | ret a => exact fun ha => hp (hA a ha)
  | fail e => trivial
  | read k ih => exact fun t => ih (view t) (hp (view t))
  | write l k ih =>
    intro t
    rcases hp (view t) with hk | ⟨hl, a, ha⟩
    · exact .inl (ih (view t) hk)
    · refine .inr ⟨hc l hl, g a, ?_⟩
      simp only [ha]
      rfl

end Program

variable [Engine S L ε] {c : L → Prop} {A : α → Prop}

/-- One step of a program that answers on `c`: it still does, or it has its
answer, by a write with `c`. -/
theorem answersOn_advance {i : ι} {w : World ι S L} {p : Program S L ε α}
    (h : p.AnswersOn c A) : (p.advance i w).2.AnswersOn c A ∨
      ∃ l k, p = .write l k ∧ c l ∧ (∃ a, (p.advance i w).2 = .ret a) ∧
        World.Wrote i l w (p.advance i w).1 := by
  cases p with
  | ret a => exact .inl h
  | fail e => exact .inl trivial
  | read k => exact .inl (h w.state)
  | write l k =>
    cases hr : (Engine.run l w.state : Except ε S) with
    | error e =>
      simp only [Program.advance, hr]
      exact .inl trivial
    | ok s =>
      simp only [Program.advance, hr]
      exact (h w.state).imp id fun hl => ⟨l, k, rfl, hl.1, hl.2, hr, rfl⟩

variable [DecidableEq ι] {handle : R → Program S L ε α}

/-- Every process still answers on `c`, or has its answer. -/
theorem answersOn_move (h : ∀ r, (handle r).AnswersOn c A) {pool : Pool ι R S L ε α}
    (hp : ∀ i r p, pool.procs i = some (r, p) → p.AnswersOn c A ∨ ∃ a, p = .ret a)
    (m : Move ι R) : ∀ i r p, (pool.move handle m).procs i = some (r, p) →
      p.AnswersOn c A ∨ ∃ a, p = .ret a := by
  intro j r p hj
  cases m with
  | start i r' =>
    cases hi : pool.procs i with
    | some q => exact hp j r p (by simpa [Pool.move, hi] using hj)
    | none =>
      by_cases hji : j = i
      · subst hji
        simp only [Pool.move, hi, Function.update_self, Option.some.injEq, Prod.mk.injEq] at hj
        obtain ⟨rfl, rfl⟩ := hj
        exact .inl (h _)
      · simp only [Pool.move, hi, Function.update_of_ne hji] at hj
        exact hp j r p hj
  | advance i =>
    cases hi : pool.procs i with
    | none => exact hp j r p (by simpa [Pool.move, hi] using hj)
    | some q =>
      obtain ⟨r', p'⟩ := q
      by_cases hji : j = i
      · subst hji
        simp only [Pool.move, hi, Function.update_self, Option.some.injEq, Prod.mk.injEq] at hj
        obtain ⟨rfl, rfl⟩ := hj
        rcases hp j _ p' hi with hans | ⟨a, rfl⟩
        · rcases answersOn_advance hans with hans' | ⟨_, _, _, _, ha, _⟩
          · exact .inl hans'
          · exact .inr ha
        · exact .inr ⟨a, rfl⟩
      · simp only [Pool.move, hi, Function.update_of_ne hji] at hj
        exact hp j r p hj

theorem answersOn_run (h : ∀ r, (handle r).AnswersOn c A) {pool : Pool ι R S L ε α}
    (hp : ∀ i r p, pool.procs i = some (r, p) → p.AnswersOn c A ∨ ∃ a, p = .ret a)
    (ms : List (Move ι R)) : ∀ i r p, (pool.run handle ms).procs i = some (r, p) →
      p.AnswersOn c A ∨ ∃ a, p = .ret a := by
  induction ms generalizing pool with
  | nil => exact hp
  | cons m ms ih => exact ih (answersOn_move h hp m)

/-- The move with which a process gets an answer with `A` is its write with `c`. -/
theorem Pool.answer_move (h : ∀ r, (handle r).AnswersOn c A) (s : S) (ms : List (Move ι R))
    {m : Move ι R} {i : ι} {r : R} {p : Program S L ε α} {a : α}
    (hi : ((Pool.idle s).run handle ms).procs i = some (r, p)) (hp : p ≠ .ret a)
    (hi' : (((Pool.idle s).run handle ms).move handle m).procs i = some (r, .ret a))
    (ha : A a) : ∃ l k, m = .advance i ∧ p = .write l k ∧ c l ∧
      World.Wrote i l ((Pool.idle s).run handle ms).world
        (((Pool.idle s).run handle ms).move handle m).world := by
  have hidle : ∀ i r p, (Pool.idle s : Pool ι R S L ε α).procs i = some (r, p) →
      p.AnswersOn c A ∨ ∃ a, p = .ret a := fun i r p hi => by cases hi
  have hon := answersOn_run h hidle ms i r p hi
  generalize (Pool.idle s : Pool ι R S L ε α).run handle ms = pool at *
  cases m with
  | start j r' =>
    refine absurd ?_ hp
    cases hj : pool.procs j with
    | some q => simpa [Pool.move, hj, hi] using hi'
    | none =>
      have hij : i ≠ j := fun hij => by simp [← hij, hi] at hj
      simpa [Pool.move, hj, Function.update_of_ne hij, hi] using hi'
  | advance j =>
    by_cases hij : i = j
    · subst hij
      simp only [Pool.move, hi, Function.update_self, Option.some.injEq, Prod.mk.injEq,
        true_and] at hi' ⊢
      rcases hon with hon | ⟨b, rfl⟩
      · rcases answersOn_advance hon with hnext | ⟨l, k, hl, hc, -, hw⟩
        · rw [hi'] at hnext
          exact absurd ha hnext
        · exact ⟨l, k, hl, hc, hw⟩
      · exact absurd hi' hp
    · refine absurd ?_ hp
      cases hj : pool.procs j with
      | none => simpa [Pool.move, hj, hi] using hi'
      | some q => simpa [Pool.move, hj, Function.update_of_ne hij, hi] using hi'

end Answers

end Cinder.Programs
