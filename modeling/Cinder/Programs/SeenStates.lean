import Cinder.Programs.RequestPool
import Mathlib.Data.List.Induction
set_option autoImplicit false

/-!
What a request has seen: the states it was let on in, one for each statement. Its
answer says of these states what the program has checked in them.
-/

namespace Cinder.Programs

variable {ι R S T L L' ε α β : Type}

namespace Program

/-- The program answers `a` after statements in the states `seen`. A write sees the
state it is executed on. -/
inductive Answers : Program S L ε α → List S → α → Prop where
  | ret (a : α) : Answers (.ret a) [] a
  | read {k : S → Program S L ε α} {s : S} {seen : List S} {a : α} (h : Answers (k s) seen a) :
      Answers (.read k) (s :: seen) a
  | write {l : L} {k : S → Program S L ε α} {s : S} {seen : List S} {a : α}
      (h : Answers (k s) seen a) : Answers (.write l k) (s :: seen) a

theorem Answers.of_bind {p : Program S L ε α} {f : α → Program S L ε β} {seen : List S} {b : β}
    (h : (p >>= f).Answers seen b) :
    ∃ a first rest, p.Answers first a ∧ (f a).Answers rest b ∧ seen = first ++ rest := by
  induction p generalizing seen with
  | ret a => exact ⟨a, [], seen, .ret a, h, rfl⟩
  | fail e => cases h
  | read k ih =>
    cases h with
    | @read _ s seen _ h =>
      obtain ⟨a, first, rest, hp, hf, rfl⟩ := ih s h
      exact ⟨a, s :: first, rest, .read hp, hf, rfl⟩
  | write l k ih =>
    cases h with
    | @write _ _ s seen _ h =>
      obtain ⟨a, first, rest, hp, hf, rfl⟩ := ih s h
      exact ⟨a, s :: first, rest, .write hp, hf, rfl⟩

theorem Answers.of_queryRow {q : S → Option α} {e : ε} {seen : List S} {a : α}
    (h : (queryRow q e : Program S L ε α).Answers seen a) : ∃ s, seen = [s] ∧ q s = some a := by
  cases h with
  | @read _ s seen _ h =>
    cases hq : q s with
    | none =>
      simp only [hq] at h
      cases h
    | some a' =>
      simp only [hq] at h
      cases h
      exact ⟨s, rfl, hq⟩

theorem Answers.of_require {c : Prop} [Decidable c] {e : ε} {seen : List S} {u : Unit}
    (h : (require c e : Program S L ε Unit).Answers seen u) : c ∧ seen = [] := by
  unfold require at h
  split at h
  · next hc =>
    cases h
    exact ⟨hc, rfl⟩
  · cases h

theorem Answers.of_ofExcept {r : Except ε α} {seen : List S} {a : α}
    (h : (ofExcept r : Program S L ε α).Answers seen a) : r = .ok a ∧ seen = [] := by
  cases r with
  | error e => cases h
  | ok b =>
    cases h
    exact ⟨rfl, rfl⟩

theorem Answers.of_executeReturning {l : L} {q : S → α} {seen : List S} {a : α}
    (h : (executeReturning l q : Program S L ε α).Answers seen a) :
    ∃ s, seen = [s] ∧ q s = a := by
  cases h with
  | @write _ _ s _ _ h =>
    cases h
    exact ⟨s, rfl, rfl⟩

theorem Answers.of_require_bind {c : Prop} [Decidable c] {e : ε} {f : Unit → Program S L ε α}
    {seen : List S} {a : α} (h : (require c e >>= f).Answers seen a) :
    c ∧ (f ()).Answers seen a := by
  obtain ⟨_, first, rest, hrequire, hf, rfl⟩ := h.of_bind
  obtain ⟨hc, rfl⟩ := hrequire.of_require
  exact ⟨hc, hf⟩

theorem Answers.of_queryRow_bind {q : S → Option α} {e : ε} {f : α → Program S L ε β}
    {seen : List S} {b : β} (h : (queryRow q e >>= f).Answers seen b) :
    ∃ s a rest, q s = some a ∧ (f a).Answers rest b ∧ seen = s :: rest := by
  obtain ⟨a, first, rest, hrow, hf, rfl⟩ := h.of_bind
  obtain ⟨s, rfl, hq⟩ := hrow.of_queryRow
  exact ⟨s, a, rest, hq, hf, rfl⟩

theorem Answers.of_within {view : T → S} {f : L → L'} {p : Program S L ε α} {seen : List T} {a : α}
    (h : (p.within view f).Answers seen a) : p.Answers (seen.map view) a := by
  induction p generalizing seen with
  | ret a =>
    cases h
    exact .ret a
  | fail e => cases h
  | read k ih =>
    cases h with
    | read h => exact .read (ih _ h)
  | write l k ih =>
    cases h with
    | write h => exact .write (ih _ h)

end Program

section Pools
variable [Engine S L ε] [DecidableEq ι] {handle : R → Program S L ε α}

/-- In the run the process `i` is let on in the state `s`. -/
def Pool.LetsOn (handle : R → Program S L ε α) (c : Pool ι R S L ε α) (ms : List (Move ι R))
    (i : ι) (s : S) : Prop :=
  ∃ ns, ns ++ [.advance i] <+: ms ∧ (c.run handle ns).world.state = s

theorem Pool.LetsOn.append {c : Pool ι R S L ε α} {ms : List (Move ι R)} {i : ι} {s : S}
    (h : c.LetsOn handle ms i s) (later : List (Move ι R)) :
    c.LetsOn handle (ms ++ later) i s := by
  obtain ⟨ns, hns, hs⟩ := h
  exact ⟨ns, hns.trans (List.prefix_append ms later), hs⟩

theorem Pool.seen_run {c : Pool ι R S L ε α} {i : ι} (hi : c.procs i = none)
    {ms : List (Move ι R)} {r : R} {p : Program S L ε α}
    (h : (c.run handle ms).procs i = some (r, p)) :
    ∃ seen, (∀ s ∈ seen, c.LetsOn handle ms i s) ∧
      ∀ rest a, p.Answers rest a → (handle r).Answers (seen ++ rest) a := by
  induction ms using List.reverseRecOn generalizing p with
  | nil =>
    rw [Pool.run, List.foldl_nil, hi] at h
    cases h
  | append_singleton ms m ih =>
    have hmove : (c.run handle (ms ++ [m])) = (c.run handle ms).move handle m := by
      rw [Pool.run_append]
      rfl
    rw [hmove] at h
    have hsame : (c.run handle ms).procs i = some (r, p) → ∃ seen,
        (∀ s ∈ seen, c.LetsOn handle (ms ++ [m]) i s) ∧
          ∀ rest a, p.Answers rest a → (handle r).Answers (seen ++ rest) a := fun hbefore => by
      obtain ⟨seen, hseen, hanswers⟩ := ih hbefore
      exact ⟨seen, fun s hs => (hseen s hs).append [m], hanswers⟩
    cases m with
    | start j r' =>
      cases hj : (c.run handle ms).procs j with
      | some q => exact hsame (by simpa only [Pool.move, hj] using h)
      | none =>
        simp only [Pool.move, hj] at h
        by_cases hij : i = j
        · subst hij
          rw [Function.update_self] at h
          cases h
          exact ⟨[], fun s hs => (by cases hs), fun rest a ha => ha⟩
        · rw [Function.update_of_ne hij] at h
          exact hsame h
    | advance j =>
      cases hj : (c.run handle ms).procs j with
      | none => exact hsame (by simpa only [Pool.move, hj] using h)
      | some q =>
        obtain ⟨r', p'⟩ := q
        simp only [Pool.move, hj] at h
        by_cases hij : i = j
        · subst hij
          rw [Function.update_self] at h
          cases h
          obtain ⟨seen, hseen, hanswers⟩ := ih hj
          have hstep : c.LetsOn handle (ms ++ [.advance i]) i (c.run handle ms).world.state :=
            ⟨ms, List.prefix_refl _, rfl⟩
          have hold : ∀ s ∈ seen, c.LetsOn handle (ms ++ [.advance i]) i s :=
            fun s hs => (hseen s hs).append _
          have hnew : ∀ s ∈ seen ++ [(c.run handle ms).world.state],
              c.LetsOn handle (ms ++ [.advance i]) i s := fun s hs => by
            rcases List.mem_append.mp hs with hs | hs
            · exact hold s hs
            · exact List.mem_singleton.mp hs ▸ hstep
          cases p' with
          | ret a => exact ⟨seen, hold, hanswers⟩
          | fail e => exact ⟨seen, hold, hanswers⟩
          | read k =>
            refine ⟨_, hnew, fun rest a ha => ?_⟩
            rw [List.append_assoc]
            exact hanswers _ a (.read ha)
          | write l k =>
            cases hrun : (Engine.run l (c.run handle ms).world.state : Except ε S) with
            | error e =>
              refine ⟨seen, hold, fun rest a ha => ?_⟩
              simp only [Program.advance, hrun] at ha
              cases ha
            | ok s =>
              refine ⟨_, hnew, fun rest a ha => ?_⟩
              simp only [Program.advance, hrun] at ha
              rw [List.append_assoc]
              exact hanswers _ a (.write ha)
        · rw [Function.update_of_ne hij] at h
          exact hsame h

theorem Pool.answered_run {c : Pool ι R S L ε α} {i : ι} (hi : c.procs i = none)
    {ms : List (Move ι R)} {r : R} {a : α}
    (h : (c.run handle ms).procs i = some (r, .ret a)) :
    ∃ seen, (handle r).Answers seen a ∧ ∀ s ∈ seen, c.LetsOn handle ms i s := by
  obtain ⟨seen, hseen, hanswers⟩ := Pool.seen_run hi h
  exact ⟨seen, by simpa using hanswers [] a (.ret a), hseen⟩

end Pools

end Cinder.Programs
