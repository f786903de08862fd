import Cinder.Programs.RequestPool
set_option autoImplicit false

/-!
Requests handled one at a time, and two such runs compared. A serial run is the
special case of a pool in which a request is started only when the one before
it has answered.
-/

namespace Cinder.Programs

variable {ι R S L ε α β γ δ : Type}

section Serial
variable [Engine S L ε]

/-- The answers in order, and the state after the last request. -/
def serial (handle : R → Program S L ε α) : List R → S → List (Except ε α) × S
  | [], s => ([], s)
  | r :: rs, s =>
    let (a, s') := (handle r).exec s
    let (as, s'') := serial handle rs s'
    (a :: as, s'')

@[simp] theorem serial_nil (handle : R → Program S L ε α) (s : S) :
    serial handle [] s = ([], s) := rfl

@[simp] theorem serial_cons (handle : R → Program S L ε α) (r : R) (rs : List R) (s : S) :
    serial handle (r :: rs) s =
      (((handle r).exec s).1 :: (serial handle rs ((handle r).exec s).2).1,
        (serial handle rs ((handle r).exec s).2).2) := rfl

/-- Each request satisfies `ok` in the state it is handled in. -/
def SerialMeets (handle : R → Program S L ε α) (ok : R → S → Prop) : List R → S → Prop
  | [], _ => True
  | r :: rs, s => ok r s ∧ SerialMeets handle ok rs ((handle r).exec s).2

instance decidableSerialMeets (handle : R → Program S L ε α) (ok : R → S → Prop)
    [∀ r s, Decidable (ok r s)] : (rs : List R) → (s : S) → Decidable (SerialMeets handle ok rs s)
  | [], _ => .isTrue trivial
  | r :: rs, s =>
    have := decidableSerialMeets handle ok rs ((handle r).exec s).2
    inferInstanceAs (Decidable (_ ∧ _))

/-- What one admitted request keeps and shows, every request of a serial run
shows. -/
theorem SerialMeets.of_keeps {handle : R → Program S L ε α} {ok Q : R → S → Prop} {I : S → Prop}
    (h : ∀ r s, I s → ok r s → I ((handle r).exec s).2 ∧ Q r s) {rs : List R} {s : S}
    (hs : I s) (hrs : SerialMeets handle ok rs s) : SerialMeets handle Q rs s := by
  induction rs generalizing s with
  | nil => trivial
  | cons r rs ih =>
    obtain ⟨hnext, hQ⟩ := h r s hs hrs.1
    exact ⟨hQ, ih hnext hrs.2⟩

theorem serial_leaves {handle : R → Program S L ε α} {I : S → Prop}
    (h : ∀ r s, I s → (handle r).Leaves I s) {rs : List R} {s : S} (hs : I s) :
    I (serial handle rs s).2 := by
  induction rs generalizing s with
  | nil => exact hs
  | cons r rs ih => exact ih (h r s hs)

variable [DecidableEq ι]

/-- Alone in the pool, a request that is started and left to run reaches the
outcome and the state that `exec` computes. -/
theorem Pool.run_alone (handle : R → Program S L ε α) (i : ι) (r : R) (p : Program S L ε α)
    (c : Pool ι R S L ε α) (hp : c.procs i = some (r, p)) :
    ∃ n, let c' := c.run handle (List.replicate n (.advance i))
      c'.world.state = (p.exec c.world.state).2 ∧
        c'.procs i = some (r, match (p.exec c.world.state).1 with
          | .ok a => .ret a
          | .error e => .fail e) := by
  have hnext : ∀ n, c.run handle (List.replicate (n+1) (.advance i)) =
      (c.move handle (.advance i)).run handle (List.replicate n (.advance i)) := fun n => by
    simp [Pool.run, List.replicate_succ]
  induction p generalizing c with
  | ret a => exact ⟨0, rfl, hp⟩
  | fail e => exact ⟨0, rfl, hp⟩
  | read k ih =>
    obtain ⟨n, hn⟩ := ih c.world.state (c.move handle (.advance i))
      (by simp [Pool.move, hp, Program.advance])
      (fun n => by simp [Pool.run, List.replicate_succ])
    refine ⟨n+1, ?_⟩
    rw [hnext n]
    simpa [Pool.move, hp, Program.advance] using hn
  | write l k ih =>
    cases hr : (Engine.run l c.world.state : Except ε S) with
    | error e =>
      refine ⟨1, ?_⟩
      simp [Pool.run, Pool.move, hp, Program.advance, hr, Program.exec_write]
    | ok s =>
      obtain ⟨n, hn⟩ := ih c.world.state (c.move handle (.advance i))
        (by simp [Pool.move, hp, Program.advance, hr])
        (fun n => by simp [Pool.run, List.replicate_succ])
      refine ⟨n+1, ?_⟩
      rw [hnext n]
      simpa [Pool.move, hp, Program.advance, hr, Program.exec_write] using hn

theorem serial_append (handle : R → Program S L ε α) (rs rs' : List R) (s : S) :
    serial handle (rs ++ rs') s =
      ((serial handle rs s).1 ++ (serial handle rs' (serial handle rs s).2).1,
        (serial handle rs' (serial handle rs s).2).2) := by
  induction rs generalizing s with
  | nil => simp
  | cons r rs ih => simp [ih]

/-- A machine that answers each request at once, given one after another. -/
def inTurn {T : Type} (step : R → T → α × T) : List R → T → List α × T
  | [], t => ([], t)
  | r :: rs, t => ((step r t).1 :: (inTurn step rs (step r t).2).1, (inTurn step rs (step r t).2).2)

theorem serial_inTurn {T : Type} {handle : R → Program S L ε α} {step : R → T → α × T}
    {view : S → T} {rs : List R} (h : ∀ r ∈ rs, ∀ s, ((handle r).exec s).1 = .ok (step r (view s)).1 ∧
      view ((handle r).exec s).2 = (step r (view s)).2) (s : S) :
    (serial handle rs s).1 = (inTurn step rs (view s)).1.map .ok ∧
      view (serial handle rs s).2 = (inTurn step rs (view s)).2 := by
  induction rs generalizing s with
  | nil => exact ⟨rfl, rfl⟩
  | cons r rs ih =>
    obtain ⟨hr, hrs⟩ := List.forall_mem_cons.mp h
    obtain ⟨hans, hview⟩ := hr s
    obtain ⟨ihans, ihview⟩ := ih hrs ((handle r).exec s).2
    rw [hview] at ihans ihview
    simp [inTurn, hans, ihans, ihview]

end Serial

section Turns
variable [Engine S L ε] {g : L → S → Prop} {I : S → Prop}

/-- Run alone from `s`, the program makes each of its writes where `g` admits it. -/
def Program.Makes (g : L → S → Prop) : Program S L ε α → S → Prop
  | .ret _, _ => True
  | .fail _, _ => True
  | .read k, s => (k s).Makes g s
  | .write l k, s => ∀ s', Engine.run l s = (.ok s' : Except ε S) → g l s ∧ (k s).Makes g s'

theorem Program.makes_of_writesOnly {c : L → Prop} (hg : ∀ l s, c l → g l s)
    {p : Program S L ε α} (hp : p.WritesOnly c) (s : S) : p.Makes g s := by
  induction p generalizing s with
  | ret a => trivial
  | fail e => trivial
  | read k ih => exact ih s (hp s) s
  | write l k ih => exact fun s' _ => ⟨hg l s hp.1, ih s (hp.2 s) s'⟩

theorem Program.makes_readOnly {p : Program S L ε α} (hp : p.ReadOnly) (s : S) : p.Makes g s :=
  makes_of_writesOnly (c := fun _ => False) (fun _ _ h => h.elim) hp.writesOnly s

theorem Program.makes_bind {p : Program S L ε α} {f : α → Program S L ε β} {s : S}
    (hp : p.Makes g s) (hf : ∀ a s', p.exec s = (.ok a, s') → (f a).Makes g s') :
    (p >>= f).Makes g s := by
  induction p generalizing s with
  | ret a => exact hf a s rfl
  | fail e => trivial
  | read k ih => exact ih s hp hf
  | write l k ih =>
    intro s' hrun
    obtain ⟨hl, hk⟩ := hp s' hrun
    refine ⟨hl, ih s hk fun a t ht => hf a t ?_⟩
    rw [exec_write_ok k hrun, ht]

theorem Program.makes_readOnly_bind {p : Program S L ε α} {f : α → Program S L ε β} {s : S}
    (hp : p.ReadOnly) (hf : ∀ a, p.exec s = (.ok a, s) → (f a).Makes g s) :
    (p >>= f).Makes g s := by
  refine makes_bind (makes_readOnly hp s) fun a s' hx => ?_
  obtain rfl : s' = s := by rw [← exec_readOnly hp s, hx]
  exact hf a hx

theorem Program.makes_execute_bind {l : L} {f : Unit → Program S L ε α} {s : S} (hl : g l s)
    (hf : ∀ s', Engine.run l s = (.ok s' : Except ε S) → (f ()).Makes g s') :
    (execute l >>= f).Makes g s := fun s' hrun => ⟨hl, hf s' hrun⟩

theorem Program.makes_executeReturning_bind {l : L} {q : S → α} {f : α → Program S L ε β} {s : S}
    (hl : g l s) (hf : ∀ s', Engine.run l s = (.ok s' : Except ε S) → (f (q s)).Makes g s') :
    (executeReturning l q >>= f).Makes g s := fun s' hrun => ⟨hl, hf s' hrun⟩

theorem Program.Makes.leaves
    (hg : ∀ l s s', g l s → Engine.run l s = (.ok s' : Except ε S) → I s → I s')
    {p : Program S L ε α} {s : S} (hp : p.Makes g s) (hs : I s) : p.Leaves I s := by
  induction p generalizing s with
  | ret a => exact hs
  | fail e => exact hs
  | read k ih => exact ih s hp hs
  | write l k ih =>
    refine leaves_write hs fun s' hrun => ?_
    obtain ⟨hl, hk⟩ := hp s' hrun
    exact ih s hk (hg l s s' hl hrun hs)

/-- The request that is under way is admitted, and all others have answered. -/
def Pool.InTurn (g : L → S → Prop) (I : S → Prop) (c : Pool ι R S L ε α) : Prop :=
  (c.AllAnswered ∧ I c.world.state) ∨ ∃ i r p, c.procs i = some (r, p) ∧
    p.Makes g c.world.state ∧ p.Leaves I c.world.state ∧
      ∀ j r' p', j ≠ i → c.procs j = some (r', p') → p'.answered = true

theorem Pool.InTurn.rests {c : Pool ι R S L ε α} (hc : c.InTurn g I) (hall : c.AllAnswered) :
    I c.world.state := by
  rcases hc with ⟨-, hI⟩ | ⟨i, r, p, hp, -, hI, -⟩
  · exact hI
  · have hanswered := hall i r p hp
    cases p with
    | ret a => exact hI
    | fail e => exact hI
    | read k => cases hanswered
    | write l k => cases hanswered

theorem Pool.InTurn.admits {c : Pool ι R S L ε α} (hc : c.InTurn g I) (m : Move ι R) :
    c.Admits (fun _ => True) (fun _ l w => g l w.state) m := by
  cases m with
  | start i r => trivial
  | advance i =>
    intro r l k w' hi hw
    rcases hc with ⟨hall, -⟩ | ⟨j, r', p, hp, hmakes, -, hothers⟩
    · cases hall i r _ hi
    · by_cases hij : i = j
      · subst hij
        rw [hi] at hp
        cases hp
        exact (hmakes w'.state hw.1).1
      · cases hothers i r _ hij hi

theorem Program.advance_answered {p : Program S L ε α} (h : p.answered = true) (i : ι)
    (w : World ι S L) : p.advance i w = (w, p) := by
  cases p with
  | ret a => rfl
  | fail e => rfl
  | read k => cases h
  | write l k => cases h

theorem Program.Makes.advance {p : Program S L ε α} {w : World ι S L} (hp : p.Makes g w.state)
    (hI : p.Leaves I w.state) (i : ι) : (p.advance i w).2.Makes g (p.advance i w).1.state ∧
      (p.advance i w).2.Leaves I (p.advance i w).1.state := by
  cases p with
  | ret a => exact ⟨hp, hI⟩
  | fail e => exact ⟨hp, hI⟩
  | read k => exact ⟨hp, hI⟩
  | write l k =>
    cases hrun : (Engine.run l w.state : Except ε S) with
    | ok s' =>
      rw [Leaves, exec_write_ok k hrun] at hI
      simp only [Program.advance, hrun]
      exact ⟨(hp s' hrun).2, hI⟩
    | error e =>
      rw [Leaves, exec_write, hrun] at hI
      simp only [Program.advance, hrun]
      exact ⟨trivial, hI⟩

variable [DecidableEq ι]

def Pool.Serially (handle : R → Program S L ε α) : Pool ι R S L ε α → List (Move ι R) → Prop
  | _, [] => True
  | c, m :: ms => (∀ i r, m = .start i r → c.AllAnswered) ∧ Serially handle (c.move handle m) ms

theorem Pool.move_answered {handle : R → Program S L ε α} {c : Pool ι R S L ε α} {i : ι} {r : R}
    {p : Program S L ε α} (hp : c.procs i = some (r, p)) (h : p.answered = true) :
    c.move handle (.advance i) = c := by
  have hsame : Function.update c.procs i (some (r, p)) = c.procs := by
    rw [← hp, Function.update_eq_self]
  simp only [Pool.move, hp, Program.advance_answered h, hsame]

theorem Pool.InTurn.move {handle : R → Program S L ε α}
    (h : ∀ r s, I s → (handle r).Makes g s ∧ (handle r).Leaves I s) {c : Pool ι R S L ε α}
    (hc : c.InTurn g I) {m : Move ι R} (hm : ∀ i r, m = .start i r → c.AllAnswered) :
    (c.move handle m).InTurn g I := by
  cases m with
  | start i r =>
    have hall := hm i r rfl
    cases hi : c.procs i with
    | some q => rwa [Pool.move, hi]
    | none =>
      obtain ⟨hmakes, hleaves⟩ := h r c.world.state (hc.rests hall)
      simp only [Pool.move, hi]
      refine .inr ⟨i, r, handle r, Function.update_self .., hmakes, hleaves, fun j r' p' hj hp' => ?_⟩
      dsimp only at hp'
      rw [Function.update_of_ne hj] at hp'
      exact hall j r' p' hp'
  | advance i =>
    cases hi : c.procs i with
    | none => rwa [Pool.move, hi]
    | some q =>
      obtain ⟨r, p⟩ := q
      cases hp : p.answered with
      | true => rwa [Pool.move_answered hi hp]
      | false =>
        rcases hc with ⟨hall, -⟩ | ⟨j, r', p', hj, hmakes, hleaves, hothers⟩
        · rw [hall i r p hi] at hp
          cases hp
        · obtain rfl : i = j := by
            by_contra hij
            rw [hothers i r p hij hi] at hp
            cases hp
          rw [hi] at hj
          cases hj
          obtain ⟨hmakes, hleaves⟩ := hmakes.advance hleaves i
          simp only [Pool.move, hi]
          refine .inr ⟨i, r, _, Function.update_self .., hmakes, hleaves, fun j r' p' hj hp' => ?_⟩
          dsimp only at hp'
          rw [Function.update_of_ne hj] at hp'
          exact hothers j r' p' hj hp'

/-- Where each request alone makes admitted writes only, so do requests that are made one after
another. -/
theorem Pool.guarded_of_serially {handle : R → Program S L ε α}
    (h : ∀ r s, I s → (handle r).Makes g s ∧ (handle r).Leaves I s) {c : Pool ι R S L ε α}
    (hc : c.InTurn g I) {ms : List (Move ι R)} (hms : c.Serially handle ms) :
    c.Guarded handle (fun _ => True) (fun _ l w => g l w.state) ms := by
  induction ms generalizing c with
  | nil => trivial
  | cons m ms ih => exact ⟨hc.admits m, ih (hc.move h hms.1) hms.2⟩

end Turns

section Lines
variable [Engine S L ε]

/-- `I` holds before and after each step of a program that runs from `s`. -/
def Program.Always (I : S → Prop) : Program S L ε α → S → Prop
  | .ret _, s => I s
  | .fail _, s => I s
  | .read k, s => I s ∧ (k s).Always I s
  | .write l k, s => I s ∧ match Engine.run l s with
    | .ok s' => (k s).Always I s'
    | .error _ => True

theorem Program.Always.now {I : S → Prop} {p : Program S L ε α} {s : S} (h : p.Always I s) :
    I s := by
  cases p with
  | ret a => exact h
  | fail e => exact h
  | read k => exact h.1
  | write l k => exact h.1

theorem Program.Always.bind {I : S → Prop} {p : Program S L ε α} {f : α → Program S L ε β} {s : S}
    (hp : p.Always I s) (hf : ∀ a s', I s' → (f a).Always I s') : (p >>= f).Always I s := by
  induction p generalizing s with
  | ret a => exact hf a s hp
  | fail e => exact hp
  | read k ih => exact ⟨hp.1, ih s hp.2⟩
  | write l k ih =>
    obtain ⟨hs, hnext⟩ := hp
    refine ⟨hs, ?_⟩
    cases hrun : (Engine.run l s : Except ε S) with
    | ok s' =>
      simp only [hrun] at hnext
      exact ih s hnext
    | error e => trivial

theorem Program.WritesOnly.always {c : L → Prop} {I : S → Prop} {p : Program S L ε α}
    (hp : p.WritesOnly c)
    (hI : ∀ l s s', c l → Engine.run l s = (.ok s' : Except ε S) → I s → I s') {s : S} (hs : I s) :
    p.Always I s := by
  induction p generalizing s with
  | ret a => exact hs
  | fail e => exact hs
  | read k ih => exact ⟨hs, ih s (hp s) hs⟩
  | write l k ih =>
    refine ⟨hs, ?_⟩
    cases hrun : (Engine.run l s : Except ε S) with
    | ok s' => exact ih s (hp.2 s) (hI l s s' hp.1 hrun hs)
    | error e => trivial

/-- Programs that wait for their turn, the first of which is under way, and the answers
given so far. -/
structure Line (S L ε α : Type) where
  state : S
  waiting : List (Program S L ε α)
  answers : List (Except ε α)

inductive LineMove (R : Type) where
  | join (r : R)
  | advance
  deriving DecidableEq

def LineMove.joined : List (LineMove R) → List R
  | [] => []
  | .join r :: ms => r :: joined ms
  | .advance :: ms => joined ms

namespace Line

def start (s : S) : Line S L ε α := ⟨s, [], []⟩

def advance (c : Line S L ε α) : Line S L ε α :=
  match c.waiting with
  | [] => c
  | .ret a :: rest => ⟨c.state, rest, c.answers ++ [.ok a]⟩
  | .fail e :: rest => ⟨c.state, rest, c.answers ++ [.error e]⟩
  | .read k :: rest => ⟨c.state, k c.state :: rest, c.answers⟩
  | .write l k :: rest =>
    match Engine.run l c.state with
    | .ok s => ⟨s, k c.state :: rest, c.answers⟩
    | .error e => ⟨c.state, rest, c.answers ++ [.error e]⟩

def move (handle : R → Program S L ε α) (c : Line S L ε α) : LineMove R → Line S L ε α
  | .join r => { c with waiting := c.waiting ++ [handle r] }
  | .advance => c.advance

def run (handle : R → Program S L ε α) (c : Line S L ε α) (ms : List (LineMove R)) :
    Line S L ε α := ms.foldl (move handle) c

def finished (c : Line S L ε α) : List (Except ε α) × S :=
  (c.answers ++ (serial id c.waiting c.state).1, (serial id c.waiting c.state).2)

theorem finished_advance (c : Line S L ε α) : c.advance.finished = c.finished := by
  rcases c with ⟨s, waiting, answers⟩
  cases waiting with
  | nil => simp [advance]
  | cons p rest =>
    cases p with
    | ret a => simp [advance, finished]
    | fail e => simp [advance, finished]
    | read k => simp [advance, finished]
    | write l k =>
      cases hl : (Engine.run l s : Except ε S) <;> simp [advance, finished, Program.exec_write, hl]

theorem finished_join (handle : R → Program S L ε α) (c : Line S L ε α) (r : R) :
    (c.move handle (.join r)).finished =
      (c.finished.1 ++ [((handle r).exec c.finished.2).1], ((handle r).exec c.finished.2).2) := by
  simp [move, finished, serial_append]

/-- However the requests come while others are under way, they end as they do when each
is made after the one before it has answered. -/
theorem finished_run (handle : R → Program S L ε α) (c : Line S L ε α) (ms : List (LineMove R)) :
    (c.run handle ms).finished =
      (c.finished.1 ++ (serial handle (LineMove.joined ms) c.finished.2).1,
        (serial handle (LineMove.joined ms) c.finished.2).2) := by
  induction ms generalizing c with
  | nil => simp [run, LineMove.joined]
  | cons m ms ih =>
    have hnext : c.run handle (m :: ms) = (c.move handle m).run handle ms := rfl
    rw [hnext, ih]
    cases m with
    | join r => simp [finished_join, LineMove.joined]
    | advance => simp [move, finished_advance, LineMove.joined]

theorem finished_start (handle : R → Program S L ε α) (s : S) (ms : List (LineMove R)) :
    ((start s).run handle ms).finished = serial handle (LineMove.joined ms) s := by
  rw [finished_run]
  simp [finished, start]

theorem answers_prefix (handle : R → Program S L ε α) (s : S) (ms : List (LineMove R)) :
    ((start s).run handle ms).answers <+: (serial handle (LineMove.joined ms) s).1 := by
  rw [← finished_start]
  exact List.prefix_append _ _

/-- `I` holds now, and of the programs that wait the first keeps it from here on, the others
from wherever it holds. -/
def Keeps (I : S → Prop) (c : Line S L ε α) : Prop :=
  I c.state ∧ match c.waiting with
    | [] => True
    | p :: rest => p.Always I c.state ∧ ∀ q ∈ rest, ∀ s, I s → q.Always I s

theorem keeps_of_forall {I : S → Prop} {s : S} {waiting : List (Program S L ε α)}
    {answers : List (Except ε α)} (hs : I s) (h : ∀ q ∈ waiting, ∀ s, I s → q.Always I s) :
    Keeps I ⟨s, waiting, answers⟩ := by
  cases waiting with
  | nil => exact ⟨hs, trivial⟩
  | cons p rest =>
    obtain ⟨hp, hrest⟩ := List.forall_mem_cons.mp h
    exact ⟨hs, hp s hs, hrest⟩

theorem Keeps.advance {I : S → Prop} {c : Line S L ε α} (h : c.Keeps I) : c.advance.Keeps I := by
  rcases c with ⟨s, waiting, answers⟩
  cases waiting with
  | nil => exact h
  | cons p rest =>
    obtain ⟨hs, hp, hrest⟩ := h
    cases p with
    | ret a => exact keeps_of_forall hs hrest
    | fail e => exact keeps_of_forall hs hrest
    | read k => exact ⟨hs, hp.2, hrest⟩
    | write l k =>
      have hnext := hp.2
      cases hrun : (Engine.run l s : Except ε S) with
      | ok s' =>
        simp only [hrun] at hnext
        simp only [Line.advance, hrun]
        exact ⟨Program.Always.now hnext, hnext, hrest⟩
      | error e =>
        simp only [Line.advance, hrun]
        exact keeps_of_forall hs hrest

theorem Keeps.join {I : S → Prop} {c : Line S L ε α} (h : c.Keeps I) {p : Program S L ε α}
    (hp : ∀ s, I s → p.Always I s) : Keeps I { c with waiting := c.waiting ++ [p] } := by
  rcases c with ⟨s, waiting, answers⟩
  cases waiting with
  | nil => exact ⟨h.1, hp s h.1, by simp⟩
  | cons q rest =>
    obtain ⟨hs, hq, hrest⟩ := h
    exact ⟨hs, hq, List.forall_mem_append.mpr ⟨hrest, by simpa using hp⟩⟩

/-- What every request keeps at each of its steps holds however far the line has come. -/
theorem Keeps.run {handle : R → Program S L ε α} {I : S → Prop} {c : Line S L ε α}
    (h : c.Keeps I) {ms : List (LineMove R)}
    (hms : ∀ r ∈ LineMove.joined ms, ∀ s, I s → (handle r).Always I s) :
    (c.run handle ms).Keeps I := by
  induction ms generalizing c with
  | nil => exact h
  | cons m ms ih =>
    cases m with
    | join r =>
      obtain ⟨hr, hms⟩ := List.forall_mem_cons.mp hms
      exact ih (h.join hr) hms
    | advance => exact ih h.advance hms

end Line
end Lines

/-- Both outcomes are answers related by `V`, or both are the same error. -/
def SameOutcome (V : α → β → Prop) : Except ε α → Except ε β → Prop
  | .ok a, .ok b => V a b
  | .error e, .error e' => e = e'
  | _, _ => False

theorem sameOutcome_eq_iff {r r' : Except ε α} : SameOutcome Eq r r' ↔ r = r' := by
  cases r <;> cases r' <;> simp [SameOutcome]

section Two
variable [Engine S L ε]

/-- Run from `s` and from `s'`, the programs give outcomes related by `V` and
leave states related by `Rel`. -/
def Agree (Rel : S → S → Prop) (V : α → β → Prop) (p : Program S L ε α)
    (q : Program S L ε β) (s s' : S) : Prop :=
  SameOutcome V (p.exec s).1 (q.exec s').1 ∧ Rel (p.exec s).2 (q.exec s').2

variable {Rel : S → S → Prop} {s s' : S}

theorem agree_ret {V : α → β → Prop} {a : α} {b : β} (hV : V a b) (hs : Rel s s') :
    Agree Rel V (.ret a : Program S L ε α) (.ret b) s s' := ⟨hV, hs⟩

theorem agree_fail {V : α → β → Prop} (e : ε) (hs : Rel s s') :
    Agree Rel V (.fail e : Program S L ε α) (.fail e) s s' := ⟨rfl, hs⟩

theorem agree_write {V : α → β → Prop} {l l' : L} {k : S → Program S L ε α}
    {k' : S → Program S L ε β} (hs : Rel s s')
    (hrun : SameOutcome Rel (Engine.run l s : Except ε S) (Engine.run l' s'))
    (hk : ∀ t t', Engine.run l s = .ok t → Rel t t' → Agree Rel V (k s) (k' s') t t') :
    Agree Rel V (.write l k) (.write l' k') s s' := by
  unfold Agree
  rw [Program.exec_write, Program.exec_write]
  cases hr : (Engine.run l s : Except ε S) with
  | ok t =>
    cases hr' : (Engine.run l' s' : Except ε S) with
    | ok t' =>
      rw [hr, hr'] at hrun
      exact hk t t' hr hrun
    | error e => simp [hr, hr', SameOutcome] at hrun
  | error e =>
    cases hr' : (Engine.run l' s' : Except ε S) with
    | ok t' => simp [hr, hr', SameOutcome] at hrun
    | error e' =>
      rw [hr, hr'] at hrun
      exact ⟨hrun, hs⟩

/-- A read-only prefix: it must give related answers in the two states, and the
rest of the programs starts in those same states. -/
theorem agree_readOnly_bind {V : α → β → Prop} {W : γ → δ → Prop} {p : Program S L ε α}
    {q : Program S L ε β} {f : α → Program S L ε γ} {g : β → Program S L ε δ}
    (hs : Rel s s') (hp : p.ReadOnly) (hq : q.ReadOnly)
    (h : SameOutcome V (p.exec s).1 (q.exec s').1)
    (hf : ∀ a b, p.exec s = (.ok a, s) → V a b → Agree Rel W (f a) (g b) s s') :
    Agree Rel W (p >>= f) (q >>= g) s s' := by
  have hps := Program.exec_readOnly hp s
  have hqs := Program.exec_readOnly hq s'
  unfold Agree
  rw [Program.exec_bind, Program.exec_bind]
  rcases hx : p.exec s with ⟨r, t⟩
  rcases hy : q.exec s' with ⟨r', t'⟩
  rw [hx] at hps h
  rw [hy] at hqs h
  subst hps hqs
  cases r with
  | ok a =>
    cases r' with
    | ok b => exact hf a b hx h
    | error e => exact h.elim
  | error e =>
    cases r' with
    | ok b => exact h.elim
    | error e' => exact ⟨h, hs⟩

theorem agree_bind {V : α → β → Prop} {W : γ → δ → Prop} {p : Program S L ε α}
    {q : Program S L ε β} {f : α → Program S L ε γ} {g : β → Program S L ε δ}
    (h : Agree Rel V p q s s')
    (hf : ∀ a b t t', V a b → Rel t t' → Agree Rel W (f a) (g b) t t') :
    Agree Rel W (p >>= f) (q >>= g) s s' := by
  obtain ⟨hans, hrel⟩ := h
  unfold Agree
  rw [Program.exec_bind, Program.exec_bind]
  rcases hx : p.exec s with ⟨r, t⟩
  rcases hy : q.exec s' with ⟨r', t'⟩
  rw [hx, hy] at hans hrel
  cases r with
  | ok a =>
    cases r' with
    | ok b => exact hf a b t t' hans hrel
    | error e => exact hans.elim
  | error e =>
    cases r' with
    | ok b => exact hans.elim
    | error e' => exact ⟨hans, hrel⟩

theorem sameOutcome_queryRow {V : α → β → Prop} {q : S → Option α} {q' : S → Option β} {e : ε}
    (h : Option.Rel V (q s) (q' s')) :
    SameOutcome V ((Program.queryRow q e : Program S L ε α).exec s).1
      ((Program.queryRow q' e : Program S L ε β).exec s').1 := by
  rw [Program.exec_queryRow, Program.exec_queryRow]
  generalize q s = x at h
  generalize q' s' = y at h
  cases h with
  | some h => exact h
  | none => rfl

theorem agree_queryRow_bind {V : α → β → Prop} {W : γ → δ → Prop} {q : S → Option α}
    {q' : S → Option β} {e : ε} {f : α → Program S L ε γ} {g : β → Program S L ε δ}
    (hs : Rel s s') (h : Option.Rel V (q s) (q' s'))
    (hf : ∀ a b, q s = some a → V a b → Agree Rel W (f a) (g b) s s') :
    Agree Rel W (Program.queryRow q e >>= f) (Program.queryRow q' e >>= g) s s' :=
  agree_readOnly_bind hs (Program.readOnly_queryRow _ _) (Program.readOnly_queryRow _ _)
    (sameOutcome_queryRow h) fun a b ha hV => hf a b (Program.exec_queryRow_ok ha).1 hV

theorem agree_sameRow_bind {W : γ → δ → Prop} {q q' : S → Option α} {e : ε}
    {f : α → Program S L ε γ} {g : α → Program S L ε δ} (hs : Rel s s') (h : q s = q' s')
    (hf : ∀ a, q s = some a → Agree Rel W (f a) (g a) s s') :
    Agree Rel W (Program.queryRow q e >>= f) (Program.queryRow q' e >>= g) s s' := by
  refine agree_queryRow_bind (V := Eq) hs ?_ fun a b ha hab => hab ▸ hf a ha
  rw [h]
  cases q' s' with
  | none => exact .none
  | some a => exact .some rfl

theorem agree_query_bind {W : γ → δ → Prop} {q : S → α} {q' : S → β}
    {f : α → Program S L ε γ} {g : β → Program S L ε δ}
    (h : Agree Rel W (f (q s)) (g (q' s')) s s') :
    Agree Rel W (Program.query q >>= f) (Program.query q' >>= g) s s' := h

theorem agree_require_bind {W : γ → δ → Prop} {c c' : Prop} [Decidable c] [Decidable c'] {e : ε}
    {f : Unit → Program S L ε γ} {g : Unit → Program S L ε δ} (hs : Rel s s') (hc : c ↔ c')
    (h : c → Agree Rel W (f ()) (g ()) s s') :
    Agree Rel W (Program.require c e >>= f) (Program.require c' e >>= g) s s' := by
  unfold Program.require
  by_cases hcc : c
  · rw [if_pos hcc, if_pos (hc.mp hcc)]
    exact h hcc
  · rw [if_neg hcc, if_neg (mt hc.mpr hcc)]
    exact agree_fail e hs

theorem agree_same_bind {W : γ → δ → Prop} {p q : Program S L ε α} {f : α → Program S L ε γ}
    {g : α → Program S L ε δ} (hs : Rel s s') (hp : p.ReadOnly) (hq : q.ReadOnly)
    (h : Agree Rel Eq p q s s')
    (hf : ∀ a, p.exec s = (.ok a, s) → Agree Rel W (f a) (g a) s s') :
    Agree Rel W (p >>= f) (q >>= g) s s' :=
  agree_readOnly_bind hs hp hq h.1 fun a _ ha hab => hab ▸ hf a ha

theorem agree_execute_bind {W : γ → δ → Prop} {l l' : L} {f : Unit → Program S L ε γ}
    {g : Unit → Program S L ε δ} (hs : Rel s s')
    (hrun : SameOutcome Rel (Engine.run l s : Except ε S) (Engine.run l' s'))
    (hk : ∀ t t', Engine.run l s = .ok t → Rel t t' → Agree Rel W (f ()) (g ()) t t') :
    Agree Rel W (Program.execute l >>= f) (Program.execute l' >>= g) s s' :=
  agree_write hs hrun hk

/-- Two serial runs of the same requests, whose states no request tells apart,
give the same answers. -/
theorem serial_agree {handle : R → Program S L ε α} {ok : R → Prop}
    (h : ∀ r s s', ok r → Rel s s' → Agree Rel Eq (handle r) (handle r) s s')
    {rs : List R} (hrs : ∀ r ∈ rs, ok r) (hs : Rel s s') :
    (serial handle rs s).1 = (serial handle rs s').1 ∧
      Rel (serial handle rs s).2 (serial handle rs s').2 := by
  induction rs generalizing s s' with
  | nil => exact ⟨rfl, hs⟩
  | cons r rs ih =>
    obtain ⟨hans, hnext⟩ := h r s s' (hrs r (by simp)) hs
    obtain ⟨hrest, hlast⟩ := ih (fun r' hr' => hrs r' (by simp [hr'])) hnext
    refine ⟨?_, hlast⟩
    simp only [serial_cons]
    rw [sameOutcome_eq_iff.mp hans, hrest]

end Two

end Cinder.Programs
