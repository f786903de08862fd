import Cinder.Programs.StepProgram
set_option autoImplicit false

/-!
Any number of requests interleaved statement by statement, and the rule by
which their invariants are proved. A run is a list of moves: start a request,
or let one running request take its next step.
-/

namespace Cinder.Programs

/-- A write that took effect: the process that made it and the state it met. -/
structure Event (ι S L : Type) where
  proc : ι
  label : L
  before : S

/-- The shared state with the writes that led to it, the latest first. No
program reads the history; it is there for statements about whole runs. -/
structure World (ι S L : Type) where
  state : S
  history : List (Event ι S L)

/-- In a history, the latest event first: after an event with `p` one with `q`. -/
def Afterwards {E : Type} (p q : E → Prop) : List E → Prop
  | [] => False
  | e :: history => (q e ∧ ∃ earlier ∈ history, p earlier) ∨ Afterwards p q history

instance decidableAfterwards {E : Type} (p q : E → Prop) [DecidablePred p] [DecidablePred q] :
    (history : List E) → Decidable (Afterwards p q history)
  | [] => .isFalse fun h => h
  | _ :: history =>
    have := decidableAfterwards p q history
    inferInstanceAs (Decidable (_ ∨ _))

theorem afterwards_of_split {E : Type} {p q : E → Prop} {later earlier : List E} {r e : E}
    (hr : p r) (he : e ∈ later) (hq : q e) : Afterwards p q (later ++ r :: earlier) := by
  induction later with
  | nil => cases he
  | cons x later ih =>
    rcases List.mem_cons.mp he with rfl | he
    · exact .inl ⟨hq, r, by simp, hr⟩
    · exact .inr (ih he)

/-- Each process keeps the request it was started with and the program it has
still to run. A finished process keeps its answer. -/
structure Pool (ι R S L ε α : Type) where
  world : World ι S L
  procs : ι → Option (R × Program S L ε α)

inductive Move (ι R : Type) where
  | start (i : ι) (r : R)
  | advance (i : ι)

variable {ι R S L ε α β : Type}

section Steps
variable [Engine S L ε]

def World.Wrote (i : ι) (l : L) (w w' : World ι S L) : Prop :=
  Engine.run l w.state = .ok w'.state ∧ w'.history = ⟨i, l, w.state⟩ :: w.history

/-- The writes made since `w₀`, the latest first. -/
def World.since (w w₀ : World ι S L) : List (Event ι S L) :=
  w.history.take (w.history.length-w₀.history.length)

theorem World.since_append {w w₀ : World ι S L} {later : List (Event ι S L)}
    (h : w.history = later ++ w₀.history) : w.since w₀ = later := by
  simp [since, h]

def Program.advance (i : ι) (w : World ι S L) :
    Program S L ε α → World ι S L × Program S L ε α
  | .ret a => (w, .ret a)
  | .fail e => (w, .fail e)
  | .read k => (w, k w.state)
  | .write l k =>
    match Engine.run l w.state with
    | .ok s => (⟨s, ⟨i, l, w.state⟩ :: w.history⟩, k w.state)
    | .error e => (w, .fail e)

theorem Program.writesOnly_advance {c : L → Prop} {p : Program S L ε α} (i : ι)
    (w : World ι S L) (hp : p.WritesOnly c) : (p.advance i w).2.WritesOnly c := by
  cases p with
  | ret a => trivial
  | fail e => trivial
  | read k => exact hp w.state
  | write l k =>
    cases hr : (Engine.run l w.state : Except ε S) with
    | error e =>
      rw [advance, hr]
      trivial
    | ok s =>
      rw [advance, hr]
      exact hp.2 w.state

def Program.answered : Program S L ε α → Bool
  | .ret _ => true
  | .fail _ => true
  | _ => false

def Pool.AllAnswered (c : Pool ι R S L ε α) : Prop :=
  ∀ i r p, c.procs i = some (r, p) → p.answered = true

def Pool.idle (s : S) : Pool ι R S L ε α := ⟨⟨s, []⟩, fun _ => none⟩

/-- The move starts an allowed request, or lets a process on whose write, if it
takes effect, satisfies `guard` in the world it is made in. -/
def Pool.Admits (allowed : R → Prop) (guard : ι → L → World ι S L → Prop)
    (c : Pool ι R S L ε α) : Move ι R → Prop
  | .start _ r => allowed r
  | .advance i => ∀ r l k w', c.procs i = some (r, .write l k) →
      World.Wrote i l c.world w' → guard i l c.world

section Decide
variable (allowed : R → Prop) (guard : ι → L → World ι S L → Prop)
variable [DecidablePred allowed] [∀ i l w, Decidable (guard i l w)]

def Pool.admits? (c : Pool ι R S L ε α) : Move ι R → Bool
  | .start _ r => allowed r
  | .advance i =>
    match c.procs i with
    | some (_, .write l _) =>
      match (Engine.run l c.world.state : Except ε S) with
      | .ok _ => guard i l c.world
      | .error _ => true
    | _ => true

theorem Pool.admits?_iff (c : Pool ι R S L ε α) (m : Move ι R) :
    c.admits? allowed guard m = true ↔ c.Admits allowed guard m := by
  cases m with
  | start i r => simp [admits?, Admits]
  | advance i =>
    simp only [admits?, Admits]
    cases hp : c.procs i with
    | none => simp
    | some q =>
      obtain ⟨r, p⟩ := q
      cases p with
      | ret a => simp
      | fail e => simp
      | read k => simp
      | write l k =>
        cases hr : (Engine.run l c.world.state : Except ε S) with
        | error e =>
          simp only [hr, true_iff]
          rintro r' l' k' w' hp' ⟨hr', -⟩
          cases hp'
          rw [hr] at hr'
          cases hr'
        | ok s =>
          simp only [hr, decide_eq_true_eq]
          constructor
          · rintro hg r' l' k' w' hp' -
            cases hp'
            exact hg
          · exact fun h => h r l k ⟨s, _⟩ rfl ⟨hr, rfl⟩

instance (c : Pool ι R S L ε α) (m : Move ι R) : Decidable (c.Admits allowed guard m) :=
  decidable_of_iff _ (c.admits?_iff allowed guard m)

end Decide

variable [DecidableEq ι]

def Pool.move (handle : R → Program S L ε α) (c : Pool ι R S L ε α) :
    Move ι R → Pool ι R S L ε α
  | .start i r =>
    match c.procs i with
    | none => { c with procs := Function.update c.procs i (some (r, handle r)) }
    | some _ => c
  | .advance i =>
    match c.procs i with
    | none => c
    | some (r, p) =>
      { world := (p.advance i c.world).1
        procs := Function.update c.procs i (some (r, (p.advance i c.world).2)) }

def Pool.run (handle : R → Program S L ε α) (c : Pool ι R S L ε α) (ms : List (Move ι R)) :
    Pool ι R S L ε α :=
  ms.foldl (Pool.move handle) c

theorem Pool.run_append (handle : R → Program S L ε α) (c : Pool ι R S L ε α)
    (ms ns : List (Move ι R)) : c.run handle (ms ++ ns) = (c.run handle ms).run handle ns := by
  simp [Pool.run]

def Pool.Guarded (handle : R → Program S L ε α) (allowed : R → Prop)
    (guard : ι → L → World ι S L → Prop) : Pool ι R S L ε α → List (Move ι R) → Prop
  | _, [] => True
  | c, m :: ms => c.Admits allowed guard m ∧ Pool.Guarded handle allowed guard (c.move handle m) ms

instance Pool.decidableGuarded (allowed : R → Prop) (guard : ι → L → World ι S L → Prop)
    [DecidablePred allowed] [∀ i l w, Decidable (guard i l w)] (handle : R → Program S L ε α)
    (c : Pool ι R S L ε α) : (ms : List (Move ι R)) → Decidable (c.Guarded handle allowed guard ms)
  | [] => .isTrue trivial
  | m :: ms =>
    have := Pool.decidableGuarded allowed guard handle (c.move handle m) ms
    inferInstanceAs (Decidable (_ ∧ _))

theorem Pool.guarded_of_forall {handle : R → Program S L ε α} {allowed : R → Prop}
    {guard : ι → L → World ι S L → Prop} (hr : ∀ r, allowed r) (hg : ∀ i l w, guard i l w)
    (c : Pool ι R S L ε α) (ms : List (Move ι R)) : c.Guarded handle allowed guard ms := by
  induction ms generalizing c with
  | nil => trivial
  | cons m ms ih =>
    refine ⟨?_, ih _⟩
    cases m with
    | start i r => exact hr r
    | advance i => exact fun r l k w' _ _ => hg i l c.world

theorem Pool.guarded_append (handle : R → Program S L ε α) (allowed : R → Prop)
    (guard : ι → L → World ι S L → Prop) (c : Pool ι R S L ε α) (ms ns : List (Move ι R)) :
    c.Guarded handle allowed guard (ms ++ ns) ↔
      c.Guarded handle allowed guard ms ∧ (c.run handle ms).Guarded handle allowed guard ns := by
  induction ms generalizing c with
  | nil => simp [Pool.Guarded, Pool.run]
  | cons m ms ih => simp [Pool.Guarded, Pool.run, ih, and_assoc]

theorem Pool.guarded_prefix {handle : R → Program S L ε α} {allowed : R → Prop}
    {guard : ι → L → World ι S L → Prop} {c : Pool ι R S L ε α} {ms ns : List (Move ι R)}
    (h : c.Guarded handle allowed guard ms) (hns : ns <+: ms) : c.Guarded handle allowed guard ns := by
  obtain ⟨rest, rfl⟩ := hns
  exact ((Pool.guarded_append handle allowed guard c ns rest).mp h).1

theorem Pool.guarded_and {handle : R → Program S L ε α} {allowed : R → Prop}
    {guard guard' : ι → L → World ι S L → Prop} {c : Pool ι R S L ε α} {ms : List (Move ι R)}
    (h : c.Guarded handle allowed guard ms) (h' : c.Guarded handle allowed guard' ms) :
    c.Guarded handle allowed (fun i l w => guard i l w ∧ guard' i l w) ms := by
  induction ms generalizing c with
  | nil => trivial
  | cons m ms ih =>
    refine ⟨?_, ih h.2 h'.2⟩
    cases m with
    | start i r => exact h.1
    | advance i => exact fun r l k w' hp hw => ⟨h.1 r l k w' hp hw, h'.1 r l k w' hp hw⟩

/-- A move leaves the world alone unless it lets a process make its write. -/
theorem Pool.move_world (handle : R → Program S L ε α) (c : Pool ι R S L ε α)
    (m : Move ι R) : (c.move handle m).world = c.world ∨
      ∃ i r l k, m = .advance i ∧ c.procs i = some (r, .write l k) ∧
        World.Wrote i l c.world (c.move handle m).world := by
  cases m with
  | start i r => left; cases hp : c.procs i <;> simp [Pool.move, hp]
  | advance i =>
    cases hp : c.procs i with
    | none => left; simp [Pool.move, hp]
    | some q =>
      obtain ⟨r, p⟩ := q
      cases p with
      | ret a => left; simp [Pool.move, hp, Program.advance]
      | fail e => left; simp [Pool.move, hp, Program.advance]
      | read k => left; simp [Pool.move, hp, Program.advance]
      | write l k =>
        cases hr : (Engine.run l c.world.state : Except ε S) with
        | error e => left; simp [Pool.move, hp, Program.advance, hr]
        | ok s =>
          right
          refine ⟨i, r, l, k, rfl, hp, ?_⟩
          simp [World.Wrote, Pool.move, hp, Program.advance, hr]

/-- What the steps of a program keep holds of every process, for the request it
was started with. -/
theorem Pool.procs_run {handle : R → Program S L ε α} {P : R → Program S L ε α → Prop}
    (hstart : ∀ r, P r (handle r))
    (hstep : ∀ r p (i : ι) (w : World ι S L), P r p → P r (p.advance i w).2)
    (pool : Pool ι R S L ε α) (hp : ∀ i r p, pool.procs i = some (r, p) → P r p)
    (ms : List (Move ι R)) : ∀ i r p, (pool.run handle ms).procs i = some (r, p) → P r p := by
  induction ms generalizing pool with
  | nil => exact hp
  | cons m ms ih =>
    refine ih _ fun j r p hj => ?_
    cases m with
    | start i r' =>
      cases hi : pool.procs i with
      | some q => exact hp j r p (by simpa [Pool.move, hi] using hj)
      | none =>
        by_cases hji : j = i
        · subst hji
          simp only [Pool.move, hi, Function.update_self, Option.some.injEq, Prod.mk.injEq] at hj
          obtain ⟨rfl, rfl⟩ := hj
          exact hstart _
        · simp only [Pool.move, hi, Function.update_of_ne hji] at hj
          exact hp j r p hj
    | advance i =>
      cases hi : pool.procs i with
      | none => exact hp j r p (by simpa [Pool.move, hi] using hj)
      | some q =>
        obtain ⟨r', p'⟩ := q
        by_cases hji : j = i
        · subst hji
          simp only [Pool.move, hi, Function.update_self, Option.some.injEq, Prod.mk.injEq] at hj
          obtain ⟨rfl, rfl⟩ := hj
          exact hstep _ _ j pool.world (hp j _ p' hi)
        · simp only [Pool.move, hi, Function.update_of_ne hji] at hj
          exact hp j r p hj

/-- An invariant of the world together with what each process is up to: a request
may be started in it, and a step of one process keeps it for all. -/
theorem Pool.kept_run {handle : R → Program S L ε α} {allowed : R → Prop}
    {guard : ι → L → World ι S L → Prop} {I : World ι S L → Prop}
    {J : ι → World ι S L → Option (R × Program S L ε α) → Prop}
    (hstart : ∀ i r w, allowed r → J i w none → J i w (some (r, handle r)))
    (hstep : ∀ i r p w, I w → J i w (some (r, p)) →
      (∀ l k w', p = .write l k → World.Wrote i l w w' → guard i l w) →
        I (p.advance i w).1 ∧ J i (p.advance i w).1 (some (r, (p.advance i w).2)) ∧
          ∀ j q, j ≠ i → J j w q → J j (p.advance i w).1 q)
    {c : Pool ι R S L ε α} (hc : I c.world) (hprocs : ∀ i, J i c.world (c.procs i))
    {ms : List (Move ι R)} (hms : c.Guarded handle allowed guard ms) :
    I (c.run handle ms).world ∧ ∀ i, J i (c.run handle ms).world ((c.run handle ms).procs i) := by
  induction ms generalizing c with
  | nil => exact ⟨hc, hprocs⟩
  | cons m ms ih =>
    obtain ⟨hm, hrest⟩ := hms
    have hnext : I (c.move handle m).world ∧
        ∀ i, J i (c.move handle m).world ((c.move handle m).procs i) := by
      cases m with
      | start i r =>
        cases hi : c.procs i with
        | some q => simpa only [move, hi] using ⟨hc, hprocs⟩
        | none =>
          simp only [move, hi]
          refine ⟨hc, fun j => ?_⟩
          by_cases hji : j = i
          · subst hji
            rw [Function.update_self]
            exact hstart j r c.world hm (hi ▸ hprocs j)
          · rw [Function.update_of_ne hji]
            exact hprocs j
      | advance i =>
        cases hi : c.procs i with
        | none => simpa only [move, hi] using ⟨hc, hprocs⟩
        | some q =>
          obtain ⟨r, p⟩ := q
          obtain ⟨hworld, hself, hothers⟩ := hstep i r p c.world hc (hi ▸ hprocs i)
            fun l k w' hp hw => hm r l k w' (hp ▸ hi) hw
          simp only [move, hi]
          refine ⟨hworld, fun j => ?_⟩
          by_cases hji : j = i
          · subst hji
            rw [Function.update_self]
            exact hself
          · rw [Function.update_of_ne hji]
            exact hothers j _ hji (hprocs j)
    exact ih hnext.1 hnext.2 hrest

/-- A process makes only the writes of the request it was started with. -/
theorem Pool.writesOnly_run {handle : R → Program S L ε α} {c : R → L → Prop}
    (h : ∀ r, (handle r).WritesOnly (c r)) (pool : Pool ι R S L ε α)
    (hp : ∀ i r p, pool.procs i = some (r, p) → p.WritesOnly (c r)) (ms : List (Move ι R)) :
    ∀ i r p, (pool.run handle ms).procs i = some (r, p) → p.WritesOnly (c r) :=
  Pool.procs_run h (fun _ _ i w hw => Program.writesOnly_advance i w hw) pool hp ms

/-- Where `P` after a write that the programs make shows that the write was admitted, a
run that keeps `P` is guarded. -/
theorem Pool.guarded_of_writes {handle : R → Program S L ε α} {allowed : R → Prop}
    {writes : L → Prop} {guard : ι → L → World ι S L → Prop} {P : World ι S L → Prop}
    (hwrites : ∀ r, (handle r).WritesOnly writes)
    (hguard : ∀ i l w w', writes l → World.Wrote i l w w' → P w' → guard i l w)
    {c : Pool ι R S L ε α} (hprocs : ∀ i r p, c.procs i = some (r, p) → p.WritesOnly writes)
    {ms : List (Move ι R)} (hms : ∀ i r, Move.start i r ∈ ms → allowed r)
    (hP : ∀ ns, ns <+: ms → P (c.run handle ns).world) : c.Guarded handle allowed guard ms := by
  induction ms generalizing c with
  | nil => trivial
  | cons m ms ih =>
    have hnext := Pool.writesOnly_run (c := fun _ => writes) hwrites c hprocs [m]
    refine ⟨?_, ih hnext (fun i r h => hms i r (List.mem_cons_of_mem _ h)) fun ns hns =>
      hP (m :: ns) (List.cons_prefix_cons.mpr ⟨rfl, hns⟩)⟩
    cases m with
    | start i r => exact hms i r List.mem_cons_self
    | advance i =>
      intro r l k w' hp hw
      have hnext : (c.move handle (.advance i)).world = w' := by
        obtain ⟨state, history⟩ := w'
        obtain ⟨hrun, hhistory⟩ := hw
        dsimp only at hrun hhistory
        subst hhistory
        simp only [Pool.move, hp, Program.advance, hrun]
      refine hguard i l c.world w' (hprocs i r _ hp).1 hw (hnext ▸ hP [.advance i] ?_)
      exact List.cons_prefix_cons.mpr ⟨rfl, List.nil_prefix⟩

theorem Pool.guarded_of_prefixes {handle : R → Program S L ε α} {allowed : R → Prop}
    {guard : ι → L → World ι S L → Prop} {P : World ι S L → Prop}
    (hguard : ∀ i l w w', World.Wrote i l w w' → P w' → guard i l w) {c : Pool ι R S L ε α}
    {ms : List (Move ι R)} (hms : ∀ i r, Move.start i r ∈ ms → allowed r)
    (hP : ∀ ns, ns <+: ms → P (c.run handle ns).world) : c.Guarded handle allowed guard ms :=
  Pool.guarded_of_writes (fun r => Program.writesOnly_of_forall (fun _ => trivial) (handle r))
    (fun i l w w' _ => hguard i l w w')
    (fun _ _ p _ => Program.writesOnly_of_forall (fun _ => trivial) p) hms hP

/-- Where the programs make only writes with `writes`, and the guard is what such
a write needs for `P` to hold after it, a run is guarded if and only if `P` holds
after each of its moves. -/
theorem Pool.guarded_iff {handle : R → Program S L ε α} {allowed : R → Prop} {writes : L → Prop}
    {guard : ι → L → World ι S L → Prop} {I P : World ι S L → Prop}
    (hwrites : ∀ r, (handle r).WritesOnly writes)
    (hkeeps : ∀ i l w w', I w → writes l → guard i l w → World.Wrote i l w w' → I w')
    (hP : ∀ w, I w → P w)
    (hguard : ∀ i l w w', I w → writes l → World.Wrote i l w w' → P w' → guard i l w)
    {c : Pool ι R S L ε α} (hc : I c.world)
    (hprocs : ∀ i r p, c.procs i = some (r, p) → p.WritesOnly writes) (ms : List (Move ι R))
    (hms : ∀ i r, Move.start i r ∈ ms → allowed r) :
    c.Guarded handle allowed guard ms ↔ ∀ ns, ns <+: ms → P (c.run handle ns).world := by
  induction ms generalizing c with
  | nil => simp [Pool.Guarded, Pool.run, hP _ hc]
  | cons m ms ih =>
    have htail : ∀ i r, Move.start i r ∈ ms → allowed r := fun i r h => hms i r (by simp [h])
    have hnext := Pool.writesOnly_run (c := fun _ => writes) hwrites c hprocs [m]
    have hstep : (c.Admits allowed guard m → I (c.move handle m).world) ∧
        (P (c.move handle m).world → c.Admits allowed guard m) := by
      rcases c.move_world handle m with hw | ⟨i, r, l, k, rfl, hp, hw⟩
      · rw [hw]
        refine ⟨fun _ => hc, fun _ => ?_⟩
        cases m with
        | start i r => exact hms i r (by simp)
        | advance i =>
          intro r l k w' hp hw'
          have hrun : Engine.run l c.world.state = .ok w'.state := hw'.1
          have hne := congrArg (fun w : World ι S L => w.history.length) hw
          simp [Pool.move, hp, Program.advance, hrun] at hne
      · have hl : writes l := (hprocs i r _ hp).1
        refine ⟨fun h => hkeeps i l _ _ hc hl (h r l k _ hp hw) hw, fun h r' l' k' w' hp' _ => ?_⟩
        rw [hp] at hp'
        cases hp'
        exact hguard i l _ _ hc hl hw h
    constructor
    · rintro ⟨hm, hrest⟩ ns hns
      cases ns with
      | nil => exact hP _ hc
      | cons n ns =>
        obtain ⟨rfl, htl⟩ := List.cons_prefix_cons.mp hns
        exact (ih (hstep.1 hm) hnext htail).mp hrest ns htl
    · intro h
      have hm := hstep.2 (h [m] (by simp))
      refine ⟨hm, (ih (hstep.1 hm) hnext htail).mpr fun ns hns => ?_⟩
      exact h (m :: ns) (List.cons_prefix_cons.mpr ⟨rfl, hns⟩)

theorem Pool.guarded_iff_inv {handle : R → Program S L ε α} {allowed : R → Prop}
    {guard : ι → L → World ι S L → Prop} {I : World ι S L → Prop}
    (hexact : ∀ i l w w', I w → World.Wrote i l w w' → (I w' ↔ guard i l w))
    {c : Pool ι R S L ε α} (hc : I c.world) (ms : List (Move ι R))
    (hms : ∀ i r, Move.start i r ∈ ms → allowed r) :
    c.Guarded handle allowed guard ms ↔ ∀ ns, ns <+: ms → I (c.run handle ns).world := by
  have hwrites : ∀ p : Program S L ε α, p.WritesOnly fun _ => True :=
    Program.writesOnly_of_forall fun _ => trivial
  exact Pool.guarded_iff (fun r => hwrites (handle r))
    (fun i l w w' hw _ hg hwrote => (hexact i l w w' hw hwrote).mpr hg) (fun _ hw => hw)
    (fun i l w w' hw _ hwrote hi => (hexact i l w w' hw hwrote).mp hi) hc
    (fun _ _ p _ => hwrites p) ms hms

/-- The requests of a guarded run are allowed ones. -/
theorem Pool.allowed_run {handle : R → Program S L ε α} {allowed : R → Prop}
    {guard : ι → L → World ι S L → Prop} {pool : Pool ι R S L ε α}
    (hp : ∀ i r p, pool.procs i = some (r, p) → allowed r) {ms : List (Move ι R)}
    (hms : pool.Guarded handle allowed guard ms) :
    ∀ i r p, (pool.run handle ms).procs i = some (r, p) → allowed r := by
  induction ms generalizing pool with
  | nil => exact hp
  | cons m ms ih =>
    refine ih (fun j r p hj => ?_) hms.2
    cases m with
    | start i r' =>
      cases hi : pool.procs i with
      | some q => exact hp j r p (by simpa [Pool.move, hi] using hj)
      | none =>
        by_cases hji : j = i
        · subst hji
          simp only [Pool.move, hi, Function.update_self, Option.some.injEq, Prod.mk.injEq] at hj
          exact hj.1 ▸ hms.1
        · simp only [Pool.move, hi, Function.update_of_ne hji] at hj
          exact hp j r p hj
    | advance i =>
      cases hi : pool.procs i with
      | none => exact hp j r p (by simpa [Pool.move, hi] using hj)
      | some q =>
        by_cases hji : j = i
        · subst hji
          simp only [Pool.move, hi, Function.update_self, Option.some.injEq, Prod.mk.injEq] at hj
          exact hj.1 ▸ hp j q.1 q.2 hi
        · simp only [Pool.move, hi, Function.update_of_ne hji] at hj
          exact hp j r p hj

/-- Where the admitted writes keep `I`, and `I` admits under `guard'` what the programs
write, a run that is guarded by `guard` is guarded by `guard'` too. -/
theorem Pool.Guarded.of_keeps {handle : R → Program S L ε α} {allowed : R → Prop}
    {writes : R → L → Prop} {guard guard' : ι → L → World ι S L → Prop} {I : World ι S L → Prop}
    (hwrites : ∀ r, (handle r).WritesOnly (writes r))
    (hkeeps : ∀ i r l w w', I w → allowed r → writes r l → guard i l w → World.Wrote i l w w' →
      I w')
    (hguard : ∀ i r l w, I w → allowed r → writes r l → guard' i l w)
    {c : Pool ι R S L ε α} (hc : I c.world)
    (hallowed : ∀ i r p, c.procs i = some (r, p) → allowed r)
    (hprocs : ∀ i r p, c.procs i = some (r, p) → p.WritesOnly (writes r)) {ms : List (Move ι R)}
    (hms : c.Guarded handle allowed guard ms) : c.Guarded handle allowed guard' ms := by
  induction ms generalizing c with
  | nil => trivial
  | cons m ms ih =>
    obtain ⟨hm, hrest⟩ := hms
    have hnext : I (c.move handle m).world := by
      rcases c.move_world handle m with hw | ⟨i, r, l, k, rfl, hp, hw⟩
      · rwa [hw]
      · exact hkeeps i r l _ _ hc (hallowed i r _ hp) (hprocs i r _ hp).1 (hm r l k _ hp hw) hw
    have hone : c.Guarded handle allowed guard [m] := ⟨hm, trivial⟩
    refine ⟨?_, ih hnext (Pool.allowed_run hallowed hone)
      (Pool.writesOnly_run hwrites c hprocs [m]) hrest⟩
    cases m with
    | start i r => exact hm
    | advance i =>
      exact fun r l k w' hp _ => hguard i r l c.world hc (hallowed i r _ hp) (hprocs i r _ hp).1

end Steps

/-- An invariant `inv`, a condition `guard` on the scheduled writes, and what
the programs themselves promise about the writes they make. -/
structure Protocol (ι S L : Type) {ε : Type} [Engine S L ε] where
  inv : World ι S L → Prop
  guard : ι → L → World ι S L → Prop
  promise : ι → L → World ι S L → Prop
  inv_step : ∀ i l w w', inv w → guard i l w → promise i l w → World.Wrote i l w w' → inv w'

namespace Protocol

variable [Engine S L ε] (pr : Protocol ι S L)

/-- The assertion survives the writes of every process but `i`. -/
def Stable (i : ι) (P : World ι S L → Prop) : Prop :=
  ∀ j l w w', j ≠ i → P w → pr.inv w → pr.guard j l w → pr.promise j l w →
    World.Wrote j l w w' → P w'

theorem stable_const (i : ι) (c : Prop) : pr.Stable i (fun _ => c) :=
  fun _ _ _ _ _ h _ _ _ _ => h

/-- From worlds with `P`, whatever the other processes do in between, every
write of the program keeps its promise, and an answer `a` satisfies `Q a` from
then on. -/
def Follows (i : ι) (Q : α → World ι S L → Prop) :
    Program S L ε α → (World ι S L → Prop) → Prop
  | .ret a, P => pr.Stable i P ∧ ∀ w, P w → Q a w
  | .fail _, P => pr.Stable i P
  | .read k, P => pr.Stable i P ∧ ∀ w, pr.inv w → P w →
      ∃ P', P' w ∧ Follows i Q (k w.state) P'
  | .write l k, P => pr.Stable i P ∧ ∀ w w', pr.inv w → P w → World.Wrote i l w w' →
      pr.guard i l w → pr.promise i l w ∧ ∃ P', P' w' ∧ Follows i Q (k w.state) P'

variable {pr}

theorem Follows.ret {i : ι} {Q : α → World ι S L → Prop} {a : α} {P : World ι S L → Prop}
    (hs : pr.Stable i P) (hq : ∀ w, P w → Q a w) : pr.Follows i Q (.ret a) P := ⟨hs, hq⟩

theorem Follows.fail {i : ι} {Q : α → World ι S L → Prop} {e : ε} {P : World ι S L → Prop}
    (hs : pr.Stable i P) : pr.Follows i Q (.fail e) P := hs

theorem Follows.stable {i : ι} {Q : α → World ι S L → Prop} {p : Program S L ε α}
    {P : World ι S L → Prop} (h : pr.Follows i Q p P) : pr.Stable i P := by
  cases p with
  | ret a => exact h.1
  | fail e => exact h
  | read k => exact h.1
  | write l k => exact h.1

theorem Follows.weaken {i : ι} {P P' : World ι S L → Prop} {Q : α → World ι S L → Prop}
    {p : Program S L ε α} (hs : pr.Stable i P) (hP : ∀ w, P w → P' w)
    (h : pr.Follows i Q p P') : pr.Follows i Q p P := by
  cases p with
  | ret a => exact ⟨hs, fun w hw => h.2 w (hP w hw)⟩
  | fail e => exact hs
  | read k => exact ⟨hs, fun w hi hw => h.2 w hi (hP w hw)⟩
  | write l k => exact ⟨hs, fun w w' hi hw => h.2 w w' hi (hP w hw)⟩

/-- Sequencing: the second program may start from whatever the first one's
answer guarantees. -/
theorem Follows.bind {i : ι} {Q : α → World ι S L → Prop} {Q' : β → World ι S L → Prop}
    {p : Program S L ε α} {f : α → Program S L ε β} {P : World ι S L → Prop}
    (hp : pr.Follows i Q p P) (hf : ∀ a, pr.Follows i Q' (f a) (Q a)) :
    pr.Follows i Q' (p >>= f) P := by
  induction p generalizing P with
  | ret a => exact (hf a).weaken hp.1 hp.2
  | fail e => exact hp
  | read k ih =>
    refine ⟨hp.1, fun w hi hw => ?_⟩
    obtain ⟨P', hP', hk⟩ := hp.2 w hi hw
    exact ⟨P', hP', ih w.state hk⟩
  | write l k ih =>
    refine ⟨hp.1, fun w w' hi hw hs hg => ?_⟩
    obtain ⟨hpr, P', hP', hk⟩ := hp.2 w w' hi hw hs hg
    exact ⟨hpr, P', hP', ih w.state hk⟩

theorem Follows.readOnly {i : ι} {P : World ι S L → Prop} (hs : pr.Stable i P)
    {p : Program S L ε α} (hp : p.ReadOnly) : pr.Follows i (fun _ => P) p P := by
  induction p with
  | ret a => exact ⟨hs, fun _ hw => hw⟩
  | fail e => exact hs
  | read k ih => exact ⟨hs, fun w _ hw => ⟨P, hw, ih w.state (hp w.state)⟩⟩
  | write l k ih => exact hp.elim

theorem Follows.outcome {i : ι} {Q : α → World ι S L → Prop} {p : Program S L ε α}
    {P : World ι S L → Prop} (hp : p.ReadOnly) (h : pr.Follows i Q p P) :
    pr.Follows i (fun r w => ∀ a, r = .ok a → Q a w) p.outcome P := by
  induction p generalizing P with
  | ret a =>
    refine ⟨h.1, fun w hw b hb => ?_⟩
    cases hb
    exact h.2 w hw
  | fail e => exact ⟨h, fun w _ a ha => by cases ha⟩
  | read k ih =>
    refine ⟨h.1, fun w hi hw => ?_⟩
    obtain ⟨P', hP', hk⟩ := h.2 w hi hw
    exact ⟨P', hP', ih w.state (hp w.state) hk⟩
  | write l k ih => exact hp.elim

theorem Follows.ofExcept_bind {i : ι} {Q : β → World ι S L → Prop} {r : Except ε α}
    {f : α → Program S L ε β} {P : World ι S L → Prop} (hs : pr.Stable i P)
    (h : ∀ a, r = .ok a → pr.Follows i Q (f a) P) :
    pr.Follows i Q (Program.ofExcept r >>= f) P := by
  cases r with
  | ok a => exact h a rfl
  | error e => exact hs

/-- A `SELECT` that always has a row establishes the next assertion. -/
theorem Follows.query {i : ι} {Q : α → World ι S L → Prop} {q : S → α} {P : World ι S L → Prop}
    (hs : pr.Stable i P) (hQ : ∀ a, pr.Stable i (Q a))
    (h : ∀ w, pr.inv w → P w → Q (q w.state) w) : pr.Follows i Q (Program.query q) P :=
  ⟨hs, fun w hi hw => ⟨Q (q w.state), h w hi hw, hQ _, fun _ h => h⟩⟩

theorem Follows.queryRow {i : ι} {Q : α → World ι S L → Prop} {q : S → Option α} {e : ε}
    {P : World ι S L → Prop} (hs : pr.Stable i P) (hQ : ∀ a, pr.Stable i (Q a))
    (h : ∀ w a, pr.inv w → P w → q w.state = some a → Q a w) :
    pr.Follows i Q (Program.queryRow q e) P := by
  refine ⟨hs, fun w hi hw => ?_⟩
  cases hq : q w.state with
  | none => exact ⟨P, hw, by simp only [hq]; exact hs⟩
  | some a => exact ⟨Q a, h w a hi hw hq, by simp only [hq]; exact ⟨hQ a, fun _ h => h⟩⟩

theorem Follows.require_bind {i : ι} {Q : α → World ι S L → Prop} {c : Prop} [Decidable c] {e : ε}
    {f : Unit → Program S L ε α} {P : World ι S L → Prop} (hs : pr.Stable i P)
    (h : c → pr.Follows i Q (f ()) P) : pr.Follows i Q (Program.require c e >>= f) P := by
  unfold Program.require
  split
  · next hc => exact h hc
  · exact hs

theorem Follows.execute {i : ι} {P P' : World ι S L → Prop} {l : L} (hs : pr.Stable i P)
    (hs' : pr.Stable i P') (h : ∀ w w', pr.inv w → P w → World.Wrote i l w w' →
      pr.guard i l w → pr.promise i l w ∧ P' w') :
    pr.Follows i (fun _ => P') (Program.execute l) P := by
  refine ⟨hs, fun w w' hi hw hr hg => ?_⟩
  obtain ⟨hp, hw'⟩ := h w w' hi hw hr hg
  exact ⟨hp, P', hw', hs', fun _ h => h⟩

theorem Follows.executeReturning {i : ι} {P : World ι S L → Prop}
    {Q : α → World ι S L → Prop} {l : L} {q : S → α} (hs : pr.Stable i P)
    (hQ : ∀ a, pr.Stable i (Q a)) (h : ∀ w w', pr.inv w → P w → World.Wrote i l w w' →
      pr.guard i l w → pr.promise i l w ∧ Q (q w.state) w') :
    pr.Follows i Q (Program.executeReturning l q) P := by
  refine ⟨hs, fun w w' hi hw hr hg => ?_⟩
  obtain ⟨hp, hw'⟩ := h w w' hi hw hr hg
  exact ⟨hp, Q (q w.state), hw', hQ _, fun _ h => h⟩

theorem Follows.of_writesOnly {i : ι} {c : L → Prop} {p : Program S L ε α}
    (hc : ∀ l w, c l → pr.promise i l w) (hp : p.WritesOnly c) :
    pr.Follows i (fun _ _ => True) p (fun _ => True) := by
  induction p with
  | ret a => exact ⟨pr.stable_const i True, fun _ _ => trivial⟩
  | fail e => exact pr.stable_const i True
  | read k ih =>
    exact ⟨pr.stable_const i True, fun w _ _ => ⟨fun _ => True, trivial, ih _ (hp _)⟩⟩
  | write l k ih =>
    exact ⟨pr.stable_const i True, fun w w' _ _ _ _ =>
      ⟨hc l w hp.1, fun _ => True, trivial, ih _ (hp.2 _)⟩⟩

variable (pr)

/-- Every process of the pool is at a point from which it follows `pr`. -/
def Running (Q : R → ι → α → World ι S L → Prop) (c : Pool ι R S L ε α) : Prop :=
  pr.inv c.world ∧
    ∀ i r p, c.procs i = some (r, p) → ∃ P, P c.world ∧ pr.Follows i (Q r i) p P

variable {pr}

theorem running_idle {Q : R → ι → α → World ι S L → Prop} {s : S} (h : pr.inv ⟨s, []⟩) :
    pr.Running Q (Pool.idle s) :=
  ⟨h, fun i r p hp => by simp [Pool.idle] at hp⟩

theorem follows_advance {i : ι} {Q : α → World ι S L → Prop} {p : Program S L ε α}
    {P : World ι S L → Prop} {w : World ι S L} (hi : pr.inv w) (hP : P w)
    (hp : pr.Follows i Q p P)
    (hg : ∀ l k w', p = .write l k → World.Wrote i l w w' → pr.guard i l w) :
    (∃ P', P' (p.advance i w).1 ∧ pr.Follows i Q (p.advance i w).2 P') ∧
      ((p.advance i w).1 = w ∨ ∃ l, pr.guard i l w ∧ pr.promise i l w ∧
        World.Wrote i l w (p.advance i w).1) := by
  cases p with
  | ret a => exact ⟨⟨P, hP, hp⟩, .inl rfl⟩
  | fail e => exact ⟨⟨P, hP, hp⟩, .inl rfl⟩
  | read k => exact ⟨hp.2 w hi hP, .inl rfl⟩
  | write l k =>
    cases hr : (Engine.run l w.state : Except ε S) with
    | error e =>
      rw [Program.advance, hr]
      exact ⟨⟨P, hP, hp.stable⟩, .inl rfl⟩
    | ok s =>
      have hw : World.Wrote i l w ⟨s, ⟨i, l, w.state⟩ :: w.history⟩ := ⟨hr, rfl⟩
      have hgw := hg l k _ rfl hw
      obtain ⟨hpr, hk⟩ := hp.2 w _ hi hP hw hgw
      simp only [Program.advance, hr]
      exact ⟨hk, .inr ⟨l, hgw, hpr, hw⟩⟩

variable [DecidableEq ι] {handle : R → Program S L ε α} {allowed : R → Prop}

theorem running_move {Q : R → ι → α → World ι S L → Prop} {c : Pool ι R S L ε α}
    {m : Move ι R}
    (hstart : ∀ i r, allowed r → pr.Follows i (Q r i) (handle r) (fun _ => True))
    (hc : pr.Running Q c) (hm : c.Admits allowed pr.guard m) :
    pr.Running Q (c.move handle m) := by
  obtain ⟨hi, hps⟩ := hc
  cases m with
  | start i r =>
    cases hp : c.procs i with
    | some q => simpa [Pool.move, hp] using ⟨hi, hps⟩
    | none =>
      simp only [Pool.move, hp]
      refine ⟨hi, fun j r' p' hj => ?_⟩
      by_cases hji : j = i
      · subst hji
        simp only [Function.update_self, Option.some.injEq, Prod.mk.injEq] at hj
        obtain ⟨rfl, rfl⟩ := hj
        exact ⟨fun _ => True, trivial, hstart j r hm⟩
      · simp only [Function.update_of_ne hji] at hj
        exact hps j r' p' hj
  | advance i =>
    cases hp : c.procs i with
    | none => simpa [Pool.move, hp] using ⟨hi, hps⟩
    | some q =>
      obtain ⟨r, p⟩ := q
      obtain ⟨P, hP, hf⟩ := hps i r p hp
      have hstep := follows_advance hi hP hf (fun l k w' hl hw => hm r l k w' (hl ▸ hp) hw)
      simp only [Pool.move, hp]
      obtain ⟨hnext, hworld⟩ := hstep
      have hinv : pr.inv (p.advance i c.world).1 := by
        rcases hworld with hw | ⟨l, hgl, hpl, hw⟩
        · rw [hw]; exact hi
        · exact pr.inv_step i l _ _ hi hgl hpl hw
      refine ⟨hinv, fun j r' p' hj => ?_⟩
      by_cases hji : j = i
      · subst hji
        simp only [Function.update_self, Option.some.injEq, Prod.mk.injEq] at hj
        obtain ⟨rfl, rfl⟩ := hj
        exact hnext
      · simp only [Function.update_of_ne hji] at hj
        obtain ⟨P', hP', hf'⟩ := hps j r' p' hj
        refine ⟨P', ?_, hf'⟩
        rcases hworld with hw | ⟨l, hgl, hpl, hw⟩
        · rw [hw]; exact hP'
        · exact hf'.stable i l _ _ (Ne.symm hji) hP' hi hgl hpl hw

theorem running_run {Q : R → ι → α → World ι S L → Prop} {c : Pool ι R S L ε α}
    {ms : List (Move ι R)}
    (hstart : ∀ i r, allowed r → pr.Follows i (Q r i) (handle r) (fun _ => True))
    (hc : pr.Running Q c) (hms : c.Guarded handle allowed pr.guard ms) :
    pr.Running Q (c.run handle ms) := by
  induction ms generalizing c with
  | nil => exact hc
  | cons m ms ih => exact ih (running_move hstart hc hms.1) hms.2

theorem inv_of_guarded {I : World ι S L → Prop} {guard : ι → L → World ι S L → Prop}
    (h : ∀ i l w w', I w → guard i l w → World.Wrote i l w w' → I w')
    {c : Pool ι R S L ε α} (hc : I c.world) {ms : List (Move ι R)}
    (hms : c.Guarded handle allowed guard ms) : I (c.run handle ms).world := by
  induction ms generalizing c with
  | nil => exact hc
  | cons m ms ih =>
    refine ih ?_ hms.2
    rcases c.move_world handle m with hw | ⟨i, r, l, k, rfl, hp, hw⟩
    · rw [hw]; exact hc
    · exact h i l _ _ hc (hms.1 r l k _ hp hw) hw

theorem inv_run {I : World ι S L → Prop}
    (h : ∀ i l w w', I w → World.Wrote i l w w' → I w')
    {c : Pool ι R S L ε α} (hc : I c.world) (ms : List (Move ι R)) :
    I (c.run handle ms).world := by
  have hms : c.Guarded handle (fun _ => True) (fun _ _ _ => True) ms :=
    Pool.guarded_of_forall (fun _ => trivial) (fun _ _ _ => trivial) c ms
  exact inv_of_guarded (fun i l w w' hi _ hw => h i l w w' hi hw) hc hms

end Protocol

end Cinder.Programs
