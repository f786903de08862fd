import Cinder.Ecma.TextEdits
set_option autoImplicit false

namespace Cinder.Ecma

def Reading.after (r : Reading) (b : List Char) : Reading := { r with before := r.before ++ b }

theorem Reading.between_after (r r' : Reading) (b : List Char) :
    (r.after b).between (r'.after b) = r.between r' := by
  have hlength : (r'.before ++ b).length-(r.before ++ b).length =
      r'.before.length-r.before.length := by
    rw [List.length_append, List.length_append]
    omega
  rw [between, after, after, hlength, List.take_append_of_le_length (Nat.sub_le _ _), between]

theorem atBoundary_after {b : List Char} (hb : b.head?.any isWordChar = false) (r : Reading) :
    atBoundary (r.after b) = atBoundary r := by
  obtain ⟨before, rest, groups⟩ := r
  cases before with
  | nil => simp [atBoundary, Reading.after, hb]
  | cons c before => rfl

namespace Pattern

def floating : Pattern → Bool
  | seq a b | alt a b => a.floating && b.floating
  | group _ a => a.floating
  | start => false
  | _ => true

theorem run_after {a : Pattern} (ha : a.floating = true) {b : List Char}
    (hb : b.head?.any isWordChar = false) (r : Reading) :
    a.run (r.after b) = (a.run r).map (·.after b) := by
  induction a generalizing r with
  | empty => rfl
  | char p =>
    obtain ⟨before, rest, groups⟩ := r
    cases rest with
    | nil => rfl
    | cons c s =>
      simp only [run, Reading.after]
      split <;> rfl
  | seq x y ihx ihy =>
    rw [floating, Bool.and_eq_true] at ha
    simp only [run, ihx ha.1, List.flatMap_map, List.map_flatMap, ihy ha.2]
  | alt x y ihx ihy =>
    rw [floating, Bool.and_eq_true] at ha
    simp only [run, ihx ha.1, ihy ha.2, List.map_append]
  | star greedy p =>
    have hways : (splits p r.rest).map (fun q =>
        ({ r.after b with before := q.1.reverse ++ (r.after b).before, rest := q.2 } : Reading)) =
          ((splits p r.rest).map fun q =>
            { r with before := q.1.reverse ++ r.before, rest := q.2 }).map (·.after b) := by
      rw [List.map_map]
      refine List.map_congr_left fun q _ => ?_
      simp [Reading.after]
    simp only [run]
    cases greedy with
    | false => exact hways
    | true => exact (congrArg List.reverse hways).trans List.map_reverse.symm
  | group n x ih =>
    simp only [run, ih ha, List.map_map]
    refine List.map_congr_left fun r' _ => ?_
    simp only [Function.comp_apply, Reading.between_after]
    rfl
  | start => cases ha
  | stop =>
    by_cases hrest : r.rest = []
    · simp [run, Reading.after, hrest]
    · simp [run, Reading.after, hrest]
  | boundary =>
    rw [run, run, atBoundary_after hb]
    split <;> rfl

variable {a : Pattern} {b : List Char}

theorem head?_run_after (ha : a.floating = true) (hb : b.head?.any isWordChar = false)
    (before s : List Char) :
    (a.run ⟨before ++ b, s, []⟩).head? = ((a.run ⟨before, s, []⟩).head?).map (·.after b) := by
  rw [← List.head?_map, ← run_after ha hb]
  rfl

theorem execFrom_after (ha : a.floating = true) (hb : b.head?.any isWordChar = false)
    (before s : List Char) :
    a.execFrom (before ++ b) s = (a.execFrom before s).map (·.after b) := by
  induction s generalizing before with
  | nil => exact head?_run_after ha hb before []
  | cons c s ih =>
    have hnext := ih (c :: before)
    rw [List.cons_append] at hnext
    rw [execFrom, execFrom, head?_run_after ha hb, hnext]
    cases (a.run ⟨before, c :: s, []⟩).head? <;> rfl

theorem matchesFrom_after (ha : a.floating = true) (hb : b.head?.any isWordChar = false)
    (skip : ℕ) (before s : List Char) :
    matchesFrom a skip (before ++ b) s = (matchesFrom a skip before s).map (·.after b) := by
  induction s generalizing skip before with
  | nil => cases skip <;> rfl
  | cons c s ih =>
    cases skip with
    | succ skip => exact ih skip (c :: before)
    | zero =>
      rw [matchesFrom, matchesFrom, head?_run_after ha hb]
      cases (a.run ⟨before, c :: s, []⟩).head? with
      | none => exact ih 0 (c :: before)
      | some r =>
        have hskip : (r.after b).before.length-((before ++ b).length+1) =
            r.before.length-(before.length+1) := by
          rw [Reading.after, List.length_append, List.length_append]
          omega
        simp only [Option.map_some, hskip, List.map_cons]
        exact congrArg (r.after b :: ·) (ih _ (c :: before))

/-- What may be left of a text that goes on behind `k`, if a match ends before that. -/
def rests : Pattern → List Char → Option (List (List Char))
  | empty, k => some [k]
  | char _, [] => none
  | char p, c :: k => some (if p c then [k] else [])
  | seq x y, k => (x.rests k).bind fun ks => (ks.mapM y.rests).map List.flatten
  | alt x y, k => (x.rests k).bind fun ks => (y.rests k).map (ks ++ ·)
  | star _ p, k => if k.all p then none else some ((splits p k).map (·.2))
  | group _ x, k => x.rests k
  | start, k => some [k]
  | stop, [] => none
  | stop, _ :: _ => some []
  | boundary, k => some [k]

theorem splits_known {p : Char → Bool} {k : List Char} (hk : k.all p = false) (s : List Char) :
    splits p (k ++ s) = (splits p k).map fun q => (q.1, q.2 ++ s) := by
  induction k with
  | nil => cases hk
  | cons c k ih =>
    rw [List.cons_append, splits, splits]
    cases hc : p c with
    | false => simp
    | true =>
      rw [List.all_cons, hc, Bool.true_and] at hk
      simp [ih hk]

theorem mem_mapM_flatten {f : List Char → Option (List (List Char))} {ks : List (List Char)}
    {out : List (List (List Char))} (h : ks.mapM f = some out) {k : List Char} (hk : k ∈ ks) :
    ∃ l, f k = some l ∧ l ⊆ out.flatten := by
  induction ks generalizing out with
  | nil => cases hk
  | cons j ks ih =>
    rw [List.mapM_cons] at h
    obtain ⟨l, hl, h⟩ := Option.bind_eq_some_iff.mp h
    obtain ⟨out', hout', h⟩ := Option.bind_eq_some_iff.mp h
    cases h
    rcases List.mem_cons.mp hk with rfl | hk
    · exact ⟨l, hl, fun x hx => by simp [hx]⟩
    · obtain ⟨l', hl', hsub⟩ := ih hout' hk
      exact ⟨l', hl', fun x hx => by simpa using Or.inr (List.mem_flatten.mp (hsub hx))⟩

theorem rests_sound {a : Pattern} {k s : List Char} {ks : List (List Char)} {r r' : Reading}
    (h : a.rests k = some ks) (hr : r.rest = k ++ s) (hrun : r' ∈ a.run r) :
    ∃ k' ∈ ks, r'.rest = k' ++ s := by
  induction a generalizing k ks r r' with
  | empty =>
    cases h
    rw [List.mem_singleton.mp hrun]
    exact ⟨k, List.mem_singleton_self k, hr⟩
  | char p =>
    cases k with
    | nil => cases h
    | cons c k =>
      cases h
      rw [run, hr] at hrun
      simp only [List.cons_append] at hrun
      split at hrun
      · next hc =>
        rw [List.mem_singleton.mp hrun, if_pos hc]
        exact ⟨k, List.mem_singleton_self k, rfl⟩
      · cases hrun
  | seq x y ihx ihy =>
    obtain ⟨ks₁, hx, h⟩ := Option.bind_eq_some_iff.mp h
    obtain ⟨out, hout, rfl⟩ := Option.map_eq_some_iff.mp h
    obtain ⟨r₁, hr₁, hr'⟩ := List.mem_flatMap.mp hrun
    obtain ⟨k₁, hk₁, hrest₁⟩ := ihx hx hr hr₁
    obtain ⟨l, hl, hsub⟩ := mem_mapM_flatten hout hk₁
    obtain ⟨k', hk', hrest'⟩ := ihy hl hrest₁ hr'
    exact ⟨k', hsub hk', hrest'⟩
  | alt x y ihx ihy =>
    obtain ⟨ks₁, hx, h⟩ := Option.bind_eq_some_iff.mp h
    obtain ⟨ks₂, hy, rfl⟩ := Option.map_eq_some_iff.mp h
    rcases List.mem_append.mp hrun with hrun | hrun
    · obtain ⟨k', hk', hrest⟩ := ihx hx hr hrun
      exact ⟨k', List.mem_append_left ks₂ hk', hrest⟩
    · obtain ⟨k', hk', hrest⟩ := ihy hy hr hrun
      exact ⟨k', List.mem_append_right ks₁ hk', hrest⟩
  | star greedy p =>
    rw [rests] at h
    split at h
    · cases h
    · next hall =>
      cases h
      obtain ⟨q, hq, rfl⟩ : ∃ q ∈ splits p r.rest,
          ({ r with before := q.1.reverse ++ r.before, rest := q.2 } : Reading) = r' := by
        rw [run] at hrun
        cases greedy <;> simpa using hrun
      rw [hr, splits_known (by simpa using hall)] at hq
      obtain ⟨q', hq', rfl⟩ := List.mem_map.mp hq
      exact ⟨q'.2, List.mem_map.mpr ⟨q', hq', rfl⟩, rfl⟩
  | group n x ih =>
    obtain ⟨r₁, hr₁, rfl⟩ := List.mem_map.mp hrun
    obtain ⟨k', hk', hrest⟩ := ih h hr hr₁
    exact ⟨k', hk', hrest⟩
  | start =>
    cases h
    rw [run] at hrun
    split at hrun
    · rw [List.mem_singleton.mp hrun]
      exact ⟨k, List.mem_singleton_self k, hr⟩
    · cases hrun
  | stop =>
    cases k with
    | nil => cases h
    | cons c k =>
      rw [run, hr, if_neg (by simp)] at hrun
      cases hrun
  | boundary =>
    cases h
    rw [run] at hrun
    split at hrun
    · rw [List.mem_singleton.mp hrun]
      exact ⟨k, List.mem_singleton_self k, hr⟩
    · cases hrun

def fails (a : Pattern) : List Char → Bool
  | [] => true
  | c :: u => decide (a.rests (c :: u) = some []) && a.fails u

theorem run_eq_nil_of_rests {k : List Char} (h : a.rests k = some []) (before s : List Char) :
    a.run ⟨before, k ++ s, []⟩ = [] := by
  rw [List.eq_nil_iff_forall_not_mem]
  intro r hr
  obtain ⟨k', hk', -⟩ := rests_sound h rfl hr
  cases hk'

theorem execFrom_append {u : List Char} (h : a.fails u = true) (before s : List Char) :
    a.execFrom before (u ++ s) = a.execFrom (u.reverse ++ before) s := by
  induction u generalizing before with
  | nil => rfl
  | cons c u ih =>
    rw [fails, Bool.and_eq_true, decide_eq_true_eq] at h
    have hnone := run_eq_nil_of_rests h.1 before s
    rw [List.cons_append] at hnone
    rw [List.cons_append, execFrom, hnone, ih h.2]
    simp

theorem matchesFrom_append {u : List Char} (h : a.fails u = true) (before s : List Char) :
    matchesFrom a 0 before (u ++ s) = matchesFrom a 0 (u.reverse ++ before) s := by
  induction u generalizing before with
  | nil => rfl
  | cons c u ih =>
    rw [fails, Bool.and_eq_true, decide_eq_true_eq] at h
    have hnone := run_eq_nil_of_rests h.1 before s
    rw [List.cons_append] at hnone
    rw [List.cons_append, matchesFrom, hnone]
    simpa using ih h.2 (c :: before)

theorem test_append (ha : a.floating = true) {u : List Char} (hfails : a.fails u = true)
    (hend : u.reverse.head?.any isWordChar = false) (s : List Char) :
    a.test (u ++ s) = a.test s := by
  have hafter := execFrom_after ha hend [] s
  rw [test, test, exec, execFrom_append hfails, exec, List.append_nil]
  rw [List.nil_append] at hafter
  rw [hafter, Option.isSome_map]

def Passes (a : Pattern) : List Char → List Char → Prop
  | [], _ => True
  | c :: u, s => (∀ before, a.run ⟨before, c :: (u ++ s), []⟩ = []) ∧ a.Passes u s

theorem passes_append {u v s : List Char} :
    a.Passes (u ++ v) s ↔ a.Passes u (v ++ s) ∧ a.Passes v s := by
  induction u with
  | nil => simp [Passes]
  | cons c u ih => simp [Passes, ih, and_assoc]

theorem Passes.of_fails {u : List Char} (h : a.fails u = true) (s : List Char) :
    a.Passes u s := by
  induction u with
  | nil => trivial
  | cons c u ih =>
    rw [fails, Bool.and_eq_true, decide_eq_true_eq] at h
    exact ⟨fun before => run_eq_nil_of_rests h.1 before s, ih h.2⟩

theorem execFrom_of_passes {u s : List Char} (h : a.Passes u s) (before : List Char) :
    a.execFrom before (u ++ s) = a.execFrom (u.reverse ++ before) s := by
  induction u generalizing before with
  | nil => rfl
  | cons c u ih =>
    rw [List.cons_append, execFrom, h.1, ih h.2]
    simp

theorem test_of_way {b t u : List Char} {g : List (Nat × List Char)}
    (h : a.Way b.reverse t u g) : a.test (b ++ (t ++ u)) = true := by
  have hfrom (before b : List Char) (hway : a.Way (b.reverse ++ before) t u g) :
      (a.execFrom before (b ++ (t ++ u))).isSome = true := by
    induction b generalizing before with
    | nil =>
      have hmem : (⟨t.reverse ++ before, u, g ++ []⟩ : Reading) ∈ a.run ⟨before, t ++ u, []⟩ :=
        mem_run_iff.mpr ⟨t, g, rfl, rfl, rfl, hway⟩
      have hsome := List.isSome_head?.mpr (List.ne_nil_of_mem hmem)
      rw [List.nil_append]
      cases hs : t ++ u with
      | nil => rwa [execFrom, ← hs]
      | cons c s => rw [execFrom, ← hs, Option.isSome_or, hsome, Bool.true_or]
    | cons c b ih =>
      rw [List.cons_append, execFrom, Option.isSome_or, Bool.or_eq_true]
      refine .inr (ih _ ?_)
      rwa [List.reverse_cons, List.append_assoc] at hway
  exact hfrom [] b (by rwa [List.append_nil])

end Pattern

end Cinder.Ecma
