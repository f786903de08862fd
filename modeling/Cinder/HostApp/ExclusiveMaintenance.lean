import Cinder.HostApp.FailedSettings
import Cinder.HostApp.ServerTasks
set_option autoImplicit false

/-!
Maintenance excludes itself, and it excludes the server whose handle is stored.
A task whose handle `stop_server` has taken is not seen any more.
-/

namespace Cinder.HostApp
open Cinder.Host Cinder.Programs

def flags (s : HostState) : Bool × Bool := (s.maintenance, s.serverRunning)

section Guards
variable {env : Surroundings} {token : String} {s s' : HostState}

theorem lock_keeps (time : Nat) : (env.inner (.lock time) : AdminCommand Unit).Keeps flags :=
  .attempt _

theorem session_keeps : (requireSession env 0 token).Keeps flags :=
  requireSession_keeps env 0 token fun _ _ => rfl

theorem outsideMaintenance_keeps (message : String) :
    (outsideMaintenance env token message).Keeps flags :=
  .bind (lock_keeps 0) fun _ => .bind session_keeps fun _ => .bind .get fun _ =>
    .bind (.require _ _) fun _ => .pure _

theorem outsideMaintenance_ok {message : String} {t : HostState}
    (h : outsideMaintenance env token message s = (.ok t, s')) :
    t = s' ∧ flags s' = flags s ∧ s.maintenance = false := by
  have hkeeps : (outsideMaintenance env token message).Keeps flags :=
    outsideMaintenance_keeps message
  have hkept := hkeeps s
  rw [h] at hkept
  rcases (lock_keeps 0).bind_cases h with ⟨e, hr, -⟩ | ⟨_, t₁, -, ht₁, h⟩
  · cases hr
  rcases session_keeps.bind_cases h with ⟨e, hr, -⟩ | ⟨_, t₂, -, ht₂, h⟩
  · cases hr
  rw [Command.bind_ok (Command.get_run t₂)] at h
  rcases Command.require_bind_cases h with ⟨hr, -⟩ | ⟨hfree, h⟩
  · cases hr
  cases h
  exact ⟨rfl, hkept, (congrArg Prod.fst hkept).symm.trans hfree⟩

theorem holdMaintenance_cases {r : Except String HostConfig} (h : holdMaintenance s = (r, s')) :
    (∃ e, r = .error e ∧ s'.maintenance = s.maintenance) ∨
      ∃ config, r = .ok config ∧ s'.maintenance = true := by
  rcases takeConfig_keeps.bind_cases h with ⟨e, hr, hsame⟩ | ⟨config, v, -, hv, h⟩
  · exact .inl ⟨e, hr, hsame⟩
  cases h
  exact .inr ⟨config, rfl, rfl⟩

theorem enterMaintenance_cases {r : Except String HostConfig}
    (h : enterMaintenance env token s = (r, s')) :
    (∃ e, r = .error e ∧ s'.maintenance = s.maintenance) ∨
      ∃ config, r = .ok config ∧ s.maintenance = false ∧ s.serverRunning = false ∧
        s'.maintenance = true := by
  rcases (outsideMaintenance_keeps _).bind_cases h with ⟨e, hr, hsame⟩ | ⟨t, u, hok, hsame, h⟩
  · exact .inl ⟨e, hr, congrArg Prod.fst hsame⟩
  obtain ⟨rfl, -, hfree⟩ := outsideMaintenance_ok hok
  rcases Command.require_bind_cases h with ⟨hr, rfl⟩ | ⟨hstopped, h⟩
  · exact .inl ⟨_, hr, congrArg Prod.fst hsame⟩
  rcases holdMaintenance_cases h with ⟨e, hr, hkept⟩ | ⟨config, hr, hheld⟩
  · exact .inl ⟨e, hr, hkept.trans (congrArg Prod.fst hsame)⟩
  · exact .inr ⟨config, hr, hfree, (congrArg Prod.snd hsame).symm.trans hstopped, hheld⟩

theorem enterBackup_cases {r : Except String HostConfig}
    (h : enterBackup env token s = (r, s')) :
    (∃ e, r = .error e ∧ s'.maintenance = s.maintenance) ∨
      ∃ config, r = .ok config ∧ s.maintenance = false ∧ s'.maintenance = true := by
  rcases (outsideMaintenance_keeps _).bind_cases h with ⟨e, hr, hsame⟩ | ⟨t, u, hok, hsame, h⟩
  · exact .inl ⟨e, hr, congrArg Prod.fst hsame⟩
  obtain ⟨rfl, -, hfree⟩ := outsideMaintenance_ok hok
  rcases holdMaintenance_cases h with ⟨e, hr, hkept⟩ | ⟨config, hr, hheld⟩
  · exact .inl ⟨e, hr, hkept.trans (congrArg Prod.fst hsame)⟩
  · exact .inr ⟨config, hr, hfree, hheld⟩

theorem enterScheduled_cases {r : Except String (Option HostConfig)}
    (h : enterScheduled env s = (r, s')) :
    ((∀ config, r ≠ .ok (some config)) ∧ s'.maintenance = s.maintenance) ∨
      ∃ config, r = .ok (some config) ∧ s.maintenance = false ∧ s'.maintenance = true := by
  rcases (lock_keeps 0).bind_cases h with ⟨e, rfl, hsame⟩ | ⟨_, t, -, ht, h⟩
  · exact .inl ⟨fun _ hr => (by cases hr), congrArg Prod.fst hsame⟩
  have hts : t.maintenance = s.maintenance := congrArg Prod.fst ht
  rw [Command.bind_ok (Command.get_run t)] at h
  cases hconfig : t.config with
  | none =>
    rw [hconfig] at h
    cases h
    exact .inl ⟨fun _ hr => (by cases hr), hts⟩
  | some config =>
    rw [hconfig] at h
    dsimp only at h
    split at h
    · cases h
      exact .inl ⟨fun _ hr => (by cases hr), hts⟩
    · next hdue =>
      cases h
      rw [not_or, Bool.not_eq_true] at hdue
      exact .inr ⟨config, rfl, hts.symm.trans hdue.1, rfl⟩

/-- How an operation begins: it takes the flag, or it does not run. -/
inductive Entered (operation : Operation) (s : HostState) :
    Except String (Option HostConfig) → HostState → Prop where
  | runs {config : HostConfig} {s' : HostState} (free : s.maintenance = false)
      (held : s'.maintenance = true)
      (stopped : operation.excludesServer = true → s.serverRunning = false) :
      Entered operation s (.ok (some config)) s'
  | refused {r : Except String (Option HostConfig)} {s' : HostState}
      (refuses : ∀ config, r ≠ .ok (some config)) (same : s'.maintenance = s.maintenance) :
      Entered operation s r s'

theorem bind_some_cases {α : Type} {p : AdminCommand α} {r : Except String (Option α)}
    (h : (p >>= fun a => pure (some a)) s = (r, s')) :
    ∃ r', p s = (r', s') ∧ r = r'.map some := by
  rw [Command.bind_run] at h
  rcases hp : p s with ⟨_ | a, t⟩ <;> rw [hp] at h <;> cases h
  · exact ⟨_, rfl, rfl⟩
  · exact ⟨_, rfl, rfl⟩

theorem enter_entered {operation : Operation} {r : Except String (Option HostConfig)}
    (h : operation.enter env token s = (r, s')) : Entered operation s r s' := by
  cases operation with
  | restoreSchool | resetSchool | saveSettings =>
    obtain ⟨r', hp, rfl⟩ := bind_some_cases h
    rcases enterMaintenance_cases hp with ⟨e, rfl, hsame⟩ | ⟨config, rfl, hfree, hstopped, hheld⟩
    · exact .refused (fun _ hr => (by cases hr)) hsame
    · exact .runs hfree hheld fun _ => hstopped
  | backupSchool =>
    obtain ⟨r', hp, rfl⟩ := bind_some_cases h
    rcases enterBackup_cases hp with ⟨e, rfl, hsame⟩ | ⟨config, rfl, hfree, hheld⟩
    · exact .refused (fun _ hr => (by cases hr)) hsame
    · exact .runs hfree hheld fun hex => by cases hex
  | scheduledBackup =>
    rcases enterScheduled_cases h with ⟨hrefused, hsame⟩ | ⟨config, rfl, hfree, hheld⟩
    · exact .refused hrefused hsame
    · exact .runs hfree hheld fun hex => by cases hex

theorem startServer_cases {fails : StartStep → Option String} {r : Except String Bool}
    (h : startServer env fails token s = (r, s')) :
    s'.maintenance = s.maintenance ∧ (r = .ok true → s.maintenance = false) := by
  rcases (outsideMaintenance_keeps _).bind_cases h with ⟨e, hr, hsame⟩ | ⟨t, u, hok, hsame, h⟩
  · exact ⟨congrArg Prod.fst hsame, fun hspawned => by rw [hr] at hspawned; cases hspawned⟩
  obtain ⟨rfl, -, hfree⟩ := outsideMaintenance_ok hok
  refine ⟨?_, fun _ => hfree⟩
  have hrest : ∀ running : Bool, (if running then pure false else do
      Command.attempt (fails .openState)
      Command.attempt (fails .preparePin)
      Command.attempt (fails .tlsIdentity)
      Command.attempt (fails .bind)
      pure true : AdminCommand Bool).Keeps flags := fun running => by
    cases running
    · exact .bind (.attempt _) fun _ => .bind (.attempt _) fun _ => .bind (.attempt _) fun _ =>
        .bind (.attempt _) fun _ => .pure _
    · exact .pure _
  have hkept := (takeConfig_keeps.bind fun _ => hrest t.serverRunning) t
  rw [h] at hkept
  exact congrArg Prod.fst (hkept.trans hsame)

theorem enterStop_cases {r : Except String HostState} (h : enterStop env token s = (r, s')) :
    s'.maintenance = s.maintenance ∧ (∀ t, r = .ok t → s.maintenance = false) := by
  have hkeeps : (enterStop env token).Keeps flags := outsideMaintenance_keeps _
  have hkept := hkeeps s
  rw [h] at hkept
  refine ⟨congrArg Prod.fst hkept, fun t hr => ?_⟩
  subst hr
  exact (outsideMaintenance_ok h).2.2

end Guards

section Moves
variable {ι : Type} {w w' : Serving ι}

def Serving.Works (w : Serving ι) (i : ι) (operation : Operation) : Prop :=
  w.procs i = some (.working operation)

instance (w : Serving ι) (i : ι) (operation : Operation) : Decidable (w.Works i operation) :=
  inferInstanceAs (Decidable (_ = _))

/-- The flag is held while an operation runs, and by one operation. -/
structure FlagHeld (w : Serving ι) : Prop where
  held : ∀ i operation, w.Works i operation → w.maintenance = true
  alone : ∀ i j operation operation', w.Works i operation → w.Works j operation' → i = j

def ServerExcluded (w : Serving ι) : Prop :=
  ∀ i operation, w.Works i operation → operation.excludesServer = true →
    ∀ task, task < w.spawned → w.finished task = true

structure MaintenanceExcludes (w : Serving ι) : Prop where
  server : ServerExcluded w
  alone : ∀ i j operation operation', w.Works i operation → w.Works j operation' → i = j

def Operation.runs (operation : Operation) (env : Surroundings) (token : String)
    (s : HostState) : Bool :=
  match (operation.enter env token s).1 with
  | .ok (some _) => true
  | _ => false

/-- An operation that excludes the server is let through only when every task has
finished whose handle was taken. -/
def AfterStops (w : Serving ι) : ServingMove ι → Prop
  | .begin i operation env token => w.procs i = none → operation.excludesServer = true →
      operation.runs env token w.inner = true →
      ∀ task, task < w.spawned → w.server ≠ some task → w.finished task = true
  | _ => True

instance decidableAfterStops (w : Serving ι) (m : ServingMove ι) :
    Decidable (AfterStops w m) :=
  match m with
  | .begin i operation env token => inferInstanceAs (Decidable (w.procs i = none →
      operation.excludesServer = true → operation.runs env token w.inner = true →
      ∀ task, task < w.spawned → w.server ≠ some task → w.finished task = true))
  | .finish _ _ | .start _ _ _ | .stop _ _ _ | .awaited _ | .taskEnds _ | .settle _ _ _ =>
    .isTrue trivial

theorem FlagHeld.not_works (h : FlagHeld w) (hfree : w.maintenance = false) {i : ι}
    {operation : Operation} : ¬w.Works i operation := fun hi => by
  have hheld := h.held i operation hi
  rw [hfree] at hheld
  cases hheld

theorem Operation.runs_ok {operation : Operation} {env : Surroundings} {token : String}
    {s : HostState} (h : operation.runs env token s = true) :
    ∃ config s', operation.enter env token s = (.ok (some config), s') := by
  unfold Operation.runs at h
  split at h
  · next hr => exact ⟨_, _, Prod.ext hr rfl⟩
  · cases h

theorem flagHeld_opened (config : Option HostConfig) :
    FlagHeld (Serving.opened config : Serving ι) :=
  ⟨fun _ _ h => (by cases h), fun _ _ _ _ h => (by cases h)⟩

variable [DecidableEq ι]

/-- What a move does to the operations in progress and to the tasks. -/
inductive Moved (w : Serving ι) : ServingMove ι → Serving ι → Prop where
  | begins {i : ι} {operation : Operation} {env : Surroundings} {token : String}
      {w' : Serving ι} (idle : w.procs i = none) (runs : operation.runs env token w.inner = true)
      (free : w.maintenance = false)
      (stopped : operation.excludesServer = true → w.inner.serverRunning = false)
      (held : w'.maintenance = true)
      (procs : w'.procs = Function.update w.procs i (some (.working operation)))
      (spawned : w'.spawned = w.spawned) (finished : w'.finished = w.finished) :
      Moved w (.begin i operation env token) w'
  | other {m : ServingMove ι} {w' : Serving ι}
      (works : ∀ i operation, w'.Works i operation → w.Works i operation)
      (held : ∀ i operation, w'.Works i operation → w'.maintenance = w.maintenance)
      (spawned : w'.spawned = w.spawned ∨ w.maintenance = false)
      (finished : ∀ task, w.finished task = true → w'.finished task = true) : Moved w m w'

theorem works_setProc {i j : ι} {phase : Option Phase} {operation : Operation}
    (h : (w.setProc i phase).Works j operation) :
    (j = i ∧ phase = some (.working operation)) ∨ (j ≠ i ∧ w.Works j operation) := by
  change Function.update w.procs i phase j = _ at h
  by_cases hji : j = i
  · subst hji
    rw [Function.update_self] at h
    exact .inl ⟨rfl, h⟩
  · rw [Function.update_of_ne hji] at h
    exact .inr ⟨hji, h⟩

theorem moved_refl (m : ServingMove ι) : Moved w m w :=
  .other (fun _ _ h => h) (fun _ _ _ => rfl) (.inl rfl) fun _ h => h

theorem moved_begin {i : ι} {operation : Operation} {env : Surroundings} {token : String}
    (hidle : w.procs i = none) :
    Moved w (.begin i operation env token) (w.begin i operation env token) := by
  unfold Serving.begin
  rcases hr : operation.enter env token w.inner with ⟨r, s⟩
  have hrefused : (∀ config, r ≠ .ok (some config)) →
      Moved w (.begin i operation env token) (w.withInner s) := fun hnone => by
    cases enter_entered hr with
    | runs => exact absurd rfl (hnone _)
    | refused _ same => exact .other (fun _ _ h => h) (fun _ _ _ => same) (.inl rfl) fun _ h => h
  match r with
  | .error e => exact hrefused fun _ h => by cases h
  | .ok none => exact hrefused fun _ h => by cases h
  | .ok (some config) =>
    cases enter_entered hr with
    | runs free held stopped =>
      exact .begins hidle (by rw [Operation.runs, hr]) free stopped held rfl rfl rfl
    | refused refuses => exact absurd rfl (refuses config)

theorem moved_finish {i : ι} {operation : Operation} {env : Surroundings} (h : FlagHeld w)
    (hi : w.Works i operation) :
    Moved w (.finish i env) ((w.withInner (endMaintenance env w.inner).2).setProc i none) := by
  have hnone : ∀ j operation', ¬((w.withInner (endMaintenance env w.inner).2).setProc i none).Works
      j operation' := fun j operation' hj => by
    rcases works_setProc hj with ⟨-, hphase⟩ | ⟨hji, hj⟩
    · cases hphase
    · exact hji (h.alone j i operation' operation hj hi)
  exact .other (fun _ _ hj => absurd hj (hnone _ _)) (fun _ _ hj => absurd hj (hnone _ _))
    (.inl rfl) fun _ ht => ht

theorem moved_start (env : Surroundings) (fails : StartStep → Option String) (token : String) :
    Moved w (.start env fails token) (w.start env fails token) := by
  unfold Serving.start
  rcases hr : startServer env fails token w.inner with ⟨r, s⟩
  obtain ⟨hsame, hspawns⟩ := startServer_cases hr
  match r with
  | .ok true =>
    exact .other (fun _ _ h => h) (fun _ _ _ => hsame) (.inr (hspawns rfl)) fun _ h => h
  | .ok false | .error _ =>
    exact .other (fun _ _ h => h) (fun _ _ _ => hsame) (.inl rfl) fun _ h => h

theorem moved_stop {i : ι} (env : Surroundings) (token : String) :
    Moved w (.stop i env token) (w.stop i env token) := by
  unfold Serving.stop
  rcases hr : enterStop env token w.inner with ⟨_ | t, s⟩
  · exact .other (fun _ _ h => h) (fun _ _ _ => (enterStop_cases hr).1) (.inl rfl) fun _ h => h
  · refine .other (fun j operation hj => ?_) (fun _ _ _ => (enterStop_cases hr).1) (.inl rfl)
      fun _ h => h
    rcases works_setProc hj with ⟨-, hphase⟩ | ⟨-, hj⟩
    · obtain ⟨task, -, htask⟩ := Option.map_eq_some_iff.mp hphase
      cases htask
    · exact hj

theorem moved (h : FlagHeld w) (m : ServingMove ι) : Moved w m (w.move m) := by
  cases m with
  | begin i operation env token =>
    rw [Serving.move]
    split
    · next hidle => exact moved_begin hidle
    · exact moved_refl _
  | finish i env =>
    rw [Serving.move]
    split
    · next hi => exact moved_finish h hi
    · exact moved_refl _
  | start env fails token => exact moved_start env fails token
  | stop i env token =>
    rw [Serving.move]
    split
    · exact moved_stop env token
    · exact moved_refl _
  | awaited i =>
    rw [Serving.move]
    split
    · split
      · refine .other (fun j operation hj => ?_) (fun _ _ _ => rfl) (.inl rfl) fun _ h => h
        rcases works_setProc hj with ⟨-, hphase⟩ | ⟨-, hj⟩
        · cases hphase
        · exact hj
      · exact moved_refl _
    · exact moved_refl _
  | taskEnds task =>
    rw [Serving.move]
    split
    · refine .other (fun _ _ h => h) (fun _ _ _ => rfl) (.inl rfl) fun task' ht => ?_
      by_cases he : task' = task
      · rw [he]
        exact Function.update_self ..
      · exact (Function.update_of_ne he ..).trans ht
    · exact moved_refl _
  | settle config session file =>
    exact .other (fun _ _ h => h) (fun _ _ _ => rfl) (.inl rfl) fun _ h => h

theorem works_update {i j : ι} {operation operation' : Operation}
    (hprocs : w'.procs = Function.update w.procs i (some (.working operation)))
    (hj : w'.Works j operation') : (j = i ∧ operation' = operation) ∨ w.Works j operation' := by
  unfold Serving.Works at hj
  rw [hprocs] at hj
  by_cases hji : j = i
  · subst hji
    rw [Function.update_self] at hj
    cases hj
    exact .inl ⟨rfl, rfl⟩
  · rw [Function.update_of_ne hji] at hj
    exact .inr hj

theorem FlagHeld.step {m : ServingMove ι} (h : FlagHeld w) (hm : Moved w m w') : FlagHeld w' := by
  cases hm with
  | begins idle runs free stopped held procs spawned finished =>
    have hself : ∀ j operation', w'.Works j operation' → j = _ := fun j operation' hj =>
      (works_update procs hj).elim And.left fun hj => absurd hj (h.not_works free)
    exact ⟨fun _ _ _ => held, fun j k _ _ hj hk => (hself j _ hj).trans (hself k _ hk).symm⟩
  | other works held spawned finished =>
    exact ⟨fun i operation hi => (held i operation hi).trans (h.held i operation (works i _ hi)),
      fun i j _ _ hi hj => h.alone i j _ _ (works i _ hi) (works j _ hj)⟩

/-- The operation that is let through has seen that the stored task has finished,
and the condition is about the others. -/
theorem serverExcluded_step {m : ServingMove ι} (h : FlagHeld w) (hs : ServerExcluded w)
    (hafter : AfterStops w m) (hm : Moved w m w') : ServerExcluded w' := by
  cases hm with
  | @begins i operation env token _ idle runs free stopped held procs spawned finished =>
    intro j operation' hj hex task htask
    rw [finished]
    rw [spawned] at htask
    rcases works_update procs hj with ⟨-, rfl⟩ | hj
    · by_cases hserver : w.server = some task
      · have hstopped := stopped hex
        simpa [Serving.inner, hserver] using hstopped
      · exact hafter idle hex runs task htask hserver
    · exact absurd hj (h.not_works free)
  | other works held spawned finished =>
    intro i operation hi hex task htask
    rcases spawned with hsame | hfree
    · exact finished task (hs i operation (works i _ hi) hex task (hsame ▸ htask))
    · exact absurd (works i _ hi) (h.not_works hfree)

theorem afterStops_of_excluded {m : ServingMove ι} (hs : ServerExcluded (w.move m)) : AfterStops w m := by
  cases m with
  | begin i operation env token =>
    intro hidle hex hruns task htask _
    obtain ⟨config, s, hr⟩ := Operation.runs_ok hruns
    have hmove : w.move (.begin i operation env token) =
        (w.withInner s).setProc i (some (.working operation)) := by
      simp only [Serving.move, hidle, Serving.begin, hr]
    rw [hmove] at hs
    exact hs i operation (Function.update_self ..) hex task htask
  | finish | start | stop | awaited | taskEnds | settle => trivial

theorem flagHeld_run (config : Option HostConfig) (ms : List (ServingMove ι)) :
    FlagHeld ((Serving.opened config : Serving ι).run ms) := by
  have hfree : RunMeets Serving.move (fun _ _ => True) (Serving.opened config : Serving ι) ms :=
    runMeets_of_forall (fun _ _ => trivial) _ ms
  exact hfree.inv (fun w m h _ => h.step (moved h m)) (flagHeld_opened config)

/-- Maintenance excludes itself in every run, and it excludes the server exactly
where each operation begins after the stops before it have come to an end. -/
theorem maintenance_excludes_serving_iff (config : Option HostConfig)
    (ms : List (ServingMove ι)) :
    RunMeets Serving.move AfterStops (Serving.opened config : Serving ι) ms ↔
      ∀ ns, ns <+: ms → MaintenanceExcludes ((Serving.opened config : Serving ι).run ns) :=
  runMeets_iff (I := fun w => FlagHeld w ∧ ServerExcluded w)
    (fun w m h hok => ⟨h.1.step (moved h.1 m), serverExcluded_step h.1 h.2 hok (moved h.1 m)⟩)
    (fun w h => ⟨h.2, h.1.alone⟩) (fun w m _ h => afterStops_of_excluded h.server)
    ⟨flagHeld_opened config, fun _ _ h => (by cases h)⟩ ms

end Moves

/-- The Host is unlocked and started. `stop_server` takes the handle, and a
restore begins while the server is still shutting down. -/
def restoreDuringStop : List (ServingMove Nat) :=
  [.settle (some sampleConfig) (some ⟨"token", 0⟩) (some sampleConfig),
    .start (sampleEnv .readLastError) (fun _ => none) "token",
    .stop 0 (sampleEnv .readLastError) "token",
    .begin 1 .restoreSchool (sampleEnv .readLastError) "token"]

theorem restore_runs_beside_server :
    ¬∀ ns, ns <+: restoreDuringStop →
      MaintenanceExcludes ((Serving.opened (some sampleConfig) : Serving Nat).run ns) := by
  intro h
  have hfinished := (h restoreDuringStop (List.prefix_refl _)).server 1 .restoreSchool
    (by decide) rfl 0 (by decide)
  revert hfinished
  decide

end Cinder.HostApp
