import Cinder.LiveSessions.SessionLifecycle
import Cinder.Storage.RowHistories
set_option autoImplicit false

/-!
The acknowledgements of a live session's tasks beside the log of their events. An
acknowledgement is stored by one statement and logged by the next.
-/

namespace Cinder.LiveSessions
open Cinder.Host Cinder.Storage Cinder.Programs Cinder.Programs.Program

@[ext] structure TaskKey where
  sessionId : Uuid
  taskRevision : Nat
  studentId : Uuid
  deriving DecidableEq, Repr

def ackKey (a : LiveAcknowledgementRow) : TaskKey := ⟨a.sessionId, a.taskRevision, a.studentId⟩

def eventKey (e : LiveTaskEventRow) : TaskKey := ⟨e.sessionId, e.taskRevision, e.studentId⟩

section States
variable (db : Database) (k : TaskKey)

def storedState : Option LiveSessionTaskState :=
  (acknowledgement? db k.sessionId k.taskRevision k.studentId).map fun a => a.state

def loggedStates : List LiveSessionTaskState :=
  (db.liveSessionTaskEvents.filter fun e => eventKey e = k).map fun e => e.state

/-- What the events amount to: each sets the state, and `completed` stays. -/
def loggedState : Option LiveSessionTaskState := absorbed .completed (loggedStates db k)

end States

def LiveStoreStatement.stores (l : LiveStoreStatement) (k : TaskKey) :
    Option LiveSessionTaskState :=
  match l with
  | .school (.student (.acknowledge row)) => if ackKey row = k then some row.state else none
  | _ => none

def LiveStoreStatement.logs (l : LiveStoreStatement) (k : TaskKey) :
    Option LiveSessionTaskState :=
  match l with
  | .school (.student (.taskEvent row)) => if eventKey row = k then some row.state else none
  | _ => none

def LiveStoreStatement.silent (l : LiveStoreStatement) : Prop :=
  ∀ k, l.stores k = none ∧ l.logs k = none

section Effects
variable {s s' : LiveStore} {l : LiveStoreStatement} {k : TaskKey}

theorem storedState_upsert {db : Database} {row : LiveAcknowledgementRow}
    {acknowledgements : Table LiveAcknowledgementRow}
    (h : db.liveSessionTaskAcknowledgements.upsert
      (fun a => a.sessionId = row.sessionId && a.taskRevision = row.taskRevision &&
        a.studentId = row.studentId)
      (acknowledgeAgain row) (acknowledgeAgain_keeps row) row = some acknowledgements) :
    storedState { db with liveSessionTaskAcknowledgements := acknowledgements } k =
      if ackKey row = k then absorb .completed (storedState db k) row.state
      else storedState db k := by
  have hown : ∀ db : Database, storedState db (ackKey row) =
      (db.liveSessionTaskAcknowledgements.find? fun a => a.sessionId = row.sessionId &&
        a.taskRevision = row.taskRevision && a.studentId = row.studentId).map fun a => a.state :=
    fun _ => rfl
  split
  · next hk =>
    subst hk
    rw [hown, hown]
    rcases Table.upsert_cases h with ⟨hany, rfl⟩ | ⟨hany, hinsert⟩
    · obtain ⟨a, ha⟩ := Table.find?_isSome (List.any_eq_true.mp hany)
      rw [ha, Table.find?_update_self (acknowledgeAgain_keeps row) ha fun _ => rfl]
      simp only [Option.map_some, acknowledgeAgain, absorb, Option.some.injEq]
      split
      · next hcompleted => rw [hcompleted]
      · rfl
    · have hnone : db.liveSessionTaskAcknowledgements.rows.find? (fun a =>
          a.sessionId = row.sessionId && a.taskRevision = row.taskRevision &&
            a.studentId = row.studentId) = none :=
        Table.find?_eq_none.mpr fun a ha => by simpa using List.any_eq_false.mp hany a ha
      simp [Table.find?, Table.rows_insert hinsert, List.find?_append, hnone, absorb]
  · next hk =>
    have hother : ∀ a : LiveAcknowledgementRow, ackKey a = k → ackKey a ≠ ackKey row :=
      fun a ha hrow => hk (hrow.symm.trans ha)
    unfold storedState acknowledgement?
    rw [Table.find?_upsert_other h fun _ => rfl]
    · intro a ha
      simp only [Bool.and_eq_true, decide_eq_true_eq] at ha
      have hne := hother a (by rw [ackKey, ha.1.1, ha.1.2, ha.2])
      simpa [ackKey, TaskKey.mk.injEq, and_assoc] using hne
    · simpa [ackKey, TaskKey.ext_iff, and_assoc] using hk

theorem states_run (h : l.run s = .ok s') :
    storedState s'.lib.school k = (match l.stores k with
      | some state => absorb .completed (storedState s.lib.school k) state
      | none => storedState s.lib.school k) ∧
    loggedStates s'.lib.school k = loggedStates s.lib.school k ++ (l.logs k).toList := by
  cases l with
  | utcNow now =>
    cases h
    exact ⟨rfl, (List.append_nil _).symm⟩
  | school l =>
    obtain ⟨db', hchange, rfl⟩ := LiveStoreStatement.run_school h
    cases hchange with
    | acknowledge htask hstored =>
      refine ⟨?_, (List.append_nil _).symm⟩
      rw [LiveStore.withSchool_school, storedState_upsert hstored]
      simp only [LiveStoreStatement.stores]
      split <;> rfl
    | @taskEvent row htask =>
      refine ⟨rfl, ?_⟩
      simp only [LiveStore.withSchool_school, loggedStates, LiveStoreStatement.logs,
        List.filter_append, List.map_append]
      by_cases hk : eventKey row = k <;> simp [hk]
    | _ => exact ⟨rfl, (List.append_nil _).symm⟩

theorem taskStored_run (h : l.run s = .ok s') {sessionId : Uuid} {revision : Nat}
    (htask : taskStored s.lib.school sessionId revision = true) :
    taskStored s'.lib.school sessionId revision = true := by
  cases l with
  | utcNow now =>
    cases h
    exact htask
  | school l =>
    obtain ⟨db', hchange, rfl⟩ := LiveStoreStatement.run_school h
    cases hchange with
    | assign hstored =>
      obtain ⟨t, ht, hkey⟩ := List.any_eq_true.mp htask
      exact List.any_eq_true.mpr ⟨t, (Table.mem_insert hstored).mpr (.inl ht), hkey⟩
    | _ => exact htask

end Effects

section Unlogged
variable {ι : Type} [DecidableEq ι]

/-- The requests that have stored a state of the task and not yet logged it. -/
def unlogged (k : TaskKey) :
    List (Event ι LiveStore LiveStoreStatement) → List (ι × LiveSessionTaskState)
  | [] => []
  | e :: earlier =>
    match e.label.stores k, e.label.logs k with
    | some state, _ => (e.proc, state) :: unlogged k earlier
    | none, some _ => (unlogged k earlier).filter fun x => x.1 ≠ e.proc
    | none, none => unlogged k earlier

/-- The acknowledgement agrees with those that are still to be logged, and does not
take back a completed task. -/
def LiveStoreStatement.agrees (l : LiveStoreStatement) (w : LiveWorld ι) : Prop :=
  match l with
  | .school (.student (.acknowledge row)) =>
    (∀ x ∈ unlogged (ackKey row) w.history, x.2 = row.state) ∧
      (storedState w.state.lib.school (ackKey row) = some .completed → row.state = .completed)
  | _ => True

instance (l : LiveStoreStatement) (w : LiveWorld ι) : Decidable (l.agrees w) := by
  unfold LiveStoreStatement.agrees
  split <;> infer_instance

variable {w w' : LiveWorld ι} {i j : ι} {l : LiveStoreStatement} {k : TaskKey}
  {state : LiveSessionTaskState}

theorem agrees_of_stores (h : l.agrees w) (hstores : l.stores k = some state) :
    (∀ x ∈ unlogged k w.history, x.2 = state) ∧
      (storedState w.state.lib.school k = some .completed → state = .completed) := by
  unfold LiveStoreStatement.stores at hstores
  split at hstores
  · split at hstores
    · next row hk =>
      obtain rfl := Option.some.inj hstores
      exact hk ▸ h
    · cases hstores
  · cases hstores

theorem logs_eq_none_of_stores (h : l.stores k = some state) (k' : TaskKey) : l.logs k' = none := by
  unfold LiveStoreStatement.stores at h
  split at h
  · rfl
  · cases h

theorem mem_unlogged_other (hw : World.Wrote i l w w') (hj : j ≠ i) :
    (j, state) ∈ unlogged k w'.history ↔ (j, state) ∈ unlogged k w.history := by
  rw [hw.2, unlogged]
  dsimp only
  split
  · simp [hj]
  · simp [hj]
  · rfl

/-- What holds of the log of a task and of the state that is stored for it. -/
structure KeyLogged (db : Database) (pending : List (ι × LiveSessionTaskState)) (k : TaskKey) :
    Prop where
  closed : ClosedBy .completed (loggedStates db k)
  agreed : ∀ x ∈ pending, storedState db k = some x.2
  settled : pending = [] → storedState db k = loggedState db k
  kept : .completed ∈ loggedStates db k → storedState db k = some .completed

/-- A statement keeps log and state together, if an acknowledgement agrees with those
still to be logged and an event is of one of them. -/
theorem KeyLogged.step (h : KeyLogged w.state.lib.school (unlogged k w.history) k)
    (hw : World.Wrote i l w w') (hagrees : l.agrees w)
    (hlogs : ∀ state, l.logs k = some state → (i, state) ∈ unlogged k w.history) :
    KeyLogged w'.state.lib.school (unlogged k w'.history) k := by
  obtain ⟨hstored, hlogged⟩ := states_run (k := k) hw.1
  rw [hw.2, unlogged]
  dsimp only
  cases hs : l.stores k with
  | some state =>
    obtain ⟨hsame, hcompleted⟩ := agrees_of_stores hagrees hs
    rw [hs] at hstored
    rw [logs_eq_none_of_stores hs k, Option.toList_none, List.append_nil] at hlogged
    have hstate : storedState w'.state.lib.school k = some state := by
      rw [hstored]
      dsimp only
      rw [absorb]
      split
      · next hlast => rw [hlast, hcompleted hlast]
      · rfl
    refine ⟨hlogged ▸ h.closed, fun x hx => ?_, fun hnil => absurd hnil (by simp), fun hmem => ?_⟩
    · rcases List.mem_cons.mp hx with rfl | hx
      · exact hstate
      · rw [hstate, hsame x hx]
    · rw [hstate, hcompleted (h.kept (hlogged ▸ hmem))]
  | none =>
    rw [hs] at hstored
    dsimp only at hstored
    cases hl : l.logs k with
    | some state =>
      have hstate := h.agreed _ (hlogs state hl)
      rw [hl, Option.toList_some] at hlogged
      have hlast : .completed ∈ loggedStates w.state.lib.school k → state = .completed := fun hmem =>
        Option.some.inj (hstate.symm.trans (h.kept hmem))
      refine ⟨?_, fun x hx => ?_, fun _ => ?_, fun hmem => ?_⟩
      · rw [hlogged]
        exact closedBy_concat.mpr ⟨h.closed, hlast⟩
      · rw [hstored]
        exact h.agreed x (List.mem_of_mem_filter hx)
      · rw [hstored, hstate, loggedState, hlogged, absorbed_concat, absorb]
        split
        · next hcompleted => rw [hcompleted, hlast (absorbed_eq_last_iff.mp hcompleted)]
        · rfl
      · rw [hlogged] at hmem
        rw [hstored]
        rcases List.mem_append.mp hmem with hmem | hmem
        · exact h.kept hmem
        · rw [hstate, List.mem_singleton.mp hmem]
    | none =>
      rw [hl, Option.toList_none, List.append_nil] at hlogged
      exact ⟨hlogged ▸ h.closed, fun x hx => hstored ▸ h.agreed x hx,
        fun hnil => by rw [hstored, loggedState, hlogged]; exact h.settled hnil,
        fun hmem => hstored ▸ h.kept (hlogged ▸ hmem)⟩

end Unlogged

def logEvent (event : LiveTaskEventRow) : LiveStoreStatement := .school (.student (.taskEvent event))

inductive Reporting {α : Type} : SessionProgram α → Prop where
  | ret (a : α) : Reporting (.ret a)
  | fail (e : HostError) : Reporting (.fail e)
  | read {k : LiveStore → SessionProgram α} (next : ∀ s, Reporting (k s)) : Reporting (.read k)
  | write {l : LiveStoreStatement} {k : LiveStore → SessionProgram α} (silent : l.silent)
      (next : ∀ s, Reporting (k s)) : Reporting (.write l k)
  | report {row : LiveAcknowledgementRow} {event : LiveTaskEventRow}
      {k : LiveStore → SessionProgram α} {k' : LiveStore → LiveStore → SessionProgram α}
      (logged : ∀ s, k s = .write (logEvent event) (k' s)) (key : eventKey event = ackKey row)
      (state : event.state = row.state) (next : ∀ s s', Reporting (k' s s')) :
      Reporting (.write (.school (.student (.acknowledge row))) k)

section Programs
variable {α β : Type}

theorem Reporting.bind {p : SessionProgram α} {f : α → SessionProgram β} (hp : Reporting p)
    (hf : ∀ a, Reporting (f a)) : Reporting (p >>= f) := by
  induction hp with
  | ret a => exact hf a
  | fail e => exact .fail e
  | read _ ih => exact .read ih
  | write silent _ ih => exact .write silent ih
  | @report row event k k' logged key state _ ih =>
    exact .report (fun s => by rw [logged s]; rfl) key state ih

theorem reporting_of_silent {p : SessionProgram α} (hp : p.WritesOnly LiveStoreStatement.silent) :
    Reporting p := by
  induction p with
  | ret a => exact .ret a
  | fail e => exact .fail e
  | read k ih => exact .read fun s => ih s (hp s)
  | write l k ih => exact .write hp.1 fun s => ih s (hp.2 s)

theorem LiveStoreStatement.silent_of_plain {l : LiveStoreStatement} (h : l.plain) : l.silent := by
  intro k
  unfold plain at h
  split at h <;> first | exact ⟨rfl, rfl⟩ | exact h.elim

theorem reporting_of_plain {p : SessionProgram α} (hp : p.WritesOnly LiveStoreStatement.plain) :
    Reporting p := reporting_of_silent (hp.imp fun _ => LiveStoreStatement.silent_of_plain)

theorem reporting_of_readOnly {p : SessionProgram α} (hp : p.ReadOnly) : Reporting p :=
  reporting_of_silent hp.writesOnly

theorem start_reporting (env : Env) (codes : List String) (teacher : CurrentUser)
    (req : StartLiveSessionRequest) : Reporting (start env codes teacher req) := by
  refine (reporting_of_readOnly (onSchool_readOnly (requireTeacher_readOnly _))).bind fun _ => ?_
  refine (reporting_of_readOnly (readOnly_ofExcept _)).bind fun _ => ?_
  refine (reporting_of_readOnly (readOnly_require _ _)).bind fun _ => ?_
  refine (reporting_of_readOnly (onSchool_readOnly (requireTeacherAccess_readOnly _ _))).bind
    fun _ => ?_
  refine .write (fun _ => ⟨rfl, rfl⟩) fun _ => .write (fun _ => ⟨rfl, rfl⟩) fun _ => ?_
  exact reporting_of_readOnly (readOnly_ofExcept _)

theorem endSession_reporting (env : Env) (teacher : CurrentUser) (id : Uuid) :
    Reporting (endSession env teacher id) := by
  refine (reporting_of_readOnly (onSchool_readOnly (requireTeacher_readOnly _))).bind fun _ => ?_
  refine (reporting_of_readOnly (ofStudent_readOnly (loadSession_readOnly _ _))).bind fun _ => ?_
  refine (reporting_of_readOnly (onSchool_readOnly (requireTeacherAccess_readOnly _ _))).bind
    fun _ => ?_
  refine .write (fun _ => ⟨rfl, rfl⟩) fun _ => .write (fun _ => ⟨rfl, rfl⟩) fun _ => ?_
  exact reporting_of_readOnly (ofStudent_readOnly (loadSession_readOnly _ _))

theorem ofStudent_reporting_bind {p : LiveProgram α} {f : α → LiveProgram β} (hp : p.ReadOnly)
    (hf : ∀ a, Reporting (ofStudent (f a))) : Reporting (ofStudent (p >>= f)) := by
  rw [ofStudent, within_bind]
  exact (reporting_of_readOnly (ofStudent_readOnly hp)).bind hf

theorem acknowledgeTask_reporting (env : Env) (student : CurrentUser) (id : Uuid)
    (req : AcknowledgeLiveSessionTaskRequest) :
    Reporting (ofStudent (acknowledgeTask env student id req)) := by
  refine ofStudent_reporting_bind (requireStudent_readOnly _) fun _ => ?_
  refine ofStudent_reporting_bind (loadSession_readOnly _ _) fun session => ?_
  refine ofStudent_reporting_bind (assertEnrolled_readOnly _ _) fun _ => ?_
  refine ofStudent_reporting_bind (readOnly_require _ _) fun _ => ?_
  refine ofStudent_reporting_bind (readOnly_query _) fun joined => ?_
  refine ofStudent_reporting_bind (readOnly_require _ _) fun _ => ?_
  refine ofStudent_reporting_bind (readOnly_query _) fun latest => ?_
  refine ofStudent_reporting_bind (readOnly_require _ _) fun _ => ?_
  refine ofStudent_reporting_bind (readOnly_query _) fun current => ?_
  cases completedBefore current req.state with
  | some acknowledgement => exact .ret _
  | none =>
    refine .report (fun s => rfl) rfl rfl fun s s' => reporting_of_readOnly ?_
    refine ofStudent_readOnly ((readOnly_query _).bind fun current => ?_)
    cases current.bind fun c => c.2 <;> trivial

theorem historyItems_readOnly (rows : List LiveSessionHistoryItem) :
    (historyItems rows).ReadOnly := by
  induction rows with
  | nil => trivial
  | cons row rows ih => exact (withTask_readOnly _ _).bind fun _ => ih.bind fun _ => trivial

theorem sessionHistory_readOnly (env : Env) (teacher : CurrentUser) (classroomId : Uuid) :
    (sessionHistory env teacher classroomId).ReadOnly := by
  refine (onSchool_readOnly (requireTeacher_readOnly _)).bind fun _ => ?_
  refine (onSchool_readOnly (requireTeacherAccess_readOnly _ _)).bind fun _ => ?_
  exact (readOnly_query _).bind fun rows => ofStudent_readOnly (historyItems_readOnly rows)

theorem handle_reporting (c : LiveCall) : Reporting (handle c) := by
  obtain ⟨env, user, request⟩ := c
  cases request with
  | start codes req => exact (start_reporting env codes user req).bind fun _ => .ret _
  | activeForClassroom id =>
    exact (reporting_of_plain (activeForClassroom_plain env user id)).bind fun _ => .ret _
  | activeForStudent =>
    exact (reporting_of_plain (activeForStudent_plain env user)).bind fun _ => .ret _
  | join req => exact (reporting_of_plain (join_plain env user req)).bind fun _ => .ret _
  | joinById id => exact (reporting_of_plain (joinById_plain env user id)).bind fun _ => .ret _
  | assignTask id req =>
    exact (reporting_of_plain (assignTask_plain env user id req)).bind fun _ => .ret _
  | acknowledgeTask id req =>
    exact (acknowledgeTask_reporting env user id req).bind fun _ => .ret _
  | submitResult id req =>
    exact (reporting_of_plain (submitResult_plain env user id req)).bind fun _ => .ret _
  | sessionHistory id =>
    exact (reporting_of_readOnly (sessionHistory_readOnly env user id)).bind fun _ => .ret _
  | endSession id => exact (endSession_reporting env user id).bind fun _ => .ret _

end Programs

section Processes
variable {ι : Type} [DecidableEq ι] {i j : ι} {w w' : LiveWorld ι}

def HasLogged (i : ι) (w : LiveWorld ι) : Prop := ∀ k state, (i, state) ∉ unlogged k w.history

def Owing (i : ι) (w : LiveWorld ι) : Option (LiveCall × SessionProgram LiveReply) → Prop
  | none => HasLogged i w
  | some (_, p) => (Reporting p ∧ HasLogged i w) ∨
      ∃ event k, p = .write (logEvent event) k ∧ (∀ s, Reporting (k s)) ∧
        taskStored w.state.lib.school event.sessionId event.taskRevision = true ∧
        ∀ key state, (i, state) ∈ unlogged key w.history ↔
          key = eventKey event ∧ state = event.state

def LogsKept (w : LiveWorld ι) : Prop :=
  ∀ k, KeyLogged w.state.lib.school (unlogged k w.history) k

theorem Owing.other {l : LiveStoreStatement} (hw : World.Wrote i l w w') (hj : j ≠ i)
    {q : Option (LiveCall × SessionProgram LiveReply)} (h : Owing j w q) : Owing j w' q := by
  have hsame : ∀ key state, (j, state) ∈ unlogged key w'.history ↔
      (j, state) ∈ unlogged key w.history := fun _ _ => mem_unlogged_other hw hj
  cases q with
  | none => exact fun key state hmem => h key state ((hsame key state).mp hmem)
  | some q =>
    rcases h with ⟨hreporting, hlogged⟩ | ⟨event, k, hp, hnext, htask, howed⟩
    · exact .inl ⟨hreporting, fun key state hmem => hlogged key state ((hsame key state).mp hmem)⟩
    · exact .inr ⟨event, k, hp, hnext, taskStored_run hw.1 htask, fun key state =>
        (hsame key state).trans (howed key state)⟩

theorem run_logEvent (event : LiveTaskEventRow) {s : LiveStore}
    (htask : taskStored s.lib.school event.sessionId event.taskRevision = true) :
    ∃ s', (Engine.run (logEvent event) s : Except HostError LiveStore) = .ok s' := by
  refine ⟨s.withSchool { s.lib.school with
    liveSessionTaskEvents := s.lib.school.liveSessionTaskEvents ++ [event] }, ?_⟩
  have hrun : (LiveStatement.taskEvent event).run s.lib.school = .ok { s.lib.school with
      liveSessionTaskEvents := s.lib.school.liveSessionTaskEvents ++ [event] } :=
    bind_eq_ok.mpr ⟨(), by rw [referenced, if_pos htask], rfl⟩
  simp only [Engine.run, logEvent, LiveStoreStatement.run, SessionStatement.run, hrun]
  rfl

theorem unlogged_silent {l : LiveStoreStatement} (hw : World.Wrote i l w w') (hl : l.silent)
    (k : TaskKey) : unlogged k w'.history = unlogged k w.history := by
  rw [hw.2, unlogged]
  dsimp only
  rw [(hl k).1, (hl k).2]

theorem owed_of_acknowledge {row : LiveAcknowledgementRow} {event : LiveTaskEventRow}
    (hw : World.Wrote i (.school (.student (.acknowledge row))) w w') (hlogged : HasLogged i w)
    (hkey : eventKey event = ackKey row) (hstate : event.state = row.state) (key : TaskKey)
    (state : LiveSessionTaskState) : (i, state) ∈ unlogged key w'.history ↔
      key = eventKey event ∧ state = event.state := by
  rw [hw.2, unlogged]
  dsimp only [LiveStoreStatement.stores, LiveStoreStatement.logs]
  rw [hkey, hstate]
  by_cases hk : ackKey row = key
  · subst hk
    simp [hlogged _ _]
  · simp [hk, hlogged _ _, Ne.symm hk]

theorem hasLogged_of_event {event : LiveTaskEventRow} (hw : World.Wrote i (logEvent event) w w')
    (howed : ∀ key state, (i, state) ∈ unlogged key w.history ↔
      key = eventKey event ∧ state = event.state) : HasLogged i w' := by
  intro key state hmem
  rw [hw.2, unlogged] at hmem
  dsimp only [LiveStoreStatement.stores, LiveStoreStatement.logs, logEvent] at hmem
  by_cases hk : eventKey event = key
  · simp [hk] at hmem
  · simp only [hk, if_false] at hmem
    exact hk ((howed key state).mp hmem).1.symm

theorem owing_step {r : LiveCall} {p : SessionProgram LiveReply} (hkept : LogsKept w)
    (h : Owing i w (some (r, p)))
    (hagrees : ∀ l k w', p = .write l k → World.Wrote i l w w' → l.agrees w) :
    LogsKept (p.advance i w).1 ∧ Owing i (p.advance i w).1 (some (r, (p.advance i w).2)) ∧
      ∀ j q, j ≠ i → Owing j w q → Owing j (p.advance i w).1 q := by
  rcases h with ⟨hreporting, hlogged⟩ | ⟨event, k, rfl, hnext, htask, howed⟩
  · cases hreporting with
    | ret a => exact ⟨hkept, .inl ⟨.ret a, hlogged⟩, fun _ _ _ hq => hq⟩
    | fail e => exact ⟨hkept, .inl ⟨.fail e, hlogged⟩, fun _ _ _ hq => hq⟩
    | read next => exact ⟨hkept, .inl ⟨next _, hlogged⟩, fun _ _ _ hq => hq⟩
    | @write l k silent next =>
      cases hrun : (Engine.run l w.state : Except HostError LiveStore) with
      | error e =>
        rw [advance, hrun]
        exact ⟨hkept, .inl ⟨.fail e, hlogged⟩, fun _ _ _ hq => hq⟩
      | ok s =>
        have hw : World.Wrote i l w ⟨s, ⟨i, l, w.state⟩ :: w.history⟩ := ⟨hrun, rfl⟩
        rw [advance, hrun]
        refine ⟨fun key => (hkept key).step hw (hagrees l k _ rfl hw) fun state hs => ?_,
          .inl ⟨next _, fun key state hmem => ?_⟩, fun j q hj hq => hq.other hw hj⟩
        · rw [(silent key).2] at hs
          cases hs
        · exact hlogged key state (unlogged_silent hw silent key ▸ hmem)
    | @report row event k k' logged hkey hstate next =>
      cases hrun : (Engine.run (LiveStoreStatement.school (.student (.acknowledge row))) w.state :
          Except HostError LiveStore) with
      | error e =>
        rw [advance, hrun]
        exact ⟨hkept, .inl ⟨.fail e, hlogged⟩, fun _ _ _ hq => hq⟩
      | ok s =>
        have hw : World.Wrote i (.school (.student (.acknowledge row))) w
            ⟨s, ⟨i, .school (.student (.acknowledge row)), w.state⟩ :: w.history⟩ := ⟨hrun, rfl⟩
        rw [advance, hrun]
        refine ⟨fun key => (hkept key).step hw (hagrees _ k _ rfl hw) fun state hs => (by cases hs),
          .inr ⟨event, k' w.state, logged _, next _, taskStored_run hrun ?_,
            owed_of_acknowledge hw hlogged hkey hstate⟩, fun j q hj hq => hq.other hw hj⟩
        obtain ⟨db', hchange, -⟩ := LiveStoreStatement.run_school hrun
        obtain ⟨hsession, hrevision, -⟩ := TaskKey.mk.inj hkey
        cases hchange with
        | acknowledge htask _ => rw [hsession, hrevision]; exact htask
  · obtain ⟨s, hrun⟩ := run_logEvent event htask
    have hw : World.Wrote i (logEvent event) w ⟨s, ⟨i, logEvent event, w.state⟩ :: w.history⟩ :=
      ⟨hrun, rfl⟩
    rw [advance, hrun]
    refine ⟨fun key => (hkept key).step hw trivial fun state hs => (howed key state).mpr ?_,
      .inl ⟨hnext _, hasLogged_of_event hw howed⟩, fun j q hj hq => hq.other hw hj⟩
    by_cases hk : eventKey event = key
    · simp only [LiveStoreStatement.logs, logEvent, hk, if_true, Option.some.injEq] at hs
      exact ⟨hk.symm, hs.symm⟩
    · simp [LiveStoreStatement.logs, logEvent, hk] at hs

theorem unlogged_eq_nil {c : LivePool ι} (howing : ∀ i, Owing i c.world (c.procs i))
    (hanswered : c.AllAnswered) (k : TaskKey) : unlogged k c.world.history = [] := by
  refine List.eq_nil_iff_forall_not_mem.mpr fun ⟨i, state⟩ hmem => ?_
  have h := howing i
  cases hi : c.procs i with
  | none =>
    rw [hi] at h
    exact h k state hmem
  | some q =>
    obtain ⟨r, p⟩ := q
    rw [hi] at h
    rcases h with ⟨-, hlogged⟩ | ⟨event, next, rfl, -⟩
    · exact hlogged k state hmem
    · exact absurd (hanswered i r _ hi) (by simp [Program.answered])

end Processes

def TasksNumbered (db : Database) : Prop :=
  ∀ id, Numbered (fun t : LiveTaskRow => (t.revision : Int))
    (db.liveSessionTasks.rows.filter fun t => t.sessionId = id)

theorem TasksNumbered.change {db db' : Database} {l : SessionStatement} (h : TasksNumbered db)
    (hchange : SessionChange db l db') : TasksNumbered db' := by
  cases hchange with
  | @assign new tasks hstored =>
    intro id
    dsimp only
    rw [Table.rows_insert hstored, List.filter_append]
    by_cases hid : new.sessionId = id
    · subst hid
      have hlatest : (latestRevision db new.sessionId).getD 0 = _ := (h new.sessionId).max?_nat
      rw [List.filter_cons_of_pos (by simp [NewLiveTask.row]), List.filter_nil, numbered_concat]
      refine ⟨h new.sessionId, ?_⟩
      rw [← hlatest]
      rfl
    · rw [List.filter_cons_of_neg (by simp [NewLiveTask.row, hid]), List.filter_nil,
        List.append_nil]
      exact h id
  | _ => exact h

section Runs
variable {ι : Type} [DecidableEq ι]

/-- Where acknowledgements of one task overlap only if they agree, the log is
closed by `completed`, and at rest the stored state is what the log amounts to. -/
theorem acknowledgements_follow_their_log (s : LiveStore) (hnumbered : TasksNumbered s.lib.school)
    (hlogs : ∀ k, ClosedBy .completed (loggedStates s.lib.school k) ∧
      storedState s.lib.school k = loggedState s.lib.school k) (ms : List (Move ι LiveCall))
    (hms : (Pool.idle s : LivePool ι).Guarded handle (fun _ => True) (fun _ l w => l.agrees w) ms)
    (ns : List (Move ι LiveCall)) (hns : ns <+: ms) :
    TasksNumbered ((Pool.idle s : LivePool ι).run handle ns).world.state.lib.school ∧
    (∀ k, ClosedBy .completed
      (loggedStates ((Pool.idle s : LivePool ι).run handle ns).world.state.lib.school k)) ∧
    (((Pool.idle s : LivePool ι).run handle ns).AllAnswered → ∀ k,
      storedState ((Pool.idle s : LivePool ι).run handle ns).world.state.lib.school k =
        loggedState ((Pool.idle s : LivePool ι).run handle ns).world.state.lib.school k) := by
  have hstart : LogsKept (⟨s, []⟩ : LiveWorld ι) := fun k => ⟨(hlogs k).1, by simp [unlogged],
    fun _ => (hlogs k).2, fun hmem => (hlogs k).2.trans (absorbed_eq_last_iff.mpr hmem)⟩
  have hidle : ∀ i, Owing i (⟨s, []⟩ : LiveWorld ι) none := fun i key state hmem => by
    cases hmem
  have hkept := Pool.kept_run (I := LogsKept) (J := Owing)
    (fun i c w _ h => .inl ⟨handle_reporting c, h⟩)
    (fun i r p w hkept h hagrees => owing_step hkept h hagrees)
    (c := (Pool.idle s : LivePool ι)) hstart hidle (Pool.guarded_prefix hms hns)
  refine ⟨Protocol.inv_run (I := fun w : LiveWorld ι => TasksNumbered w.state.lib.school)
    (fun i l w w' h hw => ?_) hnumbered ns, fun k => (hkept.1 k).closed, fun hanswered k =>
      (hkept.1 k).settled (unlogged_eq_nil hkept.2 hanswered k)⟩
  cases l with
  | utcNow now =>
    rw [← Except.ok.inj hw.1]
    exact h
  | school l =>
    obtain ⟨db', hchange, hs⟩ := LiveStoreStatement.run_school hw.1
    rw [hs]
    exact h.change hchange

end Runs

section Devices

def sampleTask : List (Move Nat LiveCall) :=
  sampleStart ++ liveAlone 1 20 sampleStudent (.join ⟨"ABCDEFGHJK"⟩) ++
    liveAlone 2 30 sampleTeacher (.assignTask 1000 ⟨.instruction, none, "Read", ""⟩)

def sampleReports : List (Move Nat LiveCall) :=
  sampleTask ++ liveAlone 3 40 sampleStudent (.acknowledgeTask 1000 ⟨1, .opened⟩) ++
    liveAlone 4 50 sampleStudent (.acknowledgeTask 1000 ⟨1, .completed⟩) ++
    liveAlone 5 60 sampleStudent (.acknowledgeTask 1000 ⟨1, .inProgress⟩)

theorem acknowledgements_follow_their_log_sample :
    loggedStates ((Pool.idle sampleLive : LivePool Nat).run handle
      sampleReports).world.state.lib.school ⟨1000, 1, 1⟩ = [.opened, .completed] ∧
    TasksNumbered ((Pool.idle sampleLive : LivePool Nat).run handle
      sampleReports).world.state.lib.school ∧
    (∀ k, ClosedBy .completed (loggedStates ((Pool.idle sampleLive : LivePool Nat).run handle
      sampleReports).world.state.lib.school k)) ∧
    (((Pool.idle sampleLive : LivePool Nat).run handle sampleReports).AllAnswered → ∀ k,
      storedState ((Pool.idle sampleLive : LivePool Nat).run handle
        sampleReports).world.state.lib.school k =
      loggedState ((Pool.idle sampleLive : LivePool Nat).run handle
        sampleReports).world.state.lib.school k) :=
  ⟨by decide +kernel, acknowledgements_follow_their_log sampleLive (fun _ => numbered_nil)
    (fun _ => ⟨closedBy_nil, rfl⟩) sampleReports (by decide +kernel) sampleReports
    (List.prefix_refl _)⟩

/-- Two devices have both read that the task is open when the first reports it as
completed and then the second as in progress. -/
def sampleOverlap : List (Move Nat LiveCall) :=
  sampleTask ++
    [.start 3 ⟨sampleEnv 40, sampleStudent, .acknowledgeTask 1000 ⟨1, .completed⟩⟩,
      .start 4 ⟨sampleEnv 40, sampleStudent, .acknowledgeTask 1000 ⟨1, .inProgress⟩⟩] ++
    List.replicate 5 (.advance 3) ++ List.replicate 5 (.advance 4) ++
    List.replicate 3 (.advance 3) ++ List.replicate 3 (.advance 4)

theorem event_follows_completed :
    ¬ ClosedBy .completed (loggedStates ((Pool.idle sampleLive : LivePool Nat).run handle
      sampleOverlap).world.state.lib.school ⟨1000, 1, 1⟩) := by
  decide +kernel

end Devices

end Cinder.LiveSessions
