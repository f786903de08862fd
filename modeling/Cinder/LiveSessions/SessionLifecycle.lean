import Cinder.LiveSessions.SessionChanges
import Mathlib.Data.List.Perm.Subperm
set_option autoImplicit false

/-!
The life of a live session. It closes when the teacher ends it or when its time
runs out, which a later start records; both are to stay within the session's time.
-/

namespace Cinder.LiveSessions
open Cinder.Host Cinder.Storage Cinder.Programs Cinder.Programs.Program Cinder.Programs.Protocol

/-- The sessions and what hangs on them, with the clock that has been read. -/
structure SessionsKept (s : LiveStore) : Prop where
  started : ∀ r ∈ s.lib.school.liveModuleSessions.rows, r.startsAt ≤ s.clock
  spans : ∀ r ∈ s.lib.school.liveModuleSessions.rows, r.startsAt ≤ r.endsAt
  ended : ∀ r ∈ s.lib.school.liveModuleSessions.rows, ∀ t ∈ r.endedAt,
    r.startsAt ≤ t ∧ t ≤ r.endsAt
  acknowledged : ∀ a ∈ s.lib.school.liveSessionTaskAcknowledgements.rows,
    joined s.lib.school a.sessionId a.studentId = true
  resulted : ∀ r ∈ s.lib.school.liveModuleResults.rows,
    joined s.lib.school r.sessionId r.studentId = true

def LiveStoreStatement.readsOn (l : LiveStoreStatement) (s : LiveStore) : Prop :=
  match l with
  | .utcNow now => s.clock ≤ now
  | .school _ => True

/-- A session is not ended after its time, unless it has been ended before. -/
def LiveStoreStatement.endsInTime (l : LiveStoreStatement) (s : LiveStore) : Prop :=
  match l with
  | .school (.endSession id now) => ∀ r ∈ s.lib.school.liveModuleSessions.rows, r.id = id →
      r.endedAt = none → now ≤ r.endsAt
  | _ => True

instance (l : LiveStoreStatement) (s : LiveStore) : Decidable (l.readsOn s) := by
  unfold LiveStoreStatement.readsOn
  split <;> infer_instance

instance (l : LiveStoreStatement) (s : LiveStore) : Decidable (l.endsInTime s) := by
  unfold LiveStoreStatement.endsInTime
  split <;> infer_instance

def LiveStoreStatement.checked (l : LiveStoreStatement) (s : LiveStore) : Prop :=
  match l with
  | .school (.student (.acknowledge row)) =>
    joined s.lib.school row.sessionId row.studentId = true
  | .school (.start new) => new.startsAt ≤ s.clock
  | .school (.endSession id now) => ∃ r ∈ s.lib.school.liveModuleSessions.rows, r.id = id ∧
      r.startsAt ≤ now
  | _ => True

def LiveStoreStatement.free (l : LiveStoreStatement) : Prop := ∀ s, l.checked s

/-- A statement that neither starts nor ends a session nor reports on a task. -/
def LiveStoreStatement.plain : LiveStoreStatement → Prop
  | .school (.student (.join _)) => True
  | .school (.student (.result _)) => True
  | .school (.assign _) => True
  | .school (.seen _ _ _) => True
  | _ => False

theorem LiveStoreStatement.free_of_plain {l : LiveStoreStatement} (h : l.plain) : l.free := by
  intro s
  unfold plain at h
  split at h <;> trivial

section Step
variable {s s' : LiveStore} {l : LiveStoreStatement}

theorem minutes_nonneg (n : Nat) : 0 ≤ minutes n :=
  Int.mul_nonneg (Int.natCast_nonneg n) (by decide)

theorem endAt_of_ended {now t : Time} {r : LiveSessionRow} (h : r.endedAt = some t) :
    endAt now r = r := by
  cases r
  cases h
  rfl

theorem SessionsKept.session (hs : SessionsKept s) {l : SessionStatement} {db' : Database}
    (hend : (LiveStoreStatement.school l).endsInTime s)
    (hchecked : (LiveStoreStatement.school l).checked s) (h : SessionChange s.lib.school l db')
    {r : LiveSessionRow} (hr : r ∈ db'.liveModuleSessions.rows) :
    r.startsAt ≤ s.clock ∧ r.startsAt ≤ r.endsAt ∧
      ∀ t ∈ r.endedAt, r.startsAt ≤ t ∧ t ≤ r.endsAt := by
  rcases h.session_from hr with hold | ⟨r, hold, rfl⟩ | ⟨id, now, rfl, r, hold, hid, rfl⟩ |
    ⟨new, joinCode, rfl, rfl⟩
  · exact ⟨hs.started r hold, hs.spans r hold, hs.ended r hold⟩
  · refine ⟨hs.started r hold, hs.spans r hold, fun t ht => ?_⟩
    obtain rfl := Option.some.inj ht
    exact ⟨hs.spans r hold, Int.le_refl _⟩
  · refine ⟨hs.started r hold, hs.spans r hold, ?_⟩
    cases hended : r.endedAt with
    | some t =>
      rw [endAt_of_ended hended]
      exact hs.ended r hold
    | none =>
      intro t ht
      obtain rfl : now = t := by simpa [endAt, hended] using ht
      obtain ⟨r', hr', hid', hstarted⟩ := hchecked
      obtain rfl : r' = r := Table.eq_of_clash hr' hold (by simp [Keyed.clash, hid, hid'])
      exact ⟨hstarted, hend r' hold hid hended⟩
  · exact ⟨hchecked, Int.le_add_of_nonneg_right (minutes_nonneg new.durationMinutes),
      fun t ht => by cases ht⟩

theorem SessionsKept.step (hs : SessionsKept s) (hreads : l.readsOn s) (hend : l.endsInTime s)
    (hchecked : l.checked s) (h : l.run s = .ok s') : SessionsKept s' := by
  cases l with
  | utcNow now =>
    cases h
    exact { hs with started := fun r hr => Int.le_trans (hs.started r hr) hreads }
  | school l =>
    obtain ⟨db', hchange, rfl⟩ := LiveStoreStatement.run_school h
    have hsession := fun r hr => hs.session hend hchecked hchange (r := r) hr
    refine ⟨fun r hr => (hsession r hr).1, fun r hr => (hsession r hr).2.1,
      fun r hr => (hsession r hr).2.2, fun a ha => ?_, fun r hr => ?_⟩
    · rcases hchange.acknowledgement_from ha with ⟨a₀, ha₀, hsid, hstudent⟩ |
        ⟨row, rfl, hsid, hstudent⟩
      · rw [← hsid, ← hstudent]
        exact hchange.joined (hs.acknowledged a₀ ha₀)
      · rw [← hsid, ← hstudent]
        exact hchange.joined hchecked
    · rcases hchange.results.2 r hr with hold | hjoined
      · exact hchange.joined (hs.resulted r hold)
      · exact hchange.joined hjoined

end Step

/-! The programs, with what they keep in mind from one statement to the next. -/

section Programs
variable {ι : Type} {i : ι}

def lifecycleProtocol (ι : Type) : Protocol ι LiveStore LiveStoreStatement where
  inv w := SessionsKept w.state
  guard _ l w := l.readsOn w.state ∧ l.endsInTime w.state
  promise _ l w := l.checked w.state
  inv_step _ _ _ _ hi hg hp hw := hi.step hg.1 hg.2 hp hw.1

def HasJoined (sessionId studentId : Uuid) (w : LiveWorld ι) : Prop :=
  joined w.state.lib.school sessionId studentId = true

theorem stable_hasJoined (sessionId studentId : Uuid) :
    (lifecycleProtocol ι).Stable i (HasJoined sessionId studentId) := by
  intro j l w w' _ h _ _ _ hw
  cases l with
  | utcNow now =>
    rw [HasJoined, ← Except.ok.inj hw.1]
    exact h
  | school l =>
    obtain ⟨db', hchange, hs⟩ := LiveStoreStatement.run_school hw.1
    rw [HasJoined, hs]
    exact hchange.joined h

def HasBegun (id : Uuid) (latest : Option Time) (w : LiveWorld ι) : Prop :=
  ∃ r ∈ w.state.lib.school.liveModuleSessions.rows, r.id = id ∧ ∀ t ∈ latest, r.startsAt ≤ t

theorem stable_hasBegun (id : Uuid) (latest : Option Time) :
    (lifecycleProtocol ι).Stable i (HasBegun id latest) := by
  rintro j l w w' _ ⟨r, hr, hid, hlatest⟩ _ _ _ hw
  cases l with
  | utcNow now =>
    rw [HasBegun, ← Except.ok.inj hw.1]
    exact ⟨r, hr, hid, hlatest⟩
  | school l =>
    obtain ⟨db', hchange, hs⟩ := LiveStoreStatement.run_school hw.1
    obtain ⟨r', hr', hid', hstarts, -⟩ := hchange.session_kept hr
    rw [HasBegun, hs]
    exact ⟨r', hr', hid'.trans hid, fun t ht => hstarts ▸ hlatest t ht⟩

def HasRead (now : Time) (w : LiveWorld ι) : Prop := now ≤ w.state.clock

theorem stable_hasRead (now : Time) : (lifecycleProtocol ι).Stable i (HasRead now) := by
  intro j l w w' _ h _ hg _ hw
  cases l with
  | utcNow later =>
    rw [HasRead, ← Except.ok.inj hw.1]
    exact Int.le_trans h hg.1
  | school l =>
    obtain ⟨db', hchange, hs⟩ := LiveStoreStatement.run_school hw.1
    rw [HasRead, hs]
    exact h

def CountsFit (reply : LiveReply) (_ : LiveWorld ι) : Prop :=
  ∀ items, reply = .history items → ∀ x ∈ items, x.completedCount ≤ x.participantCount

theorem follows_replying {α : Type} {f : α → LiveReply} {p : SessionProgram α}
    {P : LiveWorld ι → Prop} (hf : ∀ a items, f a ≠ .history items)
    (hp : (lifecycleProtocol ι).Follows i (fun _ _ => True) p P) :
    (lifecycleProtocol ι).Follows i CountsFit (replying f p) P :=
  Follows.bind hp fun a => Follows.ret (stable_const _ i True) fun _ _ items h =>
    absurd h (hf a items)

theorem follows_free {α : Type} {p : SessionProgram α}
    (hp : p.WritesOnly LiveStoreStatement.free) :
    (lifecycleProtocol ι).Follows i (fun _ _ => True) p (fun _ => True) :=
  Follows.of_writesOnly (fun _ w hl => hl w.state) hp

theorem follows_plain {α : Type} {p : SessionProgram α}
    (hp : p.WritesOnly LiveStoreStatement.plain) :
    (lifecycleProtocol ι).Follows i (fun _ _ => True) p (fun _ => True) :=
  follows_free (hp.imp fun _ => LiveStoreStatement.free_of_plain)

theorem onSchool_readOnly {α : Type} {p : Program Database SessionStatement HostError α}
    (hp : p.ReadOnly) : (onSchool p).ReadOnly := hp.within _ _

theorem ofStudent_readOnly {α : Type} {p : LiveProgram α} (hp : p.ReadOnly) :
    (ofStudent p).ReadOnly := hp.within _ _

theorem loadSession_readOnly (id : Uuid) (serverNow : Time) :
    (loadSession id serverNow).ReadOnly := readOnly_queryRow _ _

theorem withTask_readOnly (session : LiveSession) (student : Option Uuid) :
    (withTask session student).ReadOnly := by
  refine ReadOnly.bind (readOnly_query _) fun current => ?_
  cases student with
  | none => trivial
  | some student => exact (readOnly_query _).bind fun _ => trivial

theorem withTasks_readOnly (student : Uuid) (sessions : List LiveSession) :
    (withTasks student sessions).ReadOnly := by
  induction sessions with
  | nil => trivial
  | cons session sessions ih =>
    exact (withTask_readOnly _ _).bind fun _ => ih.bind fun _ => trivial

theorem loadSession_begun (id : Uuid) (serverNow : Time) :
    (lifecycleProtocol ι).Follows i (fun _ => HasBegun id none)
      (ofStudent (loadSession id serverNow)) (fun _ => True) := by
  rw [ofStudent, loadSession, within_queryRow]
  refine Follows.queryRow (stable_const _ i True) (fun _ => stable_hasBegun id none)
    fun w session _ _ hsession => ?_
  obtain ⟨r, hr, -⟩ := Option.bind_eq_some_iff.mp hsession
  obtain ⟨hmem, hid⟩ := Table.mem_of_find? hr
  exact ⟨r, hmem, of_decide_eq_true hid, fun t ht => by cases ht⟩

attribute [local irreducible] Protocol.Follows in
theorem start_follows (env : Env) (codes : List String) (teacher : CurrentUser)
    (req : StartLiveSessionRequest) :
    (lifecycleProtocol ι).Follows i (fun _ _ => True) (start env codes teacher req)
      (fun _ => True) := by
  have htrue := stable_const (lifecycleProtocol ι) i True
  unfold start
  refine Follows.bind (Follows.readOnly htrue (onSchool_readOnly (requireTeacher_readOnly _)))
    fun _ => ?_
  refine Follows.ofExcept_bind htrue fun _ _ => Follows.require_bind htrue fun _ => ?_
  refine Follows.bind (Follows.readOnly htrue
    (onSchool_readOnly (requireTeacherAccess_readOnly _ _))) fun _ => ?_
  refine Follows.bind (Q := fun _ => HasRead (env.now 0)) (Follows.execute htrue
    (stable_hasRead _) fun w w' _ _ hw _ => ⟨trivial, ?_⟩) fun _ => ?_
  · rw [HasRead, ← Except.ok.inj hw.1]
  · refine Follows.bind (Q := fun _ _ => True) (Follows.executeReturning (stable_hasRead _)
      (fun _ => htrue) fun w w' _ hread _ _ => ⟨hread, trivial⟩) fun session => ?_
    exact Follows.readOnly htrue (readOnly_ofExcept _)

theorem endSession_follows (env : Env) (teacher : CurrentUser) (id : Uuid) :
    (lifecycleProtocol ι).Follows i (fun _ _ => True) (endSession env teacher id)
      (fun _ => True) := by
  have htrue := stable_const (lifecycleProtocol ι) i True
  unfold endSession
  refine Follows.bind (Follows.readOnly htrue (onSchool_readOnly (requireTeacher_readOnly _)))
    fun _ => ?_
  refine Follows.bind (loadSession_begun id _) fun session => ?_
  refine Follows.bind (Follows.readOnly (stable_hasBegun id none)
    (onSchool_readOnly (requireTeacherAccess_readOnly _ _))) fun _ => ?_
  refine Follows.bind (Q := fun _ => HasBegun id (some (env.now 1))) (Follows.execute
    (stable_hasBegun id none) (stable_hasBegun id _) fun w w' hi hbegun hw hg => ⟨trivial, ?_⟩)
    fun _ => ?_
  · obtain ⟨r, hr, hid, -⟩ := hbegun
    rw [HasBegun, ← Except.ok.inj hw.1]
    refine ⟨r, hr, hid, fun t ht => ?_⟩
    obtain rfl := Option.some.inj ht
    exact Int.le_trans (hi.started r hr) hg.1
  · refine Follows.bind (Q := fun _ _ => True) (Follows.execute (stable_hasBegun id _) htrue
      fun w w' _ hbegun _ _ => ⟨?_, trivial⟩) fun _ => ?_
    · obtain ⟨r, hr, hid, hlatest⟩ := hbegun
      exact ⟨r, hr, hid, hlatest _ rfl⟩
    · exact Follows.readOnly htrue (ofStudent_readOnly (loadSession_readOnly _ _))

theorem acknowledgeTask_follows (env : Env) (student : CurrentUser) (id : Uuid)
    (req : AcknowledgeLiveSessionTaskRequest) :
    (lifecycleProtocol ι).Follows i (fun _ _ => True)
      (ofStudent (acknowledgeTask env student id req)) (fun _ => True) := by
  have htrue := stable_const (lifecycleProtocol ι) i True
  have hjoined : (lifecycleProtocol ι).Stable i (HasJoined id student.id) := stable_hasJoined _ _
  have hread : ∀ {α : Type} {p : LiveProgram α} {P : LiveWorld ι → Prop},
      (lifecycleProtocol ι).Stable i P → p.ReadOnly →
        (lifecycleProtocol ι).Follows i (fun _ => P) (ofStudent p) P := fun hP hp =>
    Follows.readOnly hP (ofStudent_readOnly hp)
  rw [ofStudent, acknowledgeTask, within_bind]
  refine Follows.bind (hread htrue (requireStudent_readOnly _)) fun _ => ?_
  rw [within_bind]
  refine Follows.bind (hread htrue (loadSession_readOnly _ _)) fun session => ?_
  rw [within_bind]
  refine Follows.bind (hread htrue (assertEnrolled_readOnly _ _)) fun _ => ?_
  rw [within_bind, within_require]
  refine Follows.require_bind htrue fun _ => ?_
  rw [within_bind]
  refine Follows.bind (Q := fun found w => found = true → HasJoined id student.id w)
    (Follows.query htrue (fun found j l w w' hj h hi hg hp hw hfound =>
      hjoined j l w w' hj (h hfound) hi hg hp hw) fun _ _ _ h => h) fun found => ?_
  rw [within_bind, within_require]
  refine Follows.require_bind (fun j l w w' hj h hi hg hp hw hfound =>
    hjoined j l w w' hj (h hfound) hi hg hp hw) fun hfound => ?_
  refine Follows.weaken (fun j l w w' hj h hi hg hp hw _ =>
    hjoined j l w w' hj (h hfound) hi hg hp hw) (fun _ h => h hfound) ?_
  rw [within_bind]
  refine Follows.bind (hread hjoined (readOnly_query _)) fun latest => ?_
  rw [within_bind, within_require]
  refine Follows.require_bind hjoined fun _ => ?_
  rw [within_bind]
  refine Follows.bind (hread hjoined (readOnly_query _)) fun current => ?_
  cases completedBefore current req.state with
  | some acknowledgement => exact Follows.ret hjoined fun _ _ => trivial
  | none =>
    dsimp only
    rw [within_bind]
    refine Follows.bind (Q := fun _ => HasJoined id student.id) (Follows.execute hjoined hjoined
      fun w w' hi h hw hg => ⟨h, ?_⟩) fun _ => ?_
    · obtain ⟨db', hchange, hs⟩ := LiveStoreStatement.run_school hw.1
      rw [HasJoined, hs]
      exact hchange.joined h
    · refine Follows.weaken hjoined (fun _ _ => trivial) (follows_free (WritesOnly.within ?_))
      refine (writesOnly_execute fun _ => trivial).bind fun _ => ?_
      refine (readOnly_query _).writesOnly.bind fun current => ?_
      cases current.bind fun c => c.2 <;> trivial

theorem ofStudent_plain {α : Type} {p : LiveProgram α}
    (hp : p.WritesOnly fun l => (LiveStoreStatement.school (.student l)).plain) :
    (ofStudent p).WritesOnly LiveStoreStatement.plain := hp.within

theorem join_plain (env : Env) (student : CurrentUser) (req : JoinLiveSessionRequest) :
    (ofStudent (join env student req)).WritesOnly LiveStoreStatement.plain := by
  refine ofStudent_plain ((requireStudent_readOnly _).writesOnly.bind fun _ => ?_)
  refine (readOnly_ofExcept _).writesOnly.bind fun code => ?_
  refine (readOnly_queryRow _ _).writesOnly.bind fun found => ?_
  refine (assertEnrolled_readOnly _ _).writesOnly.bind fun _ => ?_
  exact (writesOnly_execute trivial).bind fun _ => (withTask_readOnly _ _).writesOnly

theorem joinById_plain (env : Env) (student : CurrentUser) (id : Uuid) :
    (ofStudent (joinById env student id)).WritesOnly LiveStoreStatement.plain := by
  refine ofStudent_plain ((requireStudent_readOnly _).writesOnly.bind fun _ => ?_)
  refine (loadSession_readOnly _ _).writesOnly.bind fun session => ?_
  refine (assertEnrolled_readOnly _ _).writesOnly.bind fun _ => ?_
  refine (readOnly_require _ _).writesOnly.bind fun _ => ?_
  exact (writesOnly_execute trivial).bind fun _ => (withTask_readOnly _ _).writesOnly

theorem submitResult_plain (env : Env) (student : CurrentUser) (id : Uuid)
    (req : SubmitLiveSessionResultRequest) :
    (ofStudent (submitResult env student id req)).WritesOnly LiveStoreStatement.plain := by
  refine ofStudent_plain ((requireStudent_readOnly _).writesOnly.bind fun _ => ?_)
  refine (readOnly_require _ _).writesOnly.bind fun _ => ?_
  refine (loadSession_readOnly _ _).writesOnly.bind fun session => ?_
  refine (readOnly_require _ _).writesOnly.bind fun _ => ?_
  refine (readOnly_require _ _).writesOnly.bind fun _ => ?_
  refine (readOnly_query _).writesOnly.bind fun admitted => ?_
  refine (readOnly_require _ _).writesOnly.bind fun _ => ?_
  refine (readOnly_query _).writesOnly.bind fun revision => ?_
  refine (writesOnly_executeReturning _ trivial).bind fun inserted => ?_
  exact (readOnly_require _ _).writesOnly.bind fun _ => trivial

theorem activeForClassroom_plain (env : Env) (user : CurrentUser) (classroomId : Uuid) :
    (activeForClassroom env user classroomId).WritesOnly LiveStoreStatement.plain := by
  have hadmit : (admitViewer user classroomId (env.now 0)).WritesOnly LiveStoreStatement.plain := by
    unfold admitViewer
    split
    · exact (onSchool_readOnly (requireTeacherAccess_readOnly _ _)).writesOnly
    · exact (onSchool_readOnly (assertEnrolled_readOnly _ _)).writesOnly.bind fun _ =>
        writesOnly_execute trivial
  refine hadmit.bind fun _ => (readOnly_query _).writesOnly.bind fun session => ?_
  cases session with
  | none => trivial
  | some session =>
    exact (ofStudent_readOnly (withTask_readOnly _ _)).writesOnly.bind fun _ => trivial

theorem activeForStudent_plain (env : Env) (student : CurrentUser) :
    (activeForStudent env student).WritesOnly LiveStoreStatement.plain := by
  refine (onSchool_readOnly (requireStudent_readOnly _)).writesOnly.bind fun _ => ?_
  refine (writesOnly_execute trivial).bind fun _ => ?_
  refine (readOnly_query _).writesOnly.bind fun sessions => ?_
  exact (ofStudent_readOnly (withTasks_readOnly _ _)).writesOnly

theorem requireTarget_readOnly (missing wrong : String)
    (valid : Library.LibraryTables → Uuid → Uuid → Bool) (classroomId : Uuid)
    (target : Option Uuid) : (requireTarget missing wrong valid classroomId target).ReadOnly := by
  cases target with
  | none => trivial
  | some target => exact (readOnly_query _).bind fun _ => readOnly_require _ _

attribute [local irreducible] ReadOnly in
theorem validateTask_readOnly (sessionId classroomId : Uuid) (req : AssignLiveSessionTaskRequest) :
    (validateTask sessionId classroomId req).ReadOnly := by
  refine (readOnly_require _ _).bind fun _ => (readOnly_require _ _).bind fun _ => ?_
  cases req.kind with
  | instruction => exact readOnly_require _ _
  | assignment => exact requireTarget_readOnly _ _ _ _ _
  | material => exact requireTarget_readOnly _ _ _ _ _
  | quiz => exact requireTarget_readOnly _ _ _ _ _

attribute [local irreducible] WritesOnly in
theorem assignTask_plain (env : Env) (teacher : CurrentUser) (id : Uuid)
    (req : AssignLiveSessionTaskRequest) :
    (assignTask env teacher id req).WritesOnly LiveStoreStatement.plain := by
  refine (onSchool_readOnly (requireTeacher_readOnly _)).writesOnly.bind fun _ => ?_
  refine (ofStudent_readOnly (loadSession_readOnly _ _)).writesOnly.bind fun session => ?_
  refine (onSchool_readOnly (requireTeacherAccess_readOnly _ _)).writesOnly.bind fun _ => ?_
  refine (readOnly_require _ _).writesOnly.bind fun _ => ?_
  refine (validateTask_readOnly _ _ _).writesOnly.bind fun _ => ?_
  refine (writesOnly_executeReturning _ trivial).bind fun task => ?_
  exact (readOnly_ofExcept _).writesOnly

/-! `session_history`: the completions that are counted are of participants. -/

theorem completedCount_le {s : LiveStore} (hs : SessionsKept s) (id : Uuid) :
    completedCount s.lib.school id ≤ participantCount s.lib.school id := by
  unfold completedCount participantCount
  rw [← List.length_map (fun a : LiveAcknowledgementRow => a.studentId),
    ← List.length_map (fun p : LiveParticipantRow => p.studentId)]
  refine (List.subperm_of_subset ?_ fun studentId hmem => ?_).length_le
  · rw [List.Nodup, List.pairwise_map]
    refine (s.lib.school.liveSessionTaskAcknowledgements.unique.filter _).imp_of_mem
      fun {a a'} ha ha' hunique hsame => ?_
    simp only [List.mem_filter, Bool.and_eq_true, decide_eq_true_eq] at ha ha'
    have hrevision : a.taskRevision = a'.taskRevision :=
      Option.some.inj (ha.2.2.trans ha'.2.2.symm)
    simp [Keyed.clash, ha.2.1.1, ha'.2.1.1, hrevision, hsame] at hunique
  · obtain ⟨a, ha, rfl⟩ := List.mem_map.mp hmem
    simp only [List.mem_filter, Bool.and_eq_true, decide_eq_true_eq] at ha
    obtain ⟨p, hp, hkey⟩ := List.any_eq_true.mp (hs.acknowledged a ha.1)
    simp only [Bool.and_eq_true, decide_eq_true_eq] at hkey
    refine List.mem_map.mpr ⟨p, List.mem_filter.mpr ⟨hp, ?_⟩, hkey.2⟩
    exact decide_eq_true (hkey.1.trans ha.2.1.1)

def ItemsFit (items : List LiveSessionHistoryItem) : Prop :=
  ∀ x ∈ items, x.completedCount ≤ x.participantCount

theorem historyItems_follows (rows : List LiveSessionHistoryItem) (hrows : ItemsFit rows) :
    (lifecycleProtocol ι).Follows i (fun items _ => ItemsFit items)
      (ofStudent (historyItems rows)) (fun _ => True) := by
  have htrue := stable_const (lifecycleProtocol ι) i True
  induction rows with
  | nil => exact Follows.ret htrue fun _ _ x hx => by cases hx
  | cons row rows ih =>
    rw [ofStudent, historyItems, within_bind]
    refine Follows.bind (Follows.readOnly htrue (ofStudent_readOnly (withTask_readOnly _ _)))
      fun session => ?_
    rw [within_bind]
    refine Follows.bind (ih fun x hx => hrows x (List.mem_cons_of_mem _ hx)) fun items => ?_
    refine Follows.ret (stable_const _ i _) fun _ hitems x hx => ?_
    rcases List.mem_cons.mp hx with rfl | hx
    · exact hrows row List.mem_cons_self
    · exact hitems x hx

theorem sessionHistory_follows (env : Env) (teacher : CurrentUser) (classroomId : Uuid) :
    (lifecycleProtocol ι).Follows i CountsFit
      (replying .history (sessionHistory env teacher classroomId)) (fun _ => True) := by
  have htrue := stable_const (lifecycleProtocol ι) i True
  refine Follows.bind (Q := fun items _ => ItemsFit items) ?_ fun items =>
    Follows.ret (stable_const _ i _) fun _ hitems items' h => by cases h; exact hitems
  refine Follows.bind (Follows.readOnly htrue (onSchool_readOnly (requireTeacher_readOnly _)))
    fun _ => ?_
  refine Follows.bind (Follows.readOnly htrue
    (onSchool_readOnly (requireTeacherAccess_readOnly _ _))) fun _ => ?_
  -- The rows are counted in the state they are read in.
  refine ⟨htrue, fun w hi _ => ⟨fun _ => True, trivial, historyItems_follows _ fun x hx => ?_⟩⟩
  obtain ⟨r, -, hrow⟩ := List.mem_filterMap.mp (List.mem_mergeSort.mp (List.mem_of_mem_take hx))
  obtain ⟨c, -, rfl⟩ := Option.map_eq_some_iff.mp hrow
  have hle := completedCount_le hi r.id
  exact le_min (Nat.le_trans (min_le_left _ _) hle) (min_le_right _ _)

theorem handle_follows (c : LiveCall) :
    (lifecycleProtocol ι).Follows i CountsFit (handle c) (fun _ => True) := by
  obtain ⟨env, user, request⟩ := c
  cases request with
  | start codes req => exact follows_replying (by simp) (start_follows env codes user req)
  | activeForClassroom id =>
    exact follows_replying (by simp) (follows_plain (activeForClassroom_plain env user id))
  | activeForStudent =>
    exact follows_replying (by simp) (follows_plain (activeForStudent_plain env user))
  | join req => exact follows_replying (by simp) (follows_plain (join_plain env user req))
  | joinById id => exact follows_replying (by simp) (follows_plain (joinById_plain env user id))
  | assignTask id req =>
    exact follows_replying (by simp) (follows_plain (assignTask_plain env user id req))
  | acknowledgeTask id req =>
    exact follows_replying (by simp) (acknowledgeTask_follows env user id req)
  | submitResult id req =>
    exact follows_replying (by simp) (follows_plain (submitResult_plain env user id req))
  | sessionHistory id => exact sessionHistory_follows env user id
  | endSession id => exact follows_replying (by simp) (endSession_follows env user id)

end Programs

structure Lifecycle (db : Database) : Prop where
  oneOpen : ∀ r ∈ db.liveModuleSessions.rows, ∀ r' ∈ db.liveModuleSessions.rows,
    r.classroomId = r'.classroomId → r.endedAt = none → r'.endedAt = none → r = r'
  ended : ∀ r ∈ db.liveModuleSessions.rows, ∀ t ∈ r.endedAt, r.startsAt ≤ t ∧ t ≤ r.endsAt
  acknowledged : ∀ a ∈ db.liveSessionTaskAcknowledgements.rows,
    joined db a.sessionId a.studentId = true
  resulted : ∀ r ∈ db.liveModuleResults.rows, joined db r.sessionId r.studentId = true
  oneResult : ∀ r ∈ db.liveModuleResults.rows, ∀ r' ∈ db.liveModuleResults.rows,
    r.sessionId = r'.sessionId → r.studentId = r'.studentId → r = r'
  counted : ∀ id, completedCount db id ≤ participantCount db id

theorem SessionsKept.lifecycle {s : LiveStore} (hs : SessionsKept s) : Lifecycle s.lib.school where
  oneOpen r hr r' hr' hclassroom hopen hopen' :=
    Table.eq_of_clash hr hr' (by simp [Keyed.clash, hclassroom, hopen, hopen'])
  ended := hs.ended
  acknowledged := hs.acknowledged
  resulted := hs.resulted
  oneResult r hr r' hr' hsession hstudent :=
    Table.eq_of_clash hr hr' (by simp [Keyed.clash, hsession, hstudent])
  counted := completedCount_le hs

section Runs
variable {ι : Type}

theorem endsInTime_of_lifecycle {i : ι} {l : LiveStoreStatement} {w w' : LiveWorld ι}
    (hw : World.Wrote i l w w') (h : Lifecycle w'.state.lib.school) : l.endsInTime w.state := by
  cases l with
  | utcNow now => trivial
  | school l =>
    cases l with
    | endSession id now =>
      intro r hr hid hopen
      have hended : endAt now r ∈ w'.state.lib.school.liveModuleSessions.rows := by
        rw [← Except.ok.inj hw.1]
        refine (Table.mem_release (endAt_frees now)).mpr ⟨r, hr, ?_⟩
        rw [if_pos (decide_eq_true hid)]
      exact (h.ended _ hended now (by simp [endAt, hopen])).2
    | student l => trivial
    | start new => trivial
    | assign new => trivial
    | seen studentId classroomId now => trivial

variable [DecidableEq ι]

theorem results_run {r : LiveResultRow} {c : LivePool ι}
    (hr : r ∈ c.world.state.lib.school.liveModuleResults.rows) (ms : List (Move ι LiveCall)) :
    r ∈ (c.run handle ms).world.state.lib.school.liveModuleResults.rows := by
  refine inv_run (I := fun w : LiveWorld ι => r ∈ w.state.lib.school.liveModuleResults.rows)
    (fun i l w w' hmem hw => ?_) hr ms
  cases l with
  | utcNow now =>
    rw [← Except.ok.inj hw.1]
    exact hmem
  | school l =>
    obtain ⟨db', hchange, hs⟩ := LiveStoreStatement.run_school hw.1
    rw [hs]
    exact hchange.results.1 r hmem

/-- Under a clock that does not go back, sessions are in order in every state of a
run if and only if none is ended after its time. -/
theorem session_lifecycle_iff (s : LiveStore) (hs : SessionsKept s) (ms : List (Move ι LiveCall))
    (hclock : (Pool.idle s : LivePool ι).Guarded handle (fun _ => True)
      (fun _ l w => l.readsOn w.state) ms) :
    (Pool.idle s : LivePool ι).Guarded handle (fun _ => True)
        (fun _ l w => l.endsInTime w.state) ms ↔
      ∀ ns, ns <+: ms →
        Lifecycle ((Pool.idle s : LivePool ι).run handle ns).world.state.lib.school ∧
        (∀ r ∈ ((Pool.idle s : LivePool ι).run handle
          ns).world.state.lib.school.liveModuleResults.rows,
          r ∈ ((Pool.idle s : LivePool ι).run handle
            ms).world.state.lib.school.liveModuleResults.rows) ∧
        ∀ i call items, ((Pool.idle s : LivePool ι).run handle ns).procs i =
          some (call, .ret (.history items)) → ItemsFit items := by
  constructor
  · intro hend ns hns
    have hrunning : (lifecycleProtocol ι).Running (fun _ _ => CountsFit)
        ((Pool.idle s : LivePool ι).run handle ns) :=
      running_run (fun i c _ => handle_follows c) (running_idle hs)
        (Pool.guarded_prefix (Pool.guarded_and hclock hend) hns)
    obtain ⟨hkept, hprocs⟩ := hrunning
    refine ⟨hkept.lifecycle, fun r hr => ?_, fun i call items hp => ?_⟩
    · obtain ⟨rest, rfl⟩ := hns
      rw [Pool.run_append]
      exact results_run hr rest
    · obtain ⟨P, hP, hfollows⟩ := hprocs i call _ hp
      exact hfollows.2 _ hP items rfl
  · intro h
    exact Pool.guarded_of_prefixes (P := fun w : LiveWorld ι => Lifecycle w.state.lib.school)
      (fun _ _ _ _ hw hP => endsInTime_of_lifecycle hw hP) (fun _ _ _ => trivial)
      fun ns hns => (h ns hns).1

end Runs

/-! A lesson: the teacher starts a session and assigns a task, the student joins,
completes it and submits a result, and the teacher ends the session. -/

section Lesson

def sampleLive : LiveStore := ⟨{ school := sampleClassroom }, 0⟩

def liveAlone (i : Nat) (t : Time) (user : CurrentUser) (request : LiveRequest) :
    List (Move Nat LiveCall) :=
  .start i ⟨sampleEnv t, user, request⟩ :: List.replicate 12 (.advance i)

def sampleStart : List (Move Nat LiveCall) :=
  liveAlone 0 10 sampleTeacher (.start ["ABCDEFGHJK"] ⟨3, "m1", "Light", 5⟩)

def sampleLesson : List (Move Nat LiveCall) :=
  sampleStart ++ liveAlone 1 20 sampleStudent (.join ⟨" abcdefghjk"⟩) ++
    liveAlone 2 30 sampleTeacher (.assignTask 1000 ⟨.instruction, none, "Read", ""⟩) ++
    liveAlone 3 40 sampleStudent (.acknowledgeTask 1000 ⟨1, .completed⟩) ++
    liveAlone 4 50 sampleStudent (.submitResult 1000 ⟨80, 30⟩) ++
    liveAlone 5 60 sampleTeacher (.endSession 1000) ++
    liveAlone 6 70 sampleTeacher (.sessionHistory 3)

theorem sampleLive_kept : SessionsKept sampleLive :=
  ⟨by decide, by decide, by decide, by decide, by decide⟩

theorem session_lifecycle_iff_lesson :
    (((Pool.idle sampleLive : LivePool Nat).run handle
      sampleLesson).world.state.lib.school.liveModuleSessions.rows.map fun r =>
        r.endedAt) = [some 61] ∧
    ∀ ns, ns <+: sampleLesson →
      Lifecycle ((Pool.idle sampleLive : LivePool Nat).run handle ns).world.state.lib.school ∧
      (∀ r ∈ ((Pool.idle sampleLive : LivePool Nat).run handle
        ns).world.state.lib.school.liveModuleResults.rows,
        r ∈ ((Pool.idle sampleLive : LivePool Nat).run handle
          sampleLesson).world.state.lib.school.liveModuleResults.rows) ∧
      ∀ i call items, ((Pool.idle sampleLive : LivePool Nat).run handle ns).procs i =
        some (call, .ret (.history items)) → ItemsFit items :=
  ⟨by decide +kernel, (session_lifecycle_iff sampleLive sampleLive_kept sampleLesson
    (by decide +kernel)).mp (by decide +kernel)⟩

def sampleLateEnd : List (Move Nat LiveCall) :=
  sampleStart ++ liveAlone 1 400000000000 sampleTeacher (.endSession 1000)

theorem late_end_is_recorded_after_ends_at :
    (Pool.idle sampleLive : LivePool Nat).Guarded handle (fun _ => True)
        (fun _ l w => l.readsOn w.state) sampleLateEnd ∧
    ¬ ∀ r ∈ ((Pool.idle sampleLive : LivePool Nat).run handle
        sampleLateEnd).world.state.lib.school.liveModuleSessions.rows,
      ∀ t ∈ r.endedAt, r.startsAt ≤ t ∧ t ≤ r.endsAt := by
  decide +kernel

end Lesson

end Cinder.LiveSessions
