import Cinder.LiveSessions.LiveHandlers
set_option autoImplicit false

/-!
What the requests of a live session check. Joining by code and submitting a
result check the enrolment and that the classroom is active; joining by id and
acknowledging a task check the enrolment only.
-/

namespace Cinder.LiveSessions
open Cinder.Host Cinder.Storage Cinder.Programs Cinder.Programs.Program

def sessionOfCode (db : Database) (req : JoinLiveSessionRequest) : Option LiveSessionRow :=
  db.liveModuleSessions.find? fun s => lower s.joinCode = lower (upper (trim req.code))

def OpenTo (db : Database) (s : LiveSessionRow) (studentId : Uuid) (now : Time) : Prop :=
  enrolled db s.classroomId studentId = true ∧ s.endedAt = none ∧ now < s.endsAt

instance (db : Database) (s : LiveSessionRow) (studentId : Uuid) (now : Time) :
    Decidable (OpenTo db s studentId now) := inferInstanceAs (Decidable (_ ∧ _ ∧ _))

variable {env : Env} {db : Database} {student : CurrentUser} {id : Uuid}

theorem normalizeJoinCode_ok {raw code : String} (h : normalizeJoinCode raw = .ok code) :
    code = upper (trim raw) := by
  unfold normalizeJoinCode at h
  dsimp only at h
  split at h
  · exact (Except.ok.inj h).symm
  · exact absurd h (by simp)

section Refused

theorem openSession?_code {s : LiveSessionRow} {c : ClassroomRow} {code : String} {now : Time}
    (h : openSession? db code now = some (s, c)) :
    (db.liveModuleSessions.find? fun s => lower s.joinCode = lower code) = some s ∧
      classroom? db s.classroomId = some c ∧ c.archivedAt.isNone = true := by
  obtain ⟨s', hs, h⟩ := Option.bind_eq_some_iff.mp h
  obtain ⟨c', hc, h⟩ := Option.bind_eq_some_iff.mp h
  split at h
  · rename_i harchived
    cases h
    obtain ⟨hmem, hcode⟩ := Table.mem_of_find? hs
    simp only [Bool.and_eq_true, decide_eq_true_eq] at hcode
    refine ⟨Table.find?_of_mem hmem (by simpa using hcode.1.1) fun r _ hr => ?_, hc, harchived⟩
    simp only [decide_eq_true_eq] at hr
    simp [Keyed.clash, hr, hcode.1.1]
  · cases h

theorem join_refused (req : JoinLiveSessionRequest) :
    (join env student req).RefusedUnless (∃ s ∈ sessionOfCode db req,
      activelyEnrolled db s.classroomId student.id = true) db := by
  unfold join
  refine refusedUnless_requireStudent_bind fun _ => ?_
  refine refusedUnless_bind (readOnly_ofExcept _) fun code hcode => ?_
  obtain ⟨hcode, -⟩ := exec_ofExcept_ok hcode
  refine refusedUnless_queryRow_bind fun ⟨s, c⟩ hsession => ?_
  obtain ⟨hs, hc, harchived⟩ := openSession?_code hsession
  refine refusedUnless_assertEnrolled_bind fun henrolled => refusedUnless_of ⟨s, ?_, ?_⟩
  · rw [normalizeJoinCode_ok hcode] at hs
    exact hs
  · simp [activelyEnrolled, henrolled, hc, harchived]

theorem refusedUnless_loadSession_bind {α : Type} {c : Prop} {serverNow : Time}
    {f : LiveSession → LiveProgram α}
    (h : ∀ s k, liveSession? db id = some s → (f (sessionRow s k serverNow)).RefusedUnless c db) :
    (loadSession id serverNow >>= f).RefusedUnless c db := by
  refine refusedUnless_queryRow_bind fun session hsession => ?_
  obtain ⟨s, hs, hsession⟩ := Option.bind_eq_some_iff.mp hsession
  obtain ⟨k, -, hsession⟩ := Option.bind_eq_some_iff.mp hsession
  cases hsession
  exact h s k hs

theorem joinById_refused :
    (joinById env student id).RefusedUnless (student.role.isTeacher = false ∧
      ∃ s ∈ liveSession? db id, OpenTo db s student.id (env.now 1)) db := by
  unfold joinById
  refine refusedUnless_requireStudent_bind fun hstudent => ?_
  refine refusedUnless_loadSession_bind fun s k hs => ?_
  refine refusedUnless_assertEnrolled_bind fun henrolled => ?_
  refine refusedUnless_require_bind fun hopen => ?_
  exact refusedUnless_of ⟨hstudent, s, hs, henrolled, hopen⟩

theorem acknowledgeTask_refused (req : AcknowledgeLiveSessionTaskRequest) :
    (acknowledgeTask env student id req).RefusedUnless (student.role.isTeacher = false ∧
      (∃ s ∈ liveSession? db id, OpenTo db s student.id (env.now 1)) ∧
      joined db id student.id = true ∧ latestRevision db id = some req.revision) db := by
  unfold acknowledgeTask
  refine refusedUnless_requireStudent_bind fun hstudent => ?_
  refine refusedUnless_loadSession_bind fun s k hs => ?_
  refine refusedUnless_assertEnrolled_bind fun henrolled => ?_
  refine refusedUnless_require_bind fun hopen => refusedUnless_query_bind ?_
  refine refusedUnless_require_bind fun hjoined => refusedUnless_query_bind ?_
  refine refusedUnless_require_bind fun hlatest => ?_
  exact refusedUnless_of ⟨hstudent, ⟨s, hs, henrolled, hopen⟩, hjoined, hlatest⟩

theorem submitResult_refused (req : SubmitLiveSessionResultRequest) :
    (submitResult env student id req).RefusedUnless (∃ s ∈ liveSession? db id,
      activelyEnrolled db s.classroomId student.id = true) db := by
  unfold submitResult
  refine refusedUnless_requireStudent_bind fun _ => refusedUnless_require_bind fun _ => ?_
  refine refusedUnless_loadSession_bind fun s k hs => ?_
  refine refusedUnless_require_bind fun _ => refusedUnless_require_bind fun _ => ?_
  refine refusedUnless_query_bind (refusedUnless_require_bind fun hadmitted => ?_)
  refine refusedUnless_of ⟨s, hs, ?_⟩
  obtain ⟨p, -, hp⟩ := List.any_eq_true.mp hadmitted
  simp only [Bool.and_eq_true, decide_eq_true_eq, List.any_eq_true] at hp
  obtain ⟨⟨hsession, hsid⟩, s', hs', ⟨hid, c, hc, hcid, harchived⟩, henrolled⟩ := hp
  have hsame : s' = s := Table.eq_of_clash hs' (Table.mem_of_find? hs).1 (by
    have hsid := (Table.mem_of_find? hs).2
    simp only [decide_eq_true_eq] at hsid
    simp [Keyed.clash, hid, hsession, hsid])
  subst hsame
  rw [hsid] at henrolled
  have hclassroom : classroom? db s'.classroomId = some c :=
    Table.find?_of_mem hc (by simpa using hcid) fun r _ hr => by
      simp only [decide_eq_true_eq] at hr
      simp [Keyed.clash, hr, hcid]
  simp [activelyEnrolled, henrolled, hclassroom, harchived]

end Refused

section Succeeds

theorem withTask_succeeds (session : LiveSession) (studentId : Uuid) :
    (withTask session (some studentId)).Succeeds db :=
  ⟨_, _, rfl⟩

theorem succeeds_loadSession_bind {α : Type} {serverNow : Time} {s : LiveSessionRow}
    {k : ClassroomRow} {f : LiveSession → LiveProgram α} (hs : liveSession? db id = some s)
    (hk : classroom? db s.classroomId = some k)
    (h : (f (sessionRow s k serverNow)).Succeeds db) :
    (loadSession id serverNow >>= f).Succeeds db :=
  succeeds_queryRow_bind (by simp [hs, hk]) h

theorem run_join_isOk (row : LiveParticipantRow) {s : LiveSessionRow}
    (hs : liveSession? db row.sessionId = some s) :
    ∃ db', (LiveStatement.join row).run db = .ok db' := by
  have hstored : ∃ t, db.liveModuleParticipants.upsert
      (fun p => p.sessionId = row.sessionId && p.studentId = row.studentId)
      (seenAgain row) (seenAgain_keeps row) row = some t := Table.upsert_isSome fun _ _ hx => hx
  obtain ⟨participants, hp⟩ := hstored
  exact ⟨{ db with liveModuleParticipants := participants }, by
    simp [LiveStatement.run, referenced, hs, hp, stored]; rfl⟩

theorem joinById_succeeds {s : LiveSessionRow} {k : ClassroomRow}
    (hstudent : student.role.isTeacher = false) (hs : liveSession? db id = some s)
    (hk : classroom? db s.classroomId = some k) (hopen : OpenTo db s student.id (env.now 1)) :
    (joinById env student id).Succeeds db := by
  obtain ⟨henrolled, hopen⟩ := hopen
  obtain ⟨db', hdb⟩ := run_join_isOk (participantRow id student.id (env.now 1)) hs
  unfold joinById
  refine succeeds_requireStudent_bind hstudent (succeeds_loadSession_bind hs hk ?_)
  refine succeeds_assertEnrolled_bind henrolled (succeeds_require_bind hopen ?_)
  exact succeeds_execute_bind hdb (withTask_succeeds _ _)

theorem currentTask?_of_latest {revision : Nat} (h : latestRevision db id = some revision) :
    ∃ t, currentTask? db id = some t ∧ t.revision = revision ∧ taskStored db id revision = true := by
  obtain ⟨t, ht, rfl⟩ := List.mem_map.mp (List.max?_mem h)
  obtain ⟨ht, hid⟩ := List.mem_filter.mp ht
  have hkey : (t.sessionId = id && t.revision = t.revision : Bool) = true := by simpa using hid
  obtain ⟨t', hfound⟩ := Table.find?_isSome (p := fun x : LiveTaskRow =>
    x.sessionId = id && x.revision = t.revision) ⟨t, ht, hkey⟩
  refine ⟨t', ?_, ?_, List.any_eq_true.mpr ⟨t, ht, hkey⟩⟩
  · simp [currentTask?, h, hfound]
  · have := (Table.mem_of_find? hfound).2
    simp only [Bool.and_eq_true, decide_eq_true_eq] at this
    exact this.2

theorem run_acknowledge_isOk (row : LiveAcknowledgementRow)
    (htask : taskStored db row.sessionId row.taskRevision = true) :
    ∃ db' a, (LiveStatement.acknowledge row).run db = .ok db' ∧
      db'.liveSessionTasks = db.liveSessionTasks ∧
      acknowledgement? db' row.sessionId row.taskRevision row.studentId = some a := by
  have hstored : ∃ t, db.liveSessionTaskAcknowledgements.upsert
      (fun a => a.sessionId = row.sessionId && a.taskRevision = row.taskRevision &&
        a.studentId = row.studentId)
      (acknowledgeAgain row) (acknowledgeAgain_keeps row) row = some t :=
    Table.upsert_isSome fun _ _ hx => hx
  obtain ⟨t, ht⟩ := hstored
  obtain ⟨a, ha⟩ := Table.find?_isSome (Table.any_upsert ht (by simp) fun _ => rfl)
  refine ⟨{ db with liveSessionTaskAcknowledgements := t }, a, ?_, rfl, ha⟩
  simp [LiveStatement.run, referenced, htask, ht, stored]
  rfl

theorem acknowledgeTask_succeeds {req : AcknowledgeLiveSessionTaskRequest} {s : LiveSessionRow}
    {k : ClassroomRow} (hstudent : student.role.isTeacher = false)
    (hs : liveSession? db id = some s) (hk : classroom? db s.classroomId = some k)
    (hopen : OpenTo db s student.id (env.now 1)) (hjoined : joined db id student.id = true)
    (hlatest : latestRevision db id = some req.revision) :
    (acknowledgeTask env student id req).Succeeds db := by
  obtain ⟨henrolled, hopen⟩ := hopen
  obtain ⟨t, ht, hrevision, htask⟩ := currentTask?_of_latest hlatest
  unfold acknowledgeTask
  refine succeeds_requireStudent_bind hstudent (succeeds_loadSession_bind hs hk ?_)
  refine succeeds_assertEnrolled_bind henrolled (succeeds_require_bind hopen ?_)
  refine succeeds_query_bind (succeeds_require_bind hjoined ?_)
  refine succeeds_query_bind (succeeds_require_bind hlatest (succeeds_query_bind ?_))
  split
  · exact ⟨_, _, rfl⟩
  · obtain ⟨db', a, hdb, htasks, ha⟩ := run_acknowledge_isOk
      { sessionId := id, taskRevision := req.revision, studentId := student.id
        state := req.state, updatedAt := env.now 2 } htask
    have hsame : currentTask? db' id = some t := by
      simpa only [currentTask?, latestRevision, htasks] using ht
    have hevent : ∃ db'', (LiveStatement.taskEvent ⟨id, req.revision, student.id, req.state,
        env.now 2⟩).run db' = .ok db'' ∧ currentTask? db'' id = some t ∧
        acknowledgement? db'' id req.revision student.id = some a := by
      have htask' : taskStored db' id req.revision = true := by
        simpa only [taskStored, htasks] using htask
      refine ⟨{ db' with liveSessionTaskEvents := db'.liveSessionTaskEvents ++ [⟨id, req.revision,
        student.id, req.state, env.now 2⟩] }, ?_, hsame, ha⟩
      simp [LiveStatement.run, referenced, htask']
      rfl
    obtain ⟨db'', hdb', hcurrent, hfound⟩ := hevent
    refine succeeds_execute_bind hdb (succeeds_execute_bind hdb' (succeeds_query_bind ?_))
    simp only [hcurrent, hrevision, hfound, Option.map_some, Option.bind_some]
    exact ⟨_, _, rfl⟩

end Succeeds

end Cinder.LiveSessions
