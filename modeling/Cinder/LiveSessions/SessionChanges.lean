import Cinder.LiveSessions.SessionRequests
set_option autoImplicit false

namespace Cinder.LiveSessions
open Cinder.Host Cinder.Storage Cinder.Programs

/-- The statements that take effect, with what they found and what they leave. -/
inductive SessionChange (db : Database) : SessionStatement → Database → Prop where
  | join {row : LiveParticipantRow} {participants : Table LiveParticipantRow}
      (stored : db.liveModuleParticipants.upsert
        (fun p => p.sessionId = row.sessionId && p.studentId = row.studentId)
        (seenAgain row) (seenAgain_keeps row) row = some participants) :
      SessionChange db (.student (.join row)) { db with liveModuleParticipants := participants }
  | acknowledge {row : LiveAcknowledgementRow}
      {acknowledgements : Table LiveAcknowledgementRow}
      (task : taskStored db row.sessionId row.taskRevision = true)
      (stored : db.liveSessionTaskAcknowledgements.upsert
        (fun a => a.sessionId = row.sessionId && a.taskRevision = row.taskRevision &&
          a.studentId = row.studentId)
        (acknowledgeAgain row) (acknowledgeAgain_keeps row) row = some acknowledgements) :
      SessionChange db (.student (.acknowledge row))
        { db with liveSessionTaskAcknowledgements := acknowledgements }
  | taskEvent {row : LiveTaskEventRow}
      (task : taskStored db row.sessionId row.taskRevision = true) :
      SessionChange db (.student (.taskEvent row))
        { db with liveSessionTaskEvents := db.liveSessionTaskEvents ++ [row] }
  | secondResult {row : LiveResultRow} : SessionChange db (.student (.result row)) db
  | result {row : LiveResultRow} {results : Table LiveResultRow}
      (participant : joined db row.sessionId row.studentId = true)
      (stored : db.liveModuleResults.insert row = some results) :
      SessionChange db (.student (.result row)) { db with liveModuleResults := results }
  | start {new : NewLiveSession} {joinCode : String} {sessions : Table LiveSessionRow}
      (stored : (db.liveModuleSessions.release (expired new.classroomId new.startsAt)
        endNaturally endNaturally_frees).insert (new.row joinCode) = some sessions) :
      SessionChange db (.start new) { db with liveModuleSessions := sessions }
  | assign {new : NewLiveTask} {tasks : Table LiveTaskRow}
      (stored : db.liveSessionTasks.insert
        (new.row ((latestRevision db new.sessionId).getD 0+1)) = some tasks) :
      SessionChange db (.assign new) { db with liveSessionTasks := tasks }
  | endSession {id : Uuid} {now : Time} :
      SessionChange db (.endSession id now) { db with
        liveModuleSessions := db.liveModuleSessions.release (fun s => s.id = id) (endAt now)
          (endAt_frees now) }
  | seen {studentId : Uuid} {classroomId : Option Uuid} {now : Time} :
      SessionChange db (.seen studentId classroomId now) { db with
        liveModuleParticipants := db.liveModuleParticipants.update
          (renewed db studentId classroomId now) (seenAt now) (seenAt_keeps now) }

section Change
variable {db db' : Database} {l : SessionStatement}

theorem SessionStatement.change (h : l.run db = .ok db') : SessionChange db l db' := by
  cases l with
  | student l =>
    cases l with
    | join row =>
      obtain ⟨_, -, h⟩ := bind_eq_ok.mp h
      obtain ⟨participants, hstored, h⟩ := bind_eq_ok.mp h
      cases h
      exact .join (stored_eq_ok.mp hstored)
    | acknowledge row =>
      obtain ⟨_, htask, h⟩ := bind_eq_ok.mp h
      obtain ⟨acknowledgements, hstored, h⟩ := bind_eq_ok.mp h
      cases h
      exact .acknowledge (referenced_ok htask) (stored_eq_ok.mp hstored)
    | taskEvent row =>
      obtain ⟨_, htask, h⟩ := bind_eq_ok.mp h
      cases h
      exact .taskEvent (referenced_ok htask)
    | result row =>
      simp only [run, LiveStatement.run] at h
      split at h
      · cases h
        exact .secondResult
      · obtain ⟨_, hjoined, h⟩ := bind_eq_ok.mp h
        obtain ⟨results, hstored, h⟩ := bind_eq_ok.mp h
        cases h
        exact .result (referenced_ok hjoined) (stored_eq_ok.mp hstored)
  | start new =>
    obtain ⟨_, -, h⟩ := bind_eq_ok.mp h
    obtain ⟨joinCode, -, h⟩ := bind_eq_ok.mp h
    obtain ⟨_, -, h⟩ := bind_eq_ok.mp h
    obtain ⟨sessions, hstored, h⟩ := bind_eq_ok.mp h
    cases h
    exact .start (stored_eq_ok.mp hstored)
  | assign new =>
    obtain ⟨_, -, h⟩ := bind_eq_ok.mp h
    obtain ⟨tasks, hstored, h⟩ := bind_eq_ok.mp h
    cases h
    exact .assign (stored_eq_ok.mp hstored)
  | endSession id now => cases h; exact .endSession
  | seen studentId classroomId now => cases h; exact .seen

theorem LiveStoreStatement.run_school {s s' : LiveStore}
    (h : (LiveStoreStatement.school l).run s = .ok s') :
    ∃ db', SessionChange s.lib.school l db' ∧ s' = s.withSchool db' := by
  cases hrun : l.run s.lib.school with
  | error e => simp [run, hrun, Except.map] at h
  | ok db' =>
    simp only [run, hrun, Except.map, Except.ok.injEq] at h
    exact ⟨db', SessionStatement.change hrun, h.symm⟩

theorem SessionChange.joined (h : SessionChange db l db') {sessionId studentId : Uuid}
    (hjoined : joined db sessionId studentId = true) : joined db' sessionId studentId = true := by
  obtain ⟨p, hp, hkey⟩ := List.any_eq_true.mp hjoined
  cases h with
  | join hstored =>
    rcases Table.upsert_cases hstored with ⟨hany, rfl⟩ | ⟨hany, hinsert⟩
    · refine List.any_eq_true.mpr ⟨_, List.mem_map.mpr ⟨p, hp, rfl⟩, ?_⟩
      split <;> exact hkey
    · exact List.any_eq_true.mpr ⟨p, (Table.mem_insert hinsert).mpr (.inl hp), hkey⟩
  | seen =>
    refine List.any_eq_true.mpr ⟨_, List.mem_map.mpr ⟨p, hp, rfl⟩, ?_⟩
    split <;> exact hkey
  | _ => exact hjoined

theorem SessionChange.session_kept (h : SessionChange db l db') {s : LiveSessionRow}
    (hs : s ∈ db.liveModuleSessions.rows) :
    ∃ s' ∈ db'.liveModuleSessions.rows,
      s'.id = s.id ∧ s'.startsAt = s.startsAt ∧ s'.endsAt = s.endsAt := by
  cases h with
  | @start new joinCode sessions hstored =>
    refine ⟨_, (Table.mem_insert hstored).mpr (.inl ((Table.mem_release endNaturally_frees).mpr ⟨s, hs, rfl⟩)), ?_⟩
    split <;> exact ⟨rfl, rfl, rfl⟩
  | endSession =>
    refine ⟨_, (Table.mem_release (endAt_frees _)).mpr ⟨s, hs, rfl⟩, ?_⟩
    split <;> exact ⟨rfl, rfl, rfl⟩
  | _ => exact ⟨s, hs, rfl, rfl, rfl⟩

/-- Where a session comes from: it was stored, and may have been ended since, or it
has just been started. -/
theorem SessionChange.session_from (h : SessionChange db l db') {s' : LiveSessionRow}
    (hs : s' ∈ db'.liveModuleSessions.rows) :
    s' ∈ db.liveModuleSessions.rows ∨ (∃ s ∈ db.liveModuleSessions.rows, s' = endNaturally s) ∨
      (∃ id now, l = .endSession id now ∧ ∃ s ∈ db.liveModuleSessions.rows, s.id = id ∧
        s' = endAt now s) ∨
      ∃ new joinCode, l = .start new ∧ s' = new.row joinCode := by
  cases h with
  | @start new joinCode sessions hstored =>
    rcases (Table.mem_insert hstored).mp hs with hold | rfl
    · obtain ⟨s, hmem, rfl⟩ := (Table.mem_release endNaturally_frees).mp hold
      split
      · exact .inr (.inl ⟨s, hmem, rfl⟩)
      · exact .inl hmem
    · exact .inr (.inr (.inr ⟨new, joinCode, rfl, rfl⟩))
  | @endSession id now =>
    obtain ⟨s, hmem, rfl⟩ := (Table.mem_release (endAt_frees now)).mp hs
    split
    · next hid => exact .inr (.inr (.inl ⟨id, now, rfl, s, hmem, of_decide_eq_true hid, rfl⟩))
    · exact .inl hmem
  | _ => exact .inl hs

theorem SessionChange.acknowledgement_from (h : SessionChange db l db')
    {a : LiveAcknowledgementRow} (ha : a ∈ db'.liveSessionTaskAcknowledgements.rows) :
    (∃ a₀ ∈ db.liveSessionTaskAcknowledgements.rows,
      a₀.sessionId = a.sessionId ∧ a₀.studentId = a.studentId) ∨
      ∃ row, l = .student (.acknowledge row) ∧ row.sessionId = a.sessionId ∧
        row.studentId = a.studentId := by
  cases h with
  | @acknowledge row acknowledgements htask hstored =>
    rcases Table.upsert_cases hstored with ⟨hany, rfl⟩ | ⟨hany, hinsert⟩
    · obtain ⟨a₀, ha₀, rfl⟩ := List.mem_map.mp ha
      refine .inl ⟨a₀, ha₀, ?_⟩
      split <;> exact ⟨rfl, rfl⟩
    · rcases (Table.mem_insert hinsert).mp ha with hold | rfl
      · exact .inl ⟨a, hold, rfl, rfl⟩
      · exact .inr ⟨a, rfl, rfl, rfl⟩
  | _ => exact .inl ⟨a, ha, rfl, rfl⟩

theorem SessionChange.results (h : SessionChange db l db') :
    (∀ r ∈ db.liveModuleResults.rows, r ∈ db'.liveModuleResults.rows) ∧
    ∀ r ∈ db'.liveModuleResults.rows, r ∈ db.liveModuleResults.rows ∨
      Cinder.LiveSessions.joined db r.sessionId r.studentId = true := by
  cases h with
  | result hjoined hstored =>
    refine ⟨fun r hr => (Table.mem_insert hstored).mpr (.inl hr), fun r hr => ?_⟩
    rcases (Table.mem_insert hstored).mp hr with hold | rfl
    · exact .inl hold
    · exact .inr hjoined
  | _ => exact ⟨fun _ hr => hr, fun _ hr => .inl hr⟩

end Change

end Cinder.LiveSessions
