import Cinder.Papers.PaperLibrary
import Cinder.Programs.SeenStates
set_option autoImplicit false

/-!
The requests for saved question papers, statement by statement: the statements of other
requests may come between those of one. A request that runs alone is the command that the
teacher app sends.
-/

namespace Cinder.Papers.Requests
open Cinder.Host Cinder.Papers Cinder.Programs Cinder.Programs.Program Cinder.Storage

inductive PaperStatement where
  | upsert (visit : HostVisit) (id : String) (req : SaveQuestionPaperInput)
      (origin : Option String)
  | delete (id : String) (owner : Uuid)

/-- `WHERE id = ?1 AND owner_id = ?2`. -/
def ownPaper (id : String) (owner : Uuid) (row : QuestionPaperRow) : Bool :=
  row.id = id && row.ownerId = owner

/-- A statement that changes no row is reported as not found. -/
def PaperStatement.run : PaperStatement → PaperTable → Except HostError PaperTable
  | .upsert visit id req origin, t => upsertPaper visit id req origin t
  | .delete id owner, t =>
    if t.rows.any (ownPaper id owner) = true then .ok (t.delete (ownPaper id owner))
    else .error (.notFound "question paper")

instance : Engine PaperTable PaperStatement HostError := ⟨PaperStatement.run⟩

abbrev PaperProgram := Program PaperTable PaperStatement HostError

section Handlers
variable (visit : HostVisit)

def pathId (rawId : String) : PaperProgram String :=
  ofExcept ((pathUuid rawId).elim (.error (.badRequest "Invalid URL")) .ok)

def listPapers : PaperProgram (List QuestionPaperRow) := do
  require (visit.role.isTeacher = true) .forbidden
  query fun t => t.rows.filter fun row => row.ownerId = visit.teacherId

def getPaper (id : String) : PaperProgram QuestionPaperRow := do
  require (visit.role.isTeacher = true) .forbidden
  queryRow (fun t => t.find? fun row => row.id = id && row.ownerId = visit.teacherId)
    (.notFound "question paper")

/-- An upsert, because the teacher app autosaves a paper it already has an id for. -/
def updatePaper (rawId : String) (req : SaveQuestionPaperInput) (origin : Option String) :
    PaperProgram QuestionPaperRow := do
  let id ← pathId rawId
  require (visit.role.isTeacher = true) .forbidden
  ofExcept (validate req)
  ofExcept (requireTeacherAccess visit req.classroomId)
  execute (.upsert visit id req origin)
  getPaper visit id

def deletePaper (rawId : String) : PaperProgram Unit := do
  let id ← pathId rawId
  require (visit.role.isTeacher = true) .forbidden
  execute (.delete id visit.teacherId)

end Handlers

inductive PaperRequest where
  | list
  | get (rawId : String)
  | update (rawId : String) (req : SaveQuestionPaperInput) (origin : Option String)
  | delete (rawId : String)

structure PaperCall where
  visit : HostVisit
  request : PaperRequest

inductive PaperAnswer where
  | listed (papers : List QuestionPaperRow)
  | paper (row : QuestionPaperRow)
  | deleted

def PaperAnswer.papers : PaperAnswer → List QuestionPaperRow
  | .listed papers => papers
  | .paper row => [row]
  | .deleted => []

def handle (call : PaperCall) : PaperProgram PaperAnswer :=
  match call.request with
  | .list => do
    let papers ← listPapers call.visit
    return .listed papers
  | .get rawId => do
    let id ← pathId rawId
    let row ← getPaper call.visit id
    return .paper row
  | .update rawId req origin => do
    let row ← updatePaper call.visit rawId req origin
    return .paper row
  | .delete rawId => do
    deletePaper call.visit rawId
    return .deleted

abbrev PaperPool (ι : Type) := Pool ι PaperCall PaperTable PaperStatement HostError PaperAnswer

section Alone
variable (visit : HostVisit) (t : PaperTable)

theorem exec_listPapers : (listPapers visit).exec t = Papers.listPapers visit t := by
  unfold listPapers Papers.listPapers
  by_cases h : visit.role.isTeacher = true
  · rw [exec_bind_ok _ (by rw [exec_require, if_pos h]), Command.require_bind_ok h]
    rfl
  · rw [exec_bind, exec_require, if_neg h, Command.require_bind_error h]

theorem exec_getPaper (id : String) : (getPaper visit id).exec t = Papers.getPaper visit id t := by
  unfold getPaper Papers.getPaper
  by_cases h : visit.role.isTeacher = true
  · rw [exec_bind_ok _ (by rw [exec_require, if_pos h]), Command.require_bind_ok h,
      Command.bind_ok (Command.get_run t), exec_queryRow]
    cases t.find? fun row => row.id = id && row.ownerId = visit.teacherId <;> rfl
  · rw [exec_bind, exec_require, if_neg h, Command.require_bind_error h]

/-- A checked value goes to the rest of the program as it goes to the rest of the command. -/
theorem exec_ofExcept_bind {α β : Type} {r : Except HostError α} {f : α → PaperProgram β}
    {g : α → Command PaperTable HostError β} (h : ∀ a, (f a).exec t = g a t) :
    (ofExcept r >>= f).exec t = (Command.ofExcept r >>= g) t := by
  cases r with
  | ok a => exact h a
  | error e => rfl

theorem exec_updatePaper (rawId : String) (req : SaveQuestionPaperInput) (origin : Option String) :
    (updatePaper visit rawId req origin).exec t = Papers.updatePaper visit rawId req origin t := by
  unfold updatePaper Papers.updatePaper
  refine exec_ofExcept_bind t fun id => ?_
  by_cases h : visit.role.isTeacher = true
  · rw [exec_bind_ok _ (by rw [exec_require, if_pos h]), Command.require_bind_ok h]
    refine exec_ofExcept_bind t fun _ => exec_ofExcept_bind t fun _ => ?_
    rw [Command.bind_ok (Command.get_run t)]
    cases hupsert : upsertPaper visit id req origin t with
    | error e =>
      have hexec : (execute (.upsert visit id req origin) : PaperProgram Unit).exec t =
          (.error e, t) := by
        have hrun : (Engine.run (PaperStatement.upsert visit id req origin) t :
            Except HostError PaperTable) = .error e := hupsert
        rw [execute, exec_write, hrun]
      rw [Command.bind_error (Command.ofExcept_error rfl t), exec_bind, hexec]
    | ok t' =>
      rw [Command.bind_ok (Command.ofExcept_ok rfl t), Command.bind_ok (Command.modify_run _ t),
        exec_bind_ok _ (exec_execute hupsert)]
      exact exec_getPaper visit t' id
  · rw [exec_bind, exec_require, if_neg h, Command.require_bind_error h]

end Alone

/-- What a request may write: papers that pass the check and are saved as the caller's, and
deletions of the caller's papers. -/
inductive Issued (call : PaperCall) : PaperStatement → Prop where
  | upsert {id : String} {req : SaveQuestionPaperInput} (origin : Option String)
      (h : validate req = .ok ()) : Issued call (.upsert call.visit id req origin)
  | delete (id : String) : Issued call (.delete id call.visit.teacherId)

theorem readOnly_getPaper (visit : HostVisit) (id : String) : (getPaper visit id).ReadOnly :=
  (readOnly_require _ _).bind fun _ => readOnly_queryRow _ _

theorem handle_issues (call : PaperCall) : (handle call).WritesOnly (Issued call) := by
  obtain ⟨visit, request⟩ := call
  cases request with
  | list =>
    exact WritesOnly.bind (((readOnly_require _ _).bind fun _ => readOnly_query _).writesOnly)
      fun _ => trivial
  | get rawId =>
    exact WritesOnly.bind (readOnly_ofExcept _).writesOnly fun id =>
      WritesOnly.bind (readOnly_getPaper visit id).writesOnly fun _ => trivial
  | update rawId req origin =>
    refine WritesOnly.bind ?_ fun _ => trivial
    refine WritesOnly.bind (readOnly_ofExcept _).writesOnly fun id =>
      WritesOnly.bind (readOnly_require _ _).writesOnly fun _ =>
        writesOnly_ofExcept_bind fun _ hvalid =>
          WritesOnly.bind (readOnly_ofExcept _).writesOnly fun _ =>
            WritesOnly.bind (writesOnly_execute (.upsert origin hvalid)) fun _ =>
              (readOnly_getPaper visit id).writesOnly
  | delete rawId =>
    refine WritesOnly.bind ?_ fun _ => trivial
    exact WritesOnly.bind (readOnly_ofExcept _).writesOnly fun id =>
      WritesOnly.bind (readOnly_require _ _).writesOnly fun _ => writesOnly_execute (.delete id)

theorem owner_of_getPaper {visit : HostVisit} {id : String} {seen : List PaperTable}
    {row : QuestionPaperRow} (h : (getPaper visit id).Answers seen row) :
    row.ownerId = visit.teacherId := by
  obtain ⟨t, -, hfind⟩ := h.of_require_bind.2.of_queryRow
  have hown := (Table.mem_of_find? hfind).2
  simp only [Bool.and_eq_true, decide_eq_true_eq] at hown
  exact hown.2

theorem owner_of_answers {call : PaperCall} {seen : List PaperTable} {a : PaperAnswer}
    (h : (handle call).Answers seen a) : ∀ row ∈ a.papers, row.ownerId = call.visit.teacherId := by
  obtain ⟨visit, request⟩ := call
  cases request with
  | list =>
    obtain ⟨papers, first, rest, hlist, hret, rfl⟩ := h.of_bind
    cases hret
    cases hlist.of_require_bind.2 with
    | read hret =>
      cases hret
      exact fun row hrow => of_decide_eq_true (List.mem_filter.mp hrow).2
  | get rawId =>
    obtain ⟨id, _, _, -, hrest, rfl⟩ := h.of_bind
    obtain ⟨row, _, _, hget, hret, rfl⟩ := hrest.of_bind
    cases hret
    exact fun row' hrow' => List.mem_singleton.mp hrow' ▸ owner_of_getPaper hget
  | update rawId req origin =>
    obtain ⟨row, _, _, hupdate, hret, rfl⟩ := h.of_bind
    cases hret
    obtain ⟨id, _, _, -, hchecked, rfl⟩ := hupdate.of_bind
    obtain ⟨_, _, _, -, haccess, rfl⟩ := hchecked.of_require_bind.2.of_bind
    obtain ⟨_, _, _, -, hwrite, rfl⟩ := haccess.of_bind
    obtain ⟨_, _, _, -, hget, rfl⟩ := hwrite.of_bind
    exact fun row' hrow' => List.mem_singleton.mp hrow' ▸ owner_of_getPaper hget
  | delete rawId =>
    obtain ⟨_, _, _, -, hret, rfl⟩ := h.of_bind
    cases hret
    exact fun _ hrow => (by cases hrow)

end Cinder.Papers.Requests
