import Cinder.Host.HostTables
import Cinder.Storage.OrderedEntries
import Cinder.Streams.QuotedTables
import Cinder.Teacher.CellAddresses
set_option autoImplicit false

namespace Cinder.Teacher
open Cinder.Host Cinder.Storage Cinder.Streams

structure GradebookSubmission where
  id : String
  studentId : String
  points : Option Ecma.Decimal
  deriving DecidableEq, Repr

structure RoomAssignment extends Assignment where
  classroomId : String
  status : AssignmentStatus
  deriving DecidableEq, Repr

structure GradebookSource where
  assignments : List RoomAssignment
  roster : List User
  submissions : String → List GradebookSubmission

section Loading
variable (source : GradebookSource) (classroomId : String)

def roomAssignments : List RoomAssignment :=
  source.assignments.filter fun item => item.classroomId = classroomId ∧ item.status ≠ .draft

/-- `Object.fromEntries`, by the ids of the assignments. -/
def byAssignment : Entries String (List GradebookSubmission) :=
  .ofList ((roomAssignments source classroomId).map fun item => (item.id, source.submissions item.id))

def scoreKey (studentId assignmentId : String) : String := studentId ++ ":" ++ assignmentId

/-- `submission.grade?.points?.toString() ?? ""`. -/
def scoreText (submission : GradebookSubmission) : List Char :=
  (submission.points.map (·.text)).getD []

def nextScores : Entries String (List Char) :=
  .ofList ((byAssignment source classroomId).list.flatMap fun entry =>
    entry.2.map fun submission => (scoreKey submission.studentId entry.1, scoreText submission))

end Loading

/-- The rows of the export, for any texts in the cells. -/
def exportRows (roster : List User) (assignments : List RoomAssignment)
    (scores : Entries String (List Char)) : List (List (List Char)) :=
  ("Student".toList :: "Username".toList ::
      assignments.map fun assignment => formatAssignmentHeader assignment.toAssignment) ::
    roster.map fun student =>
      student.displayName :: student.username ::
        assignments.map fun assignment => (scores.get (scoreKey student.id assignment.id)).getD []

def byteOrderMark : Char := '\uFEFF'

def exportCsv (roster : List User) (assignments : List RoomAssignment)
    (scores : Entries String (List Char)) : List Char :=
  byteOrderMark :: writeTable (exportRows roster assignments scores)

/-- A program that opens the file leaves the mark out. -/
def openCsv (contents : List Char) : Option (List (List (List Char))) :=
  readTable (if contents.head? = some byteOrderMark then contents.tail else contents)

theorem openCsv_exportCsv (roster : List User) (assignments : List RoomAssignment)
    (scores : Entries String (List Char)) :
    openCsv (exportCsv roster assignments scores) = some (exportRows roster assignments scores) := by
  simp only [openCsv, exportCsv, List.head?_cons, if_true, List.tail_cons]
  refine readTable_writeTable ?_ (by simp [exportRows])
  intro row hrow
  obtain rfl | hrow := List.mem_cons.mp hrow
  · simp
  · obtain ⟨student, -, rfl⟩ := List.mem_map.mp hrow
    simp

section Scores
variable {source : GradebookSource} {classroomId : String}

/-- The ids of the assignments are those of the Host, which have no colon, and a student hands in
one submission for an assignment. -/
structure GradebookSource.WellFormed (source : GradebookSource) : Prop where
  unique : (source.assignments.map fun item => item.id).Nodup
  colon : ∀ item ∈ source.assignments, ':' ∉ item.id.toList
  submissions : ∀ item ∈ source.assignments,
    ((source.submissions item.id).map (·.studentId)).Nodup

def gradedPoints (source : GradebookSource) (student : User) (assignment : RoomAssignment) :
    List Char :=
  (((source.submissions assignment.id).find? fun submission => submission.studentId = student.id).map
    scoreText).getD []

theorem scoreKey_inj {s s' a a' : String} (ha : ':' ∉ a.toList) (ha' : ':' ∉ a'.toList)
    (h : scoreKey s a = scoreKey s' a') : s = s' ∧ a = a' := by
  have hlist := congrArg String.toList h
  have hcolon : ":".toList = [':'] := rfl
  simp only [scoreKey, String.toList_append, hcolon, List.append_assoc, List.singleton_append]
    at hlist
  obtain ⟨hs, ht⟩ := append_cons_inj_of_not_mem ha ha' hlist
  exact ⟨String.toList_inj.mp hs, String.toList_inj.mp ht⟩

theorem mem_scores {e : String × List Char} (h : source.WellFormed) :
    e ∈ (byAssignment source classroomId).list.flatMap (fun entry =>
        entry.2.map fun submission => (scoreKey submission.studentId entry.1, scoreText submission)) ↔
      ∃ item ∈ roomAssignments source classroomId, ∃ submission ∈ source.submissions item.id,
        (scoreKey submission.studentId item.id, scoreText submission) = e := by
  have hunique : ((roomAssignments source classroomId).map fun item => item.id).Nodup :=
    h.unique.sublist (List.filter_sublist.map _)
  rw [byAssignment, Entries.ofList_of_nodup (by simpa [Function.comp_def] using hunique)]
  simp

theorem room_mem {item : RoomAssignment} (h : item ∈ roomAssignments source classroomId) :
    item ∈ source.assignments :=
  List.mem_of_mem_filter h

/-- A cell of the classroom's gradebook is the grade of its student and its assignment. -/
theorem nextScores_cell (h : source.WellFormed) (student : User) {item : RoomAssignment}
    (hitem : item ∈ roomAssignments source classroomId) :
    ((nextScores source classroomId).get (scoreKey student.id item.id)).getD [] =
      gradedPoints source student item := by
  have hsame {other : RoomAssignment} (hother : other ∈ roomAssignments source classroomId)
      {submission : GradebookSubmission}
      (hkey : scoreKey submission.studentId other.id = scoreKey student.id item.id) :
      submission.studentId = student.id ∧ other.id = item.id :=
    scoreKey_inj (h.colon other (room_mem hother)) (h.colon item (room_mem hitem)) hkey
  rw [gradedPoints]
  cases hfind : (source.submissions item.id).find? fun s => s.studentId = student.id with
  | none =>
    have hnone : (nextScores source classroomId).get (scoreKey student.id item.id) = none := by
      refine Entries.get_setAll_of_not_mem (m := .empty) fun e he hkey => ?_
      obtain ⟨other, hother, submission, hmem, rfl⟩ := (mem_scores h).mp he
      obtain ⟨hstudent, hid⟩ := hsame hother hkey
      rw [hid] at hmem
      simpa [hstudent] using List.find?_eq_none.mp hfind submission hmem
    simp [hnone]
  | some submission =>
    have hmem := List.mem_of_find?_eq_some hfind
    have hstudent : submission.studentId = student.id := by simpa using List.find?_some hfind
    have hget : (nextScores source classroomId).get (scoreKey student.id item.id) =
        some (scoreText submission) := by
      refine Entries.get_setAll_of_mem (m := .empty) ?_ fun e he hkey => ?_
      · exact (mem_scores h).mpr ⟨item, hitem, submission, hmem, by rw [hstudent]⟩
      · obtain ⟨other, hother, submission', hmem', rfl⟩ := (mem_scores h).mp he
        obtain ⟨hstudent', hid⟩ := hsame hother hkey
        rw [hid] at hmem'
        have heq := List.inj_on_of_nodup_map (h.submissions item (room_mem hitem)) hmem' hmem
          (hstudent'.trans hstudent.symm)
        rw [heq]
    simp [hget]

/-- The exported gradebook, opened again: whatever names and titles hold, its rows are the
students in their order, and each cell is the grade of its student and assignment. -/
theorem exported_gradebook_reads_back (h : source.WellFormed) :
    openCsv (exportCsv source.roster (roomAssignments source classroomId)
        (nextScores source classroomId)) =
      some (("Student".toList :: "Username".toList ::
          (roomAssignments source classroomId).map fun a => formatAssignmentHeader a.toAssignment) ::
        source.roster.map fun student => student.displayName :: student.username ::
          (roomAssignments source classroomId).map (gradedPoints source student)) := by
  rw [openCsv_exportCsv, exportRows]
  congr 2
  refine List.map_congr_left fun student _ => ?_
  congr 2
  exact List.map_congr_left fun item hitem => nextScores_cell h student hitem

/-- A name with a comma, a quotation mark and a line break in it. -/
def commaSource : GradebookSource where
  assignments := [⟨⟨"a1", "Light, \"rays\"".toList, .normalize false 10 0⟩, "c1", .published⟩,
    ⟨⟨"a2", "Draft".toList, .normalize false 5 0⟩, "c1", .draft⟩]
  roster := [⟨"s1", "asha".toList, "Rao, \"Asha\"\r\n".toList⟩, ⟨"s2", "ben".toList, "Ben".toList⟩]
  submissions := fun id => if id = "a1" then [⟨"u1", "s1", some (.normalize false 75 (-1))⟩] else []

theorem exported_gradebook_reads_back_comma :
    openCsv (exportCsv commaSource.roster (roomAssignments commaSource "c1")
        (nextScores commaSource "c1")) =
      some [["Student".toList, "Username".toList, "\"Light, \"rays\"\"  -/10".toList],
        ["Rao, \"Asha\"\r\n".toList, "asha".toList, "7.5".toList],
        ["Ben".toList, "ben".toList, []]] :=
  (exported_gradebook_reads_back ⟨by decide, by decide, by decide⟩).trans (by decide +kernel)

end Scores

end Cinder.Teacher
