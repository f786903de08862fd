import Cinder.Storage.OrderedEntries
import Cinder.Teacher.CellAddresses
import Mathlib.Data.List.Sort
set_option autoImplicit false

/-!
The sheet of the gradebook as it is built anew from the roster, the assignments and the sheet that
was saved, and the columns of the teacher's own in it.
-/

namespace Cinder.Teacher
open Cinder.Streams Cinder.Ecma Cinder.Storage

structure CellStyle where
  background : String
  bold : ℕ
  deriving DecidableEq, Repr

structure Cell where
  v : Option CellValue := none
  f : Option (List Char) := none
  s : Option CellStyle := none
  deriving DecidableEq, Repr

abbrev CellData := Entries (ℕ × ℕ) Cell

structure GradeSheet where
  rowCount : ℕ
  columnCount : ℕ
  cellData : CellData

structure GradebookProps where
  roster : List User
  assignments : List Assignment
  scores : String → Option (List Char)
  submitted : String → String → Bool

section Columns
variable (rules : TextRules)

def populated (cell : Cell) : Bool :=
  strip isWhiteSpace (cellText cell.v) ≠ [] || cell.f.any (· ≠ [])

def populatedColumns (data : CellData) : List ℕ :=
  ((data.list.filter fun e => 2 ≤ e.1.2 && populated e.2).map (·.1.2)).dedup

def headerValue (data : CellData) (column : ℕ) : Option CellValue :=
  (data.get (0, column)).bind (·.v)

def customColumns (data : CellData) (assignments : List Assignment) : List ℕ :=
  ((populatedColumns data).filter fun column =>
    strip isWhiteSpace (cellText (headerValue data column)) ≠ [] ∧
      assignmentForHeader rules (headerValue data column) assignments = none).mergeSort (· ≤ ·)

def columnMoves (data : CellData) (assignments : List Assignment) : List (ℕ × ℕ) :=
  (customColumns rules data assignments).zipIdx.map fun p => (p.1, assignments.length+2+p.2)

def customWrites (data : CellData) (moves : List (ℕ × ℕ)) : List ((ℕ × ℕ) × Cell) :=
  moves.flatMap fun move =>
    (data.list.filter fun e => e.1.2 = move.1).map fun e => ((e.1.1, move.2), e.2)

def headerCell (text : List Char) : Cell := ⟨some (.text text), none, some ⟨"#f0e7de", 1⟩⟩

def headerWrites (assignments : List Assignment) : List ((ℕ × ℕ) × Cell) :=
  ((0, 0), headerCell "Student".toList) :: ((0, 1), headerCell "Username".toList) ::
    assignments.zipIdx.map fun p => ((0, p.2+2), headerCell (formatAssignmentHeader p.1))

/-- `Number.isFinite(Number(value)) ? Number(value) : value`, and no value for an empty text. -/
def scoreCell (value : Option (List Char)) : Cell :=
  match value with
  | none => ⟨none, none, none⟩
  | some [] => ⟨some .null, none, none⟩
  | some s => ⟨some ((number s).elim (.text s) fun q => .number (rules.shortest q)), none, none⟩

def rosterWrites (props : GradebookProps) : List ((ℕ × ℕ) × Cell) :=
  props.roster.zipIdx.flatMap fun u =>
    ((u.2+1, 0), ⟨some (.text u.1.displayName), none, none⟩) ::
    ((u.2+1, 1), ⟨some (.text u.1.username), none, none⟩) ::
    props.assignments.zipIdx.map fun a =>
      let value := if props.submitted u.1.id a.1.id then props.scores (u.1.id ++ ":" ++ a.1.id)
        else some "—".toList
      ((u.2+1, a.2+2), scoreCell rules value)

/-- The sheet that is built, over the one that was saved. -/
def workbookData (props : GradebookProps) (saved : Option GradeSheet) : GradeSheet where
  rowCount := max (max ((saved.map (·.rowCount)).getD 0) (props.roster.length+40)) 120
  columnCount := max (max ((saved.map (·.columnCount)).getD 0) (props.assignments.length+12)) 30
  cellData :=
    let previous := (saved.map (·.cellData)).getD .empty
    Entries.empty.setAll (customWrites previous (columnMoves rules previous props.assignments) ++
      (headerWrites props.assignments ++ rosterWrites rules props))

def fillCells (data : CellData) (first : ℕ) (edits : List ((ℕ × ℕ) × Option Cell)) : CellData :=
  (edits.filter fun e => first ≤ e.1.2).foldl
    (fun data e => e.2.elim (data.delete e.1) (data.set e.1)) data

end Columns

section Moves
variable {rules : TextRules} {data : CellData} {assignments : List Assignment} {c d row : ℕ}

theorem mem_populatedColumns :
    c ∈ populatedColumns data ↔
      2 ≤ c ∧ ∃ row cell, data.get (row, c) = some cell ∧ populated cell = true := by
  rw [populatedColumns, List.mem_dedup, List.mem_map]
  constructor
  · rintro ⟨⟨⟨row, column⟩, cell⟩, hmem, rfl⟩
    obtain ⟨hcell, hcond⟩ := List.mem_filter.mp hmem
    rw [Bool.and_eq_true, decide_eq_true_iff] at hcond
    exact ⟨hcond.1, row, cell, Entries.mem_list.mp hcell, hcond.2⟩
  · rintro ⟨hc, row, cell, hget, hpopulated⟩
    refine ⟨((row, c), cell), List.mem_filter.mpr ⟨Entries.mem_list.mpr hget, ?_⟩, rfl⟩
    rw [Bool.and_eq_true, decide_eq_true_iff]
    exact ⟨hc, hpopulated⟩

theorem mem_customColumns :
    c ∈ customColumns rules data assignments ↔ c ∈ populatedColumns data ∧
      strip isWhiteSpace (cellText (headerValue data c)) ≠ [] ∧
        assignmentForHeader rules (headerValue data c) assignments = none := by
  rw [customColumns, (List.mergeSort_perm _ _).mem_iff, List.mem_filter, decide_eq_true_iff]

theorem nodup_customColumns : (customColumns rules data assignments).Nodup :=
  (List.mergeSort_perm _ _).nodup_iff.mpr ((List.nodup_dedup _).filter _)

theorem filter_zipIdx {l : List ℕ} (hl : l.Nodup) (n : ℕ) (i : ℕ) :
    ((l.zipIdx i).map fun p => (p.1, n+p.2)).filter (fun p => p.1 = c) =
      if c ∈ l then [(c, n+i+l.idxOf c)] else [] := by
  induction l generalizing i with
  | nil => rfl
  | cons x l ih =>
    obtain ⟨hx, hl⟩ := List.nodup_cons.mp hl
    rw [List.zipIdx_cons, List.map_cons, List.filter_cons, ih hl]
    by_cases hxc : x = c
    · subst hxc
      simp [hx]
    · have hne : c ≠ x := fun h => hxc h.symm
      by_cases hc : c ∈ l
      · simp [hxc, hne, hc, List.idxOf_cons_ne, add_assoc, add_comm 1]
      · simp [hxc, hne, hc]

theorem filter_columnMoves (rules : TextRules) (data : CellData) (assignments : List Assignment)
    (c : ℕ) :
    (columnMoves rules data assignments).filter (fun move => move.1 = c) =
      if c ∈ customColumns rules data assignments then
        [(c, assignments.length+2+(customColumns rules data assignments).idxOf c)]
      else [] := by
  rw [columnMoves, filter_zipIdx nodup_customColumns, add_zero]

theorem mem_columnMoves (h : (c, d) ∈ columnMoves rules data assignments) :
    ∃ i, d = assignments.length+2+i ∧ (customColumns rules data assignments)[i]? = some c := by
  obtain ⟨⟨x, i⟩, hp, heq⟩ := List.mem_map.mp h
  cases heq
  exact ⟨i, rfl, List.mem_zipIdx_iff_getElem?.mp hp⟩

theorem columnMoves_source {c' : ℕ} (h : (c, d) ∈ columnMoves rules data assignments)
    (h' : (c', d) ∈ columnMoves rules data assignments) : c = c' := by
  obtain ⟨i, rfl, hi⟩ := mem_columnMoves h
  obtain ⟨i', heq, hi'⟩ := mem_columnMoves h'
  obtain rfl : i = i' := by omega
  exact Option.some.inj (hi.symm.trans hi')

theorem mem_customWrites {moves : List (ℕ × ℕ)} {cell : Cell} :
    ((row, d), cell) ∈ customWrites data moves ↔
      ∃ c, (c, d) ∈ moves ∧ data.get (row, c) = some cell := by
  rw [customWrites, List.mem_flatMap]
  constructor
  · rintro ⟨⟨c, d'⟩, hmove, hmem⟩
    obtain ⟨⟨⟨row', c'⟩, cell'⟩, he, heq⟩ := List.mem_map.mp hmem
    cases heq
    obtain ⟨hcell, hcolumn⟩ := List.mem_filter.mp he
    obtain rfl := of_decide_eq_true hcolumn
    exact ⟨c', hmove, Entries.mem_list.mp hcell⟩
  · rintro ⟨c, hmove, hget⟩
    exact ⟨(c, d), hmove, List.mem_map.mpr ⟨((row, c), cell),
      List.mem_filter.mpr ⟨Entries.mem_list.mpr hget, decide_eq_true rfl⟩, rfl⟩⟩

theorem fixed_column {props : GradebookProps} {e : (ℕ × ℕ) × Cell}
    (h : e ∈ headerWrites props.assignments ++ rosterWrites rules props) :
    e.1.2 < props.assignments.length+2 := by
  have hassignment : ∀ p ∈ props.assignments.zipIdx, p.2 < props.assignments.length := by
    intro p hp
    obtain ⟨hlt, -⟩ := List.getElem?_eq_some_iff.mp (List.mem_zipIdx_iff_getElem?.mp hp)
    exact hlt
  rcases List.mem_append.mp h with h | h
  · rcases List.mem_cons.mp h with rfl | h
    · exact Nat.succ_pos _
    · rcases List.mem_cons.mp h with rfl | h
      · exact Nat.succ_lt_succ (Nat.succ_pos _)
      · obtain ⟨p, hp, rfl⟩ := List.mem_map.mp h
        exact Nat.add_lt_add_right (hassignment p hp) 2
  · obtain ⟨u, -, hu⟩ := List.mem_flatMap.mp h
    rcases List.mem_cons.mp hu with rfl | hu
    · exact Nat.succ_pos _
    · rcases List.mem_cons.mp hu with rfl | hu
      · exact Nat.succ_lt_succ (Nat.succ_pos _)
      · obtain ⟨p, hp, rfl⟩ := List.mem_map.mp hu
        exact Nat.add_lt_add_right (hassignment p hp) 2

theorem get_moved {props : GradebookProps} {previous : GradeSheet}
    (h : (c, d) ∈ columnMoves rules previous.cellData props.assignments) :
    (workbookData rules props (some previous)).cellData.get (row, d) =
      previous.cellData.get (row, c) := by
  obtain ⟨i, hd, -⟩ := mem_columnMoves h
  have hfixed : ∀ e ∈ headerWrites props.assignments ++ rosterWrites rules props,
      e.1 ≠ (row, d) := by
    intro e he heq
    have hlt := fixed_column he
    rw [heq] at hlt
    dsimp only at hlt
    omega
  rw [workbookData]
  simp only [Option.map_some, Option.getD_some]
  cases hget : previous.cellData.get (row, c) with
  | some cell =>
    refine Entries.get_setAll_of_mem (List.mem_append_left _ (mem_customWrites.mpr ⟨c, h, hget⟩))
      fun e he heq => ?_
    rcases List.mem_append.mp he with he | he
    · obtain ⟨⟨row', d'⟩, cell'⟩ := e
      cases heq
      obtain ⟨c', hmove, hget'⟩ := mem_customWrites.mp he
      rw [columnMoves_source h hmove, hget'] at hget
      exact Option.some.inj hget
    · exact absurd heq (hfixed e he)
  | none =>
    rw [Entries.get_setAll_of_not_mem, Entries.get_empty]
    intro e he heq
    rcases List.mem_append.mp he with he | he
    · obtain ⟨⟨row', d'⟩, cell'⟩ := e
      cases heq
      obtain ⟨c', hmove, hget'⟩ := mem_customWrites.mp he
      rw [columnMoves_source h hmove, hget'] at hget
      cases hget
    · exact hfixed e he heq

end Moves

section OwnColumns
variable (rules : TextRules) (first : GradebookProps) (saved : Option GradeSheet)
  (edits : List ((ℕ × ℕ) × Option Cell)) (later : GradebookProps)

def filledSheet : GradeSheet :=
  let built := workbookData rules first saved
  { built with cellData := fillCells built.cellData (first.assignments.length+2) edits }

/-- A column of the teacher's own, with something in it, that names no assignment now. -/
structure OwnColumn (c : ℕ) : Prop where
  right : first.assignments.length+2 ≤ c
  filled : ∃ row cell, (filledSheet rules first saved edits).cellData.get (row, c) = some cell ∧
    populated cell = true
  unnamed : assignmentForHeader rules
    (headerValue (filledSheet rules first saved edits).cellData c) later.assignments = none

def CommonStudent (i i' : ℕ) : Prop :=
  ∃ s s', first.roster[i]? = some s ∧ later.roster[i']? = some s' ∧ s.id = s'.id

/-- The column is moved exactly once, and has each student's cell in the student's row. -/
def StaysWithStudents (c : ℕ) : Prop :=
  let before := (filledSheet rules first saved edits).cellData
  let after := (workbookData rules later (some (filledSheet rules first saved edits))).cellData
  ∃ d, (columnMoves rules before later.assignments).filter (fun move => move.1 = c) = [(c, d)] ∧
    ∀ i i', CommonStudent first later i i' → after.get (i'+1, d) = before.get (i+1, c)

/-- The teacher's own columns stay with their students just if each has a header, and no student
has moved to a row with another cell. -/
theorem own_columns_stay_iff :
    (∀ c, OwnColumn rules first saved edits later c →
      StaysWithStudents rules first saved edits later c) ↔
      ∀ c, OwnColumn rules first saved edits later c →
        strip isWhiteSpace
            (cellText (headerValue (filledSheet rules first saved edits).cellData c)) ≠ [] ∧
          ∀ i i', CommonStudent first later i i' →
            (filledSheet rules first saved edits).cellData.get (i'+1, c) =
              (filledSheet rules first saved edits).cellData.get (i+1, c) := by
  refine forall_congr' fun c => imp_congr_right fun hown => ?_
  have hpopulated : c ∈ populatedColumns (filledSheet rules first saved edits).cellData :=
    mem_populatedColumns.mpr ⟨(Nat.le_add_left 2 _).trans hown.right, hown.filled⟩
  have hcustom : c ∈ customColumns rules (filledSheet rules first saved edits).cellData
      later.assignments ↔ strip isWhiteSpace
        (cellText (headerValue (filledSheet rules first saved edits).cellData c)) ≠ [] := by
    rw [mem_customColumns]
    exact ⟨fun h => h.2.1, fun h => ⟨hpopulated, h, hown.unnamed⟩⟩
  have hfilter := filter_columnMoves rules (filledSheet rules first saved edits).cellData
    later.assignments c
  rw [StaysWithStudents, ← hcustom]
  by_cases hc : c ∈ customColumns rules (filledSheet rules first saved edits).cellData
      later.assignments
  · rw [if_pos hc] at hfilter
    have hmoved := List.mem_of_mem_filter (hfilter ▸ List.mem_singleton_self _)
    rw [hfilter]
    constructor
    · rintro ⟨d, hd, hcells⟩
      obtain ⟨-, rfl⟩ := Prod.mk.inj (List.singleton_inj.mp hd)
      refine ⟨hc, fun i i' hcommon => ?_⟩
      rw [← get_moved hmoved]
      exact hcells i i' hcommon
    · rintro ⟨-, hsame⟩
      refine ⟨_, rfl, fun i i' hcommon => ?_⟩
      rw [get_moved hmoved]
      exact hsame i i' hcommon
  · rw [if_neg hc] at hfilter
    rw [hfilter]
    refine iff_of_false ?_ fun h => hc h.1
    rintro ⟨_, hd, _⟩
    cases hd

def sampleStudents : List User :=
  [⟨"s1", "thomas".toList, "Thomas".toList⟩, ⟨"s2", "daksh".toList, "Daksh".toList⟩]

def sampleProps (roster : List User) : GradebookProps :=
  ⟨roster, [], fun _ => none, fun _ _ => false⟩

def sampleEdits : List ((ℕ × ℕ) × Option Cell) :=
  [((0, 2), some ⟨some (.text "Note".toList), none, none⟩),
    ((2, 2), some ⟨some (.text "late".toList), none, none⟩)]

/-- When the first student leaves, the remark stays in a row that is nobody's. -/
theorem remark_is_left_behind :
    ¬∀ (rules : TextRules) (first : GradebookProps) (saved : Option GradeSheet)
      (edits : List ((ℕ × ℕ) × Option Cell)) (later : GradebookProps) (c : ℕ),
      OwnColumn rules first saved edits later c →
        StaysWithStudents rules first saved edits later c := by
  intro h
  obtain ⟨d, hmove, hcells⟩ := h asciiRules (sampleProps sampleStudents) none sampleEdits
    (sampleProps (sampleStudents.drop 1)) 2
    ⟨by decide, ⟨2, ⟨some (.text "late".toList), none, none⟩, by decide +kernel, by decide⟩,
      by decide +kernel⟩
  have hcell := hcells 1 0 ⟨_, _, rfl, rfl, rfl⟩
  rw [get_moved (List.mem_of_mem_filter (hmove ▸ List.mem_singleton_self _))] at hcell
  revert hcell
  decide +kernel

end OwnColumns

end Cinder.Teacher
