import Cinder.Teacher.CellAddresses
set_option autoImplicit false

/-!
Which cells of the sheet that the app writes stand for their own student and assignment, and which
cells with a username stand for that student.
-/

namespace Cinder.Teacher
open Cinder.Streams Cinder.Ecma

section Lists
variable {α : Type} {p : α → Bool} {l : List α} {j : ℕ} {x : α}

theorem find?_eq_iff_index (hnodup : l.Nodup) (hj : l[j]? = some x) :
    l.find? p = some x ↔ p x = true ∧ ∀ k < j, ∀ y, l[k]? = some y → p y = false := by
  obtain ⟨hlt, hx⟩ := List.getElem?_eq_some_iff.mp hj
  rw [List.find?_eq_some_iff_getElem]
  constructor
  · rintro ⟨hp, i, hi, hix, hbefore⟩
    obtain rfl : i = j := (hnodup.getElem_inj_iff).mp (hix.trans hx.symm)
    refine ⟨hp, fun k hk y hy => ?_⟩
    obtain ⟨hklt, rfl⟩ := List.getElem?_eq_some_iff.mp hy
    simpa using hbefore k hk
  · rintro ⟨hp, hbefore⟩
    refine ⟨hp, j, hlt, hx, fun k hk => ?_⟩
    simpa using hbefore k hk l[k] (List.getElem?_eq_getElem _)

theorem eq_singleton_of_nodup (hnodup : l.Nodup) (hx : x ∈ l) (hall : ∀ y ∈ l, y = x) :
    l = [x] := by
  cases l with
  | nil => cases hx
  | cons y l =>
    obtain rfl := hall y List.mem_cons_self
    cases l with
    | nil => rfl
    | cons z l =>
      obtain rfl := hall z (List.mem_cons_of_mem _ List.mem_cons_self)
      exact absurd List.mem_cons_self (List.nodup_cons.mp hnodup).1

end Lists

section Headers
variable {rules : TextRules} {assignments : List Assignment} {value : Option CellValue} {j : ℕ}
  {assignment : Assignment}

theorem mem_of_assignmentForHeader
    (h : assignmentForHeader rules value assignments = some assignment) :
    assignment ∈ assignments := by
  unfold assignmentForHeader at h
  dsimp only at h
  split at h
  · cases h
  · split at h
    · next x hx =>
      have hmem : x ∈ assignments.filter fun a => normalizeWords rules a.title =
          normalizeWords rules (parseAssignmentHeader rules value).title := by
        rw [hx]
        exact List.mem_singleton_self x
      rw [← Option.some.inj h]
      exact List.mem_of_mem_filter hmem
    · exact List.mem_of_mem_filter (List.mem_of_find?_eq_some h)

/-- Either no other assignment has these words, or it is the first that has the maximum too. -/
theorem assignmentForHeader_eq_iff (hnodup : assignments.Nodup)
    (hj : assignments[j]? = some assignment) {title : List Char}
    {maxPoints : Option (Option Decimal)}
    (hparse : parseAssignmentHeader rules value = ⟨title, maxPoints⟩) (htitle : title ≠ []) :
    assignmentForHeader rules value assignments = some assignment ↔
      normalizeWords rules assignment.title = normalizeWords rules title ∧
      ((∀ a ∈ assignments, normalizeWords rules a.title = normalizeWords rules title →
          a = assignment) ∨
        (some (some assignment.maxPoints) = maxPoints ∧ ∀ k < j, ∀ a, assignments[k]? = some a →
          normalizeWords rules a.title = normalizeWords rules title →
            some (some a.maxPoints) ≠ maxPoints)) := by
  have hmem := List.mem_of_getElem? hj
  rw [assignmentForHeader, hparse]
  dsimp only
  rw [if_neg htitle]
  have hfilter : ∀ a, a ∈ assignments.filter (fun a => normalizeWords rules a.title =
      normalizeWords rules title) ↔
        a ∈ assignments ∧ normalizeWords rules a.title = normalizeWords rules title := by
    intro a
    rw [List.mem_filter, decide_eq_true_iff]
  split
  · next x hx =>
    rw [hx] at hfilter
    simp only [List.mem_singleton] at hfilter
    rw [Option.some.injEq]
    constructor
    · rintro rfl
      exact ⟨((hfilter x).mp rfl).2, .inl fun a ha hwords => (hfilter a).mpr ⟨ha, hwords⟩⟩
    · rintro ⟨hwords, -⟩
      exact ((hfilter assignment).mpr ⟨hmem, hwords⟩).symm
  · next hmany =>
    rw [List.find?_filter, find?_eq_iff_index hnodup hj]
    simp only [decide_eq_true_eq, decide_eq_false_iff_not]
    constructor
    · rintro ⟨⟨hwords, hmax⟩, hbefore⟩
      exact ⟨hwords, .inr ⟨hmax, fun k hk a ha hw hm => hbefore k hk a ha ⟨hw, hm⟩⟩⟩
    · rintro ⟨hwords, hsole | ⟨hmax, hbefore⟩⟩
      · refine absurd (eq_singleton_of_nodup (hnodup.filter _)
          ((hfilter assignment).mpr ⟨hmem, hwords⟩) fun a ha => ?_) (hmany assignment)
        obtain ⟨ha, hw⟩ := (hfilter a).mp ha
        exact hsole a ha hw
      · exact ⟨⟨hwords, hmax⟩, fun k hk a ha hboth => hbefore k hk a ha hboth.1 hboth.2⟩

theorem parse_whole {s : List Char} (hstrip : strip isWhiteSpace s = s)
    (h : headerPattern.exec s = none) :
    parseAssignmentHeader rules (some (.text s)) = ⟨s, none⟩ := by
  rw [parseAssignmentHeader, cellText, hstrip, h]

theorem assignmentForHeader_whole (hnodup : assignments.Nodup)
    (hj : assignments[j]? = some assignment) {s : List Char}
    (hparse : parseAssignmentHeader rules value = ⟨s, none⟩) (hs : s ≠ []) :
    assignmentForHeader rules value assignments = some assignment ↔
      normalizeWords rules s = normalizeWords rules assignment.title ∧
        ∀ a ∈ assignments, normalizeWords rules a.title = normalizeWords rules assignment.title →
          a = assignment := by
  rw [assignmentForHeader_eq_iff hnodup hj hparse hs]
  constructor
  · rintro ⟨hwords, hsole | ⟨hmax, -⟩⟩
    · rw [hwords]
      exact ⟨rfl, hsole⟩
    · cases hmax
  · rintro ⟨hwords, hsole⟩
    rw [hwords]
    exact ⟨rfl, .inl hsole⟩

end Headers

structure AcceptedAssignments (rules : TextRules) (assignments : List Assignment) : Prop where
  ids : (assignments.map (·.id)).Nodup
  titles : ∀ a ∈ assignments, a.title ≠ []
  nonneg : ∀ a ∈ assignments, a.maxPoints.neg = false
  doubles : ∀ a ∈ assignments, rules.nearest a.maxPoints = some a.maxPoints

section Canonical

def headerRow (assignments : List Assignment) : List CellValue :=
  .text "Student".toList :: .text "Username".toList ::
    assignments.map fun a => .text (formatAssignmentHeader a)

def canonicalValues (roster : List User) (assignments : List Assignment)
    (shown : User → Assignment → CellValue) : List (List CellValue) :=
  headerRow assignments :: roster.map fun student =>
    .text student.displayName :: .text student.username :: assignments.map (shown student)

def canonicalSheet (roster : List User) (assignments : List Assignment)
    (shown : User → Assignment → CellValue) : Option GradebookAiContext :=
  some ⟨[⟨"Gradebook", canonicalValues roster assignments shown⟩]⟩

theorem gradebookValues_canonical (roster : List User) (assignments : List Assignment)
    (shown : User → Assignment → CellValue) :
    gradebookValues (canonicalSheet roster assignments shown) =
      some (canonicalValues roster assignments shown) := rfl

variable {rules : TextRules} {assignments : List Assignment} {j k : ℕ}
  {assignment : Assignment}

theorem AcceptedAssignments.nodup (h : AcceptedAssignments rules assignments) :
    assignments.Nodup := List.Nodup.of_map _ h.ids

def wholeHeaders (assignments : List Assignment) (j : ℕ) : List (List Char) :=
  "Student".toList :: "Username".toList ::
    ((assignments.take j).filter fun a => ¬a.Readable).map formatAssignmentHeader

/-- The assignment is the first with its words and its maximum, and its header is read back. -/
structure OwnHeader (rules : TextRules) (assignments : List Assignment) (j : ℕ)
    (assignment : Assignment) : Prop where
  readable : assignment.Readable
  first : ∀ k < j, ∀ a, assignments[k]? = some a →
    normalizeWords rules a.title = normalizeWords rules assignment.title →
      a.maxPoints ≠ assignment.maxPoints

/-- No header to the left that is a title as a whole names it alone. -/
def LeftHeaders (rules : TextRules) (assignments : List Assignment) (j : ℕ)
    (assignment : Assignment) : Prop :=
  ∀ s ∈ wholeHeaders assignments j, normalizeWords rules s = normalizeWords rules assignment.title →
    ∃ a ∈ assignments, normalizeWords rules a.title = normalizeWords rules assignment.title ∧
      a ≠ assignment

theorem formatAssignmentHeader_ne_nil (a : Assignment) : formatAssignmentHeader a ≠ [] :=
  List.cons_ne_nil _ _

theorem ownHeader_iff (haccepted : AcceptedAssignments rules assignments)
    (hj : assignments[j]? = some assignment) :
    assignmentForHeader rules (some (.text (formatAssignmentHeader assignment))) assignments =
      some assignment ↔ OwnHeader rules assignments j assignment := by
  have hmem := List.mem_of_getElem? hj
  have hneg := haccepted.nonneg _ hmem
  have hparse := parse_header hneg rules (haccepted.doubles _ hmem)
  by_cases hreadable : assignment.Readable
  · rw [if_pos hreadable] at hparse
    rw [assignmentForHeader_eq_iff haccepted.nodup hj hparse (haccepted.titles _ hmem)]
    constructor
    · rintro ⟨-, hsole | ⟨-, hfirst⟩⟩
      · refine ⟨hreadable, fun k hk a ha hwords _ => ?_⟩
        obtain rfl := hsole a (List.mem_of_getElem? ha) hwords
        exact hk.ne ((List.getElem?_inj (List.getElem?_eq_some_iff.mp ha).1
          haccepted.nodup).mp (ha.trans hj.symm))
      · exact ⟨hreadable, fun k hk a ha hwords heq =>
          hfirst k hk a ha hwords (congrArg (fun d => some (some d)) heq)⟩
    · intro h
      exact ⟨rfl, .inr ⟨rfl, fun k hk a ha hwords heq =>
        h.first k hk a ha hwords (Option.some.inj (Option.some.inj heq))⟩⟩
  · rw [if_neg hreadable] at hparse
    rw [assignmentForHeader_whole haccepted.nodup hj hparse (formatAssignmentHeader_ne_nil _)]
    exact iff_of_false (fun h => words_header_ne hneg rules h.1) fun h => hreadable h.readable

theorem earlier_header (haccepted : AcceptedAssignments rules assignments)
    (hj : assignments[j]? = some assignment) (hk : k < j) {a : Assignment}
    (ha : assignments[k]? = some a) (hreadable : a.Readable) :
    assignmentForHeader rules (some (.text (formatAssignmentHeader a))) assignments ≠
      some assignment := by
  have hmem := List.mem_of_getElem? ha
  have hparse := parse_header (haccepted.nonneg _ hmem) rules (haccepted.doubles _ hmem)
  rw [if_pos hreadable] at hparse
  rw [ne_eq, assignmentForHeader_eq_iff haccepted.nodup hj hparse (haccepted.titles _ hmem)]
  rintro ⟨-, hsole | ⟨-, hfirst⟩⟩
  · obtain rfl := hsole a hmem rfl
    exact hk.ne ((List.getElem?_inj (List.getElem?_eq_some_iff.mp ha).1
      haccepted.nodup).mp (ha.trans hj.symm))
  · exact hfirst k hk a ha rfl rfl

theorem any_id_iff (haccepted : AcceptedAssignments rules assignments)
    (hmem : assignment ∈ assignments) {value : Option CellValue} :
    (assignmentForHeader rules value assignments).any (·.id = assignment.id) = true ↔
      assignmentForHeader rules value assignments = some assignment := by
  rw [Option.any_eq_true_iff_get]
  constructor
  · rintro ⟨hsome, hid⟩
    obtain ⟨a, ha⟩ := Option.isSome_iff_exists.mp hsome
    simp only [ha, Option.get_some, decide_eq_true_eq] at hid
    rw [ha, List.inj_on_of_nodup_map haccepted.ids (mem_of_assignmentForHeader ha) hmem hid]
  · intro h
    simp [h]

theorem headerRow_succ {a : Assignment} (h : assignments[k]? = some a) :
    (headerRow assignments)[k+2]? = some (.text (formatAssignmentHeader a)) := by
  rw [headerRow, List.getElem?_cons_succ, List.getElem?_cons_succ, List.getElem?_map, h]
  rfl

theorem left_iff (haccepted : AcceptedAssignments rules assignments)
    (hj : assignments[j]? = some assignment) :
    (∀ k < j+2, ∀ header, (headerRow assignments)[k]? = some header →
      assignmentForHeader rules (some header) assignments ≠ some assignment) ↔
        LeftHeaders rules assignments j assignment := by
  have hwhole : ∀ s, parseAssignmentHeader rules (some (.text s)) = ⟨s, none⟩ → s ≠ [] →
      (assignmentForHeader rules (some (.text s)) assignments ≠ some assignment ↔
        (normalizeWords rules s = normalizeWords rules assignment.title →
          ∃ a ∈ assignments, normalizeWords rules a.title = normalizeWords rules assignment.title ∧
            a ≠ assignment)) := by
    intro s hparse hs
    rw [ne_eq, assignmentForHeader_whole haccepted.nodup hj hparse hs, not_and]
    simp only [not_forall, exists_prop, ne_eq]
  have hstudent := hwhole "Student".toList (parse_whole (by decide) (by decide)) (by decide)
  have husername := hwhole "Username".toList (parse_whole (by decide) (by decide)) (by decide)
  have hearlier : ∀ a, ∀ k < j, assignments[k]? = some a → ¬a.Readable →
      parseAssignmentHeader rules (some (.text (formatAssignmentHeader a))) =
        ⟨formatAssignmentHeader a, none⟩ := by
    intro a k hk ha hreadable
    have hmem := List.mem_of_getElem? ha
    rw [parse_header (haccepted.nonneg _ hmem) rules (haccepted.doubles _ hmem), if_neg hreadable]
  constructor
  · intro h s hs
    rcases List.mem_cons.mp hs with rfl | hs
    · exact hstudent.mp (h 0 (Nat.succ_pos _) _ rfl)
    · rcases List.mem_cons.mp hs with rfl | hs
      · exact husername.mp (h 1 (by omega) _ rfl)
      · obtain ⟨a, ha, rfl⟩ := List.mem_map.mp hs
        obtain ⟨htake, hreadable⟩ := List.mem_filter.mp ha
        obtain ⟨k, hk⟩ := List.mem_iff_getElem?.mp htake
        rw [List.getElem?_take] at hk
        split at hk
        · next hlt =>
          exact (hwhole _ (hearlier a k hlt hk (of_decide_eq_true hreadable))
            (formatAssignmentHeader_ne_nil a)).mp (h (k+2) (by omega) _ (headerRow_succ hk))
        · cases hk
  · intro h k hk header hheader
    rcases k with _ | _ | k
    · obtain rfl := Option.some.inj hheader
      exact hstudent.mpr (h _ List.mem_cons_self)
    · obtain rfl := Option.some.inj hheader
      exact husername.mpr (h _ (List.mem_cons_of_mem _ List.mem_cons_self))
    · rw [headerRow, List.getElem?_cons_succ, List.getElem?_cons_succ, List.getElem?_map,
        Option.map_eq_some_iff] at hheader
      obtain ⟨a, ha, rfl⟩ := hheader
      have hlt : k < j := by omega
      by_cases hreadable : a.Readable
      · exact earlier_header haccepted hj hlt ha hreadable
      · refine (hwhole _ (hearlier a k hlt ha hreadable) (formatAssignmentHeader_ne_nil a)).mpr
          (h _ (List.mem_cons_of_mem _ (List.mem_cons_of_mem _ (List.mem_map_of_mem
            (List.mem_filter.mpr ⟨?_, decide_eq_true hreadable⟩)))))
        exact List.mem_of_getElem? ((List.getElem?_take_of_lt hlt).trans ha)

theorem column_iff (haccepted : AcceptedAssignments rules assignments)
    (hj : assignments[j]? = some assignment) (hown : OwnHeader rules assignments j assignment)
    (roster : List User) (shown : User → Assignment → CellValue) :
    findGradebookAssignmentColumn rules assignment assignments
      (canonicalSheet roster assignments shown) = j+2 ↔
        LeftHeaders rules assignments j assignment := by
  have hmem := List.mem_of_getElem? hj
  obtain ⟨hlt, hget⟩ := List.getElem?_eq_some_iff.mp (headerRow_succ hj)
  have hself := (any_id_iff haccepted hmem).mpr ((ownHeader_iff haccepted hj).mpr hown)
  have hfind : (headerRow assignments).findIdx? (fun header =>
      (assignmentForHeader rules (some header) assignments).any (·.id = assignment.id)) =
        some (j+2) ↔ LeftHeaders rules assignments j assignment := by
    rw [← left_iff haccepted hj, List.findIdx?_eq_some_iff_getElem]
    constructor
    · rintro ⟨_, -, hbefore⟩ k hk header hheader heq
      obtain ⟨hklt, rfl⟩ := List.getElem?_eq_some_iff.mp hheader
      exact hbefore k hk ((any_id_iff haccepted hmem).mpr heq)
    · intro h
      refine ⟨hlt, ?_, fun k hk hany => ?_⟩
      · rw [hget]
        exact hself
      · exact h k hk _ (List.getElem?_eq_getElem _) ((any_id_iff haccepted hmem).mp hany)
  rw [← hfind, findGradebookAssignmentColumn, gradebookValues_canonical]
  simp only [Option.getD_some, canonicalValues, List.headD_cons]
  split
  · next column hcol =>
    rw [hcol, Option.some.injEq]
  · next hnone =>
    have hnot := List.findIdx?_eq_none_iff.mp hnone _ (List.mem_of_getElem? (headerRow_succ hj))
    rw [hself] at hnot
    cases hnot

/-- The username without the white space around it is found at the student, or nowhere. -/
structure OwnName (rules : TextRules) (roster : List User) (i : ℕ) (student : User) : Prop where
  first : ∀ k < i, ∀ u, roster[k]? = some u →
    rules.lower u.username ≠ rules.lower (strip isWhiteSpace student.username)
  found : rules.lower student.username = rules.lower (strip isWhiteSpace student.username) ∨
    ∀ u ∈ roster, rules.lower u.username ≠ rules.lower (strip isWhiteSpace student.username)

variable {roster : List User} {i : ℕ} {student : User}

theorem rowStudent_iff (hnodup : (roster.map (·.username)).Nodup)
    (hi : roster[i]? = some student) (assignments : List Assignment)
    (shown : User → Assignment → CellValue) :
    rowStudent rules roster (canonicalValues roster assignments shown) (i+1) = some student ↔
      OwnName rules roster i student := by
  have hshown : shownUsername (canonicalValues roster assignments shown) (i+1) =
      strip isWhiteSpace student.username := by
    simp [shownUsername, canonicalValues, hi, cellText]
  have hfind := find?_eq_iff_index (p := fun item => decide (rules.lower item.username =
    rules.lower (strip isWhiteSpace student.username))) (List.Nodup.of_map _ hnodup) hi
  simp only [decide_eq_true_eq, decide_eq_false_iff_not] at hfind
  rw [rowStudent, hshown, Nat.add_sub_cancel, hi]
  cases hu : roster.find? fun item => decide (rules.lower item.username =
      rules.lower (strip isWhiteSpace student.username)) with
  | none =>
    rw [Option.none_or]
    refine iff_of_true rfl ?_
    have hnone : ∀ u ∈ roster, rules.lower u.username ≠
        rules.lower (strip isWhiteSpace student.username) := by
      simpa using List.find?_eq_none.mp hu
    exact ⟨fun k _ u hk => hnone u (List.mem_of_getElem? hk), .inr hnone⟩
  | some u =>
    rw [Option.some_or, ← hu, hfind]
    constructor
    · rintro ⟨hname, hbefore⟩
      exact ⟨hbefore, .inl hname⟩
    · intro h
      have hmatch := List.find?_some hu
      refine ⟨h.found.resolve_right fun hnone => ?_, h.first⟩
      exact hnone u (List.mem_of_find?_eq_some hu) (of_decide_eq_true hmatch)

theorem columnAssignment_canonical (hj : assignments[j]? = some assignment)
    (hneg : assignment.maxPoints.neg = false) (shown : User → Assignment → CellValue) :
    columnAssignment rules assignments (canonicalValues roster assignments shown) (j+2) =
      assignmentForHeader rules (some (.text (formatAssignmentHeader assignment))) assignments := by
  have hheader : (headerRow assignments)[j+2]? =
      some (.text (formatAssignmentHeader assignment)) := headerRow_succ hj
  have hblank : strip isWhiteSpace (cellText (some (.text (formatAssignmentHeader assignment)))) ≠
      [] := by
    rw [cellText, strip_header hneg]
    exact formatAssignmentHeader_ne_nil _
  rw [columnAssignment, canonicalValues, List.headD_cons, hheader]
  split
  · next a ha => exact ha.symm
  · next hnone => rw [if_neg fun h => hblank h.2, hnone]

/-- A grade cell stands for its own student and assignment as long as its address has three
letters and four digits, and titles and usernames do not stand for those of others. -/
theorem maps_cell_iff (haccepted : AcceptedAssignments rules assignments)
    (husernames : (roster.map (·.username)).Nodup) (hi : roster[i]? = some student)
    (hj : assignments[j]? = some assignment) (shown : User → Assignment → CellValue) :
    (resolveGradebookCellTarget rules (cellName (j+2) (i+1)) roster assignments
        (canonicalSheet roster assignments shown) =
          some (.grade (cellName (j+2) (i+1)) assignment student) ∧
      findGradebookAssignmentColumn rules assignment assignments
        (canonicalSheet roster assignments shown) = j+2) ↔
      i < 9998 ∧ j ≤ 18275 ∧ OwnHeader rules assignments j assignment ∧
        LeftHeaders rules assignments j assignment ∧ OwnName rules roster i student := by
  have hmem := List.mem_of_getElem? hj
  have htarget : resolveGradebookCellTarget rules (cellName (j+2) (i+1)) roster assignments
      (canonicalSheet roster assignments shown) =
        some (.grade (cellName (j+2) (i+1)) assignment student) ↔
      i < 9998 ∧ j ≤ 18275 ∧ OwnHeader rules assignments j assignment ∧
        OwnName rules roster i student := by
    rw [← ownHeader_iff haccepted hj, ← rowStudent_iff husernames hi assignments shown,
      ← columnAssignment_canonical hj (haccepted.nonneg _ hmem) shown, resolveGradebookCellTarget,
      parse_cellName]
    by_cases haddress : j+2 ≤ 18277 ∧ i+1 < 9999
    · have hfirst : ¬j+2 ≤ 1 := by omega
      have hlater : i+1 ≠ 0 := Nat.succ_ne_zero i
      have hrow : i < 9998 ∧ j ≤ 18275 := by omega
      rw [if_pos haddress, Option.map_some, gradebookValues_canonical, Option.getD_some]
      dsimp only
      rw [if_neg hfirst]
      cases columnAssignment rules assignments (canonicalValues roster assignments shown)
          (j+2) with
      | none => simp
      | some a =>
        cases rowStudent rules roster (canonicalValues roster assignments shown) (i+1) with
        | none => simp
        | some u => simp [hrow]
    · rw [if_neg haddress]
      refine iff_of_false (fun h => by cases h) fun h => haddress ?_
      omega
  rw [htarget]
  constructor
  · rintro ⟨⟨hrow, hcolumn, hown, hname⟩, hleft⟩
    exact ⟨hrow, hcolumn, hown, (column_iff haccepted hj hown roster shown).mp hleft, hname⟩
  · rintro ⟨hrow, hcolumn, hown, hleft, hname⟩
    exact ⟨⟨hrow, hcolumn, hown, hname⟩, (column_iff haccepted hj hown roster shown).mpr hleft⟩

end Canonical

section Names
variable {rules : TextRules} {roster : List User} {assignments : List Assignment}
  {workbook : Option GradebookAiContext} {cell : List Char} {location : CellLocation}

structure ShowsUsername (rules : TextRules) (workbook : Option GradebookAiContext)
    (cell : List Char) (location : CellLocation) (username : List Char) : Prop where
  parsed : parseCellAddress rules cell = some location
  shown : shownUsername ((gradebookValues workbook).getD []) location.row = username
  nonempty : username ≠ []

/-- Below the headers, in the column of an assignment and in a row of the roster. -/
structure IsGradeCell (rules : TextRules) (roster : List User) (assignments : List Assignment)
    (workbook : Option GradebookAiContext) (location : CellLocation) : Prop where
  column : 2 ≤ location.column
  row : 0 < location.row
  assignment : (columnAssignment rules assignments ((gradebookValues workbook).getD [])
    location.column).isSome = true
  student : location.row ≤ roster.length

theorem resolve_eq_grade_iff {target : List Char} {assignment : Assignment} {student : User}
    (hparse : parseCellAddress rules cell = some location) :
    resolveGradebookCellTarget rules cell roster assignments workbook =
        some (.grade target assignment student) ↔
      2 ≤ location.column ∧ 0 < location.row ∧ target = location.address ∧
        columnAssignment rules assignments ((gradebookValues workbook).getD []) location.column =
          some assignment ∧
        rowStudent rules roster ((gradebookValues workbook).getD []) location.row =
          some student := by
  rw [resolveGradebookCellTarget, hparse, Option.map_some]
  dsimp only
  split
  · next hcolumn =>
    refine iff_of_false (fun h => by cases h) fun h => ?_
    omega
  · next hcolumn =>
    cases columnAssignment rules assignments ((gradebookValues workbook).getD [])
        location.column with
    | none => simp
    | some a =>
      by_cases hrow : location.row = 0
      · simp [hrow]
      · cases rowStudent rules roster ((gradebookValues workbook).getD []) location.row with
        | none => simp [hrow]
        | some u =>
          have hrow' : 0 < location.row := Nat.pos_of_ne_zero hrow
          have hcolumn' : 2 ≤ location.column := by omega
          simp [hrow, hrow', hcolumn', eq_comm]

/-- Grades follow the username of a row as long as a student has it: else they follow its place. -/
theorem grades_follow_username_iff :
    (∀ location username, ShowsUsername rules workbook cell location username →
      ∀ target assignment student,
        resolveGradebookCellTarget rules cell roster assignments workbook =
          some (.grade target assignment student) →
        rules.lower student.username = rules.lower username) ↔
      ∀ location username, ShowsUsername rules workbook cell location username →
        IsGradeCell rules roster assignments workbook location →
          ∃ u ∈ roster, rules.lower u.username = rules.lower username := by
  constructor
  · intro h location username hshows hgrade
    obtain ⟨assignment, hassignment⟩ := Option.isSome_iff_exists.mp hgrade.assignment
    by_contra hnone
    have hfind : roster.find? (fun item => decide (rules.lower item.username =
        rules.lower username)) = none := by
      rw [List.find?_eq_none]
      exact fun u hu hname => hnone ⟨u, hu, of_decide_eq_true hname⟩
    have hplace : location.row-1 < roster.length := by
      have := hgrade.row
      have := hgrade.student
      omega
    have hstudent : rowStudent rules roster ((gradebookValues workbook).getD []) location.row =
        some roster[location.row-1] := by
      rw [rowStudent, hshows.shown, hfind, Option.none_or, List.getElem?_eq_getElem hplace]
    exact hnone ⟨_, List.getElem_mem hplace, h location username hshows _ _ _
      ((resolve_eq_grade_iff hshows.parsed).mpr
        ⟨hgrade.column, hgrade.row, rfl, hassignment, hstudent⟩)⟩
  · intro h location username hshows target assignment student hresolve
    obtain ⟨hcolumn, hrow, -, hassignment, hstudent⟩ :=
      (resolve_eq_grade_iff hshows.parsed).mp hresolve
    rw [rowStudent, hshows.shown] at hstudent
    cases hfind : roster.find? fun item => decide (rules.lower item.username =
        rules.lower username) with
    | some u =>
      rw [hfind, Option.some_or] at hstudent
      obtain rfl := Option.some.inj hstudent
      have hname := List.find?_some hfind
      exact of_decide_eq_true hname
    | none =>
      rw [hfind, Option.none_or] at hstudent
      obtain ⟨hplace, -⟩ := List.getElem?_eq_some_iff.mp hstudent
      obtain ⟨u, hu, hname⟩ := h location username hshows
        ⟨hcolumn, hrow, by rw [hassignment]; rfl, by omega⟩
      exact absurd (decide_eq_true hname) (List.find?_eq_none.mp hfind u hu)

end Names

section Samples

def sampleRoster : List User :=
  [⟨"s1", "thomas".toList, "Thomas".toList⟩, ⟨"s2", "daksh".toList, "Daksh".toList⟩]

def sampleAssignments : List Assignment :=
  [⟨"a1", "Quiz 1".toList, .normalize false 10 0⟩, ⟨"a2", "quiz-1".toList, .normalize false 10 0⟩]

theorem sampleAssignments_accepted : AcceptedAssignments asciiRules sampleAssignments where
  ids := by decide
  titles := by decide
  nonneg := by decide
  doubles := fun _ _ => rfl

theorem maps_cell_iff_sample :
    (resolveGradebookCellTarget asciiRules (cellName 2 2) sampleRoster sampleAssignments
        (canonicalSheet sampleRoster sampleAssignments fun _ _ => .null) =
          some (.grade (cellName 2 2) ⟨"a1", "Quiz 1".toList, .normalize false 10 0⟩
            ⟨"s2", "daksh".toList, "Daksh".toList⟩) ∧
      findGradebookAssignmentColumn asciiRules ⟨"a1", "Quiz 1".toList, .normalize false 10 0⟩
        sampleAssignments (canonicalSheet sampleRoster sampleAssignments fun _ _ => .null) = 2) :=
  (maps_cell_iff (i := 1) (j := 0) sampleAssignments_accepted (by decide) rfl rfl
    fun _ _ => .null).mpr ⟨by decide, by decide, ⟨by decide +kernel, by simp⟩,
      by unfold LeftHeaders; decide +kernel, ⟨by decide, .inl (by decide)⟩⟩

/-- The cell of the second assignment stands for the first. -/
theorem same_words_share_cell :
    ¬∀ (rules : TextRules) (roster : List User) (assignments : List Assignment) (i j : ℕ)
      (student : User) (assignment : Assignment) (shown : User → Assignment → CellValue),
      AcceptedAssignments rules assignments → (roster.map (·.username)).Nodup →
      roster[i]? = some student → assignments[j]? = some assignment →
      resolveGradebookCellTarget rules (cellName (j+2) (i+1)) roster assignments
          (canonicalSheet roster assignments shown) =
            some (.grade (cellName (j+2) (i+1)) assignment student) ∧
        findGradebookAssignmentColumn rules assignment assignments
          (canonicalSheet roster assignments shown) = j+2 := by
  intro h
  have hcell := (h asciiRules sampleRoster sampleAssignments 0 1 _ _ (fun _ _ => .null)
    sampleAssignments_accepted (by decide) rfl rfl).1
  revert hcell
  decide +kernel

def editedSheet : Option GradebookAiContext :=
  some ⟨[⟨"Gradebook", [[.text "Student".toList, .text "Username".toList],
    [.text "Thomas".toList, .text "tomas".toList]]⟩]⟩

/-- A row whose username nobody has gives its grade to the student of its place. -/
theorem edited_username_falls_back :
    ¬∀ (rules : TextRules) (roster : List User) (assignments : List Assignment)
      (workbook : Option GradebookAiContext) (cell : List Char) (location : CellLocation)
      (username : List Char), ShowsUsername rules workbook cell location username →
      ∀ target assignment student,
        resolveGradebookCellTarget rules cell roster assignments workbook =
          some (.grade target assignment student) →
        rules.lower student.username = rules.lower username := by
  intro h
  have hname := h asciiRules sampleRoster sampleAssignments editedSheet "C2".toList
    ⟨"C2".toList, 2, 1⟩ "tomas".toList ⟨by decide +kernel, by decide +kernel, by decide⟩
    "C2".toList ⟨"a1", "Quiz 1".toList, .normalize false 10 0⟩
    ⟨"s1", "thomas".toList, "Thomas".toList⟩ (by decide +kernel)
  revert hname
  decide

end Samples

end Cinder.Teacher
