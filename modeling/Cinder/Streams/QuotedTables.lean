import Mathlib.Data.List.Basic
set_option autoImplicit false

namespace Cinder.Streams

def doubled (c : Char) : List Char := if c = '"' then ['"', '"'] else [c]

def quoteField (s : List Char) : List Char := '"' :: s.flatMap doubled ++ ['"']

def writeRow (row : List (List Char)) : List Char := [','].intercalate (row.map quoteField)

def writeTable (rows : List (List (List Char))) : List Char :=
  ['\r', '\n'].intercalate (rows.map writeRow)

def readQuoted : List Char → Option (List Char × List Char)
  | [] => none
  | '"' :: '"' :: rest => (readQuoted rest).map fun r => ('"' :: r.1, r.2)
  | '"' :: rest => some ([], rest)
  | c :: rest => (readQuoted rest).map fun r => (c :: r.1, r.2)

def isPlainField (c : Char) : Bool := c ≠ ',' && c ≠ '\r' && c ≠ '\n' && c ≠ '"'

def readField : List Char → Option (List Char × List Char)
  | '"' :: rest => readQuoted rest
  | s => some (s.takeWhile isPlainField, s.dropWhile isPlainField)

def readRow : ℕ → List Char → Option (List (List Char) × List Char)
  | 0, _ => none
  | fuel+1, s =>
    match readField s with
    | none => none
    | some (field, ',' :: rest) => (readRow fuel rest).map fun r => (field :: r.1, r.2)
    | some (field, rest) => some ([field], rest)

def readRows : ℕ → List Char → Option (List (List (List Char)))
  | 0, _ => none
  | fuel+1, s =>
    match readRow s.length.succ s with
    | some (row, []) | some (row, ['\r', '\n']) => some [row]
    | some (row, '\r' :: '\n' :: rest) => (readRows fuel rest).map (row :: ·)
    | _ => none

def readTable (s : List Char) : Option (List (List (List Char))) := readRows s.length.succ s

section RoundTrip
variable {s rest : List Char} {row : List (List Char)} {rows : List (List (List Char))}

theorem readQuoted_quote (h : rest.head? ≠ some '"') :
    readQuoted (s.flatMap doubled ++ '"' :: rest) = some (s, rest) := by
  induction s with
  | nil =>
    rw [List.flatMap_nil, List.nil_append, readQuoted]
    intro rest' heq
    simp [heq] at h
  | cons c s ih =>
    by_cases hc : c = '"'
    · simp [doubled, hc, readQuoted, ih]
    · simp [doubled, hc, readQuoted, ih]

theorem readField_quote (h : rest.head? ≠ some '"') :
    readField (quoteField s ++ rest) = some (s, rest) := by
  simp only [quoteField, List.cons_append, List.append_assoc, List.nil_append, readField]
  exact readQuoted_quote h

def EndsRow (rest : List Char) : Prop := rest = [] ∨ ∃ t, rest = '\r' :: '\n' :: t

theorem EndsRow.head? (h : EndsRow rest) : rest.head? ≠ some '"' ∧ rest.head? ≠ some ',' := by
  obtain rfl | ⟨t, rfl⟩ := h <;> simp

theorem readRow_last {fuel : ℕ} {field : List Char} (hfield : readField s = some (field, rest))
    (hcomma : rest.head? ≠ some ',') : readRow (fuel+1) s = some ([field], rest) := by
  rw [readRow, hfield]
  cases rest with
  | nil => rfl
  | cons c rest =>
    have hc : c ≠ ',' := by simpa using hcomma
    simp [hc]

@[simp] theorem writeRow_singleton (x : List Char) : writeRow [x] = quoteField x := by
  simp [writeRow]

@[simp] theorem writeRow_cons (x y : List Char) (ys : List (List Char)) :
    writeRow (x :: y :: ys) = quoteField x ++ ',' :: writeRow (y :: ys) := by
  simp [writeRow]

@[simp] theorem writeTable_singleton (row : List (List Char)) :
    writeTable [row] = writeRow row := by
  simp [writeTable]

@[simp] theorem writeTable_cons (row row' : List (List Char)) (rows : List (List (List Char))) :
    writeTable (row :: row' :: rows) =
      writeRow row ++ '\r' :: '\n' :: writeTable (row' :: rows) := by
  simp [writeTable]

theorem readRow_writeRow {fuel : ℕ} (hrow : row ≠ []) (hrest : EndsRow rest)
    (hfuel : row.length ≤ fuel) : readRow fuel (writeRow row ++ rest) = some (row, rest) := by
  induction row generalizing fuel with
  | nil => simp at hrow
  | cons x xs ih =>
    cases fuel with
    | zero => simp at hfuel
    | succ fuel =>
      cases xs with
      | nil =>
        rw [writeRow_singleton]
        exact readRow_last (readField_quote hrest.head?.1) hrest.head?.2
      | cons y ys =>
        have hfield : readField (quoteField x ++ ',' :: (writeRow (y :: ys) ++ rest)) =
            some (x, ',' :: (writeRow (y :: ys) ++ rest)) := readField_quote (by simp)
        have hmore : readRow fuel (writeRow (y :: ys) ++ rest) = some (y :: ys, rest) :=
          ih (by simp) (by simpa using hfuel)
        rw [writeRow_cons, List.append_assoc, List.cons_append, readRow, hfield]
        simp [hmore]

theorem length_le_writeRow (row : List (List Char)) : row.length ≤ (writeRow row).length := by
  induction row with
  | nil => simp
  | cons x xs ih =>
    cases xs with
    | nil => simp [quoteField]
    | cons y ys =>
      rw [writeRow_cons]
      simp only [List.length_append, List.length_cons] at *
      omega

theorem writeTable_head (rows : List (List (List Char))) {row : List (List Char)}
    (hrow : row ≠ []) : ∃ t, writeTable (row :: rows) = '"' :: t := by
  have hwritten : ∃ t, writeRow row = '"' :: t := by
    match row, hrow with
    | [x], _ => exact ⟨_, writeRow_singleton x⟩
    | x :: y :: ys, _ => exact ⟨_, writeRow_cons x y ys⟩
  obtain ⟨t, ht⟩ := hwritten
  cases rows with
  | nil => exact ⟨t, by rw [writeTable_singleton, ht]⟩
  | cons row' rows => exact ⟨_, by rw [writeTable_cons, ht, List.cons_append]⟩

theorem readRows_writeTable {fuel : ℕ} (hrows : ∀ row ∈ rows, row ≠ []) (hne : rows ≠ [])
    (hfuel : rows.length ≤ fuel) : readRows fuel (writeTable rows) = some rows := by
  induction rows generalizing fuel with
  | nil => simp at hne
  | cons row rest ih =>
    obtain ⟨hrow, hrest⟩ := List.forall_mem_cons.mp hrows
    cases fuel with
    | zero => simp at hfuel
    | succ fuel =>
      have hread {u : List Char} (hu : EndsRow u) :
          readRow (writeRow row ++ u).length.succ (writeRow row ++ u) = some (row, u) := by
        refine readRow_writeRow hrow hu ?_
        have hlength := length_le_writeRow row
        simp only [List.length_append]
        omega
      cases rest with
      | nil =>
        have hlast := hread (u := []) (.inl rfl)
        rw [List.append_nil] at hlast
        rw [writeTable_singleton, readRows, hlast]
      | cons row' rest =>
        have hmore : readRows fuel (writeTable (row' :: rest)) = some (row' :: rest) :=
          ih hrest (by simp) (by simpa using hfuel)
        obtain ⟨t, ht⟩ := writeTable_head rest (hrest row' (by simp))
        rw [writeTable_cons, readRows, hread (.inr ⟨_, rfl⟩)]
        rw [ht] at hmore ⊢
        simp [hmore]

theorem length_le_writeTable (hrows : ∀ row ∈ rows, row ≠ []) :
    rows.length ≤ (writeTable rows).length := by
  induction rows with
  | nil => simp
  | cons row rest ih =>
    obtain ⟨hrow, hrest⟩ := List.forall_mem_cons.mp hrows
    cases rest with
    | nil =>
      obtain ⟨t, ht⟩ := writeTable_head [] hrow
      simp [ht]
    | cons row' rest =>
      have hmore := ih hrest
      rw [writeTable_cons]
      simp only [List.length_append, List.length_cons] at *
      omega

theorem readTable_writeTable (hrows : ∀ row ∈ rows, row ≠ []) (hne : rows ≠ []) :
    readTable (writeTable rows) = some rows :=
  readRows_writeTable hrows hne (Nat.le_succ_of_le (length_le_writeTable hrows))

end RoundTrip

end Cinder.Streams
