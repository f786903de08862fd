import Cinder.Materials.Downloads
import Cinder.Streams.WordRuns
set_option autoImplicit false

namespace Cinder.Materials
open Cinder.Host Cinder.Streams

/-- The `filename` of a header value, without its quotes. -/
def fileNameFromDisposition (value : String) : Option String :=
  let parts := (value.toList.splitOn ';').map trimmed
  let name := (parts.findSome? (stripPrefix "filename=".toList)).map (strip (· = '"'))
  (name.filter (· ≠ [])).map String.ofList

def isSafe (c : Char) : Bool :=
  c.isAlphanum || c = '.' || c = '-' || c = '_' || c = ' '

def sanitizeFileName (value : String) : String :=
  let cleaned := (value.toList.filter isSafe).take 120
  if trimmed cleaned = [] then "material.bin" else String.ofList cleaned

def extensionOf (contentType : String) : String :=
  if contentType = "application/pdf" then "pdf"
  else if contentType = "image/png" then "png"
  else if contentType = "image/jpeg" then "jpg"
  else if contentType = "image/gif" then "gif"
  else if contentType = "image/webp" then "webp"
  else "bin"

/-- The name that `open_material` gives to its copy of a file. -/
def openedName (disposition : Option String) (contentType fileName : String) : String :=
  sanitizeFileName ((disposition.bind fileNameFromDisposition).getD
    (fileName ++ "." ++ extensionOf contentType))

/-- No copy is opened outside of its directory, whatever the Host answers. -/
theorem openedName_safe (disposition : Option String) (contentType fileName : String) :
    openedName disposition contentType fileName ≠ "" ∧
      ∀ c ∈ (openedName disposition contentType fileName).toList, isSafe c = true := by
  unfold openedName sanitizeFileName
  generalize (disposition.bind fileNameFromDisposition).getD _ = value
  dsimp only
  split
  · exact ⟨by decide, List.all_eq_true.mp (by decide : "material.bin".toList.all isSafe = true)⟩
  · next hblank =>
    refine ⟨fun hempty => hblank ?_, fun c hc => ?_⟩
    · rw [← String.toList_inj, String.toList_ofList] at hempty
      rw [hempty]
      rfl
    · rw [String.toList_ofList] at hc
      exact List.of_mem_filter (List.mem_of_mem_take hc)

def unquoted (name : String) : List Char := name.toList.filter (· ≠ '"')

theorem quote_not_mem_unquoted (name : String) : '"' ∉ unquoted name := by
  simp [unquoted]

theorem trimmed_eq_strip (s : List Char) : trimmed s = strip isWhitespace s := by
  rw [trimmed, toList_trim, String.toList_ofList]

theorem trimmed_filename (s : List Char) :
    trimmed (' ' :: ("filename=".toList ++ '"' :: s)) =
      "filename=".toList ++ '"' :: s.rdropWhile isWhitespace := by
  have hfront : ("filename=".toList ++ '"' :: s).dropWhile isWhitespace =
      "filename=".toList ++ '"' :: s :=
    List.dropWhile_cons_of_neg (by decide : ¬isWhitespace 'f' = true)
  rw [trimmed_eq_strip, strip_cons _ (by decide), strip, hfront]
  exact rdropWhile_append_cons "filename=".toList (by decide) s

theorem strip_quotes {s : List Char} (h : '"' ∉ s) : strip (· = '"') ('"' :: s) = s := by
  rw [strip_cons _ (by decide)]
  exact strip_of_forall fun c hc => decide_eq_false fun heq => h (heq ▸ hc)

theorem fileName_of_parts {value : String} (s : List Char) (more : List (List Char))
    (h : value.toList.splitOn ';' =
      "inline".toList :: (' ' :: ("filename=".toList ++ '"' :: s)) :: more) :
    fileNameFromDisposition value =
      ((some (strip (· = '"') ('"' :: s.rdropWhile isWhitespace))).filter (· ≠ [])).map
        String.ofList := by
  have hinline : stripPrefix "filename=".toList (trimmed "inline".toList) = none := by decide
  have hfound : ((value.toList.splitOn ';').map trimmed).findSome?
      (stripPrefix "filename=".toList) = some ('"' :: s.rdropWhile isWhitespace) := by
    rw [h, List.map_cons, List.map_cons, List.findSome?_cons_of_isNone (by rw [hinline]; rfl),
      trimmed_filename, List.findSome?_cons, stripPrefix_append]
  unfold fileNameFromDisposition
  dsimp only
  rw [hfound]
  rfl

theorem toList_contentDisposition (name : String) :
    (contentDisposition name).toList = "inline".toList ++ ';' ::
      (' ' :: ("filename=".toList ++ '"' :: (unquoted name ++ ['"']))) := by
  have hlast := String.toList_append (s := "inline; filename=\"" ++
    String.ofList (name.toList.filter (· ≠ '"'))) (t := "\"")
  unfold contentDisposition
  rw [hlast, String.toList_append, String.toList_ofList]
  simp [unquoted]

/-- What Forge reads of a name: everything before its first semicolon, trimmed at the end, or all
of it if there is none. -/
theorem fileName_contentDisposition (name : String) :
    fileNameFromDisposition (contentDisposition name) =
      ((some (if ';' ∈ name.toList then
          ((unquoted name).takeWhile (· ≠ ';')).rdropWhile isWhitespace
        else unquoted name)).filter (· ≠ [])).map String.ofList := by
  have hinline : ';' ∉ "inline".toList := by decide
  have hmem : ';' ∈ name.toList ↔ ';' ∈ unquoted name := by simp [unquoted]
  have hquote := quote_not_mem_unquoted name
  have hvalue := toList_contentDisposition name
  simp only [hmem]
  generalize unquoted name = s at *
  split
  · next h =>
    obtain ⟨a, b, rfl, ha⟩ := List.eq_append_cons_of_mem h
    have hpart : ';' ∉ ' ' :: ("filename=".toList ++ '"' :: a) := by simp [ha]
    have hfront : ∀ c ∈ a, decide (c ≠ ';') = true := fun c hc =>
      decide_eq_true fun heq => ha (heq ▸ hc)
    have hname : (a ++ ';' :: b).takeWhile (· ≠ ';') = a := by
      rw [List.takeWhile_append_of_pos hfront]
      simp
    have hback : '"' ∉ a.rdropWhile isWhitespace := fun hc =>
      hquote (List.mem_append_left _ ((List.rdropWhile_prefix isWhitespace a).subset hc))
    rw [fileName_of_parts a ((b ++ ['"']).splitOn ';'), hname, strip_quotes hback]
    rw [hvalue, List.splitOn_append_cons_self_of_not_mem hinline,
      ← List.splitOn_append_cons_self_of_not_mem hpart]
    simp
  · next h =>
    have hpart : ';' ∉ ' ' :: ("filename=".toList ++ '"' :: (s ++ ['"'])) := by simp [h]
    have hback : (s ++ ['"']).rdropWhile isWhitespace = s ++ ['"'] :=
      List.rdropWhile_concat_neg _ _ _ (by decide)
    have hstrip : strip (· = '"') ('"' :: (s ++ ['"'])) = s := by
      rw [← List.cons_append, strip_concat _ (by decide), strip_quotes hquote]
    rw [fileName_of_parts (s ++ ['"']) [], hback, hstrip]
    rw [hvalue, List.splitOn_append_cons_self_of_not_mem hinline, List.splitOn_eq_singleton hpart]

/-- The name of a material comes through its header exactly if no semicolon is in it. -/
theorem material_name_survives_iff (name : String) (h : ∃ c ∈ name.toList, c ≠ '"') :
    fileNameFromDisposition (contentDisposition name) = some (String.ofList (unquoted name)) ↔
      ';' ∉ name.toList := by
  have hne : unquoted name ≠ [] := by
    obtain ⟨c, hc, hquote⟩ := h
    exact List.ne_nil_of_mem (a := c) (by simp [unquoted, hc, hquote])
  rw [fileName_contentDisposition]
  split
  · next hmem =>
    refine iff_of_false (fun heq => ?_) (fun hno => hno hmem)
    obtain ⟨s, hs, hname⟩ := Option.map_eq_some_iff.mp heq
    obtain ⟨hs, -⟩ := Option.filter_eq_some_iff.mp hs
    have hsame : s = unquoted name := by simpa using congrArg String.toList hname
    have hsemi : ';' ∈ s := by
      rw [hsame]
      simp [unquoted, hmem]
    rw [← Option.some.inj hs] at hsemi
    have hfront := (List.rdropWhile_prefix isWhitespace _).subset hsemi
    simpa using List.mem_takeWhile_imp hfront
  · next hno =>
    refine iff_of_true ?_ hno
    simp [Option.filter, hne]

theorem material_name_survives_iff_sample :
    fileNameFromDisposition (contentDisposition "filename=\"ü\" 2.pdf ") =
      some (String.ofList (unquoted "filename=\"ü\" 2.pdf ")) :=
  (material_name_survives_iff "filename=\"ü\" 2.pdf " ⟨'f', by simp, by decide⟩).mpr (by simp)

/-- The copy that is opened has lost its extension. -/
theorem semicolon_cuts_name :
    "a;b.pdf".toList.any isRefused = false ∧
      fileNameFromDisposition (contentDisposition "a;b.pdf") = some "a" ∧
      fileNameFromDisposition (contentDisposition "a;b.pdf") ≠
        some (String.ofList (unquoted "a;b.pdf")) ∧
      openedName (some (contentDisposition "a;b.pdf")) "application/pdf" "a;b" = "a" := by
  have hname : fileNameFromDisposition (contentDisposition "a;b.pdf") = some "a" := by
    decide +kernel
  refine ⟨by decide +kernel, hname, ?_, by decide +kernel⟩
  rw [hname]
  decide +kernel

end Cinder.Materials
