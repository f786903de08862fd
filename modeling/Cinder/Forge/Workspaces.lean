import Cinder.Ecma.JsonParsing
import Cinder.Worksheets.PaperSpecs
set_option autoImplicit false

namespace Cinder.Forge
open Cinder.Ecma Cinder.Worksheets

section Keys
variable {α κ : Type} [DecidableEq κ] (key : α → Option κ)

/-- The items with a key that none before has and that has not been seen. -/
def distinctFrom : List κ → List α → List α
  | _, [] => []
  | seen, x :: xs =>
    match key x with
    | none => distinctFrom seen xs
    | some k => if k ∈ seen then distinctFrom seen xs else x :: distinctFrom (k :: seen) xs

variable {key} {seen : List κ} {x : α} {xs : List α} {k : κ}

theorem distinctFrom_none (h : key x = none) :
    distinctFrom key seen (x :: xs) = distinctFrom key seen xs := by
  simp only [distinctFrom, h]

theorem distinctFrom_seen (h : key x = some k) (hk : k ∈ seen) :
    distinctFrom key seen (x :: xs) = distinctFrom key seen xs := by
  simp only [distinctFrom, h, if_pos hk]

theorem distinctFrom_new (h : key x = some k) (hk : k ∉ seen) :
    distinctFrom key seen (x :: xs) = x :: distinctFrom key (k :: seen) xs := by
  simp only [distinctFrom, h, if_neg hk]

theorem mem_map_distinctFrom :
    some k ∈ (distinctFrom key seen xs).map key ↔ some k ∈ xs.map key ∧ k ∉ seen := by
  induction xs generalizing seen with
  | nil => simp [distinctFrom]
  | cons x xs ih =>
    cases h : key x with
    | none => rw [distinctFrom_none h, ih, List.map_cons, h]; simp
    | some l =>
      by_cases hl : l ∈ seen
      · rw [distinctFrom_seen h hl, ih, List.map_cons, h]
        refine and_congr_left fun hk => ?_
        have hne : k ≠ l := fun heq => hk (heq ▸ hl)
        simp [hne]
      · rw [distinctFrom_new h hl, List.map_cons, List.map_cons, h, List.mem_cons, List.mem_cons,
          ih, Option.some_inj, List.mem_cons]
        by_cases hk : k = l
        · simp [hk, hl]
        · simp [hk]

theorem key_of_mem_distinctFrom (h : x ∈ distinctFrom key seen xs) :
    ∃ k, key x = some k ∧ k ∉ seen := by
  induction xs generalizing seen with
  | nil => cases h
  | cons y ys ih =>
    cases hy : key y with
    | none => rw [distinctFrom_none hy] at h; exact ih h
    | some l =>
      by_cases hl : l ∈ seen
      · rw [distinctFrom_seen hy hl] at h
        exact ih h
      · rw [distinctFrom_new hy hl] at h
        cases h with
        | head => exact ⟨l, hy, hl⟩
        | tail _ h =>
          obtain ⟨k, hk, hseen⟩ := ih h
          exact ⟨k, hk, fun hmem => hseen (List.mem_cons_of_mem _ hmem)⟩

theorem nodup_map_distinctFrom (seen : List κ) (xs : List α) :
    ((distinctFrom key seen xs).map key).Nodup := by
  induction xs generalizing seen with
  | nil => exact List.nodup_nil
  | cons x xs ih =>
    cases h : key x with
    | none => rw [distinctFrom_none h]; exact ih seen
    | some k =>
      by_cases hk : k ∈ seen
      · rw [distinctFrom_seen h hk]
        exact ih seen
      · rw [distinctFrom_new h hk, List.map_cons, h, List.nodup_cons, mem_map_distinctFrom]
        exact ⟨fun hmem => hmem.2 List.mem_cons_self, ih _⟩

theorem find?_of_mem_distinctFrom (h : x ∈ distinctFrom key seen xs) :
    xs.find? (fun y => key y = key x) = some x := by
  induction xs generalizing seen with
  | nil => cases h
  | cons y ys ih =>
    obtain ⟨k, hk, hseen⟩ := key_of_mem_distinctFrom h
    by_cases hy : key y = key x
    · have hnew : k ∉ seen := hseen
      rw [distinctFrom_new (hy.trans hk) hnew] at h
      cases h with
      | head => simp
      | tail _ h =>
        obtain ⟨l, hl, hother⟩ := key_of_mem_distinctFrom h
        obtain rfl : k = l := Option.some.inj (hk.symm.trans hl)
        exact absurd List.mem_cons_self hother
    · rw [List.find?_cons_of_neg (by simpa using hy)]
      cases hl : key y with
      | none => rw [distinctFrom_none hl] at h; exact ih h
      | some l =>
        by_cases hmem : l ∈ seen
        · rw [distinctFrom_seen hl hmem] at h
          exact ih h
        · rw [distinctFrom_new hl hmem] at h
          cases h with
          | head => exact absurd rfl hy
          | tail _ h => exact ih h

theorem distinctFrom_of_nodup (h : (xs.map key).Nodup) (hsome : ∀ x ∈ xs, key x ≠ none)
    (hseen : ∀ k ∈ seen, some k ∉ xs.map key) : distinctFrom key seen xs = xs := by
  induction xs generalizing seen with
  | nil => rfl
  | cons x xs ih =>
    rw [List.map_cons, List.nodup_cons] at h
    rw [List.forall_mem_cons] at hsome
    obtain ⟨k, hk⟩ := Option.ne_none_iff_exists'.mp hsome.1
    have hnew : k ∉ seen := fun hmem => hseen k hmem (by simp [hk])
    rw [distinctFrom_new hk hnew, ih h.2 hsome.2]
    intro l hl hmem
    cases hl with
    | head => exact h.1 (hk ▸ hmem)
    | tail _ hl => exact hseen l hl (List.mem_cons_of_mem _ hmem)

end Keys

section Model

inductive WidgetId where
  | timer
  | library
  | studio
  | activity
  deriving DecidableEq, Repr

namespace WidgetId

def text : WidgetId → String
  | timer => "timer"
  | library => "library"
  | studio => "studio"
  | activity => "activity"

def all : List WidgetId := [timer, library, studio, activity]

/-- The name that the timer had is read as well. -/
def read : Json → Option WidgetId
  | .string s =>
    if s = "focus".toList then some timer else all.find? fun w => w.text.toList = s
  | _ => none

def json (w : WidgetId) : Json := .string w.text.toList

@[simp] theorem read_json (w : WidgetId) : read w.json = some w := by
  cases w <;> decide

end WidgetId

/-- Records keep the fields that are not read here. -/
structure ForgeData where
  profileName : List Char
  notes : List Json
  studioNotes : List Json
  files : List Json
  activity : List Json
  widgets : List WidgetId
  notesMigratedAt : Option Json

def emptyData : ForgeData := ⟨[], [], [], [], [], WidgetId.all, none⟩

def truthy : Json → Bool
  | .null => false
  | .boolean b => b
  | .number d => d ≠ .zero
  | .string s => s ≠ []
  | _ => true

def isString : Option Json → Bool
  | some (.string _) => true
  | _ => false

def textField (item : Json) (key : String) : List Char :=
  match field item key with
  | some (.string s) => s
  | _ => []

def idOf (item : Json) : Option (List Char) :=
  match field item "id" with
  | some (.string id) => some id
  | _ => none

def escapeHtml (c : Char) : List Char :=
  if c = '&' then "&amp;".toList
  else if c = '<' then "&lt;".toList
  else if c = '>' then "&gt;".toList
  else [c]

def lineFeeds : List Char → List Char
  | '\r' :: '\n' :: s => '\n' :: lineFeeds s
  | '\r' :: s => '\n' :: lineFeeds s
  | c :: s => c :: lineFeeds s
  | [] => []

def textToHtml (text : List Char) : List Char :=
  ((lineFeeds (text.flatMap escapeHtml)).splitOn '\n').flatMap fun line =>
    "<p>".toList ++ (if line = [] then "<br>".toList else line) ++ "</p>".toList

def convertedMembers (note : Json) : List (List Char × Json) :=
  let title := textField note "title"
  [("id".toList, .string (textField note "id")),
    ("title".toList, .string (if title = [] then "Untitled note".toList else title)),
    ("topic".toList, .string (textField note "topic")),
    ("bodyHtml".toList, .string (textToHtml (textField note "body"))),
    ("createdAt".toList, .string (textField note "createdAt")),
    ("updatedAt".toList, .string (textField note "createdAt"))]

def convertNote (note : Json) : Json := .object (convertedMembers note)

-- The shortest decimal of the nearest double, the time of a date's text, and `Array.sort`.
variable (double : Decimal → Option Decimal) (time : List Char → Option ℤ)
  (sort : (Json → Json → ℤ) → List Json → List Json)

def byUpdated (left right : Json) : ℤ :=
  match time (textField right "updatedAt"), time (textField left "updatedAt") with
  | some r, some l => r-l
  | _, _ => 0

def migrateNotes (notes studioNotes : List Json) : List Json :=
  let existing := studioNotes.filterMap idOf
  sort (byUpdated time) (studioNotes ++ (distinctFrom idOf existing notes).map convertNote)

def acceptsVersion (v : Json) : Bool :=
  match field v "version" with
  | none => true
  | some (.number d) => d = .normalize false 1 0
  | _ => false

/-- The records of a field, if there are any, have the texts that they must have. -/
def validRecords (items : Option Json) (required : List String) : Bool :=
  match items with
  | none => true
  | some (.array items) =>
    items.all fun item => truthy item && required.all fun key => isString (field item key)
  | _ => false

def noteFields : List String := ["id", "title", "body", "topic", "createdAt"]

def documentFields : List String := ["id", "title", "bodyHtml", "topic", "createdAt", "updatedAt"]

def fileFields : List String := ["id", "name", "addedAt"]

def itemsOf (v : Json) (key : String) : List Json := (items? (field v key)).getD []

def knownWidgets (items : List Json) : List WidgetId :=
  (distinctFrom WidgetId.read [] items).filterMap WidgetId.read

def widgetsOf (v : Json) : List WidgetId :=
  match items? (field v "widgets") with
  | some items => if knownWidgets items = [] then WidgetId.all else knownWidgets items
  | none => WidgetId.all

def markOf (v : Json) : Option Json := (field v "notesMigratedAt").filter truthy

def workspaceOf (now : List Char) (v : Json) : ForgeData :=
  let notes := itemsOf v "notes"
  let stored := itemsOf v "studioNotes"
  let pending := !notes.isEmpty && (markOf v).isNone
  { profileName := textField v "profileName"
    notes
    studioNotes := if pending then migrateNotes time sort notes stored else stored
    files := itemsOf v "files"
    activity := itemsOf v "activity"
    widgets := widgetsOf v
    notesMigratedAt := (markOf v).or (if pending then some (.string now) else none) }

def accepts (v : Json) : Bool :=
  acceptsVersion v && validRecords (field v "notes") noteFields &&
    validRecords (field v "studioNotes") documentFields && validRecords (field v "files") fileFields

def decodeValue (now : List Char) : Json → Option ForgeData
  | .object members =>
    if accepts (.object members) then some (workspaceOf time sort now (.object members)) else none
  | _ => none

def decodeWorkspace (now : List Char) : Option (List Char) → Option ForgeData
  | none | some [] => some emptyData
  | some raw => (Json.parse (Json.nearest double) raw).bind (decodeValue time sort now)

def dataMembers (data : ForgeData) : List (List Char × Json) :=
  [("version".toList, .number (.normalize false 1 0)),
    ("profileName".toList, .string data.profileName),
    ("notes".toList, .array data.notes),
    ("studioNotes".toList, .array data.studioNotes),
    ("files".toList, .array data.files),
    ("activity".toList, .array data.activity),
    ("widgets".toList, .array (data.widgets.map WidgetId.json))] ++
  data.notesMigratedAt.toList.map fun v => ("notesMigratedAt".toList, v)

def workspaceText (data : ForgeData) : List Char := (Json.object (dataMembers data)).jsonText double

end Model

section Fields
variable {members : List (List Char × Json)} {key : String} {x note : Json} {data : ForgeData}

theorem field_of_mem (hkeys : (members.map (·.1)).Nodup) (h : (key.toList, x) ∈ members) :
    field (.object members) key = some x := by
  induction members with
  | nil => cases h
  | cons m ms ih =>
    rw [List.map_cons, List.nodup_cons] at hkeys
    cases h with
    | head => simp [field]
    | tail _ h =>
      have hne : m.1 ≠ key.toList := fun heq => hkeys.1 (heq ▸ List.mem_map_of_mem h)
      have hfield := ih hkeys.2 h
      simp only [field, Option.map_eq_some_iff] at hfield ⊢
      rwa [List.find?_cons_of_neg (by simpa using hne)]

theorem field_of_not_mem (h : key.toList ∉ members.map (·.1)) :
    field (.object members) key = none := by
  have hnone : members.find? (fun m => m.1 = key.toList) = none := by
    rw [List.find?_eq_none]
    intro m hm hkey
    exact h (List.mem_map.mpr ⟨m, hm, of_decide_eq_true hkey⟩)
  simp only [field, hnone, Option.map_none]

theorem mem_of_field (h : field (.object members) key = some x) : (key.toList, x) ∈ members := by
  simp only [field, Option.map_eq_some_iff] at h
  obtain ⟨m, hm, rfl⟩ := h
  have hkey := List.find?_some hm
  rw [← of_decide_eq_true hkey]
  exact List.mem_of_find?_eq_some hm

theorem nodup_convertedMembers (note : Json) : ((convertedMembers note).map (·.1)).Nodup :=
  show ["id".toList, "title".toList, "topic".toList, "bodyHtml".toList, "createdAt".toList,
    "updatedAt".toList].Nodup by decide

theorem field_convertNote (h : (key.toList, x) ∈ convertedMembers note) :
    field (convertNote note) key = some x := field_of_mem (nodup_convertedMembers note) h

theorem textField_of_idOf {id : List Char} (h : idOf note = some id) :
    textField note "id" = id := by
  unfold idOf at h
  unfold textField
  split at h
  · next hsome => simpa [hsome] using h
  · cases h

theorem idOf_convertNote {id : List Char} (h : idOf note = some id) :
    idOf (convertNote note) = some id := by
  have hfield : field (convertNote note) "id" = some (.string (textField note "id")) :=
    field_convertNote List.mem_cons_self
  rw [idOf, hfield, textField_of_idOf h]

theorem string_of_mem_converted {m : List Char × Json} (h : m ∈ convertedMembers note) :
    ∃ s, m.2 = .string s := by
  simp only [convertedMembers, List.mem_cons, List.not_mem_nil, or_false] at h
  obtain rfl | rfl | rfl | rfl | rfl | rfl := h <;> exact ⟨_, rfl⟩

theorem valid_convertNote (note : Json) :
    (truthy (convertNote note) && documentFields.all fun key =>
      isString (field (convertNote note) key)) = true := by
  have hkeys : documentFields.all (fun key => ["id".toList, "title".toList, "topic".toList,
      "bodyHtml".toList, "createdAt".toList, "updatedAt".toList].contains key.toList) = true := by
    decide
  rw [Bool.and_eq_true, List.all_eq_true]
  refine ⟨rfl, fun key hkey => ?_⟩
  have hmem : key.toList ∈ (convertedMembers note).map (·.1) :=
    List.contains_iff_mem.mp (List.all_eq_true.mp hkeys key hkey)
  obtain ⟨⟨k, x⟩, hm, rfl⟩ := List.mem_map.mp hmem
  obtain ⟨s, hs⟩ := string_of_mem_converted hm
  rw [field_convertNote hm]
  simp only at hs
  rw [hs]
  rfl

theorem nodup_dataMembers (data : ForgeData) : ((dataMembers data).map (·.1)).Nodup := by
  rcases data with ⟨profileName, notes, studioNotes, files, activity, widgets, mark⟩
  cases mark with
  | none => exact show ["version".toList, "profileName".toList, "notes".toList,
      "studioNotes".toList, "files".toList, "activity".toList, "widgets".toList].Nodup by decide
  | some x => exact show ["version".toList, "profileName".toList, "notes".toList,
      "studioNotes".toList, "files".toList, "activity".toList, "widgets".toList,
      "notesMigratedAt".toList].Nodup by decide

theorem field_dataMembers (h : (key.toList, x) ∈ dataMembers data) :
    field (.object (dataMembers data)) key = some x := field_of_mem (nodup_dataMembers data) h

theorem markOf_dataMembers (hmark : ∀ x ∈ data.notesMigratedAt, truthy x = true) :
    markOf (.object (dataMembers data)) = data.notesMigratedAt := by
  rw [markOf]
  cases h : data.notesMigratedAt with
  | none =>
    rw [field_of_not_mem]
    · rfl
    · simp only [dataMembers, h]
      exact show "notesMigratedAt".toList ∉ ["version".toList, "profileName".toList,
        "notes".toList, "studioNotes".toList, "files".toList, "activity".toList,
        "widgets".toList] by decide
  | some x =>
    have hfield : field (.object (dataMembers data)) "notesMigratedAt" = some x :=
      field_dataMembers (List.mem_append_right _ (by simp [h]))
    rw [hfield, Option.filter_some, if_pos (hmark x h)]

end Fields

section Decoding
variable {time : List Char → Option ℤ} {sort : (Json → Json → ℤ) → List Json → List Json}
  {now : List Char} {v : Json} {data : ForgeData} {members : List (List Char × Json)}

/-- What is decoded has records with their texts, and is marked when there are notes. -/
structure ForgeData.Valid (data : ForgeData) : Prop where
  notes : validRecords (some (.array data.notes)) noteFields = true
  studioNotes : validRecords (some (.array data.studioNotes)) documentFields = true
  files : validRecords (some (.array data.files)) fileFields = true
  widgets_ne : data.widgets ≠ []
  widgets_nodup : data.widgets.Nodup
  mark : ∀ x ∈ data.notesMigratedAt, truthy x = true
  marked : data.notes ≠ [] → data.notesMigratedAt ≠ none

theorem itemsOf_of_field {key : String} {items : List Json}
    (h : field v key = some (.array items)) : itemsOf v key = items := by rw [itemsOf, h]; rfl

theorem widgetsOf_dataMembers (hne : data.widgets ≠ []) (hnodup : data.widgets.Nodup) :
    widgetsOf (.object (dataMembers data)) = data.widgets := by
  have hfield : field (.object (dataMembers data)) "widgets" =
      some (.array (data.widgets.map WidgetId.json)) := field_dataMembers (by simp [dataMembers])
  have hread : (data.widgets.map WidgetId.json).map WidgetId.read = data.widgets.map some := by
    simp [Function.comp_def]
  have hkeys : ((data.widgets.map WidgetId.json).map WidgetId.read).Nodup := by
    rw [hread]
    exact hnodup.map (Option.some_injective _)
  have hdistinct : distinctFrom WidgetId.read [] (data.widgets.map WidgetId.json) =
      data.widgets.map WidgetId.json :=
    distinctFrom_of_nodup hkeys (by simp) (by simp)
  have hfilter : (data.widgets.map WidgetId.json).filterMap WidgetId.read = data.widgets := by
    simp [List.filterMap_map]
  simp only [widgetsOf, hfield, items?, knownWidgets, hdistinct, hfilter, if_neg hne]

theorem decodeValue_dataMembers (h : data.Valid) :
    decodeValue time sort now (.object (dataMembers data)) = some data := by
  have hversion : field (.object (dataMembers data)) "version" =
      some (.number (.normalize false 1 0)) := field_dataMembers (by simp [dataMembers])
  have hprofile : field (.object (dataMembers data)) "profileName" =
      some (.string data.profileName) := field_dataMembers (by simp [dataMembers])
  have hnotes : field (.object (dataMembers data)) "notes" = some (.array data.notes) :=
    field_dataMembers (by simp [dataMembers])
  have hstored : field (.object (dataMembers data)) "studioNotes" =
      some (.array data.studioNotes) := field_dataMembers (by simp [dataMembers])
  have hfiles : field (.object (dataMembers data)) "files" = some (.array data.files) :=
    field_dataMembers (by simp [dataMembers])
  have hactivity : field (.object (dataMembers data)) "activity" = some (.array data.activity) :=
    field_dataMembers (by simp [dataMembers])
  have haccepts : accepts (.object (dataMembers data)) = true := by
    simp [accepts, acceptsVersion, hversion, hnotes, hstored, hfiles, h.notes, h.studioNotes,
      h.files]
  have hpending : (!data.notes.isEmpty && data.notesMigratedAt.isNone) = false := by
    have hmarked := h.marked
    cases hdata : data.notes with
    | nil => rfl
    | cons n ns =>
      rw [hdata] at hmarked
      simpa [Option.isSome_iff_ne_none] using hmarked (List.cons_ne_nil _ _)
  rw [decodeValue, if_pos haccepts, workspaceOf, markOf_dataMembers h.mark,
    widgetsOf_dataMembers h.widgets_ne h.widgets_nodup, itemsOf_of_field hnotes,
    itemsOf_of_field hstored, itemsOf_of_field hfiles, itemsOf_of_field hactivity, hpending,
    textField, hprofile]
  simp

theorem validRecords_itemsOf {key : String} {required : List String}
    (h : validRecords (field v key) required = true) :
    validRecords (some (.array (itemsOf v key))) required = true := by
  cases hfield : field v key with
  | none => simp [itemsOf, hfield, items?, validRecords]
  | some x =>
    rw [hfield] at h
    cases x with
    | array items => rwa [itemsOf_of_field hfield]
    | _ => cases h

theorem nodup_knownWidgets (items : List Json) : (knownWidgets items).Nodup := by
  have hkeys : ((distinctFrom WidgetId.read [] items).map WidgetId.read).Nodup :=
    nodup_map_distinctFrom [] items
  have hfilter : knownWidgets items =
      ((distinctFrom WidgetId.read [] items).map WidgetId.read).filterMap id := by
    rw [List.filterMap_map]
    rfl
  rw [hfilter]
  exact hkeys.filterMap fun o o' w ho ho' => ho.trans ho'.symm

theorem widgetsOf_spec (v : Json) : widgetsOf v ≠ [] ∧ (widgetsOf v).Nodup := by
  have hall : WidgetId.all ≠ [] ∧ WidgetId.all.Nodup := by decide
  unfold widgetsOf
  split
  · split
    · exact hall
    · next hne => exact ⟨hne, nodup_knownWidgets _⟩
  · exact hall

theorem markOf_truthy {x : Json} (h : x ∈ markOf v) : truthy x = true :=
  (Option.filter_eq_some_iff.mp h).2

theorem decodeValue_eq (h : decodeValue time sort now v = some data) :
    accepts v = true ∧ data = workspaceOf time sort now v := by
  cases v with
  | object members =>
    rw [decodeValue] at h
    split at h
    · next haccepts => exact ⟨haccepts, (Option.some.inj h).symm⟩
    · cases h
  | _ => cases h

def newDocuments (notes studioNotes : List Json) : List Json :=
  (distinctFrom idOf (studioNotes.filterMap idOf) notes).map convertNote

theorem map_idOf_newDocuments (notes stored : List Json) : (newDocuments notes stored).map idOf =
    (distinctFrom idOf (stored.filterMap idOf) notes).map idOf := by
  rw [newDocuments, List.map_map]
  refine List.map_congr_left fun note hnote => ?_
  obtain ⟨id, hid, -⟩ := key_of_mem_distinctFrom hnote
  rw [Function.comp_apply, idOf_convertNote hid, hid]

/-- There is one new document for each note's id that no document has, made of its first note. -/
theorem newDocuments_spec (notes stored : List Json) :
    ((newDocuments notes stored).map idOf).Nodup ∧
      (∀ id, some id ∈ (newDocuments notes stored).map idOf ↔
        some id ∈ notes.map idOf ∧ some id ∉ stored.map idOf) ∧
      ∀ d ∈ newDocuments notes stored, ∃ note,
        notes.find? (fun n => idOf n = idOf d) = some note ∧ d = convertNote note := by
  refine ⟨?_, fun id => ?_, fun d hd => ?_⟩
  · rw [map_idOf_newDocuments]
    exact nodup_map_distinctFrom _ _
  · rw [map_idOf_newDocuments, mem_map_distinctFrom]
    simp [List.mem_filterMap, eq_comm]
  · obtain ⟨note, hnote, rfl⟩ := List.mem_map.mp hd
    obtain ⟨id, hid, -⟩ := key_of_mem_distinctFrom hnote
    refine ⟨note, ?_, rfl⟩
    have hfirst := find?_of_mem_distinctFrom hnote
    rwa [hid, ← idOf_convertNote hid] at hfirst

variable (hsort : ∀ cmp l, (sort cmp l).Perm l)
include hsort

theorem documents_perm (h : decodeValue time sort now v = some data) :
    data.studioNotes.Perm (itemsOf v "studioNotes" ++ if markOf v = none then
      newDocuments (itemsOf v "notes") (itemsOf v "studioNotes") else []) := by
  obtain ⟨-, rfl⟩ := decodeValue_eq h
  simp only [workspaceOf]
  cases hmark : markOf v with
  | some x => simp
  | none =>
    cases hnotes : itemsOf v "notes" with
    | nil => simp [newDocuments, distinctFrom]
    | cons n ns => simpa [migrateNotes, newDocuments] using hsort (byUpdated time) _

theorem valid_decodeValue (hnow : now ≠ []) (h : decodeValue time sort now v = some data) :
    data.Valid := by
  obtain ⟨haccepts, rfl⟩ := decodeValue_eq h
  simp only [accepts, Bool.and_eq_true] at haccepts
  obtain ⟨⟨⟨-, hnotes⟩, hstored⟩, hfiles⟩ := haccepts
  have hdocuments := validRecords_itemsOf hstored
  refine ⟨validRecords_itemsOf hnotes, ?_, validRecords_itemsOf hfiles, (widgetsOf_spec v).1,
    (widgetsOf_spec v).2, ?_, ?_⟩
  · simp only [workspaceOf]
    split
    · simp only [validRecords, List.all_eq_true] at hdocuments ⊢
      intro item hitem
      have hmem := (hsort _ _).mem_iff.mp hitem
      rw [List.mem_append, List.mem_map] at hmem
      obtain hold | ⟨note, -, rfl⟩ := hmem
      · exact hdocuments item hold
      · exact valid_convertNote note
    · exact hdocuments
  · intro x hx
    simp only [workspaceOf] at hx
    cases hmark : markOf v with
    | some y =>
      rw [hmark, Option.some_or] at hx
      cases hx
      exact markOf_truthy hmark
    | none =>
      rw [hmark, Option.none_or] at hx
      split at hx
      · cases hx
        simpa [truthy] using hnow
      · cases hx
  · intro hne hnone
    simp only [workspaceOf] at hne hnone
    cases hmark : markOf v with
    | some y => simp [hmark] at hnone
    | none => simp [hmark, hne] at hnone

end Decoding

section Written
variable {double : Decimal → Option Decimal} {time : List Char → Option ℤ}
  {sort : (Json → Json → ℤ) → List Json → List Json} {now : List Char} {v x : Json}
  {key : String} {data : ForgeData}

theorem exact_of_field (hv : v.Exact double) (h : field v key = some x) : x.Exact double := by
  cases v with
  | object members => exact (Json.exact_object.mp hv).2 _ (mem_of_field h)
  | _ => cases h

theorem exact_itemsOf (hv : v.Exact double) (hx : x ∈ itemsOf v key) : x.Exact double := by
  rw [itemsOf] at hx
  cases h : field v key with
  | none => simp [h, items?] at hx
  | some y =>
    have hy := exact_of_field hv h
    cases y with
    | array items => exact Json.exact_array.mp hy x (by simpa [h, items?] using hx)
    | _ => simp [h, items?] at hx

theorem exact_convertNote (note : Json) : (convertNote note).Exact double := by
  refine Json.exact_object.mpr ⟨nodup_convertedMembers note, fun m hm => ?_⟩
  obtain ⟨s, hs⟩ := string_of_mem_converted hm
  rw [hs]
  exact Json.exact_string s

theorem exact_dataMembers (hone : double (.normalize false 1 0) = some (.normalize false 1 0))
    (hitems : ∀ x, x ∈ data.notes ∨ x ∈ data.studioNotes ∨ x ∈ data.files ∨ x ∈ data.activity ∨
      x ∈ data.notesMigratedAt → x.Exact double) :
    (Json.object (dataMembers data)).Exact double := by
  refine Json.exact_object.mpr ⟨nodup_dataMembers data, fun m hm => ?_⟩
  simp only [dataMembers, List.mem_append, List.mem_cons, List.not_mem_nil, or_false,
    List.mem_map, Option.mem_toList] at hm
  obtain (rfl | rfl | rfl | rfl | rfl | rfl | rfl) | ⟨x, hx, rfl⟩ := hm
  · refine ⟨?_, ?_⟩
    · simp only [Json.Proper, Json.nearest, hone, Option.getD_some]
    · simp only [Json.finiteOnly, hone, Option.isSome_some, if_pos]
  · exact Json.exact_string _
  · exact Json.exact_array.mpr fun x hx => hitems x (.inl hx)
  · exact Json.exact_array.mpr fun x hx => hitems x (.inr (.inl hx))
  · exact Json.exact_array.mpr fun x hx => hitems x (.inr (.inr (.inl hx)))
  · exact Json.exact_array.mpr fun x hx => hitems x (.inr (.inr (.inr (.inl hx))))
  · refine Json.exact_array.mpr fun x hx => ?_
    obtain ⟨w, -, rfl⟩ := List.mem_map.mp hx
    exact Json.exact_string _
  · exact hitems x (.inr (.inr (.inr (.inr hx))))

variable (hsort : ∀ cmp l, (sort cmp l).Perm l)
include hsort

theorem exact_decodeValue (hone : double (.normalize false 1 0) = some (.normalize false 1 0))
    (hv : v.Exact double) (h : decodeValue time sort now v = some data) :
    (Json.object (dataMembers data)).Exact double := by
  obtain ⟨-, rfl⟩ := decodeValue_eq h
  refine exact_dataMembers hone ?_
  rintro x (hx | hx | hx | hx | hx)
  · exact exact_itemsOf hv hx
  · simp only [workspaceOf] at hx
    split at hx
    · have hmem := (hsort _ _).mem_iff.mp hx
      rw [List.mem_append, List.mem_map] at hmem
      obtain hold | ⟨note, -, rfl⟩ := hmem
      · exact exact_itemsOf hv hold
      · exact exact_convertNote note
    · exact exact_itemsOf hv hx
  · exact exact_itemsOf hv hx
  · exact exact_itemsOf hv hx
  · simp only [workspaceOf] at hx
    cases hmark : markOf v with
    | some y =>
      rw [hmark, Option.some_or] at hx
      cases hx
      exact exact_of_field hv (Option.filter_eq_some_iff.mp hmark).1
    | none =>
      rw [hmark, Option.none_or] at hx
      split at hx
      · cases hx
        exact Json.exact_string now
      · cases hx

end Written

section Workspaces
variable (double : Decimal → Option Decimal) (time : List Char → Option ℤ)
  (sort : (Json → Json → ℤ) → List Json → List Json) (now : List Char)

def storedDocuments (raw : List Char) : List Json :=
  ((Json.parse (Json.nearest double) raw).map fun v => itemsOf v "studioNotes").getD []

def legacyNotes (raw : List Char) : List Json :=
  ((Json.parse (Json.nearest double) raw).map fun v => itemsOf v "notes").getD []

def Migrated (raw : List Char) : Prop :=
  ∃ v, Json.parse (Json.nearest double) raw = some v ∧ markOf v ≠ none

variable {double time sort now} {raw : List Char} {data : ForgeData}

theorem decodeWorkspace_cases (h : decodeWorkspace double time sort now (some raw) = some data) :
    (raw = [] ∧ data = emptyData) ∨ ∃ v, Json.parse (Json.nearest double) raw = some v ∧
      decodeValue time sort now v = some data := by
  cases raw with
  | nil => exact .inl ⟨rfl, (Option.some.inj h).symm⟩
  | cons c s => exact .inr (Option.bind_eq_some_iff.mp h)

theorem decodeWorkspace_of_parse {v : Json}
    (h : Json.parse (Json.nearest double) raw = some v) :
    decodeWorkspace double time sort now (some raw) = decodeValue time sort now v := by
  cases raw with
  | nil => cases h
  | cons c s => rw [decodeWorkspace, h, Option.bind_some]; simp

theorem legacyNotes_nil : legacyNotes double [] = [] := rfl

theorem valid_emptyData : emptyData.Valid where
  notes := rfl
  studioNotes := rfl
  files := rfl
  widgets_ne := by decide
  widgets_nodup := by decide
  mark := by simp [emptyData]
  marked := by simp [emptyData]

/-- A stored workspace keeps its documents, and each note without one becomes a document if there
is no mark that the notes were converted. What is written of it is decoded to the same again. -/
theorem workspaces_decode_without_loss (hsort : ∀ cmp l, (sort cmp l).Perm l) (hnow : now ≠ [])
    (hdouble : ∀ d e, double d = some e → double e = some e)
    (hone : double (.normalize false 1 0) = some (.normalize false 1 0))
    (h : decodeWorkspace double time sort now (some raw) = some data) :
    (∃ converted, data.studioNotes.Perm (storedDocuments double raw ++ converted) ∧
      (Migrated double raw → converted = []) ∧
      (¬Migrated double raw → (converted.map idOf).Nodup ∧
        (∀ id, some id ∈ converted.map idOf ↔ some id ∈ (legacyNotes double raw).map idOf ∧
          some id ∉ (storedDocuments double raw).map idOf) ∧
        ∀ d ∈ converted, ∃ note, (legacyNotes double raw).find? (fun n => idOf n = idOf d) =
          some note ∧ d = convertNote note)) ∧
    (Json.FiniteNumbers double raw → ∀ later,
      decodeWorkspace double time sort later (some (workspaceText double data)) = some data) := by
  refine ⟨?_, fun hfinite later => ?_⟩
  · obtain ⟨rfl, rfl⟩ | ⟨v, hparse, hdecode⟩ := decodeWorkspace_cases h
    · exact ⟨[], List.Perm.refl _, fun _ => rfl,
        fun _ => ⟨List.nodup_nil, by simp [legacyNotes_nil], by simp⟩⟩
    · have hperm := documents_perm hsort hdecode
      have hmigrated : Migrated double raw ↔ markOf v ≠ none := by
        simp [Migrated, hparse]
      refine ⟨_, by simpa [storedDocuments, hparse] using hperm, fun hmark => ?_, fun hmark => ?_⟩
      · rw [if_neg (hmigrated.mp hmark)]
      · rw [if_pos (not_not.mp fun hne => hmark (hmigrated.mpr hne))]
        simpa [storedDocuments, legacyNotes, hparse] using
          newDocuments_spec (itemsOf v "notes") (itemsOf v "studioNotes")
  · have hwritten : data.Valid ∧ (Json.object (dataMembers data)).Exact double := by
      obtain ⟨rfl, rfl⟩ | ⟨v, hparse, hdecode⟩ := decodeWorkspace_cases h
      · exact ⟨valid_emptyData, exact_dataMembers hone (by simp [emptyData])⟩
      · exact ⟨valid_decodeValue hsort hnow hdecode,
          exact_decodeValue hsort hone (Json.exact_of_parse hdouble hparse hfinite) hdecode⟩
    rw [workspaceText, decodeWorkspace_of_parse (Json.parse_jsonText hwritten.2)]
    exact decodeValue_dataMembers hwritten.1

def keepOrder (_ : Json → Json → ℤ) (l : List Json) : List Json := l

def dateless (_ : List Char) : Option ℤ := none

def sampleNow : List Char := "2026-09-01T08:00:00.000Z".toList

def recordText : List Char :=
  "\x7b\"id\":\"a\",\"title\":\"\",\"body\":\"<\",\"bodyHtml\":\"\",\"topic\":\"\",".toList ++
    "\"createdAt\":\"\",\"updatedAt\":\"\"\x7d".toList

def twoNotes : List Char :=
  "\x7b\"notes\":[".toList ++ recordText ++ ',' :: recordText ++ "]\x7d".toList

theorem two_notes_decode_without_loss :
    ∃ data, decodeWorkspace some dateless keepOrder sampleNow (some twoNotes) = some data ∧
      ∀ later, decodeWorkspace some dateless keepOrder later (some (workspaceText some data)) =
        some data := by
  have hsome : (decodeWorkspace some dateless keepOrder sampleNow
      (some twoNotes)).isSome = true := by decide +kernel
  obtain ⟨data, hdata⟩ := Option.isSome_iff_exists.mp hsome
  refine ⟨data, hdata, (workspaces_decode_without_loss (fun _ l => List.Perm.refl l) (by decide)
    (fun _ _ _ => rfl) rfl hdata).2 fun _ _ d _ h => ?_⟩
  cases h

def markedNote : List Char :=
  "\x7b\"notes\":[".toList ++ recordText ++ "],\"notesMigratedAt\":\"x\"\x7d".toList

def twoDocuments : List Char :=
  "\x7b\"notes\":[".toList ++ recordText ++ "],\"studioNotes\":[".toList ++ recordText ++
    ',' :: recordText ++ "]\x7d".toList

def hugeActivity : List Char := "\x7b\"activity\":[1e999]\x7d".toList

def belowHuge (d : Decimal) : Option Decimal := if d.exponent < 300 then some d else none

def isNumber : Json → Bool
  | .number _ => true
  | _ => false

/-- A note of a workspace with the mark has no document, documents with one id stay several, and an
infinite number is not read again. -/
theorem workspaces_decode_with_loss :
    (∃ data, decodeWorkspace some dateless keepOrder sampleNow (some markedNote) = some data ∧
      some ['a'] ∈ (legacyNotes some markedNote).map idOf ∧
      some ['a'] ∉ data.studioNotes.map idOf) ∧
    (∃ data, decodeWorkspace some dateless keepOrder sampleNow (some twoDocuments) = some data ∧
      data.studioNotes.map idOf = [some ['a'], some ['a']]) ∧
    ∃ data again,
      decodeWorkspace belowHuge dateless keepOrder sampleNow (some hugeActivity) = some data ∧
      decodeWorkspace belowHuge dateless keepOrder sampleNow
        (some (workspaceText belowHuge data)) = some again ∧ again ≠ data := by
  have hmarked : (decodeWorkspace some dateless keepOrder sampleNow (some markedNote)).map
      (fun data => data.studioNotes.map idOf) = some [] := by decide +kernel
  have htwo : (decodeWorkspace some dateless keepOrder sampleNow (some twoDocuments)).map
      (fun data => data.studioNotes.map idOf) = some [some ['a'], some ['a']] := by decide +kernel
  have hhuge : (decodeWorkspace belowHuge dateless keepOrder sampleNow (some hugeActivity)).map
      (fun data => (data.activity.map isNumber, (decodeWorkspace belowHuge dateless keepOrder
        sampleNow (some (workspaceText belowHuge data))).map fun d => d.activity.map isNumber)) =
      some ([true], some [false]) := by decide +kernel
  obtain ⟨data₁, hdata₁, hnone⟩ := Option.map_eq_some_iff.mp hmarked
  obtain ⟨data₂, hdata₂, hboth⟩ := Option.map_eq_some_iff.mp htwo
  obtain ⟨data₃, hdata₃, hnumber⟩ := Option.map_eq_some_iff.mp hhuge
  obtain ⟨htrue, hfalse⟩ := Prod.mk.inj hnumber
  obtain ⟨again, hagain, hnull⟩ := Option.map_eq_some_iff.mp hfalse
  refine ⟨⟨data₁, hdata₁, by decide +kernel, by simp [hnone]⟩, ⟨data₂, hdata₂, hboth⟩,
    data₃, again, hdata₃, hagain, ?_⟩
  rintro rfl
  rw [htrue] at hnull
  cases hnull

end Workspaces

end Cinder.Forge
