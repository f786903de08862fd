import Cinder.Forge.Workspaces
set_option autoImplicit false

/-!
Local storage of a device that students share: their workspaces, the settings and versions of their
documents, and what stays when a student clears everything.
-/

namespace Cinder.Forge
open Cinder.Ecma Cinder.Storage Cinder.Streams Cinder.Worksheets

section Model

/-- The host gives UUIDs to accounts, in which there is no dot. -/
structure StudentAccount where
  id : List Char
  id_ne : id ≠ []
  plain : '.' ∉ id
  deriving DecidableEq

abbrev LocalStorage := Entries (List Char) (List Char)

def legacyStorageKey : List Char := "cinder.forge.workspace.v1".toList

def migrationOwnerKey : List Char := "cinder.matchbox.workspace.migration-owner".toList

def documentKeyPrefix (account : StudentAccount) : List Char :=
  "cinder.matchbox.".toList ++ account.id ++ ".document.".toList

def workspaceStorageKey (account : StudentAccount) : List Char :=
  "cinder.matchbox.".toList ++ account.id ++ ".workspace.v1".toList

structure Device where
  lists : Bool
  removes : List Char → Bool
  writes : List Char → List Char → Bool

def blank (value : Option (List Char)) : Bool := value.getD [] = []

def removeAll (device : Device) : List (List Char) → LocalStorage → Bool × LocalStorage
  | [], s => (true, s)
  | key :: keys, s =>
    if device.removes key then removeAll device keys (s.delete key) else (false, s)

-- The shortest decimal of the nearest double, the time of a date's text, and `Array.sort`.
variable (double : Decimal → Option Decimal) (time : List Char → Option ℤ)
  (sort : (Json → Json → ℤ) → List Json → List Json) (now : List Char)

def nameWorkspace (profileName : List Char) (data : ForgeData) : ForgeData :=
  if data.profileName ≠ [] || profileName = [] then data else { data with profileName }

/-- No workspace if storage fails, or what is stored cannot be read. -/
def initialWorkspace (device : Device) (account : StudentAccount) (profileName : List Char)
    (s : LocalStorage) : LocalStorage × Option ForgeData :=
  let scopedKey := workspaceStorageKey account
  let migrationOwner := s.get migrationOwnerKey
  let legacy := s.get legacyStorageKey
  let decoded := fun raw =>
    (decodeWorkspace double time sort now raw).map (nameWorkspace profileName)
  if blank (s.get scopedKey) && !blank legacy &&
      (blank migrationOwner || migrationOwner = some account.id) then
    if device.writes migrationOwnerKey account.id then
      let claimed := s.set migrationOwnerKey account.id
      if device.writes scopedKey (legacy.getD []) then
        (claimed.set scopedKey (legacy.getD []), decoded legacy)
      else (claimed, none)
    else (s, none)
  else (s, decoded (s.get scopedKey))

/-- `true` if everything was cleared, which leaves an empty workspace. -/
def resetWorkspace (device : Device) (account : StudentAccount) (s : LocalStorage) :
    Bool × LocalStorage :=
  if device.lists then
    let stale := (s.list.map Prod.fst).filter (documentKeyPrefix account).isPrefixOf
    let r := removeAll device stale s
    let empty := workspaceText double emptyData
    if r.1 && device.writes (workspaceStorageKey account) empty then
      (true, r.2.set (workspaceStorageKey account) empty)
    else (false, r.2)
  else (false, s)

/-- The text is not that of a workspace without notes, documents and activity that names them. -/
def hasWriting (raw : List Char) : Bool :=
  match raw, Json.parse (Json.nearest double) raw with
  | [], _ => false
  | _, some (.object members) =>
    !accepts (.object members) ||
      ["notes", "studioNotes", "activity"].any fun key => itemsOf (.object members) key ≠ []
  | _, _ => true

/-- What a session does with storage: it opens a workspace, saves what was changed, keeps the
settings and versions of a document, and clears everything. -/
inductive StudioStep where
  | start (account : StudentAccount) (profileName : List Char)
  | save (account : StudentAccount) (data : ForgeData)
  | saveExtras (account : StudentAccount) (id extras : List Char)
  | reset (account : StudentAccount)

def store (device : Device) (key value : List Char) (s : LocalStorage) : LocalStorage :=
  if device.writes key value then s.set key value else s

def StudioStep.apply (device : Device) (s : LocalStorage) : StudioStep → LocalStorage
  | start account profileName =>
    (initialWorkspace double time sort now device account profileName s).1
  | save account data => store device (workspaceStorageKey account) (workspaceText double data) s
  | saveExtras account id extras => store device (documentKeyPrefix account ++ id) extras s
  | reset account => (resetWorkspace double device account s).2

def runStudio (s : LocalStorage) (steps : List (Device × StudioStep)) : LocalStorage :=
  steps.foldl (fun s step => step.2.apply double time sort now step.1 s) s

end Model

section Keys
variable {account other : StudentAccount} {key rest rest' : List Char}

theorem workspaceStorageKey_eq (account : StudentAccount) : workspaceStorageKey account =
    "cinder.matchbox.".toList ++ (account.id ++ '.' :: "workspace.v1".toList) := by
  have hdot : ".workspace.v1".toList = '.' :: "workspace.v1".toList := by decide
  exact (List.append_assoc _ _ _).trans
    (congrArg (fun t => "cinder.matchbox.".toList ++ (account.id ++ t)) hdot)

theorem documentKeyPrefix_append (account : StudentAccount) (rest : List Char) :
    documentKeyPrefix account ++ rest =
      "cinder.matchbox.".toList ++ (account.id ++ '.' :: ("document.".toList ++ rest)) := by
  have hdot : ".document.".toList = '.' :: "document.".toList := by decide
  calc documentKeyPrefix account ++ rest
      = "cinder.matchbox.".toList ++ account.id ++ (".document.".toList ++ rest) :=
        List.append_assoc _ _ _
    _ = "cinder.matchbox.".toList ++ (account.id ++ (".document.".toList ++ rest)) :=
        List.append_assoc _ _ _
    _ = _ := congrArg (fun t => "cinder.matchbox.".toList ++ (account.id ++ (t ++ rest))) hdot

theorem migrationOwnerKey_eq : migrationOwnerKey =
    "cinder.matchbox.".toList ++ ("workspace".toList ++ '.' :: "migration-owner".toList) := by
  decide +kernel

theorem key_inj {a b p : List Char} (ha : '.' ∉ a) (hb : '.' ∉ b)
    (h : p ++ (a ++ '.' :: rest) = p ++ (b ++ '.' :: rest')) : a = b ∧ rest = rest' := by
  have hsplit := congrArg (splitOnce '.') (List.append_cancel_left h)
  rw [splitOnce_append ha, splitOnce_append hb] at hsplit
  exact Prod.mk.inj (Option.some.inj hsplit)

theorem legacyStorageKey_ne (rest : List Char) :
    "cinder.matchbox.".toList ++ rest ≠ legacyStorageKey := by
  intro h
  have hnot : ("cinder.matchbox.".toList).isPrefixOf legacyStorageKey = false := by decide
  rw [← h, List.isPrefixOf_iff_prefix.mpr (List.prefix_append _ _)] at hnot
  cases hnot

def OwnKey (account : StudentAccount) (key : List Char) : Prop :=
  key = workspaceStorageKey account ∨ documentKeyPrefix account <+: key

theorem OwnKey.eq_append (h : OwnKey account key) : ∃ rest,
    key = "cinder.matchbox.".toList ++ (account.id ++ '.' :: rest) ∧
      rest ≠ "migration-owner".toList := by
  obtain rfl | ⟨rest, rfl⟩ := h
  · exact ⟨_, workspaceStorageKey_eq account, by decide⟩
  · refine ⟨_, documentKeyPrefix_append account rest, fun hrest => ?_⟩
    have hnot : ("document.".toList).isPrefixOf "migration-owner".toList = false := by decide
    rw [← hrest, List.isPrefixOf_iff_prefix.mpr (List.prefix_append _ _)] at hnot
    cases hnot

theorem OwnKey.account_eq (h : OwnKey account key) (h' : OwnKey other key) : account = other := by
  obtain ⟨rest, hkey, -⟩ := h.eq_append
  obtain ⟨rest', hkey', -⟩ := h'.eq_append
  have hid := (key_inj account.plain other.plain (hkey.symm.trans hkey')).1
  cases account
  cases other
  cases hid
  rfl

theorem OwnKey.ne_owner (h : OwnKey account key) : key ≠ migrationOwnerKey := by
  obtain ⟨rest, rfl, hrest⟩ := h.eq_append
  intro heq
  rw [migrationOwnerKey_eq] at heq
  exact hrest (key_inj account.plain (by decide) heq).2

theorem OwnKey.ne_legacy (h : OwnKey account key) : key ≠ legacyStorageKey := by
  obtain ⟨rest, rfl, -⟩ := h.eq_append
  exact legacyStorageKey_ne _

theorem owner_ne_legacy : migrationOwnerKey ≠ legacyStorageKey := legacyStorageKey_ne _

theorem ne_workspaceStorageKey (h : documentKeyPrefix account <+: key) :
    key ≠ workspaceStorageKey account := by
  obtain ⟨rest, rfl⟩ := h
  intro heq
  rw [documentKeyPrefix_append, workspaceStorageKey_eq] at heq
  have hnot : ("document.".toList).isPrefixOf "workspace.v1".toList = false := by decide
  rw [← (key_inj account.plain account.plain heq).2,
    List.isPrefixOf_iff_prefix.mpr (List.prefix_append _ _)] at hnot
  cases hnot

end Keys

section Clearing
variable {double : Decimal → Option Decimal} {device : Device} {account : StudentAccount}
  {s s' : LocalStorage} {key : List Char}

theorem get_removeAll_of_not_mem {keys : List (List Char)} (h : key ∉ keys) :
    (removeAll device keys s).2.get key = s.get key := by
  induction keys generalizing s with
  | nil => rfl
  | cons k ks ih =>
    rw [List.mem_cons, not_or] at h
    rw [removeAll]
    split
    · rw [ih h.2, Entries.get_delete, if_neg h.1]
    · rfl

theorem get_removeAll_of_true {keys : List (List Char)}
    (htrue : (removeAll device keys s).1 = true) (h : key ∈ keys ∨ s.get key = none) :
    (removeAll device keys s).2.get key = none := by
  induction keys generalizing s with
  | nil => simpa [removeAll] using h
  | cons k ks ih =>
    rw [removeAll] at htrue ⊢
    split at htrue
    · next hremoves =>
      rw [if_pos hremoves]
      refine ih htrue ?_
      by_cases hk : key = k
      · exact .inr (by rw [Entries.get_delete, hk, if_pos rfl])
      · refine h.imp (fun hmem => ?_) fun hnone => ?_
        · exact (List.mem_cons.mp hmem).resolve_left hk
        · rw [Entries.get_delete, hnone, ite_self]
    · cases htrue

theorem get_reset (h : resetWorkspace double device account s = (true, s')) (key : List Char) :
    s'.get key = if key = workspaceStorageKey account then some (workspaceText double emptyData)
      else if documentKeyPrefix account <+: key then none else s.get key := by
  simp only [resetWorkspace] at h
  split at h
  · split at h
    · next hcleared =>
      rw [Bool.and_eq_true] at hcleared
      obtain rfl := (Prod.mk.inj h).2
      rw [Entries.get_set]
      split
      · rfl
      · split
        · next hstart =>
          refine get_removeAll_of_true hcleared.1 ?_
          cases hget : s.get key with
          | none => exact .inr rfl
          | some x =>
            refine .inl (List.mem_filter.mpr ⟨?_, List.isPrefixOf_iff_prefix.mpr hstart⟩)
            exact List.mem_map.mpr ⟨_, Entries.mem_list.mpr hget, rfl⟩
        · next hstart =>
          refine get_removeAll_of_not_mem fun hmem => hstart ?_
          exact List.isPrefixOf_iff_prefix.mp (List.mem_filter.mp hmem).2
    · cases (Prod.mk.inj h).1
  · cases (Prod.mk.inj h).1

theorem get_reset_of_not_own (h : resetWorkspace double device account s = (true, s'))
    (hkey : ¬OwnKey account key) : s'.get key = s.get key := by
  rw [OwnKey, not_or] at hkey
  rw [get_reset h, if_neg hkey.1, if_neg hkey.2]

theorem hasWriting_eq_false {raw : List Char} {members : List (List Char × Json)}
    (hparse : Json.parse (Json.nearest double) raw = some (.object members))
    (haccepts : accepts (.object members) = true) (hnotes : itemsOf (.object members) "notes" = [])
    (hstored : itemsOf (.object members) "studioNotes" = [])
    (hactivity : itemsOf (.object members) "activity" = []) : hasWriting double raw = false := by
  cases raw with
  | nil => rfl
  | cons c s => simp [hasWriting, hparse, haccepts, hnotes, hstored, hactivity]

theorem hasWriting_empty (hone : double (.normalize false 1 0) = some (.normalize false 1 0)) :
    hasWriting double (workspaceText double emptyData) = false := by
  have hexact : (Json.object (dataMembers emptyData)).Exact double :=
    exact_dataMembers hone (by simp [emptyData])
  have hdecode : decodeValue (fun _ => none) (fun _ l => l) [] (.object (dataMembers emptyData)) =
      some emptyData := decodeValue_dataMembers valid_emptyData
  have hitems {key : String} (h : (key.toList, .array []) ∈ dataMembers emptyData) :
      itemsOf (.object (dataMembers emptyData)) key = [] := itemsOf_of_field (field_dataMembers h)
  exact hasWriting_eq_false (Json.parse_jsonText hexact) (decodeValue_eq hdecode).1
    (hitems (by simp [dataMembers, emptyData])) (hitems (by simp [dataMembers, emptyData]))
    (hitems (by simp [dataMembers, emptyData]))

variable (double)

/-- A key holds what an account wrote: settings and versions of a document, or a workspace, which
may be the legacy one that the account took over. -/
def Holds (account : StudentAccount) (s : LocalStorage) (key : List Char) : Prop :=
  (documentKeyPrefix account <+: key ∧ s.has key = true) ∨
    ((key = workspaceStorageKey account ∨
        key = legacyStorageKey ∧ s.get migrationOwnerKey = some account.id) ∧
      ∃ raw, s.get key = some raw ∧ hasWriting double raw = true)

def TakenOver (account : StudentAccount) (s : LocalStorage) : Prop :=
  s.get migrationOwnerKey = some account.id ∧
    ∃ raw, s.get legacyStorageKey = some raw ∧ hasWriting double raw = true

variable {double}

theorem holds_reset_iff (hone : double (.normalize false 1 0) = some (.normalize false 1 0))
    (h : resetWorkspace double device account s = (true, s')) :
    (∃ key, Holds double account s' key) ↔ TakenOver double account s := by
  have howner : s'.get migrationOwnerKey = s.get migrationOwnerKey :=
    get_reset_of_not_own h fun hown => hown.ne_owner rfl
  have hlegacy : s'.get legacyStorageKey = s.get legacyStorageKey :=
    get_reset_of_not_own h fun hown => hown.ne_legacy rfl
  constructor
  · rintro ⟨key, ⟨hstart, hhas⟩ | ⟨rfl | ⟨rfl, htaken⟩, raw, hraw, hwriting⟩⟩
    · rw [Entries.has, get_reset h, if_neg (ne_workspaceStorageKey hstart), if_pos hstart] at hhas
      cases hhas
    · rw [get_reset h, if_pos rfl] at hraw
      cases hraw
      rw [hasWriting_empty hone] at hwriting
      cases hwriting
    · exact ⟨howner ▸ htaken, raw, hlegacy ▸ hraw, hwriting⟩
  · rintro ⟨htaken, raw, hraw, hwriting⟩
    exact ⟨legacyStorageKey, .inr ⟨.inr ⟨rfl, howner ▸ htaken⟩, raw, hlegacy ▸ hraw, hwriting⟩⟩

/-- A key belongs to an account, by its name or as the legacy workspace that it took over. -/
def BelongsTo (s : LocalStorage) (account : StudentAccount) (key : List Char) : Prop :=
  OwnKey account key ∨
    (key = legacyStorageKey ∧ s.get migrationOwnerKey = some account.id)

/-- Clearing leaves no key with what the account wrote, and the keys of other accounts as they were,
if and only if the account took over no legacy workspace in which something is written. -/
theorem reset_clears_iff (hone : double (.normalize false 1 0) = some (.normalize false 1 0))
    (h : resetWorkspace double device account s = (true, s')) :
    ((∀ key, ¬Holds double account s' key) ∧
      ∀ other, other ≠ account → ∀ key, BelongsTo s other key → s'.get key = s.get key) ↔
    ¬TakenOver double account s := by
  rw [← holds_reset_iff hone h, not_exists]
  refine and_iff_left_of_imp fun _ other hother key hkey => ?_
  refine get_reset_of_not_own h fun hown => ?_
  obtain hkey | ⟨rfl, -⟩ := hkey
  · exact hother (hkey.account_eq hown)
  · exact hown.ne_legacy rfl

def sampleAccount : StudentAccount := ⟨"3f".toList, by decide, by decide⟩

def willing : Device := ⟨true, fun _ => true, fun _ _ => true⟩

def ownContent : LocalStorage := Entries.empty.set (workspaceStorageKey sampleAccount) twoNotes

theorem reset_clears_own_content :
    let r := resetWorkspace some willing sampleAccount ownContent
    r.1 = true ∧ ¬Holds some sampleAccount r.2 (workspaceStorageKey sampleAccount) := by
  have hdone : (resetWorkspace some willing sampleAccount ownContent).1 = true := by decide +kernel
  have hnone : ownContent.get migrationOwnerKey = none := by decide +kernel
  refine ⟨hdone, ((reset_clears_iff rfl (Prod.ext hdone rfl)).mpr fun htaken => ?_).1 _⟩
  rw [TakenOver, hnone] at htaken
  cases htaken.1

def legacyContent : LocalStorage := Entries.empty.set legacyStorageKey twoNotes

/-- What an account took over is still there after everything was cleared. -/
theorem reset_keeps_legacy_notes :
    let opened := (initialWorkspace some dateless keepOrder sampleNow willing sampleAccount []
      legacyContent).1
    let r := resetWorkspace some willing sampleAccount opened
    r.1 = true ∧ r.2.get legacyStorageKey = some twoNotes ∧
      Holds some sampleAccount r.2 legacyStorageKey := by
  refine ⟨by decide +kernel, by decide +kernel, .inr ⟨.inr ⟨rfl, by decide +kernel⟩, twoNotes,
    by decide +kernel, by decide +kernel⟩⟩

end Clearing

section Sessions
variable {double : Decimal → Option Decimal} {time : List Char → Option ℤ}
  {sort : (Json → Json → ℤ) → List Json → List Json} {now : List Char} {device : Device}
  {account : StudentAccount} {s : LocalStorage}

theorem get_resetWorkspace {key : List Char} (hkey : ¬OwnKey account key) :
    (resetWorkspace double device account s).2.get key = s.get key := by
  rw [OwnKey, not_or] at hkey
  have hstale : key ∉ (s.list.map Prod.fst).filter (documentKeyPrefix account).isPrefixOf :=
    fun hmem => hkey.2 (List.isPrefixOf_iff_prefix.mp (List.mem_filter.mp hmem).2)
  simp only [resetWorkspace]
  split
  · split
    · rw [Entries.get_set, if_neg hkey.1, get_removeAll_of_not_mem hstale]
    · exact get_removeAll_of_not_mem hstale
  · rfl

theorem get_store {key k value : List Char} (h : key ≠ k) :
    (store device k value s).get key = s.get key := by
  rw [store]
  split
  · rw [Entries.get_set, if_neg h]
  · rfl

theorem get_initialWorkspace {key profileName : List Char} (hkey : ¬OwnKey account key)
    (howner : key ≠ migrationOwnerKey) :
    (initialWorkspace double time sort now device account profileName s).1.get key =
      s.get key := by
  rw [OwnKey, not_or] at hkey
  simp only [initialWorkspace]
  split
  · split
    · split
      · rw [Entries.get_set, if_neg hkey.1, Entries.get_set, if_neg howner]
      · rw [Entries.get_set, if_neg howner]
    · rfl
  · rfl

theorem get_apply {key : List Char} (hkey : ∀ account, ¬OwnKey account key)
    (howner : key ≠ migrationOwnerKey) (step : StudioStep) :
    (step.apply double time sort now device s).get key = s.get key := by
  cases step with
  | start account profileName => exact get_initialWorkspace (hkey account) howner
  | save account data => exact get_store fun heq => hkey account (.inl heq)
  | saveExtras account id extras =>
    exact get_store fun heq => hkey account (.inr ⟨id, heq.symm⟩)
  | reset account => exact get_resetWorkspace (hkey account)

theorem owner_apply (h : s.get migrationOwnerKey = some account.id) (step : StudioStep) :
    (step.apply double time sort now device s).get migrationOwnerKey = some account.id := by
  have hnot {other : StudentAccount} : ¬OwnKey other migrationOwnerKey :=
    fun hown => hown.ne_owner rfl
  cases step with
  | start other profileName =>
    simp only [StudioStep.apply, initialWorkspace, h]
    split
    · next htakes =>
      have hid : other.id = account.id := by
        simp only [blank, Option.getD_some, account.id_ne, decide_false, Bool.false_or,
          Bool.and_eq_true, Option.some.injEq, decide_eq_true_eq] at htakes
        exact htakes.2.symm
      have hkey : migrationOwnerKey ≠ workspaceStorageKey other := fun heq => hnot (.inl heq)
      split
      · split
        · rw [Entries.get_set, if_neg hkey, Entries.get_set_self, hid]
        · rw [Entries.get_set_self, hid]
      · exact h
    · exact h
  | save other data => rwa [StudioStep.apply, get_store fun heq => hnot (.inl heq)]
  | saveExtras other id extras =>
    rwa [StudioStep.apply, get_store fun heq => hnot (.inr ⟨id, heq.symm⟩)]
  | reset other => rwa [StudioStep.apply, get_resetWorkspace hnot]

theorem TakenOver.apply (h : TakenOver double account s) (step : StudioStep) :
    TakenOver double account (step.apply double time sort now device s) := by
  have hlegacy : ∀ other, ¬OwnKey other legacyStorageKey := fun _ hown => hown.ne_legacy rfl
  exact ⟨owner_apply h.1 step, by rw [get_apply hlegacy owner_ne_legacy.symm]; exact h.2⟩

theorem TakenOver.run (h : TakenOver double account s) (steps : List (Device × StudioStep)) :
    TakenOver double account (runStudio double time sort now s steps) := by
  induction steps generalizing s with
  | nil => exact h
  | cons step steps ih => exact ih (h.apply step.2)

/-- The account that first opens its workspace beside a legacy one takes that over. -/
theorem takenOver_of_start {raw profileName : List Char} {data : ForgeData}
    (hnone : blank (s.get (workspaceStorageKey account)) = true)
    (hraw : s.get legacyStorageKey = some raw) (hwriting : hasWriting double raw = true)
    (howner : blank (s.get migrationOwnerKey) = true)
    (h : (initialWorkspace double time sort now device account profileName s).2 = some data) :
    TakenOver double account
      (initialWorkspace double time sort now device account profileName s).1 := by
  have hlegacy : (initialWorkspace double time sort now device account profileName s).1.get
      legacyStorageKey = s.get legacyStorageKey :=
    get_initialWorkspace (fun hown => hown.ne_legacy rfl) owner_ne_legacy.symm
  refine ⟨?_, raw, hlegacy.trans hraw, hwriting⟩
  have hfull : blank (some raw) = false := by
    cases raw with
    | nil => cases hwriting
    | cons c t => rfl
  have hkey : migrationOwnerKey ≠ workspaceStorageKey account :=
    fun heq => (show OwnKey account migrationOwnerKey from .inl heq).ne_owner rfl
  simp only [initialWorkspace, hnone, hraw, hfull, howner, Bool.not_false, Bool.true_and,
    Bool.true_or, if_true] at h ⊢
  split at h
  · next howns =>
    rw [if_pos howns]
    split at h
    · next hwrites => rw [if_pos hwrites, Entries.get_set, if_neg hkey, Entries.get_set_self]
    · cases h
  · cases h

theorem holds_of_takenOver (h : TakenOver double account s) {s' : LocalStorage}
    (hone : double (.normalize false 1 0) = some (.normalize false 1 0))
    {steps : List (Device × StudioStep)}
    (hreset : resetWorkspace double device account (runStudio double time sort now s steps) =
      (true, s')) : ∃ key, Holds double account s' key :=
  (holds_reset_iff hone hreset).mpr (h.run steps)

end Sessions

end Cinder.Forge
