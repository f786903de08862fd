import Cinder.Storage.DirectoryTrees
import Cinder.Storage.FileScripts
set_option autoImplicit false

/-!
Application data that was stored before the product had its name. A directory of it is moved to
the current place, or merged into what is already there.
-/

namespace Cinder.Upgrades
open Cinder.Storage Cinder.Storage.Directory

variable {N C : Type} [DecidableEq N]

/-- A directory that has become empty is removed. -/
def leaveDir (name : N) : Directory N C → Directory N C → Directory N C
  | .nil, rest => rest
  | left, rest => .dir name left rest

/-- `move_missing_entries`: what is left of the source, and the destination. -/
def moveMissingEntries : Directory N C → Directory N C → Directory N C × Directory N C
  | .nil, destination => (.nil, destination)
  | .file name content rest, destination =>
    match destination.lookup name with
    | none => moveMissingEntries rest (destination.put name (.file content))
    | some _ =>
      let r := moveMissingEntries rest destination
      (.file name content r.1, r.2)
  | .dir name entries rest, destination =>
    match destination.lookup name with
    | none => moveMissingEntries rest (destination.put name (.dir entries))
    | some (.file _) =>
      let r := moveMissingEntries rest destination
      (.dir name entries r.1, r.2)
    | some (.dir there) =>
      let merged := moveMissingEntries entries there
      let r := moveMissingEntries rest (destination.put name (.dir merged.2))
      (leaveDir name merged.1 r.1, r.2)

def leaveTree : Directory N C → Option (Node N C)
  | .nil => none
  | left => some (.dir left)

inductive LegacyPlace (N C : Type) where
  | noParent
  | current
  | beside (tree : Option (Node N C))

structure AppData (N C : Type) where
  current : Option (Node N C)
  legacy : LegacyPlace N C

/-- `migrate_legacy_app_data`, when no operation on the file system fails for another reason. -/
def migrateLegacyAppData (data : AppData N C) : Except IoError (AppData N C) :=
  match data.legacy with
  | .noParent => .ok data
  | .current => .ok data
  | .beside none => .ok data
  | .beside (some legacy) =>
    match data.current, legacy with
    | none, legacy => .ok ⟨some legacy, .beside none⟩
    -- the directories to the destination cannot be created
    | some (.file _), _ => .error .alreadyExists
    -- a file has no entries to read
    | some (.dir _), .file _ => .error .other
    | some (.dir destination), .dir source =>
      let r := moveMissingEntries source destination
      .ok ⟨some (.dir r.2), .beside (leaveTree r.1)⟩

section Merging
variable {source destination left entries there rest : Directory N C} {name n : N} {content c : C}
  {path : List N}

theorem move_file_none (h : destination.lookup name = none) :
    moveMissingEntries (.file name content rest) destination =
      moveMissingEntries rest (destination.put name (.file content)) := by
  simp only [moveMissingEntries, h]

theorem move_file_some {x : Node N C} (h : destination.lookup name = some x) :
    moveMissingEntries (.file name content rest) destination =
      (.file name content (moveMissingEntries rest destination).1,
        (moveMissingEntries rest destination).2) := by
  simp only [moveMissingEntries, h]

theorem move_dir_none (h : destination.lookup name = none) :
    moveMissingEntries (.dir name entries rest) destination =
      moveMissingEntries rest (destination.put name (.dir entries)) := by
  simp only [moveMissingEntries, h]

theorem move_dir_file (h : destination.lookup name = some (.file c)) :
    moveMissingEntries (.dir name entries rest) destination =
      (.dir name entries (moveMissingEntries rest destination).1,
        (moveMissingEntries rest destination).2) := by
  simp only [moveMissingEntries, h]

theorem move_dir_dir (h : destination.lookup name = some (.dir there)) :
    moveMissingEntries (.dir name entries rest) destination =
      (leaveDir name (moveMissingEntries entries there).1
        (moveMissingEntries rest
          (destination.put name (.dir (moveMissingEntries entries there).2))).1,
        (moveMissingEntries rest
          (destination.put name (.dir (moveMissingEntries entries there).2))).2) := by
  simp only [moveMissingEntries, h]

omit [DecidableEq N] in
theorem leaveDir_of_ne (h : left ≠ .nil) (rest : Directory N C) :
    leaveDir name left rest = .dir name left rest := by
  cases left with
  | nil => exact absurd rfl h
  | file => rfl
  | dir => rfl

theorem find_leaveDir_of_ne (h : name ≠ n) :
    (leaveDir name left rest).find (n :: path) = rest.find (n :: path) := by
  cases left with
  | nil => rfl
  | file => rw [leaveDir_of_ne (by simp), find_cons, lookup, if_neg h, find_cons]
  | dir => rw [leaveDir_of_ne (by simp), find_cons, lookup, if_neg h, find_cons]

theorem grows_moveMissingEntries (source destination : Directory N C) :
    Grows destination (moveMissingEntries source destination).2 := by
  induction source generalizing destination with
  | nil => exact Grows.refl destination
  | file name content rest ih =>
    cases h : destination.lookup name with
    | none =>
      rw [move_file_none h]
      exact (grows_put_new h).trans (ih _)
    | some x =>
      rw [move_file_some h]
      exact ih destination
  | dir name entries rest ihentries ih =>
    cases h : destination.lookup name with
    | none =>
      rw [move_dir_none h]
      exact (grows_put_new h).trans (ih _)
    | some x =>
      cases x with
      | file c =>
        rw [move_dir_file h]
        exact ih destination
      | dir there =>
        rw [move_dir_dir h]
        exact (grows_put_dir h (ihentries there)).trans (ih _)

theorem find_file_of_ne (h : name ≠ n) :
    (Directory.file name content rest).find (n :: path) = rest.find (n :: path) := by
  rw [find_cons, lookup, if_neg h, find_cons]

theorem find_dir_of_ne (h : name ≠ n) :
    (Directory.dir name entries rest).find (n :: path) = rest.find (n :: path) := by
  rw [find_cons, lookup, if_neg h, find_cons]

theorem find_file_self : (Directory.file name content rest).find (name :: path) =
    if path = [] then some (.file content) else none :=
  find_cons_file (by rw [lookup, if_pos rfl])

theorem find_dir_self : (Directory.dir name entries rest).find (name :: path) =
    entries.find path := find_cons_dir (by rw [lookup, if_pos rfl])

theorem not_free_single {x : Node N C} (h : destination.lookup name = some x) :
    ¬destination.Free [name] := by
  cases x with
  | file c => exact not_free_file h
  | dir e =>
    rw [free_dir_iff h]
    exact not_free_nil e

/-- A file is at its path in the destination if that was free, and else where it was. -/
def Arrives (source destination : Directory N C) (path : List N) (c : C) : Prop :=
  let r := moveMissingEntries source destination
  (destination.Free path → r.2.find path = some (.file c)) ∧
    (¬destination.Free path → r.1.find path = some (.file c))

theorem arrives_file (ih : ∀ destination path, rest.find path = some (.file c) →
      Arrives rest destination path c)
    (h : (Directory.file name content rest).find path = some (.file c)) :
    Arrives (.file name content rest) destination path c := by
  cases path with
  | nil => cases h
  | cons n path =>
    by_cases hn : name = n
    · subst hn
      rw [find_file_self] at h
      split at h
      · next hpath =>
        cases h
        subst hpath
        cases hlookup : destination.lookup name with
        | none =>
          rw [Arrives, move_file_none hlookup]
          refine ⟨fun _ => ?_, fun hfree => absurd (free_of_lookup_none hlookup) hfree⟩
          refine (grows_moveMissingEntries rest _ [name]).1 content ?_
          rw [find_cons_file (c := content) (by rw [lookup_put, if_pos rfl]), if_pos rfl]
        | some x =>
          rw [Arrives, move_file_some hlookup]
          refine ⟨fun hfree => absurd hfree (not_free_single hlookup), fun _ => ?_⟩
          rw [find_file_self, if_pos rfl]
      · cases h
    · rw [find_file_of_ne hn] at h
      cases hlookup : destination.lookup name with
      | none =>
        rw [Arrives, move_file_none hlookup, ← free_put_of_ne hn]
        exact ih _ _ h
      | some x =>
        rw [Arrives, move_file_some hlookup, find_file_of_ne hn]
        exact ih _ _ h

theorem arrives_dir (ihentries : ∀ destination path, entries.find path = some (.file c) →
      Arrives entries destination path c)
    (ih : ∀ destination path, rest.find path = some (.file c) → Arrives rest destination path c)
    (h : (Directory.dir name entries rest).find path = some (.file c)) :
    Arrives (.dir name entries rest) destination path c := by
  cases path with
  | nil => cases h
  | cons n path =>
    by_cases hn : name = n
    · subst hn
      rw [find_dir_self] at h
      cases hlookup : destination.lookup name with
      | none =>
        rw [Arrives, move_dir_none hlookup]
        refine ⟨fun _ => ?_, fun hfree => absurd (free_of_lookup_none hlookup) hfree⟩
        refine (grows_moveMissingEntries rest _ (name :: path)).1 c ?_
        rw [find_cons_dir (e := entries) (by rw [lookup_put, if_pos rfl]), h]
      | some x =>
        cases x with
        | file c' =>
          rw [Arrives, move_dir_file hlookup]
          refine ⟨fun hfree => absurd hfree (not_free_file hlookup), fun _ => ?_⟩
          rw [find_dir_self, h]
        | dir there =>
          obtain ⟨hmoved, hleft⟩ := ihentries there path h
          rw [Arrives, move_dir_dir hlookup, free_dir_iff hlookup]
          refine ⟨fun hfree => ?_, fun hfree => ?_⟩
          · refine (grows_moveMissingEntries rest _ (name :: path)).1 c ?_
            rw [find_cons_dir (by rw [lookup_put, if_pos rfl]), hmoved hfree]
          · have hkept := hleft hfree
            have hne : (moveMissingEntries entries there).1 ≠ .nil := by
              intro hnil
              rw [hnil] at hkept
              cases path <;> cases hkept
            rw [leaveDir_of_ne hne, find_dir_self, hkept]
    · rw [find_dir_of_ne hn] at h
      cases hlookup : destination.lookup name with
      | none =>
        rw [Arrives, move_dir_none hlookup, ← free_put_of_ne hn]
        exact ih _ _ h
      | some x =>
        cases x with
        | file c' =>
          rw [Arrives, move_dir_file hlookup, find_dir_of_ne hn]
          exact ih _ _ h
        | dir there =>
          rw [Arrives, move_dir_dir hlookup, find_leaveDir_of_ne hn, ← free_put_of_ne hn]
          exact ih _ _ h

theorem arrives_of_find (source destination : Directory N C)
    (h : source.find path = some (.file c)) : Arrives source destination path c := by
  induction source generalizing destination path with
  | nil => cases path <;> cases h
  | file name content rest ih => exact arrives_file (fun d p hp => ih d hp) h
  | dir name entries rest ihentries ih =>
    exact arrives_dir (fun d p hp => ihentries d hp) (fun d p hp => ih d hp) h

/-- Nothing of the source can be moved any more: its files have something in their places, and
its directories are not empty and have a file, or a directory where the same is so. -/
def Merged : Directory N C → Directory N C → Prop
  | .nil, _ => True
  | .file name _ rest, destination => destination.lookup name ≠ none ∧ Merged rest destination
  | .dir name entries rest, destination =>
    ((∃ c, destination.lookup name = some (.file c)) ∨
      ∃ there, destination.lookup name = some (.dir there) ∧ entries ≠ .nil ∧
        Merged entries there) ∧
      Merged rest destination

theorem Merged.grows {destination' : Directory N C} (h : Merged source destination)
    (hgrows : Grows destination destination') : Merged source destination' := by
  induction source generalizing destination destination' with
  | nil => exact h
  | file name content rest ih =>
    refine ⟨?_, ih h.2 hgrows⟩
    obtain ⟨x, hx⟩ := Option.ne_none_iff_exists'.mp h.1
    cases x with
    | file c => simp [hgrows.lookup_file hx]
    | dir e =>
      obtain ⟨e', he', -⟩ := hgrows.lookup_dir hx
      simp [he']
  | dir name entries rest ihentries ih =>
    refine ⟨?_, ih h.2 hgrows⟩
    obtain ⟨c, hc⟩ | ⟨there, hthere, hne, hmerged⟩ := h.1
    · exact .inl ⟨c, hgrows.lookup_file hc⟩
    · obtain ⟨e', he', hinner⟩ := hgrows.lookup_dir hthere
      exact .inr ⟨e', he', hne, ihentries hmerged hinner⟩

theorem Merged.move (h : Merged source destination) :
    moveMissingEntries source destination = (source, destination) := by
  induction source generalizing destination with
  | nil => rfl
  | file name content rest ih =>
    obtain ⟨x, hx⟩ := Option.ne_none_iff_exists'.mp h.1
    rw [move_file_some hx, ih h.2]
  | dir name entries rest ihentries ih =>
    obtain ⟨c, hc⟩ | ⟨there, hthere, hne, hmerged⟩ := h.1
    · rw [move_dir_file hc, ih h.2]
    · rw [move_dir_dir hthere, ihentries hmerged, put_lookup hthere, ih h.2,
        leaveDir_of_ne hne]

theorem merged_moveMissingEntries (source destination : Directory N C) :
    Merged (moveMissingEntries source destination).1
      (moveMissingEntries source destination).2 := by
  induction source generalizing destination with
  | nil => trivial
  | file name content rest ih =>
    cases h : destination.lookup name with
    | none =>
      rw [move_file_none h]
      exact ih _
    | some x =>
      rw [move_file_some h]
      have hkept : Merged (.file name content .nil) destination := ⟨by simp [h], trivial⟩
      exact ⟨(hkept.grows (grows_moveMissingEntries rest destination)).1, ih destination⟩
  | dir name entries rest ihentries ih =>
    cases h : destination.lookup name with
    | none =>
      rw [move_dir_none h]
      exact ih _
    | some x =>
      cases x with
      | file c =>
        rw [move_dir_file h]
        exact ⟨.inl ⟨c, (grows_moveMissingEntries rest destination).lookup_file h⟩,
          ih destination⟩
      | dir there =>
        rw [move_dir_dir h]
        by_cases hempty : (moveMissingEntries entries there).1 = .nil
        · rw [hempty]
          exact ih _
        · rw [leaveDir_of_ne hempty]
          have hput : (destination.put name
              (.dir (moveMissingEntries entries there).2)).lookup name =
              some (.dir (moveMissingEntries entries there).2) := by rw [lookup_put, if_pos rfl]
          obtain ⟨e', he', hgrows⟩ := (grows_moveMissingEntries rest _).lookup_dir hput
          exact ⟨.inr ⟨e', he', hempty, (ihentries there).grows hgrows⟩, ih _⟩

end Merging

section Trees
variable {data data' : AppData N C} {path : List N} {c : C}

/-- The tree that stands at the place of the previous name. -/
def AppData.legacyTree (data : AppData N C) : Option (Node N C) :=
  match data.legacy with
  | .noParent => none
  | .current => data.current
  | .beside tree => tree

def HasFile (tree : Option (Node N C)) (path : List N) (c : C) : Prop :=
  tree.bind (Node.find path) = some (.file c)

def FreeIn (tree : Option (Node N C)) (path : List N) : Prop :=
  tree.bind (Node.find path) = none ∧
    ∀ q, q <+: path → ∀ c, tree.bind (Node.find q) ≠ some (.file c)

theorem freeIn_none (path : List N) : FreeIn (none : Option (Node N C)) path :=
  ⟨rfl, fun _ _ _ h => by cases h⟩

theorem hasFile_leaveTree {left : Directory N C} (h : left.find path = some (.file c)) :
    HasFile (leaveTree left) path c := by
  cases left with
  | nil => cases path <;> cases h
  | file => exact h
  | dir => exact h

theorem migrate_dirs (source destination : Directory N C) :
    migrateLegacyAppData ⟨some (.dir destination), .beside (some (.dir source))⟩ =
      .ok ⟨some (.dir (moveMissingEntries source destination).2),
        .beside (leaveTree (moveMissingEntries source destination).1)⟩ := rfl

theorem migrate_merged {source destination : Directory N C} (h : Merged source destination) :
    migrateLegacyAppData ⟨some (.dir destination), .beside (leaveTree source)⟩ =
      .ok ⟨some (.dir destination), .beside (leaveTree source)⟩ := by
  cases source with
  | nil => rfl
  | file name content rest | dir name entries rest =>
    rw [leaveTree, migrate_dirs, h.move, leaveTree]
    all_goals exact fun hnil => by cases hnil

/-- After data of the previous name was moved, every file of the current place is unchanged, every
file of the previous place is at its path in the current one if that was free and else where it
was, and to move the data again changes nothing. -/
theorem moved_app_data_is_kept (h : migrateLegacyAppData data = .ok data') :
    (∀ path c, HasFile data.current path c → HasFile data'.current path c) ∧
      (∀ path c, HasFile data.legacyTree path c →
        (FreeIn data.current path → HasFile data'.current path c) ∧
        (¬FreeIn data.current path → HasFile data'.legacyTree path c)) ∧
      migrateLegacyAppData data' = .ok data' := by
  obtain ⟨current, legacy⟩ := data
  cases legacy with
  | noParent =>
    cases h
    exact ⟨fun _ _ hc => hc, fun _ _ hc => (by cases hc), rfl⟩
  | current =>
    cases h
    exact ⟨fun _ _ hc => hc, fun _ _ hc => ⟨fun _ => hc, fun _ => hc⟩, rfl⟩
  | beside tree =>
    cases tree with
    | none =>
      cases h
      exact ⟨fun _ _ hc => hc, fun _ _ hc => (by cases hc), rfl⟩
    | some legacy =>
      cases current with
      | none =>
        cases h
        exact ⟨fun _ _ hc => (by cases hc),
          fun path _ hc => ⟨fun _ => hc, fun hfree => absurd (freeIn_none path) hfree⟩, rfl⟩
      | some current =>
        cases current with
        | file c => cases h
        | dir destination =>
          cases legacy with
          | file c => cases h
          | dir source =>
            rw [migrate_dirs] at h
            cases h
            refine ⟨fun path c hc => ?_, fun path c hc => ?_, ?_⟩
            · exact (grows_moveMissingEntries source destination path).1 c hc
            · obtain ⟨hmoved, hleft⟩ := arrives_of_find source destination hc
              exact ⟨hmoved, fun hfree => hasFile_leaveTree (hleft hfree)⟩
            · exact migrate_merged (merged_moveMissingEntries source destination)

/-- A file and a directory of the same name clash, and what is below a common directory moves. -/
def clashingData : AppData Nat Nat where
  current := some (.dir (.file 1 10 (.dir 2 (.file 3 30 .nil) .nil)))
  legacy := .beside (some (.dir (.dir 1 (.file 3 13 .nil) (.dir 2 (.file 3 23 (.file 4 24 .nil))
    (.file 5 15 .nil)))))

def clashingDataMoved : AppData Nat Nat where
  current := some (.dir (.file 1 10 (.dir 2 (.file 3 30 (.file 4 24 .nil)) (.file 5 15 .nil))))
  legacy := .beside (some (.dir (.dir 1 (.file 3 13 .nil) (.dir 2 (.file 3 23 .nil) .nil))))

theorem moved_clashing_data_is_kept :
    HasFile clashingDataMoved.current [2, 4] 24 ∧ HasFile clashingDataMoved.legacyTree [2, 3] 23 ∧
      migrateLegacyAppData clashingDataMoved = .ok clashingDataMoved := by
  have hmoved : migrateLegacyAppData clashingData = .ok clashingDataMoved := rfl
  have hdir : (Directory.file 1 10 (.dir 2 (.file 3 30 .nil) .nil)).lookup 2 =
      some (.dir (.file 3 30 .nil)) := rfl
  obtain ⟨-, hlegacy, hagain⟩ := moved_app_data_is_kept hmoved
  refine ⟨(hlegacy [2, 4] 24 rfl).1 (free_dir_iff hdir |>.mpr ?_),
    (hlegacy [2, 3] 23 rfl).2 fun hfree => ?_, hagain⟩
  · exact free_of_lookup_none rfl
  · cases hfree.1

end Trees

end Cinder.Upgrades
