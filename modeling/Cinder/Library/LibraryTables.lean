import Cinder.Host.HostTables
set_option autoImplicit false

namespace Cinder.Library
open Cinder.Host Cinder.Storage

inductive NodeKind where
  | folder | note | pdf | deck
  deriving DecidableEq, Repr

/-- `ownerId = none` is the shared class library. -/
structure NodeRow where
  id : Uuid
  ownerId : Option Uuid
  parentId : Option Uuid
  classroomId : Option Uuid
  name : String
  kind : NodeKind
  position : Int := 0
  icon : Option String := none
  createdAt : Time
  updatedAt : Time
  deriving DecidableEq, Repr

instance : Keyed NodeRow where
  clash r r' := r.id = r'.id
  refl r := by simp
  symm r r' := by simp [eq_comm]

structure NoteBodyRow where
  nodeId : Uuid
  docJson : Json
  plaintext : String
  updatedAt : Time
  deriving DecidableEq, Repr

instance : Keyed NoteBodyRow where
  clash r r' := r.nodeId = r'.nodeId
  refl r := by simp
  symm r r' := by simp [eq_comm]

structure FileRow where
  nodeId : Uuid
  sha256 : String
  origName : String
  bytes : Int
  mime : String
  createdAt : Time
  deriving DecidableEq, Repr

instance : Keyed FileRow where
  clash r r' := r.nodeId = r'.nodeId
  refl r := by simp
  symm r r' := by simp [eq_comm]

structure TrashedFileRow where
  nodeId : Uuid
  deriving DecidableEq, Repr

instance : Keyed TrashedFileRow where
  clash r r' := r.nodeId = r'.nodeId
  refl r := by simp
  symm r r' := by simp [eq_comm]

/-- A row of the full-text index, which has no keys. -/
structure NoteSearchRow where
  nodeId : Uuid
  plaintext : String
  deriving DecidableEq, Repr

structure LibraryTables where
  school : Database := {}
  nodes : Table NodeRow := .empty
  noteBodies : Table NoteBodyRow := .empty
  noteSearch : List NoteSearchRow := []
  files : Table FileRow := .empty
  trashedFiles : Table TrashedFileRow := .empty

def node? (lib : LibraryTables) (id : Uuid) : Option NodeRow := lib.nodes.find? fun n => n.id = id

def noteBody? (lib : LibraryTables) (id : Uuid) : Option NoteBodyRow :=
  lib.noteBodies.find? fun b => b.nodeId = id

theorem node?_id {lib : LibraryTables} {id : Uuid} {n : NodeRow} (h : node? lib id = some n) :
    n ∈ lib.nodes.rows ∧ n.id = id := by
  obtain ⟨hn, hid⟩ := Table.mem_of_find? h
  exact ⟨hn, of_decide_eq_true hid⟩

theorem node?_of_mem {lib : LibraryTables} {n : NodeRow} (h : n ∈ lib.nodes.rows) :
    node? lib n.id = some n :=
  Table.find?_of_mem h (decide_eq_true rfl) fun m _ hm =>
    decide_eq_true (of_decide_eq_true (p := m.id = n.id) hm)

def positionStep : Int := 1024

/-! The triggers of `note_bodies`, which fire once for each row. -/

def indexed (b : NoteBodyRow) : NoteSearchRow := ⟨b.nodeId, b.plaintext⟩

def noteBodiesAfterInsert (search : List NoteSearchRow) (new : NoteBodyRow) :
    List NoteSearchRow := search ++ [indexed new]

def noteBodiesAfterDelete (search : List NoteSearchRow) (old : NoteBodyRow) :
    List NoteSearchRow := search.filter fun r => r.nodeId ≠ old.nodeId

def noteBodiesAfterUpdate (search : List NoteSearchRow) (old new : NoteBodyRow) :
    List NoteSearchRow :=
  search.filter (fun r => r.nodeId ≠ old.nodeId) ++ [indexed new]

/-! The statements on `note_bodies`, each with its trigger. -/

def insertNoteBody (lib : LibraryTables) (b : NoteBodyRow) : Option LibraryTables := do
  guard ((node? lib b.nodeId).isSome)
  let noteBodies ← lib.noteBodies.insert b
  return { lib with noteBodies, noteSearch := noteBodiesAfterInsert lib.noteSearch b }

def updateNoteBodies (lib : LibraryTables) (p : NoteBodyRow → Bool) (f : NoteBodyRow → NoteBodyRow)
    (hf : Table.KeepsKeys f) : LibraryTables :=
  { lib with
    noteBodies := lib.noteBodies.update p f hf
    noteSearch := (lib.noteBodies.rows.filter p).foldl
      (fun search b => noteBodiesAfterUpdate search b (f b)) lib.noteSearch }

def deleteNoteBodies (lib : LibraryTables) (p : NoteBodyRow → Bool) : LibraryTables :=
  { lib with
    noteBodies := lib.noteBodies.delete p
    noteSearch := (lib.noteBodies.rows.filter p).foldl noteBodiesAfterDelete lib.noteSearch }

def subtree (nodes : List NodeRow) : Nat → List Uuid → List Uuid
  | 0, ids => ids
  | fuel+1, ids => subtree nodes fuel (ids ++ (nodes.filter fun n =>
      n.parentId.any ids.contains && !ids.contains n.id).map (·.id))

/-- `DELETE FROM nodes`. The rows of a node go with it, and so do the nodes below
it with theirs. -/
def deleteNodes (lib : LibraryTables) (ids : List Uuid) : LibraryTables :=
  let gone := subtree lib.nodes.rows lib.nodes.rows.length ids
  { deleteNoteBodies lib fun b => gone.contains b.nodeId with
    nodes := lib.nodes.delete fun n => gone.contains n.id
    files := lib.files.delete fun f => gone.contains f.nodeId
    trashedFiles := lib.trashedFiles.delete fun t => gone.contains t.nodeId }

end Cinder.Library
