import Cinder.Library.NodeHandlers
import Cinder.Notes.NoteSaving
import Cinder.Materials.MaterialStore
set_option autoImplicit false

namespace Cinder.Library
open Cinder.Host Cinder.Storage Cinder.Programs Cinder.Programs.Program
open Cinder.Notes Cinder.Materials

/-- The tables, the blob files and the last reading of the clock. -/
structure LibraryStore where
  lib : LibraryTables
  blobs : BlobPath → Option Bytes
  clock : Time

def LibraryStore.notes (s : LibraryStore) : NoteStore := ⟨s.lib, s.clock⟩

def LibraryStore.materials (s : LibraryStore) : MaterialStore := ⟨s.lib, s.blobs⟩

/-- `DELETE FROM users`: the nodes of the user go with it. `school` is what is
left of the Host's other tables. -/
def deleteUser (lib : LibraryTables) (id : Uuid) (school : Database) : LibraryTables :=
  { deleteNodes lib ((lib.nodes.rows.filter fun n => n.ownerId = some id).map (·.id)) with school }

inductive LibraryStatement where
  | node (l : NodeStatement)
  | note (l : NoteStatement)
  | material (l : MaterialStatement)
  | deleteUser (id : Uuid) (school : Database)

def LibraryStatement.run : LibraryStatement → LibraryStore → Except HostError LibraryStore
  | .node l, s => (l.run s.lib).map fun lib => { s with lib }
  | .note l, s => (l.run s.notes).map fun t => { s with lib := t.lib, clock := t.clock }
  | .material l, s => (l.run s.materials).map fun t => { s with lib := t.lib, blobs := t.blobs }
  | .deleteUser id school, s => .ok { s with lib := Library.deleteUser s.lib id school }

instance : Engine LibraryStore LibraryStatement HostError := ⟨LibraryStatement.run⟩

inductive LibraryRequest where
  | createNode (env : Env) (user : CurrentUser) (req : CreateNodeRequest)
  | updateNode (env : Env) (user : CurrentUser) (id : Uuid) (req : UpdateNodeRequest)
  | deleteNode (user : CurrentUser) (id : Uuid)
  | saveNote (call : SaveNoteCall)
  | material (r : MaterialRequest)
  | deleteUser (id : Uuid) (school : Database)

inductive LibraryReply where
  | node (node : NodeRow)
  | note (body : NoteBody)
  | material (reply : MaterialReply)
  | done
  deriving DecidableEq, Repr

def handle (sha256 : Bytes → String) :
    LibraryRequest → Program LibraryStore LibraryStatement HostError LibraryReply
  | .createNode env user req => do
    let node ← (createNode env user req).within (·.lib) .node
    pure (.node node)
  | .updateNode env user id req => do
    let node ← (updateNode env user id req).within (·.lib) .node
    pure (.node node)
  | .deleteNode user id => do
    (deleteNode user id).within (·.lib) .node
    pure .done
  | .saveNote call => do
    let body ← (Notes.handle call).within (·.notes) .note
    pure (.note body)
  | .material r => do
    let reply ← (Materials.handle sha256 r).within (·.materials) .material
    pure (.material reply)
  | .deleteUser id school => do
    execute (.deleteUser id school)
    pure .done

abbrev LibraryPool (ι : Type) :=
  Pool ι LibraryRequest LibraryStore LibraryStatement HostError LibraryReply

abbrev LibraryWorld (ι : Type) := World ι LibraryStore LibraryStatement

def emptyLibrary : LibraryStore := ⟨{ school := sampleClassroom }, fun _ => none, 0⟩

def sampleCreate (t : Time) (parentId : Option Uuid) (kind : NodeKind) (name : String) :
    LibraryRequest :=
  .createNode (sampleEnv t) sampleStudent { parentId, classroomId := none, name, kind }

def aloneRun (i steps : Nat) (r : LibraryRequest) : List (Move Nat LibraryRequest) :=
  .start i r :: List.replicate steps (.advance i)

theorem guard_some {c : Prop} [Decidable c] {u : Unit} (h : guard c = some u) : c := by
  by_contra hc
  simp [hc] at h

theorem elim_eq_ok {α β ε : Type} {o : Option α} {e : ε} {f : α → Except ε β} {b : β}
    (h : o.elim (.error e) f = .ok b) : ∃ a, o = some a ∧ f a = .ok b := by
  cases o with
  | none => cases h
  | some a => exact ⟨a, rfl, h⟩

theorem insertNode_some {lib lib' : LibraryTables} {node : NodeRow}
    (h : insertNode lib node = some lib') :
    lib.nodes.insert node = some lib'.nodes ∧ (∀ p, node.parentId = some p →
      ∃ parent, node? lib p = some parent) ∧ lib' = { lib with nodes := lib'.nodes } := by
  simp only [insertNode, Option.bind_eq_bind, Option.bind_eq_some_iff, pure,
    Option.some.injEq] at h
  obtain ⟨_, -, _, hparent, _, -, nodes, hnodes, rfl⟩ := h
  refine ⟨hnodes, fun p hp => Option.isSome_iff_exists.mp ?_, rfl⟩
  simpa [hp] using guard_some hparent

theorem insertNoteBody_some {lib lib' : LibraryTables} {b : NoteBodyRow}
    (h : insertNoteBody lib b = some lib') :
    (∃ n, node? lib b.nodeId = some n) ∧ lib.noteBodies.insert b = some lib'.noteBodies ∧
      lib' = { lib with
        noteBodies := lib'.noteBodies
        noteSearch := noteBodiesAfterInsert lib.noteSearch b } := by
  simp only [insertNoteBody, Option.bind_eq_bind, Option.bind_eq_some_iff, pure,
    Option.some.injEq] at h
  obtain ⟨_, hnode, bodies, hbodies, rfl⟩ := h
  exact ⟨Option.isSome_iff_exists.mp (guard_some hnode), hbodies, rfl⟩

theorem insertMaterial_some {lib lib' : LibraryTables} {node : NodeRow} {file : FileRow}
    (h : insertMaterial lib node file = some lib') :
    lib.nodes.insert node = some lib'.nodes ∧ lib.files.insert file = some lib'.files ∧
      (∀ p, node.parentId = some p → ∃ parent, node? lib p = some parent) ∧
      lib' = { lib with nodes := lib'.nodes, files := lib'.files } := by
  simp only [insertMaterial, Option.bind_eq_bind, Option.bind_eq_some_iff, pure,
    Option.some.injEq] at h
  obtain ⟨_, -, _, hparent, _, -, nodes, hnodes, files, hfiles, rfl⟩ := h
  refine ⟨hnodes, hfiles, fun p hp => Option.isSome_iff_exists.mp ?_, rfl⟩
  simpa [hp] using guard_some hparent

theorem rows_saveNoteTx (lib : LibraryTables) (note : Uuid) (docJson : Json) (plaintext : String)
    (now : Time) : (saveNoteTx lib note docJson plaintext now).nodes.rows =
      lib.nodes.rows.map fun n => if n.id = note then touchNode now n else n := by
  simp [saveNoteTx]

/-- A change to a node that keeps what `update_node` never writes. -/
structure NodeEdit (f : NodeRow → NodeRow) : Prop where
  id : ∀ n, (f n).id = n.id
  ownerId : ∀ n, (f n).ownerId = n.ownerId
  classroomId : ∀ n, (f n).classroomId = n.classroomId
  kind : ∀ n, (f n).kind = n.kind

theorem NodeEdit.comp {f g : NodeRow → NodeRow} (hf : NodeEdit f) (hg : NodeEdit g) :
    NodeEdit (g ∘ f) where
  id n := (hg.id (f n)).trans (hf.id n)
  ownerId n := (hg.ownerId (f n)).trans (hf.ownerId n)
  classroomId n := (hg.classroomId (f n)).trans (hf.classroomId n)
  kind n := (hg.kind (f n)).trans (hf.kind n)

/-- `lib'` is `lib` after one edit of the node, which gives it the parent
`parent?`, or leaves it where it is. -/
def Edited (id : Uuid) (parent? : Option (Option Uuid)) (lib lib' : LibraryTables) : Prop :=
  ∃ f, NodeEdit f ∧ (∀ n, (f n).parentId = parent?.getD n.parentId) ∧
    lib'.nodes.rows = lib.nodes.rows.map (fun n => if n.id = id then f n else n) ∧
    lib' = { lib with nodes := lib'.nodes }

theorem Edited.refl (id : Uuid) (lib : LibraryTables) : Edited id none lib lib := by
  refine ⟨fun n => n, ⟨fun _ => rfl, fun _ => rfl, fun _ => rfl, fun _ => rfl⟩, fun _ => rfl,
    ?_, rfl⟩
  simp

theorem Edited.trans {id : Uuid} {parent? : Option (Option Uuid)} {lib lib' lib'' : LibraryTables}
    (h : Edited id parent? lib lib') (h' : Edited id none lib' lib'') :
    Edited id parent? lib lib'' := by
  obtain ⟨f, hedit, hparent, hrows, hrest⟩ := h
  obtain ⟨g, hedit', hparent', hrows', hrest'⟩ := h'
  refine ⟨g ∘ f, hedit.comp hedit', fun n => (hparent' (f n)).trans (hparent n), ?_, ?_⟩
  · rw [hrows', hrows, List.map_map]
    refine List.map_congr_left fun n _ => ?_
    by_cases hn : n.id = id
    · simp [hn, hedit.id]
    · simp [hn]
  · rw [hrest', hrest]

theorem edited_updateNodeRow {id : Uuid} {lib : LibraryTables} {f : NodeRow → NodeRow}
    {hf : Table.KeepsKeys f} {parent? : Option (Option Uuid)} (hedit : NodeEdit f)
    (hparent : ∀ n, (f n).parentId = parent?.getD n.parentId) :
    Edited id parent? lib (updateNodeRow lib id f hf) := by
  refine ⟨f, hedit, hparent, ?_, rfl⟩
  simp [updateNodeRow]

theorem edited_moveNode {lib lib' : LibraryTables} {existing : NodeRow} {user : CurrentUser}
    {parent? : Option (Option Uuid)} (h : moveNode lib existing user parent? = .ok lib') :
    Edited existing.id parent? lib lib' ∧
      ∀ p, parent? = some (some p) → checkNewParent lib existing user p = .ok () := by
  cases parent? with
  | none =>
    cases h
    exact ⟨.refl _ _, fun p hp => by cases hp⟩
  | some newParent =>
    obtain ⟨u, hcheck, hmoved⟩ := bind_eq_ok.mp h
    cases hmoved
    refine ⟨edited_updateNodeRow ⟨fun _ => rfl, fun _ => rfl, fun _ => rfl, fun _ => rfl⟩
      fun _ => rfl, fun p hp => ?_⟩
    cases hp
    exact hcheck

theorem edited_renameNode {lib lib' : LibraryTables} {id : Uuid} {name : Option String}
    (h : renameNode lib id name = .ok lib') : Edited id none lib lib' := by
  cases name with
  | none => cases h; exact .refl _ _
  | some name =>
    simp only [renameNode] at h
    split at h
    · cases h
    · cases h
      exact edited_updateNodeRow ⟨fun _ => rfl, fun _ => rfl, fun _ => rfl, fun _ => rfl⟩
        fun _ => rfl

theorem edited_reorderNode (lib : LibraryTables) (id : Uuid) (position : Option Int) :
    Edited id none lib (reorderNode lib id position) := by
  cases position with
  | none => exact .refl _ _
  | some p =>
    exact edited_updateNodeRow ⟨fun _ => rfl, fun _ => rfl, fun _ => rfl, fun _ => rfl⟩
      fun _ => rfl

theorem edited_changeIcon (lib : LibraryTables) (id : Uuid) (icon : Option String) :
    Edited id none lib (changeIcon lib id icon) := by
  cases icon with
  | none => exact .refl _ _
  | some i =>
    exact edited_updateNodeRow ⟨fun _ => rfl, fun _ => rfl, fun _ => rfl, fun _ => rfl⟩
      fun _ => rfl

/-- What an accepted `update_node` does: one edit, with a parent that passed the
checks of the transaction. -/
theorem edited_updateNodeTx {lib lib' : LibraryTables} {existing : NodeRow} {user : CurrentUser}
    {req : UpdateNodeRequest} {now : Time}
    (h : updateNodeTx lib existing user req now = .ok lib') :
    Edited existing.id req.parentId lib lib' ∧
      ∀ p, req.parentId = some (some p) → checkNewParent lib existing user p = .ok () := by
  obtain ⟨moved, hmoved, h⟩ := bind_eq_ok.mp h
  obtain ⟨renamed, hrenamed, h⟩ := bind_eq_ok.mp h
  obtain ⟨hmove, hcheck⟩ := edited_moveNode hmoved
  refine ⟨?_, hcheck⟩
  obtain ⟨n, -, hok⟩ := elim_eq_ok h
  cases hok
  have hchanged := ((hmove.trans (edited_renameNode hrenamed)).trans
    (edited_reorderNode renamed existing.id req.position)).trans (edited_changeIcon _ _ req.icon)
  exact hchanged.trans
    (edited_updateNodeRow ⟨fun _ => rfl, fun _ => rfl, fun _ => rfl, fun _ => rfl⟩ fun _ => rfl)

/-- What a statement does to the tables. Only the transactions that add a node or
move one are told apart by their statement. -/
inductive LibraryChange (lib : LibraryTables) : LibraryStatement → LibraryTables → Prop where
  | same (l : LibraryStatement) : LibraryChange lib l lib
  | created (owner : Uuid) (node : NodeRow) (lib' : LibraryTables)
      (h : createNodeTx lib owner node = some lib') :
      LibraryChange lib (.node (.createNode owner node)) lib'
  | edited (existing : NodeRow) (user : CurrentUser) (req : UpdateNodeRequest) (now : Time)
      (lib' : LibraryTables) (h : Edited existing.id req.parentId lib lib')
      (hcheck : ∀ p, req.parentId = some (some p) → checkNewParent lib existing user p = .ok ()) :
      LibraryChange lib (.node (.updateNode existing user req now)) lib'
  | saved (l : LibraryStatement) (note : Uuid) (docJson : Json) (plaintext : String) (now : Time) :
      LibraryChange lib l (saveNoteTx lib note docJson plaintext now)
  | uploaded (node : NodeRow) (file : FileRow) (lib' : LibraryTables)
      (h : insertMaterial lib node file = some lib') :
      LibraryChange lib (.material (.insertFile node file)) lib'
  | deleted (l : LibraryStatement) (ids : List Uuid) (school : Database) :
      LibraryChange lib l { deleteNodes lib ids with school }

theorem map_eq_ok {ε α β : Type} {x : Except ε α} {f : α → β} {b : β} (h : x.map f = .ok b) :
    ∃ a, x = .ok a ∧ f a = b := by
  cases x with
  | error e => cases h
  | ok a => exact ⟨a, rfl, Except.ok.inj h⟩

theorem LibraryStatement.change {l : LibraryStatement} {s s' : LibraryStore}
    (h : l.run s = .ok s') : LibraryChange s.lib l s'.lib := by
  cases l with
  | node l =>
    obtain ⟨lib, hrun, rfl⟩ := map_eq_ok h
    cases l with
    | createNode owner node => exact .created owner node lib (stored_eq_ok.mp hrun)
    | updateNode existing user req now =>
      obtain ⟨hedit, hcheck⟩ := edited_updateNodeTx hrun
      exact .edited existing user req now lib hedit hcheck
    | deleteNode id => cases hrun; exact .deleted _ [id] s.lib.school
  | note l =>
    obtain ⟨t, hrun, rfl⟩ := map_eq_ok h
    cases l with
    | selectUpdatedAt note base => cases hrun; exact .same _
    | utcNow now => cases hrun; exact .same _
    | updateNote note base docJson plaintext now => cases hrun; exact .saved _ _ _ _ _
  | material l =>
    obtain ⟨t, hrun, rfl⟩ := map_eq_ok h
    cases l with
    | pathExists digest bytes => cases hrun; exact .same _
    | writeBlob digest bytes kept => cases hrun; exact .same _
    | removeBlob digest => cases hrun; exact .same _
    | deleteNodes ids => cases hrun; exact .deleted _ ids s.lib.school
    | insertFile node file =>
      cases hrun
      cases hins : insertMaterial s.lib node file with
      | none => simpa [LibraryStore.materials, hins] using LibraryChange.same _
      | some lib =>
        simpa [LibraryStore.materials, hins] using LibraryChange.uploaded node file lib hins
  | deleteUser id school => cases h; exact .deleted _ _ school

theorem library_run {ι : Type} [DecidableEq ι] {I : LibraryTables → Prop}
    (h : ∀ l lib lib', I lib → LibraryChange lib l lib' → I lib') (sha256 : Bytes → String)
    (c : LibraryPool ι) (hc : I c.world.state.lib) (ms : List (Move ι LibraryRequest)) :
    I (c.run (handle sha256) ms).world.state.lib :=
  Protocol.inv_run (I := fun w : LibraryWorld ι => I w.state.lib)
    (fun _ l w w' hw hwrote => h l w.state.lib w'.state.lib hw (LibraryStatement.change hwrote.1))
    hc ms

end Cinder.Library
