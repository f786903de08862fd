import Cinder.Library.LibraryRequests
import Cinder.Materials.BlobUpkeep
import Cinder.Storage.ParentTrees
set_option autoImplicit false

/-!
The nodes are a forest of folders. `create_node` and an upload check the parent
before their transaction, so they rely on what no later step changes in a node.
-/

namespace Cinder.Library
open Cinder.Host Cinder.Storage Cinder.Programs Cinder.Programs.Program
open Cinder.Notes Cinder.Materials Cinder.Programs.Protocol Relation

def parentOf (lib : LibraryTables) (id : Uuid) : Option Uuid := (node? lib id).bind (·.parentId)

/-- A folder that `n` may be in. -/
structure FolderOf (n parent : NodeRow) : Prop where
  folder : parent.kind = .folder
  owner : parent.ownerId = n.ownerId
  classroom : parent.classroomId = n.classroomId

structure FolderForest (lib : LibraryTables) : Prop where
  acyclic : Acyclic (parentOf lib)
  parents : ∀ n ∈ lib.nodes.rows, ∀ p, n.parentId = some p →
    ∃ parent, node? lib p = some parent ∧ FolderOf n parent

section Insert
variable {lib lib' : LibraryTables} {n : NodeRow}

theorem node?_insert_other (h : lib.nodes.insert n = some lib'.nodes) {id : Uuid} (hid : id ≠ n.id) :
    node? lib' id = node? lib id :=
  Table.find?_insert_other h (decide_eq_false hid.symm)

theorem not_node?_insert (h : lib.nodes.insert n = some lib'.nodes) : node? lib n.id = none := by
  refine Table.find?_eq_none.mpr fun m hm => ?_
  exact Table.clash_insert h hm

theorem node?_insert_self (h : lib.nodes.insert n = some lib'.nodes) :
    node? lib' n.id = some n :=
  node?_of_mem ((Table.mem_insert h).mpr (.inr rfl))

theorem forest_insert (hlib : FolderForest lib) (h : lib.nodes.insert n = some lib'.nodes)
    (hparent : ∀ p, n.parentId = some p → ∃ parent, node? lib p = some parent ∧ FolderOf n parent) :
    FolderForest lib' := by
  have hold : ∀ id m, node? lib id = some m → node? lib' id = some m := fun id m hm => by
    have hne : id ≠ n.id := fun hid => by simp [hid, not_node?_insert h] at hm
    rw [node?_insert_other h hne, hm]
  refine ⟨hlib.acyclic.attach (m := n.id) (fun a b ha hab => ?_) (fun a ha => ?_) fun hself => ?_,
    fun m hm p hp => ?_⟩
  · rwa [parentOf, node?_insert_other h ha] at hab
  · obtain ⟨m, hm, hp⟩ := Option.bind_eq_some_iff.mp ha
    obtain ⟨parent, hstored, -⟩ := hlib.parents m (node?_id hm).1 n.id hp
    simp [not_node?_insert h] at hstored
  · rw [parentOf, node?_insert_self h, Option.bind_some] at hself
    obtain ⟨parent, hstored, -⟩ := hparent n.id hself
    simp [not_node?_insert h] at hstored
  · rcases (Table.mem_insert h).mp hm with hm | rfl
    · obtain ⟨parent, hstored, hfolder⟩ := hlib.parents m hm p hp
      exact ⟨parent, hold p parent hstored, hfolder⟩
    · obtain ⟨parent, hstored, hfolder⟩ := hparent p hp
      exact ⟨parent, hold p parent hstored, hfolder⟩

end Insert

/-! A move. The walk up from the new parent ends at a root without meeting the
moved node. -/

theorem wouldCreateCycle_false {lib : LibraryTables} {moving : Uuid} {n : Nat} {cursor : Option Uuid}
    (h : wouldCreateCycle lib moving n cursor = .ok false) {p : Uuid} (hp : cursor = some p) :
    ¬ReflTransGen (Up (parentOf lib)) p moving := by
  induction n generalizing cursor p with
  | zero => cases h
  | succ n ih =>
    subst hp
    rw [wouldCreateCycle] at h
    split at h
    · cases h
    · next hne =>
      intro hway
      rcases ReflTransGen.cases_head hway with heq | ⟨q, hpq, hrest⟩
      · exact hne heq
      · exact ih h hpq hrest

theorem checkNewParent_ok {lib : LibraryTables} {existing : NodeRow} {user : CurrentUser} {p : Uuid}
    (h : checkNewParent lib existing user p = .ok ()) :
    (∃ parent, node? lib p = some parent ∧ FolderOf existing parent) ∧
      ¬ReflTransGen (Up (parentOf lib)) p existing.id := by
  obtain ⟨parent, hparent, h⟩ := bind_eq_ok.mp h
  obtain ⟨parent', hstored, hsame⟩ := elim_eq_ok hparent
  cases hsame
  obtain ⟨_, -, h⟩ := bind_eq_ok.mp h
  obtain ⟨_, hfolder, h⟩ := bind_eq_ok.mp h
  obtain ⟨cycle, hcycle, h⟩ := bind_eq_ok.mp h
  obtain ⟨_, hno, hsame⟩ := bind_eq_ok.mp h
  have hfolder := ensure_ok hfolder
  have hno := ensure_ok hno
  have hsame := ensure_ok hsame
  rw [Bool.not_eq_true'] at hno
  rw [Bool.and_eq_true, decide_eq_true_eq, decide_eq_true_eq] at hsame
  subst hno
  refine ⟨⟨parent, hstored, ?_, hsame.1, hsame.2⟩, wouldCreateCycle_false hcycle rfl⟩
  cases hkind : parent.kind <;> simp [hkind, NodeKind.canHaveChildren] at hfolder
  rfl

/-! An edit of one node. `f` changes its parent, or other columns. -/

section Edit
variable {lib lib' : LibraryTables} {id : Uuid} {f : NodeRow → NodeRow}

theorem node?_edit (hf : NodeEdit f)
    (hrows : lib'.nodes.rows = lib.nodes.rows.map fun n => if n.id = id then f n else n)
    (x : Uuid) : node? lib' x = (node? lib x).map fun n => if n.id = id then f n else n := by
  have hcomp : (fun n : NodeRow => decide (n.id = x)) ∘ (fun n => if n.id = id then f n else n) =
      fun n => decide (n.id = x) := by
    funext n
    simp only [Function.comp]
    split
    · rw [hf.id]
    · rfl
  rw [node?, Table.find?, hrows, List.find?_map, hcomp]
  rfl

theorem folderOf_edit (hf : NodeEdit f) {n m : NodeRow} (h : FolderOf n m) :
    FolderOf n (if m.id = id then f m else m) := by
  split
  · exact ⟨(hf.kind m).trans h.folder, (hf.ownerId m).trans h.owner,
      (hf.classroomId m).trans h.classroom⟩
  · exact h

theorem folderOf_edited (hf : NodeEdit f) {n m : NodeRow} (h : FolderOf n m) :
    FolderOf (f n) m :=
  ⟨h.folder, h.owner.trans (hf.ownerId n).symm, h.classroom.trans (hf.classroomId n).symm⟩

theorem forest_edit (hlib : FolderForest lib) (hf : NodeEdit f)
    (hrows : lib'.nodes.rows = lib.nodes.rows.map fun n => if n.id = id then f n else n)
    {parent? : Option (Option Uuid)} (hparent : ∀ n, (f n).parentId = parent?.getD n.parentId)
    (hnew : ∀ p, parent? = some (some p) → ¬ReflTransGen (Up (parentOf lib)) p id ∧
      ∀ n, node? lib id = some n → ∃ parent, node? lib p = some parent ∧ FolderOf n parent) :
    FolderForest lib' := by
  have hfind := node?_edit hf hrows
  have hparentOf : ∀ a b, parentOf lib' a = some b → parentOf lib a = some b ∨
      a = id ∧ parent? = some (some b) := fun a b hab => by
    rw [parentOf, hfind] at hab
    obtain ⟨m, hm, hp⟩ := Option.bind_eq_some_iff.mp hab
    obtain ⟨n, hn, rfl⟩ := Option.map_eq_some_iff.mp hm
    by_cases hid : n.id = id
    · rw [if_pos hid, hparent] at hp
      cases parent? with
      | none => exact .inl (Option.bind_eq_some_iff.mpr ⟨n, hn, hp⟩)
      | some q => exact .inr ⟨(node?_id hn).2.symm.trans hid, by rw [← hp]; rfl⟩
    · rw [if_neg hid] at hp
      exact .inl (Option.bind_eq_some_iff.mpr ⟨n, hn, hp⟩)
  have hstored : ∀ {n p}, (∃ parent, node? lib p = some parent ∧ FolderOf n parent) →
      ∃ parent, node? lib' p = some parent ∧ FolderOf n parent := by
    rintro n p ⟨parent, hp, hfolder⟩
    exact ⟨_, by rw [hfind, hp, Option.map_some], folderOf_edit hf hfolder⟩
  refine ⟨?_, fun m hm p hp => ?_⟩
  · refine hlib.acyclic.repoint (m := id) (fun a b ha hab => ?_) fun b hb hway => ?_
    · exact (hparentOf a b hab).elim (fun h => h) fun h => absurd h.1 ha
    · rcases hparentOf id b hb with hold | ⟨-, hmoved⟩
      · exact hlib.acyclic id (.head' hold hway)
      · exact (hnew b hmoved).1 hway
  · rw [hrows] at hm
    obtain ⟨n, hn, rfl⟩ := List.mem_map.mp hm
    by_cases hid : n.id = id
    · rw [if_pos hid, hparent] at hp
      rw [if_pos hid]
      have hfolder : ∃ parent, node? lib p = some parent ∧ FolderOf n parent := by
        cases hmoved : parent? with
        | none =>
          rw [hmoved] at hp
          exact hlib.parents n hn p hp
        | some q =>
          rw [hmoved] at hp
          exact (hnew p (by rw [hmoved, ← hp]; rfl)).2 n (hid ▸ node?_of_mem hn)
      obtain ⟨parent, hp', hof⟩ := hstored hfolder
      exact ⟨parent, hp', folderOf_edited hf hof⟩
    · rw [if_neg hid] at hp ⊢
      exact hstored (hlib.parents n hn p hp)

end Edit

/-! A removal takes whole subtrees: the rounds of `subtree` find all there is below,
since each round but the last finds a node. -/

def ClosedBelow (nodes : List NodeRow) (ids : List Uuid) : Prop :=
  ∀ n ∈ nodes, ∀ p, n.parentId = some p → p ∈ ids → n.id ∈ ids

def nextBelow (nodes : List NodeRow) (ids : List Uuid) : List NodeRow :=
  nodes.filter fun n => n.parentId.any ids.contains && !ids.contains n.id

theorem mem_nextBelow {nodes : List NodeRow} {ids : List Uuid} {n : NodeRow} :
    n ∈ nextBelow nodes ids ↔ n ∈ nodes ∧ (∃ p ∈ ids, n.parentId = some p) ∧ n.id ∉ ids := by
  simp [nextBelow, Option.any_eq_true, and_comm]

theorem closedBelow_of_nextBelow {nodes : List NodeRow} {ids : List Uuid}
    (h : nextBelow nodes ids = []) : ClosedBelow nodes ids := by
  intro n hn p hp hmem
  by_contra hno
  have hnext := mem_nextBelow.mpr ⟨hn, ⟨p, hmem, hp⟩, hno⟩
  rw [h] at hnext
  cases hnext

theorem nextBelow_of_closedBelow {nodes : List NodeRow} {ids : List Uuid}
    (h : ClosedBelow nodes ids) : nextBelow nodes ids = [] := by
  refine List.eq_nil_iff_forall_not_mem.mpr fun n hn => ?_
  obtain ⟨hmem, ⟨p, hp, hparent⟩, hno⟩ := mem_nextBelow.mp hn
  exact hno (h n hmem p hparent hp)

theorem subtree_succ (nodes : List NodeRow) (fuel : Nat) (ids : List Uuid) :
    subtree nodes (fuel+1) ids = subtree nodes fuel (ids ++ (nextBelow nodes ids).map (·.id)) := rfl

theorem subtree_of_closedBelow {nodes : List NodeRow} {ids : List Uuid}
    (h : ClosedBelow nodes ids) (fuel : Nat) : subtree nodes fuel ids = ids := by
  induction fuel with
  | zero => rfl
  | succ fuel ih => rw [subtree_succ, nextBelow_of_closedBelow h, List.map_nil, List.append_nil, ih]

theorem outside_lt {nodes : List NodeRow} {ids : List Uuid} (h : nextBelow nodes ids ≠ []) :
    (nodes.filter fun n => n.id ∉ ids ++ (nextBelow nodes ids).map (·.id)).length <
      (nodes.filter fun n => n.id ∉ ids).length := by
  obtain ⟨n, hn⟩ := List.exists_mem_of_ne_nil _ h
  obtain ⟨hmem, -, hno⟩ := mem_nextBelow.mp hn
  have hsub : nodes.filter (fun n => n.id ∉ ids ++ (nextBelow nodes ids).map (·.id)) =
      (nodes.filter fun n => n.id ∉ ids).filter
        fun n => n.id ∉ (nextBelow nodes ids).map (·.id) := by
    rw [List.filter_filter]
    refine List.filter_congr fun m _ => ?_
    simp only [List.mem_append, not_or, Bool.decide_and, Bool.and_comm]
  rw [hsub, List.length_filter_lt_length_iff_exists]
  refine ⟨n, List.mem_filter.mpr ⟨hmem, by simpa using hno⟩, ?_⟩
  simpa using ⟨n, hn, rfl⟩

theorem closedBelow_subtree {nodes : List NodeRow} (fuel : Nat) (ids : List Uuid)
    (h : (nodes.filter fun n => n.id ∉ ids).length ≤ fuel) :
    ClosedBelow nodes (subtree nodes fuel ids) := by
  induction fuel generalizing ids with
  | zero =>
    intro n hn p _ _
    have hnone := List.filter_eq_nil_iff.mp (List.length_eq_zero_iff.mp (Nat.le_zero.mp h)) n hn
    rw [subtree]
    simpa using hnone
  | succ fuel ih =>
    rw [subtree_succ]
    by_cases hnext : nextBelow nodes ids = []
    · rw [hnext, List.map_nil, List.append_nil]
      have hclosed := closedBelow_of_nextBelow hnext
      rwa [subtree_of_closedBelow hclosed]
    · exact ih _ (by have := outside_lt hnext; omega)

theorem forest_deleteNodes {lib : LibraryTables} (hlib : FolderForest lib) (ids : List Uuid)
    (school : Database) : FolderForest { deleteNodes lib ids with school } := by
  generalize hlib' : ({ deleteNodes lib ids with school } : LibraryTables) = lib'
  have hclosed : ClosedBelow lib.nodes.rows (subtree lib.nodes.rows lib.nodes.rows.length ids) :=
    closedBelow_subtree _ _ (List.length_filter_le _ _)
  generalize hgone : subtree lib.nodes.rows lib.nodes.rows.length ids = gone at hclosed
  have hrows : lib'.nodes.rows = lib.nodes.rows.filter fun n => !gone.contains n.id := by
    rw [← hlib', ← hgone]
    rfl
  have hmem : ∀ n, n ∈ lib'.nodes.rows ↔ n ∈ lib.nodes.rows ∧ n.id ∉ gone := fun n => by
    rw [hrows, List.mem_filter]
    simp
  have hold : ∀ x n, node? lib' x = some n → node? lib x = some n := fun x n hn => by
    obtain ⟨hn', rfl⟩ := node?_id hn
    exact node?_of_mem ((hmem n).mp hn').1
  refine ⟨hlib.acyclic.of_le fun a b hab => ?_, fun n hn p hp => ?_⟩
  · obtain ⟨n, hn, hp⟩ := Option.bind_eq_some_iff.mp hab
    exact Option.bind_eq_some_iff.mpr ⟨n, hold a n hn, hp⟩
  · obtain ⟨hn, hkept⟩ := (hmem n).mp hn
    obtain ⟨parent, hstored, hof⟩ := hlib.parents n hn p hp
    obtain ⟨hparent, hid⟩ := node?_id hstored
    have hp' : p ∉ gone := fun hgone => hkept (hclosed n hn p hp hgone)
    exact ⟨parent, hid ▸ node?_of_mem ((hmem parent).mpr ⟨hparent, hid ▸ hp'⟩), hof⟩

def Known {ι : Type} (id : Uuid) (w : LibraryWorld ι) : Prop :=
  (node? w.state.lib id).isSome = true ∨
    ∃ e ∈ w.history, (node? e.before.lib id).isSome = true

def LibraryStatement.newNode? : LibraryStatement → Option Uuid
  | .node (.createNode _ n) => some n.id
  | .material (.insertFile n _) => some n.id
  | _ => none

/-- `Uuid::new_v4` gives a node an identifier that no node had before. -/
def NewIds {ι : Type} (_ : ι) (l : LibraryStatement) (w : LibraryWorld ι) : Prop :=
  ∀ id ∈ l.newNode?, ¬Known id w

instance {ι : Type} (id : Uuid) (w : LibraryWorld ι) : Decidable (Known id w) :=
  inferInstanceAs (Decidable (_ ∨ _))

instance {ι : Type} (i : ι) (l : LibraryStatement) (w : LibraryWorld ι) :
    Decidable (NewIds i l w) := inferInstanceAs (Decidable (∀ id ∈ l.newNode?, _))

structure SameNode (n m : NodeRow) : Prop where
  kind : m.kind = n.kind
  owner : m.ownerId = n.ownerId
  classroom : m.classroomId = n.classroomId

theorem SameNode.refl (n : NodeRow) : SameNode n n := ⟨rfl, rfl, rfl⟩

theorem SameNode.trans {n m k : NodeRow} (h : SameNode n m) (h' : SameNode m k) : SameNode n k :=
  ⟨h'.kind.trans h.kind, h'.owner.trans h.owner, h'.classroom.trans h.classroom⟩

/-- The node `n` was read before; if it is still stored, it is the same node. -/
def Remembers {ι : Type} (n : NodeRow) (w : LibraryWorld ι) : Prop :=
  Known n.id w ∧ ∀ m, node? w.state.lib n.id = some m → SameNode n m

theorem editTouch (now : Time) : NodeEdit (touchNode now) :=
  ⟨fun _ => rfl, fun _ => rfl, fun _ => rfl, fun _ => rfl⟩

theorem nodes_createNodeTx {lib lib' : LibraryTables} {owner : Uuid} {node : NodeRow}
    (h : createNodeTx lib owner node = some lib') :
    lib.nodes.insert (placed lib owner node) = some lib'.nodes ∧
      ∀ p, node.parentId = some p → ∃ parent, node? lib p = some parent := by
  obtain ⟨inserted, hinsert, hbody⟩ := Option.bind_eq_some_iff.mp h
  obtain ⟨hnodes, hparent, -⟩ := insertNode_some hinsert
  refine ⟨?_, hparent⟩
  split at hbody
  · rw [(insertNoteBody_some hbody).2.2]
    exact hnodes
  · rw [← Option.some.inj hbody]
    exact hnodes

theorem sameNode_change {l : LibraryStatement} {lib lib' : LibraryTables}
    (h : LibraryChange lib l lib') {id : Uuid} {m : NodeRow} (hm : node? lib' id = some m) :
    l.newNode? = some id ∨ ∃ n, node? lib id = some n ∧ SameNode n m := by
  have hinserted : ∀ {n : NodeRow}, lib.nodes.insert n = some lib'.nodes →
      n.id = id ∨ ∃ n, node? lib id = some n ∧ SameNode n m := fun {n} hins => by
    by_cases hid : n.id = id
    · exact .inl hid
    · rw [node?_insert_other hins (Ne.symm hid)] at hm
      exact .inr ⟨m, hm, .refl m⟩
  have hmapped : ∀ {f : NodeRow → NodeRow} {x : Uuid}, NodeEdit f →
      lib'.nodes.rows = lib.nodes.rows.map (fun n => if n.id = x then f n else n) →
      ∃ n, node? lib id = some n ∧ SameNode n m := fun {f x} hf hrows => by
    rw [node?_edit hf hrows] at hm
    obtain ⟨n, hn, rfl⟩ := Option.map_eq_some_iff.mp hm
    refine ⟨n, hn, ?_⟩
    split
    · exact ⟨hf.kind n, hf.ownerId n, hf.classroomId n⟩
    · exact .refl n
  cases h with
  | same => exact .inr ⟨m, hm, .refl m⟩
  | created owner node lib' hcreate =>
    exact (hinserted (nodes_createNodeTx hcreate).1).imp_left (congrArg some)
  | edited existing user req now lib' hedit =>
    obtain ⟨f, hf, -, hrows, -⟩ := hedit
    exact .inr (hmapped hf hrows)
  | saved l note docJson plaintext now =>
    exact .inr (hmapped (editTouch now) (rows_saveNoteTx lib note docJson plaintext now))
  | uploaded node file lib' hupload =>
    exact (hinserted (insertMaterial_some hupload).1).imp_left (congrArg some)
  | deleted l ids school =>
    obtain ⟨hmem, rfl⟩ := node?_id hm
    exact .inr ⟨m, node?_of_mem (Table.mem_delete.mp hmem).1, .refl m⟩

/-- A request writes a node into a folder that it has checked, and moves a node
that is still the one it has loaded. -/
def ChecksFolder (l : LibraryStatement) (lib : LibraryTables) : Prop :=
  match l with
  | .node (.createNode _ n) =>
    ∀ p parent, n.parentId = some p → node? lib p = some parent → FolderOf n parent
  | .material (.insertFile n _) =>
    ∀ p parent, n.parentId = some p → node? lib p = some parent → FolderOf n parent
  | .node (.updateNode existing _ _ _) =>
    ∀ n, node? lib existing.id = some n → SameNode existing n
  | _ => True

theorem forest_change {l : LibraryStatement} {lib lib' : LibraryTables} (hlib : FolderForest lib)
    (hl : ChecksFolder l lib) (h : LibraryChange lib l lib') : FolderForest lib' := by
  cases h with
  | same => exact hlib
  | created owner node lib' hcreate =>
    obtain ⟨hinsert, hparent⟩ := nodes_createNodeTx hcreate
    refine forest_insert hlib hinsert fun p hp => ?_
    obtain ⟨parent, hstored⟩ := hparent p hp
    have hof := hl p parent hp hstored
    exact ⟨parent, hstored, hof.folder, hof.owner, hof.classroom⟩
  | edited existing user req now lib' hedit hcheck =>
    obtain ⟨f, hf, hparent, hrows, -⟩ := hedit
    refine forest_edit hlib hf hrows hparent fun p hp => ?_
    obtain ⟨⟨parent, hstored, hof⟩, hway⟩ := checkNewParent_ok (hcheck p hp)
    refine ⟨hway, fun n hn => ⟨parent, hstored, hof.folder, ?_, ?_⟩⟩
    · rw [hof.owner, (hl n hn).owner]
    · rw [hof.classroom, (hl n hn).classroom]
  | saved l note docJson plaintext now =>
    have hrows := rows_saveNoteTx lib note docJson plaintext now
    have hparent : ∀ n, (touchNode now n).parentId =
        (none : Option (Option Uuid)).getD n.parentId := fun _ => rfl
    exact forest_edit hlib (editTouch now) hrows hparent fun p hp => by cases hp
  | uploaded node file lib' hupload =>
    obtain ⟨hinsert, -, hparent, -⟩ := insertMaterial_some hupload
    refine forest_insert hlib hinsert fun p hp => ?_
    obtain ⟨parent, hstored⟩ := hparent p hp
    exact ⟨parent, hstored, hl p parent hp hstored⟩
  | deleted l ids school => exact forest_deleteNodes hlib ids school

def treeProtocol (ι : Type) : Protocol ι LibraryStore LibraryStatement where
  inv w := FolderForest w.state.lib
  guard := NewIds
  promise _ l w := ChecksFolder l w.state.lib
  inv_step _ _ _ _ hi _ hl hw := forest_change hi hl (LibraryStatement.change hw.1)

theorem known_step {ι : Type} {i : ι} {l : LibraryStatement} {w w' : LibraryWorld ι}
    (hw : World.Wrote i l w w') {id : Uuid} (h : Known id w) : Known id w' := by
  rw [Known, hw.2]
  rcases h with h | ⟨e, he, h⟩
  · exact .inr ⟨_, List.mem_cons_self, h⟩
  · exact .inr ⟨e, List.mem_cons_of_mem _ he, h⟩

theorem stable_remembers {ι : Type} (i : ι) (n : NodeRow) :
    (treeProtocol ι).Stable i (Remembers n) := by
  rintro j l w w' - ⟨hknown, hsame⟩ - hg - hw
  refine ⟨known_step hw hknown, fun m hm => ?_⟩
  rcases sameNode_change (LibraryStatement.change hw.1) hm with hnew | ⟨k, hk, hkm⟩
  · exact absurd hknown (hg n.id hnew)
  · exact (hsame k hk).trans hkm

theorem remembers_read {ι : Type} {w : LibraryWorld ι} {id : Uuid} {n : NodeRow}
    (h : node? w.state.lib id = some n) : n.id = id ∧ Remembers n w := by
  obtain ⟨-, rfl⟩ := node?_id h
  refine ⟨rfl, .inl (by rw [h]; rfl), fun m hm => ?_⟩
  rw [h] at hm
  cases hm
  exact .refl n

section Follows
variable {ι : Type} {i : ι}

/-- What `create_node` and an upload know of the parent they were asked for. -/
def ChecksParent (node : NodeRow) (w : LibraryWorld ι) : Prop :=
  ∀ p, node.parentId = some p → ∃ parent, parent.id = p ∧ Remembers parent w ∧ FolderOf node parent

theorem stable_checksParent (node : NodeRow) :
    (treeProtocol ι).Stable i (ChecksParent node) := by
  intro j l w w' hj h hi hg hl hw p hp
  obtain ⟨parent, hid, hmem, hof⟩ := h p hp
  exact ⟨parent, hid, stable_remembers i parent j l w w' hj hmem hi hg hl hw, hof⟩

theorem folderOf_of_checksParent {node : NodeRow} {w : LibraryWorld ι} (h : ChecksParent node w)
    (p : Uuid) (parent : NodeRow) (hp : node.parentId = some p)
    (hstored : node? w.state.lib p = some parent) : FolderOf node parent := by
  obtain ⟨n, rfl, hmem, hof⟩ := h p hp
  have hsame := hmem.2 parent hstored
  exact ⟨hsame.kind.trans hof.folder, hsame.owner.trans hof.owner,
    hsame.classroom.trans hof.classroom⟩

theorem loadNode_stable (id : Uuid) (n : NodeRow) :
    (treeProtocol ι).Stable i fun w => n.id = id ∧ Remembers n w := by
  rintro j l w w' hj ⟨hid, h⟩ hi hg hl hw
  exact ⟨hid, stable_remembers i n j l w w' hj h hi hg hl hw⟩

theorem loadNode_follows (id : Uuid) :
    (treeProtocol ι).Follows i (fun n w => n.id = id ∧ Remembers n w)
      (Program.queryRow (fun s : LibraryStore => node? s.lib id) (.notFound "node"))
      (fun _ => True) :=
  Follows.queryRow (stable_const _ i True) (loadNode_stable id) fun _ _ _ _ hn => remembers_read hn

theorem requireParent_follows (env : Env) (user : CurrentUser) (req : CreateNodeRequest) :
    (treeProtocol ι).Follows i (fun _ => ChecksParent (newNode env user req))
      ((requireParent user req).within (·.lib) .node) (fun _ => True) := by
  unfold requireParent
  split
  · next hnone =>
    refine Follows.ret (stable_const _ i True) fun w _ p hp => ?_
    simp [newNode, hnone] at hp
  · next parentId hparent =>
    rw [loadNode, within_bind, within_queryRow]
    refine Follows.bind (loadNode_follows parentId) fun n => ?_
    have hstable : (treeProtocol ι).Stable i fun w => n.id = parentId ∧ Remembers n w :=
      loadNode_stable parentId n
    rw [within_bind, within_ofExcept]
    refine Follows.ofExcept_bind hstable fun _ howner => ?_
    rw [within_bind, within_require]
    refine Follows.require_bind hstable fun hfolder => ?_
    rw [within_require]
    unfold Program.require
    split
    · next hclassroom =>
      refine Follows.ret hstable fun w hw p hp => ⟨n, ?_, hw.2, ?_, ?_, hclassroom⟩
      · rw [hw.1]
        exact Option.some.inj (hparent.symm.trans hp)
      · cases hkind : n.kind <;> simp [hkind, NodeKind.canHaveChildren] at hfolder
        rfl
      · exact of_decide_eq_true (ensure_ok howner)
    · exact hstable

theorem requireClassroom_readOnly (user : CurrentUser) (classroomId : Option Uuid) :
    (requireClassroom user classroomId).ReadOnly := by
  cases classroomId with
  | none => trivial
  | some id => exact (readOnly_query _).bind fun _ => readOnly_require _ _

attribute [local irreducible] Protocol.Follows in
theorem createNode_follows (env : Env) (user : CurrentUser) (req : CreateNodeRequest) :
    (treeProtocol ι).Follows i (fun _ _ => True)
      ((createNode env user req).within (·.lib) .node) (fun _ => True) := by
  have htrue := stable_const (treeProtocol ι) i True
  have hchecks : (treeProtocol ι).Stable i (ChecksParent (newNode env user req)) :=
    stable_checksParent _
  rw [createNode, within_bind, within_require]
  refine Follows.require_bind htrue fun _ => ?_
  rw [within_bind]
  refine Follows.bind (requireParent_follows env user req) fun _ => ?_
  rw [within_bind]
  refine Follows.bind (Follows.readOnly hchecks
    ((requireClassroom_readOnly user req.classroomId).within _ _)) fun _ => ?_
  exact Follows.executeReturning hchecks (fun _ => htrue) fun w _ _ hP _ _ =>
    ⟨folderOf_of_checksParent hP, trivial⟩

theorem requireWritable_readOnly (node : NodeRow) (user : CurrentUser) :
    (requireWritable node user).ReadOnly :=
  (readOnly_query _).bind fun _ => readOnly_ofExcept _

theorem updateNode_follows (env : Env) (user : CurrentUser) (id : Uuid) (req : UpdateNodeRequest) :
    (treeProtocol ι).Follows i (fun _ _ => True)
      ((updateNode env user id req).within (·.lib) .node) (fun _ => True) := by
  have htrue := stable_const (treeProtocol ι) i True
  rw [updateNode, loadNode, within_bind, within_queryRow]
  refine Follows.bind (loadNode_follows id) fun existing => ?_
  refine Follows.weaken (loadNode_stable id existing) (fun w hw => hw.2) ?_
  rw [within_bind]
  refine Follows.bind (Follows.readOnly (stable_remembers i existing)
    ((requireWritable_readOnly existing user).within _ _)) fun _ => ?_
  rw [within_bind]
  refine Follows.bind (Q := fun _ _ => True) (Follows.executeReturning
    (stable_remembers i existing) (fun _ => htrue) fun w _ _ hP _ _ => ⟨hP.2, trivial⟩) fun u => ?_
  rw [within_ofExcept]
  exact Follows.readOnly htrue (readOnly_ofExcept _)

theorem requireFolder_ok {user : CurrentUser} {query : UploadQuery} {parent : NodeRow} {v : Unit}
    (h : requireFolder user query parent = .ok v) : parent.kind = .folder ∧
      parent.ownerId = (if query.shared then none else some user.id) ∧
        parent.classroomId = query.classroomId := by
  unfold requireFolder at h
  generalize (if query.shared then none else some user.id) = owner at h ⊢
  split at h
  · cases h
  · next hfolder =>
    split at h
    · cases h
    · next hsame =>
      rw [Bool.or_eq_true, not_or, decide_eq_true_eq, decide_eq_true_eq] at hsame
      exact ⟨not_not.mp hfolder, not_not.mp hsame.1, not_not.mp hsame.2⟩

theorem authorizeUpload_follows (u : Upload) :
    (treeProtocol ι).Follows i (fun _ => ChecksParent (materialNode u))
      ((authorizeUpload u.user u.query).within (·.materials) .material) (fun _ => True) := by
  have htrue := stable_const (treeProtocol ι) i True
  rw [authorizeUpload, within_bind, within_require]
  refine Follows.require_bind htrue fun _ => ?_
  rw [within_bind]
  refine Follows.bind (Follows.readOnly htrue ((authorizeClassroom_readOnly _ _).within _ _))
    fun _ => ?_
  unfold authorizeParent
  split
  · next hnone =>
    refine Follows.ret htrue fun w _ p hp => ?_
    simp [materialNode, hnone] at hp
  · next parentId hparent =>
    rw [within_bind, within_queryRow]
    refine Follows.bind (Q := fun n w => n.id = parentId ∧ Remembers n w) ?_ fun n => ?_
    · exact Follows.queryRow htrue (loadNode_stable parentId) fun _ _ _ _ hn => remembers_read hn
    · have hstable : (treeProtocol ι).Stable i fun w => n.id = parentId ∧ Remembers n w :=
        loadNode_stable parentId n
      rw [within_ofExcept]
      cases hok : requireFolder u.user u.query n with
      | error e => exact hstable
      | ok v =>
        obtain ⟨hfolder, howner, hclassroom⟩ := requireFolder_ok hok
        refine Follows.ret hstable fun w hw p hp => ⟨n, ?_, hw.2, hfolder, howner, hclassroom⟩
        rw [hw.1]
        exact Option.some.inj (hparent.symm.trans hp)

theorem recordMaterial_checks (u : Upload) (digest mime : String) :
    (treeProtocol ι).Follows i (fun _ _ => True)
      ((recordMaterial u digest mime).within (·.materials) .material) (fun _ => True) := by
  have htrue := stable_const (treeProtocol ι) i True
  have hchecks : (treeProtocol ι).Stable i (ChecksParent (materialNode u)) :=
    stable_checksParent _
  rw [recordMaterial, within_bind, within_outcome]
  refine Follows.bind (Follows.outcome ((authorizeUpload_readOnly _ _).within _ _)
    (authorizeUpload_follows u)) fun allowed => ?_
  cases allowed with
  | error e =>
    refine Follows.weaken ?_ (fun _ _ => trivial) (Follows.ret htrue fun _ _ => trivial)
    exact fun _ _ _ _ _ _ _ _ _ _ a ha => by cases ha
  | ok v =>
    refine Follows.weaken ?_ (fun w hw => hw v rfl) ?_
    · exact fun j l w w' hj h hi hg hl hw a _ =>
        hchecks j l w w' hj (h v rfl) hi hg hl hw
    · dsimp only
      split
      · exact Follows.ret hchecks fun _ _ => trivial
      · rw [within_bind]
        exact Follows.bind (Q := fun _ _ => True) (Follows.executeReturning hchecks
          (fun _ => htrue) fun w _ _ hP _ _ => ⟨folderOf_of_checksParent hP, trivial⟩) fun _ =>
            Follows.ret htrue fun _ _ => trivial

def NoRows (l : MaterialStatement) : Prop := l.inserted? = none

theorem follows_noRows {α : Type} {p : MaterialProgram α} (hp : p.WritesOnly NoRows) :
    (treeProtocol ι).Follows i (fun _ _ => True) (p.within (·.materials) .material)
      (fun _ => True) := by
  refine Follows.of_writesOnly (c := fun l => ∀ lib, ChecksFolder l lib) (fun l w hl => hl _)
    (WritesOnly.within (hp.imp fun l hl lib => ?_))
  cases l with
  | insertFile node file => cases hl
  | _ => trivial

theorem storeMaterial_follows (sha256 : Bytes → String) (u : Upload) :
    (treeProtocol ι).Follows i (fun _ _ => True)
      ((storeMaterial sha256 u).within (·.materials) .material) (fun _ => True) := by
  have htrue := stable_const (treeProtocol ι) i True
  have hread : ∀ {α : Type} {p : MaterialProgram α}, p.ReadOnly →
      (treeProtocol ι).Follows i (fun _ _ => True) (p.within (·.materials) .material)
        (fun _ => True) := fun hp => Follows.readOnly htrue (hp.within _ _)
  rw [storeMaterial, within_bind]
  refine Follows.bind (hread (readOnly_require _ _)) fun _ => ?_
  rw [within_bind]
  refine Follows.bind (hread (readOnly_require _ _)) fun _ => ?_
  rw [within_bind]
  refine Follows.bind (hread (readOnly_ofExcept _)) fun mime => ?_
  rw [within_bind]
  refine Follows.bind (hread (authorizeUpload_readOnly _ _)) fun _ => ?_
  rw [within_bind]
  have hwrite : (writeBlob (sha256 u.bytes) u.bytes u.faults).WritesOnly NoRows :=
    writeBlob_writes (c := NoRows) rfl (fun _ => rfl) _
  refine Follows.bind (follows_noRows hwrite) fun created => ?_
  rw [within_bind]
  refine Follows.bind (recordMaterial_checks u _ mime) fun result => ?_
  cases result with
  | ok node => exact Follows.ret htrue fun _ _ => trivial
  | error e =>
    dsimp only
    rw [within_bind]
    refine Follows.bind (Q := fun _ _ => True) ?_ fun _ => Follows.fail htrue
    split
    · exact follows_noRows ((cleanup_writes _ _).imp fun _ => inserted?_of_removes)
    · exact Follows.ret htrue fun _ _ => trivial

attribute [local irreducible] Protocol.Follows in
theorem handle_tree_follows (sha256 : Bytes → String) (r : LibraryRequest) :
    (treeProtocol ι).Follows i (fun _ _ => True) (handle sha256 r) (fun _ => True) := by
  have htrue := stable_const (treeProtocol ι) i True
  have hdone : ∀ {α : Type} {p : Program LibraryStore LibraryStatement HostError α}
      {f : α → LibraryReply}, (treeProtocol ι).Follows i (fun _ _ => True) p (fun _ => True) →
      (treeProtocol ι).Follows i (fun _ _ => True) (p >>= fun a => pure (f a)) (fun _ => True) :=
    fun hp => Follows.bind hp fun _ => Follows.ret htrue fun _ _ => trivial
  have hwrites : ∀ {α : Type} {p : Program LibraryStore LibraryStatement HostError α},
      p.WritesOnly (fun l => ∀ lib, ChecksFolder l lib) →
      (treeProtocol ι).Follows i (fun _ _ => True) p (fun _ => True) :=
    fun hp => Follows.of_writesOnly (fun l w hl => hl w.state.lib) hp
  cases r with
  | createNode env user req => exact hdone (createNode_follows env user req)
  | updateNode env user id req => exact hdone (updateNode_follows env user id req)
  | deleteNode user id =>
    refine hdone (hwrites (WritesOnly.within ?_))
    refine (readOnly_queryRow _ _).writesOnly.bind fun existing =>
      (requireWritable_readOnly existing user).writesOnly.bind fun _ => ?_
    exact writesOnly_execute fun _ => trivial
  | saveNote call =>
    exact hdone (hwrites (WritesOnly.within (writesOnly_of_forall (fun _ _ => trivial) _)))
  | material r =>
    refine hdone ?_
    cases r with
    | upload u =>
      rw [Materials.handle, within_bind]
      exact Follows.bind (storeMaterial_follows sha256 u) fun _ =>
        Follows.ret htrue fun _ _ => trivial
    | emptyTrash call =>
      exact follows_noRows (((emptyTrash_writes call).imp fun _ => inserted?_of_removes).bind
        fun _ => trivial)
  | deleteUser id school => exact hdone (hwrites (writesOnly_execute fun _ => trivial))

end Follows

/-- Whatever requests run, in whatever interleaving, the nodes are a forest. -/
theorem nodes_form_folder_forest {ι : Type} [DecidableEq ι] (sha256 : Bytes → String)
    (s : LibraryStore) (hs : FolderForest s.lib) (ms : List (Move ι LibraryRequest))
    (hids : (Pool.idle s : LibraryPool ι).Guarded (handle sha256) (fun _ => True) NewIds ms) :
    FolderForest ((Pool.idle s : LibraryPool ι).run (handle sha256) ms).world.state.lib := by
  have hidle : (treeProtocol ι).Running (fun _ _ _ _ => True) (Pool.idle s : LibraryPool ι) :=
    running_idle hs
  exact (running_run (fun _ r _ => handle_tree_follows sha256 r) hidle hids).1

theorem forest_empty (school : Database) : FolderForest { school } where
  acyclic a ha := by
    obtain ⟨b, hab, -⟩ := TransGen.head'_iff.mp ha
    cases hab
  parents _ hn := by cases hn

def sampleMove : List (Move Nat LibraryRequest) :=
  aloneRun 0 4 (sampleCreate 20 none .folder "Physics") ++
    aloneRun 1 4 (sampleCreate 30 none .folder "Optics") ++
    aloneRun 2 4 (.updateNode (sampleEnv 40) sampleStudent 3000 { parentId := some (some 2000) })

theorem nodes_form_folder_forest_sample :
    let moved := ((Pool.idle emptyLibrary : LibraryPool Nat).run (handle sampleSha256)
      sampleMove).world.state.lib
    parentOf moved 3000 = some 2000 ∧ FolderForest moved :=
  ⟨by decide +kernel, nodes_form_folder_forest sampleSha256 emptyLibrary (forest_empty _)
    sampleMove (by decide +kernel)⟩

end Cinder.Library
