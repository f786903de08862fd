import Cinder.Library.LibraryRequests
import Cinder.Materials.BlobUpkeep
set_option autoImplicit false

namespace Cinder.Library
open Cinder.Host Cinder.Storage Cinder.Programs Cinder.Notes Cinder.Materials

def bodiesOf (lib : LibraryTables) (id : Uuid) : List NoteBodyRow :=
  lib.noteBodies.rows.filter fun b => b.nodeId = id

def filesOf (lib : LibraryTables) (id : Uuid) : List FileRow :=
  lib.files.rows.filter fun f => f.nodeId = id

def HasItsContent (lib : LibraryTables) (n : NodeRow) : Prop :=
  (n.kind = .note → (bodiesOf lib n.id).length = 1 ∧ filesOf lib n.id = []) ∧
    (n.kind = .pdf → (filesOf lib n.id).length = 1) ∧
      (n.kind = .folder → bodiesOf lib n.id = [] ∧ filesOf lib n.id = [])

instance (lib : LibraryTables) (n : NodeRow) : Decidable (HasItsContent lib n) :=
  inferInstanceAs (Decidable (_ ∧ _))

/-- The statement inserts a node of kind `pdf` without a file. -/
def LibraryStatement.createsPdf : LibraryStatement → Bool
  | .node (.createNode _ n) => n.kind = .pdf
  | _ => false

/-- `ids` are the nodes of kind `k`. -/
def Belongs (k : NodeKind) (nodes : List NodeRow) (ids : List Uuid) : Prop :=
  ∀ id, id ∈ ids ↔ ∃ n ∈ nodes, n.id = id ∧ n.kind = k

/-- The bodies are those of the notes, and the files those of the file nodes. -/
structure Filled (lib : LibraryTables) : Prop where
  bodies : Belongs .note lib.nodes.rows (lib.noteBodies.rows.map (·.nodeId))
  files : Belongs .pdf lib.nodes.rows (lib.files.rows.map (·.nodeId))

section Belongs
variable {k : NodeKind} {nodes : List NodeRow} {ids : List Uuid}

theorem Belongs.insert (h : Belongs k nodes ids) {n : NodeRow} (hk : n.kind = k) :
    Belongs k (nodes ++ [n]) (ids ++ [n.id]) := by
  intro id
  simp only [List.mem_append, List.mem_singleton, h id]
  constructor
  · rintro (⟨m, hm, hid⟩ | rfl)
    · exact ⟨m, .inl hm, hid⟩
    · exact ⟨n, .inr rfl, rfl, hk⟩
  · rintro ⟨m, hm | rfl, hid, hmk⟩
    · exact .inl ⟨m, hm, hid, hmk⟩
    · exact .inr hid.symm

theorem Belongs.insert_other (h : Belongs k nodes ids) {n : NodeRow} (hk : n.kind ≠ k) :
    Belongs k (nodes ++ [n]) ids := by
  intro id
  rw [h id]
  constructor
  · rintro ⟨m, hm, hid⟩
    exact ⟨m, List.mem_append_left _ hm, hid⟩
  · rintro ⟨m, hm, hid, hmk⟩
    rcases List.mem_append.mp hm with hm | hm
    · exact ⟨m, hm, hid, hmk⟩
    · exact absurd (List.mem_singleton.mp hm ▸ hmk) hk

theorem Belongs.map (h : Belongs k nodes ids) {f : NodeRow → NodeRow}
    (hid : ∀ n, (f n).id = n.id) (hkind : ∀ n, (f n).kind = n.kind) :
    Belongs k (nodes.map f) ids := by
  intro id
  rw [h id]
  simp [hid, hkind]

theorem Belongs.filter (h : Belongs k nodes ids) (gone : List Uuid) :
    Belongs k (nodes.filter fun n => !gone.contains n.id)
      (ids.filter fun id => !gone.contains id) := by
  intro id
  simp only [List.mem_filter, h id]
  constructor
  · rintro ⟨⟨n, hn, rfl, hnk⟩, hgone⟩
    exact ⟨n, ⟨hn, hgone⟩, rfl, hnk⟩
  · rintro ⟨n, ⟨hn, hgone⟩, rfl, hnk⟩
    exact ⟨⟨n, hn, rfl, hnk⟩, hgone⟩

end Belongs

section Statements
variable {lib lib' : LibraryTables}

theorem map_nodeId_filter {Row : Type} (nodeId : Row → Uuid) (rows : List Row)
    (gone : List Uuid) : (rows.filter fun r => !gone.contains (nodeId r)).map nodeId =
      (rows.map nodeId).filter fun id => !gone.contains id := by
  rw [List.filter_map]
  rfl

theorem filled_deleteNodes (h : Filled lib) (ids : List Uuid) (school : Database) :
    Filled { deleteNodes lib ids with school } where
  bodies := by
    simp only [deleteNodes, deleteNoteBodies, Table.rows_delete, map_nodeId_filter]
    exact h.bodies.filter _
  files := by
    simp only [deleteNodes, Table.rows_delete, map_nodeId_filter]
    exact h.files.filter _

theorem filled_edited {id : Uuid} {parent? : Option (Option Uuid)} (h : Filled lib)
    (hedit : Edited id parent? lib lib') : Filled lib' := by
  obtain ⟨f, hf, -, hrows, hrest⟩ := hedit
  have hid : ∀ n : NodeRow, (if n.id = id then f n else n).id = n.id := fun n => by
    split
    · exact hf.id n
    · rfl
  have hkind : ∀ n : NodeRow, (if n.id = id then f n else n).kind = n.kind := fun n => by
    split
    · exact hf.kind n
    · rfl
  rw [hrest]
  refine ⟨?_, ?_⟩ <;> dsimp only <;> rw [hrows]
  · exact h.bodies.map hid hkind
  · exact h.files.map hid hkind

theorem filled_saveNoteTx (h : Filled lib) (note : Uuid) (docJson : Json) (plaintext : String)
    (now : Time) : Filled (saveNoteTx lib note docJson plaintext now) := by
  have hrows := rows_saveNoteTx lib note docJson plaintext now
  have hids : (saveNoteTx lib note docJson plaintext now).noteBodies.rows.map (·.nodeId) =
      lib.noteBodies.rows.map (·.nodeId) := by
    simp only [saveNoteTx, updateNoteBodies, Table.rows_update, List.map_map]
    refine List.map_congr_left fun b _ => ?_
    simp only [Function.comp]
    split <;> rfl
  have hid : ∀ n : NodeRow, (if n.id = note then touchNode now n else n).id = n.id := fun n => by
    split <;> rfl
  have hkind : ∀ n : NodeRow, (if n.id = note then touchNode now n else n).kind = n.kind :=
    fun n => by split <;> rfl
  refine ⟨?_, ?_⟩ <;> rw [hrows]
  · rw [hids]
    exact h.bodies.map hid hkind
  · exact h.files.map hid hkind

theorem filled_insertMaterial {node : NodeRow} {file : FileRow} (h : Filled lib)
    (hkind : node.kind = .pdf) (hfile : file.nodeId = node.id)
    (hins : insertMaterial lib node file = some lib') : Filled lib' := by
  obtain ⟨hnodes, hfiles, -, hrest⟩ := insertMaterial_some hins
  rw [hrest]
  refine ⟨?_, ?_⟩ <;> dsimp only <;> rw [Table.rows_insert hnodes]
  · exact h.bodies.insert_other (by simp [hkind])
  · rw [Table.rows_insert hfiles, List.map_append, List.map_singleton, hfile]
    exact h.files.insert hkind

theorem filled_createNodeTx {owner : Uuid} {node : NodeRow} (h : Filled lib)
    (hkind : node.kind ≠ .pdf) (hcreate : createNodeTx lib owner node = some lib') :
    Filled lib' := by
  obtain ⟨inserted, hinsert, hbody⟩ := Option.bind_eq_some_iff.mp hcreate
  obtain ⟨hnodes, -, hinserted⟩ := insertNode_some hinsert
  have hfiles : Belongs .pdf inserted.nodes.rows (inserted.files.rows.map (·.nodeId)) := by
    rw [Table.rows_insert hnodes, hinserted]
    exact h.files.insert_other hkind
  split at hbody
  · next hnote =>
    obtain ⟨-, hbodies, hlib'⟩ := insertNoteBody_some hbody
    rw [hlib']
    refine ⟨?_, hfiles⟩
    dsimp only
    rw [Table.rows_insert hbodies, List.map_append, List.map_singleton, Table.rows_insert hnodes,
      hinserted]
    exact h.bodies.insert (n := placed lib owner node) hnote
  · next hnote =>
    rw [← Option.some.inj hbody]
    refine ⟨?_, hfiles⟩
    rw [Table.rows_insert hnodes, hinserted]
    exact h.bodies.insert_other (n := placed lib owner node) hnote

/-- The new node of kind `pdf` is in the tables, and no file is its. -/
theorem created_without_file {owner : Uuid} {node : NodeRow} (h : Filled lib)
    (hkind : node.kind = .pdf) (hcreate : createNodeTx lib owner node = some lib') :
    placed lib owner node ∈ lib'.nodes.rows ∧ filesOf lib' node.id = [] := by
  obtain ⟨inserted, hinsert, hbody⟩ := Option.bind_eq_some_iff.mp hcreate
  obtain ⟨hnodes, -, hinserted⟩ := insertNode_some hinsert
  rw [if_neg (by simp [hkind])] at hbody
  rw [← Option.some.inj hbody]
  refine ⟨(Table.mem_insert hnodes).mpr (.inr rfl), List.filter_eq_nil_iff.mpr fun f hf hid => ?_⟩
  rw [hinserted] at hf
  obtain ⟨n, hn, hnid, -⟩ := (h.files f.nodeId).mp (List.mem_map_of_mem hf)
  have hclash := Table.clash_insert hnodes hn
  rw [decide_eq_true_eq] at hid
  simp [Keyed.clash, placed, hnid, hid] at hclash

end Statements

theorem length_filter_key {Row : Type} [Keyed Row] (t : Table Row) (p : Row → Bool)
    (huniq : ∀ r ∈ t.rows, ∀ r' ∈ t.rows, p r = true → p r' = true → Keyed.clash r r' = true)
    (hsome : ∃ r ∈ t.rows, p r = true) : (t.rows.filter p).length = 1 := by
  obtain ⟨r, hr, hp⟩ := hsome
  have hpair := t.unique.sublist (List.filter_sublist (p := p))
  rcases hrows : t.rows.filter p with _ | ⟨a, _ | ⟨b, rest⟩⟩
  · exact absurd hp (List.filter_eq_nil_iff.mp hrows r hr)
  · rfl
  · have hmem : ∀ x ∈ t.rows.filter p, x ∈ t.rows ∧ p x = true := fun x => List.mem_filter.mp
    rw [hrows] at hpair hmem
    obtain ⟨ha, hpa⟩ := hmem a (by simp)
    obtain ⟨hb, hpb⟩ := hmem b (by simp)
    have hab := (List.pairwise_cons.mp hpair).1 b (by simp)
    rw [huniq a ha b hb hpa hpb] at hab
    cases hab

theorem hasItsContent_of_filled {lib : LibraryTables} (h : Filled lib) {n : NodeRow}
    (hn : n ∈ lib.nodes.rows) : HasItsContent lib n := by
  have hsame : ∀ m ∈ lib.nodes.rows, m.id = n.id → m = n := fun m hm hid =>
    Table.eq_of_clash hm hn (decide_eq_true hid)
  have hbodies : n.kind ≠ .note → bodiesOf lib n.id = [] := fun hk => by
    refine List.filter_eq_nil_iff.mpr fun b hb hid => hk ?_
    obtain ⟨m, hm, hmid, hmk⟩ := (h.bodies b.nodeId).mp (List.mem_map_of_mem hb)
    rw [decide_eq_true_eq] at hid
    exact hsame m hm (hmid.trans hid) ▸ hmk
  have hfiles : n.kind ≠ .pdf → filesOf lib n.id = [] := fun hk => by
    refine List.filter_eq_nil_iff.mpr fun f hf hid => hk ?_
    obtain ⟨m, hm, hmid, hmk⟩ := (h.files f.nodeId).mp (List.mem_map_of_mem hf)
    rw [decide_eq_true_eq] at hid
    exact hsame m hm (hmid.trans hid) ▸ hmk
  refine ⟨fun hk => ?_, fun hk => ?_, fun hk => ⟨hbodies (by simp [hk]), hfiles (by simp [hk])⟩⟩
  · obtain ⟨b, hb, hid⟩ := List.mem_map.mp ((h.bodies n.id).mpr ⟨n, hn, rfl, hk⟩)
    refine ⟨length_filter_key _ _ (fun b _ b' _ hb hb' => ?_) ⟨b, hb, decide_eq_true hid⟩,
      hfiles (by simp [hk])⟩
    rw [decide_eq_true_eq] at hb hb'
    exact decide_eq_true (hb.trans hb'.symm)
  · obtain ⟨f, hf, hid⟩ := List.mem_map.mp ((h.files n.id).mpr ⟨n, hn, rfl, hk⟩)
    refine length_filter_key _ _ (fun f _ f' _ hf hf' => ?_) ⟨f, hf, decide_eq_true hid⟩
    rw [decide_eq_true_eq] at hf hf'
    exact decide_eq_true (hf.trans hf'.symm)

/-- An upload inserts a node of kind `pdf` together with its file. -/
def UploadsPair : MaterialStatement → Prop
  | .insertFile node file => node.kind = .pdf ∧ file.nodeId = node.id
  | _ => True

def KeepsPairs : LibraryStatement → Prop
  | .material l => UploadsPair l
  | _ => True

theorem uploadsPair_of_none {l : MaterialStatement} (hl : l.inserted? = none) : UploadsPair l := by
  cases l with
  | insertFile node file => cases hl
  | _ => trivial

attribute [local irreducible] Program.WritesOnly in
theorem handle_writes (sha256 : Bytes → String) (r : LibraryRequest) :
    (handle sha256 r).WritesOnly KeepsPairs := by
  have hnode : ∀ {α : Type} (p : NodeProgram α),
      (p.within (·.lib) .node : Program LibraryStore _ _ α).WritesOnly KeepsPairs := fun p =>
    Program.WritesOnly.within (Program.writesOnly_of_forall (fun _ => trivial) p)
  cases r with
  | createNode env user req => exact (hnode _).bind fun _ => Program.writesOnly_pure _
  | updateNode env user id req => exact (hnode _).bind fun _ => Program.writesOnly_pure _
  | deleteNode user id => exact (hnode _).bind fun _ => Program.writesOnly_pure _
  | saveNote call =>
    refine Program.WritesOnly.bind (Program.WritesOnly.within ?_) fun _ =>
      Program.writesOnly_pure _
    exact Program.writesOnly_of_forall (fun _ => trivial) _
  | material r =>
    refine Program.WritesOnly.bind (Program.WritesOnly.within ?_) fun _ =>
      Program.writesOnly_pure _
    exact handle_writesOnly r (fun _ => uploadsPair_of_none) fun _ _ _ => ⟨rfl, rfl⟩
  | deleteUser id school =>
    exact (Program.writesOnly_execute trivial).bind fun _ => Program.writesOnly_pure _

theorem filled_change {l : LibraryStatement} {lib lib' : LibraryTables} (hlib : Filled lib)
    (hl : KeepsPairs l) (hpdf : l.createsPdf = false) (h : LibraryChange lib l lib') :
    Filled lib' := by
  cases h with
  | same => exact hlib
  | created owner node lib' hcreate =>
    exact filled_createNodeTx hlib (by simpa [LibraryStatement.createsPdf] using hpdf) hcreate
  | edited existing user req now lib' hedit => exact filled_edited hlib hedit
  | saved l note docJson plaintext now => exact filled_saveNoteTx hlib note docJson plaintext now
  | uploaded node file lib' hupload => exact filled_insertMaterial hlib hl.1 hl.2 hupload
  | deleted l ids school => exact filled_deleteNodes hlib ids school

theorem created_of_createsPdf {l : LibraryStatement} {s s' : LibraryStore}
    (hpdf : l.createsPdf = true) (h : l.run s = .ok s') :
    ∃ owner node, node.kind = .pdf ∧ createNodeTx s.lib owner node = some s'.lib := by
  cases l with
  | node l =>
    cases l with
    | createNode owner node =>
      obtain ⟨lib, hrun, rfl⟩ := map_eq_ok h
      exact ⟨owner, node, of_decide_eq_true hpdf, stored_eq_ok.mp hrun⟩
    | updateNode existing user req now => cases hpdf
    | deleteNode id => cases hpdf
  | note l => cases hpdf
  | material l => cases hpdf
  | deleteUser id school => cases hpdf

/-- Exactly as long as no file node is created without an upload, every node has
its content. -/
theorem nodes_have_their_content_iff {ι : Type} [DecidableEq ι] (sha256 : Bytes → String)
    (s : LibraryStore) (hs : Filled s.lib) (ms : List (Move ι LibraryRequest)) :
    (Pool.idle s : LibraryPool ι).Guarded (handle sha256) (fun _ => True)
        (fun _ l _ => l.createsPdf = false) ms ↔
      ∀ ns, ns <+: ms → ∀ n ∈ ((Pool.idle s : LibraryPool ι).run (handle sha256)
        ns).world.state.lib.nodes.rows, HasItsContent ((Pool.idle s : LibraryPool ι).run
          (handle sha256) ns).world.state.lib n := by
  refine Pool.guarded_iff (I := fun w : LibraryWorld ι => Filled w.state.lib)
    (P := fun w : LibraryWorld ι => ∀ n ∈ w.state.lib.nodes.rows, HasItsContent w.state.lib n)
    (handle_writes sha256) (fun _ l w w' hw hl hg hwrote => ?_) (fun w hw n hn => ?_)
    (fun _ l w w' hw hl hwrote hP => ?_) hs (fun _ _ _ hp => by cases hp) ms fun _ _ _ => trivial
  · exact filled_change hw hl hg (LibraryStatement.change hwrote.1)
  · exact hasItsContent_of_filled hw hn
  · by_contra hpdf
    rw [Bool.not_eq_false] at hpdf
    obtain ⟨owner, node, hkind, hcreate⟩ := created_of_createsPdf hpdf hwrote.1
    obtain ⟨hmem, hnone⟩ := created_without_file hw hkind hcreate
    have hcontent := (hP _ hmem).2.1 hkind
    rw [show (placed w.state.lib owner node).id = node.id from rfl, hnone] at hcontent
    cases hcontent

theorem filled_empty (school : Database) : Filled { school } :=
  ⟨fun id => by simp, fun id => by simp⟩

def sampleTree : List (Move Nat LibraryRequest) :=
  aloneRun 0 4 (sampleCreate 20 none .folder "Physics") ++
    aloneRun 1 8 (sampleCreate 30 (some 2000) .note "Light")

theorem nodes_have_their_content_iff_sample :
    ((Pool.idle emptyLibrary : LibraryPool Nat).run (handle sampleSha256)
      sampleTree).world.state.lib.nodes.rows.length = 2 ∧
    ∀ ns, ns <+: sampleTree → ∀ n ∈ ((Pool.idle emptyLibrary : LibraryPool Nat).run
      (handle sampleSha256) ns).world.state.lib.nodes.rows,
        HasItsContent ((Pool.idle emptyLibrary : LibraryPool Nat).run (handle sampleSha256)
          ns).world.state.lib n :=
  ⟨by decide +kernel, (nodes_have_their_content_iff sampleSha256 emptyLibrary (filled_empty _)
    sampleTree).mp (by decide +kernel)⟩

/-- The sample student asks for a node of kind `pdf`. -/
def sampleBareFile : List (Move Nat LibraryRequest) :=
  aloneRun 0 4 (sampleCreate 20 none .pdf "Slides")

theorem created_file_has_no_content :
    ¬∀ n ∈ ((Pool.idle emptyLibrary : LibraryPool Nat).run (handle sampleSha256)
      sampleBareFile).world.state.lib.nodes.rows, HasItsContent ((Pool.idle emptyLibrary :
        LibraryPool Nat).run (handle sampleSha256) sampleBareFile).world.state.lib n := by
  decide +kernel

end Cinder.Library
