import Cinder.Library.FolderForest
import Cinder.Materials.BlobUpkeep
set_option autoImplicit false

/-!
The positions of nodes among their siblings, which the users set and `create_node`
computes from the last one.
-/

namespace Cinder.Library
open Cinder.Host Cinder.Storage Cinder.Programs Cinder.Notes Cinder.Materials

def lastPosition (lib : LibraryTables) (parentId : Option Uuid) (owner : Uuid) : Int :=
  ((siblings lib parentId owner).map (·.position)).max?.getD 0

def StandsLast (lib lib' : LibraryTables) (owner : Uuid) (node : NodeRow) : Prop :=
  ∃ n, node? lib' node.id = some n ∧
    ∀ m ∈ siblings lib node.parentId owner, m.position < n.position

def HasRoom (lib : LibraryTables) (parentId : Option Uuid) (owner : Uuid) : Prop :=
  ∀ m ∈ siblings lib parentId owner, m.position + positionStep ≤ 9223372036854775807

def PositionsFit (lib : LibraryTables) : Prop := ∀ n ∈ lib.nodes.rows, FitsI64 n.position

def LibraryRequest.Fits : LibraryRequest → Prop
  | .updateNode _ _ _ req => ∀ p, req.position = some p → FitsI64 p
  | _ => True

def LibraryStatement.Fits : LibraryStatement → Prop
  | .node (.updateNode _ _ req _) => ∀ p, req.position = some p → FitsI64 p
  | .material (.insertFile n _) => FitsI64 n.position
  | _ => True

section Siblings
variable {lib : LibraryTables} {parentId : Option Uuid} {owner : Uuid}

theorem mem_of_siblings {m : NodeRow} (h : m ∈ siblings lib parentId owner) :
    m ∈ lib.nodes.rows := by
  cases parentId with
  | none => exact (List.mem_filter.mp h).1
  | some p => exact (List.mem_filter.mp h).1

theorem le_lastPosition {m : NodeRow} (h : m ∈ siblings lib parentId owner) :
    m.position ≤ lastPosition lib parentId owner := by
  have hmem : m.position ∈ (siblings lib parentId owner).map (·.position) :=
    List.mem_map.mpr ⟨m, h, rfl⟩
  obtain ⟨greatest, hmax⟩ := Option.isSome_iff_exists.mp (List.isSome_max?_of_mem hmem)
  rw [lastPosition, hmax]
  exact (List.max?_le_iff hmax).mp (Int.le_refl _) _ hmem

variable (lib parentId owner) in
theorem lastPosition_cases :
    (siblings lib parentId owner = [] ∧ lastPosition lib parentId owner = 0) ∨
    ∃ m ∈ siblings lib parentId owner, m.position = lastPosition lib parentId owner := by
  unfold lastPosition
  cases hmax : ((siblings lib parentId owner).map (·.position)).max? with
  | none => exact .inl ⟨by simpa using List.max?_eq_none_iff.mp hmax, rfl⟩
  | some p =>
    obtain ⟨m, hm, hp⟩ := List.mem_map.mp (List.max?_mem hmax)
    exact .inr ⟨m, hm, hp⟩

theorem fits_lastPosition (h : PositionsFit lib) : FitsI64 (lastPosition lib parentId owner) := by
  rcases lastPosition_cases lib parentId owner with h0 | ⟨m, hm, hp⟩
  · rw [h0.2]
    decide
  · rw [← hp]
    exact h m (mem_of_siblings hm)

theorem fits_iff_hasRoom (hlib : PositionsFit lib) :
    FitsI64 (lastPosition lib parentId owner + positionStep) ↔ HasRoom lib parentId owner := by
  have hlast : FitsI64 (lastPosition lib parentId owner) := fits_lastPosition hlib
  constructor
  · intro hfits m hm
    have hle := le_lastPosition hm
    have hhigh := hfits.2
    omega
  · intro hroom
    unfold FitsI64 positionStep at *
    rcases lastPosition_cases lib parentId owner with
      h0 | ⟨m, hm, hp⟩
    · omega
    · have hle := hroom m hm
      unfold positionStep at hle
      omega

end Siblings

/-- What `create_node` stores comes last as long as there is room. Otherwise the sum wraps
around, and it comes before the sibling that was last. -/
theorem standsLast_iff {lib lib' : LibraryTables} {owner : Uuid} {node : NodeRow}
    (hlib : PositionsFit lib) (h : createNodeTx lib owner node = some lib') :
    StandsLast lib lib' owner node ↔ HasRoom lib node.parentId owner := by
  have hstored : node? lib' node.id = some (placed lib owner node) :=
    node?_insert_self (n := placed lib owner node) (nodes_createNodeTx h).1
  have hposition : (placed lib owner node).position =
      wrapI64 (lastPosition lib node.parentId owner + positionStep) := rfl
  rw [← fits_iff_hasRoom hlib]
  constructor
  · rintro ⟨n, hn, hbehind⟩
    rw [hstored] at hn
    cases hn
    by_contra hlarge
    have hlt := wrapI64_add_lt (fits_lastPosition hlib) (by decide) hlarge (by decide)
    rcases lastPosition_cases lib node.parentId owner with
      h0 | ⟨m, hm, hp⟩
    · rw [h0.2] at hlarge
      exact hlarge (by decide)
    · have hlast := hbehind m hm
      omega
  · intro hfits
    refine ⟨_, hstored, fun m hm => ?_⟩
    have hle := le_lastPosition hm
    rw [hposition, wrapI64_of_fits hfits]
    unfold positionStep
    omega

theorem fits_createNodeTx {lib lib' : LibraryTables} {owner : Uuid} {node : NodeRow}
    (hlib : PositionsFit lib) (h : createNodeTx lib owner node = some lib') : PositionsFit lib' := by
  intro n hn
  rcases (Table.mem_insert (nodes_createNodeTx h).1).mp hn with hold | rfl
  · exact hlib n hold
  · exact fitsI64_wrapI64 _

theorem fits_updateNodeRow {lib : LibraryTables} {id : Uuid} {f : NodeRow → NodeRow}
    {hf : Table.KeepsKeys f} (hlib : PositionsFit lib)
    (hfits : ∀ n, FitsI64 n.position → FitsI64 (f n).position) :
    PositionsFit (updateNodeRow lib id f hf) := by
  intro n hn
  simp only [updateNodeRow, Table.rows_update] at hn
  obtain ⟨m, hm, rfl⟩ := List.mem_map.mp hn
  split
  · exact hfits m (hlib m hm)
  · exact hlib m hm

theorem fits_updateNodeTx {lib lib' : LibraryTables} {existing : NodeRow} {user : CurrentUser}
    {req : UpdateNodeRequest} {now : Time} (hlib : PositionsFit lib)
    (hreq : ∀ p, req.position = some p → FitsI64 p)
    (h : updateNodeTx lib existing user req now = .ok lib') : PositionsFit lib' := by
  obtain ⟨moved, hmoved, h⟩ := bind_eq_ok.mp h
  obtain ⟨renamed, hrenamed, h⟩ := bind_eq_ok.mp h
  obtain ⟨n, -, hok⟩ := elim_eq_ok h
  cases hok
  have hfits₁ : PositionsFit moved := by
    unfold moveNode at hmoved
    split at hmoved
    · cases hmoved
      exact hlib
    · obtain ⟨u, -, hrow⟩ := bind_eq_ok.mp hmoved
      cases hrow
      exact fits_updateNodeRow hlib fun _ h => h
  have hfits₂ : PositionsFit renamed := by
    unfold renameNode at hrenamed
    split at hrenamed
    · cases hrenamed
      exact hfits₁
    · split at hrenamed
      · cases hrenamed
      · cases hrenamed
        exact fits_updateNodeRow hfits₁ fun _ h => h
  have hfits₃ : PositionsFit (reorderNode renamed existing.id req.position) := by
    cases hp : req.position with
    | none => exact hfits₂
    | some p => exact fits_updateNodeRow hfits₂ fun _ _ => hreq p hp
  refine fits_updateNodeRow ?_ fun _ h => h
  cases req.icon with
  | none => exact hfits₃
  | some icon => exact fits_updateNodeRow hfits₃ fun _ h => h

theorem fits_step {l : LibraryStatement} {s s' : LibraryStore} (hs : PositionsFit s.lib)
    (hl : l.Fits) (h : l.run s = .ok s') : PositionsFit s'.lib := by
  have hchange := LibraryStatement.change h
  generalize hlib : s.lib = lib at hs hchange
  generalize hlib' : s'.lib = lib' at hchange
  cases hchange with
  | same => exact hs
  | created owner node lib' hcreate => exact fits_createNodeTx hs hcreate
  | edited existing user req now lib' hedit =>
    obtain ⟨updated, hrun, rfl⟩ := map_eq_ok h
    subst hlib hlib'
    exact fits_updateNodeTx hs hl hrun
  | saved l note docJson plaintext now =>
    intro n hn
    rw [rows_saveNoteTx] at hn
    obtain ⟨m, hm, rfl⟩ := List.mem_map.mp hn
    split
    · exact hs m hm
    · exact hs m hm
  | uploaded node file lib' hupload =>
    intro n hn
    rcases (Table.mem_insert (insertMaterial_some hupload).1).mp hn with hold | rfl
    · exact hs n hold
    · exact hl
  | deleted l ids school => exact fun n hn => hs n (List.mem_filter.mp hn).1

theorem requireParent_readOnly (user : CurrentUser) (req : CreateNodeRequest) :
    (requireParent user req).ReadOnly := by
  unfold requireParent
  split
  · trivial
  · exact (Program.readOnly_queryRow _ _).bind fun _ => (Program.readOnly_ofExcept _).bind fun _ =>
      (Program.readOnly_require _ _).bind fun _ => Program.readOnly_require _ _

attribute [local irreducible] Program.WritesOnly in
theorem handle_fits (sha256 : Bytes → String) {r : LibraryRequest} (hr : r.Fits) :
    (handle sha256 r).WritesOnly LibraryStatement.Fits := by
  cases r with
  | createNode env user req =>
    refine Program.WritesOnly.bind (Program.WritesOnly.within ?_) fun _ => Program.writesOnly_pure _
    refine (Program.readOnly_require _ _).writesOnly.bind fun _ => ?_
    refine (requireParent_readOnly user req).writesOnly.bind fun _ => ?_
    refine (requireClassroom_readOnly user req.classroomId).writesOnly.bind fun _ => ?_
    exact Program.writesOnly_executeReturning _ trivial
  | updateNode env user id req =>
    refine Program.WritesOnly.bind (Program.WritesOnly.within ?_) fun _ => Program.writesOnly_pure _
    refine (Program.readOnly_queryRow _ _).writesOnly.bind fun existing => ?_
    refine (requireWritable_readOnly existing user).writesOnly.bind fun _ => ?_
    have hreq : ∀ p, req.position = some p → FitsI64 p := hr
    refine Program.WritesOnly.bind (Program.writesOnly_executeReturning _ hreq) fun _ => ?_
    exact (Program.readOnly_ofExcept _).writesOnly
  | deleteNode user id =>
    refine Program.WritesOnly.bind (Program.WritesOnly.within ?_) fun _ => Program.writesOnly_pure _
    refine (Program.readOnly_queryRow _ _).writesOnly.bind fun existing => ?_
    refine (requireWritable_readOnly existing user).writesOnly.bind fun _ => ?_
    exact Program.writesOnly_execute trivial
  | saveNote call =>
    refine Program.WritesOnly.bind (Program.WritesOnly.within ?_) fun _ => Program.writesOnly_pure _
    exact Program.writesOnly_of_forall (fun _ => trivial) _
  | material r =>
    refine Program.WritesOnly.bind (Program.WritesOnly.within ?_) fun _ => Program.writesOnly_pure _
    refine handle_writesOnly r (fun l hl => ?_) fun u _ _ => (by decide : FitsI64 positionStep)
    cases l with
    | insertFile node file => cases hl
    | _ => trivial
  | deleteUser id school =>
    exact (Program.writesOnly_execute trivial).bind fun _ => Program.writesOnly_pure _

section Runs
variable (ι : Type)

/-- The positions fit, now and whenever a statement has been executed. -/
def positionProtocol : Protocol ι LibraryStore LibraryStatement where
  inv w := PositionsFit w.state.lib ∧
    ∀ e ∈ w.history, PositionsFit e.before.lib ∧ ∃ s, e.label.run e.before = .ok s
  guard _ _ _ := True
  promise _ l _ := l.Fits
  inv_step i l w w' hw _ hl hwrote := by
    refine ⟨fits_step hw.1 hl hwrote.1, fun e he => ?_⟩
    rw [hwrote.2] at he
    rcases List.mem_cons.mp he with rfl | he
    · exact ⟨hw.1, _, hwrote.1⟩
    · exact hw.2 e he

variable {ι}

theorem handle_position_follows (sha256 : Bytes → String) (i : ι) {r : LibraryRequest}
    (hr : r.Fits) :
    (positionProtocol ι).Follows i (fun _ _ => True) (handle sha256 r) (fun _ => True) :=
  Protocol.Follows.of_writesOnly (fun _ _ hl => hl) (handle_fits sha256 hr)

variable [DecidableEq ι]

theorem positions_run (sha256 : Bytes → String) {s : LibraryStore} (hs : PositionsFit s.lib)
    {ms : List (Move ι LibraryRequest)} (hms : ∀ i r, Move.start i r ∈ ms → r.Fits) :
    (positionProtocol ι).inv ((Pool.idle s : LibraryPool ι).run (handle sha256) ms).world := by
  have hrun := Protocol.running_run (fun i r hr => handle_position_follows sha256 i hr)
    (Protocol.running_idle ⟨hs, fun e he => by cases he⟩)
    (Pool.guarded_of_prefixes (P := fun _ => True) (fun _ _ _ _ _ _ => trivial) hms
      fun _ _ => trivial)
  exact hrun.1

/-- A node that is created in any run gets a position without overflow, and behind all its
siblings, if and only if there is room behind the last of them. -/
theorem new_nodes_go_last_iff (sha256 : Bytes → String) (s : LibraryStore)
    (hs : PositionsFit s.lib) (ms : List (Move ι LibraryRequest))
    (hms : ∀ i r, Move.start i r ∈ ms → r.Fits) :
    ∀ e ∈ ((Pool.idle s : LibraryPool ι).run (handle sha256) ms).world.history,
      ∀ owner node, e.label = .node (.createNode owner node) →
        ∃ lib', createNodeTx e.before.lib owner node = some lib' ∧
          (FitsI64 (lastPosition e.before.lib node.parentId owner + positionStep) ↔
            HasRoom e.before.lib node.parentId owner) ∧
          (StandsLast e.before.lib lib' owner node ↔ HasRoom e.before.lib node.parentId owner) := by
  intro e he owner node hlabel
  obtain ⟨hfit, s', hrun⟩ := (positions_run sha256 hs hms).2 e he
  rw [hlabel] at hrun
  obtain ⟨lib', hcreate, -⟩ := map_eq_ok hrun
  have hcreated := stored_eq_ok.mp hcreate
  exact ⟨lib', hcreated, fits_iff_hasRoom hfit, standsLast_iff hfit hcreated⟩

end Runs

def sampleFolders (position : Int) : List (Move Nat LibraryRequest) :=
  aloneRun 0 4 (sampleCreate 20 none .folder "Physics") ++
    aloneRun 1 4 (.updateNode (sampleEnv 25) sampleStudent 2000 { position := some position }) ++
      aloneRun 2 4 (sampleCreate 30 none .folder "Chemistry")

theorem sampleFolders_fits {position : Int} (h : FitsI64 position) {i : Nat} {r : LibraryRequest}
    (hr : Move.start i r ∈ sampleFolders position) : r.Fits := by
  simp only [sampleFolders, aloneRun, List.mem_append, List.mem_cons, Move.start.injEq,
    List.mem_replicate, reduceCtorEq, and_false, or_false] at hr
  rcases hr with (⟨-, rfl⟩ | ⟨-, rfl⟩) | ⟨-, rfl⟩
  · trivial
  · exact fun p hp => Option.some.inj hp ▸ h
  · trivial

theorem new_nodes_go_last_iff_sample :
    ((Pool.idle emptyLibrary : LibraryPool Nat).run (handle sampleSha256)
      (sampleFolders 512)).world.history.length = 3 ∧
    ∀ e ∈ ((Pool.idle emptyLibrary : LibraryPool Nat).run (handle sampleSha256)
        (sampleFolders 512)).world.history,
      ∀ owner node, e.label = .node (.createNode owner node) →
        ∃ lib', createNodeTx e.before.lib owner node = some lib' ∧
          (FitsI64 (lastPosition e.before.lib node.parentId owner + positionStep) ↔
            HasRoom e.before.lib node.parentId owner) ∧
          (StandsLast e.before.lib lib' owner node ↔ HasRoom e.before.lib node.parentId owner) :=
  ⟨by decide +kernel, new_nodes_go_last_iff sampleSha256 emptyLibrary (fun n hn => by cases hn)
    (sampleFolders 512) fun _ _ => sampleFolders_fits (by decide)⟩

/-- After a folder has been moved to the largest position, the next one is stored before it. -/
theorem new_node_stored_before_its_sibling :
    ∃ n ∈ ((Pool.idle emptyLibrary : LibraryPool Nat).run (handle sampleSha256)
      (sampleFolders 9223372036854775807)).world.state.lib.nodes.rows,
    ∃ m ∈ ((Pool.idle emptyLibrary : LibraryPool Nat).run (handle sampleSha256)
      (sampleFolders 9223372036854775807)).world.state.lib.nodes.rows,
      n.createdAt = 30 ∧ m.createdAt = 20 ∧ n.parentId = m.parentId ∧ n.ownerId = m.ownerId ∧
        ¬FitsI64 (m.position + positionStep) ∧ n.position < m.position := by
  decide +kernel

end Cinder.Library
