import Cinder.Materials.BlobUpkeep
set_option autoImplicit false

/-!
Whether every file row has its blob file. A removal is decided on a count of
references, and an upload on the presence of the file, each some steps before it
acts.
-/

namespace Cinder.Materials
open Cinder.Host Cinder.Storage Cinder.Library Cinder.Programs Cinder.Programs.Program
open Cinder.Programs.Protocol

def BlobsKept (s : MaterialStore) : Prop :=
  ∀ f ∈ s.lib.files.rows, (s.blob? f.sha256).isSome = true

def Unreferenced (l : MaterialStatement) (s : MaterialStore) : Prop :=
  ∀ digest ∈ l.removed?, referenced s digest = false

def takesAway (digest : String) (l : MaterialStatement) : Bool := l.removed? = some digest

instance (s : MaterialStore) : Decidable (BlobsKept s) :=
  inferInstanceAs (Decidable (∀ f ∈ s.lib.files.rows, _))

instance (l : MaterialStatement) (s : MaterialStore) : Decidable (Unreferenced l s) :=
  inferInstanceAs (Decidable (∀ digest ∈ l.removed?, _))

theorem blob?_step {l : MaterialStatement} {s s' : MaterialStore} {digest : String}
    (h : l.run s = .ok s') (hl : takesAway digest l = false)
    (hs : (s.blob? digest).isSome = true) : (s'.blob? digest).isSome = true := by
  cases l with
  | pathExists d bytes => cases h; exact hs
  | insertFile node file => cases h; exact hs
  | deleteNodes ids => cases h; exact hs
  | writeBlob d bytes kept =>
    cases h
    rw [MaterialStore.blob?_setBlob]
    split
    · rfl
    · exact hs
  | removeBlob d =>
    cases h
    have hne : digest ≠ d := fun hd => by simp [takesAway, MaterialStatement.removed?, hd] at hl
    rw [MaterialStore.blob?_setBlob, if_neg hne]
    exact hs

theorem files_insertMaterial {lib lib' : LibraryTables} {node : NodeRow} {file : FileRow}
    (h : insertMaterial lib node file = some lib') :
    lib'.files.rows = lib.files.rows ++ [file] := by
  simp only [insertMaterial, Option.bind_eq_bind, Option.bind_eq_some_iff, pure,
    Option.some.injEq] at h
  obtain ⟨-, -, -, -, -, -, nodes, -, files, hfiles, rfl⟩ := h
  exact Table.rows_insert hfiles

theorem files_step {l : MaterialStatement} {s s' : MaterialStore} {f : FileRow}
    (h : l.run s = .ok s') (hf : f ∈ s'.lib.files.rows) :
    f ∈ s.lib.files.rows ∨ ∃ node, l = .insertFile node f := by
  cases l with
  | pathExists d bytes => cases h; exact .inl hf
  | writeBlob d bytes kept => cases h; exact .inl hf
  | removeBlob d => cases h; exact .inl hf
  | deleteNodes ids =>
    cases h
    exact .inl (Table.mem_delete.mp hf).1
  | insertFile node file =>
    cases h
    cases hins : insertMaterial s.lib node file with
    | none => exact .inl (by simpa [hins] using hf)
    | some lib' =>
      simp only [hins, Option.getD_some, files_insertMaterial hins, List.mem_append,
        List.mem_singleton] at hf
      exact hf.imp id fun hf => ⟨node, by rw [hf]⟩

section Upkeep
variable {sha256 : Bytes → String} {inputs : Bytes → Prop}

theorem upkeep_isSome : Upkeep sha256 inputs takesAway (fun _ content => content.isSome = true)
    Unreferenced where
  keeps _ _ _ _ _ _ hrun hl hs := blob?_step hrun hl hs
  found _ _ _ _ hs := hs
  written _ _ := rfl

theorem blobsKept_step (l : MaterialStatement) (s s' : MaterialStore) (hs : BlobsKept s)
    (hsafe : Unreferenced l s)
    (hl : BlobPromise sha256 inputs (fun _ content => content.isSome = true) l s)
    (hrun : l.run s = .ok s') : BlobsKept s' := by
  intro f hf
  cases htake : takesAway f.sha256 l with
  | false =>
    rcases files_step hrun hf with hold | ⟨node, rfl⟩
    · exact blob?_step hrun htake (hs f hold)
    · exact blob?_step hrun htake hl
  | true =>
    -- a removed digest has no row, before and after
    cases l with
    | removeBlob digest =>
      have hnone := hsafe digest rfl
      cases hrun
      simp only [takesAway, MaterialStatement.removed?, decide_eq_true_eq, Option.some.injEq]
        at htake
      simp only [referenced, List.any_eq_false, decide_eq_true_eq] at hnone
      exact absurd htake.symm (hnone f hf)
    | pathExists d bytes => simp [takesAway, MaterialStatement.removed?] at htake
    | writeBlob d bytes kept => simp [takesAway, MaterialStatement.removed?] at htake
    | insertFile node file => simp [takesAway, MaterialStatement.removed?] at htake
    | deleteNodes ids => simp [takesAway, MaterialStatement.removed?] at htake

end Upkeep

variable {ι : Type} [DecidableEq ι]

/-- While files are removed only unreferenced, and not between an upload's look
at the file and its rows, no referenced blob is missing. -/
theorem referenced_blobs_are_kept (sha256 : Bytes → String) (s : MaterialStore)
    (hs : BlobsKept s) (ms : List (Move ι MaterialRequest))
    (h : (Pool.idle s : MaterialPool ι).Guarded (handle sha256) (fun _ => True)
      (fun i l w => Unreferenced l w.state ∧ Unspoiled takesAway i l w) ms) :
    BlobsKept ((Pool.idle s : MaterialPool ι).run (handle sha256) ms).world.state := by
  have hidle : (blobProtocol sha256 (fun _ => True) takesAway
      (fun _ content => content.isSome = true) Unreferenced ι BlobsKept blobsKept_step).inv
      ⟨s, []⟩ := hs
  exact (running_run (fun i r _ => handle_follows upkeep_isSome i r fun _ _ => trivial)
    (running_idle hidle) h).1

def emptyThenUpload : List (Move Bool MaterialRequest) :=
  .start false (.emptyTrash {}) :: List.replicate 4 (.advance false) ++
    .start true (sampleUpload 20 {}) :: List.replicate 3 (.advance true)

theorem referenced_blobs_are_kept_sample :
    BlobsKept ((Pool.idle sampleTrash : MaterialPool Bool).run (handle sampleSha256)
      emptyThenUpload).world.state :=
  referenced_blobs_are_kept sampleSha256 sampleTrash (by decide +kernel) emptyThenUpload
    (by decide +kernel)

/-- The upload finds the file, the trash is emptied, and the upload inserts its
rows. -/
def emptyDuringUpload : List (Move Bool MaterialRequest) :=
  .start true (sampleUpload 20 {}) :: .advance true :: .start false (.emptyTrash {}) ::
    List.replicate 4 (.advance false) ++ [.advance true]

/-- Both requests succeed, and the new row refers to a file that is gone. -/
theorem emptied_trash_takes_uploaded_blob :
    BlobsKept sampleTrash ∧
    let c := (Pool.idle sampleTrash : MaterialPool Bool).run (handle sampleSha256)
      emptyDuringUpload
    (∀ i, ∃ r a, c.procs i = some (r, .ret a)) ∧ ¬BlobsKept c.world.state := by
  refine ⟨by decide +kernel, fun i => ?_, by decide +kernel⟩
  cases i with
  | false => exact ⟨_, _, rfl⟩
  | true => exact ⟨_, _, rfl⟩

end Cinder.Materials
