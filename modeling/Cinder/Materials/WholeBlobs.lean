import Mathlib.Data.Set.Function
import Cinder.Materials.BlobUpkeep
set_option autoImplicit false

/-!
Whether an upload that succeeds has its content on disk. A file that is already
at the path is taken for the content, whoever left it there.
-/

namespace Cinder.Materials
open Cinder.Host Cinder.Storage Cinder.Library Cinder.Programs Cinder.Programs.Program
open Cinder.Programs.Protocol

def FoundWhole (l : MaterialStatement) (s : MaterialStore) : Prop :=
  ∀ x ∈ l.checked?, ∀ content ∈ s.blob? x.1, content = x.2

def breaks (digest : String) : MaterialStatement → Bool
  | .removeBlob d => d = digest
  | .writeBlob d bytes kept => d = digest && kept < bytes.length
  | _ => false

instance (l : MaterialStatement) (s : MaterialStore) : Decidable (FoundWhole l s) :=
  inferInstanceAs (Decidable (∀ x ∈ l.checked?, _))

def Whole (sha256 : Bytes → String) (inputs : Set Bytes) (digest : String)
    (content : Option Bytes) : Prop :=
  ∃ bytes ∈ inputs, sha256 bytes = digest ∧ content = some bytes

/-- If the move is the one with which an upload succeeds, then its blob file
holds exactly the uploaded bytes. -/
def ReturnsWhole {ι : Type} [DecidableEq ι] (sha256 : Bytes → String) (c : MaterialPool ι)
    (m : Move ι MaterialRequest) : Prop :=
  ∀ i u p node, c.procs i = some (.upload u, p) → p ≠ .ret (.node node) →
    (c.move (handle sha256) m).procs i = some (.upload u, .ret (.node node)) →
    (c.move (handle sha256) m).world.state.blob? (sha256 u.bytes) = some u.bytes

section Upkeep
variable {sha256 : Bytes → String} {inputs : Set Bytes}

theorem upkeep_whole :
    Upkeep sha256 (· ∈ inputs) breaks (Whole sha256 inputs) FoundWhole where
  keeps l s s' digest _ hl hrun hbreaks hs := by
    cases l with
    | pathExists d bytes => cases hrun; exact hs
    | insertFile node file => cases hrun; exact hs
    | deleteNodes ids => cases hrun; exact hs
    | removeBlob d =>
      cases hrun
      have hne : digest ≠ d := fun hd => by simp [breaks, hd] at hbreaks
      rw [MaterialStore.blob?_setBlob, if_neg hne]
      exact hs
    | writeBlob d bytes kept =>
      cases hrun
      rw [MaterialStore.blob?_setBlob]
      split
      · next hd =>
        have hall : bytes.length ≤ kept := by simpa [breaks, hd] using hbreaks
        obtain ⟨hin, hdigest⟩ := hl
        exact ⟨bytes, hin, by rw [hd, hdigest], by rw [List.take_of_length_le hall]⟩
      · exact hs
  found bytes s hbytes hsafe hsome := by
    obtain ⟨content, hcontent⟩ := Option.isSome_iff_exists.mp hsome
    exact ⟨bytes, hbytes, rfl, by rw [hcontent, hsafe _ rfl content hcontent]⟩
  written bytes hbytes := ⟨bytes, hbytes, rfl, rfl⟩

end Upkeep

def MaterialRequest.bytes? : MaterialRequest → Option Bytes
  | .upload u => some u.bytes
  | .emptyTrash _ => none

def UploadsFrom (inputs : Set Bytes) (r : MaterialRequest) : Prop :=
  ∀ bytes ∈ r.bytes?, bytes ∈ inputs

instance (inputs : Set Bytes) [DecidablePred (· ∈ inputs)] :
    DecidablePred (UploadsFrom inputs) :=
  fun r => inferInstanceAs (Decidable (∀ bytes ∈ r.bytes?, bytes ∈ inputs))

/-! What a process of an upload does: it records its own digest, and succeeds by
inserting its rows. -/

def RecordsOwn (sha256 : Bytes → String) (r : MaterialRequest) (l : MaterialStatement) : Prop :=
  ∀ u, r = .upload u → ∀ digest ∈ l.inserted?, digest = sha256 u.bytes

section Uploads
variable (sha256 : Bytes → String)

theorem recordsOwn_of_none {r : MaterialRequest} {l : MaterialStatement}
    (hl : l.inserted? = none) : RecordsOwn sha256 r l := by
  intro u _ digest hd
  rw [hl] at hd
  cases hd

theorem handle_writes (r : MaterialRequest) :
    (handle sha256 r).WritesOnly (RecordsOwn sha256 r) := by
  refine handle_writesOnly r (fun _ => recordsOwn_of_none sha256) ?_
  rintro u rfl mime u' hu digest hd
  cases hu
  cases hd
  rfl

def IsNode : MaterialReply → Prop
  | .node _ => True
  | .removed _ => False

def inserts (l : MaterialStatement) : Prop := l.inserted?.isSome = true

theorem handle_answersOn (r : MaterialRequest) : (handle sha256 r).AnswersOn inserts IsNode := by
  cases r with
  | emptyTrash call => exact AnswersOn.bind _ fun _ => fun h => h
  | upload u =>
    unfold handle storeMaterial
    simp only [bind_assoc]
    refine AnswersOn.bind _ fun _ => AnswersOn.bind _ fun _ => AnswersOn.bind _ fun mime =>
      AnswersOn.bind _ fun _ => AnswersOn.bind _ fun created => ?_
    have hfailed : ∀ e : HostError, AnswersOn inserts IsNode (do
        let node ← (do
          (if created then cleanupUnreferencedBlob (sha256 u.bytes) u.faults else pure ())
          fail e : MaterialProgram NodeRow)
        pure (MaterialReply.node node)) := fun e => by
      simp only [bind_assoc]
      exact AnswersOn.bind _ fun _ => trivial
    unfold recordMaterial
    simp only [bind_assoc]
    refine AnswersOn.bind _ fun allowed => ?_
    cases allowed with
    | error e => exact hfailed e
    | ok v =>
      dsimp only
      split
      · exact hfailed _
      · intro s
        cases hstored : (insertMaterial s.lib (materialNode u)
            (materialFile u (sha256 u.bytes) mime)).isSome with
        | true => exact .inr ⟨rfl, _, by simp only [hstored]; rfl⟩
        | false => exact .inl (by simp only [hstored]; exact hfailed _)

end Uploads

variable {ι : Type} [DecidableEq ι]

/-! Without a write that stops early, every file is whole, and so is what an upload finds. -/

section Complete
variable {sha256 : Bytes → String} {inputs : Set Bytes}

def Completes : MaterialStatement → Prop
  | .writeBlob _ bytes kept => bytes.length ≤ kept
  | _ => True

def BlobsWhole (sha256 : Bytes → String) (inputs : Set Bytes) (s : MaterialStore) : Prop :=
  ∀ digest content, s.blob? digest = some content → content ∈ inputs ∧ sha256 content = digest

def UnderItsDigest (sha256 : Bytes → String) (inputs : Set Bytes) : MaterialStatement → Prop
  | .pathExists digest bytes => bytes ∈ inputs ∧ digest = sha256 bytes
  | .writeBlob digest bytes _ => bytes ∈ inputs ∧ digest = sha256 bytes
  | _ => True

theorem handle_underItsDigest (r : MaterialRequest) :
    (handle sha256 r).WritesOnly fun l =>
      UploadsFrom inputs r → UnderItsDigest sha256 inputs l := by
  refine handle_writesOwn r (fun l hl _ => ?_) (fun u hu hr => ?_) (fun u hu kept hr => ?_)
    fun u hu mime _ => trivial
  · cases l with
    | pathExists digest bytes => cases hl
    | writeBlob digest bytes kept => cases hl
    | insertFile node file => trivial
    | deleteNodes ids => trivial
    | removeBlob digest => trivial
  · subst hu
    exact ⟨hr u.bytes rfl, rfl⟩
  · subst hu
    exact ⟨hr u.bytes rfl, rfl⟩

theorem blobsWhole_step {l : MaterialStatement} {s s' : MaterialStore}
    (hs : BlobsWhole sha256 inputs s) (hl : UnderItsDigest sha256 inputs l) (hall : Completes l)
    (hrun : l.run s = .ok s') : BlobsWhole sha256 inputs s' := by
  cases l with
  | pathExists d bytes => cases hrun; exact hs
  | insertFile node file => cases hrun; exact hs
  | deleteNodes ids => cases hrun; exact hs
  | removeBlob d =>
    cases hrun
    intro digest content hcontent
    rw [MaterialStore.blob?_setBlob] at hcontent
    split at hcontent
    · cases hcontent
    · exact hs digest content hcontent
  | writeBlob d bytes kept =>
    cases hrun
    intro digest content hcontent
    rw [MaterialStore.blob?_setBlob] at hcontent
    split at hcontent
    · next hd =>
      rw [List.take_of_length_le hall, Option.some.injEq] at hcontent
      subst hcontent
      exact ⟨hl.1, by rw [hd, hl.2]⟩
    · exact hs digest content hcontent

theorem foundWhole_of_blobsWhole (hsha : Set.InjOn sha256 inputs) {l : MaterialStatement}
    {s : MaterialStore} (hs : BlobsWhole sha256 inputs s) (hl : UnderItsDigest sha256 inputs l) :
    FoundWhole l s := by
  intro x hx content hcontent
  cases l with
  | pathExists digest bytes =>
    cases hx
    obtain ⟨hinput, hdigest⟩ := hs _ content hcontent
    exact hsha hinput hl.1 (hdigest.trans hl.2)
  | writeBlob digest bytes kept => cases hx
  | insertFile node file => cases hx
  | deleteNodes ids => cases hx
  | removeBlob digest => cases hx

/-- While no write stops early, no upload finds a part of its content at its path. -/
theorem foundWhole_of_completes (hsha : Set.InjOn sha256 inputs) {s : MaterialStore}
    (hs : BlobsWhole sha256 inputs s) {ms : List (Move ι MaterialRequest)}
    (h : (Pool.idle s : MaterialPool ι).Guarded (handle sha256) (UploadsFrom inputs)
      (fun _ l _ => Completes l) ms) :
    (Pool.idle s : MaterialPool ι).Guarded (handle sha256) (UploadsFrom inputs)
      (fun _ l w => FoundWhole l w.state) ms :=
  h.of_keeps (I := fun w => BlobsWhole sha256 inputs w.state) handle_underItsDigest
    (fun _ _ _ _ _ hw hr hl hall hwrote => blobsWhole_step hw (hl hr) hall hwrote.1)
    (fun _ _ _ _ hw hr hl => foundWhole_of_blobsWhole hsha hw (hl hr)) hs
    (fun _ _ _ hp => by cases hp) (fun _ _ _ hp => by cases hp)

end Complete

/-- While no upload finds a part of its content at its path, and no file is
removed or left in parts between an upload's look at it and its rows, an upload
that succeeds has all of its content on disk. -/
theorem uploaded_content_is_whole (sha256 : Bytes → String) {inputs : Set Bytes}
    (hsha : Set.InjOn sha256 inputs) (s : MaterialStore) (ms : List (Move ι MaterialRequest))
    (m : Move ι MaterialRequest)
    (h : (Pool.idle s : MaterialPool ι).Guarded (handle sha256) (UploadsFrom inputs)
      (fun i l w => FoundWhole l w.state ∧ Unspoiled breaks i l w) (ms ++ [m])) :
    ReturnsWhole sha256 ((Pool.idle s : MaterialPool ι).run (handle sha256) ms) m := by
  obtain ⟨hbefore, hlast, -⟩ := (Pool.guarded_append _ _ _ _ _ _).mp h
  have hidle : (blobProtocol sha256 (· ∈ inputs) breaks (Whole sha256 inputs) FoundWhole ι
    (fun _ => True) fun _ _ _ _ _ _ _ => trivial).inv ⟨s, []⟩ := trivial
  have hrun := running_run
    (fun i r hr => handle_follows upkeep_whole i r fun u hu => by subst hu; exact hr u.bytes rfl)
    (running_idle hidle) hbefore
  have hwrites := Pool.writesOnly_run (handle_writes sha256) (Pool.idle s : MaterialPool ι)
    (fun i r p hp => by cases hp) ms
  have hallowed := Pool.allowed_run (fun i r p hp => by cases hp) hbefore
  intro i u p node hi hp hi'
  obtain ⟨l, k, rfl, rfl, hl, hw⟩ :=
    Pool.answer_move (handle_answersOn sha256) s ms hi hp hi' trivial
  obtain ⟨P, hP, hf⟩ := hrun.2 i _ _ hi
  obtain ⟨hpromise, -⟩ := hf.2 _ _ trivial hP hw (hlast _ l k _ hi hw)
  have hown := (hwrites i _ _ hi).1 u rfl
  cases l with
  | insertFile node' file =>
    obtain ⟨bytes, hbytes, hdigest, hcontent⟩ := hpromise
    have hsame : bytes = u.bytes :=
      hsha hbytes (hallowed i _ _ hi u.bytes rfl) (hdigest.trans (hown _ rfl))
    rw [← Except.ok.inj hw.1, ← hown _ rfl, ← hsame]
    exact hcontent
  | pathExists d b => cases hl
  | writeBlob d b n => cases hl
  | deleteNodes ids => cases hl
  | removeBlob d => cases hl

def secondCopy : List (Move Nat MaterialRequest) :=
  [.start 0 (sampleUpload 20 {}), .advance 0]

theorem uploaded_content_is_whole_sample :
    ReturnsWhole sampleSha256 ((Pool.idle sampleTrash : MaterialPool Nat).run
      (handle sampleSha256) secondCopy) (.advance 0) :=
  uploaded_content_is_whole sampleSha256 (Set.injOn_singleton sampleSha256 samplePdf) sampleTrash
    secondCopy (.advance 0) (by decide +kernel)

def retriedUpload : List (Move Nat MaterialRequest) :=
  .start 0 (sampleUpload 20 { write := .stopped 3 }) :: List.replicate 2 (.advance 0) ++
    [.start 1 (sampleUpload 30 {}), .advance 1]

/-- The second upload finds the three bytes, and succeeds. -/
theorem retried_upload_keeps_partial_content :
    let c := (Pool.idle { sampleTrash with blobs := fun _ => none } : MaterialPool Nat).run
      (handle sampleSha256) retriedUpload
    (∃ r, c.procs 0 = some (r, .fail (.other "writing blob"))) ∧
      ¬ReturnsWhole sampleSha256 c (.advance 1) := by
  refine ⟨⟨_, rfl⟩, fun h => ?_⟩
  have hwhole := h 1 _ _ _ rfl (fun hp => by cases hp) rfl
  revert hwhole
  decide +kernel

end Cinder.Materials
