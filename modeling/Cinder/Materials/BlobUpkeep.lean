import Cinder.Materials.MaterialStore
import Cinder.Programs.AnswerPoints
set_option autoImplicit false

/-!
What an upload may rely on between the step in which it finds or writes its blob
file and the step in which it inserts its rows. `good` is what the file is relied
on for, and `spoils` says which steps may take it away.
-/

namespace Cinder.Materials
open Cinder.Host Cinder.Storage Cinder.Library Cinder.Programs Cinder.Programs.Program
open Cinder.Programs.Protocol

abbrev MaterialEvent (ι : Type) := Event ι MaterialStore MaterialStatement

abbrev MaterialWorld (ι : Type) := World ι MaterialStore MaterialStatement

namespace MaterialStatement

def secures (digest : String) (before : MaterialStore) : MaterialStatement → Bool
  | .pathExists d _ => d = digest && (before.blob? digest).isSome
  | .writeBlob d _ _ => d = digest
  | _ => false

def checked? : MaterialStatement → Option (String × Bytes)
  | .pathExists digest bytes => some (digest, bytes)
  | _ => none

def inserted? : MaterialStatement → Option String
  | .insertFile _ file => some file.sha256
  | _ => none

def removed? : MaterialStatement → Option String
  | .removeBlob digest => some digest
  | _ => none

end MaterialStatement

section Conditions
variable {ι : Type} (spoils : String → MaterialStatement → Bool) (i : ι)

def SpoiledSince (digest : String) (history : List (MaterialEvent ι)) : Prop :=
  Afterwards (fun e => e.proc = i ∧ e.label.secures digest e.before = true)
    (fun e => spoils digest e.label = true) history

def Unspoiled (l : MaterialStatement) (w : MaterialWorld ι) : Prop :=
  ∀ digest ∈ l.inserted?, ¬SpoiledSince spoils i digest w.history

instance [DecidableEq ι] (digest : String) (history : List (MaterialEvent ι)) :
    Decidable (SpoiledSince spoils i digest history) :=
  inferInstanceAs (Decidable (Afterwards _ _ history))

instance [DecidableEq ι] (l : MaterialStatement) (w : MaterialWorld ι) :
    Decidable (Unspoiled spoils i l w) :=
  inferInstanceAs (Decidable (∀ digest ∈ l.inserted?, _))

end Conditions

section Upkeep
variable (sha256 : Bytes → String) (inputs : Bytes → Prop)
variable (spoils : String → MaterialStatement → Bool) (good : String → Option Bytes → Prop)
variable (safe : MaterialStatement → MaterialStore → Prop)

/-- What the two commands see to: a blob file is written under the digest of its
bytes, and rows are inserted for a good one. -/
def BlobPromise (l : MaterialStatement) (s : MaterialStore) : Prop :=
  match l with
  | .writeBlob digest bytes _ => inputs bytes ∧ digest = sha256 bytes
  | .insertFile _ file => good file.sha256 (s.blob? file.sha256)
  | _ => True

/-- What makes `good` something to rely on while all steps are safe. -/
structure Upkeep : Prop where
  keeps : ∀ l s s' digest, safe l s → BlobPromise sha256 inputs good l s → l.run s = .ok s' →
    spoils digest l = false → good digest (s.blob? digest) → good digest (s'.blob? digest)
  found : ∀ bytes s, inputs bytes → safe (.pathExists (sha256 bytes) bytes) s →
    (s.blob? (sha256 bytes)).isSome = true →
    good (sha256 bytes) (s.blob? (sha256 bytes))
  written : ∀ bytes, inputs bytes → good (sha256 bytes) (some bytes)

/-- The rules of concurrent uploads, with an invariant of the state. -/
def blobProtocol (ι : Type) (inv : MaterialStore → Prop)
    (h : ∀ l s s', inv s → safe l s → BlobPromise sha256 inputs good l s → l.run s = .ok s' →
      inv s') : Protocol ι MaterialStore MaterialStatement where
  inv w := inv w.state
  guard i l w := safe l w.state ∧ Unspoiled spoils i l w
  promise _ l w := BlobPromise sha256 inputs good l w.state
  inv_step _ l w w' hi hg hl hw := h l w.state w'.state hi hg.1 hl hw.1

end Upkeep

section Follows
variable {ι : Type} {sha256 : Bytes → String} {inputs : Bytes → Prop}
variable {spoils : String → MaterialStatement → Bool} {good : String → Option Bytes → Prop}
variable {safe : MaterialStatement → MaterialStore → Prop} {inv : MaterialStore → Prop}
variable {h : ∀ l s s', inv s → safe l s → BlobPromise sha256 inputs good l s →
  l.run s = .ok s' → inv s'}

/-- The process has found or written the blob file, which is good unless it was
spoiled since. -/
def Relying (spoils : String → MaterialStatement → Bool) (good : String → Option Bytes → Prop)
    (i : ι) (digest : String) (w : MaterialWorld ι) : Prop :=
  (∃ e ∈ w.history, e.proc = i ∧ e.label.secures digest e.before = true) ∧
    (¬SpoiledSince spoils i digest w.history → good digest (w.state.blob? digest))

theorem stable_relying (hup : Upkeep sha256 inputs spoils good safe) (i : ι) (digest : String) :
    (blobProtocol sha256 inputs spoils good safe ι inv h).Stable i
      (Relying spoils good i digest) := by
  rintro j l w w' - ⟨⟨e, he, hsec⟩, hgood⟩ - hg hl ⟨hrun, hhistory⟩
  rw [Relying, hhistory]
  refine ⟨⟨e, List.mem_cons_of_mem _ he, hsec⟩, fun hno => ?_⟩
  cases hs : spoils digest l with
  | true => exact absurd (.inl ⟨hs, e, he, hsec⟩) hno
  | false => exact hup.keeps l _ _ digest hg.1 hl hrun hs (hgood fun hn => hno (.inr hn))

theorem relying_of_secures {i : ι} {l : MaterialStatement} {digest : String}
    {w w' : MaterialWorld ι} (hw : World.Wrote i l w w')
    (hsec : l.secures digest w.state = true) (hgood : good digest (w'.state.blob? digest)) :
    Relying spoils good i digest w' := by
  rw [Relying, hw.2]
  exact ⟨⟨_, List.mem_cons_self, rfl, hsec⟩, fun _ => hgood⟩

theorem writeBlob_follows (hup : Upkeep sha256 inputs spoils good safe) (i : ι) {bytes : Bytes}
    (hbytes : inputs bytes) (faults : UploadFaults) :
    (blobProtocol sha256 inputs spoils good safe ι inv h).Follows i
      (fun _ => Relying spoils good i (sha256 bytes)) (writeBlob (sha256 bytes) bytes faults)
      (fun _ => True) := by
  have htrue := stable_const (blobProtocol sha256 inputs spoils good safe ι inv h) i True
  have hrel : (blobProtocol sha256 inputs spoils good safe ι inv h).Stable i _ :=
    stable_relying hup i (sha256 bytes)
  refine Follows.bind (Q := fun found w => found = true → Relying spoils good i (sha256 bytes) w)
    ?_ fun found => ?_
  · refine Follows.executeReturning htrue
      (fun _ j l w w' hj hP hi hg hl hw hf => hrel j l w w' hj (hP hf) hi hg hl hw)
      fun w w' _ _ hw hg => ⟨trivial, fun hf => ?_⟩
    have hstate : w'.state = w.state := (Except.ok.inj hw.1).symm
    refine relying_of_secures hw (by simp [MaterialStatement.secures, hf]) ?_
    rw [hstate]
    exact hup.found bytes w.state hbytes hg.1 hf
  · cases found with
    | true =>
      exact Follows.weaken (fun j l w w' hj hP hi hg hl hw _ => hrel j l w w' hj (hP rfl) hi hg hl hw)
        (fun w hP => hP rfl) (Follows.ret hrel fun _ hP => hP)
    | false =>
      refine Follows.weaken (fun _ _ _ _ _ _ _ _ _ _ hf => by cases hf) (fun _ _ => trivial)
        (Follows.bind (Follows.readOnly htrue (readOnly_require _ _)) fun _ => ?_)
      have hwrite : ∀ kept w, (blobProtocol sha256 inputs spoils good safe ι inv h).promise i
          (.writeBlob (sha256 bytes) bytes kept) w := fun _ _ => ⟨hbytes, rfl⟩
      cases faults.write with
      | complete =>
        refine Follows.bind (Follows.execute htrue hrel fun w w' _ _ hw _ => ⟨hwrite _ w, ?_⟩)
          fun _ => Follows.ret hrel fun _ hP => hP
        refine relying_of_secures hw (by simp [MaterialStatement.secures]) ?_
        rw [← Except.ok.inj hw.1, MaterialStore.blob?_setBlob, if_pos rfl, List.take_length]
        exact hup.written bytes hbytes
      | notOpened => exact Follows.fail htrue
      | stopped kept =>
        exact Follows.bind (Follows.execute htrue htrue fun w _ _ _ _ _ => ⟨hwrite _ w, trivial⟩)
          fun _ => Follows.fail htrue

theorem authorizeClassroom_readOnly (user : CurrentUser) (classroomId : Option Uuid) :
    (authorizeClassroom user classroomId).ReadOnly := by
  cases classroomId with
  | none => trivial
  | some id => exact (readOnly_query _).bind fun _ => readOnly_require _ _

theorem authorizeParent_readOnly (user : CurrentUser) (query : UploadQuery) :
    (authorizeParent user query).ReadOnly := by
  unfold authorizeParent
  split
  · trivial
  · exact (readOnly_queryRow _ _).bind fun _ => readOnly_ofExcept _

theorem authorizeUpload_readOnly (user : CurrentUser) (query : UploadQuery) :
    (authorizeUpload user query).ReadOnly :=
  (readOnly_require _ _).bind fun _ => (authorizeClassroom_readOnly _ _).bind fun _ =>
    authorizeParent_readOnly _ _

theorem recordMaterial_follows (hup : Upkeep sha256 inputs spoils good safe) (i : ι) (u : Upload)
    (mime : String) :
    (blobProtocol sha256 inputs spoils good safe ι inv h).Follows i (fun _ _ => True)
      (recordMaterial u (sha256 u.bytes) mime) (Relying spoils good i (sha256 u.bytes)) := by
  have htrue := stable_const (blobProtocol sha256 inputs spoils good safe ι inv h) i True
  have hrel : (blobProtocol sha256 inputs spoils good safe ι inv h).Stable i _ :=
    stable_relying hup i (sha256 u.bytes)
  refine Follows.bind (Follows.readOnly hrel (authorizeUpload_readOnly _ _).outcome)
    fun allowed => ?_
  cases allowed with
  | error e => exact Follows.ret hrel fun _ _ => trivial
  | ok v =>
    dsimp only
    split
    · exact Follows.ret hrel fun _ _ => trivial
    · refine Follows.bind (Q := fun _ _ => True) (Follows.executeReturning hrel (fun _ => htrue)
        fun w w' _ hP _ hg => ⟨hP.2 (hg.2 _ rfl), trivial⟩) fun _ =>
          Follows.ret htrue fun _ _ => trivial

def removes : MaterialStatement → Prop
  | .deleteNodes _ => True
  | .removeBlob _ => True
  | _ => False

theorem blobPromise_of_removes {l : MaterialStatement} (hl : removes l) (s : MaterialStore) :
    BlobPromise sha256 inputs good l s := by
  cases l with
  | pathExists digest bytes => trivial
  | writeBlob digest bytes kept => cases hl
  | insertFile node file => cases hl
  | deleteNodes ids => trivial
  | removeBlob digest => trivial

theorem inserted?_of_removes {l : MaterialStatement} (hl : removes l) : l.inserted? = none := by
  cases l with
  | insertFile node file => cases hl
  | pathExists digest bytes => rfl
  | writeBlob digest bytes kept => rfl
  | deleteNodes ids => rfl
  | removeBlob digest => rfl

theorem writeBlob_writes {c : MaterialStatement → Prop} {digest : String} {bytes : Bytes}
    (hfound : c (.pathExists digest bytes)) (hwrite : ∀ kept, c (.writeBlob digest bytes kept))
    (faults : UploadFaults) : (writeBlob digest bytes faults).WritesOnly c := by
  refine WritesOnly.bind (writesOnly_executeReturning _ hfound) fun found => ?_
  cases found with
  | true => trivial
  | false =>
    refine (readOnly_require _ _).writesOnly.bind fun _ => ?_
    cases faults.write with
    | complete => exact WritesOnly.bind (writesOnly_execute (hwrite _)) fun _ => trivial
    | notOpened => trivial
    | stopped kept => exact WritesOnly.bind (writesOnly_execute (hwrite _)) fun _ => trivial

theorem removeUnreferenced_writes (digest : String) (removeFails : Bool) :
    (removeUnreferenced digest removeFails).WritesOnly removes := by
  refine (readOnly_query _).writesOnly.bind fun used => ?_
  split
  · trivial
  · exact writesOnly_execute trivial

theorem cleanup_writes (digest : String) (faults : UploadFaults) :
    (cleanupUnreferencedBlob digest faults).WritesOnly removes := by
  unfold cleanupUnreferencedBlob
  split
  · trivial
  · exact removeUnreferenced_writes _ _

theorem removeTrashed_writes (call : TrashCall) (n : Nat) (digests : List String) :
    (removeTrashed call n digests).WritesOnly removes := by
  induction digests generalizing n with
  | nil => trivial
  | cons digest rest ih =>
    exact (readOnly_require _ _).writesOnly.bind fun _ =>
      (removeUnreferenced_writes _ _).bind fun _ => ih (n+1)

theorem emptyTrash_writes (call : TrashCall) : (emptyTrash call).WritesOnly removes :=
  (readOnly_require _ _).writesOnly.bind fun _ => (readOnly_query _).writesOnly.bind
    fun rows => (writesOnly_execute trivial).bind fun _ => (removeTrashed_writes _ _ _).bind
      fun _ => trivial

/-- What holds of the statements of an upload about its own content, and of all statements
that secure or insert none, holds of all that a request writes. -/
theorem handle_writesOwn {c : MaterialStatement → Prop} (r : MaterialRequest)
    (hother : ∀ l, removes l → c l)
    (hfound : ∀ u, r = .upload u → c (.pathExists (sha256 u.bytes) u.bytes))
    (hwrite : ∀ u, r = .upload u → ∀ kept, c (.writeBlob (sha256 u.bytes) u.bytes kept))
    (hrows : ∀ u, r = .upload u → ∀ mime,
      c (.insertFile (materialNode u) (materialFile u (sha256 u.bytes) mime))) :
    (handle sha256 r).WritesOnly c := by
  cases r with
  | emptyTrash call =>
    exact ((emptyTrash_writes call).imp hother).bind fun _ => writesOnly_pure _
  | upload u =>
    have hrecord : ∀ mime, (recordMaterial u (sha256 u.bytes) mime).WritesOnly c := by
      intro mime
      refine (authorizeUpload_readOnly _ _).outcome.writesOnly.bind fun allowed => ?_
      cases allowed with
      | error e => trivial
      | ok v =>
        dsimp only
        split
        · trivial
        · exact WritesOnly.bind (writesOnly_executeReturning _ (hrows u rfl mime)) fun _ => trivial
    refine WritesOnly.bind ?_ fun _ => writesOnly_pure _
    refine (readOnly_require _ _).writesOnly.bind fun _ =>
      (readOnly_require _ _).writesOnly.bind fun _ =>
      (readOnly_ofExcept _).writesOnly.bind fun mime =>
      (authorizeUpload_readOnly _ _).writesOnly.bind fun _ =>
      (writeBlob_writes (hfound u rfl) (hwrite u rfl) _).bind fun created =>
      (hrecord mime).bind fun result => ?_
    cases result with
    | ok node => trivial
    | error e =>
      refine WritesOnly.bind ?_ fun _ => trivial
      split
      · exact (cleanup_writes _ _).imp hother
      · trivial

theorem handle_writesOnly {c : MaterialStatement → Prop} (r : MaterialRequest)
    (hother : ∀ l : MaterialStatement, l.inserted? = none → c l)
    (hrows : ∀ u, r = .upload u → ∀ mime,
      c (.insertFile (materialNode u) (materialFile u (sha256 u.bytes) mime))) :
    (handle sha256 r).WritesOnly c :=
  handle_writesOwn r (fun l hl => hother l (inserted?_of_removes hl)) (fun _ _ => hother _ rfl)
    (fun _ _ _ => hother _ rfl) hrows

theorem handle_follows (hup : Upkeep sha256 inputs spoils good safe) (i : ι)
    (r : MaterialRequest) (hr : ∀ u, r = .upload u → inputs u.bytes) :
    (blobProtocol sha256 inputs spoils good safe ι inv h).Follows i (fun _ _ => True)
      (handle sha256 r) (fun _ => True) := by
  have htrue := stable_const (blobProtocol sha256 inputs spoils good safe ι inv h) i True
  have hrest : ∀ {α : Type} {p : MaterialProgram α}, p.WritesOnly removes →
      (blobProtocol sha256 inputs spoils good safe ι inv h).Follows i (fun _ _ => True) p
        (fun _ => True) :=
    fun hp => Follows.of_writesOnly (fun l w hl => blobPromise_of_removes hl w.state) hp
  cases r with
  | emptyTrash call =>
    exact Follows.bind (hrest (emptyTrash_writes call)) fun _ =>
      Follows.ret htrue fun _ _ => trivial
  | upload u =>
    have hread : ∀ {α : Type} {p : MaterialProgram α}, p.ReadOnly →
        (blobProtocol sha256 inputs spoils good safe ι inv h).Follows i (fun _ _ => True) p
          (fun _ => True) := fun hp => Follows.readOnly htrue hp
    refine Follows.bind (Q := fun _ _ => True) ?_ fun _ => Follows.ret htrue fun _ _ => trivial
    refine Follows.bind (hread (readOnly_require _ _)) fun _ =>
      Follows.bind (hread (readOnly_require _ _)) fun _ =>
      Follows.bind (hread (readOnly_ofExcept _)) fun mime =>
      Follows.bind (hread (authorizeUpload_readOnly _ _)) fun _ =>
      Follows.bind (writeBlob_follows hup i (hr u rfl) u.faults) fun created =>
      Follows.bind (recordMaterial_follows hup i u mime) fun result => ?_
    cases result with
    | ok node => exact Follows.ret htrue fun _ _ => trivial
    | error e =>
      refine Follows.bind ?_ fun _ => Follows.fail htrue
      cases created with
      | true => exact hrest (cleanup_writes _ _)
      | false => exact Follows.ret htrue fun _ _ => trivial

end Follows

end Cinder.Materials
