import Cinder.Library.LibraryRequests
import Cinder.Materials.ByteRanges
import Cinder.Materials.WholeBlobs
import Cinder.Programs.SeenStates
set_option autoImplicit false

namespace Cinder.Materials
open Cinder.Host Cinder.Storage Cinder.Backups Cinder.Library Cinder.Notes Cinder.Programs
open Cinder.Programs.Program

def isRefused (c : Char) : Bool := c ≠ '\t' && (c.toNat < 0x20 || c.toNat = 0x7F)

def headerValueOk (value : String) : Bool := !value.toList.any isRefused

def contentDisposition (origName : String) : String :=
  "inline; filename=\"" ++ String.ofList (origName.toList.filter (· ≠ '"')) ++ "\""

/-- `Response::builder`, where an error comes out with the body. -/
def buildResponse (reply : DownloadReply) : Except HostError DownloadReply :=
  if (reply.contentType :: reply.contentDisposition :: reply.contentRange.toList).all headerValueOk
  then .ok reply
  else .error (.other "building response: failed to parse header value")

/-- The arithmetic of `sendFile` that leaves the integers ends the request. -/
def download (user : CurrentUser) (id : Uuid) (header : Option String) :
    Program LibraryStore LibraryStatement HostError DownloadReply := do
  let found ← (downloadMeta user id).within (·.lib) .node
  let content ← queryRow (fun s => s.materials.blob? found.1) (.other "opening blob")
  let reply ← ofExcept ((sendFile found.2 content header).getD (.error (.other "panicked")))
  ofExcept (buildResponse reply)

section Rows
variable {lib lib' : LibraryTables}

/-- The row of an uploaded file, and its node with the owner and the classroom it was
uploaded with. -/
structure Holds (lib : LibraryTables) (node : NodeRow) (file : FileRow) : Prop where
  row : file ∈ lib.files.rows
  place : ∃ n ∈ lib.nodes.rows, n.id = file.nodeId ∧ n.ownerId = node.ownerId ∧
    n.classroomId = node.classroomId

theorem storedFile?_some {id : Uuid} {file : FileRow} {node : NodeRow}
    (h : storedFile? lib id = some (file, node)) :
    file ∈ lib.files.rows ∧ file.nodeId = id ∧ node ∈ lib.nodes.rows ∧ node.id = id := by
  simp only [storedFile?, Option.bind_eq_bind, Option.bind_eq_some_iff] at h
  obtain ⟨file', hfile, node', hnode, _, -, heq⟩ := h
  cases heq
  obtain ⟨hmem, hid⟩ := Table.mem_of_find? hfile
  have hid := of_decide_eq_true hid
  obtain ⟨hnode, hnid⟩ := node?_id hnode
  exact ⟨hmem, hid, hnode, hnid.trans hid⟩

theorem Holds.stored {node : NodeRow} {file : FileRow} (h : Holds lib node file)
    (hstored : (storedFile? lib file.nodeId).isSome = true) :
    ∃ n, storedFile? lib file.nodeId = some (file, n) ∧ n.ownerId = node.ownerId ∧
      n.classroomId = node.classroomId := by
  obtain ⟨⟨file', n'⟩, hsome⟩ := Option.isSome_iff_exists.mp hstored
  obtain ⟨hfile, hid, hn', hnid⟩ := storedFile?_some hsome
  obtain ⟨n, hn, hid', howner, hclassroom⟩ := h.place
  have hfileEq : file' = file := Table.eq_of_clash hfile h.row (decide_eq_true hid)
  have hnodeEq : n' = n := Table.eq_of_clash hn' hn (decide_eq_true (hnid.trans hid'.symm))
  rw [hfileEq, hnodeEq] at hsome
  exact ⟨n, hsome, howner, hclassroom⟩

theorem Holds.step {node : NodeRow} {file : FileRow} {l : LibraryStatement}
    (h : Holds lib node file) (hchange : LibraryChange lib l lib')
    (hkept : (node? lib' file.nodeId).isSome = true) : Holds lib' node file := by
  obtain ⟨hfile, n, hn, hid, howner, hclassroom⟩ := h
  have hmap : ∀ f : NodeRow → NodeRow, (∀ m, (f m).id = m.id) → (∀ m, (f m).ownerId = m.ownerId) →
      (∀ m, (f m).classroomId = m.classroomId) → ∃ m ∈ lib.nodes.rows.map f,
        m.id = file.nodeId ∧ m.ownerId = node.ownerId ∧ m.classroomId = node.classroomId :=
    fun f hfid hfowner hfclassroom => ⟨f n, List.mem_map_of_mem hn, (hfid n).trans hid,
      (hfowner n).trans howner, (hfclassroom n).trans hclassroom⟩
  cases hchange with
  | same l => exact ⟨hfile, n, hn, hid, howner, hclassroom⟩
  | created owner node' lib' hcreate =>
    obtain ⟨inserted, hinsert, hbody⟩ := Option.bind_eq_some_iff.mp hcreate
    obtain ⟨hnodes, -, hinserted⟩ := insertNode_some hinsert
    have hfiles : lib'.files = lib.files ∧ lib'.nodes = inserted.nodes := by
      split at hbody
      · obtain ⟨-, -, hrest⟩ := insertNoteBody_some hbody
        rw [hrest, hinserted]
        exact ⟨rfl, rfl⟩
      · cases hbody
        rw [hinserted]
        exact ⟨rfl, rfl⟩
    rw [← hfiles.1] at hfile
    refine ⟨hfile, n, ?_, hid, howner, hclassroom⟩
    rw [hfiles.2]
    exact (Table.mem_insert hnodes).mpr (.inl hn)
  | edited existing user req now lib' hedit hcheck =>
    obtain ⟨f, hf, -, hrows, hrest⟩ := hedit
    refine ⟨by rw [hrest]; exact hfile, ?_⟩
    rw [hrows]
    exact hmap (fun m => if m.id = existing.id then f m else m)
      (fun m => by split <;> simp [hf.id]) (fun m => by split <;> simp [hf.ownerId])
      fun m => by split <;> simp [hf.classroomId]
  | saved l note docJson plaintext now =>
    refine ⟨hfile, ?_⟩
    rw [rows_saveNoteTx]
    exact hmap (fun m => if m.id = note then touchNode now m else m) (fun m => by split <;> rfl)
      (fun m => by split <;> rfl) fun m => by split <;> rfl
  | uploaded node' file' lib' hupload =>
    obtain ⟨hnodes, hfiles, -, -⟩ := insertMaterial_some hupload
    exact ⟨(Table.mem_insert hfiles).mpr (.inl hfile), n, (Table.mem_insert hnodes).mpr (.inl hn),
      hid, howner, hclassroom⟩
  | deleted l ids school =>
    obtain ⟨n', hsome⟩ := Option.isSome_iff_exists.mp hkept
    obtain ⟨hn', hnid'⟩ := node?_id hsome
    obtain ⟨hn', hgone⟩ := Table.mem_delete.mp hn'
    have hnodeEq : n' = n := Table.eq_of_clash hn' hn (decide_eq_true (hnid'.trans hid.symm))
    rw [hnodeEq, hid] at hgone
    refine ⟨Table.mem_delete.mpr ⟨hfile, hgone⟩, n, Table.mem_delete.mpr ⟨hn, ?_⟩, hid, howner,
      hclassroom⟩
    rw [hid]
    exact hgone

end Rows

section Accepted
variable (sha256 : Bytes → String)

def isUploadReply : LibraryReply → Prop
  | .material (.node _) => True
  | _ => False

def insertsFile : LibraryStatement → Prop
  | .material l => inserts l
  | _ => False

theorem library_answersOn (r : LibraryRequest) :
    (Library.handle sha256 r).AnswersOn insertsFile isUploadReply := by
  cases r with
  | createNode env user req => exact AnswersOn.bind _ fun _ h => h
  | updateNode env user id req => exact AnswersOn.bind _ fun _ h => h
  | deleteNode user id => exact AnswersOn.bind _ fun _ h => h
  | saveNote call => exact AnswersOn.bind _ fun _ h => h
  | deleteUser id school => exact AnswersOn.bind _ fun _ h => h
  | material r =>
    refine (handle_answersOn sha256 r).within (fun _ hl => hl) fun reply hreply => ?_
    cases reply with
    | node node => trivial
    | removed files => exact hreply

/-- The rows that an upload inserts, for contents it has let through. -/
structure Recorded (u : Upload) (node : NodeRow) (file : FileRow) : Prop where
  node : node = materialNode u
  file : ∃ mime, sniff u.bytes = some mime ∧ file = materialFile u (sha256 u.bytes) mime
  length : u.bytes.length ≤ maxUploadBytes
  teacher : u.query.shared = true → u.user.role.isTeacher = true

def RecordsUpload (r : LibraryRequest) (l : LibraryStatement) : Prop :=
  ∀ u, r = .material (.upload u) → ∀ node file, l = .material (.insertFile node file) →
    Recorded sha256 u node file

theorem of_sniffed {u : Upload} {mime : String}
    (h : (sniff u.bytes).elim (.error (.badRequest
      "Only PDFs and images (PNG, JPEG, WebP, GIF) can be added.")) .ok =
        (.ok mime : Except HostError String)) : sniff u.bytes = some mime := by
  cases hs : sniff u.bytes with
  | none =>
    rw [hs] at h
    cases h
  | some m =>
    rw [hs] at h
    cases h
    rfl

theorem storeMaterial_writes (u : Upload) :
    (storeMaterial sha256 u).WritesOnly fun l =>
      ∀ node file, l = .insertFile node file → Recorded sha256 u node file := by
  have hother : ∀ l : MaterialStatement, l.inserted? = none →
      ∀ node file, l = .insertFile node file → Recorded sha256 u node file := by
    rintro l hl node file rfl
    cases hl
  refine writesOnly_require_bind fun _ => writesOnly_require_bind fun hlength =>
    writesOnly_ofExcept_bind fun mime hmime => ?_
  have hsniff := of_sniffed hmime
  unfold authorizeUpload
  simp only [bind_assoc]
  refine writesOnly_require_bind fun hteacher =>
    (authorizeClassroom_readOnly _ _).writesOnly.bind fun _ =>
    (authorizeParent_readOnly _ _).writesOnly.bind fun _ =>
    (writeBlob_writes (hother _ rfl) (fun _ => hother _ rfl) _).bind fun created => ?_
  refine WritesOnly.bind ?_ fun result => ?_
  · refine (authorizeUpload_readOnly _ _).outcome.writesOnly.bind fun allowed => ?_
    cases allowed with
    | error e => trivial
    | ok v =>
      dsimp only
      split
      · trivial
      · refine WritesOnly.bind (writesOnly_executeReturning _ ?_) fun _ => trivial
        rintro node file hl
        cases hl
        exact ⟨rfl, ⟨mime, hsniff, rfl⟩, hlength, hteacher⟩
  · cases result with
    | ok node => trivial
    | error e =>
      refine WritesOnly.bind ?_ fun _ => trivial
      split
      · exact (cleanup_writes _ _).imp fun l hl => hother l (inserted?_of_removes hl)
      · trivial

theorem library_writes (r : LibraryRequest) :
    (Library.handle sha256 r).WritesOnly (RecordsUpload sha256 r) := by
  by_cases hr : ∃ u, r = .material (.upload u)
  · obtain ⟨u, rfl⟩ := hr
    refine WritesOnly.bind (WritesOnly.within ?_) fun _ => trivial
    refine WritesOnly.bind ((storeMaterial_writes sha256 u).imp fun l hl u' hu' node file hl' => ?_)
      fun _ => trivial
    cases hu'
    cases hl'
    exact hl node file rfl
  · exact writesOnly_of_forall (fun l u hu => absurd ⟨u, hu⟩ hr) _

/-- An upload that is answered with a node has inserted its rows in the last state it saw. -/
theorem inserted_of_answers {u : Upload} {seen : List MaterialStore} {node : NodeRow}
    (h : (storeMaterial sha256 u).Answers seen node) :
    node = materialNode u ∧ ∃ mime earlier s, sniff u.bytes = some mime ∧ seen = earlier ++ [s] ∧
      (insertMaterial s.lib (materialNode u)
        (materialFile u (sha256 u.bytes) mime)).isSome = true := by
  obtain ⟨-, h₁⟩ := Answers.of_require_bind h
  obtain ⟨-, h₂⟩ := Answers.of_require_bind h₁
  obtain ⟨mime, first, rest, hsniff, h₃, hseen⟩ := h₂.of_bind
  obtain ⟨hmime, hfirst⟩ := hsniff.of_ofExcept
  obtain ⟨_, first₁, rest₁, -, h₄, hrest⟩ := h₃.of_bind
  obtain ⟨created, first₂, rest₂, -, h₅, hrest₁⟩ := h₄.of_bind
  obtain ⟨result, first₃, rest₃, hrecord, h₆, hrest₂⟩ := h₅.of_bind
  cases result with
  | error e =>
    obtain ⟨_, _, _, -, hfail, -⟩ := h₆.of_bind
    cases hfail
  | ok node' =>
    cases h₆
    obtain ⟨allowed, first₄, rest₄, -, h₇, hfirst₃⟩ := hrecord.of_bind
    cases allowed with
    | error e => cases h₇
    | ok v =>
      dsimp only at h₇
      split at h₇
      · cases h₇
      · obtain ⟨stored, first₅, rest₅, hstored, h₈, hrest₄⟩ := h₇.of_bind
        obtain ⟨s, hfirst₅, hs⟩ := hstored.of_executeReturning
        cases stored with
        | false => cases h₈
        | true =>
          cases h₈
          refine ⟨rfl, mime, first₁ ++ (first₂ ++ first₄), s, of_sniffed hmime, ?_, hs⟩
          rw [hseen, hfirst, hrest, hrest₁, hrest₂, hfirst₃, hrest₄, hfirst₅]
          simp

end Accepted

section Runs
variable {ι : Type} [DecidableEq ι] {sha256 : Bytes → String}

theorem holds_of_accepted {s : LibraryStore} {ms : List (Move ι LibraryRequest)}
    {m : Move ι LibraryRequest} {i : ι} {u : Upload}
    {p : Program LibraryStore LibraryStatement HostError LibraryReply} {node : NodeRow}
    (hi : ((Pool.idle s : LibraryPool ι).run (Library.handle sha256) ms).procs i =
      some (.material (.upload u), p)) (hp : p ≠ .ret (.material (.node node)))
    (hi' : (((Pool.idle s : LibraryPool ι).run (Library.handle sha256) ms).move
      (Library.handle sha256) m).procs i =
        some (.material (.upload u), .ret (.material (.node node)))) :
    ∃ file, Recorded sha256 u node file ∧
      Holds (((Pool.idle s : LibraryPool ι).run (Library.handle sha256) ms).move
        (Library.handle sha256) m).world.state.lib node file := by
  obtain ⟨l, k, rfl, rfl, hl, hw⟩ :=
    Pool.answer_move (library_answersOn sha256) s ms hi hp hi' trivial
  obtain ⟨seen, -, hanswers⟩ :=
    Pool.seen_run (rfl : (Pool.idle s : LibraryPool ι).procs i = none) hi
  have hwrites := (Pool.writesOnly_run (library_writes sha256) (Pool.idle s : LibraryPool ι)
    (fun i r p hp => by cases hp) ms i _ _ hi).1 u rfl
  generalize (Pool.idle s : LibraryPool ι).run (Library.handle sha256) ms = pool at *
  have hk : k pool.world.state = .ret (.material (.node node)) := by
    obtain ⟨t, ht⟩ : ∃ t, Engine.run l pool.world.state = .ok t := ⟨_, hw.1⟩
    simp only [Pool.move, hi, Program.advance, ht, Function.update_self, Option.some.injEq,
      Prod.mk.injEq, true_and] at hi'
    exact hi'
  have hanswer : (k pool.world.state).Answers [] (.material (.node node)) := by
    rw [hk]
    exact .ret _
  obtain ⟨_, first, rest, hreply, hpure, hseen⟩ := (hanswers _ _ (.write hanswer)).of_bind
  cases hpure
  obtain ⟨_, first', rest', hstore, hpure, hfirst⟩ := hreply.of_within.of_bind
  cases hpure
  obtain ⟨rfl, mime, earlier, t, hmime, hlast, hinserted⟩ := inserted_of_answers sha256 hstore
  have ht : t = pool.world.state.materials := by
    have hmap := congrArg (List.map LibraryStore.materials) hseen
    rw [List.append_nil, hfirst, List.append_nil, hlast, List.map_append,
      List.map_singleton] at hmap
    simpa using (List.append_inj_right' hmap rfl).symm
  cases l with
  | node l => cases hl
  | note l => cases hl
  | deleteUser id school => cases hl
  | material l =>
    cases l with
    | insertFile node' file =>
      obtain ⟨rfl, ⟨mime', hmime', rfl⟩, hlength, hteacher⟩ := hwrites node' file rfl
      cases hmime.symm.trans hmime'
      refine ⟨_, ⟨rfl, ⟨mime, hmime, rfl⟩, hlength, hteacher⟩, ?_⟩
      obtain ⟨lib, hlib⟩ := Option.isSome_iff_exists.mp hinserted
      rw [ht] at hlib
      obtain ⟨hnodes, hfiles, -, -⟩ := insertMaterial_some hlib
      have hstate : (pool.move (Library.handle sha256) (.advance i)).world.state.lib = lib := by
        have hrun := hw.1
        simp only [Engine.run, LibraryStatement.run, MaterialStatement.run, hlib, Option.getD_some,
          Except.map, Except.ok.injEq] at hrun
        rw [← hrun]
      rw [hstate]
      exact ⟨(Table.mem_insert hfiles).mpr (.inr rfl), _, (Table.mem_insert hnodes).mpr (.inr rfl),
        rfl, rfl, rfl⟩
    | pathExists d b => cases hl
    | writeBlob d b n => cases hl
    | deleteNodes ids => cases hl
    | removeBlob d => cases hl

theorem Holds.run {pool : LibraryPool ι} {node : NodeRow} {file : FileRow}
    (h : Holds pool.world.state.lib node file) {ms : List (Move ι LibraryRequest)}
    (hkept : ∀ ns, ns <+: ms → (node? (pool.run (Library.handle sha256) ns).world.state.lib
      file.nodeId).isSome = true) :
    Holds (pool.run (Library.handle sha256) ms).world.state.lib node file := by
  induction ms generalizing pool with
  | nil => exact h
  | cons m ms ih =>
    refine ih ?_ fun ns hns => hkept (m :: ns) (List.cons_prefix_cons.mpr ⟨rfl, hns⟩)
    have hnext : (node? (pool.move (Library.handle sha256) m).world.state.lib
        file.nodeId).isSome = true := hkept [m] (by simp)
    rcases pool.move_world (Library.handle sha256) m with hw | ⟨i, r, l, k, -, -, hw⟩
    · rw [hw]
      exact h
    · exact h.step (LibraryStatement.change hw.1) hnext

end Runs

def StillOpen (school : Database) (u : Upload) : Prop :=
  u.query.shared = true → ∀ classroomId ∈ u.query.classroomId,
    teacherCanAccess school classroomId u.user.id = true

instance (school : Database) (u : Upload) : Decidable (StillOpen school u) :=
  inferInstanceAs (Decidable (_ → ∀ classroomId ∈ u.query.classroomId, _))

section Sent
variable {sha256 : Bytes → String} {t : LibraryStore} {u : Upload} {file : FileRow}

theorem authorizeDownload_readOnly (user : CurrentUser) (node : NodeRow) :
    (authorizeDownload user node).ReadOnly := by
  unfold authorizeDownload
  split
  · trivial
  · exact (readOnly_query _).bind fun _ => readOnly_require _ _
  · exact readOnly_require _ _

theorem downloadMeta_readOnly (user : CurrentUser) (id : Uuid) :
    (downloadMeta user id).ReadOnly :=
  (readOnly_queryRow _ _).bind fun _ => (authorizeDownload_readOnly _ _).bind fun _ => trivial

/-- Who has uploaded a file may open it, unless it is shared with a class they have left. -/
theorem exec_authorizeDownload (hrec : Recorded sha256 u (materialNode u) file) {n : NodeRow}
    (howner : n.ownerId = (materialNode u).ownerId)
    (hclassroom : n.classroomId = (materialNode u).classroomId) (lib : LibraryTables) :
    (authorizeDownload u.user n).exec lib =
      (if StillOpen lib.school u then .ok () else .error .forbidden, lib) := by
  have hclassroom' : n.classroomId = u.query.classroomId := hclassroom
  have howner' : n.ownerId = if u.query.shared then none else some u.user.id := howner
  by_cases hshared : u.query.shared = true
  · rw [if_pos hshared] at howner'
    have hteacher := hrec.teacher hshared
    cases hquery : u.query.classroomId with
    | none =>
      rw [hquery] at hclassroom'
      simp [authorizeDownload, StillOpen, howner', hclassroom', hquery]
    | some classroomId =>
      rw [hquery] at hclassroom'
      simp only [authorizeDownload, StillOpen, howner', hclassroom', hquery, hteacher, if_true,
        exec_bind, exec_query, exec_require]
      by_cases h : teacherCanAccess lib.school classroomId u.user.id = true <;> simp [h, hshared]
  · rw [if_neg hshared] at howner'
    simp [authorizeDownload, StillOpen, howner', hshared, exec_require]

theorem isRefused_quote : isRefused '"' = false := by decide

theorem any_isRefused_unquoted (name : String) :
    (String.ofList (name.toList.filter (· ≠ '"'))).toList.any isRefused =
      name.toList.any isRefused := by
  rw [String.toList_ofList, List.any_filter]
  congr 1
  funext c
  by_cases hc : c = '"'
  · rw [hc, isRefused_quote, Bool.and_false]
  · simp [hc]

theorem contentDisposition_ok (name : String) :
    headerValueOk (contentDisposition name) = !name.toList.any isRefused := by
  have hfront : ("inline; filename=\"").toList.any isRefused = false := by decide
  have hback : ("\"").toList.any isRefused = false := by decide
  unfold headerValueOk contentDisposition
  have hlast := String.toList_append (s := "inline; filename=\"" ++
    String.ofList (name.toList.filter (· ≠ '"'))) (t := "\"")
  rw [hlast, String.toList_append, List.any_append, List.any_append, any_isRefused_unquoted,
    hfront, hback]
  simp

theorem sniff_ok {bytes : Bytes} {mime : String} (h : sniff bytes = some mime) :
    headerValueOk mime = true := by
  have hall : ["application/pdf", "image/png", "image/jpeg", "image/gif", "image/webp"].all
      headerValueOk = true := by decide
  refine List.all_eq_true.mp hall mime ?_
  unfold sniff at h
  grind

theorem castU64_length {u : Upload} (h : u.bytes.length ≤ maxUploadBytes) :
    (castU64 u.bytes.length).1 = u.bytes.length := by
  have hmax : maxUploadBytes = 33554432 := rfl
  simp only [castU64]
  omega

def wholeReply (fileMeta : FileMeta) (content : Bytes) : DownloadReply :=
  { status := 200
    contentType := fileMeta.mime
    contentLength := castU64 fileMeta.bytes
    contentDisposition := contentDisposition fileMeta.origName
    contentRange := none
    body := content }

theorem sendFile_whole {content : Bytes} {fileMeta : FileMeta}
    (hlength : (castU64 fileMeta.bytes).1 = content.length) :
    sendFile fileMeta content none = some (.ok (wholeReply fileMeta content)) := by
  have hspan : downloadSpan none (castU64 fileMeta.bytes) =
      some (⟨0, u64_pos⟩, castU64 fileMeta.bytes) := rfl
  have henough : ¬ content.length < 0 + (castU64 fileMeta.bytes).1 := by omega
  have hbody : (content.drop 0).take (castU64 fileMeta.bytes).1 = content := by
    rw [hlength, List.drop_zero, List.take_length]
  unfold sendFile wholeReply contentDisposition
  simp only [Option.bind_none, hspan, Option.bind_eq_bind, Option.bind_some, if_neg henough, hbody]
  rfl

theorem buildResponse_whole {fileMeta : FileMeta} (hmime : headerValueOk fileMeta.mime = true)
    (content : Bytes) :
    buildResponse (wholeReply fileMeta content) =
      if fileMeta.origName.toList.any isRefused = false then .ok (wholeReply fileMeta content)
      else .error (.other "building response: failed to parse header value") := by
  cases h : fileMeta.origName.toList.any isRefused <;>
    simp [buildResponse, wholeReply, hmime, contentDisposition_ok, h]

theorem exec_download {user : CurrentUser} (found : String × FileMeta) {content : Bytes}
    (hmeta : ((downloadMeta user found.2.nodeId).exec t.lib).1 = .ok found)
    (hblob : t.materials.blob? found.1 = some content)
    (hlength : (castU64 found.2.bytes).1 = content.length) :
    (download user found.2.nodeId none).exec t =
      (buildResponse (wholeReply found.2 content), t) := by
  have hseen : ((downloadMeta user found.2.nodeId).within (fun s : LibraryStore => s.lib)
      LibraryStatement.node).exec t = (.ok found, t) := by
    rw [exec_within (downloadMeta_readOnly user found.2.nodeId) t, hmeta]
  have hread : (queryRow (fun s : LibraryStore => s.materials.blob? found.1)
      (.other "opening blob") : Program LibraryStore LibraryStatement HostError Bytes).exec t =
        (.ok content, t) := exec_queryRow_some hblob
  have hreply : (ofExcept ((some (.ok (wholeReply found.2 content))).getD
      (.error (.other "panicked"))) : Program LibraryStore LibraryStatement HostError _).exec t =
        (.ok (wholeReply found.2 content), t) := rfl
  rw [download, exec_bind_ok _ hseen, exec_bind_ok _ hread, sendFile_whole hlength,
    exec_bind_ok _ hreply, exec_ofExcept]

theorem exec_download_error {user : CurrentUser} {id : Uuid} {e : HostError}
    (hmeta : ((downloadMeta user id).exec t.lib).1 = .error e) :
    (download user id none).exec t = (.error e, t) := by
  have hseen : ((downloadMeta user id).within (fun s : LibraryStore => s.lib)
      LibraryStatement.node).exec t = (.error e, t) := by
    rw [exec_within (downloadMeta_readOnly user id) t, hmeta]
  rw [download, exec_bind, hseen]

theorem download_iff (hrec : Recorded sha256 u (materialNode u) file)
    (hholds : Holds t.lib (materialNode u) file)
    (hstored : (storedFile? t.lib file.nodeId).isSome = true)
    (hblob : t.materials.blob? (sha256 u.bytes) = some u.bytes) :
    (∃ reply, (download u.user file.nodeId none).exec t = (.ok reply, t) ∧
      reply.status = 200 ∧ reply.body = u.bytes) ↔
      u.originalName.toList.any isRefused = false ∧ StillOpen t.lib.school u := by
  obtain ⟨n, hn, howner, hclassroom⟩ := hholds.stored hstored
  obtain ⟨mime, hmime, rfl⟩ := hrec.file
  let found : FileMeta := ⟨u.env.uuid 0, u.originalName, u.bytes.length, mime⟩
  have hmeta : (downloadMeta u.user (u.env.uuid 0)).exec t.lib =
      (if StillOpen t.lib.school u then .ok (sha256 u.bytes, found) else .error .forbidden,
        t.lib) := by
    have hrow : (queryRow (fun lib => storedFile? lib (u.env.uuid 0)) (.notFound "file") :
        NodeProgram (FileRow × NodeRow)).exec t.lib = (.ok _, t.lib) := exec_queryRow_some hn
    rw [downloadMeta, exec_bind_ok _ hrow, exec_bind,
      exec_authorizeDownload hrec howner hclassroom]
    by_cases hopen : StillOpen t.lib.school u
    · rw [if_pos hopen, if_pos hopen]
      rfl
    · rw [if_neg hopen, if_neg hopen]
  by_cases hopen : StillOpen t.lib.school u
  · rw [if_pos hopen] at hmeta
    have hdownload := exec_download (sha256 u.bytes, found) (congrArg Prod.fst hmeta)
      hblob (castU64_length hrec.length)
    rw [buildResponse_whole (sniff_ok hmime)] at hdownload
    refine ⟨fun ⟨reply, hreply, _⟩ => ⟨?_, hopen⟩,
      fun h => ⟨wholeReply found u.bytes, ?_, rfl, rfl⟩⟩
    · by_contra hname
      rw [if_neg hname] at hdownload
      cases hdownload.symm.trans hreply
    · rw [if_pos h.1] at hdownload
      exact hdownload
  · rw [if_neg hopen] at hmeta
    have hdownload := exec_download_error (congrArg Prod.fst hmeta)
    refine ⟨fun ⟨reply, hreply, _⟩ => ?_, fun h => absurd h.2 hopen⟩
    cases hdownload.symm.trans hreply

end Sent

/-- An upload that has been answered with a node is sent back, as long as its node is kept and
its blob is intact, exactly if its name has no character that a header refuses and, for what
is shared, the uploader is still a teacher of the class. -/
theorem uploaded_downloads_iff {ι : Type} [DecidableEq ι] (sha256 : Bytes → String)
    (s : LibraryStore) (ms later : List (Move ι LibraryRequest)) (m : Move ι LibraryRequest)
    (i : ι) (u : Upload) (p : Program LibraryStore LibraryStatement HostError LibraryReply)
    (node : NodeRow)
    (hi : ((Pool.idle s : LibraryPool ι).run (Library.handle sha256) ms).procs i =
      some (.material (.upload u), p)) (hp : p ≠ .ret (.material (.node node)))
    (hi' : ((Pool.idle s : LibraryPool ι).run (Library.handle sha256) (ms ++ [m])).procs i =
      some (.material (.upload u), .ret (.material (.node node))))
    (hkept : ∀ ns, ns <+: later → (node? ((Pool.idle s : LibraryPool ι).run
      (Library.handle sha256) (ms ++ [m] ++ ns)).world.state.lib node.id).isSome = true)
    (t : LibraryStore) (ht : t = ((Pool.idle s : LibraryPool ι).run (Library.handle sha256)
      (ms ++ [m] ++ later)).world.state)
    (hstored : (storedFile? t.lib node.id).isSome = true)
    (hblob : t.materials.blob? (sha256 u.bytes) = some u.bytes) :
    (∃ reply, (download u.user node.id none).exec t = (.ok reply, t) ∧ reply.status = 200 ∧
      reply.body = u.bytes) ↔
      u.originalName.toList.any isRefused = false ∧ StillOpen t.lib.school u := by
  rw [Pool.run_append] at hi'
  obtain ⟨file, hrec, hholds⟩ := holds_of_accepted hi hp hi'
  obtain ⟨rfl, ⟨mime, hmime, rfl⟩, -, -⟩ := id hrec
  have hend : Holds t.lib (materialNode u) (materialFile u (sha256 u.bytes) mime) := by
    rw [ht, Pool.run_append, Pool.run_append]
    refine hholds.run fun ns hns => ?_
    have hnode := hkept ns hns
    rw [Pool.run_append, Pool.run_append] at hnode
    exact hnode
  exact download_iff hrec hend hstored hblob

def namedUpload (name : String) : Upload where
  env := sampleEnv 20
  user := sampleTeacher
  query := {}
  originalName := name
  fileStem := some "a"
  bytes := samplePdf

def namedRun (name : String) : List (Move Nat LibraryRequest) :=
  aloneRun 0 2 (.material (.upload (namedUpload name)))

def namedStore (name : String) : LibraryStore :=
  ((Pool.idle emptyLibrary : LibraryPool Nat).run (Library.handle sampleSha256)
    (namedRun name ++ [.advance 0] ++ [])).world.state

def DownloadsWhole (name : String) : Prop :=
  ∃ reply, (download sampleTeacher (materialNode (namedUpload name)).id none).exec
    (namedStore name) = (.ok reply, namedStore name) ∧ reply.status = 200 ∧
      reply.body = samplePdf

theorem uploaded_downloads_iff_sample : DownloadsWhole "a;\"ü\".pdf" :=
  (uploaded_downloads_iff sampleSha256 emptyLibrary (namedRun "a;\"ü\".pdf") [] (.advance 0) 0
    (namedUpload "a;\"ü\".pdf") _ (materialNode (namedUpload "a;\"ü\".pdf")) rfl
    (fun hp => by cases hp) rfl (fun ns hns => by rw [List.prefix_nil.mp hns]; decide +kernel)
    _ rfl (by decide +kernel) (by decide +kernel)).mpr (by decide +kernel)

/-- The upload of a name with a line break is answered with its node, and cannot be downloaded. -/
theorem line_break_is_not_downloaded :
    ((Pool.idle emptyLibrary : LibraryPool Nat).run (Library.handle sampleSha256)
      (namedRun "a\n.pdf" ++ [.advance 0])).procs 0 =
        some (.material (.upload (namedUpload "a\n.pdf")),
          .ret (.material (.node (materialNode (namedUpload "a\n.pdf"))))) ∧
      (namedStore "a\n.pdf").materials.blob? (sampleSha256 samplePdf) = some samplePdf ∧
      ¬DownloadsWhole "a\n.pdf" := by
  have herror : ((download sampleTeacher (materialNode (namedUpload "a\n.pdf")).id none).exec
      (namedStore "a\n.pdf")).1 =
        .error (.other "building response: failed to parse header value") := by decide +kernel
  refine ⟨rfl, by decide +kernel, fun ⟨reply, hreply, _⟩ => ?_⟩
  rw [hreply] at herror
  cases herror

end Cinder.Materials
