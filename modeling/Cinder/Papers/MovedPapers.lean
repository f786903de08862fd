import Mathlib.Data.List.Nodup
import Cinder.Papers.PaperLibrary
set_option autoImplicit false

namespace Cinder.Papers
open Cinder.Host Cinder.Programs Cinder.Storage

structure Accepts (call : ListCall) (t : PaperTable) (p : SavedQuestionPaper) (id : String) :
    Prop where
  path : pathUuid (hostId call p) = some id
  teacher : call.visit.role.isTeacher = true
  valid : validate (toInput p) = .ok ()
  access : requireTeacherAccess call.visit (toInput p).classroomId = .ok ()
  owner : ∀ row ∈ t.rows, row.id = id → row.ownerId = call.visit.teacherId

structure Reaches (call : ListCall) (t : PaperTable) (p : SavedQuestionPaper) (id : String) :
    Prop where
  fate : call.fate p.id ≠ .lost
  accepted : Accepts call t p id

structure CopyOf (teacherId : Uuid) (p : SavedQuestionPaper) (row : QuestionPaperRow) : Prop where
  origin : row.origin = some p.id
  owner : row.ownerId = teacherId
  input : row.input = storedInput (toInput p)

instance (teacherId : Uuid) (p : SavedQuestionPaper) (row : QuestionPaperRow) :
    Decidable (CopyOf teacherId p row) :=
  decidable_of_iff (row.origin = some p.id ∧ row.ownerId = teacherId ∧
      row.input = storedInput (toInput p))
    ⟨fun h => ⟨h.1, h.2.1, h.2.2⟩, fun h => ⟨h.origin, h.owner, h.input⟩⟩

section Saving
variable {visit : HostVisit} {call : ListCall} {t t' : PaperTable} {p : SavedQuestionPaper}
  {id : String}

theorem eq_of_id {row row' : QuestionPaperRow} (hrow : row ∈ t.rows) (hrow' : row' ∈ t.rows)
    (h : row.id = row'.id) : row = row' :=
  Table.eq_of_clash hrow hrow' (decide_eq_true h)

theorem upsertPaper_ok {req : SaveQuestionPaperInput} {origin : Option String}
    (howner : ∀ row ∈ t.rows, row.id = id → row.ownerId = visit.teacherId) :
    ∃ t' row, upsertPaper visit id req origin t = .ok t' ∧ row.id = id ∧
      row.ownerId = visit.teacherId ∧ row.input = storedInput req ∧ row.origin = origin ∧
        ∀ x, x ∈ t'.rows ↔ (x ∈ t.rows ∧ x.id ≠ id) ∨ x = row := by
  unfold upsertPaper
  cases hfind : t.find? fun row => row.id = id with
  | none =>
    have hnone : ∀ x ∈ t.rows, x.id ≠ id := by simpa using Table.find?_eq_none.mp hfind
    have hclash : ∀ x ∈ t.rows, Keyed.clash x (⟨id, visit.teacherId, storedInput req, visit.now,
        visit.now, origin⟩ : QuestionPaperRow) = false :=
      fun x hx => decide_eq_false (hnone x hx)
    obtain ⟨t', ht'⟩ := Table.insert_isSome hclash
    refine ⟨t', ⟨id, visit.teacherId, storedInput req, visit.now, visit.now, origin⟩, ?_, rfl, rfl,
      rfl, rfl, fun x => ?_⟩
    · simp only [ht', stored]
    · rw [Table.mem_insert ht']
      exact or_congr_left (iff_self_and.mpr (hnone x))
  | some row =>
    have hrow := Table.mem_of_find? hfind
    have hid : row.id = id := by simpa using hrow.2
    refine ⟨_, revisePaper visit req origin row, if_pos (howner row hrow.1 hid), hid,
      howner row hrow.1 hid, rfl, rfl, fun x => ?_⟩
    rw [Table.mem_update]
    constructor
    · rintro ⟨y, hy, rfl⟩
      by_cases hyid : y.id = id
      · rw [if_pos (decide_eq_true hyid), eq_of_id hy hrow.1 (hyid.trans hid.symm)]
        exact .inr rfl
      · rw [if_neg (by simpa using hyid)]
        exact .inl ⟨hy, hyid⟩
    · rintro (⟨hx, hxid⟩ | rfl)
      · exact ⟨x, hx, by rw [if_neg (by simpa using hxid)]⟩
      · exact ⟨row, hrow.1, by rw [if_pos (decide_eq_true hid)]⟩

theorem owner_of_upsertPaper {req : SaveQuestionPaperInput} {origin : Option String}
    (h : upsertPaper visit id req origin t = .ok t') :
    ∀ row ∈ t.rows, row.id = id → row.ownerId = visit.teacherId := by
  intro row hrow hid
  unfold upsertPaper at h
  cases hfind : t.find? fun row => row.id = id with
  | none =>
    have hnone : row.id ≠ id := by simpa using Table.find?_eq_none.mp hfind row hrow
    exact absurd hid hnone
  | some found =>
    rw [hfind] at h
    obtain ⟨hfound, hfoundid⟩ := Table.mem_of_find? hfind
    rw [eq_of_id hrow hfound (hid.trans (of_decide_eq_true hfoundid).symm)]
    by_contra howner
    simp [if_neg howner] at h

theorem keeps_getPaper (visit : HostVisit) (id : String) : (getPaper visit id).Keeps fun t => t :=
  .bind (.require _ _) fun _ => .bind .get fun _ => .ofExcept _

theorem updatePaper_accepted (h : Accepts call t p id) :
    ∃ row, row.id = id ∧ CopyOf call.visit.teacherId p row ∧
      ∀ x, x ∈ (updatePaper call.visit (hostId call p) (toInput p) (some p.id) t).2.rows ↔
        (x ∈ t.rows ∧ x.id ≠ id) ∨ x = row := by
  obtain ⟨t', row, hok, hid, howner, hinput, horigin, hmem⟩ :=
    @upsertPaper_ok _ _ _ (toInput p) (some p.id) h.owner
  have hstate : (updatePaper call.visit (hostId call p) (toInput p) (some p.id) t).2 = t' := by
    have hpath : (pathUuid (hostId call p)).elim (.error (.badRequest "Invalid URL")) .ok =
        (.ok id : Except HostError String) := by rw [h.path]; rfl
    rw [updatePaper, Command.bind_ok (Command.ofExcept_ok hpath t),
      Command.require_bind_ok h.teacher,
      Command.bind_ok (Command.ofExcept_ok h.valid t),
      Command.bind_ok (Command.ofExcept_ok h.access t), Command.bind_ok (Command.get_run t),
      Command.bind_ok (Command.ofExcept_ok hok t), Command.bind_ok (Command.modify_run _ t)]
    exact keeps_getPaper _ _ _
  exact ⟨row, hid, ⟨horigin, howner, hinput⟩, hstate ▸ hmem⟩

theorem updatePaper_refused (h : ∀ id, ¬Accepts call t p id) :
    (updatePaper call.visit (hostId call p) (toInput p) (some p.id) t).2 = t := by
  cases hrun : updatePaper call.visit (hostId call p) (toInput p) (some p.id) t with | mk r s
  unfold updatePaper at hrun
  rcases Command.ofExcept_bind_cases hrun with ⟨_, _, _, rfl⟩ | ⟨id, hpath, hrun⟩
  · rfl
  rcases Command.require_bind_cases hrun with ⟨_, rfl⟩ | ⟨hteacher, hrun⟩
  · rfl
  rcases Command.ofExcept_bind_cases hrun with ⟨_, _, _, rfl⟩ | ⟨_, hvalid, hrun⟩
  · rfl
  rcases Command.ofExcept_bind_cases hrun with ⟨_, _, _, rfl⟩ | ⟨_, haccess, hrun⟩
  · rfl
  rw [Command.bind_ok (Command.get_run t)] at hrun
  rcases Command.ofExcept_bind_cases hrun with ⟨_, _, _, rfl⟩ | ⟨t', hupsert, _⟩
  · rfl
  refine absurd ⟨?_, hteacher, hvalid, haccess, owner_of_upsertPaper hupsert⟩ (h id)
  cases hid : pathUuid (hostId call p) with
  | none => simp [hid] at hpath
  | some id' => simpa [hid] using hpath

end Saving

def copied (call : ListCall) (t : PaperTable) (p : SavedQuestionPaper) : PaperTable :=
  if call.fate p.id = .lost then t
  else (updatePaper call.visit (hostId call p) (toInput p) (some p.id) t).2

theorem copyPaper_run (call : ListCall) (p : SavedQuestionPaper) (w : PaperWorld) :
    copyPaper call p w = (.ok (), { w with host := copied call w.host p }) := by
  unfold copyPaper
  rw [Command.outcome_bind_run]
  cases hfate : call.fate p.id with
  | lost => simp [saveQuestionPaper, copied, hfate]
  | unanswered =>
    simp only [saveQuestionPaper, copied, hfate, Command.outcome_bind_run]
    rfl
  | answered =>
    have hend : ∀ _ : QuestionPaperRow,
        (pure () : LibraryCommand Unit).Keeps fun w => w := fun _ => .pure ()
    simp only [saveQuestionPaper, copied, hfate]
    exact congrArg (Prod.mk _) (Command.Keeps.after hend _ w)

theorem forM_copyPaper_run (call : ListCall) (papers : List SavedQuestionPaper) (w : PaperWorld) :
    papers.forM (copyPaper call) w =
      (.ok (), { w with host := papers.foldl (copied call) w.host }) := by
  induction papers generalizing w with
  | nil => rfl
  | cons p papers ih =>
    rw [Command.forM_cons, Command.bind_ok (copyPaper_run call p w), ih]
    rfl

/-- One request: the paper has a row of its own under its id, or nothing is changed. -/
theorem copied_cases (call : ListCall) (t : PaperTable) (p : SavedQuestionPaper) :
    (∃ id row, Reaches call t p id ∧ row.id = id ∧ CopyOf call.visit.teacherId p row ∧
      ∀ x, x ∈ (copied call t p).rows ↔ (x ∈ t.rows ∧ x.id ≠ id) ∨ x = row) ∨
    (∀ id, ¬Reaches call t p id) ∧ copied call t p = t := by
  by_cases hfate : call.fate p.id = .lost
  · exact .inr ⟨fun id h => h.fate hfate, if_pos hfate⟩
  · rw [copied, if_neg hfate]
    by_cases haccepts : ∃ id, Accepts call t p id
    · obtain ⟨id, hid⟩ := haccepts
      obtain ⟨row, hrow, hcopy, hmem⟩ := updatePaper_accepted hid
      exact .inl ⟨id, row, ⟨hfate, hid⟩, hrow, hcopy, hmem⟩
    · have hnone : ∀ id, ¬Accepts call t p id := fun id h => haccepts ⟨id, h⟩
      exact .inr ⟨fun id h => hnone id h.accepted, updatePaper_refused hnone⟩

def Free (call : ListCall) (t : PaperTable) (id : String) : Prop :=
  ∀ row ∈ t.rows, row.id = id → row.ownerId = call.visit.teacherId

theorem reaches_congr {call : ListCall} {t t' : PaperTable} {id : String}
    (h : Free call t id ↔ Free call t' id) (p : SavedQuestionPaper) :
    Reaches call t p id ↔ Reaches call t' p id :=
  ⟨fun hp => ⟨hp.fate, { hp.accepted with owner := h.mp hp.accepted.owner }⟩,
    fun hp => ⟨hp.fate, { hp.accepted with owner := h.mpr hp.accepted.owner }⟩⟩

/-- How the Host's table stands after requests for these papers: its copies are theirs, and
no id has passed to another teacher. -/
structure Traced (call : ListCall) (t₀ : PaperTable) (papers : List SavedQuestionPaper)
    (t : PaperTable) : Prop where
  copy : ∀ row ∈ t.rows, ∀ x, row.origin = some x →
    ∃ p ∈ papers, p.id = x ∧ Reaches call t₀ p row.id ∧ CopyOf call.visit.teacherId p row
  free : ∀ id, Free call t id ↔ Free call t₀ id

theorem traced_start {call : ListCall} {t₀ : PaperTable} (h : ∀ row ∈ t₀.rows, row.origin = none) :
    Traced call t₀ [] t₀ where
  copy row hrow x hx := by simp [h row hrow] at hx
  free id := Iff.rfl

theorem free_copied {call : ListCall} {t : PaperTable} {p : SavedQuestionPaper} (id : String) :
    Free call (copied call t p) id ↔ Free call t id := by
  rcases copied_cases call t p with ⟨id', row, hreaches, hid, hcopy, hmem⟩ | ⟨-, heq⟩
  · constructor
    · intro h x hx hxid
      by_cases hsame : x.id = id'
      · exact hreaches.accepted.owner x hx hsame
      · exact h x ((hmem x).mpr (.inl ⟨hx, hsame⟩)) hxid
    · intro h x hx hxid
      rcases (hmem x).mp hx with ⟨hold, -⟩ | rfl
      · exact h x hold hxid
      · exact hcopy.owner
  · rw [heq]

theorem Traced.step {call : ListCall} {t₀ t : PaperTable} {papers : List SavedQuestionPaper}
    (h : Traced call t₀ papers t) (p : SavedQuestionPaper) :
    Traced call t₀ (papers ++ [p]) (copied call t p) where
  copy row hrow x hx := by
    rcases copied_cases call t p with ⟨id, new, hreaches, hid, hcopy, hmem⟩ | ⟨-, heq⟩
    · rcases (hmem row).mp hrow with ⟨hold, -⟩ | rfl
      · obtain ⟨q, hq, hrest⟩ := h.copy row hold x hx
        exact ⟨q, List.mem_append_left _ hq, hrest⟩
      · have hx' : p.id = x := Option.some.inj (hcopy.origin.symm.trans hx)
        exact ⟨p, by simp, hx', (reaches_congr (h.free _) p).mp (hid ▸ hreaches), hcopy⟩
    · rw [heq] at hrow
      obtain ⟨q, hq, hrest⟩ := h.copy row hrow x hx
      exact ⟨q, List.mem_append_left _ hq, hrest⟩
  free id := (free_copied id).trans (h.free id)

theorem Traced.run {call : ListCall} {t₀ t : PaperTable} {done papers : List SavedQuestionPaper}
    (h : Traced call t₀ done t) :
    Traced call t₀ (done ++ papers) (papers.foldl (copied call) t) := by
  induction papers generalizing done t with
  | nil => simpa using h
  | cons p papers ih => simpa [List.append_assoc] using ih (h.step p)

def Placed (call : ListCall) (papers : List SavedQuestionPaper) (t : PaperTable) : Prop :=
  ∀ p ∈ papers, ∃ row ∈ t.rows, pathUuid (hostId call p) = some row.id ∧
    CopyOf call.visit.teacherId p row

def Apart (call : ListCall) (p q : SavedQuestionPaper) : Prop :=
  pathUuid (hostId call p) ≠ pathUuid (hostId call q)

theorem Placed.step {call : ListCall} {t : PaperTable} {done : List SavedQuestionPaper}
    {p : SavedQuestionPaper} {id : String} (h : Placed call done t) (hp : Reaches call t p id)
    (hapart : ∀ q ∈ done, Apart call q p) : Placed call (done ++ [p]) (copied call t p) := by
  rcases copied_cases call t p with ⟨id, new, hreaches, hid, hcopy, hmem⟩ | ⟨hnone, -⟩
  · have hpath : pathUuid (hostId call p) = some new.id := hid ▸ hreaches.accepted.path
    intro q hq
    rcases List.mem_append.mp hq with hold | hlast
    · obtain ⟨row, hrow, hrowpath, hrowcopy⟩ := h q hold
      have hne : row.id ≠ id := by
        intro hsame
        refine hapart q hold ?_
        rw [hrowpath, hpath, hsame, hid]
      exact ⟨row, (hmem row).mpr (.inl ⟨hrow, hne⟩), hrowpath, hrowcopy⟩
    · rw [List.mem_singleton.mp hlast]
      exact ⟨new, (hmem new).mpr (.inr rfl), hpath, hcopy⟩
  · exact absurd hp (hnone id)

theorem Placed.run {call : ListCall} {t₀ t : PaperTable} {done papers : List SavedQuestionPaper}
    (h : Placed call done t) (htraced : Traced call t₀ done t)
    (hreach : ∀ p ∈ papers, ∃ id, Reaches call t₀ p id)
    (hapart : (done ++ papers).Pairwise (Apart call)) :
    Placed call (done ++ papers) (papers.foldl (copied call) t) := by
  induction papers generalizing done t with
  | nil => simpa using h
  | cons p papers ih =>
    obtain ⟨id, hid⟩ := hreach p List.mem_cons_self
    have hid' := (reaches_congr (htraced.free id) p).mpr hid
    have hfirst : ∀ q ∈ done, Apart call q p := fun q hq =>
      (List.pairwise_append.mp hapart).2.2 q hq p List.mem_cons_self
    have hrest := ih (h.step hid' hfirst) (htraced.step p)
      (fun q hq => hreach q (List.mem_cons_of_mem _ hq)) (by simpa using hapart)
    simpa using hrest

def StoredOnce (store : LocalStore) (teacherId : Uuid) (t : PaperTable) : Prop :=
  ∀ p ∈ store.papers, ∃ row ∈ t.rows, CopyOf teacherId p row ∧
    ∀ row' ∈ t.rows, row'.origin = some p.id → row' = row

instance (store : LocalStore) (teacherId : Uuid) (t : PaperTable) :
    Decidable (StoredOnce store teacherId t) :=
  inferInstanceAs (Decidable (∀ p ∈ store.papers, ∃ row ∈ t.rows, CopyOf teacherId p row ∧
    ∀ row' ∈ t.rows, row'.origin = some p.id → row' = row))

/-- A call with whose start every local paper is moved: it reads the papers, and each is
saved under an id that no other of them is sent with. -/
structure MovesAll (store : LocalStore) (call : ListCall) (t : PaperTable) : Prop where
  reads : call.readFails = false
  reaches : ∀ p ∈ store.papers, ∃ id, Reaches call t p id
  apart : store.papers.Pairwise (Apart call)

section Store
variable {store : LocalStore} {call : ListCall} {t₀ t : PaperTable}

theorem eq_of_paperId {p q : SavedQuestionPaper} (hp : p ∈ store.papers) (hq : q ∈ store.papers)
    (h : p.id = q.id) : p = q :=
  List.inj_on_of_nodup_map store.unique hp hq h

theorem storedOnce_pass_iff (hstart : ∀ row ∈ t₀.rows, row.origin = none) :
    StoredOnce store call.visit.teacherId (store.papers.foldl (copied call) t₀) ↔
      (∀ p ∈ store.papers, ∃ id, Reaches call t₀ p id) ∧ store.papers.Pairwise (Apart call) := by
  have htraced : Traced call t₀ store.papers (store.papers.foldl (copied call) t₀) :=
    (traced_start hstart).run
  have hown : ∀ p ∈ store.papers, ∀ row ∈ (store.papers.foldl (copied call) t₀).rows,
      row.origin = some p.id → Reaches call t₀ p row.id := by
    intro p hp row hrow horigin
    obtain ⟨q, hq, hqid, hreaches, -⟩ := htraced.copy row hrow p.id horigin
    exact eq_of_paperId hq hp hqid ▸ hreaches
  constructor
  · intro h
    refine ⟨fun p hp => ?_, ?_⟩
    · obtain ⟨row, hrow, hcopy, -⟩ := h p hp
      exact ⟨row.id, hown p hp row hrow hcopy.origin⟩
    · have hids : store.papers.Pairwise fun p q => p.id ≠ q.id :=
        List.pairwise_map.mp store.unique
      refine hids.imp_of_mem fun {p q} hp hq hne hsame => hne ?_
      obtain ⟨row, hrow, hcopy, -⟩ := h p hp
      obtain ⟨row', hrow', hcopy', -⟩ := h q hq
      have hpath := (hown p hp row hrow hcopy.origin).accepted.path
      have hpath' := (hown q hq row' hrow' hcopy'.origin).accepted.path
      rw [hpath, hpath', Option.some.injEq] at hsame
      have horigin := hcopy.origin
      rw [eq_of_id hrow hrow' hsame, hcopy'.origin] at horigin
      exact (Option.some.inj horigin).symm
  · rintro ⟨hreach, hapart⟩ p hp
    have hnone : Placed call [] t₀ := by simp [Placed]
    have hplaced : Placed call store.papers (store.papers.foldl (copied call) t₀) :=
      hnone.run (traced_start hstart) hreach hapart
    obtain ⟨row, hrow, hpath, hcopy⟩ := hplaced p hp
    refine ⟨row, hrow, hcopy, fun row' hrow' horigin => eq_of_id hrow' hrow ?_⟩
    have hpath' := (hown p hp row' hrow' horigin).accepted.path
    exact Option.some.inj (hpath'.symm.trans hpath)

theorem keeps_listPapers (visit : HostVisit) :
    (onHost (listPapers visit)).Keeps fun w => w := by
  have hlist : (listPapers visit).Keeps fun t => t :=
    .bind (.require _ _) fun _ => .bind .get fun _ => .pure _
  intro w
  simp [onHost, Command.zoom, hlist w.host]

theorem listSavedQuestionPapers_marked {w : PaperWorld}
    (h : w.marker.any (fun value => value ≠ "") = true) :
    (listSavedQuestionPapers store call w).2 = w := by
  have hmigrate : migrateLocalPapers store call w = (.ok (), w) := by
    rw [migrateLocalPapers, Command.bind_ok (Command.get_run w), if_pos h, Command.pure_run]
  rw [listSavedQuestionPapers, Command.bind_ok hmigrate]
  exact keeps_listPapers _ w

theorem listSavedQuestionPapers_unmarked {w : PaperWorld}
    (h : w.marker.any (fun value => value ≠ "") = false) :
    (listSavedQuestionPapers store call w).2 =
      ⟨some call.today.1,
        if call.readFails then w.host else store.papers.foldl (copied call) w.host⟩ := by
  have hmigrate : migrateLocalPapers store call w = (.ok (), ⟨some call.today.1,
      if call.readFails then w.host else store.papers.foldl (copied call) w.host⟩) := by
    rw [migrateLocalPapers, Command.bind_ok (Command.get_run w), if_neg (ne_true_of_eq_false h)]
    split
    · rfl
    · rw [Command.bind_ok (forM_copyPaper_run call store.papers w)]
      rfl
  rw [listSavedQuestionPapers, Command.bind_ok hmigrate]
  exact keeps_listPapers _ _

theorem afterListings_marked {calls : List ListCall} {w : PaperWorld}
    (h : w.marker.any (fun value => value ≠ "") = true) : afterListings store calls w = w := by
  induction calls with
  | nil => rfl
  | cons call calls ih =>
    rw [afterListings, List.foldl_cons, listSavedQuestionPapers_marked h]
    exact ih

structure Unmoved (w : PaperWorld) : Prop where
  marker : w.marker.any (fun value => value ≠ "") = false
  copies : ∀ row ∈ w.host.rows, row.origin = none

/-- Whatever the later listings meet, the Host has each local paper once if and only if the
first listing has moved them all. -/
theorem local_papers_move_iff (store : LocalStore) (first : ListCall) (later : List ListCall)
    {w : PaperWorld} (h : Unmoved w) :
    StoredOnce store first.visit.teacherId (afterListings store (first :: later) w).host ↔
      store.papers = [] ∨ MovesAll store first w.host := by
  have hrun : afterListings store (first :: later) w =
      (listSavedQuestionPapers store first w).2 := by
    have hmarked : (listSavedQuestionPapers store first w).2.marker.any
        (fun value => value ≠ "") = true := by
      rw [listSavedQuestionPapers_unmarked h.marker]
      simpa using first.today.2
    exact afterListings_marked hmarked
  rw [hrun, listSavedQuestionPapers_unmarked h.marker]
  cases hreads : first.readFails with
  | true =>
    constructor
    · intro hstored
      refine .inl (List.eq_nil_iff_forall_not_mem.mpr fun p hp => ?_)
      obtain ⟨row, hrow, hcopy, -⟩ := hstored p hp
      have horigin := h.copies row hrow
      rw [hcopy.origin] at horigin
      cases horigin
    · rintro (hnone | hmoves)
      · simp [StoredOnce, hnone]
      · exact absurd hmoves.reads (by simp [hreads])
  | false =>
    refine (storedOnce_pass_iff h.copies).trans ⟨fun ⟨hreach, hapart⟩ => ?_, ?_⟩
    · exact .inr ⟨hreads, hreach, hapart⟩
    · rintro (hnone | hmoves)
      · simp [hnone]
      · exact ⟨hmoves.reaches, hmoves.apart⟩

end Store

def samplePaper : SavedQuestionPaper where
  id := "paper-1"
  title := "Forces"
  subject := "Physics"
  questionText := "State the law of inertia."
  questionDocument := .obj .nil
  answerKeyText := "A body stays at rest or in uniform motion."
  answerKeyDocument := .obj .nil
  sources := .arr .nil
  classroomId := none
  board := none
  syllabusCode := none
  difficulty := none
  sourceMode := none
  rightsConfirmed := none
  advanced := none
  paperSpec := none

def sampleStore : LocalStore := ⟨[.paper samplePaper], List.nodup_singleton _⟩

def sampleListing (fate : SaveFate) : ListCall where
  visit := ⟨.teacher, 7, fun _ => true, "2026-09-01T08:00:00Z"⟩
  today := ⟨"2026-09-01T08:00:00.000Z", by decide⟩
  readFails := false
  fate _ := fate
  randomUUID _ := "3f2504e0-4f89-41d3-9a0c-0305e82c3301"

theorem unmoved_sample : Unmoved ⟨none, Table.empty⟩ where
  marker := rfl
  copies row hrow := by cases hrow

theorem local_papers_move_iff_sample :
    StoredOnce sampleStore 7
      (afterListings sampleStore [sampleListing .answered] ⟨none, Table.empty⟩).host := by
  refine (local_papers_move_iff sampleStore (sampleListing .answered) [] unmoved_sample).mpr
    (.inr ⟨rfl, fun p hp => ?_, List.pairwise_singleton _ _⟩)
  rw [List.mem_singleton.mp hp]
  refine ⟨"3f2504e0-4f89-41d3-9a0c-0305e82c3301", by decide, ?_, rfl, ?_, rfl, ?_⟩
  · decide +kernel
  · decide +kernel
  · intro row hrow
    cases hrow

/-- The first listing finds the Host away, and no later one sends the paper again. -/
theorem paper_not_moved_after_lost_save :
    StoredOnce sampleStore 7 (afterListings sampleStore
      [sampleListing .answered, sampleListing .answered] ⟨none, Table.empty⟩).host ∧
    ¬StoredOnce sampleStore 7 (afterListings sampleStore
      [sampleListing .lost, sampleListing .answered, sampleListing .answered]
      ⟨none, Table.empty⟩).host := by
  decide +kernel

end Cinder.Papers
