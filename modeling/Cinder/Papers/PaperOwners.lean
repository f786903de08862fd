import Cinder.Papers.MovedPapers
import Cinder.Papers.PaperRequests
set_option autoImplicit false

namespace Cinder.Papers.Requests
open Cinder.Host Cinder.Papers Cinder.Programs Cinder.Programs.Program Cinder.Storage

def PaperStatement.paperId : PaperStatement → String
  | .upsert _ id _ _ => id
  | .delete id _ => id

def PaperStatement.teacherId : PaperStatement → Uuid
  | .upsert visit _ _ _ => visit.teacherId
  | .delete _ owner => owner

def PaperStatement.saved : PaperStatement → Option SaveQuestionPaperInput
  | .upsert _ _ req _ => some req
  | .delete _ _ => none

def PaperStatement.savedBy (id : String) (l : PaperStatement) : Option Uuid :=
  if l.paperId = id then l.saved.map fun _ => l.teacherId else none

def PaperStatement.frees (id : String) (l : PaperStatement) : Bool :=
  l.paperId = id && l.saved.isNone

/-- What a statement does: it meets a paper of its own teacher or none, leaves the papers
with other ids alone, and what it leaves under its id is what it saves. -/
structure Effect (l : PaperStatement) (t t' : PaperTable) : Prop where
  owner : ∀ row ∈ t.rows, row.id = l.paperId → row.ownerId = l.teacherId
  others : ∀ x : QuestionPaperRow, x.id ≠ l.paperId → (x ∈ t'.rows ↔ x ∈ t.rows)
  own : ∀ x ∈ t'.rows, x.id = l.paperId →
    x.ownerId = l.teacherId ∧ ∃ req, l.saved = some req ∧ x.input = storedInput req
  stored : l.saved ≠ none → ∃ x ∈ t'.rows, x.id = l.paperId

section Statements
variable {l : PaperStatement} {t t' : PaperTable}

theorem effect_upsert {visit : HostVisit} {id : String} {req : SaveQuestionPaperInput}
    {origin : Option String} (h : upsertPaper visit id req origin t = .ok t') :
    Effect (.upsert visit id req origin) t t' := by
  have howner := owner_of_upsertPaper h
  obtain ⟨t'', row, hok, hid, hrowner, hinput, -, hmem⟩ :=
    @upsertPaper_ok _ _ _ req origin howner
  have hsame : t'' = t' := Except.ok.inj (hok.symm.trans h)
  subst hsame
  refine ⟨howner, fun x hx => ?_, fun x hx hxid => ?_, fun _ => ?_⟩
  · rw [hmem]
    constructor
    · rintro (⟨hold, -⟩ | rfl)
      · exact hold
      · exact absurd hid hx
    · exact fun hold => .inl ⟨hold, hx⟩
  · rcases (hmem x).mp hx with ⟨-, hne⟩ | rfl
    · exact absurd hxid hne
    · exact ⟨hrowner, req, rfl, hinput⟩
  · exact ⟨row, (hmem row).mpr (.inr rfl), hid⟩

theorem effect_delete {id : String} {owner : Uuid} {row : QuestionPaperRow} (hrow : row ∈ t.rows)
    (hown : ownPaper id owner row = true) :
    Effect (.delete id owner) t (t.delete (ownPaper id owner)) := by
  simp only [ownPaper, Bool.and_eq_true, decide_eq_true_eq] at hown
  have howner : ∀ x ∈ t.rows, x.id = id → x.ownerId = owner := fun x hx hxid => by
    rw [eq_of_id hx hrow (hxid.trans hown.1.symm)]
    exact hown.2
  refine ⟨howner, fun x hx => ?_, fun x hx hxid => ?_, fun hnone => absurd rfl hnone⟩
  · have hkept : ownPaper id owner x = false := by
      simp only [ownPaper, Bool.and_eq_false_iff, decide_eq_false_iff_not]
      exact .inl hx
    rw [Table.mem_delete, hkept]
    simp
  · obtain ⟨hold, hkept⟩ := Table.mem_delete.mp hx
    have hmine : ownPaper id owner x = true := by
      simp only [ownPaper, Bool.and_eq_true, decide_eq_true_eq]
      exact ⟨hxid, howner x hold hxid⟩
    rw [hmine] at hkept
    cases hkept

theorem run_effect (h : l.run t = .ok t') : Effect l t t' := by
  cases l with
  | upsert visit id req origin => exact effect_upsert h
  | delete id owner =>
    simp only [PaperStatement.run] at h
    split at h
    · next hany =>
      cases h
      obtain ⟨row, hrow, hown⟩ := List.any_eq_true.mp hany
      exact effect_delete hrow hown
    · cases h

theorem Effect.touches (h : Effect l t t') {row : QuestionPaperRow} (hrow : row ∈ t.rows)
    (hgone : row ∉ t'.rows) : row.ownerId = l.teacherId := by
  by_cases hid : row.id = l.paperId
  · exact h.owner row hrow hid
  · exact absurd ((h.others row hid).mpr hrow) hgone

theorem Effect.steady (h : Effect l t t') {row row' : QuestionPaperRow} (hrow : row ∈ t.rows)
    (hrow' : row' ∈ t'.rows) (hid : row'.id = row.id) : row'.ownerId = row.ownerId := by
  by_cases hown : row.id = l.paperId
  · rw [(h.own row' hrow' (hid.trans hown)).1, h.owner row hrow hown]
  · have hold := (h.others row' (hid ▸ hown)).mp hrow'
    rw [eq_of_id hold hrow hid]

end Statements

section Histories
variable {ι : Type}

def firstSaver (id : String) : List (Event ι PaperTable PaperStatement) → Option Uuid
  | [] => none
  | e :: earlier =>
    if e.label.frees id = true then none else (firstSaver id earlier).or (e.label.savedBy id)

structure Kept (w : World ι PaperTable PaperStatement) : Prop where
  owner : ∀ row ∈ w.state.rows, firstSaver row.id w.history = some row.ownerId
  stored : ∀ id owner, firstSaver id w.history = some owner → ∃ row ∈ w.state.rows, row.id = id
  rights : ∀ row ∈ w.state.rows, row.input.sourceMode.needsRightsConfirmation = true →
    row.input.rightsConfirmed = true

def Checked (l : PaperStatement) : Prop := ∀ req ∈ l.saved, validate req = .ok ()

theorem rights_of_validate {req : SaveQuestionPaperInput} (h : validate req = .ok ())
    (hneeds : req.sourceMode.needsRightsConfirmation = true) : req.rightsConfirmed = true := by
  unfold validate at h
  split at h
  · cases h
  split at h
  · cases h
  · next hrights => simpa [hneeds] using hrights

theorem firstSaver_other {id : String} {l : PaperStatement} (h : l.paperId ≠ id) {i : ι}
    {t : PaperTable} (earlier : List (Event ι PaperTable PaperStatement)) :
    firstSaver id (⟨i, l, t⟩ :: earlier) = firstSaver id earlier := by
  simp [firstSaver, PaperStatement.frees, PaperStatement.savedBy, h]

theorem firstSaver_save {l : PaperStatement} (h : l.saved ≠ none) {i : ι} {t : PaperTable}
    (earlier : List (Event ι PaperTable PaperStatement)) :
    firstSaver l.paperId (⟨i, l, t⟩ :: earlier) =
      (firstSaver l.paperId earlier).or (some l.teacherId) := by
  obtain ⟨req, hreq⟩ := Option.ne_none_iff_exists'.mp h
  simp [firstSaver, PaperStatement.frees, PaperStatement.savedBy, hreq]

theorem kept_step {i : ι} {l : PaperStatement} {w w' : World ι PaperTable PaperStatement}
    (hw : Kept w) (hl : Checked l) (hwrote : World.Wrote i l w w') : Kept w' := by
  obtain ⟨hrun, hhistory⟩ := hwrote
  have heffect : Effect l w.state w'.state := run_effect hrun
  refine ⟨fun row hrow => ?_, fun id owner howner => ?_, fun row hrow hneeds => ?_⟩
  · rw [hhistory]
    by_cases hid : row.id = l.paperId
    · obtain ⟨hteacher, req, hreq, -⟩ := heffect.own row hrow hid
      rw [hid, firstSaver_save (by simp [hreq]), hteacher]
      cases hearlier : firstSaver l.paperId w.history with
      | none => rfl
      | some owner =>
        -- The id is stored already, and the statement has met its row.
        obtain ⟨old, hold, holdid⟩ := hw.stored l.paperId owner hearlier
        have hsame := hw.owner old hold
        rw [holdid, hearlier, heffect.owner old hold holdid] at hsame
        rw [hsame]
        rfl
    · rw [firstSaver_other (Ne.symm hid)]
      exact hw.owner row ((heffect.others row hid).mp hrow)
  · rw [hhistory] at howner
    by_cases hid : l.paperId = id
    · have hsaved : l.saved ≠ none := by
        intro hnone
        simp [firstSaver, PaperStatement.frees, hid, hnone] at howner
      obtain ⟨x, hx, hxid⟩ := heffect.stored hsaved
      exact ⟨x, hx, hxid.trans hid⟩
    · rw [firstSaver_other hid] at howner
      obtain ⟨row, hrow, hrowid⟩ := hw.stored id owner howner
      exact ⟨row, (heffect.others row (hrowid.trans_ne (Ne.symm hid))).mpr hrow, hrowid⟩
  · by_cases hid : row.id = l.paperId
    · obtain ⟨-, req, hreq, hinput⟩ := heffect.own row hrow hid
      have hconfirmed := rights_of_validate (hl req hreq)
      rw [hinput] at hneeds ⊢
      exact hconfirmed hneeds
    · exact hw.rights row ((heffect.others row hid).mp hrow) hneeds

variable [DecidableEq ι]

/-- What holds of the stored papers and of the answers, and what the next move may do. -/
structure StayWithAuthor (c : PaperPool ι) : Prop where
  owner : ∀ row ∈ c.world.state.rows, firstSaver row.id c.world.history = some row.ownerId
  steady : ∀ m, ∀ row ∈ c.world.state.rows, ∀ row' ∈ (c.move handle m).world.state.rows,
    row'.id = row.id → row'.ownerId = row.ownerId
  untouched : ∀ m, ∀ row ∈ c.world.state.rows, row ∉ (c.move handle m).world.state.rows →
    ∃ i call p, m = .advance i ∧ c.procs i = some (call, p) ∧
      call.visit.teacherId = row.ownerId
  answers : ∀ i call a, c.procs i = some (call, .ret a) →
    ∀ row ∈ a.papers, row.ownerId = call.visit.teacherId
  rights : ∀ row ∈ c.world.state.rows, row.input.sourceMode.needsRightsConfirmation = true →
    row.input.rightsConfirmed = true

theorem Issued.checked {call : PaperCall} {l : PaperStatement} (h : Issued call l) :
    Checked l := by
  cases h with
  | upsert origin hvalid =>
    intro req hreq
    cases hreq
    exact hvalid
  | delete id => exact fun req hreq => (by cases hreq)

theorem Issued.teacherId {call : PaperCall} {l : PaperStatement} (h : Issued call l) :
    l.teacherId = call.visit.teacherId := by
  cases h <;> rfl

theorem kept_run (ms : List (Move ι PaperCall)) :
    Kept ((Pool.idle .empty : PaperPool ι).run handle ms).world := by
  have hchecked : (Pool.idle .empty : PaperPool ι).Guarded handle (fun _ => True)
      (fun _ l _ => Checked l) ms :=
    Pool.guarded_of_writes (P := fun _ => True)
      (fun call => (handle_issues call).imp fun l h => h.checked) (fun _ _ _ _ hl _ _ => hl)
      (fun i r p hp => by cases hp) (fun _ _ _ => trivial) fun _ _ => trivial
  refine Protocol.inv_of_guarded (fun i l w w' hw hl hwrote => kept_step hw hl hwrote)
    ⟨?_, ?_, ?_⟩ hchecked
  · intro row hrow
    cases hrow
  · intro id owner h
    cases h
  · intro row hrow
    cases hrow

/-- However the statements of the requests come, a stored paper is the teacher's whose save
took its id when it was free, and only a request of that teacher changes, removes or
returns it. -/
theorem papers_stay_with_author (ms : List (Move ι PaperCall)) :
    StayWithAuthor ((Pool.idle .empty : PaperPool ι).run handle ms) := by
  have hwrites := Pool.writesOnly_run handle_issues (Pool.idle .empty : PaperPool ι)
    (fun i r p hp => by cases hp) ms
  have hkept := kept_run ms
  have hanswered : ∀ i call a, ((Pool.idle .empty : PaperPool ι).run handle ms).procs i =
      some (call, .ret a) → ∀ row ∈ a.papers, row.ownerId = call.visit.teacherId :=
    fun i call a ha row hrow => by
      obtain ⟨seen, hseen, -⟩ := Pool.answered_run rfl ha
      exact owner_of_answers hseen row hrow
  generalize (Pool.idle .empty : PaperPool ι).run handle ms = c at *
  have hmove : ∀ m, (c.move handle m).world = c.world ∨ ∃ i call l k, m = .advance i ∧
      c.procs i = some (call, .write l k) ∧ l.teacherId = call.visit.teacherId ∧
        Effect l c.world.state (c.move handle m).world.state := by
    intro m
    rcases c.move_world handle m with hw | ⟨i, call, l, k, rfl, hp, hrun, -⟩
    · exact .inl hw
    · exact .inr ⟨i, call, l, k, rfl, hp, (hwrites i call _ hp).1.teacherId, run_effect hrun⟩
  refine ⟨hkept.owner, fun m row hrow row' hrow' hid => ?_, fun m row hrow hgone => ?_,
    hanswered, hkept.rights⟩
  · rcases hmove m with hw | ⟨i, call, l, k, -, -, -, heffect⟩
    · rw [hw] at hrow'
      rw [eq_of_id hrow' hrow hid]
    · exact heffect.steady hrow hrow' hid
  · rcases hmove m with hw | ⟨i, call, l, k, hm, hp, hteacher, heffect⟩
    · rw [hw] at hgone
      exact absurd hrow hgone
    · exact ⟨i, call, _, hm, hp, hteacher ▸ (heffect.touches hrow hgone).symm⟩

end Histories

/-- One teacher saves a paper and deletes it; then another saves one with the same id. -/
def reusedId : List (Move Nat PaperCall) :=
  let visit (teacherId : Uuid) : HostVisit :=
    ⟨.teacher, teacherId, fun _ => true, "2026-09-01T08:00:00Z"⟩
  let id := "3f2504e0-4f89-41d3-9a0c-0305e82c3301"
  [.start 0 ⟨visit 7, .update id (toInput samplePaper) none⟩, .advance 0, .advance 0,
    .start 1 ⟨visit 7, .delete id⟩, .advance 1,
    .start 2 ⟨visit 8, .update id (toInput samplePaper) none⟩, .advance 2]

/-- The paper stored now is not owned by the teacher who first saved its id. -/
theorem owner_not_first_saver_of_reused_id :
    let c := (Pool.idle .empty : PaperPool Nat).run handle reusedId
    ∃ row ∈ c.world.state.rows, row.ownerId = 8 ∧
      (c.world.history.reverse.findSome? fun e => e.label.savedBy row.id) = some 7 := by
  decide +kernel

end Cinder.Papers.Requests
