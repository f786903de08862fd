import Cinder.Notes.NoteSaving
set_option autoImplicit false

/-!
Whether two saves from one base can both be accepted. A request compares its
base with the stored `updated_at` in one step and writes in a later one.
-/

namespace Cinder.Notes
open Cinder.Host Cinder.Storage Cinder.Library Cinder.Programs Cinder.Programs.Program
open Cinder.Programs.Protocol

namespace NoteStatement

def selects (note : Uuid) : NoteStatement → Bool
  | .selectUpdatedAt n _ => n = note
  | _ => false

def saves (note : Uuid) : NoteStatement → Bool
  | .updateNote n _ _ _ _ => n = note
  | _ => false

def savedNote? : NoteStatement → Option Uuid
  | .updateNote note _ _ _ _ => some note
  | _ => none

def readBase? : NoteStatement → Option Time
  | .selectUpdatedAt _ base => base
  | _ => none

def reading? : NoteStatement → Option Time
  | .utcNow now => some now
  | _ => none

def savedBase? (note : Uuid) : NoteStatement → Option Time
  | .updateNote n base _ _ _ => if n = note then base else none
  | _ => none

end NoteStatement

section Conditions
variable {ι : Type} (i : ι)

/-- The clock is strictly increasing, and the base of a request is a time that
it has already shown. -/
def Timely (l : NoteStatement) (s : NoteStore) : Prop :=
  (∀ base ∈ l.readBase?, base ≤ s.clock) ∧ ∀ now ∈ l.reading?, s.clock < now

/-- The note was saved after the request had read its `updated_at`. -/
def SavedSince (note : Uuid) (history : List (Event ι NoteStore NoteStatement)) : Prop :=
  Afterwards (fun e => e.proc = i ∧ e.label.selects note = true)
    (fun e => e.label.saves note = true) history

/-- No other save of the note comes between the `SELECT` and the `UPDATE` of a
request. -/
def Undisturbed (l : NoteStatement) (w : World ι NoteStore NoteStatement) : Prop :=
  ∀ note ∈ l.savedNote?, ¬SavedSince i note w.history

instance (l : NoteStatement) (s : NoteStore) : Decidable (Timely l s) :=
  inferInstanceAs (Decidable (_ ∧ _))

instance [DecidableEq ι] (note : Uuid) (history : List (Event ι NoteStore NoteStatement)) :
    Decidable (SavedSince i note history) :=
  inferInstanceAs (Decidable (Afterwards _ _ history))

instance [DecidableEq ι] (l : NoteStatement) (w : World ι NoteStore NoteStatement) :
    Decidable (Undisturbed i l w) :=
  inferInstanceAs (Decidable (∀ note ∈ l.savedNote?, _))

end Conditions

def LeavesLibrary {ι : Type} (e : Event ι NoteStore NoteStatement) : Prop :=
  ∀ s, e.label.run e.before = .ok s → s.lib = e.before.lib

structure OptimisticSaves {ι : Type} (c : NotePool ι) : Prop where
  /-- Of two requests with one base at most one was answered with success. -/
  once : ∀ i j call call' body body', c.procs i = some (call, .ret body) →
    c.procs j = some (call', .ret body') → call.id = call'.id →
    call.req.baseUpdatedAt = call'.req.baseUpdatedAt → i = j
  /-- A save replaces no body that is newer than its base. -/
  notNewer : ∀ e ∈ c.world.history, ∀ note, ∀ base ∈ e.label.savedBase? note,
    ∀ row ∈ noteBody? e.before.lib note, row.updatedAt ≤ base
  /-- A request answered with a conflict changed nothing. -/
  refused : ∀ i call, c.procs i = some (call, .fail .conflict) →
    ∀ e ∈ c.world.history, e.proc = i → LeavesLibrary e

section Statements
variable (lib : LibraryTables) {n note : Uuid} {docJson : Json} {plaintext : String} {now : Time}

theorem noteBodies_saveNoteTx : (saveNoteTx lib n docJson plaintext now).noteBodies =
    lib.noteBodies.update (fun b => b.nodeId = n) (saveBody docJson plaintext now)
      (saveBody_keeps docJson plaintext now) := rfl

theorem noteBody?_saveNoteTx :
    noteBody? (saveNoteTx lib note docJson plaintext now) note =
      (noteBody? lib note).map (saveBody docJson plaintext now) := by
  have hkeys : ∀ b : NoteBodyRow,
      decide ((saveBody docJson plaintext now b).nodeId = note) = decide (b.nodeId = note) :=
    fun _ => rfl
  rw [noteBody?, noteBodies_saveNoteTx, Table.find?_update hkeys, ← noteBody?]
  refine Option.map_congr fun b hb => ?_
  have hid := (Table.mem_of_find? hb).2
  simp only [decide_eq_true_eq] at hid
  simp [hid]

theorem noteBody?_saveNoteTx_other (hne : n ≠ note) :
    noteBody? (saveNoteTx lib n docJson plaintext now) note = noteBody? lib note := by
  rw [noteBody?, noteBodies_saveNoteTx]
  refine Table.find?_update_other (fun _ => rfl) fun b hb => ?_
  simp only [decide_eq_true_eq] at hb
  simp [hb, Ne.symm hne]

end Statements

section Runs
variable {ι : Type}

/-- The saves of the note so far have distinct bases, each replaced a body that
is not newer than its base, and the stored body is newer than all of them. -/
structure SerialSaves (note : Uuid) (w : World ι NoteStore NoteStatement) : Prop where
  notNewer : ∀ e ∈ w.history, ∀ base ∈ e.label.savedBase? note,
    ∀ row ∈ noteBody? e.before.lib note, row.updatedAt ≤ base
  past : ∀ e ∈ w.history, ∀ base ∈ e.label.savedBase? note,
    ∀ row ∈ noteBody? w.state.lib note, base < row.updatedAt
  distinct : w.history.Pairwise fun e e' =>
    ∀ base ∈ e.label.savedBase? note, base ∉ e'.label.savedBase? note

/-- What `save_note` has seen to when it comes to its `UPDATE`. -/
def FollowsBase (l : NoteStatement) (s : NoteStore) : Prop :=
  match l with
  | .updateNote note base _ _ now => ∃ b, base = some b ∧ b < now ∧
      ∃ row ∈ noteBody? s.lib note, row.updatedAt ≤ b
  | _ => True

theorem noteBody?_step {l : NoteStatement} {s s' : NoteStore} {note : Uuid}
    (h : l.run s = .ok s') (hl : l.saves note = false) :
    noteBody? s'.lib note = noteBody? s.lib note := by
  cases l with
  | selectUpdatedAt n base => cases h; rfl
  | utcNow now => cases h; rfl
  | updateNote n base docJson plaintext now =>
    cases h
    exact noteBody?_saveNoteTx_other s.lib (by simpa [NoteStatement.saves] using hl)

theorem savedBase?_eq_none {l : NoteStatement} {note : Uuid} (hl : l.saves note = false) :
    l.savedBase? note = none := by
  cases l with
  | selectUpdatedAt n base => rfl
  | utcNow now => rfl
  | updateNote n base docJson plaintext now =>
    have hne : n ≠ note := by simpa [NoteStatement.saves] using hl
    simp [NoteStatement.savedBase?, hne]

theorem serialSaves_other {i : ι} {l : NoteStatement} {note : Uuid}
    {w w' : World ι NoteStore NoteStatement} (h : SerialSaves note w)
    (hl : l.saves note = false) (hw : World.Wrote i l w w') : SerialSaves note w' := by
  have hbase := savedBase?_eq_none hl
  obtain ⟨hrun, hhistory⟩ := hw
  constructor
  · rw [hhistory, List.forall_mem_cons]
    exact ⟨by simp [hbase], h.notNewer⟩
  · rw [hhistory, List.forall_mem_cons, noteBody?_step hrun hl]
    exact ⟨by simp [hbase], h.past⟩
  · rw [hhistory, List.pairwise_cons]
    exact ⟨by simp [hbase], h.distinct⟩

theorem serialSaves_save {i : ι} {note : Uuid} {base : Option Time} {docJson : Json}
    {plaintext : String} {now : Time} {w w' : World ι NoteStore NoteStatement}
    (h : SerialSaves note w)
    (hl : FollowsBase (.updateNote note base docJson plaintext now) w.state)
    (hw : World.Wrote i (.updateNote note base docJson plaintext now) w w') :
    SerialSaves note w' := by
  obtain ⟨b, rfl, hnow, row, hrow, hle⟩ := hl
  obtain ⟨hrun, hhistory⟩ := hw
  have hlib : w'.state.lib = saveNoteTx w.state.lib note docJson plaintext now := by
    rw [← Except.ok.inj hrun]
  have hrow' : noteBody? w.state.lib note = some row := hrow
  have hstored : noteBody? w'.state.lib note = some (saveBody docJson plaintext now row) := by
    rw [hlib, noteBody?_saveNoteTx, hrow', Option.map_some]
  constructor
  · rw [hhistory, List.forall_mem_cons]
    refine ⟨fun base hb r hr => ?_, h.notNewer⟩
    simp only [NoteStatement.savedBase?, if_pos, Option.mem_some_iff] at hb
    rw [hrow'] at hr
    cases hr
    exact hb ▸ hle
  · rw [hhistory, List.forall_mem_cons, hstored]
    constructor
    · intro base hb r hr
      simp only [NoteStatement.savedBase?, if_pos, Option.mem_some_iff] at hb
      cases hr
      simpa [saveBody, ← hb] using hnow
    · intro e he base hb r hr
      cases hr
      have hpast := h.past e he base hb row hrow
      exact Int.lt_trans (Int.lt_of_lt_of_le hpast hle) hnow
  · rw [hhistory, List.pairwise_cons]
    refine ⟨fun e he base hb hb' => ?_, h.distinct⟩
    simp only [NoteStatement.savedBase?, if_pos, Option.mem_some_iff] at hb
    have hpast := h.past e he base hb' row hrow
    exact Int.lt_irrefl base (Int.lt_of_lt_of_le hpast (hb ▸ hle))

/-- The rules of concurrent saves. -/
def noteProtocol (ι : Type) : Protocol ι NoteStore NoteStatement where
  inv w := ∀ note, SerialSaves note w
  guard i l w := Timely l w.state ∧ Undisturbed i l w
  promise _ l w := FollowsBase l w.state
  inv_step i l w w' hi _ hl hw note := by
    by_cases hs : l.saves note = true
    · cases l with
      | selectUpdatedAt n base => cases hs
      | utcNow now => cases hs
      | updateNote n base docJson plaintext now =>
        simp only [NoteStatement.saves, decide_eq_true_eq] at hs
        subst hs
        exact serialSaves_save (hi n) hl hw
    · exact serialSaves_other (hi note) (by simpa using hs) hw

/-- The request has read the note's `updated_at`, which is later than `base`
now only if the note was saved since. -/
def Compared (i : ι) (note : Uuid) (base : Time) (w : World ι NoteStore NoteStatement) : Prop :=
  (∃ e ∈ w.history, e.proc = i ∧ e.label.selects note = true) ∧
    ∃ row ∈ noteBody? w.state.lib note, ¬SavedSince i note w.history → row.updatedAt ≤ base

theorem stable_compared (i : ι) (note : Uuid) (base : Time) :
    (noteProtocol ι).Stable i (Compared i note base) := by
  rintro j l w w' - ⟨⟨e, he, hsel⟩, row, hrow, hle⟩ - - - ⟨hrun, hhistory⟩
  rw [Compared, hhistory]
  refine ⟨⟨e, List.mem_cons_of_mem _ he, hsel⟩, ?_⟩
  by_cases hs : l.saves note = true
  · have hsome : ∃ row', row' ∈ noteBody? w'.state.lib note := by
      cases l with
      | selectUpdatedAt n base => cases hs
      | utcNow now => cases hs
      | updateNote n base docJson plaintext now =>
        simp only [NoteStatement.saves, decide_eq_true_eq] at hs
        subst hs
        have hrow' : noteBody? w.state.lib n = some row := hrow
        rw [← Except.ok.inj hrun]
        exact ⟨saveBody docJson plaintext now row, by simp [noteBody?_saveNoteTx, hrow']⟩
    obtain ⟨row', hrow'⟩ := hsome
    exact ⟨row', hrow', fun hn => absurd (.inl ⟨hs, e, he, hsel⟩) hn⟩
  · rw [noteBody?_step hrun (by simpa using hs)]
    exact ⟨row, hrow, fun hn => hle fun h => hn (.inr h)⟩

def InPast (base : Option Time) (w : World ι NoteStore NoteStatement) : Prop :=
  ∀ b ∈ base, b ≤ w.state.clock

theorem stable_inPast (i : ι) (base : Option Time) :
    (noteProtocol ι).Stable i (InPast base) := by
  rintro j l w w' - h - ⟨⟨-, hclock⟩, -⟩ - ⟨hrun, -⟩ b hb
  have hle := h b hb
  cases l with
  | selectUpdatedAt n base =>
    rw [← Except.ok.inj hrun]
    exact hle
  | updateNote n base docJson plaintext now =>
    rw [← Except.ok.inj hrun]
    exact hle
  | utcNow now =>
    rw [← Except.ok.inj hrun]
    exact Int.le_of_lt (Int.lt_of_le_of_lt hle (hclock now rfl))

theorem stable_and {i : ι} {P Q : World ι NoteStore NoteStatement → Prop}
    (hP : (noteProtocol ι).Stable i P) (hQ : (noteProtocol ι).Stable i Q) :
    (noteProtocol ι).Stable i fun w => P w ∧ Q w :=
  fun j l w w' hj h hi hg hl hw =>
    ⟨hP j l w w' hj h.1 hi hg hl hw, hQ j l w w' hj h.2 hi hg hl hw⟩

/-- What the `SELECT` of `updated_at` tells its request. -/
def Read (i : ι) (note : Uuid) (base current : Option Time)
    (w : World ι NoteStore NoteStatement) : Prop :=
  InPast base w ∧ ∀ t ∈ current, Compared i note t w

theorem stable_read (i : ι) (note : Uuid) (base current : Option Time) :
    (noteProtocol ι).Stable i (Read i note base current) :=
  stable_and (stable_inPast i base) fun j l w w' hj h hi hg hl hw t ht =>
    stable_compared i note t j l w w' hj (h t ht) hi hg hl hw

theorem selectUpdatedAt_follows (i : ι) (note : Uuid) (base : Option Time) :
    (noteProtocol ι).Follows i (Read i note base)
      (executeReturning (.selectUpdatedAt note base)
        fun s => (noteBody? s.lib note).map (·.updatedAt)) (fun _ => True) := by
  refine Follows.executeReturning (stable_const _ i True) (stable_read i note base)
    fun w w' _ _ hw hg => ?_
  obtain ⟨hrun, hhistory⟩ := hw
  have hstate : w'.state = w.state := (Except.ok.inj hrun).symm
  refine ⟨trivial, ?_, fun t ht => ?_⟩
  · intro b hb
    rw [hstate]
    exact hg.1.1 b hb
  · obtain ⟨row, hrow, rfl⟩ := Option.map_eq_some_iff.mp ht
    rw [Compared, hstate, hhistory]
    exact ⟨⟨_, List.mem_cons_self, rfl, by simp [NoteStatement.selects]⟩, row, hrow,
      fun _ => Int.le_refl _⟩

theorem utcNow_follows (i : ι) (note : Uuid) (b now : Time) :
    (noteProtocol ι).Follows i (fun _ w => Compared i note b w ∧ b < now)
      (execute (.utcNow now)) (fun w => Compared i note b w ∧ InPast (some b) w) := by
  refine Follows.execute (stable_and (stable_compared i note b) (stable_inPast i (some b)))
    (stable_and (stable_compared i note b) (stable_const _ i _)) fun w w' _ h hw hg => ?_
  obtain ⟨⟨⟨e, he, hsel⟩, row, hrow, hle⟩, hpast⟩ := h
  have hbody : noteBody? w'.state.lib note = noteBody? w.state.lib note :=
    noteBody?_step hw.1 rfl
  refine ⟨trivial, ⟨?_, row, hbody ▸ hrow, fun hn => hle fun hs => hn ?_⟩,
    Int.lt_of_le_of_lt (hpast b rfl) (hg.1.2 now rfl)⟩
  · rw [hw.2]
    exact ⟨e, List.mem_cons_of_mem _ he, hsel⟩
  · rw [SavedSince, hw.2]
    exact .inr hs

def Accepted (i : ι) (note : Uuid) (base : Option Time) (w : World ι NoteStore NoteStatement) :
    Prop :=
  ∃ b ∈ base, ∃ e ∈ w.history, e.proc = i ∧ e.label.savedBase? note = some b

theorem stable_accepted (i : ι) (note : Uuid) (base : Option Time) :
    (noteProtocol ι).Stable i (Accepted i note base) := by
  rintro j l w w' - ⟨b, hb, e, he, h⟩ - - - ⟨-, hhistory⟩
  rw [Accepted, hhistory]
  exact ⟨b, hb, e, List.mem_cons_of_mem _ he, h⟩

theorem updateNote_follows (i : ι) (note : Uuid) (b : Time) (docJson : Json)
    (plaintext : String) (now : Time) :
    (noteProtocol ι).Follows i (fun _ => Accepted i note (some b))
      (execute (.updateNote note (some b) docJson plaintext now))
      (fun w => Compared i note b w ∧ b < now) := by
  refine Follows.execute (stable_and (stable_compared i note b) (stable_const _ i _))
    (stable_accepted i note (some b)) fun w w' _ h hw hg => ?_
  obtain ⟨⟨-, row, hrow, hle⟩, hnow⟩ := h
  refine ⟨⟨b, rfl, hnow, row, hrow, hle (hg.2 note rfl)⟩, ?_⟩
  rw [Accepted, hw.2]
  exact ⟨b, rfl, _, List.mem_cons_self, rfl, by simp [NoteStatement.savedBase?]⟩

theorem saveNote_follows (i : ι) (env : Env) (user : CurrentUser) (id : Uuid)
    (req : SaveNoteRequest) (hbase : req.baseUpdatedAt.isSome = true) :
    (noteProtocol ι).Follows i (fun _ => Accepted i id req.baseUpdatedAt)
      (saveNote env user id req) (fun _ => True) := by
  have howned : (assertOwned id user.id).ReadOnly :=
    (readOnly_queryRow _ _).bind fun _ => readOnly_require _ _
  obtain ⟨b, hb⟩ := Option.isSome_iff_exists.mp hbase
  rw [saveNote, hb]
  refine Follows.bind (Follows.readOnly (stable_const _ i True) howned) fun _ => ?_
  refine Follows.bind (selectUpdatedAt_follows i id (some b)) fun current => ?_
  cases current with
  | none => exact Follows.fail (stable_read i id (some b) none)
  | some t =>
    have hread := stable_read i id (some b) (some t)
    simp only [Option.elim, Program.ofExcept, ret_bind]
    -- the comparison is made with the value read, whatever is stored by now
    refine Follows.bind (Q := fun _ w => Compared i id b w ∧ InPast (some b) w) ?_ fun _ =>
      Follows.bind (utcNow_follows i id b (env.now 0)) fun _ =>
        Follows.bind (updateNote_follows i id b req.docJson req.plaintext (env.now 0)) fun _ =>
          Follows.ret (stable_accepted i id (some b)) fun _ h => h
    by_cases hle : ∀ base ∈ some b, ¬t > base
    · have ht : t ≤ b := Int.not_lt.mp (hle b rfl)
      rw [require, if_pos hle]
      refine Follows.ret hread fun w h => ?_
      obtain ⟨hsel, row, hrow, hold⟩ := h.2 t rfl
      exact ⟨⟨hsel, row, hrow, fun hn => Int.le_trans (hold hn) ht⟩, h.1⟩
    · rw [require, if_neg hle]
      exact Follows.fail hread

/-- A conflict is reported before the `UPDATE`. -/
theorem saveNote_failsBefore (env : Env) (user : CurrentUser) (id : Uuid)
    (req : SaveNoteRequest) :
    (saveNote env user id req).FailsBefore (fun l => l.savedNote?.isSome = true) .conflict := by
  have howned : (assertOwned id user.id).ReadOnly :=
    (readOnly_queryRow _ _).bind fun _ => readOnly_require _ _
  refine FailsBefore.bind howned.writesOnly fun _ => ?_
  refine FailsBefore.bind ⟨by simp [NoteStatement.savedNote?], fun _ => trivial⟩ fun current => ?_
  refine FailsBefore.bind (readOnly_ofExcept _).writesOnly fun t => ?_
  refine FailsBefore.bind (readOnly_require _ _).writesOnly fun _ => ?_
  exact NeverFails.failsBefore fun _ _ => trivial

end Runs

theorem leavesLibrary_of_savedNote? {ι : Type} {e : Event ι NoteStore NoteStatement}
    (h : ¬e.label.savedNote?.isSome = true) : LeavesLibrary e := by
  obtain ⟨i, l, before⟩ := e
  intro s hs
  cases l with
  | selectUpdatedAt note base => cases hs; rfl
  | utcNow now => cases hs; rfl
  | updateNote note base docJson plaintext now => exact absurd rfl h

theorem run_ne_conflict (l : NoteStatement) (s : NoteStore) :
    Engine.run l s ≠ .error HostError.conflict := by
  cases l <;> exact fun h => by cases h

variable {ι : Type} [DecidableEq ι]

/-- When every save is undisturbed, the comparison does what it is there for. -/
theorem undisturbed_saves_are_optimistic (s : NoteStore) (ms : List (Move ι SaveNoteCall))
    (h : (Pool.idle s : NotePool ι).Guarded handle
      (fun call => call.req.baseUpdatedAt.isSome = true)
      (fun i l w => Timely l w.state ∧ Undisturbed i l w) ms) :
    OptimisticSaves ((Pool.idle s : NotePool ι).run handle ms) := by
  have hidle : (noteProtocol ι).inv ⟨s, []⟩ := fun note => ⟨by simp, by simp, .nil⟩
  have hrun := running_run
    (fun i (call : SaveNoteCall) => saveNote_follows i call.env call.user call.id call.req)
    (running_idle hidle) h
  constructor
  · intro i j call call' body body' hi hj hid hbase
    obtain ⟨P, hP, hf⟩ := hrun.2 i call _ hi
    obtain ⟨P', hP', hf'⟩ := hrun.2 j call' _ hj
    obtain ⟨b, hb, e, he, rfl, heb⟩ := hf.2 _ hP
    obtain ⟨b', hb', e', he', rfl, heb'⟩ := hf'.2 _ hP'
    rw [← hbase, hb] at hb'
    cases hb'
    rw [← hid] at heb'
    have hsymm : Std.Symm fun e e' : Event ι NoteStore NoteStatement =>
        ∀ base ∈ e.label.savedBase? call.id, base ∉ e'.label.savedBase? call.id :=
      ⟨fun _ _ h base hb' hb => h base hb hb'⟩
    by_contra hne
    exact (hrun.1 call.id).distinct.forall he he' (fun hee => hne (congrArg _ hee)) b heb heb'
  · exact fun e he note => (hrun.1 note).notNewer e he
  · intro i call hi e he hp
    have hbefore : ∀ call, (handle call).FailsBefore _ _ :=
      fun call => saveNote_failsBefore call.env call.user call.id call.req
    exact leavesLibrary_of_savedNote? (Pool.clean_failure run_ne_conflict hbefore s ms hi e he hp)

def stampedRun : List (Move Nat SaveNoteCall) :=
  .start 0 (sampleSave 20 "first" (some 10)) :: List.replicate 4 (.advance 0) ++
    .start 1 (sampleSave 30 "second" (some 10)) :: List.replicate 4 (.advance 1)

theorem undisturbed_saves_are_optimistic_sample :
    OptimisticSaves ((Pool.idle sampleNotes : NotePool Nat).run handle stampedRun) :=
  undisturbed_saves_are_optimistic sampleNotes stampedRun (by decide +kernel)

/-- The second request reads `updated_at` before the first one writes. -/
def overlappingRun : List (Move Nat SaveNoteCall) :=
  .start 0 (sampleSave 20 "first" (some 10)) :: .start 1 (sampleSave 30 "second" (some 10)) ::
    List.replicate 2 (.advance 0) ++ List.replicate 2 (.advance 1) ++
    List.replicate 2 (.advance 0) ++ List.replicate 2 (.advance 1)

/-- Both are answered with success, and the second overwrites the first. -/
theorem overlapping_saves_both_succeed :
    (Pool.idle sampleNotes : NotePool Nat).Guarded handle
      (fun call => call.req.baseUpdatedAt.isSome = true) (fun _ l w => Timely l w.state)
      overlappingRun ∧
    ¬OptimisticSaves ((Pool.idle sampleNotes : NotePool Nat).run handle overlappingRun) := by
  refine ⟨by decide +kernel, fun h => ?_⟩
  have hone := h.once 0 1 (sampleSave 20 "first" (some 10)) (sampleSave 30 "second" (some 10))
    ⟨sampleDocument, "first", 20⟩ ⟨sampleDocument, "second", 30⟩ rfl rfl rfl rfl
  exact absurd hone (by decide)

end Cinder.Notes
