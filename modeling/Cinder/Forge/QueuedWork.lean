import Cinder.Forge.SubmissionOutbox
set_option autoImplicit false

/-!
Whether work that waits in the outbox can get lost. A flush reads the whole
outbox once, and removes an entry by its key after the Host has answered.
-/

namespace Cinder.Forge
open Cinder.Host Cinder.Storage Cinder.Programs Cinder.Programs.Program
open Cinder.Programs.Protocol

namespace OutboxStatement

def puts (key : String) : OutboxStatement → Bool
  | .put entry => entry.key = key
  | _ => false

def flushedKey? : OutboxStatement → Option String
  | .delete key .flushed => some key
  | _ => none

end OutboxStatement

section Waiting
variable {ι : Type}

/-- The process had begun to submit work of its own before the entry was queued: it had removed
the entry's key. -/
def BeganBefore (i : ι) (entry : OutboxEntry) (history : List (Event ι Outbox OutboxStatement)) :
    Prop :=
  Afterwards (fun e => e.proc = i ∧ e.label = .delete entry.key .replaced)
    (fun e => e.label = .put entry) history

/-- The wait of an entry is over: a newer submission for its assignment is queued, the student
cancels it, or the Host accepts its payload or rejects it for good. -/
def Ends (entry : OutboxEntry) (e : Event ι Outbox OutboxStatement)
    (earlier : List (Event ι Outbox OutboxStatement)) : Prop :=
  match e.label with
  | .getAll => False
  | .put newer => newer.key = entry.key ∧ ¬BeganBefore e.proc entry earlier
  | .delete key why => key = entry.key ∧ why = .cancelled
  | .answer key payload reply =>
    key = entry.key ∧ .submission payload = entry.payload ∧ reply.final = true

/-- The entry was queued, by a step of the run or before it, and its wait is not over. -/
def Waits (outbox : Outbox) (entry : OutboxEntry) :
    List (Event ι Outbox OutboxStatement) → Prop
  | [] => entry ∈ outbox.rows
  | e :: earlier => e.label = .put entry ∨ (Waits outbox entry earlier ∧ ¬Ends entry e earlier)

def NothingLost (outbox : Outbox) (w : World ι Outbox OutboxStatement) : Prop :=
  ∀ entry, Waits outbox entry w.history → entry ∈ w.state.rows

def QueuedSince (i : ι) (key : String) (history : List (Event ι Outbox OutboxStatement)) : Prop :=
  Afterwards (fun e => e.proc = i ∧ e.label = .getAll) (fun e => e.label.puts key = true) history

/-- A flush removes no entry that was queued after it had read the outbox. Work that is submitted
to the Host takes nothing that waits out of the outbox, and when it is queued after all, then not
in the place of anything that was queued after its submission had begun. -/
def RemovesNothingNew (outbox : Outbox) (i : ι) (l : OutboxStatement)
    (w : World ι Outbox OutboxStatement) : Prop :=
  match l with
  | .delete key .flushed => ¬QueuedSince i key w.history
  | .delete key .replaced =>
    ∀ entry ∈ w.state.rows, entry.key = key → ¬Waits outbox entry w.history
  | .put newer => ∀ entry ∈ w.state.rows, entry.key = newer.key →
    Waits outbox entry w.history → ¬BeganBefore i entry w.history
  | _ => True

section Decide
variable [DecidableEq ι] (i : ι) (outbox : Outbox) (key : String) (entry : OutboxEntry)
variable (l : OutboxStatement) (e : Event ι Outbox OutboxStatement)
variable (w : World ι Outbox OutboxStatement)

instance (history : List (Event ι Outbox OutboxStatement)) :
    Decidable (BeganBefore i entry history) :=
  inferInstanceAs (Decidable (Afterwards _ _ history))

instance (history : List (Event ι Outbox OutboxStatement)) :
    Decidable (QueuedSince i key history) :=
  inferInstanceAs (Decidable (Afterwards _ _ history))

instance (earlier : List (Event ι Outbox OutboxStatement)) : Decidable (Ends entry e earlier) :=
  match e with
  | ⟨_, .getAll, _⟩ => inferInstanceAs (Decidable False)
  | ⟨_, .put _, _⟩ => inferInstanceAs (Decidable (_ ∧ _))
  | ⟨_, .delete _ _, _⟩ => inferInstanceAs (Decidable (_ ∧ _))
  | ⟨_, .answer _ _ _, _⟩ => inferInstanceAs (Decidable (_ ∧ _))

instance decidableWaits : (history : List (Event ι Outbox OutboxStatement)) →
    Decidable (Waits outbox entry history)
  | [] => inferInstanceAs (Decidable (entry ∈ outbox.rows))
  | _ :: history =>
    have := decidableWaits history
    inferInstanceAs (Decidable (_ ∨ _))

instance : Decidable (RemovesNothingNew outbox i l w) :=
  match l with
  | .delete _ .flushed => inferInstanceAs (Decidable ¬_)
  | .delete _ .replaced => inferInstanceAs (Decidable (∀ entry ∈ _, _))
  | .put _ => inferInstanceAs (Decidable (∀ entry ∈ _, _))
  | .getAll => inferInstanceAs (Decidable True)
  | .delete _ .cancelled => inferInstanceAs (Decidable True)
  | .answer _ _ _ => inferInstanceAs (Decidable True)

end Decide

end Waiting

section Runs
variable {ι : Type} {outbox₀ : Outbox}

def Answered (outbox₀ : Outbox) (key : String) (w : World ι Outbox OutboxStatement) : Prop :=
  ∀ entry ∈ w.state.rows, entry.key = key → ¬Waits outbox₀ entry w.history

/-- Only `put` adds an entry. -/
theorem entry_added {l : OutboxStatement} {outbox outbox' : Outbox} {entry : OutboxEntry}
    (h : l.run outbox = .ok outbox') (he : entry ∈ outbox'.rows) :
    entry ∈ outbox.rows ∨ l.puts entry.key = true := by
  cases l with
  | getAll => cases h; exact .inl he
  | answer key payload answer => cases h; exact .inl he
  | put newer =>
    cases h
    rcases Table.mem_put.mp he with ⟨hold, -⟩ | rfl
    · exact .inl hold
    · exact .inr (by simp [OutboxStatement.puts])
  | delete key why => cases h; exact .inl (Table.mem_delete.mp he).1

/-- An entry that waits leaves the outbox by a statement that ends its wait, or by one that the
rules exclude. -/
theorem entry_kept {i : ι} {l : OutboxStatement} {w : World ι Outbox OutboxStatement}
    {outbox' : Outbox} {entry : OutboxEntry} (h : l.run w.state = .ok outbox')
    (he : entry ∈ w.state.rows) (hwaits : Waits outbox₀ entry w.history)
    (hg : RemovesNothingNew outbox₀ i l w) (hl : ∀ key ∈ l.flushedKey?, Answered outbox₀ key w)
    (hends : ¬Ends entry ⟨i, l, w.state⟩ w.history) : entry ∈ outbox'.rows := by
  cases l with
  | getAll => cases h; exact he
  | answer key payload answer => cases h; exact he
  | put newer =>
    cases h
    by_cases hkey : newer.key = entry.key
    · exact absurd ⟨hkey, hg entry he hkey.symm hwaits⟩ hends
    · exact Table.mem_put.mpr (.inl ⟨he, by simpa [Keyed.clash] using Ne.symm hkey⟩)
  | delete key why =>
    cases h
    by_cases hkey : key = entry.key
    · cases why with
      | flushed => exact absurd hwaits (hl key rfl entry he hkey.symm)
      | replaced => exact absurd hwaits (hg entry he hkey.symm)
      | cancelled => exact absurd ⟨hkey, rfl⟩ hends
    · exact Table.mem_delete.mpr ⟨he, by simpa using Ne.symm hkey⟩

theorem nothingLost_step {i : ι} {l : OutboxStatement} {w w' : World ι Outbox OutboxStatement}
    (hi : NothingLost outbox₀ w) (hg : RemovesNothingNew outbox₀ i l w)
    (hl : ∀ key ∈ l.flushedKey?, Answered outbox₀ key w) (hw : World.Wrote i l w w') :
    NothingLost outbox₀ w' := by
  obtain ⟨hrun, hhistory⟩ := hw
  intro entry hwaits
  rw [hhistory] at hwaits
  rcases hwaits with hput | ⟨hold, hends⟩
  · change l = .put entry at hput
    subst hput
    rw [← Except.ok.inj hrun]
    exact Table.mem_put.mpr (.inr rfl)
  · exact entry_kept hrun (hi entry hold) hold hg hl hends

def outboxProtocol (ι : Type) (outbox₀ : Outbox) : Protocol ι Outbox OutboxStatement where
  inv := NothingLost outbox₀
  guard := RemovesNothingNew outbox₀
  promise _ l w := ∀ key ∈ l.flushedKey?, Answered outbox₀ key w
  inv_step _ _ _ _ hi hg hl hw := nothingLost_step hi hg hl hw

/-- The flush has read the entries `snapshot`. Anything else in the outbox was queued since, and
none of the entries `done` waits unless something was queued under its key since. -/
def HasRead (outbox₀ : Outbox) (i : ι) (snapshot done : List OutboxEntry)
    (w : World ι Outbox OutboxStatement) : Prop :=
  (∀ a ∈ snapshot, ∀ b ∈ snapshot, a.key = b.key → a = b) ∧
    ∃ later r earlier, w.history = later ++ r :: earlier ∧ r.proc = i ∧ r.label = .getAll ∧
      (∀ entry ∈ w.state.rows, (∀ e ∈ later, e.label.puts entry.key = false) → entry ∈ snapshot) ∧
      ∀ entry ∈ done, (∀ e ∈ later, e.label.puts entry.key = false) →
        ¬Waits outbox₀ entry w.history

theorem not_put {l : OutboxStatement} {entry : OutboxEntry} (h : l.puts entry.key = false) :
    l ≠ .put entry := by
  rintro rfl
  simp [OutboxStatement.puts] at h

theorem hasRead_step {i j : ι} {l : OutboxStatement} {snapshot done : List OutboxEntry}
    {w w' : World ι Outbox OutboxStatement} (h : HasRead outbox₀ i snapshot done w)
    (hw : World.Wrote j l w w') : HasRead outbox₀ i snapshot done w' := by
  obtain ⟨huniq, later, r, earlier, hsplit, hproc, hget, hold, hdone⟩ := h
  obtain ⟨hrun, hhistory⟩ := hw
  refine ⟨huniq, ⟨j, l, w.state⟩ :: later, r, earlier, by rw [hhistory, hsplit]; rfl, hproc, hget,
    fun entry he hno => ?_, fun entry he hno => ?_⟩
  · rw [List.forall_mem_cons] at hno
    rcases entry_added hrun he with hmem | hput
    · exact hold entry hmem hno.2
    · rw [hno.1] at hput
      contradiction
  · rw [List.forall_mem_cons] at hno
    rw [hhistory]
    rintro (hput | ⟨hwaits, -⟩)
    · exact not_put hno.1 hput
    · exact hdone entry he hno.2 hwaits

theorem HasRead.forget {i : ι} {snapshot done : List OutboxEntry}
    {w : World ι Outbox OutboxStatement} (h : HasRead outbox₀ i snapshot done w) :
    HasRead outbox₀ i snapshot [] w := by
  obtain ⟨huniq, later, r, earlier, hsplit, hproc, hget, hold, -⟩ := h
  exact ⟨huniq, later, r, earlier, hsplit, hproc, hget, hold, by simp⟩

/-- The key of an entry with a final answer may be removed while nothing new
was queued under it. -/
theorem HasRead.answered {i : ι} {snapshot done : List OutboxEntry} {entry : OutboxEntry}
    {w : World ι Outbox OutboxStatement} (h : HasRead outbox₀ i snapshot done w)
    (hread : entry ∈ snapshot) (hmem : entry ∈ done)
    (hsince : ¬QueuedSince i entry.key w.history) : Answered outbox₀ entry.key w := by
  obtain ⟨huniq, later, r, earlier, hsplit, hproc, hget, hold, hdone⟩ := h
  have hno : ∀ e ∈ later, e.label.puts entry.key = false := by
    intro e he
    by_contra hput
    rw [hsplit] at hsince
    exact hsince (afterwards_of_split ⟨hproc, hget⟩ he (by simpa using hput))
  intro entry' hstored hkey
  have hsame : entry' = entry :=
    huniq entry' (hold entry' hstored (by rwa [hkey])) entry hread hkey
  rw [hsame]
  exact hdone entry hmem hno

theorem stable_hasRead (i : ι) (snapshot done : List OutboxEntry) :
    (outboxProtocol ι outbox₀).Stable i (HasRead outbox₀ i snapshot done) :=
  fun _ _ _ _ _ h _ _ _ hw => hasRead_step h hw

theorem getAll_follows (i : ι) :
    (outboxProtocol ι outbox₀).Follows i (fun entries => HasRead outbox₀ i entries [])
      (executeReturning .getAll outboxEntries) (fun _ => True) := by
  refine Follows.executeReturning (stable_const _ i True) (fun _ => stable_hasRead i _ _)
    fun w w' _ _ hw _ => ⟨fun _ hkey => (by cases hkey), ?_⟩
  obtain ⟨hrun, hhistory⟩ := hw
  refine ⟨?_, [], _, w.history, hhistory, rfl, rfl, fun entry he _ => ?_, by simp⟩
  · intro a ha b hb hkey
    rw [outboxEntries, List.mem_insertionSort] at ha hb
    exact Table.eq_of_clash ha hb (by simp [Keyed.clash, hkey])
  · rw [← Except.ok.inj hrun] at he
    exact (List.mem_insertionSort _).mpr he

theorem answer_follows (i : ι) {snapshot : List OutboxEntry} {entry : OutboxEntry}
    {payload : SubmissionPayload} (hp : entry.payload = .submission payload)
    (reply : HostAnswer) :
    (outboxProtocol ι outbox₀).Follows i
      (fun _ => HasRead outbox₀ i snapshot (if reply.final then [entry] else []))
      (submitWork entry.key payload reply) (HasRead outbox₀ i snapshot []) := by
  refine Follows.execute (stable_hasRead i _ _) (stable_hasRead i _ _)
    fun w w' _ h hw _ => ⟨fun _ hkey => (by cases hkey), ?_⟩
  have hhistory := hw.2
  split
  · next hfinal =>
    obtain ⟨huniq, later, r, earlier, hsplit, hproc, hget, hold, -⟩ := hasRead_step h hw
    refine ⟨huniq, later, r, earlier, hsplit, hproc, hget, hold, fun a ha _ => ?_⟩
    rw [List.mem_singleton.mp ha, hhistory]
    rintro (hput | ⟨-, hends⟩)
    · cases hput
    · exact hends ⟨rfl, hp.symm, hfinal⟩
  · exact (hasRead_step h hw).forget

theorem removeFlushed_follows (i : ι) {snapshot : List OutboxEntry} {entry : OutboxEntry}
    (hread : entry ∈ snapshot) :
    (outboxProtocol ι outbox₀).Follows i (fun _ => HasRead outbox₀ i snapshot [])
      (removeOutbox entry.key .flushed) (HasRead outbox₀ i snapshot [entry]) := by
  refine Follows.execute (stable_hasRead i _ _) (stable_hasRead i _ _)
    fun w w' _ h hw hg => ⟨fun key hkey => ?_, ?_⟩
  · cases hkey
    exact h.answered hread List.mem_cons_self hg
  · exact (hasRead_step h hw).forget

theorem flushEntries_follows (i : ι) (scope : String) (answers : Nat → HostAnswer) (n : Nat)
    {snapshot : List OutboxEntry} (rest : List OutboxEntry) (hrest : ∀ a ∈ rest, a ∈ snapshot)
    (message : String) :
    (outboxProtocol ι outbox₀).Follows i (fun _ _ => True)
      (flushEntries scope answers n rest message)
      (HasRead outbox₀ i snapshot []) := by
  induction rest generalizing n message with
  | nil => exact Follows.ret (stable_hasRead i _ _) fun _ _ => trivial
  | cons entry rest ih =>
    have htail : ∀ a ∈ rest, a ∈ snapshot := fun a ha => hrest a (List.mem_cons_of_mem _ ha)
    have hstop : ∀ message : String, (outboxProtocol ι outbox₀).Follows i (fun _ _ => True)
        (.ret message) (HasRead outbox₀ i snapshot []) :=
      fun _ => Follows.ret (stable_hasRead i _ _) fun _ _ => trivial
    have hremove : ∀ message, (outboxProtocol ι outbox₀).Follows i (fun _ _ => True)
        (removeOutbox entry.key .flushed >>= fun _ =>
          flushEntries scope answers (n+1) rest message) (HasRead outbox₀ i snapshot [entry]) :=
      fun message => Follows.bind (removeFlushed_follows i (hrest entry List.mem_cons_self))
        fun _ => ih (n+1) htail message
    unfold flushEntries
    split
    · exact ih n htail message
    · next payload hp =>
      split
      · refine Follows.bind (answer_follows i hp (answers n)) fun _ => ?_
        cases hans : answers n with
        | accepted => exact hremove message
        | failed reason => exact hstop message
        | apiError status reason =>
          by_cases hretry : shouldRetryOutboxFailure status (isOffline status) = true
          · simp only [HostAnswer.final, hretry, Bool.not_true, Bool.false_eq_true, ↓reduceIte]
            split
            · exact hstop message
            · exact ih (n+1) htail message
          · simp only [HostAnswer.final, hretry, Bool.not_false, Bool.false_eq_true, ↓reduceIte]
            exact hremove rejectedMessage
      · exact ih n htail message

/-- The statements of `submit` and `withdraw`. -/
def byStudent (l : OutboxStatement) : Prop := l.flushedKey? = none

theorem readQueued_writes (scope message : String) :
    (readQueued scope message).WritesOnly byStudent := fun _ => trivial

theorem removeOutbox_writes {why : Removal} (h : why ≠ .flushed) (key : String) :
    (removeOutbox key why).WritesOnly byStudent := by
  cases why with
  | flushed => exact absurd rfl h
  | replaced => exact ⟨rfl, fun _ => trivial⟩
  | cancelled => exact ⟨rfl, fun _ => trivial⟩

theorem queueOffline_writes (key : String) (payload : SubmissionPayload)
    (now scope message : String) :
    (queueOffline key payload now >>= fun _ => readQueued scope message).WritesOnly byStudent :=
  ⟨rfl, fun _ _ => trivial⟩

theorem sendOrQueue_writes (scope : String) (call : SubmitCall) (payload : SubmissionPayload) :
    (sendOrQueue scope call payload).WritesOnly byStudent := by
  have hsend : ∀ key, (submitWork key payload call.answer).WritesOnly byStudent :=
    fun key => ⟨rfl, fun _ => trivial⟩
  unfold sendOrQueue
  split
  · refine (removeOutbox_writes (by decide) _).bind fun _ => (hsend _).bind fun _ => ?_
    split
    · trivial
    · trivial
    · split
      · exact queueOffline_writes _ _ _ _ _
      · trivial
  · exact queueOffline_writes _ _ _ _ _

theorem submit_writes (jsonBytes : Json → Nat) (scope : String) (call : SubmitCall) :
    (submit jsonBytes scope call).WritesOnly byStudent := by
  unfold submit
  split
  · trivial
  · split
    · trivial
    · split
      · trivial
      · split
        · trivial
        · exact sendOrQueue_writes _ _ _

theorem withdraw_writes (scope : String) (call : WithdrawCall) :
    (withdraw scope call).WritesOnly byStudent := by
  unfold withdraw
  split
  · trivial
  · split
    · exact (removeOutbox_writes (by decide) _).bind fun _ =>
        (readQueued_writes scope "").bind fun _ => trivial
    · split
      · trivial
      · split <;> trivial

theorem handle_follows (jsonBytes : Json → Nat) (scope : String) (i : ι)
    (action : StudentAction) :
    (outboxProtocol ι outbox₀).Follows i (fun _ _ => True) (handle jsonBytes scope action)
      (fun _ => True) := by
  have hstudent : ∀ l (w : World ι Outbox OutboxStatement), byStudent l →
      (outboxProtocol ι outbox₀).promise i l w := by
    intro l w hl key hkey
    rw [hl] at hkey
    cases hkey
  have htrue := stable_const (outboxProtocol ι outbox₀) i True
  cases action with
  | flush answers =>
    exact Follows.bind (getAll_follows i) fun entries =>
      Follows.bind (flushEntries_follows i scope answers 0 entries (fun _ h => h) "") fun message =>
        Follows.bind (Follows.readOnly htrue (readOnly_query _)) fun _ =>
          Follows.ret htrue fun _ _ => trivial
  | submit call => exact Follows.of_writesOnly hstudent (submit_writes jsonBytes scope call)
  | withdraw call => exact Follows.of_writesOnly hstudent (withdraw_writes scope call)

end Runs

variable {ι : Type} [DecidableEq ι]

/-- While nothing new is removed, nothing that waits gets lost. -/
theorem nothing_queued_is_lost (jsonBytes : Json → Nat) (scope : String) (outbox : Outbox)
    (ms : List (Move ι StudentAction))
    (h : (Pool.idle outbox : OutboxPool ι).Guarded (handle jsonBytes scope) (fun _ => True)
      (RemovesNothingNew outbox) ms) :
    NothingLost outbox
      ((Pool.idle outbox : OutboxPool ι).run (handle jsonBytes scope) ms).world := by
  have hidle : (outboxProtocol ι outbox).inv ⟨outbox, []⟩ := fun entry hwaits => hwaits
  exact (running_run (fun i action _ => handle_follows jsonBytes scope i action)
    (running_idle hidle) h).1

def sampleScope : String := "student:host:1:"

def sampleSubmit (text : String) : StudentAction :=
  .submit { assignmentId := "a1", note := some ⟨"Light", .str text, text⟩, online := false
            now := text }

def sampleEntry (text : String) : OutboxEntry where
  key := submissionOutboxKey sampleScope "a1"
  payload := .submission ⟨"a1", .str text, text, "Submitted from “Light”"⟩
  queuedAt := text

def reconnectRun : List (Move Nat StudentAction) :=
  .start 0 (sampleSubmit "first") :: List.replicate 2 (.advance 0) ++
    .start 1 (.flush fun _ => .accepted) :: List.replicate 4 (.advance 1)

theorem nothing_queued_is_lost_sample :
    NothingLost .empty ((Pool.idle .empty : OutboxPool Nat).run (handle (fun _ => 5) sampleScope)
      reconnectRun).world :=
  nothing_queued_is_lost (fun _ => 5) sampleScope .empty reconnectRun (by decide +kernel)

/-- A flush has sent the first version when the Host goes away again; the student
queues a second version, and then the answer to the first one arrives. -/
def slowFlushRun : List (Move Nat StudentAction) :=
  .start 0 (sampleSubmit "first") :: List.replicate 2 (.advance 0) ++
    .start 1 (.flush fun _ => .accepted) :: .advance 1 :: .start 2 (sampleSubmit "second") ::
    List.replicate 2 (.advance 2) ++ List.replicate 3 (.advance 1)

/-- A first version waits when the student submits a second one, and the Host, which is back,
answers with an error of its own. -/
def failedAnswerRun : List (Move Nat StudentAction) :=
  .start 0 (sampleSubmit "first") :: List.replicate 2 (.advance 0) ++
    .start 1 (.submit { assignmentId := "a1", note := some ⟨"Light", .str "second", "second"⟩
                        online := true, answer := .apiError 500 "", now := "" }) ::
    List.replicate 2 (.advance 1)

/-- The flush removes the second version, which the Host never got; the second submission removes
the first version, and neither gets to the Host. -/
theorem queued_work_gets_lost :
    let w := ((Pool.idle .empty : OutboxPool Nat).run (handle (fun _ => 5) sampleScope)
      slowFlushRun).world
    let w' := ((Pool.idle .empty : OutboxPool Nat).run (handle (fun _ => 5) sampleScope)
      failedAnswerRun).world
    (w.state.rows = [] ∧ ¬NothingLost .empty w) ∧ w'.state.rows = [] ∧ ¬NothingLost .empty w' := by
  intro w w'
  have hslow : Waits .empty (sampleEntry "second") w.history := by decide +kernel
  have hfailed : Waits .empty (sampleEntry "first") w'.history := by decide +kernel
  have hempty : w.state.rows = [] ∧ w'.state.rows = [] := by decide +kernel
  refine ⟨⟨hempty.1, fun h => ?_⟩, hempty.2, fun h => ?_⟩
  · simpa [hempty.1] using h _ hslow
  · simpa [hempty.2] using h _ hfailed

end Cinder.Forge
