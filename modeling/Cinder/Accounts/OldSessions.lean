import Cinder.Accounts.AccountEffects
set_option autoImplicit false

/-!
Whether a session outlives the password it was opened with. `login` verifies
the hash it has read, and stores the session in a later statement.
-/

namespace Cinder.Accounts
open Cinder.Host Cinder.Storage Cinder.Programs Cinder.Programs.Program

variable {c : Crypto} {ι : Type}

def AccountStatement.opened? : AccountStatement c → Option (SessionRow × String)
  | .insertSession row verified => some (row, verified)
  | _ => none

/-- The hash whose verification opened the session, if a run has opened it. -/
def openedWith (token : String) : AccountHistory c ι → Option String
  | [] => none
  | e :: history =>
    match e.label.opened? with
    | some (row, verified) =>
      if row.token = token then some verified else openedWith token history
    | none => openedWith token history

/-- The session was spared by the change, or opened with another hash than the
one replaced. A session that the run has not opened is older than the change. -/
def Outlives (history : AccountHistory c ι) (token : String) (change : CredentialChange) : Prop :=
  change.spared = some token ∨ ∃ verified ∈ openedWith token history, verified ≠ change.replaced

instance (history : AccountHistory c ι) (token : String) (change : CredentialChange) :
    Decidable (Outlives history token change) := by
  unfold Outlives
  infer_instance

/-- After a completed change no session opened with the replaced hash is
accepted, but for the one that changed it. -/
def OldSessionsDie (w : AccountWorld c ι) : Prop :=
  ∀ token caller, ((lookupSession c token).exec w.state).1 = .ok caller →
    ∀ e ∈ w.history, ∀ change ∈ e.label.changed? e.before, change.user = caller.user.id →
      Outlives w.history (c.digest token) change

/-- A session is stored while the hash that its request verified has not been
replaced by a completed change. -/
def OpensCurrent (l : AccountStatement c) (w : AccountWorld c ι) : Prop :=
  ∀ opened ∈ l.opened?, ∀ e ∈ w.history, ∀ change ∈ e.label.changed? e.before,
    change.user = opened.1.userId → opened.2 ≠ change.replaced

instance (l : AccountStatement c) (w : AccountWorld c ι) : Decidable (OpensCurrent l w) := by
  unfold OpensCurrent
  infer_instance

def AccountRequest.changesCredentials : AccountRequest c → Bool
  | .tick _ | .login _ | .recoverTeacher _ | .recoverStudent _ => true
  | .changePassword _ _ | .resetStudent _ _ => true
  | .bootstrap _ | .registerTeacher _ | .authenticated _ _ _ => false

def OldSessionsGone (w : AccountWorld c ι) : Prop :=
  ∀ r ∈ w.state.db.sessions.rows, ∀ e ∈ w.history, ∀ change ∈ e.label.changed? e.before,
    change.user = r.userId → Outlives w.history r.token change

section Steps
variable {i : ι} {l : AccountStatement c} {w w' : AccountWorld c ι}

theorem openedWith_insert {r : SessionRow} {verified : String} {s : AuthState}
    {history : AccountHistory c ι} :
    openedWith r.token (⟨i, .insertSession r verified, s⟩ :: history) = some verified := by
  simp [openedWith, AccountStatement.opened?]

theorem openedWith_cons {token : String} {s : AuthState} {history : AccountHistory c ι}
    (h : ∀ row verified, l = .insertSession row verified → token ≠ row.token) :
    openedWith token (⟨i, l, s⟩ :: history) = openedWith token history := by
  cases l with
  | insertSession row verified =>
    have hne : row.token ≠ token := Ne.symm (h row verified rfl)
    simp [openedWith, AccountStatement.opened?, hne]
  | _ => rfl

theorem oldSessionsGone_step (hinv : OldSessionsGone w) (hg : OpensCurrent l w)
    (hw : World.Wrote i l w w') : OldSessionsGone w' := by
  intro r hr e he change hch huser
  rw [hw.2] at he ⊢
  rcases sessions_step hw.1 hr with ⟨verified, rfl⟩ | ⟨hold, hother, hspared⟩
  · -- the new session: its hash is the one just verified
    refine .inr ⟨verified, openedWith_insert, ?_⟩
    rcases List.mem_cons.mp he with rfl | he
    · cases hch
    · exact hg (r, verified) rfl e he change hch huser
  · rcases List.mem_cons.mp he with rfl | he
    · exact .inl (hspared change hch huser)
    · rw [Outlives, openedWith_cons hother]
      exact hinv r hold e he change hch huser

theorem OldSessionsGone.die (h : OldSessionsGone w) : OldSessionsDie w := by
  intro token caller hlookup e he change hch huser
  have hexec : (lookupSession c token).exec w.state =
      (.ok caller, ((lookupSession c token).exec w.state).2) := Prod.ext hlookup rfl
  obtain ⟨r, hr, u, -, htoken, hid, -, -, rfl, -⟩ := lookupSession_ok hexec
  rw [← htoken]
  exact h r hr e he change hch (huser.trans hid.symm)

end Steps

variable [DecidableEq ι]

/-- In a run that opens sessions with current hashes only, old passwords die
with a change of credentials. -/
theorem old_sessions_die (s : AuthState) (ms : List (Move ι (AccountCall c)))
    (h : (Pool.idle s : AccountPool c ι).Guarded (handle c)
      (fun call => call.request.changesCredentials = true) (fun _ l w => OpensCurrent l w) ms) :
    OldSessionsDie ((Pool.idle s : AccountPool c ι).run (handle c) ms).world := by
  have hgone := Protocol.inv_of_guarded (I := OldSessionsGone)
    (fun _ _ _ _ hinv hg hw => oldSessionsGone_step hinv hg hw)
    (c := (Pool.idle s : AccountPool c ι)) (fun _ _ e he => by cases he) h
  exact hgone.die

/-- The student signs in, the teacher resets the password, and the student
signs in with the new PIN. -/
def resetRun : List (Move Nat (AccountCall sampleCrypto)) :=
  .start 0 ⟨sampleRandom 20 "first", .login (sampleLogin "old apple")⟩ ::
      List.replicate 6 (.advance 0) ++
    .start 1 ⟨sampleRandom 30 "unused", .resetStudent "tim" 1⟩ ::
        List.replicate 3 (.advance 1) ++
      .start 2 ⟨sampleRandom 40 "second", .login (sampleLogin "4711")⟩ ::
        List.replicate 6 (.advance 2)

theorem old_sessions_die_sample :
    let c := (Pool.idle sampleAccounts : AccountPool sampleCrypto Nat).run (handle _) resetRun
    c.world.state.db.sessions.rows.map (fun r => r.token) = ["d:tim", "d:second"] ∧
      OldSessionsDie c.world :=
  ⟨by decide +kernel, old_sessions_die sampleAccounts resetRun (by decide +kernel)⟩

/-- The reset comes between the verification and the session. -/
def lateLoginRun : List (Move Nat (AccountCall sampleCrypto)) :=
  .start 0 ⟨sampleRandom 20 "first", .login (sampleLogin "old apple")⟩ ::
      List.replicate 4 (.advance 0) ++
    .start 1 ⟨sampleRandom 30 "unused", .resetStudent "tim" 1⟩ ::
        List.replicate 3 (.advance 1) ++
      List.replicate 2 (.advance 0)

theorem late_login_outlives_reset :
    ¬OldSessionsDie ((Pool.idle sampleAccounts : AccountPool sampleCrypto Nat).run (handle _)
      lateLoginRun).world := by
  intro h
  have hlive := h "first" ⟨⟨1, "ada", "Ada", .student, none, none, none, true, 0⟩, "d:first"⟩
    (by decide +kernel)
  revert hlive
  decide +kernel

end Cinder.Accounts
