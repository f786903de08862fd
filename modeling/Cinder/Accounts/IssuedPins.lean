import Cinder.Accounts.PinGuesses
set_option autoImplicit false

/-!
A PIN admits one account. The PIN goes in the transaction that stores the
account, so what fails in between leaves both as they were.
-/

namespace Cinder.Accounts
open Cinder.Host Cinder.Storage Cinder.Programs Cinder.Programs.Program
open Cinder.Programs.Protocol

variable {c : Crypto} {ι : Type}

def admissions (kind : PinKind) (history : List (PinEvent c ι)) : Nat :=
  history.countP fun e => e.label.admits kind e.before

/-- The PIN that the request names is let through and right. -/
def PinRequest.matched (c : Crypto) : PinRequest c → AuthState → Bool
  | .account (.bootstrap req), s =>
    (s.db.schoolBootstrapPin.filter (admitsGuess s.clock)).any fun row =>
      matchesPin c row req.bootstrapPin
  | .account (.registerTeacher req), s =>
    (s.db.teacherInvitePin.filter (admitsGuess s.clock)).any fun row =>
      matchesPin c row req.invitePin
  | _, _ => false

section Steps
variable {kind : PinKind} {s s' : AuthState} {l : PinStatement c}

theorem admits_spec (hadmits : l.admits kind s = true) (h : l.run s = .ok s') :
    (kind = .bootstrap → ∀ u ∈ s.db.users.rows, activeTeacher u = false) ∧
      (∃ row, pinOf kind s.db = some row) ∧ pinOf kind s'.db = none ∧
      ∃ user, s.db.users.insert user = some s'.db.users := by
  unfold PinStatement.admits at hadmits
  split at hadmits
  · next random req =>
    split at hadmits
    · next reply s₁ htx =>
      obtain ⟨hnone, hout⟩ := bootstrapTx_outcome htx
      obtain ⟨r, hrun⟩ := map_snd_eq_ok (h : (bootstrapTx c random req s).map Prod.snd = .ok s')
      cases htx.symm.trans hrun
      cases hout with
      | admitted pin admits right used other clock account =>
        exact ⟨fun _ => by simpa using hnone, ⟨_, pin⟩, used, _, account⟩
    · cases hadmits
  · next random req =>
    split at hadmits
    · next reply s₁ htx =>
      obtain ⟨r, hrun⟩ := map_snd_eq_ok
        (h : (registerTeacherTx c random req s).map Prod.snd = .ok s')
      cases htx.symm.trans hrun
      cases registerTeacherTx_outcome htx with
      | admitted pin admits right used other clock account =>
        exact ⟨fun hkind => (by cases hkind), ⟨_, pin⟩, used, _, account⟩
    · cases hadmits
  · cases hadmits

theorem users_length_of_account {l : AccountStatement c} (h : l.run s = .ok s')
    (hbootstrap : ∀ random req, l ≠ .bootstrap random req)
    (hregister : ∀ random req, l ≠ .registerTeacher random req) :
    s'.db.users.rows.length = s.db.users.rows.length := by
  cases l with
  | bootstrap random req => exact absurd rfl (hbootstrap random req)
  | registerTeacher random req => exact absurd rfl (hregister random req)
  | insertSession row verified =>
    obtain ⟨sessions, -, h⟩ := bind_eq_ok.mp h
    cases h
    rfl
  | resetStudent random student teacher =>
    obtain ⟨reply, h⟩ := map_snd_eq_ok h
    obtain ⟨pwHash, -, husers⟩ := (resetStudentTx_ok h).users
    rw [husers, Table.rows_update, List.length_map]
  | recover role user hash recoveryHash time =>
    rw [(run_recover h).users, Table.rows_update, List.length_map]
  | recordFailure | blockLogin | recordSuccess | setPassword =>
    cases h
    exact List.length_map _
  | tick | compare | deleteExpired | deleteSession | deleteOtherSessions =>
    cases h
    rfl

theorem GuessOutcome.users_length {guess : String} {r : Except HostError BootstrapTeacherResponse}
    (h : GuessOutcome c kind guess s r s') :
    s'.db.users.rows.length = s.db.users.rows.length + if r.toBool then 1 else 0 := by
  cases h with
  | admitted pin admits right used other clock account =>
    rw [Table.rows_insert account, List.length_append]
    rfl
  | failed => rw [setPin_users]; rfl
  | refused => rfl
  | withdrawn => rw [setPin_users]; rfl

theorem users_length_step (h : l.run s = .ok s') :
    s'.db.users.rows.length = s.db.users.rows.length +
      (if l.admits .bootstrap s then 1 else 0) + if l.admits .invite s then 1 else 0 := by
  cases l with
  | account l =>
    have hrun : l.run s = .ok s' := h
    cases l with
    | bootstrap random req =>
      obtain ⟨r, htx⟩ := map_snd_eq_ok h
      rw [(bootstrapTx_outcome htx).2.users_length]
      cases r <;> simp [PinStatement.admits, htx, Except.toBool]
    | registerTeacher random req =>
      obtain ⟨r, htx⟩ := map_snd_eq_ok h
      rw [(registerTeacherTx_outcome htx).users_length]
      cases r <;> simp [PinStatement.admits, htx, Except.toBool]
    | _ => exact users_length_of_account hrun (by simp) (by simp)
  | dropBootstrapPin | issueBootstrapPin =>
    cases h
    rfl
  | issueInvite pinHash createdBy expiresAt =>
    simp only [PinStatement.run] at h
    split at h
    · cases h
      rfl
    · cases h

end Steps

/-- Between two accounts admitted at PINs of a kind a PIN of the kind was issued.
Latest events first. -/
def OnePerPin (kind : PinKind) (history : List (PinEvent c ι)) : Prop :=
  ∀ newer e₁ middle e₂ older, history = newer ++ e₁ :: (middle ++ e₂ :: older) →
    e₁.label.admits kind e₁.before = true → e₂.label.admits kind e₂.before = true →
    ∃ issue ∈ middle, (issue.label.issues? kind).isSome = true

def UsedUp (kind : PinKind) (history : List (PinEvent c ι)) : Prop :=
  ∃ later e older, history = later ++ e :: older ∧ e.label.admits kind e.before = true ∧
    ∀ e' ∈ later, e'.label.issues? kind = none

structure AdmitsOnce (s : AuthState) (w : PinWorld c ι) : Prop where
  once : ∀ kind, OnePerPin kind w.history
  setup : ∀ e ∈ w.history, e.label.admits .bootstrap e.before = true →
    ∀ u ∈ e.before.db.users.rows, activeTeacher u = false
  accounts : w.state.db.users.rows.length = s.db.users.rows.length +
    admissions .bootstrap w.history + admissions .invite w.history
  used : ∀ kind, UsedUp kind w.history → pinOf kind w.state.db = none

theorem usedUp_cons {kind : PinKind} {e : PinEvent c ι} {history : List (PinEvent c ι)}
    (h : UsedUp kind (e :: history)) : e.label.admits kind e.before = true ∨
      (e.label.issues? kind = none ∧ UsedUp kind history) := by
  obtain ⟨later, e', older, hsplit, hadmits, hnone⟩ := h
  cases later with
  | nil =>
    obtain ⟨rfl, -⟩ := List.cons.inj hsplit
    exact .inl hadmits
  | cons e₀ later =>
    obtain ⟨rfl, hrest⟩ := List.cons.inj hsplit
    exact .inr ⟨hnone _ List.mem_cons_self, later, e', older, hrest, hadmits,
      fun x hx => hnone x (List.mem_cons_of_mem _ hx)⟩

theorem pin_stays_gone {kind : PinKind} {l : PinStatement c} {s s' : AuthState}
    (h : l.run s = .ok s') (hissues : l.issues? kind = none) (hgone : pinOf kind s.db = none) :
    pinOf kind s'.db = none := by
  cases pin_step kind h with
  | issued issues => rw [hissues] at issues; cases issues
  | failed issues old => rw [hgone] at old; cases old
  | kept issues fails pin clock => exact pin.trans hgone
  | gone issues fails pin clock => exact pin

theorem admitsOnce_step {s : AuthState} {i : ι} {l : PinStatement c} {w w' : PinWorld c ι}
    (h : AdmitsOnce s w) (hw : World.Wrote i l w w') : AdmitsOnce s w' := by
  obtain ⟨hrun, hhistory⟩ := hw
  refine ⟨fun kind newer e₁ middle e₂ older hsplit h₁ h₂ => ?_, fun e he hadmits => ?_, ?_,
    fun kind hused => ?_⟩
  · rw [hhistory] at hsplit
    cases newer with
    | cons n newer => exact h.once kind newer e₁ middle e₂ older (List.cons.inj hsplit).2 h₁ h₂
    | nil =>
      obtain ⟨rfl, hrest⟩ := List.cons.inj hsplit
      by_contra hnone
      have hquiet : ∀ e ∈ middle, e.label.issues? kind = none := fun e he => by
        by_contra hsome
        exact hnone ⟨e, he, Option.isSome_iff_ne_none.mpr hsome⟩
      have hgone := h.used kind ⟨middle, e₂, older, hrest, h₂, hquiet⟩
      obtain ⟨-, ⟨row, hrow⟩, -⟩ := admits_spec h₁ hrun
      rw [hgone] at hrow
      cases hrow
  · rw [hhistory] at he
    rcases List.mem_cons.mp he with rfl | he
    · exact (admits_spec hadmits hrun).1 rfl
    · exact h.setup e he hadmits
  · rw [users_length_step hrun, h.accounts, hhistory]
    simp only [admissions, List.countP_cons]
    omega
  · rw [hhistory] at hused
    rcases usedUp_cons hused with hadmits | ⟨hissues, hused⟩
    · exact (admits_spec hadmits hrun).2.2.1
    · exact pin_stays_gone hrun hissues (h.used kind hused)

def PinCall.Executes (call : PinCall c) (l : PinStatement c) : Prop :=
  match call.request with
  | .account (.bootstrap req) => l = .account (.bootstrap call.random req)
  | .account (.registerTeacher req) => l = .account (.registerTeacher call.random req)
  | _ => True

theorem handlePins_executes (call : PinCall c) :
    (handlePins c call).WritesOnly call.Executes := by
  obtain ⟨random, request⟩ := call
  have hreply : ∀ {l : AccountStatement c} {call : PinCall c}
      (q : AuthState → Except HostError BootstrapTeacherResponse), call.Executes (.account l) →
      ((replying .recovered (executeReturning l q >>= ofExcept) :
        AccountProgram c AccountReply).relabel .account >>= fun reply =>
          .ret (PinReply.account reply)).WritesOnly call.Executes := fun q hl => by
    refine WritesOnly.bind (WritesOnly.relabel ?_) fun _ => trivial
    refine WritesOnly.bind (WritesOnly.bind ⟨hl, fun _ => trivial⟩ fun outcome => ?_)
      fun _ => trivial
    exact (readOnly_ofExcept outcome).writesOnly
  cases request with
  | prepareBootstrap | invite => exact writesOnly_of_forall (fun _ => trivial) _
  | account request =>
    cases request with
    | bootstrap req => exact hreply _ rfl
    | registerTeacher req =>
      refine WritesOnly.bind (WritesOnly.relabel ?_) fun _ => trivial
      refine WritesOnly.bind ?_ fun _ => trivial
      refine (readOnly_require _ _).writesOnly.bind fun _ => ?_
      exact WritesOnly.bind ⟨rfl, fun _ => trivial⟩ fun outcome =>
        (readOnly_ofExcept outcome).writesOnly
    | _ => exact writesOnly_of_forall (fun _ => trivial) _

/-- The transaction of a guess that matched ends with an account, or with an
error that leaves everything as it was, or it withdraws an invitation. -/
theorem matched_run {call : PinCall c} {l : PinStatement c} {s s' : AuthState}
    (hguess : call.request.isGuess = true) (hl : call.Executes l)
    (hmatched : call.request.matched c s = true) (h : l.run s = .ok s') :
    (∃ kind, l.admits kind s = true) ∨ (s' = s.setPin .invite none ∧ ¬invitedByActive s) := by
  obtain ⟨random, request⟩ := call
  cases request with
  | prepareBootstrap | invite => cases hguess
  | account request =>
    cases request with
    | bootstrap req =>
      subst hl
      obtain ⟨r, htx⟩ := map_snd_eq_ok (h : (bootstrapTx c random req s).map Prod.snd = .ok s')
      obtain ⟨row, hrow, hright⟩ := (Option.any_eq_true _ _).mp hmatched
      obtain ⟨hpin, hadmits⟩ := Option.filter_eq_some_iff.mp hrow
      cases (bootstrapTx_outcome htx).2 with
      | admitted => exact .inl ⟨.bootstrap, by simp [PinStatement.admits, htx]⟩
      | failed pin admits wrong =>
        obtain rfl := Option.some.inj (hpin.symm.trans pin)
        rw [hright] at wrong
        cases wrong
      | refused closed =>
        rw [show pinOf .bootstrap s.db = _ from hpin, Option.filter_some_pos hadmits] at closed
        cases closed
      | withdrawn pin admits right invite creator => cases invite
    | registerTeacher req =>
      subst hl
      obtain ⟨r, htx⟩ := map_snd_eq_ok
        (h : (registerTeacherTx c random req s).map Prod.snd = .ok s')
      obtain ⟨row, hrow, hright⟩ := (Option.any_eq_true _ _).mp hmatched
      obtain ⟨hpin, hadmits⟩ := Option.filter_eq_some_iff.mp hrow
      cases registerTeacherTx_outcome htx with
      | admitted => exact .inl ⟨.invite, by simp [PinStatement.admits, htx]⟩
      | failed pin admits wrong =>
        obtain rfl := Option.some.inj (hpin.symm.trans pin)
        rw [hright] at wrong
        cases wrong
      | refused closed =>
        rw [show pinOf .invite s.db = _ from hpin, Option.filter_some_pos hadmits] at closed
        cases closed
      | withdrawn pin admits right invite creator => exact .inr ⟨rfl, creator⟩
    | _ => cases hguess

variable [DecidableEq ι]

def FailsAfterMatch (pool : PinPool c ι) (i : ι) : Prop :=
  ∃ call p e, pool.procs i = some (call, p) ∧ call.request.isGuess = true ∧
    call.request.matched c pool.world.state = true ∧
    (pool.move (handlePins c) (.advance i)).procs i = some (call, .fail e)

def WithdrawsInvite (s s' : AuthState) : Prop :=
  ¬invitedByActive s ∧ s' = s.setPin .invite none

theorem failsAfterMatch_state {pool : PinPool c ι} {i : ι} (h : FailsAfterMatch pool i)
    (hanswers : ∀ i call p, pool.procs i = some (call, p) → call.request.isGuess = true →
      AnswersGuess p)
    (hexecutes : ∀ i call p, pool.procs i = some (call, p) → p.WritesOnly call.Executes) :
    (pool.move (handlePins c) (.advance i)).world.state = pool.world.state ∨
      WithdrawsInvite pool.world.state (pool.move (handlePins c) (.advance i)).world.state := by
  obtain ⟨call, p, e, hp, hguess, hmatched, hfail⟩ := h
  have hans := hanswers i call p hp hguess
  cases p with
  | ret a => exact .inl (by simp [Pool.move, hp, Program.advance])
  | fail e => exact .inl (by simp [Pool.move, hp, Program.advance])
  | read k => exact hans.elim
  | write l k =>
    cases hr : (Engine.run l pool.world.state : Except HostError AuthState) with
    | error e => exact .inl (by simp [Pool.move, hp, Program.advance, hr])
    | ok s' =>
      have hstate : (pool.move (handlePins c) (.advance i)).world.state = s' := by
        simp [Pool.move, hp, Program.advance, hr]
      rw [hstate]
      rcases matched_run hguess (hexecutes i call _ hp).1 hmatched hr with
        ⟨kind, hadmits⟩ | ⟨hs', hcreator⟩
      · rcases hans pool.world.state with ⟨hnone, -⟩ | ⟨-, a, ha⟩
        · rw [hnone kind] at hadmits
          cases hadmits
        · simp [Pool.move, hp, Program.advance, hr, ha] at hfail
      · exact .inr ⟨hcreator, hs'⟩

/-- In every run, a PIN admits at most one account, the first teacher is set up
only where there is no other, and a request that fails after its PIN matched
leaves everything as it was, unless it withdraws an invitation. -/
theorem one_account_per_pin (s : AuthState) (ms : List (Move ι (PinCall c))) :
    let pool := (Pool.idle s : PinPool c ι).run (handlePins c) ms
    AdmitsOnce s pool.world ∧ ∀ i, FailsAfterMatch pool i →
      (pool.move (handlePins c) (.advance i)).world.state = pool.world.state ∨
        WithdrawsInvite pool.world.state
          (pool.move (handlePins c) (.advance i)).world.state := by
  have hidle : AdmitsOnce s (⟨s, []⟩ : PinWorld c ι) := by
    refine ⟨fun kind newer e₁ middle e₂ older hsplit => ?_, fun e he => (by cases he), rfl, ?_⟩
    · cases newer <;> cases hsplit
    · rintro kind ⟨later, e, older, hsplit, -⟩
      cases later <;> cases hsplit
  refine ⟨?_, fun i h => failsAfterMatch_state h ?_ ?_⟩
  · exact inv_run (fun i l w w' h hw => admitsOnce_step h hw) hidle ms
  · exact Pool.procs_run (P := fun (call : PinCall c) p =>
      call.request.isGuess = true → AnswersGuess p) handlePins_answersGuess
      (fun call p i w hp hguess => answersGuess_advance i w (hp hguess))
      (Pool.idle s : PinPool c ι) (fun i call p hp => by cases hp) ms
  · exact Pool.writesOnly_run handlePins_executes (Pool.idle s : PinPool c ι)
      (fun i call p hp => by cases hp) ms

/-- Tim's account was disabled after he had created an invitation. -/
def disabledInviter : AuthState where
  db := { sampleClassroom with
    users := ⟨[{ id := 2, username := "tim", displayName := "Tim", pwHash := "h:white chalk"
                 role := .teacher, createdAt := 0, disabledAt := some 1 }], by decide +kernel⟩
    teacherInvitePin := some
      { pinHash := "h:12345678", createdBy := some 2, expiresAt := minutes 15 } }
  clock := 2

def registerEve : PinCall sampleCrypto :=
  ⟨sampleRandom 7 "eve", .account (.registerTeacher ⟨"eve", "Eve", "green chalk", "12345678"⟩)⟩

/-- The PIN is right, the request is refused, and the PIN is gone. -/
theorem refused_invite_is_withdrawn :
    let pool := (Pool.idle disabledInviter : PinPool sampleCrypto Nat).run
      (handlePins sampleCrypto) [.start 0 registerEve]
    FailsAfterMatch pool 0 ∧
      pinOf .invite (pool.move (handlePins sampleCrypto) (.advance 0)).world.state.db = none :=
  ⟨⟨registerEve, _, .badCredentials, rfl, rfl, by decide +kernel, rfl⟩, by decide +kernel⟩

end Cinder.Accounts
