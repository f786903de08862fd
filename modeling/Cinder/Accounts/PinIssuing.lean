import Cinder.Accounts.AccountEffects
set_option autoImplicit false

namespace Cinder.Accounts
open Cinder.Host Cinder.Storage Cinder.Programs Cinder.Programs.Program

inductive PinKind where
  | bootstrap | invite
  deriving DecidableEq, Repr

def pinOf : PinKind → Database → Option PinRow
  | .bootstrap, db => db.schoolBootstrapPin
  | .invite, db => db.teacherInvitePin

def pinLifetimeMinutes : Int := 15

/-- The statements of the account routes, and those that issue PINs. -/
inductive PinStatement (c : Crypto) where
  | account (l : AccountStatement c)
  | dropBootstrapPin
  | issueBootstrapPin (pinHash : String) (expiresAt : Time)
  | issueInvite (pinHash : String) (createdBy : Uuid) (expiresAt : Time)

section Statements
variable {c : Crypto}

def PinStatement.run : PinStatement c → AuthState → Except HostError AuthState
  | .account l, s => l.run s
  | .dropBootstrapPin, s => .ok { s with db := { s.db with schoolBootstrapPin := none } }
  | .issueBootstrapPin pinHash expiresAt, s => .ok { s with
      db := { s.db with schoolBootstrapPin := some { pinHash, createdBy := none, expiresAt } } }
  | .issueInvite pinHash createdBy expiresAt, s =>
    if (user? s.db createdBy).isSome then .ok { s with
      db := { s.db with teacherInvitePin := some { pinHash, createdBy, expiresAt } } }
    else .error (.database .constraintViolation)

instance : Engine AuthState (PinStatement c) HostError := ⟨PinStatement.run⟩

end Statements

abbrev PinProgram (c : Crypto) := Program AuthState (PinStatement c) HostError

def eightDigits (s : String) : Bool := s.utf8ByteSize = 8 && asciiDigits s

section Handlers
variable (c : Crypto)

def hashOneTimePin (salt pin : String) : Except HostError String :=
  if eightDigits pin = false then
    .error (.badRequest "A setup or invite PIN must contain exactly eight digits.")
  else hashSecret c salt pin

/-- With an active teacher there is nothing to set up. -/
def prepareBootstrapPin (random : Random) : PinProgram c (Option String) := do
  let active ← query fun s => s.db.users.rows.any activeTeacher
  if active then do
    execute .dropBootstrapPin
    pure none
  else do
    let time ← query fun s => s.clock
    let pinHash ← ofExcept (hashOneTimePin c (random.salt 0) random.pin)
    execute (.issueBootstrapPin pinHash (time+minutes pinLifetimeMinutes))
    pure (some random.pin)

def generateTeacherInvite (random : Random) (caller : SessionCaller) :
    PinProgram c (String × Time) := do
  require (caller.user.role.isTeacher = true) .forbidden
  let time ← query fun s => s.clock
  let pinHash ← ofExcept (hashOneTimePin c (random.salt 0) random.pin)
  execute (.issueInvite pinHash caller.user.id (time+minutes pinLifetimeMinutes))
  pure (random.pin, time+minutes pinLifetimeMinutes)

end Handlers

inductive PinReply where
  | account (reply : AccountReply)
  | prepared (pin : Option String)
  | invited (pin : String) (expiresAt : Time)
  deriving DecidableEq, Repr

inductive PinRequest (c : Crypto) where
  | account (request : AccountRequest c)
  | prepareBootstrap
  | invite (token : String)

structure PinCall (c : Crypto) where
  random : Random
  request : PinRequest c

def handlePins (c : Crypto) (call : PinCall c) : PinProgram c PinReply :=
  match call.request with
  | .account request => do
    let reply ← (handle c ⟨call.random, request⟩).relabel .account
    pure (.account reply)
  | .prepareBootstrap => do
    let pin ← prepareBootstrapPin c call.random
    pure (.prepared pin)
  | .invite token => do
    let caller ← (currentUser c token false).relabel .account
    let (pin, expiresAt) ← generateTeacherInvite c call.random caller
    pure (.invited pin expiresAt)

abbrev PinEvent (c : Crypto) (ι : Type) := Event ι AuthState (PinStatement c)

abbrev PinWorld (c : Crypto) (ι : Type) := World ι AuthState (PinStatement c)

abbrev PinPool (c : Crypto) (ι : Type) :=
  Pool ι (PinCall c) AuthState (PinStatement c) HostError PinReply

/-! What a guess does. A guess that is not eight digits long is counted without
being compared. -/

def admitsGuess (now : Time) (row : PinRow) : Bool :=
  !(row.blockedUntil.any fun t => now < t) && !decide (row.expiresAt ≤ now)

def countGuess (now : Time) (row : PinRow) : PinRow :=
  if maxPinAttempts ≤ row.failedAttempts+1 then
    { row with failedAttempts := 0, blockedUntil := some (now+minutes pinBlockMinutes) }
  else { row with failedAttempts := row.failedAttempts+1, blockedUntil := none }

section Guesses
variable {c : Crypto}

def matchesPin (c : Crypto) (row : PinRow) (guess : String) : Bool :=
  eightDigits guess && verifyPassword c row.pinHash guess

/-- `verify_limited_pin`, by what becomes of the guess. -/
theorem verifyLimitedPin_cases (pin : Option PinRow) (guess : String) (now : Time) :
    (∃ row, pin = some row ∧ admitsGuess now row = true ∧ matchesPin c row guess = true ∧
      verifyLimitedPin c pin guess now = (.ok (), pin)) ∨
    (∃ row e, pin = some row ∧ admitsGuess now row = true ∧ matchesPin c row guess = false ∧
      verifyLimitedPin c pin guess now = (.error e, some (countGuess now row))) ∨
    ∃ e, pin.filter (admitsGuess now) = none ∧
      verifyLimitedPin c pin guess now = (.error e, pin) := by
  cases pin with
  | none => exact .inr (.inr ⟨_, rfl, rfl⟩)
  | some row =>
    unfold verifyLimitedPin
    by_cases hblocked : (row.blockedUntil.any fun t => now < t) = true
    · exact .inr (.inr ⟨_, by simp [Option.filter, admitsGuess, hblocked], if_pos hblocked⟩)
    · by_cases hexpired : row.expiresAt ≤ now
      · exact .inr (.inr ⟨_, by simp [Option.filter, admitsGuess, hexpired],
          (if_neg hblocked).trans (if_pos hexpired)⟩)
      · have hadmits : admitsGuess now row = true := by
          simp only [Bool.not_eq_true] at hblocked
          simp [admitsGuess, hblocked, hexpired]
        have hmatch : (guess.utf8ByteSize = 8 ∧ asciiDigits guess = true ∧
            verifyPassword c row.pinHash guess = true) ↔ matchesPin c row guess = true := by
          simp [matchesPin, eightDigits, and_assoc]
        simp only [if_neg hblocked, if_neg hexpired, hmatch]
        by_cases hright : matchesPin c row guess = true
        · exact .inl ⟨row, rfl, hadmits, hright, if_pos hright⟩
        · rw [if_neg hright]
          rw [Bool.not_eq_true] at hright
          by_cases hlast : maxPinAttempts ≤ row.failedAttempts+1
          · rw [if_pos hlast]
            exact .inr (.inl ⟨row, _, rfl, hadmits, hright, by rw [countGuess, if_pos hlast]⟩)
          · rw [if_neg hlast]
            exact .inr (.inl ⟨row, _, rfl, hadmits, hright, by rw [countGuess, if_neg hlast]⟩)

theorem verifyLimitedPin_wrong {row : PinRow} {guess : String} {now : Time}
    (hadmits : admitsGuess now row = true) (hwrong : matchesPin c row guess = false) :
    ∃ e, verifyLimitedPin c (some row) guess now = (.error e, some (countGuess now row)) := by
  rcases verifyLimitedPin_cases (c := c) (some row) guess now with
    ⟨row', hrow, -, hright, -⟩ | ⟨row', e, hrow, -, -, hv⟩ | ⟨e, hclosed, -⟩
  · obtain rfl := Option.some.inj hrow
    rw [hwrong] at hright
    cases hright
  · obtain rfl := Option.some.inj hrow
    exact ⟨e, hv⟩
  · rw [Option.filter_some_pos hadmits] at hclosed
    cases hclosed

def AuthState.setPin (s : AuthState) (kind : PinKind) (pin : Option PinRow) : AuthState :=
  match kind with
  | .bootstrap => { s with db := { s.db with schoolBootstrapPin := pin } }
  | .invite => { s with db := { s.db with teacherInvitePin := pin } }

@[simp] theorem pinOf_setPin (s : AuthState) (kind : PinKind) (pin : Option PinRow) :
    pinOf kind (s.setPin kind pin).db = pin := by cases kind <;> rfl

theorem pinOf_setPin_of_ne (s : AuthState) {kind other : PinKind} (h : other ≠ kind)
    (pin : Option PinRow) : pinOf other (s.setPin kind pin).db = pinOf other s.db := by
  cases kind <;> cases other <;> first | exact absurd rfl h | rfl

@[simp] theorem setPin_clock (s : AuthState) (kind : PinKind) (pin : Option PinRow) :
    (s.setPin kind pin).clock = s.clock := by cases kind <;> rfl

@[simp] theorem setPin_users (s : AuthState) (kind : PinKind) (pin : Option PinRow) :
    (s.setPin kind pin).db.users = s.db.users := by cases kind <;> rfl

def invitedByActive (s : AuthState) : Prop :=
  ∃ u ∈ s.db.users.rows, activeTeacher u = true ∧
    ∃ row, s.db.teacherInvitePin = some row ∧ row.createdBy = some u.id

/-- How a transaction at a PIN that commits may end: with one account more and
no PIN, with a failed guess counted, with a guess not let through, or with an
invitation withdrawn. -/
inductive GuessOutcome (c : Crypto) (kind : PinKind) (guess : String) (s : AuthState) :
    Except HostError BootstrapTeacherResponse → AuthState → Prop where
  | admitted {row : PinRow} {user : UserRow} {reply : BootstrapTeacherResponse} {s' : AuthState}
      (pin : pinOf kind s.db = some row) (admits : admitsGuess s.clock row = true)
      (right : matchesPin c row guess = true) (used : pinOf kind s'.db = none)
      (other : ∀ k, k ≠ kind → pinOf k s'.db = pinOf k s.db) (clock : s'.clock = s.clock)
      (account : s.db.users.insert user = some s'.db.users) :
      GuessOutcome c kind guess s (.ok reply) s'
  | failed {row : PinRow} {e : HostError} (pin : pinOf kind s.db = some row)
      (admits : admitsGuess s.clock row = true) (wrong : matchesPin c row guess = false) :
      GuessOutcome c kind guess s (.error e) (s.setPin kind (some (countGuess s.clock row)))
  | refused {e : HostError} (closed : (pinOf kind s.db).filter (admitsGuess s.clock) = none) :
      GuessOutcome c kind guess s (.error e) s
  | withdrawn {row : PinRow} {e : HostError} (pin : pinOf kind s.db = some row)
      (admits : admitsGuess s.clock row = true) (right : matchesPin c row guess = true)
      (invite : kind = .invite) (creator : ¬invitedByActive s) :
      GuessOutcome c kind guess s (.error e) (s.setPin kind none)

variable {s s' : AuthState} {random : Random} {r : Except HostError BootstrapTeacherResponse}

theorem bootstrapTx_outcome {req : BootstrapTeacherRequest}
    (h : bootstrapTx c random req s = .ok (r, s')) :
    s.db.users.rows.any activeTeacher = false ∧
      GuessOutcome c .bootstrap req.bootstrapPin s r s' := by
  unfold bootstrapTx at h
  split at h
  · cases h
  · next hnone =>
    refine ⟨by simpa using hnone, ?_⟩
    rcases verifyLimitedPin_cases s.db.schoolBootstrapPin req.bootstrapPin s.clock with
      ⟨row, hpin, hadmits, hright, hv⟩ | ⟨row, e, hpin, hadmits, hwrong, hv⟩ | ⟨e, hclosed, hv⟩
    · rw [hv] at h
      obtain ⟨⟨user, users⟩, hins, h⟩ := bind_eq_ok.mp h
      obtain ⟨hash, -, h⟩ := bind_eq_ok.mp h
      obtain ⟨recovery, -, h⟩ := bind_eq_ok.mp h
      obtain ⟨u, hrow, rfl, -⟩ := insertUser_ok hins
      cases h
      refine .admitted hpin hadmits hright rfl (fun k hk => ?_) rfl hrow
      cases k with
      | bootstrap => exact absurd rfl hk
      | invite => rfl
    · rw [hv] at h
      cases h
      exact .failed hpin hadmits hwrong
    · rw [hv] at h
      cases h
      exact .refused hclosed

theorem registerTeacherTx_outcome {req : RegisterTeacherRequest}
    (h : registerTeacherTx c random req s = .ok (r, s')) :
    GuessOutcome c .invite req.invitePin s r s' := by
  unfold registerTeacherTx at h
  rcases verifyLimitedPin_cases s.db.teacherInvitePin req.invitePin s.clock with
    ⟨row, hpin, hadmits, hright, hv⟩ | ⟨row, e, hpin, hadmits, hwrong, hv⟩ | ⟨e, hclosed, hv⟩
  · rw [hv] at h
    dsimp only at h
    split at h
    · next hcreator =>
      cases h
      refine .withdrawn hpin hadmits hright rfl ?_
      rintro ⟨u, hu, hactive, row', hrow', hby⟩
      have hfalse := List.any_eq_false.mp hcreator u hu
      simp [hactive, hrow', hby] at hfalse
    · obtain ⟨⟨user, users⟩, hins, h⟩ := bind_eq_ok.mp h
      obtain ⟨hash, -, h⟩ := bind_eq_ok.mp h
      obtain ⟨recovery, -, h⟩ := bind_eq_ok.mp h
      obtain ⟨u, hrow, rfl, -⟩ := insertUser_ok hins
      cases h
      refine .admitted hpin hadmits hright rfl (fun k hk => ?_) rfl hrow
      cases k with
      | bootstrap => rfl
      | invite => exact absurd rfl hk
  · rw [hv] at h
    cases h
    exact .failed hpin hadmits hwrong
  · rw [hv] at h
    cases h
    exact .refused hclosed

end Guesses

end Cinder.Accounts
