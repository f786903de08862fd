import Cinder.Accounts.PinIssuing
set_option autoImplicit false

namespace Cinder.Accounts
open Cinder.Host Cinder.Storage Cinder.Programs Cinder.Programs.Program
open Cinder.Programs.Protocol

variable {c : Crypto} {ι : Type}

namespace PinStatement

def issues? (kind : PinKind) : PinStatement c → Option Time
  | .issueBootstrapPin _ expiresAt => if kind = .bootstrap then some expiresAt else none
  | .issueInvite _ _ expiresAt => if kind = .invite then some expiresAt else none
  | _ => none

/-- The guess that the statement submits, with the PIN that lets it through. -/
def guess? (kind : PinKind) : PinStatement c → AuthState → Option (PinRow × String)
  | .account (.bootstrap _ req), s =>
    if kind = .bootstrap ∧ s.db.users.rows.any activeTeacher = false then
      (s.db.schoolBootstrapPin.filter (admitsGuess s.clock)).map fun row => (row, req.bootstrapPin)
    else none
  | .account (.registerTeacher _ req), s =>
    if kind = .invite then
      (s.db.teacherInvitePin.filter (admitsGuess s.clock)).map fun row => (row, req.invitePin)
    else none
  | _, _ => none

def compares (kind : PinKind) (l : PinStatement c) (s : AuthState) : Bool :=
  (l.guess? kind s).any fun g => eightDigits g.2

def comparesWrong (kind : PinKind) (l : PinStatement c) (s : AuthState) : Bool :=
  (l.guess? kind s).any fun g => eightDigits g.2 && !verifyPassword c g.1.pinHash g.2

def fails (kind : PinKind) (l : PinStatement c) (s : AuthState) : Bool :=
  (l.guess? kind s).any fun g => !matchesPin c g.1 g.2

def blocks (kind : PinKind) (l : PinStatement c) (s : AuthState) : Bool :=
  l.fails kind s && (pinOf kind s.db).any fun row => maxPinAttempts ≤ row.failedAttempts+1

/-- The transaction is committed, and its request is answered with an error. -/
def refuses : PinStatement c → AuthState → Bool
  | .account (.bootstrap random req), s =>
    match bootstrapTx c random req s with
    | .ok (.error _, _) => true
    | _ => false
  | .account (.registerTeacher random req), s =>
    match registerTeacherTx c random req s with
    | .ok (.error _, _) => true
    | _ => false
  | _, _ => false

/-- The statement admits an account at the PIN of the kind. -/
def admits (kind : PinKind) : PinStatement c → AuthState → Bool
  | .account (.bootstrap random req), s =>
    match kind, bootstrapTx c random req s with
    | .bootstrap, .ok (.ok _, _) => true
    | _, _ => false
  | .account (.registerTeacher random req), s =>
    match kind, registerTeacherTx c random req s with
    | .invite, .ok (.ok _, _) => true
    | _, _ => false
  | _, _ => false

theorem fails_of_comparesWrong {kind : PinKind} {l : PinStatement c} {s : AuthState}
    (h : l.comparesWrong kind s = true) : l.fails kind s = true := by
  obtain ⟨g, hg, hwrong⟩ := (Option.any_eq_true _ _).mp h
  simp only [Bool.and_eq_true, Bool.not_eq_true'] at hwrong
  exact (Option.any_eq_true _ _).mpr ⟨g, hg, by simp [matchesPin, hwrong.2]⟩

theorem guess?_admits {kind : PinKind} {l : PinStatement c} {s : AuthState}
    {g : PinRow × String} (h : l.guess? kind s = some g) :
    pinOf kind s.db = some g.1 ∧ admitsGuess s.clock g.1 = true := by
  unfold guess? at h
  split at h
  · split at h
    · next hk =>
      obtain ⟨row, hrow, rfl⟩ := Option.map_eq_some_iff.mp h
      rw [Option.filter_eq_some_iff] at hrow
      rw [hk.1]
      exact hrow
    · cases h
  · split at h
    · next hk =>
      obtain ⟨row, hrow, rfl⟩ := Option.map_eq_some_iff.mp h
      rw [Option.filter_eq_some_iff] at hrow
      rw [hk]
      exact hrow
    · cases h
  · cases h

end PinStatement

inductive PinStep (kind : PinKind) (l : PinStatement c) (s s' : AuthState) : Prop where
  | issued {row : PinRow} (issues : l.issues? kind = some row.expiresAt)
      (pin : pinOf kind s'.db = some row) (attempts : row.failedAttempts = 0)
      (unblocked : row.blockedUntil = none) (clock : s'.clock = s.clock)
  | failed {row : PinRow} (issues : l.issues? kind = none) (old : pinOf kind s.db = some row)
      (fails : l.fails kind s = true) (pin : pinOf kind s'.db = some (countGuess s.clock row))
      (clock : s'.clock = s.clock)
  | kept (issues : l.issues? kind = none) (fails : l.fails kind s = false)
      (pin : pinOf kind s'.db = pinOf kind s.db) (clock : s.clock ≤ s'.clock)
  | gone (issues : l.issues? kind = none) (fails : l.fails kind s = false)
      (pin : pinOf kind s'.db = none) (clock : s.clock ≤ s'.clock)

section Steps
variable {kind : PinKind} {s s' : AuthState}

theorem GuessOutcome.pinStep {l : PinStatement c} {guess : String}
    {r : Except HostError BootstrapTeacherResponse} (h : GuessOutcome c kind guess s r s')
    (hissues : l.issues? kind = none)
    (hguess : l.guess? kind s =
      ((pinOf kind s.db).filter (admitsGuess s.clock)).map fun row => (row, guess)) :
    PinStep kind l s s' := by
  have hfails : ∀ row, pinOf kind s.db = some row → admitsGuess s.clock row = true →
      l.fails kind s = !matchesPin c row guess := fun row hrow hadmits => by
    rw [PinStatement.fails, hguess, hrow, Option.filter_some_pos hadmits]
    rfl
  cases h with
  | admitted pin admits right used other clock account =>
    exact .gone hissues (by rw [hfails _ pin admits, right]; rfl) used (Int.le_of_eq clock.symm)
  | failed pin admits wrong =>
    exact .failed hissues pin (by rw [hfails _ pin admits, wrong]; rfl) (pinOf_setPin _ _ _)
      (setPin_clock _ _ _)
  | refused closed =>
    refine .kept hissues ?_ rfl (Int.le_refl _)
    rw [PinStatement.fails, hguess, closed]
    rfl
  | withdrawn pin admits right invite creator =>
    exact .gone hissues (by rw [hfails _ pin admits, right]; rfl) (pinOf_setPin _ _ _)
      (Int.le_of_eq (setPin_clock _ _ _).symm)

theorem GuessOutcome.other_kept {guessed : PinKind} {guess : String}
    {r : Except HostError BootstrapTeacherResponse} (h : GuessOutcome c guessed guess s r s')
    (hne : kind ≠ guessed) : pinOf kind s'.db = pinOf kind s.db ∧ s'.clock = s.clock := by
  cases h with
  | admitted pin admits right used other clock account => exact ⟨other kind hne, clock⟩
  | failed => exact ⟨pinOf_setPin_of_ne _ hne _, setPin_clock _ _ _⟩
  | refused => exact ⟨rfl, rfl⟩
  | withdrawn => exact ⟨pinOf_setPin_of_ne _ hne _, setPin_clock _ _ _⟩

theorem account_kept {l : AccountStatement c} (h : l.run s = .ok s')
    (hbootstrap : ∀ random req, l ≠ .bootstrap random req)
    (hregister : ∀ random req, l ≠ .registerTeacher random req) :
    pinOf kind s'.db = pinOf kind s.db ∧ s.clock ≤ s'.clock := by
  cases l with
  | bootstrap random req => exact absurd rfl (hbootstrap random req)
  | registerTeacher random req => exact absurd rfl (hregister random req)
  | tick elapsed =>
    cases h
    exact ⟨rfl, Int.le_add_of_nonneg_right (Int.natCast_nonneg _)⟩
  | insertSession row verified =>
    obtain ⟨sessions, -, h⟩ := bind_eq_ok.mp h
    cases h
    exact ⟨by cases kind <;> rfl, Int.le_refl _⟩
  | recover role user hash recoveryHash time =>
    cases h
    cases role <;> exact ⟨by cases kind <;> rfl, Int.le_refl _⟩
  | resetStudent random student teacher =>
    obtain ⟨reply, h⟩ := map_snd_eq_ok h
    unfold resetStudentTx at h
    split at h
    · cases h
    · obtain ⟨user, -, h⟩ := bind_eq_ok.mp h
      dsimp only at h
      split at h
      · cases h
      · obtain ⟨pwHash, -, h⟩ := bind_eq_ok.mp h
        obtain ⟨recoveryHash, -, h⟩ := bind_eq_ok.mp h
        obtain ⟨studentRecovery, -, h⟩ := bind_eq_ok.mp h
        obtain ⟨user', -, h⟩ := bind_eq_ok.mp h
        cases h
        exact ⟨by cases kind <;> rfl, Int.le_refl _⟩
  | compare | recordFailure | blockLogin | recordSuccess | deleteExpired | deleteSession
  | setPassword | deleteOtherSessions =>
    cases h
    exact ⟨by cases kind <;> rfl, Int.le_refl _⟩

theorem pin_step (kind : PinKind) {l : PinStatement c} (h : l.run s = .ok s') :
    PinStep kind l s s' := by
  cases l with
  | account l =>
    have hrun : l.run s = .ok s' := h
    cases l with
    | bootstrap random req =>
      obtain ⟨r, h⟩ := map_snd_eq_ok h
      obtain ⟨hnone, hout⟩ := bootstrapTx_outcome h
      cases kind with
      | bootstrap => exact hout.pinStep rfl (by simp [PinStatement.guess?, pinOf, hnone])
      | invite =>
        obtain ⟨hpin, hclock⟩ := hout.other_kept (nofun : PinKind.invite ≠ .bootstrap)
        exact .kept rfl rfl hpin (Int.le_of_eq hclock.symm)
    | registerTeacher random req =>
      obtain ⟨r, h⟩ := map_snd_eq_ok h
      have hout := registerTeacherTx_outcome h
      cases kind with
      | invite => exact hout.pinStep rfl (by simp [PinStatement.guess?, pinOf])
      | bootstrap =>
        obtain ⟨hpin, hclock⟩ := hout.other_kept (nofun : PinKind.bootstrap ≠ .invite)
        exact .kept rfl rfl hpin (Int.le_of_eq hclock.symm)
    | _ =>
      obtain ⟨hpin, hclock⟩ : pinOf kind s'.db = pinOf kind s.db ∧ s.clock ≤ s'.clock :=
        account_kept hrun (fun _ _ => nofun) (fun _ _ => nofun)
      exact .kept rfl rfl hpin hclock
  | dropBootstrapPin =>
    cases h
    cases kind with
    | bootstrap => exact .gone rfl rfl rfl (Int.le_refl _)
    | invite => exact .kept rfl rfl rfl (Int.le_refl _)
  | issueBootstrapPin pinHash expiresAt =>
    cases h
    cases kind with
    | bootstrap => exact .issued rfl rfl rfl rfl rfl
    | invite => exact .kept rfl rfl rfl (Int.le_refl _)
  | issueInvite pinHash createdBy expiresAt =>
    simp only [PinStatement.run] at h
    split at h
    · cases h
      cases kind with
      | bootstrap => exact .kept rfl rfl rfl (Int.le_refl _)
      | invite => exact .issued rfl rfl rfl rfl rfl
    · cases h

theorem run_of_fails {l : PinStatement c} (h : l.fails kind s = true) :
    l.refuses s = true ∧ ∃ row, pinOf kind s.db = some row ∧
      l.run s = .ok (s.setPin kind (some (countGuess s.clock row))) := by
  obtain ⟨⟨row, guess⟩, hg, hwrong⟩ := (Option.any_eq_true _ _).mp h
  obtain ⟨hpin, hadmits⟩ := PinStatement.guess?_admits hg
  rw [Bool.not_eq_true'] at hwrong
  obtain ⟨e, hv⟩ := verifyLimitedPin_wrong hadmits hwrong
  unfold PinStatement.guess? at hg
  split at hg
  · next random req =>
    split at hg
    · next hk =>
      obtain ⟨rfl, hnone⟩ := hk
      obtain ⟨row', -, hpair⟩ := Option.map_eq_some_iff.mp hg
      obtain ⟨rfl, rfl⟩ := Prod.mk.inj hpair
      have htx : bootstrapTx c random req s =
          .ok (.error e, s.setPin .bootstrap (some (countGuess s.clock row'))) := by
        rw [bootstrapTx, if_neg (by simp [hnone]), show s.db.schoolBootstrapPin = _ from hpin, hv]
        rfl
      refine ⟨by rw [PinStatement.refuses, htx], row', hpin, ?_⟩
      exact congrArg (Except.map Prod.snd) htx
    · cases hg
  · next random req =>
    split at hg
    · next hk =>
      subst hk
      obtain ⟨row', -, hpair⟩ := Option.map_eq_some_iff.mp hg
      obtain ⟨rfl, rfl⟩ := Prod.mk.inj hpair
      have htx : registerTeacherTx c random req s =
          .ok (.error e, s.setPin .invite (some (countGuess s.clock row'))) := by
        rw [registerTeacherTx, show s.db.teacherInvitePin = _ from hpin, hv]
        rfl
      refine ⟨by rw [PinStatement.refuses, htx], row', hpin, ?_⟩
      exact congrArg (Except.map Prod.snd) htx
    · cases hg
  · cases hg

end Steps

/-- A PIN of the kind, issued with this expiry: `later` came after its issue, and
`newer` after the end of its time, if there is a newer PIN. Latest events first. -/
def IssuedBefore (kind : PinKind) (expiresAt : Time) (newer later history : List (PinEvent c ι)) :
    Prop :=
  ∃ issue older, history = newer ++ (later ++ issue :: older) ∧
    issue.label.issues? kind = some expiresAt ∧ ∀ e ∈ later, e.label.issues? kind = none

def failures (kind : PinKind) (later : List (PinEvent c ι)) : Nat :=
  later.countP fun e => e.label.fails kind e.before

structure GuessesBounded (kind : PinKind) (expiresAt : Time) (later : List (PinEvent c ι)) :
    Prop where
  compared : (later.countP fun e => e.label.comparesWrong kind e.before) ≤ 15
  inTime : ∀ e ∈ later, e.label.compares kind e.before = true → e.before.clock < expiresAt
  unblocked : ∀ newer g older, later = newer ++ g :: older →
    g.label.blocks kind g.before = true → ∀ e ∈ newer, e.label.compares kind e.before = true →
      g.before.clock+minutes pinBlockMinutes ≤ e.before.clock

def opensAt (now : Time) (row : PinRow) : Time :=
  match row.blockedUntil with
  | none => now
  | some t => if t ≤ now then now else t

structure CountsFailures (kind : PinKind) (expiresAt : Time) (later : List (PinEvent c ι))
    (now : Time) (row : PinRow) : Prop where
  expires : row.expiresAt = expiresAt
  attempts : row.failedAttempts = ((failures kind later % 5 : Nat) : Int)
  waited : expiresAt+minutes (pinBlockMinutes*((failures kind later / 5 : Nat) : Int)) ≤
    opensAt now row+minutes pinLifetimeMinutes
  blocked : ∀ g ∈ later, g.label.blocks kind g.before = true →
    g.before.clock+minutes pinBlockMinutes ≤ opensAt now row

theorem opensAt_of_admits {now : Time} {row : PinRow} (h : admitsGuess now row = true) :
    opensAt now row = now ∧ now < row.expiresAt := by
  simp only [admitsGuess, Bool.and_eq_true, Bool.not_eq_true', decide_eq_false_iff_not] at h
  refine ⟨?_, Int.not_le.mp h.2⟩
  unfold opensAt
  cases hb : row.blockedUntil with
  | none => rfl
  | some t =>
    have hle : t ≤ now := by simpa [hb] using h.1
    exact if_pos hle

theorem le_opensAt (now : Time) (row : PinRow) : now ≤ opensAt now row := by
  unfold opensAt
  split
  · exact Int.le_refl now
  · split
    · exact Int.le_refl now
    · next hlate => exact Int.le_of_lt (Int.not_le.mp hlate)

theorem opensAt_mono {now now' : Time} (h : now ≤ now') (row : PinRow) :
    opensAt now row ≤ opensAt now' row := by
  cases hb : row.blockedUntil with
  | none => simpa only [opensAt, hb] using h
  | some t =>
    have hrow : ∀ n, opensAt n row = if t ≤ n then n else t := fun n => by simp only [opensAt, hb]
    rw [hrow, hrow]
    by_cases ht : t ≤ now
    · rw [if_pos ht, if_pos (Int.le_trans ht h)]
      exact h
    · rw [if_neg ht]
      split
      · assumption
      · exact Int.le_refl t

section Blocks
variable {expiresAt now : Int} {n : Nat}

theorem blocks_before_expiry
    (h : expiresAt+minutes (pinBlockMinutes*((n/5 : Nat) : Int)) ≤ now+minutes pinLifetimeMinutes)
    (hnow : now < expiresAt) : n/5 < 3 := by
  simp only [minutes, pinBlockMinutes, pinLifetimeMinutes] at h
  omega

theorem waits_in_block
    (h : expiresAt+minutes (pinBlockMinutes*((n/5 : Nat) : Int)) ≤ now+minutes pinLifetimeMinutes)
    (hn : n % 5 < 4) : expiresAt+minutes (pinBlockMinutes*(((n+1)/5 : Nat) : Int)) ≤
      now+minutes pinLifetimeMinutes := by
  simp only [minutes, pinBlockMinutes, pinLifetimeMinutes] at h ⊢
  omega

theorem waits_next_block
    (h : expiresAt+minutes (pinBlockMinutes*((n/5 : Nat) : Int)) ≤ now+minutes pinLifetimeMinutes)
    (hn : n % 5 = 4) : expiresAt+minutes (pinBlockMinutes*(((n+1)/5 : Nat) : Int)) ≤
      now+minutes pinBlockMinutes+minutes pinLifetimeMinutes := by
  simp only [minutes, pinBlockMinutes, pinLifetimeMinutes] at h ⊢
  omega

theorem lt_add_block : now < now+minutes pinBlockMinutes := by
  simp only [minutes, pinBlockMinutes]
  omega

end Blocks

theorem failures_cons (kind : PinKind) (e : PinEvent c ι) (later : List (PinEvent c ι)) :
    failures kind (e :: later) =
      failures kind later + if e.label.fails kind e.before then 1 else 0 :=
  List.countP_cons

section Counting
variable {kind : PinKind} {expiresAt : Time} {later : List (PinEvent c ι)}

theorem countsFailures_issued {now : Time} {row : PinRow} (hattempts : row.failedAttempts = 0)
    (hexpires : row.expiresAt ≤ now+minutes pinLifetimeMinutes) :
    CountsFailures kind row.expiresAt ([] : List (PinEvent c ι)) now row := by
  have hopens := le_opensAt now row
  refine ⟨rfl, hattempts, ?_, fun g hg => by cases hg⟩
  have hnone : failures kind ([] : List (PinEvent c ι)) = 0 := rfl
  rw [hnone]
  refine Int.le_trans (Int.le_of_eq ?_) (Int.le_trans hexpires (Int.add_le_add_right hopens _))
  exact Int.add_zero _

theorem CountsFailures.kept {e : PinEvent c ι} {now now' : Time} {row : PinRow}
    (h : CountsFailures kind expiresAt later now row) (hnow : now ≤ now')
    (hfails : e.label.fails kind e.before = false) :
    CountsFailures kind expiresAt (e :: later) now' row := by
  have hcount : failures kind (e :: later) = failures kind later := by
    rw [failures_cons, hfails]
    rfl
  have hmono := opensAt_mono hnow row
  refine ⟨h.expires, by rw [hcount]; exact h.attempts, ?_, fun g hg hblocks => ?_⟩
  · rw [hcount]
    exact Int.le_trans h.waited (Int.add_le_add_right hmono _)
  · rcases List.mem_cons.mp hg with rfl | hg
    · rw [PinStatement.blocks, hfails] at hblocks
      cases hblocks
    · exact Int.le_trans (h.blocked g hg hblocks) hmono

theorem CountsFailures.failed {e : PinEvent c ι} {row : PinRow}
    (h : CountsFailures kind expiresAt later e.before.clock row)
    (hrow : pinOf kind e.before.db = some row) (hfails : e.label.fails kind e.before = true)
    (hadmits : admitsGuess e.before.clock row = true) :
    failures kind (e :: later) ≤ 15 ∧
      CountsFailures kind expiresAt (e :: later) e.before.clock (countGuess e.before.clock row) := by
  have hcount : failures kind (e :: later) = failures kind later+1 := by
    rw [failures_cons, hfails]
    rfl
  obtain ⟨hopens, hintime⟩ := opensAt_of_admits hadmits
  obtain ⟨hexpires, hattempts, hwaited, hblocked⟩ := h
  rw [hopens] at hwaited hblocked
  rw [hexpires] at hintime
  have hfew := blocks_before_expiry hwaited hintime
  refine ⟨by omega, ?_⟩
  by_cases hlast : maxPinAttempts ≤ row.failedAttempts+1
  · have hfive : failures kind later % 5 = 4 := by
      unfold maxPinAttempts at hlast
      omega
    have hnext : opensAt e.before.clock { row with
        failedAttempts := 0
        blockedUntil := some (e.before.clock+minutes pinBlockMinutes) } =
        e.before.clock+minutes pinBlockMinutes := if_neg (Int.not_le.mpr lt_add_block)
    have hzero : (failures kind later+1) % 5 = 0 := by omega
    rw [countGuess, if_pos hlast]
    refine ⟨hexpires, ?_, ?_, fun g hg hblocks => ?_⟩
    · rw [hcount, hzero]
      rfl
    · rw [hcount, hnext]
      exact waits_next_block hwaited hfive
    · rw [hnext]
      rcases List.mem_cons.mp hg with rfl | hg
      · exact Int.le_refl _
      · exact Int.le_trans (hblocked g hg hblocks) (Int.le_of_lt lt_add_block)
  · have hfour : failures kind later % 5 < 4 := by
      unfold maxPinAttempts at hlast
      omega
    have hnext : opensAt e.before.clock { row with
        failedAttempts := row.failedAttempts+1
        blockedUntil := none } = e.before.clock := rfl
    have hsucc : ((failures kind later+1) % 5 : Nat) = failures kind later % 5+1 := by omega
    rw [countGuess, if_neg hlast]
    refine ⟨hexpires, ?_, ?_, fun g hg hblocks => ?_⟩
    · rw [hcount, hsucc, Int.natCast_add, ← hattempts]
      rfl
    · rw [hcount, hnext]
      exact waits_in_block hwaited hfour
    · rw [hnext]
      rcases List.mem_cons.mp hg with rfl | hg
      · simp [PinStatement.blocks, hrow, hlast] at hblocks
      · exact hblocked g hg hblocks

end Counting

/-- What is known of every PIN issued so far, and of the row of the latest. -/
def PinsTracked (w : PinWorld c ι) : Prop :=
  ∀ kind expiresAt newer later, IssuedBefore kind expiresAt newer later w.history →
    GuessesBounded kind expiresAt later ∧ failures kind later ≤ 15 ∧
      (newer = [] → ∀ row, pinOf kind w.state.db = some row →
        CountsFailures kind expiresAt later w.state.clock row)

section Steps
variable {kind : PinKind} {expiresAt : Time} {i : ι} {l : PinStatement c} {w w' : PinWorld c ι}

theorem GuessesBounded.cons {e : PinEvent c ι} {later : List (PinEvent c ι)}
    (h : GuessesBounded kind expiresAt later) (hfew : failures kind (e :: later) ≤ 15)
    (hrow : ∀ row, pinOf kind e.before.db = some row →
      CountsFailures kind expiresAt later e.before.clock row) :
    GuessesBounded kind expiresAt (e :: later) := by
  have hcompared : ∀ e' : PinEvent c ι, e'.label.comparesWrong kind e'.before = true →
      e'.label.fails kind e'.before = true := fun _ => PinStatement.fails_of_comparesWrong
  have hadmitted : e.label.compares kind e.before = true → ∃ row,
      CountsFailures kind expiresAt later e.before.clock row ∧
        admitsGuess e.before.clock row = true := fun hcompares => by
    obtain ⟨g, hg, -⟩ := (Option.any_eq_true _ _).mp hcompares
    obtain ⟨hpin, hadmits⟩ := PinStatement.guess?_admits hg
    exact ⟨g.1, hrow g.1 hpin, hadmits⟩
  refine ⟨?_, fun e' he' hcompares => ?_, ?_⟩
  · exact Nat.le_trans (List.countP_mono_left fun e' _ => hcompared e') hfew
  · rcases List.mem_cons.mp he' with rfl | he'
    · obtain ⟨row, hcounts, hadmits⟩ := hadmitted hcompares
      exact hcounts.expires ▸ (opensAt_of_admits hadmits).2
    · exact h.inTime e' he' hcompares
  · intro newer g older hsplit hblocks e' he' hcompares
    cases newer with
    | nil => cases he'
    | cons n newer =>
      obtain ⟨rfl, hlater⟩ := List.cons.inj hsplit
      rcases List.mem_cons.mp he' with rfl | he'
      · obtain ⟨row, hcounts, hadmits⟩ := hadmitted hcompares
        rw [← (opensAt_of_admits hadmits).1]
        exact hcounts.blocked g (hlater ▸ by simp) hblocks
      · exact h.unblocked newer g older hlater hblocks e' he' hcompares

theorem tracked_issued (hw : World.Wrote i l w w') (hissues : l.issues? kind = some expiresAt)
    (hexpires : expiresAt ≤ w.state.clock+minutes pinLifetimeMinutes) :
    GuessesBounded kind expiresAt ([] : List (PinEvent c ι)) ∧
      failures kind ([] : List (PinEvent c ι)) ≤ 15 ∧
        ∀ row, pinOf kind w'.state.db = some row →
          CountsFailures kind expiresAt ([] : List (PinEvent c ι)) w'.state.clock row := by
  refine ⟨⟨Nat.zero_le _, fun e he => (by cases he), fun newer g older h => ?_⟩, Nat.zero_le _,
    fun row hrow => ?_⟩
  · cases newer <;> cases h
  · cases pin_step kind hw.1 with
    | issued issues pin attempts unblocked clock =>
      obtain rfl := Option.some.inj (pin.symm.trans hrow)
      obtain rfl := Option.some.inj (hissues.symm.trans issues)
      rw [clock]
      exact countsFailures_issued attempts hexpires
    | failed issues | kept issues | gone issues =>
      rw [hissues] at issues
      cases issues

theorem tracked_later {later : List (PinEvent c ι)} (hw : World.Wrote i l w w')
    (hissues : l.issues? kind = none) (hbounded : GuessesBounded kind expiresAt later)
    (hfew : failures kind later ≤ 15) (hrow : ∀ row, pinOf kind w.state.db = some row →
      CountsFailures kind expiresAt later w.state.clock row) :
    GuessesBounded kind expiresAt (⟨i, l, w.state⟩ :: later) ∧
      failures kind (⟨i, l, w.state⟩ :: later) ≤ 15 ∧
        ∀ row, pinOf kind w'.state.db = some row →
          CountsFailures kind expiresAt (⟨i, l, w.state⟩ :: later) w'.state.clock row := by
  have hquiet : l.fails kind w.state = false →
      failures kind (⟨i, l, w.state⟩ :: later) = failures kind later := fun hfails => by
    rw [failures_cons, if_neg (by simp [hfails]), Nat.add_zero]
  cases pin_step kind hw.1 with
  | issued issues =>
    rw [hissues] at issues
    cases issues
  | failed issues old fails pin clock =>
    obtain ⟨g, hg, -⟩ := (Option.any_eq_true _ _).mp fails
    obtain ⟨hpin, hadmits⟩ := PinStatement.guess?_admits hg
    obtain rfl := Option.some.inj (old.symm.trans hpin)
    obtain ⟨hfew', hcounts⟩ := (hrow _ old).failed (e := ⟨i, l, w.state⟩) old fails hadmits
    refine ⟨hbounded.cons hfew' hrow, hfew', fun row hrow' => ?_⟩
    obtain rfl := Option.some.inj (pin.symm.trans hrow')
    rw [clock]
    exact hcounts
  | kept issues fails pin clock =>
    have hfew' := hquiet fails ▸ hfew
    refine ⟨hbounded.cons hfew' hrow, hfew', fun row hrow' => ?_⟩
    exact (hrow row (pin ▸ hrow')).kept clock fails
  | gone issues fails pin clock =>
    have hfew' := hquiet fails ▸ hfew
    refine ⟨hbounded.cons hfew' hrow, hfew', fun row hrow' => ?_⟩
    rw [pin] at hrow'
    cases hrow'

theorem pinsTracked_step (h : PinsTracked w)
    (hpromise : ∀ kind expiresAt, l.issues? kind = some expiresAt →
      expiresAt ≤ w.state.clock+minutes pinLifetimeMinutes)
    (hw : World.Wrote i l w w') : PinsTracked w' := by
  rintro kind expiresAt newer later ⟨issue, older, hhistory, hissue, hnone⟩
  rw [hw.2] at hhistory
  cases newer with
  | cons n newer =>
    obtain ⟨-, hhistory⟩ := List.cons.inj hhistory
    obtain ⟨hbounded, hfew, -⟩ := h kind expiresAt newer later ⟨issue, older, hhistory, hissue, hnone⟩
    exact ⟨hbounded, hfew, fun hnil => by cases hnil⟩
  | nil =>
    cases later with
    | nil =>
      obtain ⟨rfl, -⟩ := List.cons.inj hhistory
      obtain ⟨hbounded, hfew, hrow⟩ := tracked_issued hw hissue (hpromise kind expiresAt hissue)
      exact ⟨hbounded, hfew, fun _ => hrow⟩
    | cons e later =>
      obtain ⟨rfl, hrest⟩ := List.cons.inj hhistory
      obtain ⟨hbounded, hfew, hrow⟩ := h kind expiresAt [] later
        ⟨issue, older, hrest, hissue, fun e he => hnone e (List.mem_cons_of_mem _ he)⟩
      obtain ⟨hbounded, hfew, hrow⟩ := tracked_later hw (hnone _ List.mem_cons_self) hbounded hfew
        (hrow rfl)
      exact ⟨hbounded, hfew, fun _ => hrow⟩

end Steps

/-- The rules of the requests at the PINs. A PIN is issued for fifteen minutes
from a time that has passed when it is stored. -/
def pinProtocol (c : Crypto) (ι : Type) : Protocol ι AuthState (PinStatement c) where
  inv := PinsTracked
  guard _ _ _ := True
  promise _ l w := ∀ kind expiresAt, l.issues? kind = some expiresAt →
    expiresAt ≤ w.state.clock+minutes pinLifetimeMinutes
  inv_step _ _ _ _ h _ hpromise hw := pinsTracked_step h hpromise hw

section Requests
variable (i : ι)

theorem pinClock_step {l : PinStatement c} {s s' : AuthState} (h : l.run s = .ok s') :
    s.clock ≤ s'.clock := by
  cases pin_step .bootstrap h with
  | issued _ _ _ _ clock => exact Int.le_of_eq clock.symm
  | failed _ _ _ _ clock => exact Int.le_of_eq clock.symm
  | kept _ _ _ clock => exact clock
  | gone _ _ _ clock => exact clock

theorem stable_clock (time : Time) :
    (pinProtocol c ι).Stable i (fun w => time ≤ w.state.clock) :=
  fun _ _ _ _ _ h _ _ _ hw => Int.le_trans h (pinClock_step hw.1)

theorem account_follows {α : Type} (p : AccountProgram c α) :
    (pinProtocol c ι).Follows i (fun _ _ => True) (p.relabel .account) (fun _ => True) :=
  Follows.of_writesOnly (c := fun l => ∀ kind, l.issues? kind = none)
    (fun l w hl kind expiresAt h => by
      rw [hl kind] at h
      cases h)
    (writesOnly_of_forall (fun _ _ => rfl) p).relabel

theorem issue_follows {α : Type} {time : Time} {hashed : Except HostError String}
    {l : String → PinStatement c} {a : α} (hl : ∀ pinHash kind expiresAt,
      (l pinHash).issues? kind = some expiresAt → expiresAt = time+minutes pinLifetimeMinutes) :
    (pinProtocol c ι).Follows i (fun _ _ => True)
      (ofExcept hashed >>= fun pinHash => execute (l pinHash) >>= fun _ => .ret a)
      (fun w => time ≤ w.state.clock) := by
  have htrue : (pinProtocol c ι).Stable i (fun _ => True) := stable_const _ i True
  refine Follows.bind (Follows.readOnly (stable_clock i time) (readOnly_ofExcept _))
    fun pinHash => ?_
  refine Follows.bind (Follows.execute (stable_clock i time) htrue fun w w' _ htime _ _ =>
    ⟨fun kind expiresAt h => ?_, trivial⟩) fun _ => Follows.ret htrue fun _ _ => trivial
  rw [hl pinHash kind expiresAt h]
  exact Int.add_le_add_right htime _

theorem handlePins_follows (call : PinCall c) :
    (pinProtocol c ι).Follows i (fun _ _ => True) (handlePins c call) (fun _ => True) := by
  have htrue : (pinProtocol c ι).Stable i (fun _ => True) := stable_const _ i True
  have hdone : ∀ {α : Type} {f : α → PinReply} {p : PinProgram c α},
      (pinProtocol c ι).Follows i (fun _ _ => True) p (fun _ => True) →
      (pinProtocol c ι).Follows i (fun _ _ => True) (p >>= fun a => .ret (f a)) (fun _ => True) :=
    fun hp => Follows.bind hp fun _ => Follows.ret htrue fun _ _ => trivial
  have hclock : ∀ {α : Type} {f : Time → PinProgram c α},
      (∀ time, (pinProtocol c ι).Follows i (fun _ _ => True) (f time)
        (fun w => time ≤ w.state.clock)) →
      (pinProtocol c ι).Follows i (fun _ _ => True) (query (fun s => s.clock) >>= f)
        (fun _ => True) := fun hf =>
    Follows.bind (Q := fun time w => time ≤ w.state.clock) ⟨htrue, fun w _ _ =>
      ⟨fun w' => w.state.clock ≤ w'.state.clock, Int.le_refl _, stable_clock i _, fun _ h => h⟩⟩ hf
  obtain ⟨random, request⟩ := call
  cases request with
  | account request => exact hdone (account_follows i _)
  | prepareBootstrap =>
    refine hdone (Follows.bind (Follows.readOnly htrue (readOnly_query _)) fun active => ?_)
    cases active with
    | true =>
      refine Follows.bind (Q := fun _ _ => True) ?_ fun _ => Follows.ret htrue fun _ _ => trivial
      exact Follows.execute htrue htrue fun w w' _ _ _ _ =>
        ⟨fun kind expiresAt h => (by cases h), trivial⟩
    | false =>
      refine hclock fun time => issue_follows i fun pinHash kind expiresAt h => ?_
      simp only [PinStatement.issues?] at h
      split at h
      · exact (Option.some.inj h).symm
      · cases h
  | invite token =>
    refine Follows.bind (account_follows i _) fun caller => ?_
    refine hdone (Follows.bind (Follows.readOnly htrue (readOnly_require _ _)) fun _ => ?_)
    refine hclock fun time => issue_follows i fun pinHash kind expiresAt h => ?_
    simp only [PinStatement.issues?] at h
    split at h
    · exact (Option.some.inj h).symm
    · cases h

end Requests

/-- `bootstrap` or `register_teacher`. -/
def PinRequest.isGuess : PinRequest c → Bool
  | .account (.bootstrap _) => true
  | .account (.registerTeacher _) => true
  | _ => false

/-- The program has no statement but one, and its answer is that of the
transaction. -/
def AnswersGuess : PinProgram c PinReply → Prop
  | .ret _ => True
  | .fail _ => True
  | .read _ => False
  | .write l k => ∀ s, ((∀ kind, l.admits kind s = false) ∧ ∃ e, k s = .fail e) ∨
      (l.refuses s = false ∧ ∃ a, k s = .ret a)

theorem answersGuess_advance (i : ι) (w : PinWorld c ι) {p : PinProgram c PinReply}
    (hp : AnswersGuess p) : AnswersGuess (p.advance i w).2 := by
  cases p with
  | ret a => trivial
  | fail e => trivial
  | read k => exact hp.elim
  | write l k =>
    cases hr : (Engine.run l w.state : Except HostError AuthState) with
    | error e =>
      rw [Program.advance, hr]
      trivial
    | ok s =>
      rw [Program.advance, hr]
      rcases hp w.state with ⟨-, e, he⟩ | ⟨-, a, ha⟩
      · rw [he]
        trivial
      · rw [ha]
        trivial

theorem answersGuess_of_outcome {l : AccountStatement c}
    {q : AuthState → Except HostError BootstrapTeacherResponse}
    (hok : ∀ s a, q s = .ok a → (PinStatement.account l).refuses s = false)
    (herror : ∀ s e, q s = .error e → ∀ kind, (PinStatement.account l).admits kind s = false) :
    AnswersGuess ((replying .recovered (executeReturning l q >>= ofExcept) :
      AccountProgram c AccountReply).relabel .account >>= fun reply => .ret (.account reply)) := by
  intro s
  show (_ ∧ ∃ e, ((ofExcept (q s) >>= fun a => .ret (.recovered a) :
    AccountProgram c AccountReply).relabel .account >>= fun reply => .ret (.account reply) :
      PinProgram c PinReply) = .fail e) ∨ (_ ∧ ∃ a, ((ofExcept (q s) >>= fun a => .ret (.recovered a) :
    AccountProgram c AccountReply).relabel .account >>= fun reply => .ret (.account reply) :
      PinProgram c PinReply) = .ret a)
  cases hout : q s with
  | error e => exact .inl ⟨herror s e hout, e, rfl⟩
  | ok a => exact .inr ⟨hok s a hout, _, rfl⟩

theorem handlePins_answersGuess (call : PinCall c) (h : call.request.isGuess = true) :
    AnswersGuess (handlePins c call) := by
  obtain ⟨random, request⟩ := call
  cases request with
  | prepareBootstrap | invite => cases h
  | account request =>
    cases request with
    | bootstrap req =>
      refine answersGuess_of_outcome (fun s a hout => ?_) fun s e hout kind => ?_
      · rcases htx : bootstrapTx c random req s with e | ⟨e | reply, s'⟩
        · rw [PinStatement.refuses, htx]
        · rw [htx] at hout
          cases hout
        · rw [PinStatement.refuses, htx]
      · rcases htx : bootstrapTx c random req s with e | ⟨e | reply, s'⟩
        · cases kind <;> simp [PinStatement.admits, htx]
        · cases kind <;> simp [PinStatement.admits, htx]
        · rw [htx] at hout
          cases hout
    | registerTeacher req =>
      by_cases hlen : 8 ≤ req.password.utf8ByteSize
      swap
      · have hshort : handlePins c ⟨random, .account (.registerTeacher req)⟩ =
            .fail (.badRequest "Use at least 8 characters for the password.") := by
          simp [handlePins, handle, replying, registerTeacher, require, hlen, relabel]
        rw [hshort]
        trivial
      have hlong : handlePins c ⟨random, .account (.registerTeacher req)⟩ =
          ((replying .recovered (executeReturning (.registerTeacher random req)
            (fun s => (registerTeacherTx c random req s).bind Prod.fst) >>= ofExcept) :
              AccountProgram c AccountReply).relabel .account >>=
                fun reply => .ret (.account reply)) := by
        simp [handlePins, handle, replying, registerTeacher, require, hlen]
      rw [hlong]
      refine answersGuess_of_outcome (fun s a hout => ?_) fun s e hout kind => ?_
      · rcases htx : registerTeacherTx c random req s with e | ⟨e | reply, s'⟩
        · rw [PinStatement.refuses, htx]
        · rw [htx] at hout
          cases hout
        · rw [PinStatement.refuses, htx]
      · rcases htx : registerTeacherTx c random req s with e | ⟨e | reply, s'⟩
        · cases kind <;> simp [PinStatement.admits, htx]
        · cases kind <;> simp [PinStatement.admits, htx]
        · rw [htx] at hout
          cases hout
    | _ => cases h

variable [DecidableEq ι]

/-- A wrong guess that a process is about to have compared stays in the history,
and its request is answered with an error. -/
def CommitsWrongGuesses (pool : PinPool c ι) : Prop :=
  ∀ kind i call l k, pool.procs i = some (call, .write l k) →
    l.comparesWrong kind pool.world.state = true →
    (pool.move (handlePins c) (.advance i)).world.history =
        ⟨i, l, pool.world.state⟩ :: pool.world.history ∧
      (call.request.isGuess = true →
        ∃ e, (pool.move (handlePins c) (.advance i)).procs i = some (call, .fail e))

theorem commitsWrongGuesses (pool : PinPool c ι)
    (h : ∀ i call p, pool.procs i = some (call, p) → call.request.isGuess = true →
      AnswersGuess p) : CommitsWrongGuesses pool := by
  intro kind i call l k hp hwrong
  obtain ⟨hrefuses, row, -, hrun⟩ := run_of_fails (PinStatement.fails_of_comparesWrong hwrong)
  have hengine : (Engine.run l pool.world.state : Except HostError AuthState) = _ := hrun
  refine ⟨by simp [Pool.move, hp, Program.advance, hengine], fun hguess => ?_⟩
  rcases h i call _ hp hguess pool.world.state with ⟨-, e, he⟩ | ⟨hok, -⟩
  · exact ⟨e, by simp [Pool.move, hp, Program.advance, hengine, he]⟩
  · rw [hrefuses] at hok
    cases hok

/-- In every run, at most fifteen wrong guesses are compared with the hash of a
PIN, none after it expires and none while it is blocked, and every one stays
counted. -/
theorem pin_guesses_are_bounded (s : AuthState) (ms : List (Move ι (PinCall c))) :
    let pool := (Pool.idle s : PinPool c ι).run (handlePins c) ms
    (∀ kind expiresAt newer later, IssuedBefore kind expiresAt newer later pool.world.history →
      GuessesBounded kind expiresAt later ∧
        (newer = [] → ∀ row, pinOf kind pool.world.state.db = some row →
          row.failedAttempts = ((failures kind later % 5 : Nat) : Int))) ∧
      CommitsWrongGuesses pool := by
  have hidle : (pinProtocol c ι).inv ⟨s, []⟩ := by
    rintro kind expiresAt newer later ⟨issue, older, hhistory, -⟩
    cases newer <;> cases later <;> cases hhistory
  have hguarded : (Pool.idle s : PinPool c ι).Guarded (handlePins c) (fun _ => True)
      (pinProtocol c ι).guard ms :=
    Pool.guarded_of_forall (fun _ => trivial) (fun _ _ _ => trivial) _ ms
  have hrun := running_run (fun i call _ => handlePins_follows i call) (running_idle hidle) hguarded
  refine ⟨fun kind expiresAt newer later hissued => ?_, ?_⟩
  · obtain ⟨hbounded, -, hrow⟩ := hrun.1 kind expiresAt newer later hissued
    exact ⟨hbounded, fun hnil row hpin => (hrow hnil row hpin).attempts⟩
  · have hprocs := Pool.procs_run (P := fun (call : PinCall c) p =>
      call.request.isGuess = true → AnswersGuess p) handlePins_answersGuess
      (fun call p i w hp hguess => answersGuess_advance i w (hp hguess))
      (Pool.idle s : PinPool c ι) (fun i call p hp => by cases hp) ms
    exact commitsWrongGuesses _ hprocs

end Cinder.Accounts
