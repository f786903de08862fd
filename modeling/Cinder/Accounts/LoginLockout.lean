import Cinder.Accounts.AccountHandlers
set_option autoImplicit false

/-!
Whether an account locks after five wrong passwords. `login` reads the count,
verifies the password, and then writes the count it read plus one.
-/

namespace Cinder.Accounts
open Cinder.Host Cinder.Storage Cinder.Programs Cinder.Programs.Program
open Cinder.Programs.Protocol

variable {c : Crypto} {ι : Type}

namespace AccountStatement

def comparesWrong (u : Uuid) : AccountStatement c → Bool
  | .compare id _ _ correct => id = u && !correct
  | _ => false

def resetsCount (u : Uuid) : AccountStatement c → Bool
  | .blockLogin id _ => id = u
  | .recordSuccess id => id = u
  | _ => false

def recordsWrong (u : Uuid) : AccountStatement c → Bool
  | .recordFailure id _ => id = u
  | .blockLogin id _ => id = u
  | _ => false

end AccountStatement

/-- The wrong passwords compared since the latest reset of the count. -/
def wrongSinceReset (u : Uuid) : AccountHistory c ι → Nat
  | [] => 0
  | e :: history =>
    if e.label.resetsCount u then 0
    else wrongSinceReset u history + if e.label.comparesWrong u then 1 else 0

def Unrecorded (i : ι) (u : Uuid) : AccountHistory c ι → Prop
  | [] => False
  | e :: history => (e.proc = i ∧ e.label.comparesWrong u = true) ∨
      (¬(e.proc = i ∧ e.label.recordsWrong u = true) ∧ Unrecorded i u history)

instance decidableUnrecorded [DecidableEq ι] (i : ι) (u : Uuid) :
    (history : AccountHistory c ι) → Decidable (Unrecorded i u history)
  | [] => .isFalse fun h => h
  | _ :: history =>
    have := decidableUnrecorded i u history
    inferInstanceAs (Decidable (_ ∨ _))

/-- At most five wrong passwords are compared between two resets, and none while
the account is blocked. -/
structure LockoutHolds (w : AccountWorld c ι) : Prop where
  bound : ∀ u ∈ w.state.db.users.rows, wrongSinceReset u.id w.history ≤ 5
  unblocked : ∀ e ∈ w.history, ∀ id attempts blockedUntil correct,
    e.label = .compare id attempts blockedUntil correct →
    ∀ u ∈ e.before.db.users.rows, u.id = id → ∀ t ∈ u.loginBlockedUntil, t ≤ e.before.clock

/-- A password is compared while the count and the block of the account are as
its request read them, and every wrong password compared before is recorded. -/
def ComparesFresh (l : AccountStatement c) (w : AccountWorld c ι) : Prop :=
  match l with
  | .compare id attempts blockedUntil _ =>
    (∀ u ∈ w.state.db.users.rows, u.id = id →
      u.failedLoginAttempts = attempts ∧ u.loginBlockedUntil = blockedUntil) ∧
    ∀ e ∈ w.history, ¬Unrecorded e.proc id w.history
  | _ => True

instance [DecidableEq ι] (l : AccountStatement c) (w : AccountWorld c ι) :
    Decidable (ComparesFresh l w) := by
  cases l <;> unfold ComparesFresh <;> infer_instance

theorem unrecorded_mem {i : ι} {u : Uuid} {history : AccountHistory c ι}
    (h : Unrecorded i u history) : ∃ e ∈ history, e.proc = i := by
  induction history with
  | nil => exact h.elim
  | cons e history ih =>
    rcases h with ⟨hp, -⟩ | ⟨-, h⟩
    · exact ⟨e, List.mem_cons_self, hp⟩
    · obtain ⟨e', he', hp⟩ := ih h
      exact ⟨e', List.mem_cons_of_mem _ he', hp⟩

/-- The account has the count `attempts`, which the process read before its
wrong comparison, the only one that is not recorded. -/
structure Awaiting (i : ι) (id : Uuid) (attempts : Int) (w : AccountWorld c ι) : Prop where
  mine : Unrecorded i id w.history
  only : ∀ j, Unrecorded j id w.history → j = i
  count : (wrongSinceReset id w.history : Int) ≤ attempts+1
  least : 0 ≤ attempts
  most : attempts ≤ 4

/-- The statements of `login`, with what their process knows of the account. -/
def LoginWrites (i : ι) (l : AccountStatement c) (w : AccountWorld c ι) : Prop :=
  match l with
  | .compare _ _ blockedUntil _ => ∀ t ∈ blockedUntil, t ≤ w.state.clock
  | .recordFailure id attempts => attempts ≤ 4 ∧ Awaiting i id (attempts-1) w
  | .blockLogin id _ => ∃ attempts, Awaiting i id attempts w
  | .recordSuccess _ | .insertSession _ _ | .deleteExpired _ | .tick _ => True
  | _ => False

structure CountsWrong (w : AccountWorld c ι) : Prop where
  range : ∀ u ∈ w.state.db.users.rows, 0 ≤ u.failedLoginAttempts ∧ u.failedLoginAttempts ≤ 4
  counted : ∀ u ∈ w.state.db.users.rows, (∀ i, ¬Unrecorded i u.id w.history) →
    (wrongSinceReset u.id w.history : Int) ≤ u.failedLoginAttempts
  lockout : LockoutHolds w

section Steps
variable {i : ι} {l : AccountStatement c} {w w' : AccountWorld c ι} {id : Uuid}

def AccountStatement.counted? : AccountStatement c → Option Uuid
  | .compare id _ _ _ => some id
  | .recordFailure id _ => some id
  | .blockLogin id _ => some id
  | .recordSuccess id => some id
  | _ => none

theorem quiet_step (hw : World.Wrote i l w w') (id : Uuid) (hq : l.counted? ≠ some id) :
    wrongSinceReset id w'.history = wrongSinceReset id w.history ∧
      ∀ j, Unrecorded j id w'.history ↔ Unrecorded j id w.history := by
  have hne : ∀ id', l.counted? = some id' → id' ≠ id := fun id' hl hid => hq (hid ▸ hl)
  have hquiet : l.resetsCount id = false ∧ l.comparesWrong id = false ∧
      l.recordsWrong id = false := by
    cases l with
    | compare id' attempts blockedUntil correct =>
      simp [AccountStatement.resetsCount, AccountStatement.comparesWrong,
        AccountStatement.recordsWrong, hne id' rfl]
    | recordFailure id' attempts =>
      simp [AccountStatement.resetsCount, AccountStatement.comparesWrong,
        AccountStatement.recordsWrong, hne id' rfl]
    | blockLogin id' blockedUntil =>
      simp [AccountStatement.resetsCount, AccountStatement.comparesWrong,
        AccountStatement.recordsWrong, hne id' rfl]
    | recordSuccess id' =>
      simp [AccountStatement.resetsCount, AccountStatement.comparesWrong,
        AccountStatement.recordsWrong, hne id' rfl]
    | _ => exact ⟨rfl, rfl, rfl⟩
  obtain ⟨hreset, hcompare, hrecord⟩ := hquiet
  rw [hw.2]
  constructor
  · simp [wrongSinceReset, hreset, hcompare]
  · intro j
    simp [Unrecorded, hcompare, hrecord]

theorem reset_step (hw : World.Wrote i l w w') (id : Uuid) (hreset : l.resetsCount id = true) :
    wrongSinceReset id w'.history = 0 := by
  rw [hw.2]
  simp [wrongSinceReset, hreset]

theorem unblocked_step (hlock : LockoutHolds w) (hw : World.Wrote i l w w')
    (hcompare : ∀ id a b ok, l ≠ .compare id a b ok) : ∀ e ∈ w'.history, ∀ id attempts
      blockedUntil correct, e.label = .compare id attempts blockedUntil correct →
      ∀ u ∈ e.before.db.users.rows, u.id = id → ∀ t ∈ u.loginBlockedUntil, t ≤ e.before.clock := by
  rw [hw.2]
  intro e he id a b ok hlabel
  rcases List.mem_cons.mp he with rfl | he
  · exact absurd hlabel (hcompare id a b ok)
  · exact hlock.unblocked e he id a b ok hlabel

theorem run_updateUser {f : UserRow → UserRow} {hf : Table.KeepsKeys f}
    (h : (.ok (w.state.updateUser id f hf) : Except HostError AuthState) = .ok w'.state)
    {u' : UserRow} (hu' : u' ∈ w'.state.db.users.rows) :
    ∃ u ∈ w.state.db.users.rows, u' = if u.id = id then f u else u := by
  have hmem : u' ∈ (w.state.db.users.update (fun u => u.id = id) f hf).rows := by
    rwa [← Except.ok.inj h] at hu'
  obtain ⟨u, hu, rfl⟩ := Table.mem_update.mp hmem
  exact ⟨u, hu, by simp⟩

theorem counts_quiet (hinv : CountsWrong w) (hw : World.Wrote i l w w') (hq : l.counted? = none)
    (husers : w'.state.db.users = w.state.db.users) : CountsWrong w' := by
  have hquiet := fun id => quiet_step hw id (by rw [hq]; simp)
  refine ⟨?_, fun u hu hnone => ?_, ⟨fun u hu => ?_, ?_⟩⟩
  · rw [husers]
    exact hinv.range
  · rw [husers] at hu
    obtain ⟨hwrong, hunrec⟩ := hquiet u.id
    rw [hwrong]
    exact hinv.counted u hu fun j hj => hnone j ((hunrec j).mpr hj)
  · rw [husers] at hu
    rw [(hquiet u.id).1]
    exact hinv.lockout.bound u hu
  · exact unblocked_step hinv.lockout hw fun id a b ok he => by
      rw [he] at hq
      cases hq

theorem counts_update {f : UserRow → UserRow} (hinv : CountsWrong w)
    (hw : World.Wrote i l w w') (hq : l.counted? = some id)
    (hcompare : ∀ id a b ok, l ≠ .compare id a b ok)
    (hrows : ∀ u' ∈ w'.state.db.users.rows,
      ∃ u ∈ w.state.db.users.rows, u' = if u.id = id then f u else u)
    (hid : ∀ u, (f u).id = u.id)
    (hrange : ∀ u, 0 ≤ (f u).failedLoginAttempts ∧ (f u).failedLoginAttempts ≤ 4)
    (hcount : ∀ u, (wrongSinceReset id w'.history : Int) ≤ (f u).failedLoginAttempts) :
    CountsWrong w' := by
  have hquiet := fun other (hne : other ≠ id) => quiet_step hw other (by
    rw [hq]
    exact fun he => hne (Option.some.inj he).symm)
  refine ⟨fun u' hu' => ?_, fun u' hu' hnone => ?_, ⟨fun u' hu' => ?_, ?_⟩⟩
  · obtain ⟨u, hu, rfl⟩ := hrows u' hu'
    split
    · exact hrange u
    · exact hinv.range u hu
  · obtain ⟨u, hu, rfl⟩ := hrows u' hu'
    by_cases hu'id : u.id = id
    · rw [if_pos hu'id, hid, hu'id]
      exact hcount u
    · simp only [if_neg hu'id] at hnone ⊢
      obtain ⟨hwrong, hunrec⟩ := hquiet u.id hu'id
      rw [hwrong]
      exact hinv.counted u hu fun j hj => hnone j ((hunrec j).mpr hj)
  · obtain ⟨u, hu, rfl⟩ := hrows u' hu'
    by_cases hu'id : u.id = id
    · rw [if_pos hu'id, hid, hu'id]
      have hle := hcount u
      have hmost := (hrange u).2
      omega
    · rw [if_neg hu'id, (hquiet u.id hu'id).1]
      exact hinv.lockout.bound u hu
  · exact unblocked_step hinv.lockout hw hcompare

theorem counts_reset {blockedUntil : Option Time} (hinv : CountsWrong w)
    (hw : World.Wrote i l w w') (hq : l.counted? = some id) (hreset : l.resetsCount id = true)
    (hrun : (.ok (w.state.updateUser id (setAttempts 0 blockedUntil) (setAttempts_keeps 0 _)) :
      Except HostError AuthState) = .ok w'.state) : CountsWrong w' := by
  have hwrong := reset_step hw id hreset
  refine counts_update (f := setAttempts 0 blockedUntil) hinv hw hq (fun id a b ok he => ?_)
    (fun u' hu' => run_updateUser hrun hu') (fun _ => rfl) (fun _ => by simp [setAttempts])
    fun _ => by simp [hwrong, setAttempts]
  rw [he] at hreset
  cases hreset

theorem counts_compare {attempts : Int} {blockedUntil : Option Time} {correct : Bool}
    (hinv : CountsWrong w)
    (hw : World.Wrote i (.compare id attempts blockedUntil correct) w w')
    (hfresh : ComparesFresh (.compare id attempts blockedUntil correct) w)
    (hblocked : ∀ t ∈ blockedUntil, t ≤ w.state.clock) : CountsWrong w' := by
  obtain ⟨hread, hrecorded⟩ := hfresh
  have hstate : w'.state = w.state := (Except.ok.inj hw.1).symm
  have hnone : ∀ j, ¬Unrecorded j id w.history := fun j hj => by
    obtain ⟨e, he, rfl⟩ := unrecorded_mem hj
    exact hrecorded e he hj
  refine ⟨?_, fun u hu hall => ?_, ⟨fun u hu => ?_, ?_⟩⟩
  · rw [hstate]
    exact hinv.range
  · rw [hstate] at hu
    rw [hw.2] at hall ⊢
    by_cases hwrong : id = u.id ∧ correct = false
    · exact absurd (.inl ⟨rfl, by simp [AccountStatement.comparesWrong, hwrong]⟩) (hall i)
    · have hquiet : AccountStatement.comparesWrong u.id
          (.compare id attempts blockedUntil correct : AccountStatement c) = false := by
        simpa [AccountStatement.comparesWrong] using hwrong
      have hle := hinv.counted u hu fun j hj => hall j (.inr ⟨by
        simp [AccountStatement.recordsWrong], hj⟩)
      simpa [wrongSinceReset, hquiet, AccountStatement.resetsCount] using hle
  · rw [hstate] at hu
    rw [hw.2]
    by_cases hid : id = u.id
    · have hle := hinv.counted u hu (hid ▸ hnone)
      have hmost := (hinv.range u hu).2
      have hstep : wrongSinceReset u.id (⟨i, .compare id attempts blockedUntil correct, w.state⟩ ::
          w.history) ≤ wrongSinceReset u.id w.history + 1 := by
        simp only [wrongSinceReset, AccountStatement.resetsCount, Bool.false_eq_true, if_false]
        split <;> simp
      omega
    · have hold := hinv.lockout.bound u hu
      simpa [wrongSinceReset, AccountStatement.resetsCount, AccountStatement.comparesWrong, hid]
        using hold
  · rw [hw.2]
    intro e he id' a b ok hlabel u hu hu'
    rcases List.mem_cons.mp he with rfl | he
    · cases hlabel
      rw [(hread u hu hu').2]
      exact hblocked
    · exact hinv.lockout.unblocked e he id' a b ok hlabel u hu hu'

theorem counts_step (hinv : CountsWrong w) (hg : ComparesFresh l w) (hl : LoginWrites i l w)
    (hw : World.Wrote i l w w') : CountsWrong w' := by
  cases l with
  | compare id attempts blockedUntil correct => exact counts_compare hinv hw hg hl
  | recordFailure id attempts =>
    obtain ⟨hmost, hawait⟩ := hl
    have hwrong : wrongSinceReset id w'.history = wrongSinceReset id w.history := by
      rw [hw.2]
      simp [wrongSinceReset, AccountStatement.resetsCount, AccountStatement.comparesWrong]
    have hcount := hawait.count
    have hleast := hawait.least
    refine counts_update (f := countFailure attempts) hinv hw rfl (fun _ _ _ _ => by simp)
      (fun u' hu' => run_updateUser hw.1 hu') (fun _ => rfl) (fun _ => ⟨?_, hmost⟩) fun _ => ?_
    · simp only [countFailure]
      omega
    · rw [hwrong]
      simp only [countFailure]
      omega
  | blockLogin id blockedUntil =>
    exact counts_reset hinv hw rfl (by simp [AccountStatement.resetsCount]) hw.1
  | recordSuccess id =>
    exact counts_reset hinv hw rfl (by simp [AccountStatement.resetsCount]) hw.1
  | insertSession row verified =>
    obtain ⟨sessions, -, hs⟩ := bind_eq_ok.mp hw.1
    refine counts_quiet hinv hw rfl ?_
    rw [← Except.ok.inj hs]
  | deleteExpired time =>
    refine counts_quiet hinv hw rfl ?_
    rw [← Except.ok.inj hw.1]
    rfl
  | tick elapsed =>
    refine counts_quiet hinv hw rfl ?_
    rw [← Except.ok.inj hw.1]
  | deleteSession | setPassword | deleteOtherSessions | recover | resetStudent | bootstrap
  | registerTeacher => exact hl.elim

end Steps

def loginProtocol (c : Crypto) (ι : Type) : Protocol ι AuthState (AccountStatement c) where
  inv := CountsWrong
  guard _ l w := ComparesFresh l w
  promise := LoginWrites
  inv_step _ _ _ _ := counts_step

section Login
variable (i : ι)

def ReadAt (id : Uuid) (time : Time) (w : AccountWorld c ι) : Prop :=
  (∃ u ∈ w.state.db.users.rows, u.id = id) ∧ time ≤ w.state.clock

theorem users_step {j : ι} {l : AccountStatement c} {w w' : AccountWorld c ι}
    (hl : LoginWrites j l w) (hw : World.Wrote j l w w') {u : UserRow}
    (hu : u ∈ w.state.db.users.rows) : ∃ u' ∈ w'.state.db.users.rows, u'.id = u.id := by
  have hupdate : ∀ (id : Uuid) (f : UserRow → UserRow) (hf : Table.KeepsKeys f),
      (∀ u, (f u).id = u.id) →
      (.ok (w.state.updateUser id f hf) : Except HostError AuthState) = .ok w'.state →
      ∃ u' ∈ w'.state.db.users.rows, u'.id = u.id := fun id f hf hid hs => by
    have hmem : (if u.id = id then f u else u) ∈
        (w.state.db.users.update (fun u => u.id = id) f hf).rows :=
      Table.mem_update.mpr ⟨u, hu, by simp⟩
    rw [← Except.ok.inj hs]
    refine ⟨_, hmem, ?_⟩
    split
    · exact hid u
    · rfl
  cases l with
  | recordFailure id attempts =>
    exact hupdate id (countFailure attempts) _ (fun _ => rfl) hw.1
  | blockLogin id blockedUntil =>
    exact hupdate id (setAttempts 0 (some blockedUntil)) _ (fun _ => rfl) hw.1
  | recordSuccess id => exact hupdate id (setAttempts 0 none) _ (fun _ => rfl) hw.1
  | insertSession row verified =>
    obtain ⟨sessions, -, hs⟩ := bind_eq_ok.mp hw.1
    rw [← Except.ok.inj hs]
    exact ⟨u, hu, rfl⟩
  | compare | deleteExpired | tick =>
    rw [← Except.ok.inj hw.1]
    exact ⟨u, hu, rfl⟩
  | deleteSession | setPassword | deleteOtherSessions | recover | resetStudent | bootstrap
  | registerTeacher => exact hl.elim

theorem clock_step {j : ι} {l : AccountStatement c} {w w' : AccountWorld c ι}
    (hl : LoginWrites j l w) (hw : World.Wrote j l w w') : w.state.clock ≤ w'.state.clock := by
  cases l with
  | tick elapsed =>
    rw [← Except.ok.inj hw.1]
    exact Int.le_add_of_nonneg_right (Int.natCast_nonneg elapsed)
  | insertSession row verified =>
    obtain ⟨sessions, -, hs⟩ := bind_eq_ok.mp hw.1
    have hclock := congrArg AuthState.clock (Except.ok.inj hs)
    exact Int.le_of_eq hclock
  | compare | recordFailure | blockLogin | recordSuccess | deleteExpired =>
    have hclock := congrArg AuthState.clock (Except.ok.inj hw.1)
    exact Int.le_of_eq hclock
  | deleteSession | setPassword | deleteOtherSessions | recover | resetStudent | bootstrap
  | registerTeacher => exact hl.elim

theorem stable_readAt (id : Uuid) (time : Time) :
    (loginProtocol c ι).Stable i (ReadAt id time) := by
  rintro j l w w' - ⟨⟨u, hu, rfl⟩, htime⟩ - - hl hw
  exact ⟨users_step hl hw hu, Int.le_trans htime (clock_step hl hw)⟩

/-- A request that has still to record its wrong password keeps every other one
from comparing. -/
theorem stable_awaiting (id : Uuid) (attempts : Int) :
    (loginProtocol c ι).Stable i (Awaiting i id attempts) := by
  rintro j l w w' hj ha - hg hl hw
  by_cases hq : l.counted? = some id
  swap
  · obtain ⟨hwrong, hunrec⟩ := quiet_step hw id hq
    exact ⟨(hunrec i).mpr ha.mine, fun k hk => ha.only k ((hunrec k).mp hk), hwrong ▸ ha.count,
      ha.least, ha.most⟩
  cases l with
  | compare id' read blockedUntil correct =>
    cases hq
    obtain ⟨e, he, rfl⟩ := unrecorded_mem ha.mine
    exact absurd ha.mine (hg.2 e he)
  | recordFailure id' read =>
    cases hq
    exact absurd (ha.only j hl.2.mine) hj
  | blockLogin id' blockedUntil =>
    cases hq
    obtain ⟨read, hother⟩ := hl
    exact absurd (ha.only j hother.mine) hj
  | recordSuccess id' =>
    -- another process's success resets the count, and the comparison stays to be recorded
    cases hq
    have hwrong := reset_step hw id (by simp [AccountStatement.resetsCount])
    have hunrec : ∀ k, Unrecorded k id w'.history ↔ Unrecorded k id w.history := fun k => by
      rw [hw.2]
      simp [Unrecorded, AccountStatement.comparesWrong, AccountStatement.recordsWrong]
    have hleast := ha.least
    exact ⟨(hunrec i).mpr ha.mine, fun k hk => ha.only k ((hunrec k).mp hk),
      by rw [hwrong]; omega, hleast, ha.most⟩
  | insertSession | deleteExpired | tick | deleteSession | setPassword | deleteOtherSessions
  | recover | resetStudent | bootstrap | registerTeacher => cases hq

theorem awaiting_compare {i : ι} {id : Uuid} {attempts : Int} {blockedUntil : Option Time}
    {w w' : AccountWorld c ι} (hinv : CountsWrong w)
    (hknown : ∃ u ∈ w.state.db.users.rows, u.id = id)
    (hw : World.Wrote i (.compare id attempts blockedUntil false) w w')
    (hfresh : ComparesFresh (.compare id attempts blockedUntil false) w) :
    Awaiting i id attempts w' := by
  obtain ⟨hread, hrecorded⟩ := hfresh
  obtain ⟨u, hu, rfl⟩ := hknown
  have hnone : ∀ j, ¬Unrecorded j u.id w.history := fun j hj => by
    obtain ⟨e, he, rfl⟩ := unrecorded_mem hj
    exact hrecorded e he hj
  have hattempts := (hread u hu rfl).1
  obtain ⟨hleast, hmost⟩ := hinv.range u hu
  have hcounted := hinv.counted u hu hnone
  rw [← hattempts]
  refine ⟨?_, fun j hj => ?_, ?_, hleast, hmost⟩
  · rw [hw.2]
    exact .inl ⟨rfl, by simp [AccountStatement.comparesWrong]⟩
  · rw [hw.2] at hj
    rcases hj with ⟨hij, -⟩ | ⟨-, hj⟩
    · exact hij.symm
    · exact absurd hj (hnone j)
  · rw [hw.2]
    simp [wrongSinceReset, AccountStatement.resetsCount, AccountStatement.comparesWrong]
    omega

theorem refuseLogin_follows {α : Type} (u : UserRow) (time : Time) :
    (loginProtocol c ι).Follows i (fun _ _ => True) (refuseLogin c u time : AccountProgram c α)
      (Awaiting i u.id u.failedLoginAttempts) := by
  have htrue : (loginProtocol c ι).Stable i (fun _ => True) := stable_const _ i True
  have hawait := stable_awaiting (c := c) i u.id u.failedLoginAttempts
  unfold refuseLogin
  split
  · refine Follows.bind (Follows.execute hawait htrue fun w w' _ ha _ _ => ?_)
      fun _ => Follows.fail htrue
    exact ⟨⟨_, ha⟩, trivial⟩
  · next hfew =>
    refine Follows.bind (Follows.execute hawait htrue fun w w' _ ha _ _ => ?_)
      fun _ => Follows.fail htrue
    refine ⟨⟨by omega, ?_⟩, trivial⟩
    rwa [Int.add_sub_cancel]

theorem login_follows (random : Random) (req : AppLoginRequest) :
    (loginProtocol c ι).Follows i (fun _ _ => True) (login c random req) (fun _ => True) := by
  have htrue : (loginProtocol c ι).Stable i (fun _ => True) := stable_const _ i True
  refine Follows.bind (Follows.readOnly htrue (readOnly_require _ _)) fun _ => ?_
  have hread : ∀ u : UserRow, (loginProtocol c ι).Stable i
      (fun w => ∃ v ∈ w.state.db.users.rows, v.id = u.id) := fun u j l w w' _ hknown _ _ hl hw => by
    obtain ⟨v, hv, hid⟩ := hknown
    exact hid ▸ users_step hl hw hv
  refine Follows.bind (Q := fun u w => ∃ v ∈ w.state.db.users.rows, v.id = u.id)
    (Follows.queryRow htrue hread fun w u _ _ hu => ⟨u, (Table.mem_of_find? hu).1, rfl⟩)
    fun u => ?_
  refine Follows.bind (Q := ReadAt u.id) ⟨hread u, fun w _ hknown =>
    ⟨ReadAt u.id w.state.clock, ⟨hknown, Int.le_refl _⟩, stable_readAt i _ _, fun _ h => h⟩⟩
    fun time => ?_
  by_cases hblocked : ∀ t ∈ u.loginBlockedUntil, t ≤ time
  swap
  · rw [require, if_neg hblocked]
    exact Follows.fail (stable_readAt i _ _)
  rw [require, if_pos hblocked, ret_bind]
  refine Follows.bind (Follows.readOnly (stable_readAt i _ _) (readOnly_require _ _)) fun _ => ?_
  dsimp only
  cases hcorrect : verifyPassword c u.pwHash req.password with
  | true =>
    refine Follows.bind (Follows.execute (stable_readAt i _ _) htrue fun w w' _ hP _ _ =>
      ⟨fun t ht => Int.le_trans (hblocked t ht) hP.2, trivial⟩) fun _ => ?_
    exact Follows.of_writesOnly (c := fun l => ∀ w, LoginWrites i l w) (fun l w hl => hl w)
      (openSession_writes random req u time (fun _ => trivial) (fun _ _ _ => trivial)
        fun _ => trivial)
  | false =>
    refine Follows.bind (Follows.execute (stable_readAt i _ _) (stable_awaiting i u.id _)
      fun w w' hinv hP hw hg => ⟨fun t ht => Int.le_trans (hblocked t ht) hP.2,
        awaiting_compare hinv hP.1 hw hg⟩) fun _ => ?_
    exact refuseLogin_follows i u time

end Login

def AccountRequest.isLogin : AccountRequest c → Bool
  | .login _ => true
  | .tick _ => true
  | _ => false

theorem handle_login_follows (i : ι) (call : AccountCall c)
    (h : call.request.isLogin = true) :
    (loginProtocol c ι).Follows i (fun _ _ => True) (handle c call) (fun _ => True) := by
  have htrue : (loginProtocol c ι).Stable i (fun _ => True) := stable_const _ i True
  obtain ⟨random, request⟩ := call
  cases request with
  | login req =>
    exact Follows.bind (login_follows i random req) fun _ => Follows.ret htrue fun _ _ => trivial
  | tick elapsed =>
    refine Follows.bind (Q := fun _ _ => True) ?_ fun _ => Follows.ret htrue fun _ _ => trivial
    exact Follows.execute htrue htrue fun _ _ _ _ _ _ => ⟨trivial, trivial⟩
  | recoverTeacher | recoverStudent | bootstrap | registerTeacher | changePassword | resetStudent
  | authenticated => cases h

variable [DecidableEq ι]

/-- In a run whose comparisons are fresh, an account locks after five wrong
passwords. -/
theorem login_locks_out (s : AuthState)
    (hs : ∀ u ∈ s.db.users.rows, 0 ≤ u.failedLoginAttempts ∧ u.failedLoginAttempts ≤ 4)
    (ms : List (Move ι (AccountCall c)))
    (h : (Pool.idle s : AccountPool c ι).Guarded (handle c)
      (fun call => call.request.isLogin = true) (fun _ l w => ComparesFresh l w) ms) :
    LockoutHolds ((Pool.idle s : AccountPool c ι).run (handle c) ms).world := by
  have hidle : (loginProtocol c ι).inv ⟨s, []⟩ :=
    ⟨hs, fun u hu _ => (hs u hu).1, fun _ _ => Nat.zero_le _, fun e he => by cases he⟩
  exact (running_run handle_login_follows (running_idle hidle) h).1.lockout

def guessRun : List (Move Nat (AccountCall sampleCrypto)) :=
  (List.range 6).flatMap fun i =>
    .start i ⟨sampleRandom i "guess", .login (sampleLogin "pear")⟩ ::
      List.replicate 4 (.advance i)

theorem login_locks_out_sample :
    let c := (Pool.idle sampleAccounts : AccountPool sampleCrypto Nat).run (handle _) guessRun
    c.world.history.length = 10 ∧ LockoutHolds c.world :=
  ⟨by decide +kernel, login_locks_out sampleAccounts (by decide +kernel) guessRun
    (by decide +kernel)⟩

def parallelGuesses : List (Move Nat (AccountCall sampleCrypto)) :=
  (List.range 6).map (fun i => .start i ⟨sampleRandom i "guess", .login (sampleLogin "pear")⟩) ++
    (List.range 6).flatMap fun i => List.replicate 3 (.advance i)

theorem parallel_guesses_not_locked_out :
    ¬LockoutHolds ((Pool.idle sampleAccounts : AccountPool sampleCrypto Nat).run (handle _)
      parallelGuesses).world := by
  intro h
  have hbound := h.bound
  revert hbound
  decide +kernel

end Cinder.Accounts
