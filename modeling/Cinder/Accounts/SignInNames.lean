import Cinder.Accounts.NamedAccounts
import Cinder.Programs.StepProgram
set_option autoImplicit false

/-!
Whether every account can sign in with its own username. The routes accept short ASCII
names only; the Host console accepts any name, and the database folds ASCII letters only.
-/

namespace Cinder.Accounts
open Cinder.Host Cinder.Storage Cinder.Programs Cinder.Programs.Program

def lowerChar (c : Char) : Char :=
  if 'A' ≤ c ∧ c ≤ 'Z' then Char.ofNat (c.toNat+32) else c

structure CaseFolding where
  fold : Char → Char
  ascii : ∀ c : Char, c.toNat < 128 → fold c = lowerChar c

def CaseFolding.folded (F : CaseFolding) (name : String) : List Char := name.toList.map F.fold

def IsAscii (name : String) : Prop := ∀ c ∈ name.toList, c.toNat < 128

theorem all_ascii_iff (name : String) :
    name.toList.all (fun c => decide (c.toNat < 128)) = true ↔ IsAscii name := by
  simp [IsAscii]

instance (name : String) : Decidable (IsAscii name) := decidable_of_iff _ (all_ascii_iff name)

theorem lower_of_folded (F : CaseFolding) {name name' : String} (h : IsAscii name)
    (h' : IsAscii name') (hfold : F.folded name = F.folded name') : lower name = lower name' := by
  have hlower : ∀ {n : String}, IsAscii n → F.folded n = (lower n).toList := fun {n} hn => by
    rw [lower, String.toList_ofList]
    exact List.map_congr_left fun c hc => F.ascii c (hn c hc)
  rw [← String.toList_inj, ← hlower h, ← hlower h', hfold]

section SignIn
variable (c : Crypto) (F : CaseFolding)

/-- A login with the account's own username, and with any password and device label that are
not too long, gets as far as the comparison of the password. -/
def ReachesPassword (s : AuthState) (u : UserRow) : Prop :=
  ∀ (random : Random) (password : String) (label : Option String),
    charCount password ≤ maxPasswordChars → (∀ l ∈ label, charCount l ≤ 120) →
      (login c random ⟨u.username, password, label, u.role⟩).Executes
        (fun l => ∃ attempts blockedUntil correct,
          l = .compare u.id attempts blockedUntil correct) s

structure EveryoneCanSignIn (s : AuthState) : Prop where
  distinct : ∀ u ∈ s.db.users.rows, ∀ v ∈ s.db.users.rows, u.id ≠ v.id →
    F.folded u.username ≠ F.folded v.username
  reached : ∀ u ∈ s.db.users.rows, u.disabledAt = none →
    (∀ t ∈ u.loginBlockedUntil, t ≤ s.clock) → ReachesPassword c s u

variable {c F} {s s' : AuthState} {u : UserRow}

/-- The username that the statement stores has at most 64 characters, and differs in more
than letter case from those of the other accounts, where one of the two is not ASCII. -/
def FairName (F : CaseFolding) (l : NameStatement c) (s : AuthState) : Prop :=
  ∀ x ∈ l.stores s, charCount x.2 ≤ 64 ∧
    ∀ v ∈ s.db.users.rows, v.id ≠ x.1 → ¬(IsAscii v.username ∧ IsAscii x.2) →
      F.folded v.username ≠ F.folded x.2

instance (F : CaseFolding) (l : NameStatement c) (s : AuthState) : Decidable (FairName F l s) := by
  unfold FairName
  infer_instance

theorem userNamed?_self (hu : u ∈ s.db.users.rows) : userNamed? s.db u.username = some u :=
  Table.find?_of_mem hu (by simp) fun v _ hv => by
    simp only [decide_eq_true_eq] at hv
    simp [Keyed.clash, hv]

/-- An open account reaches the comparison unless its username is too long for the form. -/
theorem reachesPassword_iff (hu : u ∈ s.db.users.rows) (henabled : u.disabledAt = none)
    (hunblocked : ∀ t ∈ u.loginBlockedUntil, t ≤ s.clock) :
    ReachesPassword c s u ↔ charCount u.username ≤ 64 := by
  constructor
  · intro h
    have hlogin := h ⟨0, "", fun _ => "", "", ""⟩ "" none (Nat.zero_le _) (by simp)
    exact (executes_require_bind.mp hlogin).1.1
  · intro hname random password label hpassword hlabel
    refine executes_require_bind.mpr ⟨⟨hname, hpassword, hlabel⟩, ?_⟩
    refine executes_queryRow_bind.mpr ⟨u, userNamed?_self hu, ?_⟩
    refine executes_query_bind.mpr (executes_require_bind.mpr ⟨hunblocked, ?_⟩)
    refine executes_require_bind.mpr ⟨⟨henabled, rfl⟩, ?_⟩
    exact executes_execute_bind ⟨_, _, _, rfl⟩

theorem everyoneCanSignIn_iff (hopen : ∀ u ∈ s.db.users.rows, OpenAccount u) :
    EveryoneCanSignIn c F s ↔ (∀ u ∈ s.db.users.rows, ∀ v ∈ s.db.users.rows, u.id ≠ v.id →
      F.folded u.username ≠ F.folded v.username) ∧
        ∀ u ∈ s.db.users.rows, charCount u.username ≤ 64 := by
  have hblocked : ∀ u ∈ s.db.users.rows, ∀ t ∈ u.loginBlockedUntil, t ≤ s.clock :=
    fun u hu t ht => by rw [(hopen u hu).2] at ht; cases ht
  constructor
  · exact fun h => ⟨h.distinct, fun u hu => (reachesPassword_iff hu (hopen u hu).1
      (hblocked u hu)).mp (h.reached u hu (hopen u hu).1 (hblocked u hu))⟩
  · exact fun h => ⟨h.1, fun u hu henabled hunblocked =>
      (reachesPassword_iff hu henabled hunblocked).mpr (h.2 u hu)⟩

theorem Named.of_mem {t t' : Table UserRow} {id : Uuid} {name : String} (h : Named t t' id name)
    (hu : u ∈ t'.rows) : (u.id = id ∧ u.username = name) ∨ (u.id ≠ id ∧ u ∈ t.rows) := by
  by_cases hid : u.id = id
  · exact .inl ⟨hid, h.named u hu hid⟩
  · exact .inr ⟨hid, (h.others u hid).mp hu⟩

theorem opens_step {l : NameStatement c} (hl : StoresNames l)
    (hopen : ∀ u ∈ s.db.users.rows, OpenAccount u) (h : l.run s = .ok s') :
    ∀ u ∈ s'.db.users.rows, OpenAccount u := by
  have hstored := run_stored hl hopen h
  unfold Stored at hstored
  cases hx : l.stores s with
  | none =>
    rw [hx] at hstored
    exact (show s'.db.users.rows = s.db.users.rows from hstored) ▸ hopen
  | some x =>
    rw [hx] at hstored
    exact hstored.opens hopen

theorem Named.distinct {t t' : Table UserRow} {id : Uuid} {name : String} (h : Named t t' id name)
    {v : UserRow} (hv : v ∈ t'.rows) (hid : v.id ≠ id)
    (hfair : ¬(IsAscii v.username ∧ IsAscii name) → F.folded v.username ≠ F.folded name) :
    F.folded v.username ≠ F.folded name := by
  by_cases hascii : IsAscii v.username ∧ IsAscii name
  · intro hfold
    obtain ⟨u, hu, huid⟩ := h.found
    have hlower := lower_of_folded F hascii.1 hascii.2 hfold
    rw [← h.named u hu huid] at hlower
    have hsame : v = u := Table.eq_of_clash hv hu (by simp [Keyed.clash, hlower])
    exact hid (hsame ▸ huid)
  · exact hfair hascii

theorem canSignIn_step {l : NameStatement c} (hl : StoresNames l)
    (hopen : ∀ u ∈ s.db.users.rows, OpenAccount u) (hs : EveryoneCanSignIn c F s)
    (h : l.run s = .ok s') (hfair : FairName F l s) : EveryoneCanSignIn c F s' := by
  have hopen' := opens_step hl hopen h
  have hstored := run_stored hl hopen h
  obtain ⟨hdistinct, hlength⟩ := (everyoneCanSignIn_iff hopen).mp hs
  rw [everyoneCanSignIn_iff hopen']
  unfold Stored at hstored
  cases hx : l.stores s with
  | none =>
    rw [hx, Option.elim_none] at hstored
    rw [hstored]
    exact ⟨hdistinct, hlength⟩
  | some x =>
    obtain ⟨id, name⟩ := x
    rw [hx] at hstored
    have hnamed : Named s.db.users s'.db.users id name := hstored
    obtain ⟨hshort, hothers⟩ := hfair (id, name) hx
    have hnew : ∀ v ∈ s'.db.users.rows, v.id ≠ id → F.folded v.username ≠ F.folded name :=
      fun v hv hid => hnamed.distinct hv hid (hothers v ((hnamed.others v hid).mp hv) hid)
    refine ⟨fun u hu v hv hne => ?_, fun u hu => ?_⟩
    · rcases hnamed.of_mem hu with ⟨huid, huname⟩ | ⟨huid, huold⟩
      · rw [huname]
        exact (hnew v hv fun hvid => hne (huid.trans hvid.symm)).symm
      · rcases hnamed.of_mem hv with ⟨hvid, hvname⟩ | ⟨-, hvold⟩
        · rw [hvname]
          exact hnew u hu huid
        · exact hdistinct u huold v hvold hne
    · rcases hnamed.of_mem hu with ⟨-, huname⟩ | ⟨-, huold⟩
      · rw [huname]
        exact hshort
      · exact hlength u huold

theorem fairName_of_canSignIn {l : NameStatement c} (hl : StoresNames l)
    (hopen : ∀ u ∈ s.db.users.rows, OpenAccount u) (h : l.run s = .ok s')
    (hs' : EveryoneCanSignIn c F s') : FairName F l s := by
  intro x hx
  have hstored := run_stored hl hopen h
  rw [Stored, hx] at hstored
  have hnamed : Named s.db.users s'.db.users x.1 x.2 := hstored
  obtain ⟨hdistinct, hlength⟩ := (everyoneCanSignIn_iff (opens_step hl hopen h)).mp hs'
  obtain ⟨u, hu, huid⟩ := hnamed.found
  have hname := hnamed.named u hu huid
  refine ⟨hname ▸ hlength u hu, fun v hv hid _ => ?_⟩
  rw [← hname]
  exact hdistinct v ((hnamed.others v hid).mpr hv) u hu (huid ▸ hid)

/-- Every account can sign in, after every move of a run, if and only if every username
that the run stores is fair. -/
theorem accounts_can_sign_in_iff {ι : Type} [DecidableEq ι]
    (hopen : ∀ u ∈ s.db.users.rows, OpenAccount u) (hs : EveryoneCanSignIn c F s)
    (ms : List (Move ι NameCall)) :
    (Pool.idle s : NamePool c ι).Guarded (handleName c) (fun _ => True)
        (fun _ l w => FairName F l w.state) ms ↔
      ∀ ns, ns <+: ms →
        EveryoneCanSignIn c F ((Pool.idle s : NamePool c ι).run (handleName c) ns).world.state := by
  refine Pool.guarded_iff (I := fun w => (∀ u ∈ w.state.db.users.rows, OpenAccount u) ∧
      EveryoneCanSignIn c F w.state) (P := fun w => EveryoneCanSignIn c F w.state)
    (handleName_writes c) ?_ (fun w hw => hw.2) ?_ ⟨hopen, hs⟩ ?_ ms fun _ _ _ => trivial
  · intro i l w w' hw hl hfair hwrote
    exact ⟨opens_step hl hw.1 hwrote.1, canSignIn_step hl hw.1 hw.2 hwrote.1 hfair⟩
  · intro i l w w' hw hl hwrote hs'
    exact fairName_of_canSignIn hl hw.1 hwrote.1 hs'
  · intro i r p hp
    cases hp

end SignIn

/-- The folding on ASCII letters and on one more letter. -/
def sampleFolding : CaseFolding where
  fold ch := if ch = 'É' then 'é' else lowerChar ch
  ascii ch h := by
    rw [if_neg]
    rintro rfl
    revert h
    decide

def renamings (names : List (Uuid × String)) : List (Move Nat NameCall) :=
  names.flatMap fun x =>
    [.start x.1 ⟨sampleRandom 50 "", .updatePerson x.1 x.2 "A person"⟩, .advance x.1]

def afterRenames (names : List (Uuid × String)) : AuthState :=
  ((Pool.idle sampleAccounts : NamePool sampleCrypto Nat).run (handleName sampleCrypto)
    (renamings names)).world.state

theorem sampleAccounts_canSignIn :
    EveryoneCanSignIn sampleCrypto sampleFolding sampleAccounts :=
  (everyoneCanSignIn_iff (by decide +kernel)).mpr (by decide +kernel)

theorem accounts_can_sign_in_iff_rename :
    EveryoneCanSignIn sampleCrypto sampleFolding (afterRenames [(1, "Émile"), (2, "emile")]) := by
  refine (accounts_can_sign_in_iff (by decide +kernel) sampleAccounts_canSignIn _).mp ?_ _
    List.prefix_rfl
  decide +kernel

def longName : String := "an-account-name-of-more-than-sixty-four-characters-is-never-found"

/-- The Host console gives one account the name of another in capitals, or a name of 65
characters. -/
theorem console_names_shut_accounts_out :
    ¬EveryoneCanSignIn sampleCrypto sampleFolding (afterRenames [(1, "émile"), (2, "Émile")]) ∧
      ¬EveryoneCanSignIn sampleCrypto sampleFolding (afterRenames [(1, longName)]) := by
  constructor
  · intro h
    obtain ⟨u, hu, v, hv, hne, hfold⟩ :
        ∃ u ∈ (afterRenames [(1, "émile"), (2, "Émile")]).db.users.rows,
          ∃ v ∈ (afterRenames [(1, "émile"), (2, "Émile")]).db.users.rows,
            u.id ≠ v.id ∧ sampleFolding.folded u.username = sampleFolding.folded v.username := by
      decide +kernel
    exact h.distinct u hu v hv hne hfold
  · intro h
    obtain ⟨u, hu, ⟨henabled, hblocked⟩, hlong⟩ :
        ∃ u ∈ (afterRenames [(1, longName)]).db.users.rows,
          OpenAccount u ∧ 64 < charCount u.username := by
      decide +kernel
    have hunblocked : ∀ t ∈ u.loginBlockedUntil, t ≤ (afterRenames [(1, longName)]).clock := by
      simp [hblocked]
    have hshort := (reachesPassword_iff hu henabled hunblocked).mp
      (h.reached u hu henabled hunblocked)
    exact absurd hshort (Nat.not_le_of_gt hlong)

end Cinder.Accounts
