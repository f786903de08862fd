import Cinder.HostApp.FailedSettings
import Cinder.HostApp.SettingsCommands
import Cinder.Backups.RestorableBackups
set_option autoImplicit false

/-!
Whether the locked copies of the backup key can be opened with the secrets in use:
while nothing fails, every command leaves copies of the one key that the Host has.
-/

namespace Cinder.HostApp
open Cinder.Host Cinder.Programs

/-- What is checked against a password hash, and what opens a locked copy. -/
structure KeyLibrary where
  verify : String → String → Bool
  unwrap : KeyWrap → String → Option BackupKey

def Opens (lib : KeyLibrary) (wrap : KeyWrap) (secret : String) (key : BackupKey) : Prop :=
  lib.unwrap wrap secret = some key ∧ ∀ other k, lib.unwrap wrap other = some k → k = key

def KeyedHost.storedKey (s : KeyedHost) : Option BackupKey := s.secret.bind toKey

@[simp] theorem toKey_val (key : BackupKey) : toKey key.1 = some key := dif_pos key.2

def keptRecoveryWrap (env : Surroundings) (config : HostConfig) (known : List String) :
    Option KeyWrap :=
  if env.storedBackupKey = none ∧ recoveredKey env config known = none then none
  else config.backupRecoveryWrap

structure PreparedFrom (env : Surroundings) (config : HostConfig) (known : List String)
    (password recovery : Option String) (config' : HostConfig) : Prop where
  passwordHash : config'.passwordHash = config.passwordHash
  passwordWrap : config'.backupPasswordWrap = match password with
    | none => keptPasswordWrap env config known
    | some password =>
      if (keptPasswordWrap env config known).bind (fun wrap => env.unwrap wrap password) =
          some (backupKeyFor env config known) then keptPasswordWrap env config known
      else some (env.wrap (backupKeyFor env config known) password)
  recoveryWrap : config'.backupRecoveryWrap = match recovery with
    | none => keptRecoveryWrap env config known
    | some recovery => some (env.wrap (backupKeyFor env config known) recovery)

section Preparing
variable {env : Surroundings} {config : HostConfig} {known : List String}

theorem takeBackupKey_fine (hfine : ∀ step, env.fails step = none) : ∃ renewed config',
    takeBackupKey env known config = (.ok (backupKeyFor env config known, renewed), config') ∧
      config'.passwordHash = config.passwordHash ∧
      config'.backupPasswordWrap = keptPasswordWrap env config known ∧
      config'.backupRecoveryWrap = keptRecoveryWrap env config known := by
  unfold takeBackupKey backupKeyFor keptPasswordWrap keptRecoveryWrap
  rw [Command.bind_ok (inner_ok (hfine _) config)]
  cases hkey : env.storedBackupKey with
  | some key => exact ⟨false, config, rfl, rfl, rfl, rfl⟩
  | none =>
    dsimp only
    rw [Command.bind_ok (Command.get_run config)]
    cases hrec : recoveredKey env config known with
    | some key =>
      dsimp only
      rw [Command.bind_ok (inner_ok (hfine _) config)]
      exact ⟨false, config, rfl, rfl, rfl, rfl⟩
    | none =>
      dsimp only
      exact ⟨true, _, Command.bind_ok (inner_ok (hfine _) _), rfl, rfl, rfl⟩

theorem lockWithPassword_fine (hfine : ∀ step, env.fails step = none) (key : BackupKey)
    (password : Option String) (config : HostConfig) : ∃ changed,
    lockWithPassword env key password config = (.ok changed, { config with
      backupPasswordWrap := match password with
        | none => config.backupPasswordWrap
        | some password =>
          if config.backupPasswordWrap.bind (fun wrap => env.unwrap wrap password) = some key then
            config.backupPasswordWrap
          else some (env.wrap key password) }) := by
  cases password with
  | none => exact ⟨false, rfl⟩
  | some password =>
    rw [lockWithPassword, Command.bind_ok (Command.get_run config)]
    dsimp only
    split
    · exact ⟨false, rfl⟩
    · exact ⟨true, Command.bind_ok (inner_ok (hfine _) config)⟩

theorem lockWithRecovery_fine (hfine : ∀ step, env.fails step = none) (key : BackupKey)
    (recovery : Option String) (config : HostConfig) : ∃ changed,
    lockWithRecovery env key recovery config = (.ok changed, { config with
      backupRecoveryWrap := match recovery with
        | none => config.backupRecoveryWrap
        | some recovery => some (env.wrap key recovery) }) := by
  cases recovery with
  | none => exact ⟨false, rfl⟩
  | some recovery => exact ⟨true, Command.bind_ok (inner_ok (hfine _) config)⟩

theorem prepareBackupKey_fine (hfine : ∀ step, env.fails step = none) (config : HostConfig)
    (known : List String) (password recovery : Option String) : ∃ changed config',
    prepareBackupKey env known password recovery config = (.ok changed, config') ∧
      PreparedFrom env config known password recovery config' := by
  obtain ⟨renewed, c₁, htake, hhash, hpw, hrec⟩ : ∃ renewed config', takeBackupKey env known config =
      (.ok (backupKeyFor env config known, renewed), config') ∧ _ := takeBackupKey_fine hfine
  obtain ⟨locked, hlock⟩ := lockWithPassword_fine hfine (backupKeyFor env config known) password c₁
  obtain ⟨relocked, hrelock⟩ := lockWithRecovery_fine hfine (backupKeyFor env config known) recovery
    { c₁ with backupPasswordWrap := _ }
  exact ⟨_, _, (Command.bind_ok htake).trans ((Command.bind_ok hlock).trans (Command.bind_ok hrelock)),
    hhash, by rw [← hpw], by rw [← hrec]⟩

theorem secretAfter_fine (hfine : ∀ step, env.fails step = none) :
    (env.secretAfter config known).bind toKey = some (backupKeyFor env config known) := by
  unfold Surroundings.secretAfter backupKeyFor
  cases hkey : env.storedBackupKey with
  | some key =>
    rw [if_neg (by simp)]
    exact hkey
  | none =>
    rw [if_pos ⟨rfl, hfine _, hfine _⟩, Option.bind_some, toKey_val]

end Preparing

/-- The copies that are there are copies of one key, the stored one if there is one.
The password's copy is missing only when both are. -/
structure WrapsFit (lib : KeyLibrary) (stored : Option BackupKey) (password recovery : String)
    (config : HostConfig) : Prop where
  key : ∃ key, (∀ k ∈ stored, k = key) ∧
    (∀ wrap ∈ config.backupPasswordWrap, Opens lib wrap password key) ∧
    ∀ wrap ∈ config.backupRecoveryWrap, Opens lib wrap recovery key
  order : config.backupPasswordWrap = none → config.backupRecoveryWrap = none

/-- The cipher of the copies, under which a copy opens with its secret alone. -/
structure IdealWrap (lib : KeyLibrary) (env : Surroundings) : Prop where
  unwrap : env.unwrap = lib.unwrap
  wrap : ∀ key secret other, lib.unwrap (env.wrap key secret) other =
    if other = secret then some key else none

section Fitting
variable {lib : KeyLibrary} {env : Surroundings} {config config' : HostConfig}
  {known : List String} {oldPassword oldRecovery : String}

theorem IdealWrap.opens (h : IdealWrap lib env) (key : BackupKey) (secret : String) :
    Opens lib (env.wrap key secret) secret key := by
  refine ⟨by rw [h.wrap, if_pos rfl], fun other k hk => ?_⟩
  rw [h.wrap] at hk
  split at hk
  · exact (Option.some.inj hk).symm
  · cases hk

theorem recoveredKey_eq {key k : BackupKey} (hunwrap : env.unwrap = lib.unwrap)
    (hpw : ∀ wrap ∈ config.backupPasswordWrap, Opens lib wrap oldPassword key)
    (hrec : ∀ wrap ∈ config.backupRecoveryWrap, Opens lib wrap oldRecovery key)
    (h : recoveredKey env config known = some k) : k = key := by
  obtain ⟨secret, -, hsecret⟩ := List.exists_of_findSome?_eq_some h
  obtain ⟨wrap, hmem, hwrap⟩ := List.exists_of_findSome?_eq_some hsecret
  obtain ⟨w, hw, hopen⟩ := Option.bind_eq_some_iff.mp hwrap
  rw [hunwrap] at hopen
  rcases List.mem_cons.mp hmem with rfl | hmem
  · exact (hpw w hw).2 secret k hopen
  · rw [List.mem_singleton.mp hmem] at hw
    exact (hrec w hw).2 secret k hopen

theorem backupKeyFor_eq {key : BackupKey} (hunwrap : env.unwrap = lib.unwrap)
    (hstored : ∀ k ∈ env.storedBackupKey, k = key)
    (hpw : ∀ wrap ∈ config.backupPasswordWrap, Opens lib wrap oldPassword key)
    (hrec : ∀ wrap ∈ config.backupRecoveryWrap, Opens lib wrap oldRecovery key)
    (h : ¬(env.storedBackupKey = none ∧ recoveredKey env config known = none)) :
    backupKeyFor env config known = key := by
  unfold backupKeyFor
  cases hkey : env.storedBackupKey with
  | some k => exact hstored k hkey
  | none =>
    obtain ⟨k, hk⟩ := Option.ne_none_iff_exists'.mp fun hnone => h ⟨hkey, hnone⟩
    dsimp only
    rw [hk]
    exact recoveredKey_eq hunwrap hpw hrec hk

theorem WrapsFit.kept (h : WrapsFit lib env.storedBackupKey oldPassword oldRecovery config)
    (hunwrap : env.unwrap = lib.unwrap) (known : List String) :
    (∀ wrap ∈ keptPasswordWrap env config known,
      Opens lib wrap oldPassword (backupKeyFor env config known)) ∧
    ∀ wrap ∈ keptRecoveryWrap env config known,
      Opens lib wrap oldRecovery (backupKeyFor env config known) := by
  obtain ⟨key, hstored, hpw, hrec⟩ := h.key
  constructor
  · intro wrap hwrap
    unfold keptPasswordWrap at hwrap
    split at hwrap
    · cases hwrap
    · next hkept => exact backupKeyFor_eq hunwrap hstored hpw hrec hkept ▸ hpw wrap hwrap
  · intro wrap hwrap
    unfold keptRecoveryWrap at hwrap
    split at hwrap
    · cases hwrap
    · next hkept => exact backupKeyFor_eq hunwrap hstored hpw hrec hkept ▸ hrec wrap hwrap

theorem WrapsFit.prepared (h : WrapsFit lib env.storedBackupKey oldPassword oldRecovery config)
    (hideal : IdealWrap lib env) {password : String} {recovery : Option String}
    (hprepared : PreparedFrom env config known (some password) recovery config') :
    WrapsFit lib (some (backupKeyFor env config known)) password (recovery.getD oldRecovery)
      config' := by
  obtain ⟨hkeptPw, hkeptRec⟩ := h.kept hideal.unwrap known
  have hpw := hprepared.passwordWrap
  have hrec := hprepared.recoveryWrap
  dsimp only at hpw
  refine ⟨⟨_, fun k hk => (Option.some.inj hk).symm, fun wrap hwrap => ?_, fun wrap hwrap => ?_⟩,
    fun hnone => ?_⟩
  · rw [hpw] at hwrap
    split at hwrap
    · next hopens =>
      rw [Option.mem_def] at hwrap
      rw [hwrap, Option.bind_some, hideal.unwrap] at hopens
      exact ⟨hopens, (hkeptPw wrap hwrap).2⟩
    · obtain rfl := Option.some.inj hwrap
      exact hideal.opens _ _
  · rw [hrec] at hwrap
    cases recovery with
    | none => exact hkeptRec wrap hwrap
    | some recovery =>
      obtain rfl := Option.some.inj hwrap
      exact hideal.opens _ _
  · rw [hpw] at hnone
    split at hnone
    · next hopens =>
      rw [hnone] at hopens
      cases hopens
    · cases hnone

/-- What `backup_encryption` takes into a backup opens with the password. -/
theorem WrapsFit.unlocks {stored : Option BackupKey} {password recovery : String}
    (h : WrapsFit lib stored password recovery config) {key : BackupKey}
    {encryption : Backups.BackupEncryption}
    (hmade : Backups.backupEncryption (.ok stored) config = .ok (key, encryption)) :
    encryption.unlock lib.unwrap password = some key := by
  obtain ⟨key', hstored, hpw, -⟩ := h.key
  obtain ⟨_, h₁, hmade⟩ := bind_eq_ok.mp hmade
  cases h₁
  obtain ⟨k, hk, hmade⟩ := bind_eq_ok.mp hmade
  obtain ⟨_, hwraps, hmade⟩ := bind_eq_ok.mp hmade
  cases hmade
  have hpresent := Backups.ensure_eq_ok.mp hwraps
  obtain rfl := hstored key (Backups.orError_eq_ok.mp hk)
  have hsome : config.backupPasswordWrap ≠ none := fun hnone => by
    rcases hpresent with hno | hno
    · exact hno hnone
    · exact hno (h.order hnone)
  obtain ⟨wrap, hwrap⟩ := Option.ne_none_iff_exists'.mp hsome
  rw [Backups.BackupEncryption.unlock, List.findSome?_cons, hwrap, Option.bind_some,
    (hpw wrap hwrap).1]

end Fitting

def keyPart (s : KeyedHost) : Option HostConfig × Option Bytes := (s.host.config, s.secret)

/-- The settings and the key, after the key has been prepared from the old ones. -/
structure KeyRenewed (env : Surroundings) (config : HostConfig) (known : List String)
    (password recovery : Option String) (s s' : KeyedHost) : Prop where
  settings : ∃ config', s'.host.config = some config' ∧
    PreparedFrom (env.withSecret s.secret) config known password recovery config'
  stored : s'.storedKey = some (backupKeyFor (env.withSecret s.secret) config known)

section Commands
variable {env : Surroundings} {s s' : KeyedHost} {r : Except String String}

theorem onHost_keeps {α : Type} {p : AdminCommand α} (hp : p.Keeps HostState.config) :
    (onHost p).Keeps keyPart := by
  intro s
  have hconfig := hp s.host
  rw [keyPart, keyPart, onHost, Command.zoom]
  rw [← hconfig]

theorem onHost_run {α : Type} {p : AdminCommand α} {s : KeyedHost} {r : Except String α}
    {host : HostState} (h : p s.host = (r, host)) : onHost p s = (r, { s with host }) := by
  rw [onHost, Command.zoom, h]

theorem openSchool_ok {fails : SetupStep → Option String} (h : ∀ step, fails step = none)
    (s : KeyedHost) : openSchool fails s = (.ok (), s) := by
  simp only [openSchool, h]
  rfl

theorem prepareStoredKey_fine (hfine : ∀ step, env.fails step = none) (config : HostConfig)
    (known : List String) (password recovery : Option String) (s : KeyedHost) :
    ∃ changed config', prepareStoredKey env config known password recovery s =
      (.ok (.ok changed, config'),
        { s with secret := (env.withSecret s.secret).secretAfter config known }) ∧
      PreparedFrom (env.withSecret s.secret) config known password recovery config' := by
  have hfine' : ∀ step, (env.withSecret s.secret).fails step = none := hfine
  obtain ⟨changed, config', hrun, hprepared⟩ :=
    prepareBackupKey_fine hfine' config known password recovery
  refine ⟨changed, config', ?_, hprepared⟩
  rw [← hrun]
  rfl

theorem setupHost_cases {fails : SetupStep → Option String} {dataDir schoolName password : String}
    {port : Nat} (hfine : ∀ step, env.fails step = none) (hsetup : ∀ step, fails step = none)
    (h : setupHost env fails dataDir schoolName password port s = (r, s')) :
    (∃ e, r = .error e ∧ keyPart s' = keyPart s) ∨ (r = .ok env.nextRecovery ∧
      s.host.config = none ∧ KeyRenewed env (firstConfig env dataDir schoolName port) []
        (some password) (some env.nextRecovery) s s') := by
  rcases Command.require_bind_cases h with ⟨hr, rfl⟩ | ⟨-, h⟩
  · exact .inl ⟨_, hr, rfl⟩
  rcases Command.require_bind_cases h with ⟨hr, rfl⟩ | ⟨-, h⟩
  · exact .inl ⟨_, hr, rfl⟩
  rcases (onHost_keeps (.require _ _)).bind_cases h with ⟨e, hr, hsame⟩ | ⟨_, t₁, -, h₁, h⟩
  · exact .inl ⟨e, hr, hsame⟩
  rcases Command.require_bind_cases h with ⟨hr, rfl⟩ | ⟨-, h⟩
  · exact .inl ⟨_, hr, h₁⟩
  rw [Command.bind_ok (onHost_run (inner_ok (hfine _) _)), Command.bind_ok (Command.get_run _)] at h
  rcases Command.require_bind_cases h with ⟨hr, rfl⟩ | ⟨hnone, h⟩
  · exact .inl ⟨_, hr, h₁⟩
  rw [Command.bind_ok (onHost_run (inner_ok (hfine _) _)),
    Command.bind_ok (onHost_run (inner_ok (hfine _) _)),
    Command.bind_ok (onHost_run (inner_ok (hfine _) _))] at h
  obtain ⟨changed, config', hrun, hprepared⟩ := prepareStoredKey_fine hfine
    (firstConfig env dataDir schoolName port) [] (some password) (some env.nextRecovery) t₁
  have hsecret : t₁.secret = s.secret := congrArg Prod.snd h₁
  rw [Command.bind_ok hrun] at h
  dsimp only [Command.ofExcept] at h
  rw [Command.bind_ok (Command.pure_run _ _), Command.bind_ok (openSchool_ok hsetup _),
    Command.bind_ok (onHost_run (saveConfig_ok (fun _ => hfine _) _ _)),
    Command.bind_ok (onHost_run (Command.modify_run _ _))] at h
  cases h
  rw [hsecret] at hprepared
  refine .inr ⟨rfl, (congrArg Prod.fst h₁).symm.trans hnone, ⟨config', rfl, hprepared⟩, ?_⟩
  rw [KeyedHost.storedKey]
  dsimp only
  rw [hsecret]
  exact secretAfter_fine hfine

theorem keepBackupsOpenable_fine (hfine : ∀ step, env.fails step = none) (password : String)
    (config : HostConfig) (s : KeyedHost) : ∃ s',
    keepBackupsOpenable env password config s = (.ok (), s') ∧
      KeyRenewed env config [password] (some password) none s s' := by
  obtain ⟨changed, config', hrun, hprepared⟩ := prepareStoredKey_fine hfine config [password]
    (some password) none s
  have hstored : ((env.withSecret s.secret).secretAfter config [password]).bind toKey = _ :=
    secretAfter_fine hfine
  rw [keepBackupsOpenable, if_pos (hfine _), Command.bind_ok hrun]
  dsimp only
  rw [Command.bind_ok (onHost_run (Command.modify_run _ _))]
  split
  · have hsave : (onHost (saveConfig env config')).outcome = fun t : KeyedHost =>
        (.ok (.ok ()), { t with host := { t.host with file := some config' } }) := by
      funext t
      rw [Command.outcome, onHost_run (saveConfig_ok (fun _ => hfine _) _ _)]
    rw [hsave]
    exact ⟨_, rfl, ⟨config', rfl, hprepared⟩, hstored⟩
  · exact ⟨_, rfl, ⟨config', rfl, hprepared⟩, hstored⟩

theorem unlock_cases {token password : String} (hfine : ∀ step, env.fails step = none)
    (h : unlock env token password s = (r, s')) :
    (∃ e, r = .error e ∧ keyPart s' = keyPart s) ∨ (r = .ok token ∧ ∃ config,
      s.host.config = some config ∧ env.verifyPassword config.passwordHash password = true ∧
        KeyRenewed env config [password] (some password) none s s') := by
  rw [unlock, Command.bind_ok (onHost_run (inner_ok (hfine _) _)),
    Command.bind_ok (Command.get_run _)] at h
  rcases Command.require_bind_cases h with ⟨hr, rfl⟩ | ⟨-, h⟩
  · exact .inl ⟨_, hr, rfl⟩
  rcases hconfig : s.host.config with _ | config
  · rw [Command.bind_error (onHost_run (takeConfig_none hconfig))] at h
    cases h
    exact .inl ⟨_, rfl, rfl⟩
  rw [Command.bind_ok (onHost_run (takeConfig_some hconfig))] at h
  split at h
  · next hverify =>
    refine .inr ?_
    obtain ⟨t, hrun, hrenewed⟩ := keepBackupsOpenable_fine hfine password config
      { s with failedLogins := 0, blockedUntil := none }
    rw [Command.bind_ok (Command.modify_run _ _), Command.bind_ok hrun,
      Command.bind_ok (onHost_run (Command.modify_run _ _))] at h
    cases h
    exact ⟨rfl, config, rfl, hverify, hrenewed.settings, hrenewed.stored⟩
  · refine .inl ?_
    rw [countWrong, Command.bind_ok (Command.modify_run _ _)] at h
    cases h
    refine ⟨_, rfl, ?_⟩
    dsimp only
    split <;> rfl

theorem updateConfig_fine (hfine : ∀ step, env.fails step = none)
    (recoveryCode newPassword : String) (config : HostConfig) : ∃ config',
    updateConfig env recoveryCode newPassword config = (.ok (), config') ∧
      PreparedFrom env { config with passwordHash := env.passwordHash
                                     recoveryHash := env.recoveryHash } [recoveryCode]
        (some newPassword) (some env.nextRecovery) config' := by
  obtain ⟨changed, config', hrun, hprepared⟩ := prepareBackupKey_fine hfine
    { config with passwordHash := env.passwordHash, recoveryHash := env.recoveryHash }
    [recoveryCode] (some newPassword) (some env.nextRecovery)
  refine ⟨config', ?_, hprepared⟩
  rw [updateConfig, Command.bind_ok (inner_ok (hfine _) _),
    Command.bind_ok (Command.modify_run _ _), Command.bind_ok (inner_ok (hfine _) _),
    Command.bind_ok (Command.modify_run _ _), Command.bind_ok (inner_ok (hfine _) _),
    Command.bind_ok hrun]
  rfl

theorem unlockWithRecovery_cases {recoveryCode newPassword : String} {host host' : HostState}
    (hfine : ∀ step, env.fails step = none)
    (h : unlockWithRecovery env recoveryCode newPassword host = (r, host')) :
    (∃ e, r = .error e ∧ host' = host ∧
      ∀ config ∈ host.config, reachesKey env recoveryCode newPassword config = false) ∨
    (r = .ok env.nextRecovery ∧ ∃ config config', host.config = some config ∧
      host'.config = some config' ∧ reachesKey env recoveryCode newPassword config = true ∧
      PreparedFrom env { config with passwordHash := env.passwordHash
                                     recoveryHash := env.recoveryHash } [recoveryCode]
        (some newPassword) (some env.nextRecovery) config') := by
  have hreaches : ∀ config, reachesKey env recoveryCode newPassword config =
      (validPassword newPassword && env.verifyPassword config.recoveryHash recoveryCode) :=
    fun config => by simp [reachesKey, hfine]
  by_cases hvalid : validPassword newPassword = true
  case neg =>
    have hrefused : validatePassword newPassword host =
        (.error "The Host password must contain between 8 and 1,024 characters.", host) := by
      rw [validatePassword, Command.require_run, if_neg hvalid]
    rw [unlockWithRecovery, Command.bind_error hrefused] at h
    cases h
    exact .inl ⟨_, rfl, rfl, fun config _ => by simp [hreaches, hvalid]⟩
  have haccepted : validatePassword newPassword host = (.ok (), host) := by
    rw [validatePassword, Command.require_run, if_pos hvalid]
  rw [unlockWithRecovery, Command.bind_ok haccepted, Command.bind_ok (inner_ok (hfine _) _)] at h
  rcases hconfig : host.config with _ | config
  · rw [Command.bind_error (takeConfig_none hconfig)] at h
    cases h
    exact .inl ⟨_, rfl, rfl, fun _ hmem => (by cases hmem)⟩
  rw [Command.bind_ok (takeConfig_some hconfig)] at h
  by_cases hverify : env.verifyPassword config.recoveryHash recoveryCode = true
  case neg =>
    rw [Command.require_bind_error hverify] at h
    cases h
    refine .inl ⟨_, rfl, rfl, fun c hc => ?_⟩
    obtain rfl := Option.some.inj hc
    simp [hreaches, hverify]
  · rw [Command.require_bind_ok hverify] at h
    obtain ⟨config', hrun, hprepared⟩ := updateConfig_fine hfine recoveryCode newPassword config
    have hzoom : onConfig config (updateConfig env recoveryCode newPassword) host =
        (.ok (), { host with config := some config' }) := by
      rw [onConfig, Command.zoom, hconfig, Option.getD_some, hrun]
    rw [Command.bind_ok hzoom, Command.bind_ok (takeConfig_some rfl),
      Command.bind_ok (saveConfig_ok (fun _ => hfine _) _ _)] at h
    cases h
    exact .inr ⟨rfl, config, config', rfl, rfl, by rw [hreaches, hvalid, hverify]; rfl, hprepared⟩

theorem unlockStored_cases {recoveryCode newPassword : String}
    (hfine : ∀ step, env.fails step = none)
    (h : unlockStored env recoveryCode newPassword s = (r, s')) :
    (∃ e, r = .error e ∧ keyPart s' = keyPart s) ∨ (r = .ok env.nextRecovery ∧ ∃ config,
      s.host.config = some config ∧
        KeyRenewed env { config with passwordHash := env.passwordHash
                                     recoveryHash := env.recoveryHash } [recoveryCode]
          (some newPassword) (some env.nextRecovery) s s') := by
  have hfine' : ∀ step, (env.withSecret s.secret).fails step = none := hfine
  rw [unlockStored, Command.bind_ok (Command.get_run _),
    Command.bind_ok (Command.modify_run _ _)] at h
  rcases hrun : unlockWithRecovery (env.withSecret s.secret) recoveryCode newPassword s.host with
    ⟨r', host'⟩
  rw [onHost, Command.zoom, hrun] at h
  cases h
  rcases unlockWithRecovery_cases hfine' hrun with
    ⟨e, rfl, rfl, hstops⟩ | ⟨rfl, config, config', hconfig, hconfig', hreaches, hprepared⟩
  · refine .inl ⟨e, rfl, ?_⟩
    rw [keyPart, keyPart]
    dsimp only
    cases hconfig : s.host.config with
    | none => rfl
    | some config =>
      have hstop := hstops config hconfig
      dsimp only
      rw [hstop]
      rfl
  · refine .inr ⟨rfl, config, hconfig, ⟨config', hconfig', hprepared⟩, ?_⟩
    rw [KeyedHost.storedKey]
    dsimp only
    rw [hconfig]
    dsimp only
    rw [hreaches, if_pos rfl]
    exact secretAfter_fine hfine'

end Commands

/-- The Host with the password and the recovery code that it was last given. -/
structure KeyRun where
  state : KeyedHost
  password : String
  recovery : String

inductive KeyAction where
  | setupHost (dataDir schoolName password : String) (port : Nat)
  | unlock (token password : String)
  | unlockWithRecovery (recoveryCode newPassword : String)

inductive KeyStep where
  | command (env : Surroundings) (fails : SetupStep → Option String) (action : KeyAction)
  | lost

namespace KeyAction

def run (env : Surroundings) (fails : SetupStep → Option String) : KeyAction → KeyCommand String
  | .setupHost dataDir schoolName password port =>
    HostApp.setupHost env fails dataDir schoolName password port
  | .unlock token password => HostApp.unlock env token password
  | .unlockWithRecovery recoveryCode newPassword => unlockStored env recoveryCode newPassword

def newPassword? : KeyAction → Option String
  | .setupHost _ _ password _ => some password
  | .unlock _ _ => none
  | .unlockWithRecovery _ newPassword => some newPassword

end KeyAction

def KeyRun.step (r : KeyRun) : KeyStep → KeyRun
  | .lost => { r with state := { r.state with secret := none } }
  | .command env fails action =>
    match action.run env fails r.state, action.newPassword? with
    | (.ok code, state), some password => ⟨state, password, code⟩
    | (_, state), _ => { r with state }

/-- Nothing fails, the cipher is ideal, and a hash is that of one password. -/
structure IdealCommand (lib : KeyLibrary) (env : Surroundings) (fails : SetupStep → Option String)
    (action : KeyAction) : Prop where
  fine : ∀ step, env.fails step = none
  setup : ∀ step, fails step = none
  verify : env.verifyPassword = lib.verify
  wrap : IdealWrap lib env
  hash : ∀ password ∈ action.newPassword?, ∀ other,
    lib.verify env.passwordHash other = true → other = password

def KeyStep.Ideal (lib : KeyLibrary) : KeyStep → Prop
  | .command env fails action => IdealCommand lib env fails action
  | .lost => True

def KeyRun.Begins (lib : KeyLibrary) (r : KeyRun) : Prop :=
  ∀ config ∈ r.state.host.config,
    (∀ other, lib.verify config.passwordHash other = true → other = r.password) ∧
      config.backupPasswordWrap = none ∧ config.backupRecoveryWrap = none

def KeyRun.Fits (lib : KeyLibrary) (r : KeyRun) : Prop :=
  ∀ config ∈ r.state.host.config,
    (∀ other, lib.verify config.passwordHash other = true → other = r.password) ∧
      WrapsFit lib r.state.storedKey r.password r.recovery config

section Runs
variable {lib : KeyLibrary} {r : KeyRun}

theorem wrapsFit_of_none {stored : Option BackupKey} {password recovery : String}
    {config : HostConfig} (hpw : config.backupPasswordWrap = none)
    (hrec : config.backupRecoveryWrap = none) : WrapsFit lib stored password recovery config := by
  refine ⟨⟨stored.getD ⟨List.replicate 32 0, by decide⟩, fun k hk => ?_, fun w hw => ?_,
    fun w hw => ?_⟩, fun _ => hrec⟩
  · rw [Option.mem_def.mp hk, Option.getD_some]
  · rw [hpw] at hw
    cases hw
  · rw [hrec] at hw
    cases hw

theorem KeyRun.Begins.fits (h : r.Begins lib) : r.Fits lib := by
  intro config hconfig
  obtain ⟨hhash, hpw, hrec⟩ := h config hconfig
  exact ⟨hhash, wrapsFit_of_none hpw hrec⟩

theorem KeyRun.Fits.lost (h : r.Fits lib) : (r.step .lost).Fits lib := by
  intro config hconfig
  obtain ⟨hhash, ⟨key, -, hpw, hrec⟩, horder⟩ := h config hconfig
  exact ⟨hhash, ⟨key, fun k hk => (by cases hk), hpw, hrec⟩, horder⟩

theorem KeyRun.Fits.same (h : r.Fits lib) {s' : KeyedHost} (hsame : keyPart s' = keyPart r.state) :
    KeyRun.Fits lib { r with state := s' } := by
  intro config hconfig
  have hkey : s'.storedKey = r.state.storedKey := congrArg (·.bind toKey) (congrArg Prod.snd hsame)
  obtain ⟨hhash, hwraps⟩ := h config ((congrArg Prod.fst hsame).symm.trans hconfig)
  refine ⟨hhash, ?_⟩
  dsimp only
  rw [hkey]
  exact hwraps

theorem KeyRenewed.fits {env : Surroundings} {config : HostConfig} {known : List String}
    {password oldPassword oldRecovery : String} {recovery : Option String} {s s' : KeyedHost}
    (h : KeyRenewed env config known (some password) recovery s s') (hideal : IdealWrap lib env)
    (hwraps : WrapsFit lib s.storedKey oldPassword oldRecovery config)
    (hhash : ∀ other, lib.verify config.passwordHash other = true → other = password) :
    KeyRun.Fits lib ⟨s', password, recovery.getD oldRecovery⟩ := by
  obtain ⟨config', hconfig', hprepared⟩ := h.settings
  intro c hc
  obtain rfl : config' = c := Option.some.inj (hconfig'.symm.trans hc)
  have hstored : WrapsFit lib (env.withSecret s.secret).storedBackupKey oldPassword oldRecovery
    config := hwraps
  have hideal' : IdealWrap lib (env.withSecret s.secret) := ⟨hideal.unwrap, hideal.wrap⟩
  have hfits := hstored.prepared hideal' hprepared
  rw [hprepared.passwordHash]
  refine ⟨hhash, ?_⟩
  dsimp only
  rw [h.stored]
  exact hfits

theorem KeyRenewed.isSome {env : Surroundings} {config : HostConfig} {known : List String}
    {password recovery : Option String} {s s' : KeyedHost}
    (h : KeyRenewed env config known password recovery s s') :
    s'.host.config.isSome = true ∧ s'.storedKey.isSome = true := by
  obtain ⟨config', hconfig', -⟩ := h.settings
  rw [hconfig', h.stored]
  exact ⟨rfl, rfl⟩

theorem KeyRun.Fits.command (h : r.Fits lib) {env : Surroundings}
    {fails : SetupStep → Option String} {action : KeyAction}
    (hideal : IdealCommand lib env fails action) :
    (r.step (.command env fails action)).Fits lib ∧
      ((action.run env fails r.state).1.isOk = true →
        (r.step (.command env fails action)).state.host.config.isSome = true ∧
          (r.step (.command env fails action)).state.storedKey.isSome = true) := by
  rcases hrun : action.run env fails r.state with ⟨result, s'⟩
  cases action with
  | setupHost dataDir schoolName password port =>
    rw [KeyRun.step, hrun]
    rcases setupHost_cases hideal.fine hideal.setup hrun with
      ⟨e, rfl, hsame⟩ | ⟨rfl, -, hrenewed⟩
    · exact ⟨h.same hsame, fun hok => (by cases hok)⟩
    · have hnone : WrapsFit lib r.state.storedKey r.password r.recovery
          (firstConfig env dataDir schoolName port) := wrapsFit_of_none rfl rfl
      exact ⟨hrenewed.fits hideal.wrap hnone (hideal.hash _ rfl), fun _ => hrenewed.isSome⟩
  | unlock token password =>
    rw [KeyRun.step, hrun]
    rcases unlock_cases hideal.fine hrun with
      ⟨e, rfl, hsame⟩ | ⟨rfl, config, hconfig, hverify, hrenewed⟩
    · exact ⟨h.same hsame, fun hok => (by cases hok)⟩
    · obtain ⟨hhash, hwraps⟩ := h config hconfig
      rw [hideal.verify] at hverify
      obtain rfl := hhash password hverify
      exact ⟨hrenewed.fits hideal.wrap hwraps hhash, fun _ => hrenewed.isSome⟩
  | unlockWithRecovery recoveryCode newPassword =>
    rw [KeyRun.step, hrun]
    rcases unlockStored_cases hideal.fine hrun with
      ⟨e, rfl, hsame⟩ | ⟨rfl, config, hconfig, hrenewed⟩
    · exact ⟨h.same hsame, fun hok => (by cases hok)⟩
    · obtain ⟨-, hwraps⟩ := h config hconfig
      exact ⟨hrenewed.fits hideal.wrap ⟨hwraps.key, hwraps.order⟩ (hideal.hash _ rfl),
        fun _ => hrenewed.isSome⟩

theorem KeyRun.Fits.step (h : r.Fits lib) {step : KeyStep} (hideal : step.Ideal lib) :
    (r.step step).Fits lib := by
  cases step with
  | command env fails action => exact (h.command hideal).1
  | lost => exact h.lost

theorem KeyRun.Fits.run (h : r.Fits lib) {steps : List KeyStep}
    (hideal : ∀ step ∈ steps, step.Ideal lib) : (steps.foldl KeyRun.step r).Fits lib := by
  induction steps generalizing r with
  | nil => exact h
  | cons step steps ih =>
    exact ih (h.step (hideal step List.mem_cons_self)) fun later hlater =>
      hideal later (List.mem_cons_of_mem _ hlater)

theorem WrapsFit.locks {key : BackupKey} {password recovery : String} {config : HostConfig}
    (h : WrapsFit lib (some key) password recovery config) :
    Backups.Locks lib.unwrap key [config.backupPasswordWrap, config.backupRecoveryWrap] := by
  obtain ⟨key', hstored, hpw, hrec⟩ := h.key
  obtain rfl := hstored key rfl
  intro wrap hwrap secret k hk
  rcases List.mem_pair.mp hwrap with hwrap | hwrap
  · exact (hpw wrap hwrap.symm).2 secret k hk
  · exact (hrec wrap hwrap.symm).2 secret k hk

/-- What a backup is restorable under: in every run in which nothing fails, the settings have
copies of the Host's own key only. -/
theorem KeyRun.Begins.locks (h : r.Begins lib) {steps : List KeyStep}
    (hideal : ∀ step ∈ steps, step.Ideal lib) {config : HostConfig}
    (hconfig : config ∈ (steps.foldl KeyRun.step r).state.host.config) {key : BackupKey}
    (hkey : (steps.foldl KeyRun.step r).state.storedKey = some key) :
    Backups.Locks lib.unwrap key [config.backupPasswordWrap, config.backupRecoveryWrap] := by
  obtain ⟨-, hwraps⟩ := (h.fits.run hideal) config hconfig
  rw [hkey] at hwraps
  exact hwraps.locks

end Runs

/-- The locked copies that are there open with the secrets in use and give the stored
key, and so does every backup that is made. -/
structure KeysOpen (lib : KeyLibrary) (r : KeyRun) (config : HostConfig) : Prop where
  password : ∀ wrap ∈ config.backupPasswordWrap, ∀ key ∈ r.state.storedKey,
    lib.unwrap wrap r.password = some key
  recovery : ∀ wrap ∈ config.backupRecoveryWrap, ∀ key ∈ r.state.storedKey,
    lib.unwrap wrap r.recovery = some key
  backups : ∀ key encryption,
    Backups.backupEncryption (.ok r.state.storedKey) config = .ok (key, encryption) →
      encryption.unlock lib.unwrap r.password = some key

theorem WrapsFit.keysOpen {lib : KeyLibrary} {r : KeyRun} {config : HostConfig}
    (h : WrapsFit lib r.state.storedKey r.password r.recovery config) : KeysOpen lib r config := by
  obtain ⟨key, hstored, hpw, hrec⟩ := h.key
  refine ⟨fun wrap hwrap k hk => ?_, fun wrap hwrap k hk => ?_, fun k encryption => h.unlocks⟩
  · rw [hstored k hk, (hpw wrap hwrap).1]
  · rw [hstored k hk, (hrec wrap hwrap).1]

/-- In every run in which nothing fails and the cipher of the copies is ideal, the
copies fit the key and the secrets in use, however often the key is lost, and after
every command that succeeds the Host has its key. -/
theorem backup_keys_stay_openable (lib : KeyLibrary) (r : KeyRun) (hbegins : r.Begins lib)
    (steps : List KeyStep) (hideal : ∀ step ∈ steps, step.Ideal lib) :
    (∀ config ∈ (steps.foldl KeyRun.step r).state.host.config,
      KeysOpen lib (steps.foldl KeyRun.step r) config) ∧
    ∀ before env fails action, steps = before ++ [.command env fails action] →
      (action.run env fails (before.foldl KeyRun.step r).state).1.isOk = true →
        (steps.foldl KeyRun.step r).state.host.config.isSome = true ∧
          (steps.foldl KeyRun.step r).state.storedKey.isSome = true := by
  refine ⟨fun config hconfig => ((hbegins.fits.run hideal) config hconfig).2.keysOpen, ?_⟩
  rintro before env fails action rfl hok
  have hbefore : (before.foldl KeyRun.step r).Fits lib :=
    hbegins.fits.run fun step hstep => hideal step (List.mem_append_left _ hstep)
  have hlast : KeyStep.Ideal lib (.command env fails action) :=
    hideal _ (List.mem_append_right _ List.mem_cons_self)
  rw [List.foldl_concat]
  exact (hbefore.command hlast).2 hok

/-! A Host that is set up, loses its key, is unlocked, loses it again and is unlocked
with the recovery code. -/

def keyText (key : BackupKey) : String := String.ofList (key.1.map fun b => Char.ofNat b.toNat)

def textKey (text : String) : Option BackupKey :=
  toKey (text.toList.map fun c => UInt8.ofNat c.toNat)

def sampleLibrary : KeyLibrary where
  verify hash secret := hash = secret
  unwrap wrap secret := if secret = wrap.salt then textKey wrap.ciphertext else none

def sampleKeyEnv (password code : String) : Surroundings :=
  { sampleEnv .hostDir with
    fails := fun _ => none
    passwordHash := password
    recoveryHash := code
    nextRecovery := code
    verifyPassword := sampleLibrary.verify
    unwrap := sampleLibrary.unwrap
    wrap := fun key secret => ⟨secret, "nonce", keyText key⟩ }

theorem charOfByte (b : UInt8) : UInt8.ofNat (Char.ofNat b.toNat).toNat = b := by
  have hvalid : b.toNat.isValidChar := .inl (Nat.lt_trans b.toNat_lt (by decide))
  have hchar : (Char.ofNat b.toNat).toNat = b.toNat := by
    rw [Char.ofNat, dif_pos hvalid]
    rfl
  rw [hchar, UInt8.ofNat_toNat]

theorem textKey_keyText (key : BackupKey) : textKey (keyText key) = some key := by
  have hbytes : (key.1.map fun b => Char.ofNat b.toNat).map (fun c => UInt8.ofNat c.toNat) =
      key.1 := by
    rw [List.map_map]
    exact (List.map_congr_left fun b _ => charOfByte b).trans (List.map_id _)
  rw [textKey, keyText, String.toList_ofList, hbytes, toKey_val]

theorem sampleKeyEnv_ideal (password code : String) : IdealWrap sampleLibrary
    (sampleKeyEnv password code) := by
  refine ⟨rfl, fun key secret other => ?_⟩
  simp only [sampleKeyEnv, sampleLibrary, textKey_keyText]

def sampleKeyRun : KeyRun := ⟨⟨⟨none, none, false, false, none⟩, 0, none, none⟩, "", ""⟩

def sampleKeySteps : List KeyStep :=
  [.command (sampleKeyEnv "first password" "CODE1") (fun _ => none)
      (.setupHost "/school" "North" "first password" 8443),
    .lost,
    .command (sampleKeyEnv "" "") (fun _ => none) (.unlock "token" "first password"),
    .lost]

def sampleKeyLast : KeyStep :=
  .command (sampleKeyEnv "next password" "CODE2") (fun _ => none)
    (.unlockWithRecovery "CODE1" "next password")

theorem sampleKeySteps_ideal (step : KeyStep) (h : step ∈ sampleKeySteps ++ [sampleKeyLast]) :
    step.Ideal sampleLibrary := by
  simp only [sampleKeySteps, sampleKeyLast, List.cons_append, List.nil_append, List.mem_cons,
    List.not_mem_nil, or_false] at h
  rcases h with rfl | rfl | rfl | rfl | rfl
  · exact ⟨fun _ => rfl, fun _ => rfl, rfl, sampleKeyEnv_ideal _ _, by
      rintro _ ⟨⟩ other h
      exact (of_decide_eq_true h).symm⟩
  · trivial
  · exact ⟨fun _ => rfl, fun _ => rfl, rfl, sampleKeyEnv_ideal _ _, fun _ h => (by cases h)⟩
  · trivial
  · exact ⟨fun _ => rfl, fun _ => rfl, rfl, sampleKeyEnv_ideal _ _, by
      rintro _ ⟨⟩ other h
      exact (of_decide_eq_true h).symm⟩

theorem backup_keys_stay_openable_sample :
    (∀ config ∈
        ((sampleKeySteps ++ [sampleKeyLast]).foldl KeyRun.step sampleKeyRun).state.host.config,
      KeysOpen sampleLibrary ((sampleKeySteps ++ [sampleKeyLast]).foldl KeyRun.step sampleKeyRun)
        config) ∧
    ((sampleKeySteps ++ [sampleKeyLast]).foldl KeyRun.step sampleKeyRun).state.storedKey.isSome =
      true := by
  have hbegins : sampleKeyRun.Begins sampleLibrary := fun config h => (by cases h)
  obtain ⟨hopen, hlast⟩ := backup_keys_stay_openable sampleLibrary sampleKeyRun hbegins
    (sampleKeySteps ++ [sampleKeyLast]) sampleKeySteps_ideal
  exact ⟨hopen, (hlast sampleKeySteps _ _ _ rfl (by rfl)).2⟩

end Cinder.HostApp
