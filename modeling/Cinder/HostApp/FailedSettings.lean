import Cinder.HostApp.SettingsCommands
set_option autoImplicit false

namespace Cinder.HostApp
open Cinder.Host Cinder.Programs

section Inner
variable {S α : Type} {env : Surroundings} {step : InnerStep}

theorem inner_ok (h : env.fails step = none) (s : S) :
    (env.inner step : Command S String Unit) s = (.ok (), s) := by
  rw [Surroundings.inner, h]
  rfl

theorem inner_error {e : String} (h : env.fails step = some e) (s : S) :
    (env.inner step : Command S String Unit) s = (.error e, s) := by
  rw [Surroundings.inner, h]
  rfl

@[simp] theorem succeeds_inner (s : S) :
    (env.inner step : Command S String Unit).Succeeds s ↔ env.fails step = none := by
  cases h : env.fails step with
  | none => simpa using Command.succeeds_of_ok (inner_ok h s)
  | some e => simpa using Command.not_succeeds_of_error (inner_error h s)

@[simp] theorem succeeds_inner_bind (f : Unit → Command S String α) (s : S) :
    (env.inner step >>= f).Succeeds s ↔ env.fails step = none ∧ (f ()).Succeeds s :=
  Command.succeeds_attempt_bind _ f s

theorem inner_bind_error {f : Unit → Command S String α} {s : S}
    (h : env.fails step = none → ∃ e, f () s = (.error e, s)) :
    ∃ e, (env.inner step >>= f) s = (.error e, s) := by
  cases hstep : env.fails step with
  | none =>
    rw [Command.bind_ok (inner_ok hstep s)]
    exact h hstep
  | some e => exact ⟨e, Command.bind_error (inner_error hstep s)⟩

end Inner

def backupKeyFor (env : Surroundings) (config : HostConfig) (known : List String) : BackupKey :=
  match env.storedBackupKey with
  | some key => key
  | none => (recoveredKey env config known).getD env.newKey

def keptPasswordWrap (env : Surroundings) (config : HostConfig) (known : List String) :
    Option KeyWrap :=
  if env.storedBackupKey = none ∧ recoveredKey env config known = none then none
  else config.backupPasswordWrap

/-- No step fails that the preparation of the key comes to. -/
def PreparesKey (env : Surroundings) (config : HostConfig) (known : List String)
    (password : String) : Prop :=
  env.fails .loadKey = none ∧ (env.storedBackupKey = none → env.fails .storeKey = none) ∧
  ((keptPasswordWrap env config known).bind (fun wrap => env.unwrap wrap password) ≠
    some (backupKeyFor env config known) → env.fails .wrapPassword = none) ∧
  env.fails .wrapRecovery = none

theorem takeBackupKey_ok {env : Surroundings} {config : HostConfig} {known : List String}
    (hload : env.fails .loadKey = none)
    (hstore : env.storedBackupKey = none → env.fails .storeKey = none) :
    ∃ renewed config', takeBackupKey env known config =
      (.ok (backupKeyFor env config known, renewed), config') ∧
      config'.backupPasswordWrap = keptPasswordWrap env config known := by
  unfold takeBackupKey backupKeyFor keptPasswordWrap
  rw [Command.bind_ok (inner_ok hload config)]
  cases hkey : env.storedBackupKey with
  | some key => exact ⟨false, config, rfl, rfl⟩
  | none =>
    dsimp only
    rw [Command.bind_ok (Command.get_run config)]
    cases hrec : recoveredKey env config known with
    | some key =>
      dsimp only
      rw [Command.bind_ok (inner_ok (hstore hkey) config)]
      exact ⟨false, config, rfl, rfl⟩
    | none =>
      dsimp only
      exact ⟨true, _, Command.bind_ok (inner_ok (hstore hkey) _), rfl⟩

theorem takeBackupKey_succeeds {env : Surroundings} {config : HostConfig} {known : List String} :
    (takeBackupKey env known).Succeeds config ↔
      env.fails .loadKey = none ∧ (env.storedBackupKey = none → env.fails .storeKey = none) := by
  unfold takeBackupKey
  rw [succeeds_inner_bind]
  cases env.storedBackupKey with
  | some key => simp
  | none =>
    simp only [Command.succeeds_get_bind, forall_const]
    cases recoveredKey env config known with
    | some key => simp
    | none =>
      have hfresh : freshBackupKey env config = (.ok env.newKey,
        { config with backupPasswordWrap := none, backupRecoveryWrap := none }) := rfl
      simp [Command.succeeds_bind_of_ok hfresh]

theorem lockWithRecovery_succeeds {env : Surroundings} {key : BackupKey} {recovery : String}
    {config : HostConfig} : (lockWithRecovery env key (some recovery)).Succeeds config ↔
      env.fails .wrapRecovery = none := by
  simp [lockWithRecovery]

theorem lockWithPassword_bind_succeeds {α : Type} {env : Surroundings} {key : BackupKey}
    {password : String} {f : Bool → ConfigCommand α} {config : HostConfig} {c : Prop}
    (hf : ∀ b config', (f b).Succeeds config' ↔ c) :
    (lockWithPassword env key (some password) >>= f).Succeeds config ↔
      (config.backupPasswordWrap.bind (fun wrap => env.unwrap wrap password) ≠ some key →
        env.fails .wrapPassword = none) ∧ c := by
  by_cases hlocked : config.backupPasswordWrap.bind (fun wrap => env.unwrap wrap password) =
      some key
  · have hrun : lockWithPassword env key (some password) config = (.ok false, config) := by
      rw [lockWithPassword, Command.bind_ok (Command.get_run config), if_pos hlocked]
      rfl
    rw [Command.succeeds_bind_of_ok hrun, hf]
    simp [hlocked]
  · cases hwrap : env.fails .wrapPassword with
    | none =>
      have hrun : lockWithPassword env key (some password) config = (.ok true,
          { config with backupPasswordWrap := some (env.wrap key password) }) := by
        rw [lockWithPassword, Command.bind_ok (Command.get_run config), if_neg hlocked,
          Command.bind_ok (inner_ok hwrap config)]
        rfl
      rw [Command.succeeds_bind_of_ok hrun, hf]
      simp
    | some e =>
      have hrun : lockWithPassword env key (some password) config = (.error e, config) := by
        rw [lockWithPassword, Command.bind_ok (Command.get_run config), if_neg hlocked,
          Command.bind_error (inner_error hwrap config)]
      refine ⟨fun h => absurd h (Command.not_succeeds_of_error (Command.bind_error hrun)), ?_⟩
      rintro ⟨hnone, -⟩
      cases hnone hlocked

theorem prepareBackupKey_succeeds {env : Surroundings} {config : HostConfig} {known : List String}
    {password recovery : String} :
    (prepareBackupKey env known (some password) (some recovery)).Succeeds config ↔
      PreparesKey env config known password := by
  by_cases htake : env.fails .loadKey = none ∧
      (env.storedBackupKey = none → env.fails .storeKey = none)
  · obtain ⟨renewed, config', hrun, hwrap⟩ : ∃ renewed config',
        takeBackupKey env known config =
          (.ok (backupKeyFor env config known, renewed), config') ∧
        config'.backupPasswordWrap = keptPasswordWrap env config known :=
      takeBackupKey_ok htake.1 htake.2
    rw [prepareBackupKey, Command.succeeds_bind_of_ok hrun,
      lockWithPassword_bind_succeeds (c := env.fails .wrapRecovery = none)]
    · rw [hwrap, PreparesKey]
      exact ⟨fun h => ⟨htake.1, htake.2, h⟩, fun h => h.2.2⟩
    · intro b config''
      rw [← lockWithRecovery_succeeds]
      exact Command.succeeds_bind_pure (lockWithRecovery env _ _) _ _
  · refine ⟨fun h => absurd (takeBackupKey_succeeds.mp h.of_bind) htake, fun h => ?_⟩
    exact absurd ⟨h.1, h.2.1⟩ htake

theorem takeBackupKey_keeps (env : Surroundings) (known : List String) :
    (takeBackupKey env known).Keeps HostConfig.passwordHash := by
  refine .bind (.attempt _) fun _ => ?_
  cases env.storedBackupKey with
  | some key => exact .pure _
  | none =>
    refine .bind .get fun config => ?_
    cases recoveredKey env config known with
    | some key => exact .bind (.attempt _) fun _ => .pure _
    | none =>
      exact .bind (.bind (.modify fun _ => rfl) fun _ => .pure _) fun _ =>
        .bind (.attempt _) fun _ => .pure _

theorem lockWithPassword_keeps (env : Surroundings) (key : BackupKey) (password : Option String) :
    (lockWithPassword env key password).Keeps HostConfig.passwordHash := by
  cases password with
  | none => exact .pure _
  | some password =>
    refine .bind .get fun config => ?_
    split
    · exact .pure _
    · exact .bind (.attempt _) fun _ => .bind (.modify fun _ => rfl) fun _ => .pure _

theorem lockWithRecovery_keeps (env : Surroundings) (key : BackupKey) (recovery : Option String) :
    (lockWithRecovery env key recovery).Keeps HostConfig.passwordHash := by
  cases recovery with
  | none => exact .pure _
  | some recovery => exact .bind (.attempt _) fun _ => .bind (.modify fun _ => rfl) fun _ => .pure _

theorem prepareBackupKey_keeps (env : Surroundings) (known : List String)
    (password recovery : Option String) :
    (prepareBackupKey env known password recovery).Keeps HostConfig.passwordHash :=
  .bind (takeBackupKey_keeps env known) fun (key, _) =>
    .bind (lockWithPassword_keeps env key password) fun _ =>
      .bind (lockWithRecovery_keeps env key recovery) fun _ => .pure _

theorem saveConfig_ok {env : Surroundings} (h : env.Saves) (config : HostConfig) (s : HostState) :
    saveConfig env config s = (.ok (), { s with file := some config }) := by
  unfold saveConfig
  simp only [Command.bind_run, inner_ok (h _), Command.modify_run]

theorem saveConfig_error {env : Surroundings} (h : ¬env.Saves) (config : HostConfig)
    (s : HostState) : ∃ e, saveConfig env config s = (.error e, s) := by
  refine inner_bind_error fun hparent => inner_bind_error fun hdir => inner_bind_error fun htemp =>
    inner_bind_error fun hserialise => inner_bind_error fun hwrite => inner_bind_error fun hsync =>
      inner_bind_error fun hpersist => absurd (fun step => ?_) h
  cases step <;> assumption

theorem database_ok {env : Surroundings} {time : Nat} (h : env.Opens time) (s : HostState) :
    database env time s = (.ok (), s) := by
  unfold database
  rw [Command.bind_ok (inner_ok (h _) s), Command.bind_ok (inner_ok (h _) s), inner_ok (h _)]

theorem database_error {env : Surroundings} {time : Nat} (h : ¬env.Opens time) (s : HostState) :
    ∃ e, database env time s = (.error e, s) := by
  refine inner_bind_error fun hconnect => inner_bind_error fun htimeout => ?_
  cases hkeys : env.fails (.database time .foreignKeys) with
  | some e => exact ⟨e, inner_error hkeys s⟩
  | none => exact absurd (fun step => by cases step <;> assumption) h

def SameSettings (s s' : HostState) : Prop := s'.config = s.config ∧ s'.file = s.file

instance (s s' : HostState) : Decidable (SameSettings s s') :=
  inferInstanceAs (Decidable (_ ∧ _))

def RecoveryCompletes (env : Surroundings) (config : HostConfig) (recoveryCode newPassword : String) :
    Prop :=
  env.fails .hashRecovery = none ∧ env.fails .hostDir = none ∧
    PreparesKey env config [recoveryCode] newPassword ∧ env.Saves

theorem updateConfig_succeeds {env : Surroundings} {config : HostConfig}
    {recoveryCode newPassword : String} (h : env.fails .hashPassword = none) :
    (updateConfig env recoveryCode newPassword).Succeeds config ↔
      env.fails .hashRecovery = none ∧ env.fails .hostDir = none ∧
        PreparesKey env config [recoveryCode] newPassword := by
  simp only [updateConfig, succeeds_inner_bind, Command.succeeds_modify_bind, h, true_and,
    Command.succeeds_bind_pure, prepareBackupKey_succeeds]
  exact Iff.rfl

theorem updateConfig_hash {env : Surroundings} {config : HostConfig}
    {recoveryCode newPassword : String} (h : env.fails .hashPassword = none) :
    (updateConfig env recoveryCode newPassword config).2.passwordHash = env.passwordHash := by
  have hlater : Command.Keeps HostConfig.passwordHash (do
      env.inner .hashRecovery
      Command.modify fun config => { config with recoveryHash := env.recoveryHash }
      env.inner .hostDir
      let _ ← prepareBackupKey env [recoveryCode] (some newPassword) (some env.nextRecovery) :
        ConfigCommand Unit) :=
    .bind (.attempt _) fun _ => .bind (.modify fun _ => rfl) fun _ => .bind (.attempt _) fun _ =>
      .bind (prepareBackupKey_keeps env _ _ _) fun _ => .pure _
  rw [updateConfig, Command.bind_ok (inner_ok h config),
    Command.bind_ok (Command.modify_run _ config)]
  exact hlater _

def UnlockSafe (env : Surroundings) (s : HostState) (recoveryCode newPassword : String) : Prop :=
  validPassword newPassword = true → env.fails (.lock 0) = none → ∀ config, s.config = some config →
    env.verifyPassword config.recoveryHash recoveryCode = true → env.fails .hashPassword = none →
      RecoveryCompletes env config recoveryCode newPassword

theorem failsWith_inner_bind {S α : Type} {env : Surroundings} {step : InnerStep} {P : S → Prop}
    {f : Unit → Command S String α} {s : S} (hs : P s) :
    (env.inner step >>= f).FailsWith P s ↔ (env.fails step = none → (f ()).FailsWith P s) :=
  Command.failsWith_attempt_bind hs

theorem failsWith_takeConfig_bind {α : Type} {P : HostState → Prop} {f : HostConfig → AdminCommand α}
    {s : HostState} (hs : P s) : (takeConfig >>= f).FailsWith P s ↔
      ∀ config, s.config = some config → (f config).FailsWith P s := by
  cases hc : s.config with
  | none =>
    rw [Command.failsWith_bind_error (takeConfig_none hc)]
    simp [hs]
  | some config =>
    rw [Command.failsWith_bind_ok (takeConfig_some hc)]
    simp

theorem unlockWithRecovery_iff {env : Surroundings} {s : HostState}
    {recoveryCode newPassword : String}
    (hsalted : ∀ config, s.config = some config → env.passwordHash ≠ config.passwordHash) :
    (unlockWithRecovery env recoveryCode newPassword).FailsWith (SameSettings s) s ↔
      UnlockSafe env s recoveryCode newPassword := by
  have hsame : SameSettings s s := ⟨rfl, rfl⟩
  rw [unlockWithRecovery, validatePassword, Command.failsWith_require_bind hsame,
    failsWith_inner_bind hsame, failsWith_takeConfig_bind hsame]
  refine imp_congr_right fun _ => imp_congr_right fun _ => forall_congr' fun config =>
    imp_congr_right fun hconfig => ?_
  rw [Command.failsWith_require_bind hsame]
  refine imp_congr_right fun _ => ?_
  have hread : s.config.getD config = config := by rw [hconfig]; rfl
  -- the settings in memory are what the command left of them
  have hzoom : ∀ r config', updateConfig env recoveryCode newPassword config = (r, config') →
      onConfig config (updateConfig env recoveryCode newPassword) s =
        (r, { s with config := some config' }) := by
    intro r config' hrun
    rw [onConfig, Command.zoom, hread, hrun]
  cases hhash : env.fails .hashPassword with
  | some e =>
    have hrun : updateConfig env recoveryCode newPassword config = (.error e, config) :=
      Command.bind_error (inner_error hhash config)
    rw [Command.failsWith_bind_error (hzoom _ _ hrun)]
    exact ⟨fun _ h => (by cases h), fun _ => ⟨hconfig.symm, rfl⟩⟩
  | none =>
    have hlost : ∀ config', config'.passwordHash = env.passwordHash →
        ¬SameSettings s { s with config := some config' } := by
      rintro config' hnew ⟨hmem, -⟩
      obtain rfl := Option.some.inj (hmem.trans hconfig)
      exact hsalted config' hconfig hnew.symm
    have hnew : (updateConfig env recoveryCode newPassword config).2.passwordHash = _ :=
      updateConfig_hash hhash
    have hdone : (updateConfig env recoveryCode newPassword).Succeeds config ↔ _ :=
      updateConfig_succeeds hhash
    rcases hrun : updateConfig env recoveryCode newPassword config with ⟨_ | _, config'⟩
    · rw [hrun] at hnew
      rw [Command.failsWith_bind_error (hzoom _ _ hrun)]
      refine ⟨fun h => (hlost config' hnew h).elim, fun h => ?_⟩
      obtain ⟨hrec, hdir, hprep, -⟩ := h rfl
      exact absurd (hdone.mpr ⟨hrec, hdir, hprep⟩) (Command.not_succeeds_of_error hrun)
    · rw [hrun] at hnew
      rw [Command.failsWith_bind_ok (hzoom _ _ hrun),
        Command.failsWith_bind_ok (takeConfig_some rfl)]
      obtain ⟨hrec, hdir, hprep⟩ := hdone.mp (Command.succeeds_of_ok hrun)
      by_cases hsaves : env.Saves
      · refine ⟨fun _ _ => ⟨hrec, hdir, hprep, hsaves⟩, fun _ => ?_⟩
        exact Command.failsWith_ok (Command.bind_ok (saveConfig_ok hsaves config' _))
      · obtain ⟨e, he⟩ := saveConfig_error hsaves config' { s with config := some config' }
        rw [Command.failsWith_bind_error he]
        exact ⟨fun h => (hlost config' hnew h).elim, fun h => absurd (h rfl).2.2.2 hsaves⟩

def settings (s : HostState) : Option HostConfig × Option HostConfig := (s.config, s.file)

theorem sameSettings_iff (s s' : HostState) : SameSettings s s' ↔ settings s' = settings s :=
  (Prod.mk.injEq _ _ _ _).symm.to_iff

theorem sameSettings_congr (s : HostState) (t t' : HostState) (h : settings t = settings t') :
    SameSettings s t → SameSettings s t' := by
  rw [sameSettings_iff, sameSettings_iff, h]
  exact id

theorem database_keeps {T : Type} {part : HostState → T} (env : Surroundings) (time : Nat) :
    (database env time).Keeps part :=
  .bind (.attempt _) fun _ => .bind (.attempt _) fun _ => .attempt _

@[simp] theorem succeeds_database_bind {α : Type} {env : Surroundings} {time : Nat}
    (f : Unit → AdminCommand α) (s : HostState) :
    (database env time >>= f).Succeeds s ↔ env.Opens time ∧ (f ()).Succeeds s := by
  by_cases h : env.Opens time
  · rw [Command.succeeds_bind_of_ok (database_ok h s)]
    simp [h]
  · obtain ⟨e, he⟩ := database_error h s
    simpa [h] using Command.not_succeeds_of_error (Command.bind_error he)

theorem failsWith_requireSession_bind {α : Type} {env : Surroundings} {time : Nat} {token : String}
    {P : HostState → Prop} {f : Unit → AdminCommand α} {s : HostState}
    (hP : ∀ session, P { s with session := session }) :
    (requireSession env time token >>= f).FailsWith P s ↔ ∀ session, s.session = some session →
      session.token = token → env.now time-session.touched ≤ sessionTtl →
        (f ()).FailsWith P
          { s with session := some { session with touched := env.now time } } := by
  cases hsession : s.session with
  | none =>
    have hrun : requireSession env time token s = (.error "Unlock Cinder Host first.", s) := by
      rw [requireSession, Command.bind_ok (Command.get_run s), hsession]
      rfl
    rw [Command.failsWith_bind_error hrun]
    exact ⟨fun _ session h => (by cases h), fun _ => hP s.session⟩
  | some session =>
    by_cases hbad : session.token ≠ token ∨ env.now time-session.touched > sessionTtl
    · have hrun : requireSession env time token s =
          (.error "Cinder Host locked after 15 minutes. Unlock it again.",
            { s with session := none }) := by
        rw [requireSession, Command.bind_ok (Command.get_run s), hsession]
        dsimp only
        rw [if_pos hbad]
        rfl
      rw [Command.failsWith_bind_error hrun]
      refine ⟨fun _ session' h htoken hage => ?_, fun _ => hP none⟩
      cases h
      exact absurd hbad (not_or.mpr ⟨not_not.mpr htoken, Int.not_lt.mpr hage⟩)
    · have hrun : requireSession env time token s = (.ok (),
          { s with session := some { session with touched := env.now time } }) := by
        rw [requireSession, Command.bind_ok (Command.get_run s), hsession]
        dsimp only
        rw [if_neg hbad]
        rfl
      rw [Command.failsWith_bind_ok hrun]
      refine ⟨fun h session' hs _ _ => (by cases hs; exact h), fun h => ?_⟩
      obtain ⟨htoken, hage⟩ := not_or.mp hbad
      exact h session rfl (not_not.mp htoken) (Int.not_lt.mp hage)

theorem failsWith_withMaintenance {α : Type} {env : Surroundings} {token : String}
    {operation : HostConfig → AdminCommand α} {s : HostState} :
    (withMaintenance env token operation).FailsWith (SameSettings s) s ↔
      (env.fails (.lock 0) = none → ∀ session, s.session = some session → session.token = token →
        env.now 0-session.touched ≤ sessionTtl → s.maintenance = false → s.serverRunning = false →
        ∀ config, s.config = some config → (operation config).FailsWith (SameSettings s)
          { s with
            session := some { session with touched := env.now 0 }
            maintenance := true }) := by
  have hsame : ∀ session, SameSettings s { s with session := session } := fun _ => ⟨rfl, rfl⟩
  rw [withMaintenance, failsWith_inner_bind (hsame s.session)]
  refine imp_congr_right fun _ => ?_
  rw [failsWith_requireSession_bind hsame]
  refine forall_congr' fun session => imp_congr_right fun _ => imp_congr_right fun _ =>
    imp_congr_right fun _ => ?_
  rw [Command.failsWith_bind_ok (Command.get_run _), Command.failsWith_require_bind (hsame _)]
  refine imp_congr_right fun _ => ?_
  rw [Command.failsWith_require_bind (hsame _)]
  refine imp_congr_right fun _ => ?_
  rw [failsWith_takeConfig_bind (hsame _)]
  refine forall_congr' fun config => imp_congr_right fun _ => ?_
  rw [Command.failsWith_bind_ok (Command.modify_run _ _)]
  generalize ({ s with session := some { session with touched := env.now 0 }, maintenance := true } :
    HostState) = t
  have hend : ∀ t, ∃ m, endMaintenance env t = (.ok (), { t with maintenance := m }) := by
    intro t
    unfold endMaintenance
    split
    · exact ⟨false, rfl⟩
    · exact ⟨t.maintenance, rfl⟩
  rcases hrun : operation config t with ⟨e | a, t'⟩
  · obtain ⟨m, hm⟩ := hend t'
    have hout : (operation config).outcome t = (.ok (.error e), t') := by
      rw [Command.outcome, hrun]
    have hall : (do
        let result ← (operation config).outcome
        endMaintenance env
        Command.ofExcept result) t = (.error e, { t' with maintenance := m }) := by
      rw [Command.bind_ok hout, Command.bind_ok hm]
      rfl
    rw [Command.failsWith_error hall, Command.failsWith_error hrun]
    exact Iff.rfl
  · obtain ⟨m, hm⟩ := hend t'
    have hout : (operation config).outcome t = (.ok (.ok a), t') := by
      rw [Command.outcome, hrun]
    have hall : (do
        let result ← (operation config).outcome
        endMaintenance env
        Command.ofExcept result) t = (.ok a, { t' with maintenance := m }) := by
      rw [Command.bind_ok hout, Command.bind_ok hm]
      rfl
    exact ⟨fun _ => Command.failsWith_ok hrun, fun _ => Command.failsWith_ok hall⟩

def Applies (env : Surroundings) : Prop :=
  env.Opens 0 ∧ env.fails .writeSetting = none ∧ env.fails .writeAudit = none ∧
    env.fails (.lock 1) = none

/-- The command is refused, or does not come to write the file, or to its end, or
the file had the new settings before. -/
def SettingsSafe (env : Surroundings) (s : HostState) (token schoolName : String) (port : Nat) :
    Prop :=
  validSettings schoolName port = true → env.fails (.lock 0) = none →
    ∀ session, s.session = some session → session.token = token →
      env.now 0-session.touched ≤ sessionTtl → s.maintenance = false → s.serverRunning = false →
        ∀ config, s.config = some config → env.Saves →
          Applies env ∨ s.file = some (newSettings config schoolName port)

theorem applySettings_iff {env : Surroundings} {s t : HostState} {next : HostConfig}
    (hst : SameSettings s t) : (applySettings env next).FailsWith (SameSettings s) t ↔
      (env.Saves → Applies env ∨ s.file = some next) := by
  by_cases hsaves : env.Saves
  · rw [applySettings, Command.failsWith_bind_ok (saveConfig_ok hsaves next t)]
    have hkeeps : (recordSettings env).Keeps settings :=
      .bind (database_keeps env 0) fun _ => .bind (.attempt _) fun _ => .bind (.attempt _) fun _ =>
        .attempt _
    have hdone : ∀ t, (recordSettings env).Succeeds t ↔ Applies env := by
      simp [recordSettings, Applies]
    rw [Command.failsWith_bind_modify, hkeeps.failsWith (sameSettings_congr s), hdone]
    have hfile : SameSettings s { t with file := some next } ↔ s.file = some next :=
      ⟨fun h => h.2.symm, fun h => ⟨hst.1, h.symm⟩⟩
    rw [hfile]
    simp [hsaves]
  · obtain ⟨e, he⟩ := saveConfig_error hsaves next t
    rw [applySettings, Command.failsWith_bind_error he]
    exact ⟨fun _ h => absurd h hsaves, fun _ => hst⟩

theorem saveSettings_iff {env : Surroundings} {s : HostState} {token schoolName : String}
    {port : Nat} : (saveSettings env token schoolName port).FailsWith (SameSettings s) s ↔
      SettingsSafe env s token schoolName port := by
  have hsame : SameSettings s s := ⟨rfl, rfl⟩
  rw [saveSettings, Command.failsWith_require_bind hsame, failsWith_withMaintenance]
  unfold SettingsSafe
  refine imp_congr_right fun _ => imp_congr_right fun _ => forall_congr' fun session =>
    imp_congr_right fun _ => imp_congr_right fun _ => imp_congr_right fun _ =>
      imp_congr_right fun _ => imp_congr_right fun _ => forall_congr' fun config =>
        imp_congr_right fun _ => ?_
  exact applySettings_iff ⟨rfl, rfl⟩

/-- No folder, or one that exists and lies outside the school data. -/
def FolderAccepted (env : Surroundings) (config : HostConfig) : Option String → Prop
  | none => True
  | some folder => (env.isAbsolute folder = true ∧ env.isDir folder = true) ∧
    env.fails .canonicalizeLive = none ∧ env.fails .canonicalizeFolder = none ∧
    (env.canonicalize config.dataDir).isPrefixOf (env.canonicalize folder) = false

/-- Once the file is written no later step fails, in the command or in the status
that it returns. -/
def Reports (env : Surroundings) : Prop :=
  env.Opens 0 ∧ env.fails .writeAudit = none ∧ env.fails (.lock 1) = none ∧
    env.now 1-env.now 0 ≤ sessionTtl ∧ env.Opens 1 ∧ env.fails .readLast = none ∧
    env.fails .readLastError = none ∧ env.fails .hostDir = none

/-- The command is refused, or comes to its end, or the schedule in memory was the
same before and the file is not written or had it too. -/
def AutoBackupSafe (env : Surroundings) (s : HostState) (token : String) (folder : Option String)
    (keep : Nat) : Prop :=
  1 ≤ keep ∧ keep ≤ 90 → env.fails (.lock 0) = none →
    ∀ session, s.session = some session → session.token = token →
      env.now 0-session.touched ≤ sessionTtl →
        ∀ config, s.config = some config → FolderAccepted env config (chosenFolder folder) →
          env.Saves ∧ Reports env ∨
            config.autoBackup = schedule folder keep ∧ (env.Saves → s.file = some config)

theorem failsWith_checkFolder_bind {α : Type} {env : Surroundings} {config : HostConfig}
    {folder : Option String} {P : HostState → Prop} {f : Unit → AdminCommand α} {s : HostState}
    (hs : P s) : (checkFolder env config folder >>= f).FailsWith P s ↔
      (FolderAccepted env config folder → (f ()).FailsWith P s) := by
  cases folder with
  | none =>
    have hrun : checkFolder env config none s = (.ok (), s) := rfl
    rw [Command.failsWith_bind_ok hrun]
    simp [FolderAccepted]
  | some folder =>
    rw [checkFolder]
    simp only [Command.bind_assoc]
    rw [Command.failsWith_require_bind hs, failsWith_inner_bind hs, failsWith_inner_bind hs,
      Command.failsWith_require_bind hs]
    simp only [FolderAccepted, and_imp]

theorem autoBackupStatus_keeps (env : Surroundings) (token : String) :
    (autoBackupStatus env token).Keeps settings :=
  .bind (.attempt _) fun _ => .bind (requireSession_keeps env 1 token fun _ _ => rfl) fun _ =>
    .bind takeConfig_keeps fun _ => .bind (database_keeps env 1) fun _ =>
      .bind (.attempt _) fun _ => .bind (.attempt _) fun _ => .bind (.attempt _) fun _ => .pure _

theorem autoBackupStatus_succeeds {env : Surroundings} {token : String} {session : AdminSession}
    {config : HostConfig} {s : HostState} (hsession : s.session = some session)
    (htoken : session.token = token) (hconfig : s.config = some config) :
    (autoBackupStatus env token).Succeeds s ↔ env.fails (.lock 1) = none ∧
      env.now 1-session.touched ≤ sessionTtl ∧ env.Opens 1 ∧ env.fails .readLast = none ∧
      env.fails .readLastError = none ∧ env.fails .hostDir = none := by
  rw [autoBackupStatus, succeeds_inner_bind]
  refine and_congr_right fun _ => ?_
  by_cases hage : env.now 1-session.touched ≤ sessionTtl
  · have hrun : requireSession env 1 token s = (.ok (),
        { s with session := some { session with touched := env.now 1 } }) := by
      rw [requireSession, Command.bind_ok (Command.get_run s), hsession]
      dsimp only
      rw [if_neg (not_or.mpr ⟨not_not.mpr htoken, Int.not_lt.mpr hage⟩)]
      rfl
    have htake : takeConfig { s with session := some { session with touched := env.now 1 } } =
        (.ok config, { s with session := some { session with touched := env.now 1 } }) :=
      takeConfig_some hconfig
    rw [Command.succeeds_bind_of_ok hrun, Command.succeeds_bind_of_ok htake]
    simp [hage]
  · have hrun : requireSession env 1 token s =
        (.error "Cinder Host locked after 15 minutes. Unlock it again.",
          { s with session := none }) := by
      rw [requireSession, Command.bind_ok (Command.get_run s), hsession]
      dsimp only
      rw [if_pos (.inr (Int.not_le.mp hage))]
      rfl
    refine iff_of_false (Command.not_succeeds_of_error (Command.bind_error hrun)) ?_
    exact fun h => hage h.1

theorem saveAutoBackup_iff {env : Surroundings} {s : HostState} {token : String}
    {folder : Option String} {keep : Nat} :
    (saveAutoBackup env token folder keep).FailsWith (SameSettings s) s ↔
      AutoBackupSafe env s token folder keep := by
  have hsame : ∀ session, SameSettings s { s with session := session } := fun _ => ⟨rfl, rfl⟩
  rw [saveAutoBackup, Command.failsWith_require_bind (hsame s.session),
    failsWith_inner_bind (hsame s.session), failsWith_requireSession_bind hsame]
  unfold AutoBackupSafe
  refine imp_congr_right fun _ => imp_congr_right fun _ => forall_congr' fun session =>
    imp_congr_right fun _ => imp_congr_right fun htoken => imp_congr_right fun _ => ?_
  rw [failsWith_takeConfig_bind (hsame _)]
  refine forall_congr' fun config => imp_congr_right fun hconfig => ?_
  rw [failsWith_checkFolder_bind (hsame _)]
  refine imp_congr_right fun _ => ?_
  rw [Command.failsWith_bind_ok (Command.modify_run _ _)]
  have hnext : { config with autoBackup := schedule folder keep } = config ↔
      config.autoBackup = schedule folder keep := by
    obtain ⟨⟩ := config
    simp [eq_comm]
  have hmem : some { config with autoBackup := schedule folder keep } = s.config ↔
      config.autoBackup = schedule folder keep := by
    rw [hconfig, Option.some.injEq, hnext]
  by_cases hsaves : env.Saves
  · rw [Command.failsWith_bind_ok (saveConfig_ok hsaves _ _)]
    have hkeeps : Command.Keeps settings (do
        database env 0
        env.inner .writeAudit
        autoBackupStatus env token) :=
      .bind (database_keeps env 0) fun _ => .bind (.attempt _) fun _ => autoBackupStatus_keeps _ _
    have hstatus : ∀ t : HostState, t.session = some { session with touched := env.now 0 } →
        t.config = some { config with autoBackup := schedule folder keep } →
        ((autoBackupStatus env token).Succeeds t ↔ env.fails (.lock 1) = none ∧
          env.now 1-env.now 0 ≤ sessionTtl ∧ env.Opens 1 ∧ env.fails .readLast = none ∧
          env.fails .readLastError = none ∧ env.fails .hostDir = none) :=
      fun t hs hc => autoBackupStatus_succeeds hs htoken hc
    rw [hkeeps.failsWith (sameSettings_congr s), succeeds_database_bind, succeeds_inner_bind,
      hstatus _ rfl rfl]
    refine or_congr (by simp [hsaves, Reports]) ?_
    constructor
    · rintro ⟨hm, hf⟩
      have hsched := hmem.mp hm
      exact ⟨hsched, fun _ => by rw [← hf, hnext.mpr hsched]⟩
    · rintro ⟨hsched, hf⟩
      exact ⟨hmem.mpr hsched, by rw [hf hsaves, hnext.mpr hsched]⟩
  · obtain ⟨e, he⟩ := saveConfig_error hsaves { config with autoBackup := schedule folder keep }
      { s with
        session := some { session with touched := env.now 0 }
        config := some { config with autoBackup := schedule folder keep } }
    rw [Command.failsWith_bind_error he]
    simp only [hsaves, false_and, false_or, false_implies, and_true]
    exact ⟨fun h => hmem.mp h.1, fun h => ⟨hmem.mpr h, rfl⟩⟩

inductive SettingsCommand where
  | unlockWithRecovery (recoveryCode newPassword : String)
  | saveSettings (token schoolName : String) (port : Nat)
  | saveAutoBackup (token : String) (folder : Option String) (keep : Nat)

def SettingsCommand.run (env : Surroundings) : SettingsCommand → AdminCommand Unit
  | .unlockWithRecovery recoveryCode newPassword => do
    let _ ← HostApp.unlockWithRecovery env recoveryCode newPassword
    pure ()
  | .saveSettings token schoolName port => HostApp.saveSettings env token schoolName port
  | .saveAutoBackup token folder keep => do
    let _ ← HostApp.saveAutoBackup env token folder keep
    pure ()

def SettingsCommand.Safe (env : Surroundings) (s : HostState) : SettingsCommand → Prop
  | .unlockWithRecovery recoveryCode newPassword => UnlockSafe env s recoveryCode newPassword
  | .saveSettings token schoolName port => SettingsSafe env s token schoolName port
  | .saveAutoBackup token folder keep => AutoBackupSafe env s token folder keep

/-- A failed settings command leaves memory and file as they were if and only if it
is safe. The hash of a password is salted, so a new one is not the old one. -/
theorem failed_settings_change_nothing_iff (env : Surroundings) (command : SettingsCommand)
    (s : HostState)
    (hsalted : ∀ config, s.config = some config → env.passwordHash ≠ config.passwordHash) :
    (∀ e, (command.run env s).1 = .error e →
      (command.run env s).2.config = s.config ∧ (command.run env s).2.file = s.file) ↔
    command.Safe env s := by
  cases command with
  | unlockWithRecovery recoveryCode newPassword =>
    exact (Command.failsWith_bind_pure _ _ s).trans (unlockWithRecovery_iff hsalted)
  | saveSettings token schoolName port =>
    rw [SettingsCommand.run]
    exact saveSettings_iff
  | saveAutoBackup token folder keep =>
    exact (Command.failsWith_bind_pure _ _ s).trans saveAutoBackup_iff

def sampleConfig : HostConfig :=
  ⟨"/school", "North", "0.0.0.0", 8443, "$argon2 old", "$argon2 code", none, none, none⟩

def sampleHost : HostState := ⟨some sampleConfig, some ⟨"token", 0⟩, false, false, some sampleConfig⟩

def sampleEnv (failing : InnerStep) : Surroundings where
  fails step := if step = failing then some "The disk is full." else none
  now _ := 0
  passwordHash := "$argon2 new"
  recoveryHash := "$argon2 next"
  newKey := ⟨List.replicate 32 9, by decide⟩
  nextRecovery := "NEXT"
  storedSecret := none
  verifyPassword hash secret := hash = "$argon2 code" && secret = "CODE"
  unwrap _ _ := none
  wrap _ secret := ⟨"salt", "nonce", secret⟩
  isAbsolute _ := true
  isDir _ := true
  canonicalize path := [path]

theorem sampleEnv_salted (failing : InnerStep) (config : HostConfig)
    (h : sampleHost.config = some config) :
    (sampleEnv failing).passwordHash ≠ config.passwordHash := by
  obtain rfl := Option.some.inj h
  simp [sampleEnv, sampleConfig]

theorem failed_settings_change_nothing_iff_sample :
    (SettingsCommand.unlockWithRecovery "CODE" "new password").Safe (sampleEnv .hashPassword)
        sampleHost ∧
      ((SettingsCommand.unlockWithRecovery "CODE" "new password").run (sampleEnv .hashPassword)
        sampleHost).2.config = some sampleConfig := by
  have hsafe : (SettingsCommand.unlockWithRecovery "CODE" "new password").Safe
      (sampleEnv .hashPassword) sampleHost := fun _ _ _ _ _ hhash => by cases hhash
  have hsame := (failed_settings_change_nothing_iff (sampleEnv .hashPassword)
    (.unlockWithRecovery "CODE" "new password") sampleHost (sampleEnv_salted _)).mpr hsafe
  exact ⟨hsafe, (hsame "The disk is full." (by rfl)).1⟩

/-- When the file cannot be written, the new password and a recovery code that
nobody was told are in memory. In the other two commands it is the file, or the
memory, that is ahead. -/
theorem failed_settings_stay :
    (¬∀ e, ((SettingsCommand.unlockWithRecovery "CODE" "new password").run
        (sampleEnv (.save .persist)) sampleHost).1 = .error e →
      SameSettings sampleHost ((SettingsCommand.unlockWithRecovery "CODE" "new password").run
        (sampleEnv (.save .persist)) sampleHost).2) ∧
    (¬∀ e, ((SettingsCommand.saveSettings "token" "South" 8443).run
        (sampleEnv .writeSetting) sampleHost).1 = .error e →
      SameSettings sampleHost ((SettingsCommand.saveSettings "token" "South" 8443).run
        (sampleEnv .writeSetting) sampleHost).2) ∧
    ¬∀ e, ((SettingsCommand.saveAutoBackup "token" (some "/usb") 7).run
        (sampleEnv (.save .persist)) sampleHost).1 = .error e →
      SameSettings sampleHost ((SettingsCommand.saveAutoBackup "token" (some "/usb") 7).run
        (sampleEnv (.save .persist)) sampleHost).2 := by
  refine ⟨fun h => ?_, fun h => ?_, fun h => ?_⟩ <;>
    exact absurd (h "The disk is full." (by rfl)) (by decide)

end Cinder.HostApp
