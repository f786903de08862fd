import Cinder.Secrets.StoredSecrets
set_option autoImplicit false

namespace Cinder.Secrets
open Cinder.Host Cinder.Storage

/-- `fresh` and `nonce` are the random bytes that a call may use. -/
inductive Call where
  | store (name : String) (plaintext : Bytes) (nonce : NonceBytes) (fresh : MasterKey)
  | load (name : String) (fresh : MasterKey)
  | loadOrCreateKey (path : String) (fresh : MasterKey)

inductive Answer where
  | stored
  | loaded (value : Option Bytes)
  | key (key : MasterKey)
  deriving DecidableEq

abbrev CallFinish := Finish String UInt8 SecureStoreError Answer

def Call.name? : Call → Option String
  | .store name _ _ _ => some name
  | .load name _ => some name
  | .loadOrCreateKey _ _ => none

def Call.keyPath? : Call → Option String
  | .loadOrCreateKey path _ => some path
  | _ => none

def Call.paths (c : Call) : List String :=
  match c with
  | .store name _ _ _ => [localSecrets, secretPath name]
  | .load name _ => [localSecrets, secretPath name]
  | .loadOrCreateKey path _ => [path]

def Call.exec (gcm : Gcm) (c : Call) (fates : List Fate) (d : Disk String UInt8) : CallFinish :=
  match c with
  | .store name plaintext nonce fresh =>
    ((Secrets.store gcm name plaintext nonce fresh).exec fates d).map fun _ => .stored
  | .load name fresh => ((Secrets.load gcm name fresh).exec fates d).map .loaded
  | .loadOrCreateKey path fresh => ((Secrets.loadOrCreateKey path fresh).exec fates d).map .key

/-- The directory, and for every name what a load may return: the value that was
stored last, or after stores that were interrupted any of theirs or the one
before them. `none` is no value. -/
structure Machine where
  disk : Disk String UInt8
  values : String → List (Option Bytes)

def Machine.fresh : Machine := ⟨fun _ => none, fun _ => [none]⟩

/-- A store in which nothing went wrong and that is refused changes nothing. One
that went wrong and still returned has stored a value. -/
def afterStore (plaintext : Bytes) (o : CallFinish) (old : List (Option Bytes)) :
    List (Option Bytes) :=
  match o.result, o.clean with
  | some (.ok _), true => [some plaintext]
  | some (.ok _), false => old.filter Option.isSome ++ [some plaintext]
  | _, true => old
  | _, false => old ++ [some plaintext]

def Machine.call (gcm : Gcm) (m : Machine) (step : Call × List Fate) : Machine where
  disk := (step.1.exec gcm step.2 m.disk).disk
  values := match step.1 with
    | .store name plaintext _ _ => Function.update m.values name
      (afterStore plaintext (step.1.exec gcm step.2 m.disk) (m.values name))
    | _ => m.values

def Machine.run (gcm : Gcm) (m : Machine) (steps : List (Call × List Fate)) : Machine :=
  steps.foldl (Machine.call gcm) m

def current (d : Disk String UInt8) (path : String) : Option Bytes :=
  (d path).or (d (backupPath path))

def keyPaths (steps : List (Call × List Fate)) : List String :=
  localSecrets :: steps.filterMap fun step => step.1.keyPath?

def validNames (steps : List (Call × List Fate)) : List String :=
  (steps.filterMap fun step => step.1.name?).filter validName

/-- What is asked of a call that is made in a machine. A load may also report an
error of a file operation that failed in it. -/
structure Survives (gcm : Gcm) (keys : List String) (m : Machine) (step : Call × List Fate) :
    Prop where
  load_ok : ∀ name fresh, step.1 = .load name fresh → validName name = true → ∀ a,
    (step.1.exec gcm step.2 m.disk).result = some (.ok a) → ∃ v ∈ m.values name, a = .loaded v
  load_error : ∀ name fresh, step.1 = .load name fresh → validName name = true → ∀ e,
    (step.1.exec gcm step.2 m.disk).result = some (.error e) →
      (step.1.exec gcm step.2 m.disk).clean = false ∧ ∃ x, e = .io x
  same_key : ∀ path fresh, step.1 = .loadOrCreateKey path fresh → ∀ k,
    current m.disk path = some k → ∀ a,
      (step.1.exec gcm step.2 m.disk).result = some (.ok a) → ∃ key, a = .key key ∧ key.1 = k
  key_kept : ∀ path ∈ keys, ∀ k, current m.disk path = some k →
    current (step.1.exec gcm step.2 m.disk).disk path = some k

def Spares (gcm : Gcm) (m : Machine) (step : Call × List Fate) : Prop :=
  ∀ e ∈ (step.1.exec gcm step.2 m.disk).events, ∀ path ∈ step.1.paths, Spared m.disk path e

instance (gcm : Gcm) (m : Machine) (step : Call × List Fate) : Decidable (Spares gcm m step) :=
  inferInstanceAs (Decidable (∀ e ∈ (step.1.exec gcm step.2 m.disk).events,
    ∀ path ∈ step.1.paths, Spared m.disk path e))

def SparesAll (gcm : Gcm) : Machine → List (Call × List Fate) → Prop
  | _, [] => True
  | m, step :: steps => Spares gcm m step ∧ SparesAll gcm (m.call gcm step) steps

instance decidableSparesAll (gcm : Gcm) :
    (m : Machine) → (steps : List (Call × List Fate)) → Decidable (SparesAll gcm m steps)
  | _, [] => .isTrue trivial
  | m, step :: steps =>
    have := decidableSparesAll gcm (m.call gcm step) steps
    inferInstanceAs (Decidable (_ ∧ _))

def KeysApart (steps : List (Call × List Fate)) : Prop :=
  (∀ step ∈ steps, ∀ path ∈ step.1.keyPath?, ∀ name ∈ validNames steps,
    Apart path (secretPath name)) ∧
  ∀ path ∈ keyPaths steps, ∀ path' ∈ keyPaths steps, path ≠ path' → Apart path path'

theorem current_holds {d : Disk String UInt8} {path : String} {k : Bytes}
    (h : current d path = some k) : Holds d path k := by
  rcases Option.or_eq_some_iff.mp h with hp | ⟨-, hb⟩
  · exact .inl hp
  · exact .inr hb

theorem current_of_keyed {d : Disk String UInt8} {path : String} {key : MasterKey}
    (hpresent : Present d path) (hkey : KeyedBy d path key) : current d path = some key.1 := by
  unfold current
  cases hp : d path with
  | some x => simp [hkey x (.inl hp)]
  | none =>
    cases hb : d (backupPath path) with
    | some x => simp [hkey x (.inr hb)]
    | none => simp [Present, hp, hb] at hpresent

theorem KeyedBy.unique {d : Disk String UInt8} {path : String} {key key' : MasterKey}
    (h : KeyedBy d path key) (h' : KeyedBy d path key') (hpresent : Present d path) :
    key = key' := by
  obtain ⟨x, hx⟩ := hpresent.holds
  exact Subtype.ext ((h x hx).symm.trans (h' x hx))

theorem current_kept {d d' : Disk String UInt8} {path : String} {key : MasterKey}
    (hkey : KeyedBy d path key) (hkey' : KeyedBy d' path key)
    (hpresent : Present d path → Present d' path) {k : Bytes} (h : current d path = some k) :
    current d' path = some k := by
  have hk := hkey k (current_holds h)
  rw [hk]
  exact current_of_keyed (hpresent (current_holds h).present) hkey'

theorem SameFiles.current {d d' : Disk String UInt8} {path : String} (h : SameFiles d d' path) :
    Secrets.current d' path = Secrets.current d path := by
  rw [Secrets.current, Secrets.current, h.1, h.2]

/-- Every key file holds one key, and what is at a name is a value that a load may
return, under the key of the directory. -/
structure Consistent (gcm : Gcm) (keys names : List String) (m : Machine) : Prop where
  keyed : ∀ path ∈ keys, ∃ key, KeyedBy m.disk path key
  held : ∀ name ∈ names, ∀ x, Holds m.disk (secretPath name) x →
    Present m.disk localSecrets ∧ ∀ key, KeyedBy m.disk localSecrets key →
      ∃ v, some v ∈ m.values name ∧ SecretHeld gcm key v x
  missing : ∀ name ∈ names, ¬Present m.disk (secretPath name) → none ∈ m.values name

structure Separate (keys names : List String) : Prop where
  local_mem : localSecrets ∈ keys
  valid : ∀ name ∈ names, validName name = true
  keys_apart : ∀ path ∈ keys, ∀ path' ∈ keys, path ≠ path' → Apart path path'
  names_apart : ∀ name ∈ names, ∀ name' ∈ names, name ≠ name' →
    Apart (secretPath name) (secretPath name')
  apart : ∀ path ∈ keys, ∀ name ∈ names, Apart path (secretPath name)

section Steps
variable {gcm : Gcm} {keys names : List String} {m : Machine}

theorem Consistent.fresh : Consistent gcm keys names Machine.fresh where
  keyed path _ := ⟨⟨List.replicate masterKeyBytes 0, by simp⟩, fun x hx => by
    rcases hx with hx | hx <;> cases hx⟩
  held name _ x hx := by rcases hx with hx | hx <;> cases hx
  missing name _ _ := List.mem_singleton_self none

theorem Consistent.key (h : Consistent gcm keys names m) {path : String} (hpath : path ∈ keys)
    (fresh : MasterKey) :
    ∃ key, KeyedBy m.disk path key ∧ (¬Present m.disk path → key = fresh) := by
  by_cases hpresent : Present m.disk path
  · obtain ⟨key, hkey⟩ := h.keyed path hpath
    exact ⟨key, hkey, fun hnone => (hnone hpresent).elim⟩
  · exact ⟨fresh, fun x hx => (hpresent hx.present).elim, fun _ => rfl⟩

theorem Consistent.key_step (h : Consistent gcm keys names m) (hsep : Separate keys names)
    {path : String} (hpath : path ∈ keys) {d' : Disk String UInt8} {key : MasterKey}
    (hkey : KeyedBy m.disk path key) (hframe : OnlyFiles path m.disk d')
    (hkey' : KeyedBy d' path key) (hpresent : Present m.disk path → Present d' path) :
    Consistent gcm keys names ⟨d', m.values⟩ ∧
      ∀ p ∈ keys, ∀ k, current m.disk p = some k → current d' p = some k := by
  have hother : ∀ p ∈ keys, p ≠ path → SameFiles m.disk d' p := fun p hp hne =>
    hframe.same (hsep.keys_apart path hpath p hp (Ne.symm hne))
  have hlocal : Present m.disk localSecrets → Present d' localSecrets ∧
      ∀ k, KeyedBy d' localSecrets k → KeyedBy m.disk localSecrets k := by
    intro hthere
    by_cases hne : localSecrets = path
    · subst hne
      refine ⟨hpresent hthere, fun k hk => ?_⟩
      rw [hk.unique hkey' (hpresent hthere)]
      exact hkey
    · have hsame := hother _ hsep.local_mem hne
      exact ⟨hsame.present_iff.mpr hthere, fun k hk x hx => hk x ((hsame.holds_iff x).mpr hx)⟩
  refine ⟨⟨fun p hp => ?_, fun name hname x hx => ?_, fun name hname hnone => ?_⟩,
    fun p hp k hk => ?_⟩
  · by_cases hne : p = path
    · exact ⟨key, hne ▸ hkey'⟩
    · obtain ⟨k, hk⟩ := h.keyed p hp
      exact ⟨k, fun x hx => hk x (((hother p hp hne).holds_iff x).mp hx)⟩
  · have hsame := hframe.same (hsep.apart path hpath name hname)
    obtain ⟨hthere, hheld⟩ := h.held name hname x ((hsame.holds_iff x).mp hx)
    obtain ⟨hthere', hback⟩ := hlocal hthere
    exact ⟨hthere', fun k hk => hheld k (hback k hk)⟩
  · have hsame := hframe.same (hsep.apart path hpath name hname)
    exact h.missing name hname fun hp => hnone (hsame.present_iff.mpr hp)
  · by_cases hne : p = path
    · subst hne
      exact current_kept hkey hkey' hpresent hk
    · rw [(hother p hp hne).current, hk]

theorem held_afterStore {path : String} {key : MasterKey} {plaintext : Bytes}
    {d d' : Disk String UInt8} {values : List (Option Bytes)} {o : CallFinish} {c : Bool}
    {r : Option (Except SecureStoreError Unit)}
    (h : Stored gcm key plaintext path d c r d') (hr : o.result = r.map (Except.map fun _ => .stored))
    (hc : o.clean = c) (hnone : r = none → c = false)
    (hheld : ∀ x, Holds d path x → ∃ v, some v ∈ values ∧ SecretHeld gcm key v x)
    (hmissing : ¬Present d path → none ∈ values) :
    (∀ x, Holds d' path x → ∃ v, some v ∈ afterStore plaintext o values ∧
      SecretHeld gcm key v x) ∧
    (¬Present d' path → none ∈ afterStore plaintext o values) := by
  have hold : ¬Present d' path → none ∈ values := fun hno => hmissing fun hp => hno (h.there hp)
  unfold afterStore
  rw [hr, hc]
  cases r with
  | none =>
    obtain rfl := hnone rfl
    refine ⟨fun x hx => ?_, fun hno => List.mem_append_left _ (hold hno)⟩
    rcases h.held x hx with hx' | ⟨-, hnew, -⟩
    · obtain ⟨v, hv, hvx⟩ := hheld x hx'
      exact ⟨v, List.mem_append_left _ hv, hvx⟩
    · exact ⟨plaintext, by simp, hnew⟩
  | some r =>
    cases r with
    | error e =>
      cases c with
      | true =>
        have hsame := h.rejected e rfl rfl
        exact ⟨fun x hx => hheld x ((hsame.holds_iff x).mp hx), hold⟩
      | false =>
        refine ⟨fun x hx => ?_, fun hno => List.mem_append_left _ (hold hno)⟩
        rcases h.held x hx with hx' | ⟨-, hnew, -⟩
        · obtain ⟨v, hv, hvx⟩ := hheld x hx'
          exact ⟨v, List.mem_append_left _ hv, hvx⟩
        · exact ⟨plaintext, by simp [Except.map], hnew⟩
    | ok u =>
      obtain ⟨⟨x₀, hplace, hnew⟩, hgone⟩ := h.ok rfl
      have hthere : Present d' path := .inl (by simp [hplace])
      cases c with
      | true =>
        refine ⟨fun x hx => ⟨plaintext, by simp [Except.map], ?_⟩, fun hno => (hno hthere).elim⟩
        rcases hx with hx | hx
        · rw [hplace] at hx
          exact Option.some.inj hx ▸ hnew
        · rw [hgone rfl] at hx
          cases hx
      | false =>
        refine ⟨fun x hx => ?_, fun hno => (hno hthere).elim⟩
        rcases h.held x hx with hx' | ⟨-, hnew', -⟩
        · obtain ⟨v, hv, hvx⟩ := hheld x hx'
          exact ⟨v, by simp [Except.map, hv], hvx⟩
        · exact ⟨plaintext, by simp [Except.map], hnew'⟩

theorem Consistent.store_step (h : Consistent gcm keys names m) (hsep : Separate keys names)
    {name : String} (hname : name ∈ names) {plaintext : Bytes} {key : MasterKey}
    {d' : Disk String UInt8} {o : CallFinish} {c : Bool}
    {r : Option (Except SecureStoreError Unit)} (hkey : KeyedBy m.disk localSecrets key)
    (hst : Stored gcm key plaintext (secretPath name) m.disk c r d')
    (hr : o.result = r.map (Except.map fun _ => .stored)) (hc : o.clean = c)
    (hnone : r = none → c = false) :
    Consistent gcm keys names ⟨d', Function.update m.values name
      (afterStore plaintext o (m.values name))⟩ ∧
      ∀ p ∈ keys, ∀ k, current m.disk p = some k → current d' p = some k := by
  have hother : ∀ p ∈ keys, p ≠ localSecrets → SameFiles m.disk d' p := fun p hp hne =>
    have hsame : ∀ f ∈ filesOf p, d' f = m.disk f := fun f hf =>
      hst.frame f (hsep.keys_apart p hp _ hsep.local_mem hne f hf) (hsep.apart p hp name hname f hf)
    ⟨hsame _ (mem_files p).1, hsame _ (mem_files p).2.2⟩
  have hnames : ∀ n ∈ names, n ≠ name → SameFiles m.disk d' (secretPath n) := fun n hn hne =>
    have hsame : ∀ f ∈ filesOf (secretPath n), d' f = m.disk f := fun f hf =>
      hst.frame f ((hsep.apart _ hsep.local_mem n hn).symm f hf) (hsep.names_apart n hn name hname
        hne f hf)
    ⟨hsame _ (mem_files _).1, hsame _ (mem_files _).2.2⟩
  have hback : ∀ k, KeyedBy d' localSecrets k → Present d' localSecrets → k = key :=
    fun k hk hp => hk.unique hst.kept.keyed hp
  obtain ⟨hheld, hmissing⟩ := held_afterStore hst hr hc hnone
    (fun x hx => (h.held name hname x hx).2 key hkey) (h.missing name hname)
  refine ⟨⟨fun p hp => ?_, fun n hn x hx => ?_, fun n hn hno => ?_⟩, fun p hp k hk => ?_⟩
  · by_cases hne : p = localSecrets
    · exact ⟨key, hne ▸ hst.kept.keyed⟩
    · obtain ⟨k, hk⟩ := h.keyed p hp
      exact ⟨k, fun x hx => hk x (((hother p hp hne).holds_iff x).mp hx)⟩
  · by_cases hne : n = name
    · subst hne
      have hthere : Present d' localSecrets := by
        rcases hst.held x hx with hx' | ⟨-, -, hp⟩
        · exact hst.kept.present (h.held n hn x hx').1
        · exact hp
      refine ⟨hthere, fun k hk => ?_⟩
      rw [hback k hk hthere]
      simpa using hheld x hx
    · obtain ⟨hthere, hold⟩ := h.held n hn x (((hnames n hn hne).holds_iff x).mp hx)
      have hthere' := hst.kept.present hthere
      refine ⟨hthere', fun k hk => ?_⟩
      rw [hback k hk hthere']
      simpa [hne] using hold key hkey
  · by_cases hne : n = name
    · subst hne
      simpa using hmissing hno
    · have hno' : ¬Present m.disk (secretPath n) :=
        fun hp => hno ((hnames n hn hne).present_iff.mpr hp)
      simpa [hne] using h.missing n hn hno'
  · by_cases hne : p = localSecrets
    · subst hne
      exact current_kept hkey hst.kept.keyed hst.kept.present hk
    · rw [(hother p hp hne).current, hk]

theorem require_rejects {α : Type} {c : Prop} [Decidable c] (h : ¬c) {e : SecureStoreError}
    (p : Unit → Secure α) (fates : List Fate) (d : Disk String UInt8) :
    ((Script.require c e >>= p).exec fates d).disk = d ∧
      ((Script.require c e >>= p).exec fates d).events = [] := by
  rw [Script.require, if_neg h, Script.fail_bind]
  rcases fates with _ | ⟨_ | _ | _, fates⟩ <;> exact ⟨rfl, rfl⟩

theorem Consistent.store (hgcm : gcm.Lawful) (h : Consistent gcm keys names m)
    (hsep : Separate keys names) {name : String} (hname : name ∈ names) {plaintext : Bytes}
    {nonce : NonceBytes} {fresh : MasterKey} {fates : List Fate}
    (hspare : Spares gcm m (.store name plaintext nonce fresh, fates)) :
    Consistent gcm keys names (m.call gcm (.store name plaintext nonce fresh, fates)) ∧
      Survives gcm keys m (.store name plaintext nonce fresh, fates) := by
  obtain ⟨key, hkey, hfresh⟩ := h.key hsep.local_mem fresh
  have hspec : (Secrets.store gcm name plaintext nonce fresh).Ends _ m.disk _ :=
    store_spec hgcm (fun _ => hsep.apart _ hsep.local_mem name hname) hkey hfresh fun e he => he
  have hst := hspec.sound fates fun e he =>
      ⟨hspare e he _ (by simp [Call.paths]), hspare e he _ (by simp [Call.paths])⟩
  obtain ⟨hcons, hkept⟩ := h.store_step hsep hname hkey hst
    (o := Call.exec gcm (.store name plaintext nonce fresh) fates m.disk) rfl
    (Finish.clean_map _ _) fun hr => by simp [Finish.clean, hr]
  exact ⟨hcons, (by rintro _ _ ⟨⟩), (by rintro _ _ ⟨⟩), (by rintro _ _ ⟨⟩), hkept⟩

theorem Consistent.load (hgcm : gcm.Lawful) (h : Consistent gcm keys names m)
    (hsep : Separate keys names) {name : String} (hname : name ∈ names) {fresh : MasterKey}
    {fates : List Fate} (hspare : Spares gcm m (.load name fresh, fates)) :
    Consistent gcm keys names (m.call gcm (.load name fresh, fates)) ∧
      Survives gcm keys m (.load name fresh, fates) := by
  obtain ⟨key, hkey, hfresh⟩ := h.key hsep.local_mem fresh
  have hspec : (Secrets.load gcm name fresh).Ends _ m.disk
      (WithKey key m.disk fun v _ => v ∈ m.values name) :=
    load_spec hgcm (hsep.valid name hname) hkey hfresh
      (fun x hx => (h.held name hname x hx).2 key hkey) (h.missing name hname) fun e he => he
  have hload := hspec.sound fates fun e he =>
      ⟨hspare e he _ (by simp [Call.paths]), hspare e he _ (by simp [Call.paths])⟩
  obtain ⟨hcons, hkept⟩ := h.key_step hsep hsep.local_mem hkey hload.frame hload.kept.keyed
    hload.kept.present
  refine ⟨hcons, ?_, ?_, (by rintro _ _ ⟨⟩), hkept⟩
  · rintro _ _ ⟨⟩ _ a ha
    obtain ⟨r, hr, hmap⟩ := Option.map_eq_some_iff.mp ha
    cases r with
    | error e => cases hmap
    | ok v => exact ⟨v, hload.ok v hr, (Except.ok.inj hmap).symm⟩
  · rintro _ _ ⟨⟩ _ e he
    obtain ⟨r, hr, hmap⟩ := Option.map_eq_some_iff.mp he
    cases r with
    | error e' =>
      obtain rfl := Except.error.inj hmap
      rw [Call.exec, Finish.clean_map]
      exact hload.error _ hr
    | ok v => cases hmap

theorem Consistent.loadOrCreateKey (h : Consistent gcm keys names m)
    (hsep : Separate keys names) {path : String} (hpath : path ∈ keys) {fresh : MasterKey}
    {fates : List Fate} (hspare : Spares gcm m (.loadOrCreateKey path fresh, fates)) :
    Consistent gcm keys names (m.call gcm (.loadOrCreateKey path fresh, fates)) ∧
      Survives gcm keys m (.loadOrCreateKey path fresh, fates) := by
  obtain ⟨key, hkey, hfresh⟩ := h.key hpath fresh
  have htaken := (loadOrCreateKey_spec hkey hfresh (fun e he => he) ⟨rfl, rfl⟩).sound fates
    fun e he => hspare e he _ (by simp [Call.paths])
  obtain ⟨hcons, hkept⟩ := h.key_step hsep hpath hkey htaken.frame htaken.keyed htaken.present
  refine ⟨hcons, (by rintro _ _ ⟨⟩), (by rintro _ _ ⟨⟩), ?_, hkept⟩
  rintro _ _ ⟨⟩ k hk a ha
  obtain ⟨r, hr, hmap⟩ := Option.map_eq_some_iff.mp ha
  cases r with
  | error e => cases hmap
  | ok k' =>
    exact ⟨k', (Except.ok.inj hmap).symm, by rw [(htaken.ok k' hr).1, hkey k (current_holds hk)]⟩

theorem Consistent.rejected (h : Consistent gcm keys names m) (hsep : Separate keys names)
    {name : String} (hinvalid : ¬validName name = true) {values : List (Option Bytes)} :
    Consistent gcm keys names ⟨m.disk, Function.update m.values name values⟩ := by
  have hne : ∀ n ∈ names, n ≠ name := fun n hn heq => hinvalid (heq ▸ hsep.valid n hn)
  refine ⟨h.keyed, fun n hn x hx => ?_, fun n hn hno => ?_⟩
  · simpa [hne n hn] using h.held n hn x hx
  · simpa [hne n hn] using h.missing n hn hno

theorem Consistent.step (hgcm : gcm.Lawful) (h : Consistent gcm keys names m)
    (hsep : Separate keys names) (step : Call × List Fate)
    (hname : ∀ name ∈ step.1.name?, validName name = true → name ∈ names)
    (hkey : ∀ path ∈ step.1.keyPath?, path ∈ keys) (hspare : Spares gcm m step) :
    Consistent gcm keys names (m.call gcm step) ∧ Survives gcm keys m step := by
  obtain ⟨call, fates⟩ := step
  cases call with
  | store name plaintext nonce fresh =>
    by_cases hvalid : validName name = true
    · exact h.store hgcm hsep (hname name rfl hvalid) hspare
    · have hdisk : (Call.exec gcm (.store name plaintext nonce fresh) fates m.disk).disk = m.disk := by
        show ((Secrets.store gcm name plaintext nonce fresh).exec fates m.disk).disk = m.disk
        unfold Secrets.store
        exact (require_rejects hvalid _ fates m.disk).1
      refine ⟨?_, (by rintro _ _ ⟨⟩), (by rintro _ _ ⟨⟩), (by rintro _ _ ⟨⟩),
        fun p _ k hk => by rw [hdisk, hk]⟩
      simp only [Machine.call, hdisk]
      exact h.rejected hsep hvalid
  | load name fresh =>
    by_cases hvalid : validName name = true
    · exact h.load hgcm hsep (hname name rfl hvalid) hspare
    · have hdisk : (Call.exec gcm (.load name fresh) fates m.disk).disk = m.disk := by
        show ((Secrets.load gcm name fresh).exec fates m.disk).disk = m.disk
        unfold Secrets.load
        exact (require_rejects hvalid _ fates m.disk).1
      refine ⟨?_, ?_, ?_, (by rintro _ _ ⟨⟩), fun p _ k hk => by rw [hdisk, hk]⟩
      · simp only [Machine.call, hdisk]
        exact h
      · rintro _ _ ⟨⟩ hv
        exact absurd hv hvalid
      · rintro _ _ ⟨⟩ hv
        exact absurd hv hvalid
  | loadOrCreateKey path fresh => exact h.loadOrCreateKey hsep (hkey path rfl) hspare

end Steps

theorem separate_of_apart {steps : List (Call × List Fate)}
    (hnames : ∀ step ∈ steps, step.1.name? ≠ some "local-secrets") (hapart : KeysApart steps) :
    Separate (keyPaths steps) (validNames steps) where
  local_mem := List.mem_cons_self
  valid name hname := (List.mem_filter.mp hname).2
  keys_apart := hapart.2
  names_apart name hname name' hname' hne := by
    have hsome : ∀ n ∈ validNames steps, n ≠ "" := by
      rintro n hn rfl
      simpa [validName] using (List.mem_filter.mp hn).2
    exact apart_secretPath (hsome _ hname) (hsome _ hname') hne
  apart path hpath name hname := by
    obtain ⟨hmem, hvalid⟩ := List.mem_filter.mp hname
    obtain ⟨step, hstep, hn⟩ := List.mem_filterMap.mp hmem
    rcases List.mem_cons.mp hpath with rfl | hpath
    · refine apart_localSecrets ?_ ?_
      · rintro rfl
        simp [validName] at hvalid
      · rintro rfl
        exact hnames step hstep hn
    · obtain ⟨step', hstep', hp⟩ := List.mem_filterMap.mp hpath
      exact hapart.1 step' hstep' path hp name hname

theorem consistent_run {gcm : Gcm} (hgcm : gcm.Lawful) {keys names : List String}
    (hsep : Separate keys names) {m : Machine} (h : Consistent gcm keys names m)
    {steps : List (Call × List Fate)}
    (hname : ∀ step ∈ steps, ∀ name ∈ step.1.name?, validName name = true → name ∈ names)
    (hkey : ∀ step ∈ steps, ∀ path ∈ step.1.keyPath?, path ∈ keys)
    (hspare : SparesAll gcm m steps) :
    ∀ done step rest, steps = done ++ step :: rest → Survives gcm keys (m.run gcm done) step := by
  induction steps generalizing m with
  | nil => exact fun done step rest hsteps => by simp at hsteps
  | cons first steps ih =>
    obtain ⟨hnext, hfirst⟩ := h.step hgcm hsep first (hname first List.mem_cons_self)
      (hkey first List.mem_cons_self) hspare.1
    intro done step rest hsteps
    cases done with
    | nil =>
      obtain ⟨rfl, -⟩ := List.cons.inj hsteps
      exact hfirst
    | cons x done =>
      obtain ⟨rfl, htail⟩ := List.cons.inj hsteps
      exact ih hnext (fun s hs => hname s (List.mem_cons_of_mem _ hs))
        (fun s hs => hkey s (List.mem_cons_of_mem _ hs)) hspare.2 done step rest htail

/-- Secrets survive crashes and failing operations, as long as these spare the
only copy of a secret and no key shares a file with another secret. -/
theorem spared_secrets_survive {gcm : Gcm} (hgcm : gcm.Lawful) (steps : List (Call × List Fate))
    (hnames : ∀ step ∈ steps, step.1.name? ≠ some "local-secrets") (hapart : KeysApart steps)
    (hspare : SparesAll gcm Machine.fresh steps) :
    ∀ done step rest, steps = done ++ step :: rest →
      Survives gcm (keyPaths steps) (Machine.fresh.run gcm done) step := by
  refine consistent_run hgcm (separate_of_apart hnames hapart) .fresh ?_ ?_ hspare
  · intro step hstep name hname hvalid
    exact List.mem_filter.mpr ⟨List.mem_filterMap.mpr ⟨step, hstep, hname⟩, hvalid⟩
  · intro step hstep path hpath
    exact List.mem_cons_of_mem _ (List.mem_filterMap.mpr ⟨step, hstep, hpath⟩)

def sampleGcm : Gcm where
  encrypt _ _ plain := some (plain ++ List.replicate 16 0)
  decrypt _ _ sealed := some (sealed.take (sealed.length-16))

theorem sampleGcm_lawful : sampleGcm.Lawful := by
  intro _ _ plain _
  exact ⟨_, rfl, by simp, by simp [sampleGcm]⟩

def sampleKey : MasterKey := ⟨List.replicate 32 7, by decide⟩

def sampleStore (value : UInt8) : Call :=
  .store "session" [value] ⟨List.replicate 12 1, by decide⟩ sampleKey

def sampleSteps : List (Call × List Fate) :=
  [(sampleStore 1, []), (sampleStore 2, List.replicate 11 .fine ++ [.crash 0]),
    (.load "session" sampleKey, []), (sampleStore 3, []),
    (.loadOrCreateKey localSecrets sampleKey, [.fails 0])]

theorem spared_secrets_survive_sample :
    ((Call.load "session" sampleKey).exec sampleGcm []
      (Machine.fresh.run sampleGcm (sampleSteps.take 2)).disk).result =
        some (.ok (.loaded (some [1]))) ∧
    Survives sampleGcm (keyPaths sampleSteps) (Machine.fresh.run sampleGcm (sampleSteps.take 2))
      (.load "session" sampleKey, []) := by
  refine ⟨by decide, ?_⟩
  have hapart : KeysApart sampleSteps := by
    unfold KeysApart
    decide
  exact spared_secrets_survive sampleGcm_lawful sampleSteps (by decide) hapart (by decide)
    (sampleSteps.take 2) _ (sampleSteps.drop 3) rfl

def cutOffSteps : List (Call × List Fate) :=
  sampleSteps.take 2 ++ [(sampleStore 3, List.replicate 9 .fine ++ [.crash 0])]

/-- The value that was stored without any trouble is gone, and so are both others. -/
theorem cut_off_recovery_loses_secret :
    sampleGcm.Lawful ∧
    (∀ step ∈ cutOffSteps ++ [(.load "session" sampleKey, [])],
      step.1.name? ≠ some "local-secrets") ∧
    KeysApart (cutOffSteps ++ [(.load "session" sampleKey, [])]) ∧
    ¬∀ done step rest, cutOffSteps ++ [(.load "session" sampleKey, [])] = done ++ step :: rest →
      Survives sampleGcm (keyPaths (cutOffSteps ++ [(.load "session" sampleKey, [])]))
        (Machine.fresh.run sampleGcm done) step := by
  refine ⟨sampleGcm_lawful, by decide, by unfold KeysApart; decide, fun h => ?_⟩
  obtain ⟨v, hv, ha⟩ := (h cutOffSteps (.load "session" sampleKey, []) [] rfl).load_ok "session"
    sampleKey rfl (by decide) (.loaded none) (by decide)
  cases ha
  revert hv
  decide

end Cinder.Secrets
