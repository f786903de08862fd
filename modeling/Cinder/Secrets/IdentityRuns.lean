import Mathlib.Data.List.Induction
import Cinder.Secrets.HostIdentity
set_option autoImplicit false

/-!
The identity after calls that were interrupted and keys that were lost: the next call
finds a pair that fits or makes one, unless a key was left beside a certificate that is
not its own.
-/

namespace Cinder.Secrets
open Cinder.Host Cinder.Programs Cinder.Storage

structure Sound (gcm : Gcm) (d : Disk String UInt8) : Prop where
  unbacked : d (backupPath localSecrets) = none
  keyed : ∃ key, KeyedBy d localSecrets key
  held : ∀ x, Holds d keyPath x → Present d localSecrets ∧
    ∀ key, KeyedBy d localSecrets key → ∃ plaintext, SecretHeld gcm key plaintext x

def StoredKey (gcm : Gcm) (d : Disk String UInt8) (plaintext : Bytes) : Prop :=
  ∃ x key, current d keyPath = some x ∧ KeyedBy d localSecrets key ∧
    SecretHeld gcm key plaintext x

def Fitting (gcm : Gcm) (accepts : Bytes → Bytes → Bool) (d : Disk String UInt8) : Prop :=
  ∀ cert key, d certFile = some cert → StoredKey gcm d key → accepts cert key = true

/-- Nothing that a call looks for is missed: its reads do not fail. -/
structure Looks (gcm : Gcm) (call : IdentityCall) (d : Disk String UInt8) : Prop where
  loading : ∀ e ∈ ((load gcm keySecret call.freshAtLoad).exec call.loading d).events, Sees e
  reading : ∀ n rest, call.reading ≠ .fails n :: rest
  storing : ∀ pair, call.generated = some pair →
    ∀ e ∈ ((store gcm keySecret pair.key call.nonce call.freshAtStore).exec call.storing
      (findIdentity gcm call d).2).events, Sees e

def storeFinish (gcm : Gcm) (call : IdentityCall) (pair : CertAndKey) (d : Disk String UInt8) :
    Finish String UInt8 SecureStoreError Unit :=
  (store gcm keySecret pair.key call.nonce call.freshAtStore).exec call.storing d

/-- The making of an identity is interrupted with the new key in its place: beside an
older certificate, or while its own is being written. -/
def CutsCreation (gcm : Gcm) (call : IdentityCall) (d : Disk String UInt8) : Prop :=
  ∃ pair, call.generated = some pair ∧
    ((storeFinish gcm call pair d).result ≠ some (.ok ()) ∧ d certFile ≠ none ∧
        Present (storeFinish gcm call pair d).disk keyPath ∨
      (storeFinish gcm call pair d).result = some (.ok ()) ∧ ∃ n rest, n < pair.cert.length ∧
        (call.writing = .fails n :: rest ∨ call.writing = .crash n :: rest))

def CutOff (gcm : Gcm) (call : IdentityCall) (d : Disk String UInt8) : Prop :=
  ∃ found, (findIdentity gcm call d).1 = .ok found ∧ (found.1 = none ∨ found.2 = none) ∧
    CutsCreation gcm call (findIdentity gcm call d).2

def IdentityCall.Generates (accepts : Bytes → Bytes → Bool) (call : IdentityCall) : Prop :=
  ∀ pair, call.generated = some pair → accepts pair.cert pair.key = true ∧
    pair.key.length ≤ maxSecretBytes

section Places

theorem validName_keySecret : validName keySecret = true := by decide

theorem apart_key : Apart localSecrets keyPath := by decide

theorem certFile_apart : certFile ∉ filesOf localSecrets ∧ certFile ∉ filesOf keyPath := by decide

end Places

section Frames
variable {gcm : Gcm} {accepts : Bytes → Bytes → Bool} {d d' : Disk String UInt8}

theorem Sound.key (h : Sound gcm d) (fresh : MasterKey) :
    ∃ key, KeyedBy d localSecrets key ∧ (¬Present d localSecrets → key = fresh) := by
  by_cases hpresent : Present d localSecrets
  · obtain ⟨key, hkey⟩ := h.keyed
    exact ⟨key, hkey, fun hnone => (hnone hpresent).elim⟩
  · exact ⟨fresh, fun x hx => (hpresent hx.present).elim, fun _ => rfl⟩

/-- The identity is not touched, nor the key that the private key is kept under. -/
structure SameIdentity (d d' : Disk String UInt8) : Prop where
  cert : d' certFile = d certFile
  files : SameFiles d d' keyPath
  unbacked : d' (backupPath localSecrets) = none
  kept : ∃ key, KeyedBy d localSecrets key ∧ KeyKept key d d'

theorem SameIdentity.sound (h : SameIdentity d d') (hsound : Sound gcm d) : Sound gcm d' := by
  obtain ⟨key, hkey, hkept⟩ := h.kept
  refine ⟨h.unbacked, ⟨key, hkept.keyed⟩, fun x hx => ?_⟩
  obtain ⟨hpresent, hheld⟩ := hsound.held x ((h.files.holds_iff x).mp hx)
  refine ⟨hkept.present hpresent, fun key' hkey' => ?_⟩
  obtain rfl := hkey'.unique hkept.keyed (hkept.present hpresent)
  exact hheld _ hkey

theorem SameIdentity.storedKey (h : SameIdentity d d') (hsound : Sound gcm d) (plaintext : Bytes) :
    StoredKey gcm d' plaintext ↔ StoredKey gcm d plaintext := by
  obtain ⟨key, hkey, hkept⟩ := h.kept
  have hpresent : ∀ x, current d keyPath = some x → Present d localSecrets := fun x hx =>
    (hsound.held x (current_holds hx)).1
  constructor
  · rintro ⟨x, key', hx, hkey', hplain⟩
    rw [h.files.current] at hx
    obtain rfl := hkey'.unique hkept.keyed (hkept.present (hpresent x hx))
    exact ⟨x, _, hx, hkey, hplain⟩
  · rintro ⟨x, key', hx, hkey', hplain⟩
    obtain rfl := hkey'.unique hkey (hpresent x hx)
    exact ⟨x, _, h.files.current.trans hx, hkept.keyed, hplain⟩

theorem SameIdentity.fitting (h : SameIdentity d d') (hsound : Sound gcm d)
    (hfit : Fitting gcm accepts d) : Fitting gcm accepts d' := by
  intro cert key hcert hkey
  exact hfit cert key (h.cert.symm.trans hcert) ((h.storedKey hsound key).mp hkey)

theorem fitting_of_not_present (h : ¬Present d keyPath) : Fitting gcm accepts d := by
  rintro cert key - ⟨x, _, hx, -⟩
  exact absurd (current_holds hx).present h

theorem fitting_of_no_cert (h : d certFile = none) : Fitting gcm accepts d := by
  intro cert key hcert
  rw [h] at hcert
  cases hcert

theorem Sound.storedKey (h : Sound gcm d) (hpresent : Present d keyPath) :
    ∃ plaintext, StoredKey gcm d plaintext := by
  obtain ⟨key, hkey⟩ := h.keyed
  obtain ⟨x, hx⟩ : ∃ x, current d keyPath = some x := by
    refine Option.ne_none_iff_exists'.mp fun hnone => ?_
    obtain ⟨hp, hb⟩ := Option.or_eq_none_iff.mp hnone
    exact hpresent.elim (fun h => h hp) fun h => h hb
  obtain ⟨plaintext, hplain⟩ := (h.held x (current_holds hx)).2 key hkey
  exact ⟨plaintext, x, key, hx, hkey, hplain⟩

theorem forgetKey_gone (d : Disk String UInt8) : ¬Present (forgetKey d) keyPath := by
  have hplace : forgetKey d keyPath = none :=
    (Disk.set_of_ne (backupPath_ne keyPath).symm).trans (Disk.set_self _ _ _)
  have hbackup : forgetKey d (backupPath keyPath) = none := Disk.set_self _ _ _
  exact fun h => h.elim (fun h => h hplace) fun h => h hbackup

theorem forgetKey_sound (h : Sound gcm d) : Sound gcm (forgetKey d) := by
  have hlocal : ∀ f ∈ filesOf localSecrets, forgetKey d f = d f := by
    intro f hf
    have hapart : f ∉ filesOf keyPath := apart_key f hf
    have hplace : f ≠ keyPath := fun heq => hapart (heq.symm ▸ (mem_files keyPath).1)
    have hbackup : f ≠ backupPath keyPath := fun heq => hapart (heq.symm ▸ (mem_files keyPath).2.2)
    exact (Disk.set_of_ne hbackup).trans (Disk.set_of_ne hplace)
  have hsame : SameFiles d (forgetKey d) localSecrets :=
    ⟨hlocal _ (mem_files _).1, hlocal _ (mem_files _).2.2⟩
  obtain ⟨key, hkey⟩ := h.keyed
  exact ⟨hsame.2.trans h.unbacked, ⟨key, fun x hx => hkey x ((hsame.holds_iff x).mp hx)⟩,
    fun x hx => absurd hx.present (forgetKey_gone d)⟩

end Frames

section Calls
variable {gcm : Gcm} {accepts : Bytes → Bytes → Bool} {call : IdentityCall}
  {d d' : Disk String UInt8}

theorem runScript_cases {ε α : Type} {onError : ε → IdentityError} {p : Script String UInt8 ε α}
    {fates : List Fate} {r : Except Stopped α} (h : runScript onError p fates d = (r, d')) :
    d' = (p.exec fates d).disk ∧
      ((∃ a, r = .ok a ∧ (p.exec fates d).result = some (.ok a)) ∨
        ∃ e, r = .error e ∧ ∀ a, (p.exec fates d).result ≠ some (.ok a)) := by
  unfold runScript at h
  obtain ⟨hr, hd⟩ := Prod.mk.inj h
  refine ⟨hd.symm, ?_⟩
  rcases hresult : (p.exec fates d).result with _ | e | a <;> rw [hresult] at hr
  · exact .inr ⟨_, hr.symm, by simp⟩
  · exact .inr ⟨_, hr.symm, by simp⟩
  · exact .inl ⟨a, hr.symm, rfl⟩

structure Found (gcm : Gcm) (d : Disk String UInt8) (found : Option Bytes × Option Bytes) :
    Prop where
  cert : found.1 = d certFile
  key : ∀ plaintext, StoredKey gcm d plaintext → found.2 = some plaintext
  missing : found.2 = none → ¬Present d keyPath
  stored : ∀ plaintext, found.2 = some plaintext → StoredKey gcm d plaintext

theorem SameIdentity.refl (h : Sound gcm d) : SameIdentity d d := by
  obtain ⟨key, hkey⟩ := h.keyed
  exact ⟨rfl, ⟨rfl, rfl⟩, h.unbacked, key, hkey, .refl hkey⟩

theorem createDirAll_exec (fates : List Fate) (d : Disk String UInt8) :
    ((Script.act .createDirAll id : Script String UInt8 IoError Unit).exec fates d).disk = d := by
  rcases fates with _ | ⟨_ | _ | _, _ | ⟨_ | _ | _, _⟩⟩ <;> rfl

theorem readCert_exec {fates : List Fate} (hreads : ∀ n rest, fates ≠ .fails n :: rest)
    (d : Disk String UInt8) :
    let o := (Script.attempt (.read certFile) :
      Script String UInt8 IoError (Except IoError Bytes)).exec fates d
    o.disk = d ∧ ∀ a, o.result = some (.ok a) → a.toOption = d certFile := by
  have hread : (FileOp.perform d (.read certFile)).1.toOption = d certFile := by
    rw [FileOp.perform]
    cases d certFile <;> rfl
  rcases fates with _ | ⟨_ | n | n, rest⟩
  · refine ⟨rfl, fun a ha => ?_⟩
    rw [← hread, ← Except.ok.inj (Option.some.inj ha)]
  · refine ⟨by rcases rest with _ | ⟨_ | _ | _, _⟩ <;> rfl, fun a ha => ?_⟩
    rcases rest with _ | ⟨_ | _ | _, _⟩ <;> cases ha <;> exact hread
  · exact absurd rfl (hreads n rest)
  · exact ⟨rfl, fun a ha => by cases ha⟩

attribute [local irreducible] Script.Ends in
theorem load_finish (hgcm : gcm.Lawful) (hsound : Sound gcm d) (hlooks : Looks gcm call d) :
    let o := (load gcm keySecret call.freshAtLoad).exec call.loading d
    ∃ key, KeyedBy d localSecrets key ∧ LoadedFrom gcm key keyPath d o.clean o.result o.disk := by
  obtain ⟨key, hkey, hfresh⟩ := hsound.key call.freshAtLoad
  have hheld : ∀ x, current d keyPath = some x → ∃ plaintext, SecretHeld gcm key plaintext x :=
    fun x hx => (hsound.held x (current_holds hx)).2 key hkey
  have hends : (load gcm keySecret call.freshAtLoad).Ends Sees d (LoadedFrom gcm key keyPath d) :=
    load_sees hgcm (fun _ => id) validName_keySecret hkey hfresh hsound.unbacked hheld
  exact ⟨key, hkey, hends.sound call.loading hlooks.loading⟩

theorem findIdentity_cases (hgcm : gcm.Lawful) (hsound : Sound gcm d) (hlooks : Looks gcm call d)
    {r : Except Stopped (Option Bytes × Option Bytes)} (h : findIdentity gcm call d = (r, d')) :
    SameIdentity d d' ∧ ∀ found, r = .ok found → Found gcm d found := by
  rcases hdir : runScript .io (Script.act .createDirAll id : Script String UInt8 IoError Unit)
    call.directory d with ⟨r₀, d₀⟩
  obtain ⟨hd₀, hr₀⟩ := runScript_cases hdir
  rw [createDirAll_exec] at hd₀
  subst hd₀
  rcases hr₀ with ⟨_, rfl, -⟩ | ⟨e, rfl, -⟩
  case inr =>
    rw [findIdentity, Command.bind_error hdir] at h
    cases h
    exact ⟨.refl hsound, fun _ hok => by cases hok⟩
  rw [findIdentity, Command.bind_ok hdir] at h
  obtain ⟨key, hkey, hloaded⟩ := load_finish hgcm hsound hlooks
  have hsame : SameIdentity d₀ ((load gcm keySecret call.freshAtLoad).exec call.loading d₀).disk :=
    ⟨hloaded.frame _ certFile_apart.1, hloaded.frame.same apart_key, hloaded.unbacked, key, hkey,
      hloaded.kept⟩
  rcases hload : runScript .store (load gcm keySecret call.freshAtLoad) call.loading d₀ with
    ⟨r₁, d₁⟩
  obtain ⟨rfl, ⟨v, rfl, hv⟩ | ⟨e, rfl, -⟩⟩ := runScript_cases hload
  case inr =>
    rw [Command.bind_error hload] at h
    cases h
    exact ⟨hsame, fun _ hok => by cases hok⟩
  rw [Command.bind_ok hload] at h
  generalize ((load gcm keySecret call.freshAtLoad).exec call.loading d₀).disk = d₁ at *
  rcases hcert : runScript .io (Script.attempt (.read certFile) :
    Script String UInt8 IoError (Except IoError Bytes)) call.reading d₁ with ⟨r₂, d₂⟩
  obtain ⟨hdisk, hread⟩ := readCert_exec hlooks.reading d₁
  obtain ⟨rfl, ⟨a, rfl, ha⟩ | ⟨e, rfl, -⟩⟩ := runScript_cases hcert
  case inr =>
    rw [Command.bind_error hcert] at h
    cases h
    exact ⟨by rw [hdisk]; exact hsame, fun _ hok => by cases hok⟩
  rw [Command.bind_ok hcert] at h
  cases h
  refine ⟨by rw [hdisk]; exact hsame, fun found hfound => ?_⟩
  obtain rfl := Except.ok.inj hfound
  have hmissing : ¬Present d₀ keyPath → v = none := fun hnone => hloaded.missing v hv <|
    Option.or_eq_none_iff.mpr ⟨by_contra fun h => hnone (.inl h), by_contra fun h => hnone (.inr h)⟩
  have hkeys : ∀ plaintext, StoredKey gcm d₀ plaintext → v = some plaintext := by
    rintro plaintext ⟨x, key', hx, hkey', hplain⟩
    obtain rfl := hkey'.unique hkey (hsound.held x (current_holds hx)).1
    exact hloaded.found v plaintext x hv hx hplain
  refine ⟨(hread a ha).trans hsame.cert, hkeys, fun hnone hpresent => ?_, fun plaintext hsome => ?_⟩
  · obtain ⟨plaintext, hstored⟩ := hsound.storedKey hpresent
    rw [hkeys plaintext hstored] at hnone
    cases hnone
  · by_cases hpresent : Present d₀ keyPath
    · obtain ⟨plaintext', hstored⟩ := hsound.storedKey hpresent
      have hsame := (hkeys plaintext' hstored).symm.trans hsome
      obtain rfl := Option.some.inj hsame
      exact hstored
    · rw [hmissing hpresent] at hsome
      cases hsome

theorem writeCert_exec (contents : Bytes) (fates : List Fate) (d : Disk String UInt8) :
    let o := (Script.act (.writeAll certFile contents) id :
      Script String UInt8 IoError Unit).exec fates d
    (∃ n rest, (fates = .fails n :: rest ∨ fates = .crash n :: rest) ∧
      (∀ a, o.result ≠ some (.ok a)) ∧ o.disk = d.set certFile (some (contents.take n))) ∨
    (o.disk = d.set certFile (some contents) ∧ (fates = [] → o.result = some (.ok ()))) := by
  rcases fates with _ | ⟨_ | n | n, rest⟩
  · exact .inr ⟨rfl, fun _ => rfl⟩
  · refine .inr ⟨by rcases rest with _ | ⟨_ | _ | _, _⟩ <;> rfl, fun h => by cases h⟩
  · refine .inl ⟨n, rest, .inl rfl, fun a ha => ?_, ?_⟩
    · rcases rest with _ | ⟨_ | _ | _, _⟩ <;> cases ha
    · rcases rest with _ | ⟨_ | _ | _, _⟩ <;> rfl
  · exact .inl ⟨n, rest, .inr rfl, fun a ha => (by cases ha), rfl⟩

/-- How the making of an identity may end: the store of the key is all, or the certificate
has been begun. -/
theorem storeIdentity_cases {pair : CertAndKey} {r : Except Stopped CertAndKey}
    (h : storeIdentity gcm call pair d = (r, d')) :
    let o := (store gcm keySecret pair.key call.nonce call.freshAtStore).exec call.storing d
    (o.result ≠ some (.ok ()) ∧ (∃ e, r = .error e) ∧ d' = o.disk) ∨
    (o.result = some (.ok ()) ∧
      ((∃ n rest, (call.writing = .fails n :: rest ∨ call.writing = .crash n :: rest) ∧
          (∃ e, r = .error e) ∧ d' = o.disk.set certFile (some (pair.cert.take n))) ∨
        (d' = o.disk.set certFile (some pair.cert) ∧ (call.writing = [] → r = .ok pair) ∧
          ∀ a, r = .ok a → a = pair))) := by
  intro o
  rw [storeIdentity] at h
  rcases hstore : runScript .store (store gcm keySecret pair.key call.nonce call.freshAtStore)
    call.storing d with ⟨r₁, d₁⟩
  obtain ⟨rfl, ⟨_, rfl, hok⟩ | ⟨e, rfl, hbad⟩⟩ := runScript_cases hstore
  case inr =>
    rw [Command.bind_error hstore] at h
    cases h
    exact .inl ⟨hbad (), ⟨e, rfl⟩, rfl⟩
  refine .inr ⟨hok, ?_⟩
  rw [Command.bind_ok hstore] at h
  rcases hwrite : runScript .io (Script.act (.writeAll certFile pair.cert) id :
    Script String UInt8 IoError Unit) call.writing o.disk with ⟨r₂, d₂⟩
  have hend := writeCert_exec pair.cert call.writing o.disk
  obtain ⟨rfl, hr₂⟩ := runScript_cases hwrite
  rcases hr₂ with ⟨_, rfl, hwritten⟩ | ⟨e, rfl, hbad⟩
  · rw [Command.bind_ok hwrite] at h
    cases h
    rcases hend with ⟨n, rest, -, hnot, -⟩ | ⟨hdisk, -⟩
    · exact absurd hwritten (hnot _)
    · exact .inr ⟨hdisk, fun _ => rfl, fun a ha => (Except.ok.inj ha).symm⟩
  · rw [Command.bind_error hwrite] at h
    cases h
    rcases hend with ⟨n, rest, hfates, -, hdisk⟩ | ⟨hdisk, hgood⟩
    · exact .inl ⟨n, rest, hfates, ⟨e, rfl⟩, hdisk⟩
    · exact .inr ⟨hdisk, fun hnil => absurd (hgood hnil) (hbad _), fun a ha => by cases ha⟩

theorem setCert_same (h : Sound gcm d) (x : Option Bytes) :
    Sound gcm (d.set certFile x) ∧
      ∀ plaintext, StoredKey gcm (d.set certFile x) plaintext ↔ StoredKey gcm d plaintext := by
  have hother : ∀ f, f ≠ certFile → d.set certFile x f = d f := fun f hf => Disk.set_of_ne hf
  have hlocal : SameFiles d (d.set certFile x) localSecrets :=
    ⟨hother _ (by decide), hother _ (by decide)⟩
  have hkeys : SameFiles d (d.set certFile x) keyPath :=
    ⟨hother _ (by decide), hother _ (by decide)⟩
  have hkeyed : ∀ key, KeyedBy (d.set certFile x) localSecrets key ↔ KeyedBy d localSecrets key :=
    fun key => forall_congr' fun y => by rw [hlocal.holds_iff]
  refine ⟨⟨hlocal.2.trans h.unbacked, ?_, fun y hy => ?_⟩, fun plaintext => ?_⟩
  · obtain ⟨key, hkey⟩ := h.keyed
    exact ⟨key, (hkeyed key).mpr hkey⟩
  · obtain ⟨hpresent, hheld⟩ := h.held y ((hkeys.holds_iff y).mp hy)
    exact ⟨hlocal.present_iff.mpr hpresent, fun key hkey => hheld key ((hkeyed key).mp hkey)⟩
  · simp only [StoredKey, hkeys.current, hkeyed]

attribute [local irreducible] Script.Ends in
/-- A store of a key, however it goes: the secret store stays sound, and a store that
returns has stored the key. -/
theorem storeKey_sound (hgcm : gcm.Lawful) (hsound : Sound gcm d) {pair : CertAndKey}
    (hlen : pair.key.length ≤ maxSecretBytes)
    (hsees : ∀ e ∈ ((store gcm keySecret pair.key call.nonce call.freshAtStore).exec call.storing
      d).events, Sees e) :
    let o := (store gcm keySecret pair.key call.nonce call.freshAtStore).exec call.storing d
    Sound gcm o.disk ∧ o.disk certFile = d certFile ∧
      (o.result = some (.ok ()) → ∀ plaintext, StoredKey gcm o.disk plaintext ↔
        plaintext = pair.key) ∧ ∀ e, o.result = some (.error e) → o.clean = false := by
  intro o
  obtain ⟨key, hkey, hfresh⟩ := hsound.key call.freshAtStore
  have hends : (store gcm keySecret pair.key call.nonce call.freshAtStore).Ends Sees d
      (StoredOver gcm key pair.key keyPath d) :=
    store_over hgcm (fun _ => id) validName_keySecret hlen apart_key hkey hfresh hsound.unbacked
  have hstored : StoredOver gcm key pair.key keyPath d o.clean o.result o.disk :=
    hends.sound call.storing hsees
  have hheld : ∀ x, Holds o.disk keyPath x → Present o.disk localSecrets ∧
      ∃ plaintext, SecretHeld gcm key plaintext x := by
    intro x hx
    rcases hstored.held x hx with hold | ⟨hnew, hpresent⟩
    · obtain ⟨hpresent, hplain⟩ := hsound.held x hold
      exact ⟨hstored.kept.present hpresent, hplain key hkey⟩
    · exact ⟨hpresent, _, hnew⟩
  refine ⟨⟨hstored.unbacked, ⟨key, hstored.kept.keyed⟩, fun x hx => ?_⟩,
    hstored.frame _ certFile_apart.1 certFile_apart.2, fun hok plaintext => ?_, hstored.error⟩
  · obtain ⟨hpresent, hplain⟩ := hheld x hx
    refine ⟨hpresent, fun key' hkey' => ?_⟩
    obtain rfl := hkey'.unique hstored.kept.keyed hpresent
    exact hplain
  · obtain ⟨x, hplace, hnew⟩ := hstored.ok hok
    have hcurrent : current o.disk keyPath = some x := by rw [current, hplace, Option.some_or]
    constructor
    · rintro ⟨y, key', hy, hkey', hplain⟩
      obtain rfl := Option.some.inj (hcurrent.symm.trans hy)
      obtain rfl := hkey'.unique hstored.kept.keyed (hheld x (.inl hplace)).1
      exact hplain.unique hgcm hnew
    · rintro rfl
      exact ⟨x, key, hcurrent, hstored.kept.keyed, hnew⟩

def PairStored (gcm : Gcm) (accepts : Bytes → Bytes → Bool) (d : Disk String UInt8)
    (pair : CertAndKey) : Prop :=
  d certFile = some pair.cert ∧ StoredKey gcm d pair.key ∧ accepts pair.cert pair.key = true

theorem loadOrCreateIdentity_disk :
    (loadOrCreateIdentity gcm accepts call d).2 =
      ((findIdentity gcm call >>= identityFor gcm call) d).2 := by
  have hfrom : ∀ pair : CertAndKey, (identityFrom accepts pair.cert pair.key).Keeps id :=
    fun _ => .bind (.require _ _) fun _ => .pure _
  rw [loadOrCreateIdentity, ← Command.bind_assoc]
  exact Command.Keeps.after hfrom _ d

theorem createIdentity_leaves (hgcm : gcm.Lawful) (hsound : Sound gcm d)
    (hgenerates : call.Generates accepts)
    (hsees : ∀ pair, call.generated = some pair →
      ∀ e ∈ (storeFinish gcm call pair d).events, Sees e)
    (hmissing : d certFile = none ∨ ¬Present d keyPath) :
    Sound gcm (createIdentity gcm call d).2 ∧
      (¬CutsCreation gcm call d → Fitting gcm accepts (createIdentity gcm call d).2) := by
  unfold createIdentity
  cases hpair : call.generated with
  | none => exact ⟨hsound, fun _ => hmissing.elim fitting_of_no_cert fitting_of_not_present⟩
  | some pair =>
    obtain ⟨haccepts, hlen⟩ := hgenerates pair hpair
    obtain ⟨hstored, hcert, hkeys, -⟩ := storeKey_sound hgcm hsound hlen (hsees pair hpair)
    have hwhole : Fitting gcm accepts
        ((storeFinish gcm call pair d).disk.set certFile (some pair.cert)) ∨
        (storeFinish gcm call pair d).result ≠ some (.ok ()) := by
      by_cases hok : (storeFinish gcm call pair d).result = some (.ok ())
      · refine .inl fun cert key hcert hkey => ?_
        rw [Disk.set_self] at hcert
        obtain rfl := Option.some.inj hcert
        obtain rfl := (hkeys hok key).mp (((setCert_same hstored _).2 key).mp hkey)
        exact haccepts
      · exact .inr hok
    show Sound gcm (storeIdentity gcm call pair d).2 ∧ (¬CutsCreation gcm call d →
      Fitting gcm accepts (storeIdentity gcm call pair d).2)
    rcases hrun : storeIdentity gcm call pair d with ⟨r, d'⟩
    rcases storeIdentity_cases hrun with ⟨hbad, -, rfl⟩ | ⟨hok, ⟨n, rest, hfates, -, rfl⟩ | ⟨rfl, -⟩⟩
    · refine ⟨hstored, fun hwholly => ?_⟩
      by_cases hnone : d certFile = none
      · exact fitting_of_no_cert (hcert.trans hnone)
      · exact fitting_of_not_present fun hpresent =>
          hwholly ⟨pair, hpair, .inl ⟨hbad, hnone, hpresent⟩⟩
    · refine ⟨(setCert_same hstored _).1, fun hwholly => ?_⟩
      have hlong : pair.cert.length ≤ n := by
        by_contra hshort
        exact hwholly ⟨pair, hpair, .inr ⟨hok, n, rest, Nat.lt_of_not_le hshort, hfates⟩⟩
      rw [List.take_of_length_le hlong]
      exact hwhole.resolve_right fun hno => hno hok
    · exact ⟨(setCert_same hstored _).1, fun _ => hwhole.resolve_right fun hno => hno hok⟩

/-- What a call leaves: unless it is cut off, everything still fits, and a complete pair
stays in any case. -/
theorem call_leaves (hgcm : gcm.Lawful) (hsound : Sound gcm d) (hlooks : Looks gcm call d)
    (hgenerates : call.Generates accepts) :
    Sound gcm (loadOrCreateIdentity gcm accepts call d).2 ∧
    (Fitting gcm accepts d → ¬CutOff gcm call d →
      Fitting gcm accepts (loadOrCreateIdentity gcm accepts call d).2) ∧
    ∀ pair, PairStored gcm accepts d pair →
      PairStored gcm accepts (loadOrCreateIdentity gcm accepts call d).2 pair := by
  rw [loadOrCreateIdentity_disk]
  rcases hfind : findIdentity gcm call d with ⟨r, d₁⟩
  obtain ⟨hsame, hfound⟩ := findIdentity_cases hgcm hsound hlooks hfind
  have hkept : Sound gcm d₁ ∧ (Fitting gcm accepts d → Fitting gcm accepts d₁) ∧
      ∀ pair, PairStored gcm accepts d pair → PairStored gcm accepts d₁ pair :=
    ⟨hsame.sound hsound, hsame.fitting hsound, fun pair h =>
      ⟨hsame.cert.trans h.1, (hsame.storedKey hsound _).mpr h.2.1, h.2.2⟩⟩
  have hstays : Sound gcm d₁ ∧ (Fitting gcm accepts d → ¬CutOff gcm call d →
      Fitting gcm accepts d₁) ∧
      ∀ pair, PairStored gcm accepts d pair → PairStored gcm accepts d₁ pair :=
    ⟨hkept.1, fun h _ => hkept.2.1 h, hkept.2.2⟩
  rcases r with e | found
  · rw [Command.bind_error hfind]
    exact hstays
  rw [Command.bind_ok hfind]
  have hfound := hfound found rfl
  by_cases hboth : d certFile = none ∨ ¬Present d keyPath
  · -- The call makes an identity, since one of the two is missing.
    have hnone : found.1 = none ∨ found.2 = none := by
      refine hboth.imp hfound.cert.trans fun hgone => ?_
      rcases hkey : found.2 with _ | key
      · rfl
      · obtain ⟨x, _, hx, -⟩ := hfound.stored key hkey
        exact absurd (current_holds hx).present hgone
    have hcreate : identityFor gcm call found = createIdentity gcm call := by
      rcases found with ⟨_ | cert, _ | key⟩ <;> simp [identityFor] at hnone ⊢
    have hmissing : d₁ certFile = none ∨ ¬Present d₁ keyPath :=
      hboth.imp hsame.cert.trans fun h => by rwa [hsame.files.present_iff]
    have hsees := hlooks.storing
    rw [hfind] at hsees
    obtain ⟨hsound', hfits⟩ := createIdentity_leaves hgcm hkept.1 hgenerates hsees hmissing
    rw [hcreate]
    refine ⟨hsound', fun _ hcut => hfits fun hcuts => hcut ⟨found, by rw [hfind], hnone, ?_⟩,
      fun pair hpair => ?_⟩
    · rw [hfind]
      exact hcuts
    · obtain ⟨hcert, ⟨x, _, hx, -⟩, -⟩ := hpair
      rcases hboth with hno | hno
      · rw [hno] at hcert
        cases hcert
      · exact absurd (current_holds hx).present hno
  · obtain ⟨hcert, hpresent⟩ := not_or.mp hboth
    obtain ⟨cert, hcert⟩ := Option.ne_none_iff_exists'.mp hcert
    obtain ⟨key, hkey⟩ := hsound.storedKey (not_not.mp hpresent)
    have hpure : identityFor gcm call found = pure ⟨cert, key⟩ := by
      rw [show found = (some cert, some key) from
        Prod.ext (hfound.cert.trans hcert) (hfound.key key hkey)]
      rfl
    rw [hpure]
    exact hstays

/-- Nothing fails or stops in the call, and it has a new pair if it needs one. -/
structure IdentityCall.Fine (call : IdentityCall) : Prop where
  directory : call.directory = []
  loading : call.loading = []
  reading : call.reading = []
  generated : call.generated ≠ none
  storing : call.storing = []
  writing : call.writing = []

theorem sees_of_clean {ε α : Type} {o : Finish String UInt8 ε α} (h : o.clean = true) :
    ∀ e ∈ o.events, Sees e := by
  intro e he hfails
  have hfine := List.all_eq_true.mp (Bool.and_eq_true _ _ ▸ h : _ ∧ _).2 e he
  rw [of_decide_eq_true hfine] at hfails
  cases hfails

theorem IdentityCall.Fine.looks (h : call.Fine) : Looks gcm call d where
  loading := by
    rw [h.loading]
    exact sees_of_clean (Script.exec_nil_clean _ _)
  reading n rest := by
    rw [h.reading]
    simp
  storing pair _ := by
    rw [h.storing]
    exact sees_of_clean (Script.exec_nil_clean _ _)

theorem runScript_fine {ε α : Type} (onError : ε → IdentityError) {p : Script String UInt8 ε α}
    (herror : ∀ e, (p.exec [] d).result ≠ some (.error e)) :
    ∃ a, runScript onError p [] d = (.ok a, (p.exec [] d).disk) := by
  have hclean := Script.exec_nil_clean p d
  rw [Finish.clean, Bool.and_eq_true] at hclean
  obtain ⟨r, hr⟩ := Option.isSome_iff_exists.mp hclean.1
  rcases r with e | a
  · exact absurd hr (herror e)
  · refine ⟨a, ?_⟩
    rw [runScript, hr]

theorem findIdentity_fine (hgcm : gcm.Lawful) (hsound : Sound gcm d) (hfine : call.Fine) :
    ∃ found d', findIdentity gcm call d = (.ok found, d') := by
  have hdir : runScript .io (Script.act .createDirAll id : Script String UInt8 IoError Unit)
      call.directory d = (.ok (), d) := by
    rw [hfine.directory]
    rfl
  obtain ⟨key, -, hloaded⟩ := load_finish hgcm hsound hfine.looks
  have herror : ∀ e, ((load gcm keySecret call.freshAtLoad).exec [] d).result ≠ some (.error e) := by
    intro e he
    rw [hfine.loading] at hloaded
    exact absurd (hloaded.error e he) (by rw [Script.exec_nil_clean]; decide)
  obtain ⟨v, hload⟩ := runScript_fine .store herror
  rw [← hfine.loading] at hload
  rw [findIdentity, Command.bind_ok hdir, Command.bind_ok hload, hfine.reading]
  exact ⟨_, _, rfl⟩

theorem createIdentity_fine (hgcm : gcm.Lawful) (hsound : Sound gcm d) (hfine : call.Fine)
    (hgenerates : call.Generates accepts) :
    ∃ pair d', createIdentity gcm call d = (.ok pair, d') ∧ accepts pair.cert pair.key = true := by
  obtain ⟨pair, hpair⟩ := Option.ne_none_iff_exists'.mp hfine.generated
  obtain ⟨haccepts, hlen⟩ := hgenerates pair hpair
  have hclean : (storeFinish gcm call pair d).clean = true := by
    rw [storeFinish, hfine.storing]
    exact Script.exec_nil_clean _ _
  obtain ⟨-, -, -, herror⟩ := storeKey_sound hgcm hsound hlen (sees_of_clean hclean)
  rcases hrun : storeIdentity gcm call pair d with ⟨r, d'⟩
  refine ⟨pair, d', ?_, haccepts⟩
  have hcreate : createIdentity gcm call d = storeIdentity gcm call pair d := by
    rw [createIdentity, hpair]
  rw [hcreate, hrun]
  rcases storeIdentity_cases hrun with ⟨hbad, -, -⟩ | ⟨-, ⟨n, rest, hfates, -⟩ | ⟨-, hok, -⟩⟩
  · have hsome := (Bool.and_eq_true _ _ ▸ hclean : _ ∧ _).1
    obtain ⟨_ | u, hr⟩ := Option.isSome_iff_exists.mp hsome
    · exact Bool.noConfusion (hclean.symm.trans (herror _ hr))
    · exact absurd hr hbad
  · rw [hfine.writing] at hfates
    simp at hfates
  · rw [hok hfine.writing]

theorem loadOrCreateIdentity_fine (hgcm : gcm.Lawful) (hsound : Sound gcm d)
    (hfit : Fitting gcm accepts d) (hfine : call.Fine) (hgenerates : call.Generates accepts) :
    ∃ pair, (loadOrCreateIdentity gcm accepts call d).1 = .ok pair ∧
      accepts pair.cert pair.key = true ∧
        ∀ stored, PairStored gcm accepts d stored → pair = stored := by
  obtain ⟨found, d₁, hfind⟩ := findIdentity_fine hgcm hsound hfine
  obtain ⟨hsame, hfound⟩ := findIdentity_cases hgcm hsound hfine.looks hfind
  have hfound := hfound found rfl
  have hfrom : ∀ {pair : CertAndKey} {t t' : Disk String UInt8},
      identityFor gcm call found t = (.ok pair, t') → accepts pair.cert pair.key = true →
        (identityFor gcm call found >>= fun pair =>
          identityFrom accepts pair.cert pair.key) t = (.ok pair, t') := by
    intro pair t t' hrun haccepts
    rw [Command.bind_ok hrun, identityFrom,
      Command.require_bind_ok haccepts]
    rfl
  rw [loadOrCreateIdentity, Command.bind_ok hfind]
  by_cases hnone : found.1 = none ∨ found.2 = none
  · have hnew : identityFor gcm call found = createIdentity gcm call := by
      rcases found with ⟨_ | cert, _ | key⟩ <;> simp [identityFor] at hnone ⊢
    obtain ⟨pair, d', hcreate, haccepts⟩ :=
      createIdentity_fine hgcm (hsame.sound hsound) hfine hgenerates
    refine ⟨pair, by rw [hfrom (hnew ▸ hcreate) haccepts], haccepts, fun stored hstored => ?_⟩
    obtain ⟨hcert, hkey, -⟩ := hstored
    rcases hnone with hno | hno
    · rw [hfound.cert, hcert] at hno
      cases hno
    · rw [hfound.key _ hkey] at hno
      cases hno
  · obtain ⟨hcert, hkey⟩ := not_or.mp hnone
    obtain ⟨cert, hcert⟩ := Option.ne_none_iff_exists'.mp hcert
    obtain ⟨key, hkey⟩ := Option.ne_none_iff_exists'.mp hkey
    have haccepts := hfit cert key (hfound.cert.symm.trans hcert) (hfound.stored key hkey)
    have hpure : identityFor gcm call found d₁ = (.ok ⟨cert, key⟩, d₁) := by
      rw [show found = (some cert, some key) from Prod.ext hcert hkey]
      rfl
    refine ⟨⟨cert, key⟩, by rw [hfrom hpure haccepts], haccepts, fun stored hstored => ?_⟩
    obtain ⟨hcert', hkey', -⟩ := hstored
    rw [hfound.cert, hcert'] at hcert
    rw [hfound.key _ hkey'] at hkey
    cases hcert
    cases hkey
    rfl

end Calls

section Runs
variable {gcm : Gcm} {accepts : Bytes → Bytes → Bool} {d : Disk String UInt8}

def OrderlyRun (gcm : Gcm) (accepts : Bytes → Bytes → Bool) (d : Disk String UInt8)
    (steps : List IdentityStep) : Prop :=
  ∀ before call after, steps = before ++ .call call :: after →
    call.Generates accepts ∧ Looks gcm call (identityRun gcm accepts d before)

def NoLastingCut (gcm : Gcm) (accepts : Bytes → Bytes → Bool) (d : Disk String UInt8)
    (steps : List IdentityStep) : Prop :=
  ∀ before call after, steps = before ++ .call call :: after →
    CutOff gcm call (identityRun gcm accepts d before) → .lost ∈ after

theorem identityRun_concat (steps : List IdentityStep) (step : IdentityStep) :
    identityRun gcm accepts d (steps ++ [step]) =
      identityStep gcm accepts (identityRun gcm accepts d steps) step := List.foldl_concat ..

theorem OrderlyRun.init {steps : List IdentityStep} {step : IdentityStep}
    (h : OrderlyRun gcm accepts d (steps ++ [step])) : OrderlyRun gcm accepts d steps := by
  rintro before call after rfl
  exact h before call (after ++ [step]) (by simp)

theorem OrderlyRun.sound (hgcm : gcm.Lawful) (hsound : Sound gcm d) {steps : List IdentityStep}
    (h : OrderlyRun gcm accepts d steps) : Sound gcm (identityRun gcm accepts d steps) := by
  induction steps using List.reverseRecOn with
  | nil => exact hsound
  | append_singleton steps step ih =>
    have hbefore := ih h.init
    rw [identityRun_concat]
    cases step with
    | lost => exact forgetKey_sound hbefore
    | call call =>
      obtain ⟨hgenerates, hlooks⟩ := h steps call [] rfl
      exact (call_leaves hgcm hbefore hlooks hgenerates).1

theorem OrderlyRun.fitting (hgcm : gcm.Lawful) (hsound : Sound gcm d)
    (hfit : Fitting gcm accepts d) {steps : List IdentityStep}
    (h : OrderlyRun gcm accepts d steps) (hcut : NoLastingCut gcm accepts d steps) :
    Fitting gcm accepts (identityRun gcm accepts d steps) := by
  induction steps using List.reverseRecOn with
  | nil => exact hfit
  | append_singleton steps step ih =>
    rw [identityRun_concat]
    cases step with
    | lost => exact fitting_of_not_present (forgetKey_gone _)
    | call call =>
      obtain ⟨hgenerates, hlooks⟩ := h steps call [] rfl
      have hbefore : NoLastingCut gcm accepts d steps := by
        rintro before call' after rfl hcuts
        have hmem := hcut before call' (after ++ [.call call]) (by simp) hcuts
        simpa using hmem
      refine (call_leaves hgcm (h.init.sound hgcm hsound) hlooks hgenerates).2.1
        (ih h.init hbefore) fun hcuts => ?_
      cases hcut steps call [] rfl hcuts

theorem OrderlyRun.pairStored (hgcm : gcm.Lawful) (hsound : Sound gcm d)
    {before after : List IdentityStep} {pair : CertAndKey}
    (h : OrderlyRun gcm accepts d (before ++ after)) (hkept : .lost ∉ after)
    (hpair : PairStored gcm accepts (identityRun gcm accepts d before) pair) :
    PairStored gcm accepts (identityRun gcm accepts d (before ++ after)) pair := by
  induction after using List.reverseRecOn with
  | nil => rwa [List.append_nil]
  | append_singleton after step ih =>
    rw [← List.append_assoc] at h ⊢
    rw [identityRun_concat]
    have hbefore := ih h.init fun hmem => hkept (List.mem_append_left _ hmem)
    cases step with
    | lost => exact absurd (List.mem_append_right _ List.mem_cons_self) hkept
    | call call =>
      obtain ⟨hgenerates, hlooks⟩ := h (before ++ after) call [] rfl
      exact (call_leaves hgcm (h.init.sound hgcm hsound) hlooks hgenerates).2.2 pair hbefore

end Runs

/-- After any run in which no cut lasts, a call in which nothing fails succeeds with a
certificate and a key that belong to each other: with the pair that was stored, unless
its key has been lost. -/
theorem identity_recovers (gcm : Gcm) (hgcm : gcm.Lawful) (accepts : Bytes → Bytes → Bool)
    (d : Disk String UInt8) (hsound : Sound gcm d) (hfit : Fitting gcm accepts d)
    (steps : List IdentityStep) (horderly : OrderlyRun gcm accepts d steps)
    (hcut : NoLastingCut gcm accepts d steps) (last : IdentityCall) (hfine : last.Fine)
    (hgenerates : last.Generates accepts) :
    ∃ pair, (loadOrCreateIdentity gcm accepts last (identityRun gcm accepts d steps)).1 =
        .ok pair ∧ accepts pair.cert pair.key = true ∧
      ∀ before after stored, steps = before ++ after → .lost ∉ after →
        PairStored gcm accepts (identityRun gcm accepts d before) stored → pair = stored := by
  have hsound' := horderly.sound hgcm hsound
  obtain ⟨pair, hok, haccepts, hsame⟩ := loadOrCreateIdentity_fine hgcm hsound'
    (horderly.fitting hgcm hsound hfit hcut) hfine hgenerates
  refine ⟨pair, hok, haccepts, ?_⟩
  rintro before after stored rfl hkept hstored
  exact hsame stored (horderly.pairStored hgcm hsound hkept hstored)

/-! Certificates of two bytes, each of which belongs to the key of the same bytes. -/

def sampleAccepts (cert key : Bytes) : Bool := cert = key

theorem length_sampleNonce : (List.replicate 12 (1 : UInt8)).length = 12 := by decide

def sampleCall (bytes : Bytes) (storing writing : List Fate) : IdentityCall where
  directory := []
  loading := []
  reading := []
  generated := some ⟨bytes, bytes⟩
  storing
  writing
  nonce := ⟨List.replicate 12 1, length_sampleNonce⟩
  freshAtLoad := sampleKey
  freshAtStore := sampleKey

def cutCall : IdentityCall := sampleCall [1, 2] [] [.crash 1]

def emptyDir : Disk String UInt8 := fun _ => none

theorem emptyDir_sound : Sound sampleGcm emptyDir where
  unbacked := rfl
  keyed := ⟨sampleKey, fun x hx => by rcases hx with hx | hx <;> cases hx⟩
  held x hx := by rcases hx with hx | hx <;> cases hx

theorem sampleCall_generates {bytes : Bytes} (hlen : bytes.length ≤ maxSecretBytes)
    (storing writing : List Fate) :
    (sampleCall bytes storing writing).Generates sampleAccepts := by
  intro pair hpair
  obtain rfl := Option.some.inj hpair
  exact ⟨decide_eq_true rfl, hlen⟩

theorem identity_recovers_sample :
    ∃ pair, (loadOrCreateIdentity sampleGcm sampleAccepts (sampleCall [3, 4] [] [])
        (identityRun sampleGcm sampleAccepts emptyDir [.call cutCall, .lost])).1 = .ok pair ∧
      sampleAccepts pair.cert pair.key = true := by
  have hsteps : ∀ (before : List IdentityStep) (call : IdentityCall) (after : List IdentityStep),
      [.call cutCall, .lost] = before ++ .call call :: after →
        before = [] ∧ call = cutCall ∧ after = [.lost] := by
    rintro (_ | ⟨first, _ | ⟨second, rest⟩⟩) call after h <;> simp at h
    exact ⟨rfl, h.1.symm, h.2.symm⟩
  have horderly : OrderlyRun sampleGcm sampleAccepts emptyDir [.call cutCall, .lost] := by
    intro before call after h
    obtain ⟨rfl, rfl, rfl⟩ := hsteps before call after h
    exact ⟨sampleCall_generates (by decide) _ _, sees_of_clean (Script.exec_nil_clean _ _),
      fun _ _ h => (by cases h), fun _ _ => sees_of_clean (Script.exec_nil_clean _ _)⟩
  have hcut : NoLastingCut sampleGcm sampleAccepts emptyDir [.call cutCall, .lost] := by
    intro before call after h _
    obtain ⟨-, -, rfl⟩ := hsteps before call after h
    exact List.mem_cons_self
  obtain ⟨pair, hok, haccepts, -⟩ := identity_recovers sampleGcm sampleGcm_lawful sampleAccepts
    emptyDir emptyDir_sound (fitting_of_no_cert rfl) [.call cutCall, .lost] horderly hcut
    (sampleCall [3, 4] [] []) ⟨rfl, rfl, rfl, by simp [sampleCall], rfl, rfl⟩
    (sampleCall_generates (by decide) _ _)
  exact ⟨pair, hok, haccepts⟩

def cutBetween : IdentityCall := sampleCall [3, 4] (List.replicate 11 .fine ++ [.crash 0]) []

/-- No later call gets over a certificate that was cut off, or over a new key beside an
older certificate. -/
theorem identity_stays_broken :
    (loadOrCreateIdentity sampleGcm sampleAccepts (sampleCall [5, 6] [] [])
        (identityRun sampleGcm sampleAccepts emptyDir [.call cutCall])).1 =
      .error (.error .loadingCertificate) ∧
    (loadOrCreateIdentity sampleGcm sampleAccepts (sampleCall [5, 6] [] [])
        (identityRun sampleGcm sampleAccepts emptyDir
          [.call (sampleCall [1, 2] [] []), .lost, .call cutBetween])).1 =
      .error (.error .loadingCertificate) := by
  constructor <;> rfl

end Cinder.Secrets
