import Cinder.Secrets.SecretRuns
set_option autoImplicit false

/-!
What is left of a stored value wherever the store of another one stops, also when
only the backup of the value was there: then it may be lost, but nothing else is read
in its place.
-/

namespace Cinder.Secrets
open Cinder.Host Cinder.Storage

/-- The files of a path hold what they held, or the new contents. -/
structure Mixed (path : String) (contents : Bytes) (d d' : Disk String UInt8) : Prop where
  frame : OnlyFiles path d d'
  held : ∀ x, Holds d' path x → x = contents ∨ Holds d path x

/-- How a replacement of a file may end. -/
structure Mixture (path : String) (contents : Bytes) (d : Disk String UInt8) (clean : Bool)
    (result : Option (Except SecureStoreError Unit)) (d' : Disk String UInt8) : Prop where
  mixed : Mixed path contents d d'
  ok : result = some (.ok ()) → d' path = some contents
  error : ∀ e, result = some (.error e) → clean = false

section Specs
variable {G : FileEvent String UInt8 → Prop} {d d' : Disk String UInt8} {path : String}
  {contents : Bytes}

theorem Mixed.stops (h : Mixed path contents d d') {c : Bool} : Mixture path contents d c none d' :=
  ⟨h, by simp, by simp⟩

theorem Mixed.fails (h : Mixed path contents d d') (e : SecureStoreError) :
    Mixture path contents d false (some (.error e)) d' := ⟨h, by simp, fun _ _ => rfl⟩

theorem Mixture.unclean {c : Bool} {r : Option (Except SecureStoreError Unit)}
    (h : Mixture path contents d c r d') : Mixture path contents d false r d' :=
  ⟨h.mixed, h.ok, fun _ _ => rfl⟩

theorem Mixed.set_backup (h : Mixed path contents d d') {x : Option Bytes}
    (hx : ∀ y, x = some y → Holds d' path y) : Mixed path contents d (d'.set (backupPath path) x) := by
  refine ⟨h.frame.set (mem_files path).2.2 _, fun y hy => ?_⟩
  rcases hy with hy | hy
  · rw [Disk.set_of_ne (backupPath_ne path).symm] at hy
    exact h.held y (.inl hy)
  · rw [Disk.set_self] at hy
    exact h.held y (hx y hy)

theorem Mixed.set_path (h : Mixed path contents d d') {x : Option Bytes}
    (hx : ∀ y, x = some y → y = contents ∨ Holds d' path y) : Mixed path contents d (d'.set path x) := by
  refine ⟨h.frame.set (mem_files path).1 _, fun y hy => ?_⟩
  rcases hy with hy | hy
  · rw [Disk.set_self] at hy
    exact (hx y hy).elim .inl (h.held y)
  · rw [Disk.set_of_ne (backupPath_ne path)] at hy
    exact h.held y (.inr hy)

theorem Mixed.set_temporary (h : Mixed path contents d d') (x : Option Bytes) :
    Mixed path contents d (d'.set (temporaryPath path) x) := by
  refine ⟨h.frame.set (mem_files path).2.1 _, fun y hy => h.held y ?_⟩
  rw [Holds, Disk.set_of_ne (temporaryPath_ne path).symm,
    Disk.set_of_ne (temporaryPath_ne_backupPath path).symm] at hy
  exact hy

theorem Mixed.restored (h : Mixed path contents d d') :
    Mixed path contents d (FileOp.perform d' (.rename (backupPath path) path)).2 := by
  rw [FileOp.perform]
  split
  · exact (h.set_path fun y hy => .inr (.inr hy)).set_backup fun y hy => by cases hy
  · exact h

theorem takePlace_mixed (h : Mixed path contents d d')
    (htemporary : d' (temporaryPath path) = some contents) :
    (takePlace path (temporaryPath path) (backupPath path)).Ends G d'
      (Mixture path contents d) := by
  have hplaced : FileOp.perform d' (.rename (temporaryPath path) path) =
      (.ok [], (d'.set path (some contents)).set (temporaryPath path) none) := by
    simp [FileOp.perform, htemporary]
  have hmixed : Mixed path contents d ((d'.set path (some contents)).set (temporaryPath path) none) :=
    (h.set_path fun y hy => .inl (Option.some.inj hy).symm).set_temporary none
  have hpath : ((d'.set path (some contents)).set (temporaryPath path) none) path =
      some contents := by
    rw [Disk.set_of_ne (temporaryPath_ne path).symm, Disk.set_self]
  refine .attempt (fun _ _ => h.stops) (fun _ _ => ?_) ?_
  · exact .attempt (fun _ _ => h.stops) (fun _ _ => ⟨h.fails _, h.stops⟩)
      ⟨h.restored.fails _, h.restored.stops⟩
  · rw [hplaced]
    have hlast : Mixed path contents d (((d'.set path (some contents)).set (temporaryPath path)
        none).set (backupPath path) none) := hmixed.set_backup fun y hy => by cases hy
    have hkept : (((d'.set path (some contents)).set (temporaryPath path) none).set
        (backupPath path) none) path = some contents :=
      (Disk.set_of_ne (backupPath_ne path).symm).trans hpath
    refine .attempt (fun _ _ => hmixed.stops) (fun _ _ => ?_) ?_
    · exact ⟨⟨hmixed, fun _ => hpath, by simp⟩, hmixed.stops⟩
    · exact ⟨⟨hlast, fun _ => hkept, by simp⟩, hlast.stops⟩

theorem replaceFile_mixed (h : Mixed path contents d d')
    (htemporary : d' (temporaryPath path) = some contents) :
    (replaceFile path (temporaryPath path) (backupPath path)).Ends G d'
      (Mixture path contents d) := by
  have hmove : ∀ d' : Disk String UInt8, Mixed path contents d d' →
      d' (temporaryPath path) = some contents →
      (do
        moveAside path (backupPath path)
        takePlace path (temporaryPath path) (backupPath path)).Ends G d'
          (Mixture path contents d) := by
    intro d' h htemporary
    refine ⟨fun _ _ => h.stops, fun _ _ => ?_, fun _ => ?_⟩
    · exact (takePlace_mixed h htemporary).weaken fun _ _ _ => Mixture.unclean
    · show (bind (if (FileOp.perform d' (.metadata path)).1.toBool = true
        then Script.act (.rename path (backupPath path)) .io else pure ()) fun _ =>
          takePlace path (temporaryPath path) (backupPath path)).Ends G d' _
      by_cases hthere : (d' path).isSome = true
      · have hrename : FileOp.perform d' (.rename path (backupPath path)) =
            (.ok [], (d'.set (backupPath path) (d' path)).set path none) := by
          rw [FileOp.perform, if_pos hthere]
        rw [if_pos (by simp [FileOp.perform, hthere, Except.toBool])]
        refine .act (fun _ => h.stops) (fun _ => h.fails _) (fun r _ => ?_) (fun x hx => ?_)
        · rw [hrename]
          refine takePlace_mixed ((h.set_backup fun y hy => .inl hy).set_path fun y hy => by cases hy) ?_
          dsimp only
          rw [Disk.set_of_ne (temporaryPath_ne path),
            Disk.set_of_ne (temporaryPath_ne_backupPath path), htemporary]
        · rw [hrename] at hx
          cases hx
      · rw [if_neg (by simp [FileOp.perform, hthere, Except.toBool])]
        exact takePlace_mixed h htemporary
  refine .attempt (fun _ _ => h.stops) (fun _ _ => ?_) ?_
  · exact (hmove d' h htemporary).weaken fun _ _ _ => Mixture.unclean
  · refine hmove _ (h.set_backup fun y hy => by cases hy) ?_
    exact (Disk.set_of_ne (temporaryPath_ne_backupPath path)).trans htemporary

theorem writePrivateAtomic_mixed (path : String) (contents : Bytes) (d : Disk String UInt8) :
    (writePrivateAtomic path contents).Ends G d (Mixture path contents d) := by
  refine .bind ((writeTemporary_spec _ contents).weaken ?_)
  intro c r d' hw
  have hframe : OnlyFiles path d d' := fun f hf =>
    hw.frame f fun heq => hf (heq ▸ (mem_files path).2.1)
  have hmixed : Mixed path contents d d' := by
    refine ⟨hframe, fun x hx => .inr ?_⟩
    rwa [Holds, hw.frame _ (temporaryPath_ne path).symm,
      hw.frame _ (temporaryPath_ne_backupPath path).symm] at hx
  rcases r with _ | e | u
  · exact hmixed.stops
  · exact ⟨hmixed, by simp, fun _ _ => (hw.error e rfl).1⟩
  · show (replaceFile path (temporaryPath path) (backupPath path)).Ends G d' fun c' =>
      Mixture path contents d (c && c')
    refine (replaceFile_mixed hmixed (hw.ok rfl)).weaken fun c' r' d'' h => ?_
    cases hc : c && c' with
    | false => exact h.unclean
    | true =>
      obtain rfl := (Bool.and_eq_true _ _ ▸ hc : c = true ∧ c' = true).2
      exact h

end Specs

/-- Nothing that is looked for is missed. -/
def Sees (e : FileEvent String UInt8) : Prop :=
  e.fate.isFailure = true → match e.op with
    | .metadata _ | .read _ => False
    | _ => True

theorem spared_of_unbacked {start : Disk String UInt8} {path : String}
    (h : start (backupPath path) = none) (e : FileEvent String UInt8) : Spared start path e :=
  fun _ hsome => absurd h hsome

section Seeing
variable {G : FileEvent String UInt8 → Prop} {d : Disk String UInt8} {path : String}

theorem readWithBackup_sees {β : Type} {f : Except IoError Bytes → Secure β}
    {Q : Bool → Option (Except SecureStoreError β) → Disk String UInt8 → Prop}
    (hsees : ∀ e, G e → Sees e) (hcrash : Q false none d)
    (hfound : ∀ x, current d path = some x → (f (.ok x)).Ends G d Q)
    (hmissing : current d path = none → (f (.error .notFound)).Ends G d Q) :
    (readWithBackup path >>= f).Ends G d Q := by
  have hthere : ∀ {g x}, d g = some x → FileOp.perform d (.read g) = (.ok x, d) :=
    fun h => by simp [FileOp.perform, h]
  have hgone : ∀ {g}, d g = none → FileOp.perform d (.read g) = (.error .notFound, d) :=
    fun h => by simp [FileOp.perform, h]
  have hcurrent : current d path = (d path).or (d (backupPath path)) := rfl
  refine ⟨fun _ _ => hcrash, fun n hev => (hsees _ hev rfl).elim, fun _ => ?_⟩
  cases hp : d path with
  | some x =>
    rw [hp, Option.some_or] at hcurrent
    rw [hthere hp]
    exact hfound x hcurrent
  | none =>
    rw [hp, Option.none_or] at hcurrent
    rw [hgone hp]
    refine ⟨fun _ _ => hcrash, fun n hev => (hsees _ hev rfl).elim, fun _ => ?_⟩
    cases hb : d (backupPath path) with
    | some x =>
      rw [hthere hb]
      exact hfound x (hcurrent.trans hb)
    | none =>
      rw [hgone hb]
      exact hmissing (hcurrent.trans hb)

theorem loadOrCreateKey_unbacked (hsees : ∀ e, G e → Sees e) (h : d (backupPath path) = none)
    (fresh : MasterKey) :
    (loadOrCreateKey path fresh).Ends G d fun _ _ d' => d' (backupPath path) = none := by
  refine ⟨fun _ _ => h, fun n hev => (hsees _ hev rfl).elim, fun _ => ?_⟩
  have hmeta : (FileOp.perform d (.metadata path)).2 = d := rfl
  rw [hmeta]
  refine readWithBackup_sees hsees h (fun x hx => ?_) fun hnone => ?_
  · have hplace : (d path).isSome = true := by
      rw [current, h, Option.or_none] at hx
      rw [hx]
      rfl
    have hseen : (FileOp.perform d (.metadata path)).1.toBool = true := by
      simp [FileOp.perform, hplace, Except.toBool]
    rw [hseen]
    refine .act (fun _ => h) (fun _ => h) (fun _ _ => ?_) (fun _ _ => ⟨h, h⟩)
    split
    · exact ⟨h, h⟩
    · exact ⟨h, h⟩
  · have hplace : d path = none := (Option.or_eq_none_iff.mp hnone).1
    have hspared : ∀ e, G e → Spared d path e := fun e _ => spared_of_unbacked h e
    refine .bind ((writePrivateAtomic_spec fresh.1 hspared rfl rfl).weaken fun c r d' hr => ?_)
    have hafter : d' (backupPath path) = none := by
      refine Option.eq_none_iff_forall_ne_some.mpr fun x hx => ?_
      rcases hr.backup x hx with hold | hold
      · rw [hplace] at hold
        cases hold
      · rw [h] at hold
        cases hold
    rcases r with _ | e | u
    · exact hafter
    · exact hafter
    · exact ⟨hafter, hafter⟩

variable {gcm : Gcm} {key fresh : MasterKey} {name : String}

/-- How loading a value may end: what is current at its path is read. -/
structure LoadedFrom (gcm : Gcm) (key : MasterKey) (path : String) (d : Disk String UInt8)
    (clean : Bool) (result : Option (Except SecureStoreError (Option Bytes)))
    (d' : Disk String UInt8) : Prop where
  frame : OnlyFiles localSecrets d d'
  kept : KeyKept key d d'
  unbacked : d' (backupPath localSecrets) = none
  found : ∀ v plaintext x, result = some (.ok v) → current d path = some x →
    SecretHeld gcm key plaintext x → v = some plaintext
  missing : ∀ v, result = some (.ok v) → current d path = none → v = none
  error : ∀ e, result = some (.error e) → clean = false

theorem unprotectSome_unbacked (hsees : ∀ e, G e → Sees e)
    (h : d (backupPath localSecrets) = none) (x : Bytes) :
    (unprotectSome gcm x fresh).Ends G d fun _ _ d' => d' (backupPath localSecrets) = none := by
  refine .require (fun _ => ?_) fun _ => ⟨h, h⟩
  refine .bind ?_
  unfold unprotect
  split
  · exact ⟨h, h⟩
  · refine .require (fun _ => ?_) fun _ => ⟨h, h⟩
    refine .bind ((loadOrCreateKey_unbacked hsees h fresh).weaken fun c r d' h' => ?_)
    rcases r with _ | e | k
    · exact h'
    · exact h'
    · show (decryptPayload gcm k _).Ends G d' _
      unfold decryptPayload
      split
      · split
        · exact ⟨h', h'⟩
        · exact ⟨⟨h', h'⟩, h'⟩
      · exact ⟨h', h'⟩

theorem SecretHeld.unique (hgcm : gcm.Lawful) {plain plain' x : Bytes}
    (h : SecretHeld gcm key plain x) (h' : SecretHeld gcm key plain' x) : plain = plain' := by
  obtain ⟨hlen, nonce, sealed, henc, rfl⟩ := h
  obtain ⟨hlen', nonce', sealed', henc', hx⟩ := h'
  have hhead : (portableHeader ++ nonce.1).length = (portableHeader ++ nonce'.1).length := by
    simp [nonce.2, nonce'.2]
  obtain ⟨hnonce, rfl⟩ := List.append_inj hx hhead
  obtain rfl := Subtype.ext (List.append_cancel_left hnonce)
  obtain ⟨sealed₁, henc₁, -, hdec⟩ := hgcm key nonce plain hlen
  obtain ⟨sealed₂, henc₂, -, hdec'⟩ := hgcm key nonce plain' hlen'
  obtain rfl := Option.some.inj (henc.symm.trans henc₁)
  obtain rfl := Option.some.inj (henc'.symm.trans henc₂)
  exact Option.some.inj (hdec.symm.trans hdec')

theorem load_sees (hgcm : gcm.Lawful) (hsees : ∀ e, G e → Sees e) (hvalid : validName name = true)
    (hkey : KeyedBy d localSecrets key) (hfresh : ¬Present d localSecrets → key = fresh)
    (h : d (backupPath localSecrets) = none)
    (hheld : ∀ x, current d (secretPath name) = some x → ∃ plaintext,
      SecretHeld gcm key plaintext x) :
    (load gcm name fresh).Ends G d (LoadedFrom gcm key (secretPath name) d) := by
  have hstop : LoadedFrom gcm key (secretPath name) d false none d :=
    ⟨fun _ _ => rfl, .refl hkey, h, by simp, by simp, by simp⟩
  refine .require (fun _ => ?_) fun hinvalid => (hinvalid hvalid).elim
  refine readWithBackup_sees hsees hstop (fun x hx => ?_) fun hnone => ?_
  · obtain ⟨plaintext, hplain⟩ := hheld x hx
    have hspared : ∀ e, G e → Spared d localSecrets e := fun e _ => spared_of_unbacked h e
    refine ((unprotect_spec hgcm hplain hkey hfresh hspared ⟨rfl, rfl⟩).and
      (unprotectSome_unbacked hsees h x)).weaken ?_
    rintro c r d' ⟨hwith, hunbacked⟩
    refine ⟨hwith.frame, hwith.kept, hunbacked, ?_, ?_, fun e he => (hwith.error e he).1⟩
    · intro v plaintext' y hv hy hplain'
      obtain rfl := Option.some.inj (hx.symm.trans hy)
      exact (hwith.ok v hv).trans (congrArg some (hplain.unique hgcm hplain'))
    · intro v _ hnone
      rw [hx] at hnone
      cases hnone
  · refine ⟨⟨fun _ _ => rfl, .refl hkey, h, ?_, ?_, by simp⟩, hstop⟩
    · intro v plaintext x _ hx _
      rw [hnone] at hx
      cases hx
    · intro v hv _
      exact (Except.ok.inj (Option.some.inj hv)).symm

structure StoredOver (gcm : Gcm) (key : MasterKey) (plaintext : Bytes) (path : String)
    (d : Disk String UInt8) (clean : Bool) (result : Option (Except SecureStoreError Unit))
    (d' : Disk String UInt8) : Prop where
  frame : ∀ f, f ∉ filesOf localSecrets → f ∉ filesOf path → d' f = d f
  kept : KeyKept key d d'
  unbacked : d' (backupPath localSecrets) = none
  held : ∀ x, Holds d' path x → Holds d path x ∨
    SecretHeld gcm key plaintext x ∧ Present d' localSecrets
  ok : result = some (.ok ()) → ∃ x, d' path = some x ∧ SecretHeld gcm key plaintext x
  error : ∀ e, result = some (.error e) → clean = false

theorem store_over (hgcm : gcm.Lawful) (hsees : ∀ e, G e → Sees e) {plaintext : Bytes}
    {nonce : NonceBytes} (hvalid : validName name = true) (hlen : plaintext.length ≤ maxSecretBytes)
    (hapart : Apart localSecrets (secretPath name)) (hkey : KeyedBy d localSecrets key)
    (hfresh : ¬Present d localSecrets → key = fresh) (h : d (backupPath localSecrets) = none) :
    (store gcm name plaintext nonce fresh).Ends G d
      (StoredOver gcm key plaintext (secretPath name) d) := by
  have hheld : ∀ {d' : Disk String UInt8}, SameFiles d d' (secretPath name) →
      ∀ x, Holds d' (secretPath name) x → Holds d (secretPath name) x ∨
        SecretHeld gcm key plaintext x ∧ Present d' localSecrets :=
    fun hsame x hx => .inl ((hsame.holds_iff x).mp hx)
  refine .require (fun _ => ?_) fun hinvalid => (hinvalid hvalid).elim
  refine .require (fun _ => ?_) fun hlong => (hlong hlen).elim
  refine .act (fun _ => ?_) (fun _ => ?_) (fun _ _ => ?_) fun x hx => by cases hx
  · exact ⟨fun _ _ _ => rfl, .refl hkey, h, hheld ⟨rfl, rfl⟩, by simp, by simp⟩
  · exact ⟨fun _ _ _ => rfl, .refl hkey, h, hheld ⟨rfl, rfl⟩, by simp, fun _ _ => rfl⟩
  have hspared : ∀ e, G e → Spared d localSecrets e := fun e _ => spared_of_unbacked h e
  have hprotect : (protect gcm plaintext nonce fresh).Ends G d fun _ _ d' =>
      d' (backupPath localSecrets) = none := by
    refine .bind ((loadOrCreateKey_unbacked hsees h fresh).weaken fun c r d' h' => ?_)
    rcases r with _ | e | k
    · exact h'
    · exact h'
    · rw [Script.Then]
      split
      · exact ⟨h', h'⟩
      · exact ⟨h', h'⟩
  refine .bind (((protect_spec hgcm hlen hkey hfresh hspared ⟨rfl, rfl⟩).and hprotect).weaken ?_)
  rintro c r d₁ ⟨hwith, hunbacked⟩
  have hsame := hwith.frame.same hapart
  rcases r with _ | e | x
  · exact ⟨fun f hf _ => hwith.frame f hf, hwith.kept, hunbacked, hheld hsame, by simp, by simp⟩
  · exact ⟨fun f hf _ => hwith.frame f hf, hwith.kept, hunbacked, hheld hsame, by simp,
      fun _ _ => (hwith.error e rfl).1⟩
  obtain ⟨hx, hpresent⟩ := hwith.ok x rfl
  show (writePrivateAtomic (secretPath name) x).Ends G d₁ fun c' =>
    StoredOver gcm key plaintext (secretPath name) d (c && c')
  refine (writePrivateAtomic_mixed (secretPath name) x d₁).weaken fun c' r d' hr => ?_
  have hlocal := hr.mixed.frame.same hapart.symm
  refine ⟨fun f hf hf' => (hr.mixed.frame f hf').trans (hwith.frame f hf), ⟨fun y hy => ?_,
    fun hp => hlocal.present_iff.mpr (hwith.kept.present hp)⟩, hlocal.2.trans hunbacked,
    fun y hy => ?_, fun hok => ⟨x, hr.ok hok, hx⟩, fun e he => ?_⟩
  · exact hwith.kept.keyed y ((hlocal.holds_iff y).mp hy)
  · rcases hr.mixed.held y hy with rfl | hold
    · exact .inr ⟨hx, hlocal.present_iff.mpr hpresent⟩
    · exact .inl ((hsame.holds_iff y).mp hold)
  · rw [hr.error e he, Bool.and_false]

end Seeing

end Cinder.Secrets
