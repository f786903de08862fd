import Cinder.Secrets.KeptSecrets
set_option autoImplicit false

namespace Cinder.Secrets
open Cinder.Host Cinder.Storage

def SecretHeld (gcm : Gcm) (key : MasterKey) (plaintext x : Bytes) : Prop :=
  plaintext.length ≤ maxSecretBytes ∧ ∃ nonce : NonceBytes, ∃ ciphertext,
    gcm.encrypt key nonce plaintext = some ciphertext ∧
    x = portableHeader ++ nonce.1 ++ ciphertext

section Specs
variable {gcm : Gcm} {G : FileEvent String UInt8 → Prop} {start d : Disk String UInt8}
  {key fresh : MasterKey}

structure KeyKept (key : MasterKey) (d d' : Disk String UInt8) : Prop where
  keyed : KeyedBy d' localSecrets key
  present : Present d localSecrets → Present d' localSecrets

theorem KeyTaken.kept {d' : Disk String UInt8} {c : Bool}
    {r : Option (Except SecureStoreError MasterKey)}
    (h : KeyTaken localSecrets key d c r d') : KeyKept key d d' :=
  ⟨h.keyed, h.present⟩

structure WithKey {α : Type} (key : MasterKey) (d : Disk String UInt8)
    (good : α → Disk String UInt8 → Prop) (clean : Bool)
    (result : Option (Except SecureStoreError α)) (d' : Disk String UInt8) : Prop where
  frame : OnlyFiles localSecrets d d'
  kept : KeyKept key d d'
  ok : ∀ a, result = some (.ok a) → good a d'
  error : ∀ e, result = some (.error e) → clean = false ∧ ∃ x, e = .io x

theorem WithKey.stop {α : Type} {good : α → Disk String UInt8 → Prop} {d' : Disk String UInt8}
    {c : Bool} (hframe : OnlyFiles localSecrets d d') (hkept : KeyKept key d d') :
    WithKey key d good c none d' :=
  ⟨hframe, hkept, by simp, by simp⟩

theorem loadOrCreateKey_bind {α : Type} {f : MasterKey → Secure α}
    {good : α → Disk String UInt8 → Prop}
    (hkey : KeyedBy d localSecrets key) (hfresh : ¬Present d localSecrets → key = fresh)
    (hG : ∀ e, G e → Spared start localSecrets e) (hsame : SameFiles start d localSecrets) {a : α}
    (hf : f key = .ret a) (hgood : ∀ d', Present d' localSecrets → good a d') :
    (loadOrCreateKey localSecrets fresh >>= f).Ends G d (WithKey key d good) := by
  refine .bind ((loadOrCreateKey_spec hkey hfresh hG hsame).weaken ?_)
  intro c r d' h
  cases r with
  | none => exact .stop h.frame h.kept
  | some r =>
    cases r with
    | error e => exact ⟨h.frame, h.kept, by simp, fun e' he => by cases he; exact h.error _ rfl⟩
    | ok k =>
      obtain ⟨rfl, hpresent⟩ := h.ok k rfl
      show (f k).Ends G d' _
      rw [hf]
      refine ⟨⟨h.frame, h.kept, fun b hb => ?_, by simp⟩, .stop h.frame h.kept⟩
      obtain rfl := Except.ok.inj (Option.some.inj hb)
      exact hgood d' hpresent

theorem protect_spec (hgcm : gcm.Lawful) {plaintext : Bytes} {nonce : NonceBytes}
    (hlen : plaintext.length ≤ maxSecretBytes) (hkey : KeyedBy d localSecrets key)
    (hfresh : ¬Present d localSecrets → key = fresh)
    (hG : ∀ e, G e → Spared start localSecrets e) (hsame : SameFiles start d localSecrets) :
    (protect gcm plaintext nonce fresh).Ends G d (WithKey key d fun x d' =>
      SecretHeld gcm key plaintext x ∧ Present d' localSecrets) := by
  obtain ⟨ciphertext, henc, -, -⟩ := hgcm key nonce plaintext hlen
  exact loadOrCreateKey_bind hkey hfresh hG hsame (by rw [henc]; rfl)
    fun d' hpresent => ⟨⟨hlen, nonce, ciphertext, henc, rfl⟩, hpresent⟩

theorem unprotect_spec (hgcm : gcm.Lawful) {plaintext x : Bytes}
    (hx : SecretHeld gcm key plaintext x) (hkey : KeyedBy d localSecrets key)
    (hfresh : ¬Present d localSecrets → key = fresh)
    (hG : ∀ e, G e → Spared start localSecrets e) (hsame : SameFiles start d localSecrets) :
    (unprotectSome gcm x fresh).Ends G d (WithKey key d fun v _ => v = some plaintext) := by
  obtain ⟨hlen, nonce, ciphertext, henc, rfl⟩ := hx
  obtain ⟨ciphertext', henc', hsize, hdec⟩ := hgcm key nonce plaintext hlen
  obtain rfl := Option.some.inj (henc.symm.trans henc')
  have hnonce : nonce.1.length = 12 := nonce.2
  have hheader : portableHeader.length = 17 := by decide
  have hpayload : (portableHeader ++ nonce.1 ++ ciphertext).dropPrefix? portableHeader =
      some (nonce.1 ++ ciphertext) := by
    rw [List.append_assoc]
    exact List.dropPrefix?_append_of_beq _ (beq_self_eq_true _)
  have hopen : decryptPayload gcm key (nonce.1 ++ ciphertext) = .ret plaintext := by
    have htake : (nonce.1 ++ ciphertext).take nonceBytes = nonce.1 := List.take_left' nonce.2
    have hdrop : (nonce.1 ++ ciphertext).drop nonceBytes = ciphertext := List.drop_left' nonce.2
    unfold decryptPayload
    rw [dif_pos (by rw [htake, nonce.2])]
    simp only [htake, hdrop]
    rw [hdec]
  refine .require (fun _ => ?_) (fun hbig => absurd ?_ hbig)
  · unfold unprotect
    rw [hpayload]
    dsimp only
    rw [Script.bind_assoc]
    refine .require (fun _ => ?_) (fun hshort => absurd ?_ hshort)
    · rw [Script.bind_assoc]
      exact loadOrCreateKey_bind hkey hfresh hG hsame (by rw [hopen]; rfl) fun _ _ => rfl
    · rw [List.length_append, hnonce, hsize, nonceBytes]
      omega
  · simp only [List.length_append, hheader, hnonce, hsize]
    omega

/-- How storing a value may end. What a reader finds at the name is the new value
or one that was there, and there is one if there was one. -/
structure Stored (gcm : Gcm) (key : MasterKey) (plaintext : Bytes) (path : String)
    (d : Disk String UInt8) (clean : Bool) (result : Option (Except SecureStoreError Unit))
    (d' : Disk String UInt8) : Prop where
  frame : ∀ f, f ∉ filesOf localSecrets → f ∉ filesOf path → d' f = d f
  kept : KeyKept key d d'
  held : ∀ x, Holds d' path x → Holds d path x ∨
    d' path = some x ∧ SecretHeld gcm key plaintext x ∧ Present d' localSecrets
  there : Present d path → Present d' path
  ok : result = some (.ok ()) →
    (∃ x, d' path = some x ∧ SecretHeld gcm key plaintext x) ∧
    (clean = true → d' (backupPath path) = none)
  rejected : ∀ e, clean = true → result = some (.error e) → SameFiles d d' path

theorem Stored.unchanged {plaintext : Bytes} {path : String} {d' : Disk String UInt8} {c : Bool}
    {r : Option (Except SecureStoreError Unit)} (hframe : OnlyFiles localSecrets d d')
    (hkept : KeyKept key d d') (hsame : SameFiles d d' path) (hr : r ≠ some (.ok ())) :
    Stored gcm key plaintext path d c r d' :=
  ⟨fun f hf _ => hframe f hf, hkept, fun x hx => .inl ((hsame.holds_iff x).mp hx),
    hsame.present_iff.mpr, fun h => (hr h).elim, fun _ _ _ => hsame⟩

theorem KeyKept.refl (hkey : KeyedBy d localSecrets key) : KeyKept key d d := ⟨hkey, id⟩

theorem Stored.of_replaced {plaintext x : Bytes} {path : String} {d₁ d' : Disk String UInt8}
    {c c' : Bool} {r : Option (Except SecureStoreError Unit)}
    (hapart : Apart localSecrets path) (hframe : OnlyFiles localSecrets d d₁)
    (hkept : KeyKept key d d₁) (hx : SecretHeld gcm key plaintext x)
    (hpresent : Present d₁ localSecrets) (h : Replaced path x d₁ c' r d') :
    Stored gcm key plaintext path d (c && c') r d' := by
  have hsame := hframe.same hapart
  have hlocal := h.frame.same hapart.symm
  refine ⟨fun f hf hf' => (h.frame f hf').trans (hframe f hf), ?_, ?_, ?_, ?_, ?_⟩
  · exact ⟨fun y hy => hkept.keyed y ((hlocal.holds_iff y).mp hy),
      fun hp => hlocal.present_iff.mpr (hkept.present hp)⟩
  · rintro y (hy | hy)
    · rcases h.primary y hy with rfl | hold
      · exact .inr ⟨hy, hx, hlocal.present_iff.mpr hpresent⟩
      · exact .inl ((hsame.holds_iff y).mp hold)
    · exact .inl ((hsame.holds_iff y).mp (h.backup y hy))
  · exact fun hp => h.kept (hsame.present_iff.mpr hp)
  · rintro hr
    obtain ⟨hplace, hgone⟩ := h.ok hr
    refine ⟨⟨x, hplace, hx⟩, fun hclean => hgone ?_⟩
    exact (Bool.and_eq_true _ _ ▸ hclean : c = true ∧ c' = true).2
  · intro e hclean hr
    obtain ⟨rfl, -⟩ := h.error e hr
    rw [Bool.and_false] at hclean
    cases hclean

theorem store_spec (hgcm : gcm.Lawful) {name : String} {plaintext : Bytes} {nonce : NonceBytes}
    (hapart : validName name = true → Apart localSecrets (secretPath name))
    (hkey : KeyedBy d localSecrets key) (hfresh : ¬Present d localSecrets → key = fresh)
    (hG : ∀ e, G e → Spared d localSecrets e ∧ Spared d (secretPath name) e) :
    (store gcm name plaintext nonce fresh).Ends G d
      (Stored gcm key plaintext (secretPath name) d) := by
  have hkept : KeyKept key d d := .refl hkey
  have hstop : ∀ c (r : Option (Except SecureStoreError Unit)), r ≠ some (.ok ()) →
      Stored gcm key plaintext (secretPath name) d c r d :=
    fun _ _ => .unchanged (fun _ _ => rfl) hkept ⟨rfl, rfl⟩
  refine .require (fun hvalid => ?_) fun _ => ⟨hstop _ _ (by simp), hstop _ _ (by simp)⟩
  refine .require (fun hlen => ?_) fun _ => ⟨hstop _ _ (by simp), hstop _ _ (by simp)⟩
  refine .act (fun _ => hstop _ _ (by simp)) (fun _ => hstop _ _ (by simp)) (fun _ _ => ?_)
    fun x hx => by cases hx
  refine .bind ((protect_spec hgcm hlen hkey hfresh (fun e he => (hG e he).1)
    ⟨rfl, rfl⟩).weaken ?_)
  intro c r d₁ h
  have hsame := h.frame.same (hapart hvalid)
  cases r with
  | none => exact .unchanged h.frame h.kept hsame (by simp)
  | some r =>
    cases r with
    | error e => exact .unchanged h.frame h.kept hsame (by simp)
    | ok x =>
      obtain ⟨hx, hpresent⟩ := h.ok x rfl
      show (writePrivateAtomic (secretPath name) x).Ends G d₁ fun c' =>
        Stored gcm key plaintext (secretPath name) d (c && c')
      refine (writePrivateAtomic_spec x (fun e he => (hG e he).2) hsame.1.symm
        hsame.2.symm).weaken fun c' r d' hr => ?_
      exact .of_replaced (hapart hvalid) h.frame h.kept hx hpresent hr

theorem load_spec (hgcm : gcm.Lawful) {name : String} (hvalid : validName name = true)
    (hkey : KeyedBy d localSecrets key) (hfresh : ¬Present d localSecrets → key = fresh)
    {stored : Option Bytes → Prop}
    (hheld : ∀ x, Holds d (secretPath name) x → ∃ plaintext, stored (some plaintext) ∧
      SecretHeld gcm key plaintext x)
    (hmissing : ¬Present d (secretPath name) → stored none)
    (hG : ∀ e, G e → Spared d localSecrets e ∧ Spared d (secretPath name) e) :
    (load gcm name fresh).Ends G d (WithKey key d fun v _ => stored v) := by
  have hkept : KeyKept key d d := .refl hkey
  refine .require (fun _ => ?_) fun hinvalid => (hinvalid hvalid).elim
  refine readWithBackup_spec (fun e he => (hG e he).2) ⟨rfl, rfl⟩ ?_ (fun c x hx => ?_)
    (fun hnone c => ?_) ?_
  · exact .stop (fun _ _ => rfl) hkept
  · obtain ⟨plaintext, hstored, hplain⟩ := hheld x hx
    refine (unprotect_spec hgcm hplain hkey hfresh (fun e he => (hG e he).1)
      ⟨rfl, rfl⟩).weaken fun c' r d' h => ⟨h.frame, h.kept, fun v hv => ?_, fun e he => ?_⟩
    · exact h.ok v hv ▸ hstored
    · obtain ⟨rfl, hio⟩ := h.error e he
      exact ⟨Bool.and_false c, hio⟩
  · refine ⟨⟨fun _ _ => rfl, hkept, fun v hv => ?_, by simp⟩, .stop (fun _ _ => rfl) hkept⟩
    exact Except.ok.inj (Option.some.inj hv) ▸ hmissing hnone
  · exact ⟨⟨fun _ _ => rfl, hkept, by simp, fun e he => by cases he; exact ⟨rfl, _, rfl⟩⟩,
      .stop (fun _ _ => rfl) hkept⟩

end Specs

end Cinder.Secrets
