import Cinder.Secrets.SecretFiles
set_option autoImplicit false

/-!
What each call of the store leaves on the disk and returns, whatever fails in it
and wherever it stops: the key stays the key, and a value that is read is one
that is there.
-/

namespace Cinder.Secrets
open Cinder.Host Cinder.Storage

def Present (d : Disk String UInt8) (path : String) : Prop :=
  d path ≠ none ∨ d (backupPath path) ≠ none

def Holds (d : Disk String UInt8) (path : String) (x : Bytes) : Prop :=
  d path = some x ∨ d (backupPath path) = some x

def KeyedBy (d : Disk String UInt8) (path : String) (key : MasterKey) : Prop :=
  ∀ x, Holds d path x → x = key.1

theorem Holds.present {d : Disk String UInt8} {path : String} {x : Bytes} (h : Holds d path x) :
    Present d path := by
  rcases h with h | h
  · exact .inl (by simp [h])
  · exact .inr (by simp [h])

theorem Present.holds {d : Disk String UInt8} {path : String} (h : Present d path) :
    ∃ x, Holds d path x := by
  rcases h with h | h
  · obtain ⟨x, hx⟩ := Option.ne_none_iff_exists'.mp h
    exact ⟨x, .inl hx⟩
  · obtain ⟨x, hx⟩ := Option.ne_none_iff_exists'.mp h
    exact ⟨x, .inr hx⟩

def SameFiles (d d' : Disk String UInt8) (path : String) : Prop :=
  d' path = d path ∧ d' (backupPath path) = d (backupPath path)

theorem SameFiles.present_iff {d d' : Disk String UInt8} {path : String} (h : SameFiles d d' path) :
    Present d' path ↔ Present d path := by
  rw [Present, Present, h.1, h.2]

theorem SameFiles.holds_iff {d d' : Disk String UInt8} {path : String} (h : SameFiles d d' path)
    (x : Bytes) : Holds d' path x ↔ Holds d path x := by
  rw [Holds, Holds, h.1, h.2]

theorem OnlyFiles.same {d d' : Disk String UInt8} {path path' : String} (h : OnlyFiles path d d')
    (hapart : Apart path path') : SameFiles d d' path' := by
  obtain ⟨hmem, -, hmemB⟩ := mem_files path'
  exact ⟨h _ fun hf => hapart _ hf hmem, h _ fun hf => hapart _ hf hmemB⟩

section Specs
variable {G : FileEvent String UInt8 → Prop} {start d : Disk String UInt8} {path : String}

/-- A read finds what is there. A file that is not there is missed only when
none is. -/
theorem readWithBackup_spec {β : Type} {f : Except IoError Bytes → Secure β}
    {Q : Bool → Option (Except SecureStoreError β) → Disk String UInt8 → Prop}
    (hG : ∀ e, G e → Spared start path e) (hsame : SameFiles start d path)
    (hcrash : Q false none d)
    (hvalue : ∀ c x, Holds d path x → (f (.ok x)).Ends G d fun c' r d' => Q (c && c') r d')
    (hmissing : ¬Present d path → ∀ c, (f (.error .notFound)).Ends G d fun c' r d' =>
      Q (c && c') r d')
    (herror : (f (.error .other)).Ends G d fun _ r d' => Q false r d') :
    (readWithBackup path >>= f).Ends G d Q := by
  have hthere : ∀ {f x}, d f = some x → FileOp.perform d (.read f) = (.ok x, d) :=
    fun h => by simp [FileOp.perform, h]
  have hgone : ∀ {f}, d f = none → FileOp.perform d (.read f) = (.error .notFound, d) :=
    fun h => by simp [FileOp.perform, h]
  refine ⟨fun _ _ => hcrash, fun _ _ => ⟨fun _ _ => hcrash, fun _ _ => herror, fun _ => ?_⟩,
    fun _ => ?_⟩
  · -- the file cannot be read, whether it is there or not
    cases hb : d (backupPath path) with
    | some x =>
      rw [show FileOp.torn _ d (.read path) = d from rfl, hthere hb]
      exact hvalue false x (.inr hb)
    | none =>
      rw [show FileOp.torn _ d (.read path) = d from rfl, hgone hb]
      exact herror
  · cases hp : d path with
    | some x =>
      rw [hthere hp]
      exact hvalue true x (.inl hp)
    | none =>
      rw [hgone hp]
      refine ⟨fun _ _ => hcrash, fun n hev => ?_, fun _ => ?_⟩
      · have hnone : d (backupPath path) = none := by
          by_contra hsome
          exact (hG _ hev (hsame.1 ▸ hp) (hsame.2 ▸ hsome)).1 ⟨rfl, rfl⟩
        exact hmissing (by simp [Present, hp, hnone]) false
      · cases hb : d (backupPath path) with
        | some x =>
          rw [hthere hb]
          exact hvalue true x (.inr hb)
        | none =>
          rw [hgone hb]
          exact hmissing (by simp [Present, hp, hb]) true

/-- How taking the key at a path may end: what is there is the key, and it is
there for good. -/
structure KeyTaken (path : String) (key : MasterKey) (d : Disk String UInt8) (clean : Bool)
    (result : Option (Except SecureStoreError MasterKey)) (d' : Disk String UInt8) : Prop where
  frame : OnlyFiles path d d'
  keyed : KeyedBy d' path key
  present : Present d path → Present d' path
  ok : ∀ k, result = some (.ok k) → k = key ∧ Present d' path
  error : ∀ e, result = some (.error e) → clean = false ∧ ∃ x, e = .io x

theorem KeyTaken.stop {key : MasterKey} (h : KeyedBy d path key) :
    KeyTaken path key d false none d ∧
      ∀ x, KeyTaken path key d false (some (.error (.io x))) d :=
  ⟨⟨fun _ _ => rfl, h, id, by simp, by simp⟩, fun x => ⟨fun _ _ => rfl, h, id, by simp, by simp⟩⟩

theorem KeyTaken.unclean {key : MasterKey} {c : Bool} {d' : Disk String UInt8}
    {r : Option (Except SecureStoreError MasterKey)} (h : KeyTaken path key d c r d') :
    KeyTaken path key d false r d' :=
  ⟨h.frame, h.keyed, h.present, h.ok, fun e he => ⟨rfl, (h.error e he).2⟩⟩

theorem writeKey_spec {key : MasterKey} (hkey : KeyedBy d path key)
    (hG : ∀ e, G e → Spared start path e) (hsame : SameFiles start d path) :
    (do writePrivateAtomic path key.1; pure key).Ends G d (KeyTaken path key d) := by
  refine .bind ((writePrivateAtomic_spec key.1 hG hsame.1.symm hsame.2.symm).weaken ?_)
  intro c r d' h
  have hkeyed : KeyedBy d' path key := by
    rintro x (hx | hx)
    · exact (h.primary x hx).elim id (hkey x)
    · exact hkey x (h.backup x hx)
  cases r with
  | none => exact ⟨h.frame, hkeyed, h.kept, by simp, by simp⟩
  | some r =>
    cases r with
    | error e =>
      obtain ⟨rfl, hio⟩ := h.error e rfl
      exact ⟨h.frame, hkeyed, h.kept, by simp, fun e' he => by cases he; exact ⟨rfl, hio⟩⟩
    | ok u =>
      have hpresent : Present d' path := .inl (by simp [(h.ok rfl).1])
      refine ⟨⟨h.frame, hkeyed, h.kept, fun k hk => ?_, by simp⟩,
        h.frame, hkeyed, h.kept, by simp, by simp⟩
      exact ⟨(Except.ok.inj (Option.some.inj hk)).symm, hpresent⟩

/-- `clean` says how it went so far: it went wrong where the file is there and
was not seen. -/
theorem keepKey_spec {key : MasterKey} (hkey : KeyedBy d path key)
    (hG : ∀ e, G e → Spared start path e) (hsame : SameFiles start d path) {seen clean : Bool}
    (hseen : seen = true → d path ≠ none) (hunseen : seen = false → clean = true → d path = none)
    (hpresent : Present d path) :
    (keepKey path seen key.1).Ends G d fun c => KeyTaken path key d (clean && c) := by
  have hstop := KeyTaken.stop hkey
  refine .act (fun _ => ?_) (fun _ => ?_) (fun _ _ => ?_) (fun x hx => ?_)
  · rw [Bool.and_false]
    exact hstop.1
  · rw [Bool.and_false]
    exact hstop.2 _
  · rw [dif_pos key.2]
    cases seen with
    | true =>
      refine ⟨⟨fun _ _ => rfl, hkey, id, fun k hk => ?_, by simp⟩, ?_⟩
      · exact ⟨(Except.ok.inj (Option.some.inj hk)).symm, hpresent⟩
      · show KeyTaken path key d (clean && false) none d
        rw [Bool.and_false]
        exact hstop.1
    | false =>
      refine (writeKey_spec hkey hG hsame).weaken fun c r d' h => ?_
      cases clean with
      | true => exact h
      | false => exact h.unclean
  · -- only a file that is not there cannot be tightened
    have hmiss : d (if seen = true then path else backupPath path) = none := by
      by_contra hsome
      rw [FileOp.perform, if_pos (Option.isSome_iff_ne_none.mpr hsome)] at hx
      cases hx
    have hclean : clean = false := by
      cases seen with
      | true => exact absurd hmiss (hseen rfl)
      | false =>
        cases clean with
        | false => rfl
        | true =>
          have hnone := hunseen rfl rfl
          exact absurd hpresent (by simpa [Present, hnone] using hmiss)
    rw [hclean]
    exact ⟨hstop.2 x, hstop.1⟩

/-- A key that is there is returned and stays there. A fresh one takes its place
only where there is none. -/
theorem loadOrCreateKey_spec {key fresh : MasterKey} (hkey : KeyedBy d path key)
    (hfresh : ¬Present d path → key = fresh) (hG : ∀ e, G e → Spared start path e)
    (hsame : SameFiles start d path) :
    (loadOrCreateKey path fresh).Ends G d (KeyTaken path key d) := by
  have hstop := KeyTaken.stop hkey
  have hread : ∀ (seen clean : Bool) (f : Except IoError Bytes → Secure MasterKey),
      (∀ bytes, f (.ok bytes) = keepKey path seen bytes) →
      f (.error .notFound) = createKey path fresh →
      f (.error .other) = .fail (.io .other) → (seen = true → d path ≠ none) →
      (seen = false → clean = true → d path = none) →
      (readWithBackup path >>= f).Ends G d fun c => KeyTaken path key d (clean && c) := by
    intro seen clean f hkept hcreate hfail hseen hunseen
    refine readWithBackup_spec hG hsame ?_ (fun c x hx => ?_) (fun hnone c => ?_) ?_
    · rw [Bool.and_false]
      exact hstop.1
    · obtain rfl := hkey x hx
      rw [hkept]
      refine (keepKey_spec hkey hG hsame hseen hunseen hx.present).weaken fun c' r d' h => ?_
      cases c with
      | true => exact h
      | false =>
        rw [Bool.false_and, Bool.and_false]
        exact h.unclean
    · obtain rfl := hfresh hnone
      rw [hcreate]
      refine (writeKey_spec hkey hG hsame).weaken fun c' r d' h => ?_
      cases hc : clean && (c && c') with
      | false => exact h.unclean
      | true =>
        have hc' : c' = true := by
          simp only [Bool.and_eq_true] at hc
          exact hc.2.2
        exact hc' ▸ h
    · rw [hfail, Bool.and_false]
      exact ⟨hstop.2 _, hstop.1⟩
  refine ⟨fun _ _ => hstop.1, fun _ _ => ?_, fun _ => ?_⟩
  · exact hread false false _ (fun _ => rfl) rfl rfl (by simp) (by simp)
  · cases hp : d path with
    | some x =>
      rw [show FileOp.perform d (.metadata path) = (.ok [], d) by simp [FileOp.perform, hp]]
      exact hread true true _ (fun _ => rfl) rfl rfl (by simp [hp]) (by simp)
    | none =>
      rw [show FileOp.perform d (.metadata path) = (.error .notFound, d) by
        simp [FileOp.perform, hp]]
      exact hread false true _ (fun _ => rfl) rfl rfl (by simp) (fun _ _ => hp)

end Specs

end Cinder.Secrets
